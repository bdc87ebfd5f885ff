import SheetMill.Proofs.TaskEvents

/-!
# Tasks that a request is not about

The answer about a task depends on the hash under its key, on its document, and of the sets only on
whether members can be added to them; so no request about one task changes the answer about another
one, whatever outages strike.
-/

namespace SheetMill.Database

open Act Value Message Documents TaskCache Tasks Function List
open Cache (held HoldsOr HashOr ttlAt hashKind setKind wrongType)

variable {s s₀ t : State} {c d e : Cache} {k kind : String} {owner : String × String}
  {docs : Documents} {sets : List (Value × Value)}

/-! ## Outages -/

/-- Calls that are struck fail, and nothing else happens to them. -/
def Mild (outages : List (Outage Disturbance)) : Prop :=
  ∀ e ∈ outages.map (·.effect), ∃ f, e = .fails f

/-- A call is announced in the same way in all states with the same outages. -/
theorem announce_mild {outages : List (Outage Disturbance)} (h : Mild outages)
    (target method : String) :
    ∃ (r : Outcome Unit) (rest : List (Outage Disturbance)), Mild rest ∧
      ∀ s : State, s.outages = outages → announce target method s =
        (do modify fun s => { s with outages := rest }; liftM r : Work Unit) s := by
  rcases hstrike : Outage.strike target method outages with ⟨effect, rest⟩
  have hrest : Mild rest := by
    have heffects := Outage.strike_effects target method outages
    rw [hstrike] at heffects
    rw [Mild, heffects]
    exact h
  cases effect with
  | none =>
    refine ⟨.ok (), rest, hrest, fun s hs => ?_⟩
    refine (bind_of_ok (get_run s)).trans ?_
    rw [hs, hstrike]
    rfl
  | some e =>
    obtain ⟨f, rfl⟩ := h e (Outage.strike_mem (congrArg Prod.fst hstrike))
    refine ⟨.error f, rest, hrest, fun s hs => ?_⟩
    refine (bind_of_ok (get_run s)).trans ?_
    rw [hs, hstrike]
    rfl

theorem Cache.held_of_alter {empty : Value} {change : Value → Outcome Value} {c' : Cache}
    (h : c.alter kind empty change (.text k) = .ok c') : ∃ old new, HoldsOr c k kind empty old ∧
      change old = .ok new ∧ held c' = update (held c) k (some (.text kind, new)) := by
  rw [alter_eq] at h
  obtain ⟨new, hnew, h⟩ := Outcome.bind_eq_ok.mp h
  obtain ⟨old, hold, hchg⟩ := altered_eq_ok.mp hnew
  cases h
  exact ⟨old, new, hold, hchg, held_put ..⟩

/-! ## What a call about a task does to the stores -/

def Open (cache : Cache) (k : String) : Prop :=
  ∃ members, HoldsOr cache k setKind (.list []) (.list members)

def HasSet (cache : Cache) (k : String) : Prop :=
  ∃ members, held cache k = some (.text setKind, .list members)

def HasHash (cache : Cache) (k : String) : Prop :=
  ∃ fs, held cache k = some (.text hashKind, fs)

theorem HasHash.not_open (h : HasHash c k) : ¬ Open c k := by
  obtain ⟨fs, hflds⟩ := h
  rintro ⟨members, hset | ⟨hnone, -⟩⟩
  · rw [hflds] at hset
    simp [hashKind, setKind] at hset
  · rw [hflds] at hnone
    cases hnone

theorem open_congr (h : held d k = held c k) : Open d k ↔ Open c k := by
  simp only [Open, HoldsOr, h]

/-- The caches hold the same under all keys but those of the task: a hash may be put under its key,
and a set under the key of an import to which a member could be added. -/
def Touches (owner : String × String) (c d : Cache) : Prop :=
  ∀ k, held d k = held c k ∨ k = keyOf owner.1 owner.2 ∧ HasHash d k ∨
    (∃ name, k = indexOf owner.1 name) ∧ Open c k ∧ HasSet d k

theorem touches_of_held (h : held d = held c) : Touches owner c d := fun k => .inl (congrFun h k)

theorem Touches.trans (h : Touches owner c d) (h' : Touches owner d e) : Touches owner c e := by
  intro k
  -- a hash of the first call stays, as no member can be added to it
  rcases h' k with hsame | hhash | ⟨hidx, hopen, hset⟩
  · simpa only [HasHash, HasSet, hsame] using h k
  · exact .inr (.inl hhash)
  · rcases h k with hsame | hhash | ⟨-, hopen', -⟩
    · exact .inr (.inr ⟨hidx, (open_congr hsame).mp hopen, hset⟩)
    · exact absurd hopen hhash.2.not_open
    · exact .inr (.inr ⟨hidx, hopen', hset⟩)

theorem setFields_touches {texts : List (Value × Value)}
    (h : c.setFields (.text (keyOf owner.1 owner.2)) texts = .ok d) : Touches owner c d := by
  obtain ⟨old, new, -, -, hheld⟩ := Cache.held_of_alter h
  intro k
  rw [hheld]
  by_cases hk : k = keyOf owner.1 owner.2
  · exact .inr (.inl ⟨hk, new, by rw [hheld, hk, update_self]⟩)
  · exact .inl (update_of_ne hk _ _)

/-- Adding to a set leaves what is no set as it is. -/
theorem alter_touches {change : Value → Outcome Value} {name : String}
    (hchg : ∀ old new, change old = .ok new →
      new = old ∨ ∃ members members', old = .list members ∧ new = .list members')
    (h : c.alter setKind (.list []) change (.text (indexOf owner.1 name)) = .ok d) :
    Touches owner c d := by
  obtain ⟨old, new, hold, hnew, hheld⟩ := Cache.held_of_alter h
  intro k
  by_cases hk : k = indexOf owner.1 name
  · subst hk
    -- under the key of an import there may be a set that is no list, which nothing changes
    have hlists : (∃ members members', old = .list members ∧ new = .list members') ∨
        held c (indexOf owner.1 name) = some (.text setKind, old) ∧ new = old := by
      rcases hchg old new hnew with rfl | hlists
      · rcases hold with hset | ⟨-, rfl⟩
        · exact .inr ⟨hset, rfl⟩
        · exact .inl ⟨[], [], rfl, rfl⟩
      · exact .inl hlists
    rcases hlists with ⟨members, members', rfl, rfl⟩ | ⟨hset, rfl⟩
    · exact .inr (.inr ⟨⟨name, rfl⟩, ⟨members, hold⟩, members', by rw [hheld, update_self]⟩)
    · exact .inl (by rw [hheld, update_self, hset])
  · exact .inl (by rw [hheld, update_of_ne hk])

/-- All documents are maps, and of the tasks but one the same documents are found. -/
structure Refiles (owner : String × String) (docs docs' : Documents) : Prop where
  maps : AllMaps docs'
  found : ∀ other, other ≠ owner →
    docs'.find? (meets (ownedBy other)) = docs.find? (meets (ownedBy other))

theorem Refiles.refl (h : AllMaps docs) : Refiles owner docs docs :=
  ⟨h, fun _ _ => rfl⟩

theorem isMap_of_meets {doc : Value} (h : meets (ownedBy owner) doc = true) :
    ∃ entries, doc = .map entries := by
  obtain ⟨entries, rfl, -⟩ := eq_map_of_field? (meets_ownedBy.mp h).1
  exact ⟨entries, rfl⟩

theorem Refiles.exchange {before after : Documents} {doc doc' : Value} (h : AllMaps docs)
    (hdoc : Located (meets (ownedBy owner)) docs before doc after)
    (hdoc' : meets (ownedBy owner) doc' = true) : Refiles owner docs (before ++ doc' :: after) := by
  rw [hdoc.eq] at h ⊢
  refine ⟨forall_mem_split.mpr ⟨isMap_of_meets hdoc', (forall_mem_split.mp h).2⟩,
    fun other hne => ?_⟩
  simp [meets_other hdoc.found hne, meets_other hdoc' hne]

theorem update_refiles {u : Value} (h : AllMaps docs)
    (hu : Sustains (fun doc => meets (ownedBy owner) doc = true) (amend u)) :
    (Documents.update (.record (ownedBy owner)) u).Leaves docs (Refiles owner docs) := by
  rcases located_or_none (meets (ownedBy owner)) docs with hnone | ⟨before, doc, after, hdoc⟩
  · exact ends_of_ok (update_none h hnone) (.refl h)
  · have hdoc' := hu doc hdoc.found
    cases hamend : amend u doc with
    | ok _ doc' =>
      rw [hamend] at hdoc'
      obtain ⟨report, hrun⟩ := update_split h hdoc hamend
      exact ends_of_ok hrun (.exchange h hdoc hdoc'.2)
    | error f doc' =>
      rw [hamend] at hdoc'
      exact ends_of_error (update_split_of_error h hdoc hamend) (.exchange h hdoc hdoc')

theorem replace_refiles {new : Value} (h : AllMaps docs) (hnew : meets (ownedBy owner) new = true)
    (id : Nat) :
    (replace (.record (ownedBy owner)) new id).Leaves docs (Refiles owner docs) := by
  have hid : ∀ w, meets (ownedBy owner) (new.withField "_id" w) = true := by
    intro w
    rw [meets_ownedBy, field?_withField_of_ne (by decide), field?_withField_of_ne (by decide)]
    exact meets_ownedBy.mp hnew
  rcases located_or_none (meets (ownedBy owner)) docs with hnone | ⟨before, doc, after, hdoc⟩
  · refine ends_of_ok (replace_none h hnone new id) ⟨?_, fun other hne => ?_⟩
    · simp only [AllMaps, mem_append, mem_singleton]
      rintro x (hx | rfl)
      · exact h x hx
      · exact isMap_of_meets (hid _)
    · simp [find?_append, meets_other (hid _) hne]
  · exact ends_of_ok (replace_split h hdoc new id) (.exchange h hdoc (hid _))

/-- The state may have come from the other one by a call about a task. -/
structure Frame (owner : String × String) (s₀ s : State) : Prop where
  mild : Mild s.outages
  cache : Touches owner s₀.cache s.cache
  documents : Refiles owner (s₀.documents collection) (s.documents collection)

theorem announce_frames (target method : String) :
    Sustains (Frame owner s₀) (announce target method) := by
  intro s h
  obtain ⟨r, rest, hrest, hrun⟩ := announce_mild h.mild target method
  rw [hrun s rfl]
  exact ((ensures_modify fun s hs => ⟨hrest, hs.cache, hs.documents⟩).bind
    fun _ _ => ensures_any r) s h

/-- Changes what the cache holds, or fails and leaves it as it is. -/
def Cache.rewrite (change : Cache → Outcome Cache) : Work Unit := do write (← change (← get).cache)

theorem Cache.insertMember_eq_rewrite (key v : Value) : insertMember key v = (do
    announce "redis" "sadd"
    rewrite (·.alter setKind (.list []) .ok key)
    let s ← (stored v : Outcome Value)
    rewrite (·.addMember key s)) := by
  simp only [insertMember, rewrite, bind_assoc]

theorem rewrite_frames {change : Cache → Outcome Cache}
    (h : ∀ c d, change c = .ok d → Touches owner c d) :
    Sustains (Frame owner s₀) (Cache.rewrite change) := by
  refine ensures_get.bind fun s hs => ?_
  refine (ensures_lift (Q := Touches owner s₀.cache) fun c hc => hs.cache.trans (h _ _ hc)).bind ?_
  exact fun c hc => ensures_modify fun s' hs' => ⟨hs'.mild, hc, hs'.documents⟩

theorem readFields_frames (key : Value) :
    Sustains (Frame owner s₀) (Cache.readFields key) :=
  (announce_frames _ _).bind fun _ _ => ensures_get.bind fun _ _ => ensures_any _

theorem storeFields_frames (fs : List (Value × Value)) :
    Sustains (Frame owner s₀) (Cache.storeFields (.text (keyOf owner.1 owner.2)) fs) := by
  refine (announce_frames _ _).bind fun _ _ => ?_
  refine (Ensures.forIn fun x _ => ?_).bind fun _ _ => ?_
  · dsimp only
    split_ifs
    · exact (ensures_throw (Q := fun _ => True) _).bind fun _ _ => ensures_pure rfl
    · exact ensures_pure rfl
  · refine (Ensures.mapM (R := fun _ => True) fun x _ => ?_).bind fun texts _ => ?_
    · exact .read fun _ => ensures_pure trivial
    · exact rewrite_frames fun c d => setFields_touches

theorem insertMember_frames (name : String) (member : Value) :
    Sustains (Frame owner s₀) (Cache.insertMember (.text (indexOf owner.1 name)) member) := by
  rw [Cache.insertMember_eq_rewrite]
  refine (announce_frames _ _).bind fun _ _ => ?_
  refine (rewrite_frames fun c d => alter_touches ?_).bind fun _ _ => ?_
  · rintro old new ⟨⟩
    exact .inl rfl
  · refine .read fun text => rewrite_frames fun c d => alter_touches ?_
    intro old new hnew
    cases old with
    | list members =>
      cases hnew
      exact .inr ⟨members, _, rfl, rfl⟩
    | _ => cases hnew

theorem setTtl_frames (key ttl : Value) :
    Sustains (Frame owner s₀) (Cache.setTtl key ttl) := by
  refine (announce_frames _ _).bind fun _ _ => ?_
  show Ensures _ (Cache.rewrite fun c => .ok (c.expire key ttl)) _
  refine rewrite_frames ?_
  rintro c d ⟨⟩
  exact touches_of_held (Cache.held_expire c key ttl)

theorem within_frames {α : Type} {method : String} {work : Act Documents α}
    (h : ∀ docs, AllMaps docs → work.Leaves docs (Refiles owner docs)) :
    Sustains (Frame owner s₀) (Documents.within collection method work) := by
  refine (announce_frames _ _).bind fun _ _ => ensures_iff_ends.mpr fun s hs => .within ?_
  have hnext : ∀ docs, Refiles owner (s.documents collection) docs →
      Frame owner s₀ (s.withDocuments collection docs) := by
    intro docs hdocs
    refine ⟨hs.mild, hs.cache, ?_⟩
    rw [documents_withDocuments]
    exact ⟨hdocs.maps, fun other hne => (hdocs.found other hne).trans (hs.documents.found other hne)⟩
  exact (h _ hs.documents.maps).mono (fun _ docs hdocs => ⟨trivial, hnext docs hdocs⟩)
    fun _ docs hdocs => hnext docs hdocs

theorem findOne_frames (filter : Value) :
    Sustains (Frame owner s₀) (findOne collection filter) := by
  refine within_frames fun docs hdocs => .bind (ends_get ?_)
  exact ends_lift (fun _ _ => .refl hdocs) fun _ _ => .refl hdocs

theorem store_frames (v : Value) :
    Sustains (Frame owner s₀) (store (.text owner.2) v (.text owner.1)) := by
  refine .read fun _ => .read fun importName => ?_
  refine .read fun status => .read fun code => ?_
  refine .read fun msg => .read fun _ => ?_
  refine .read fun data => ?_
  refine (storeFields_frames _).bind fun _ _ => ?_
  refine (insertMember_frames importName.plain _).bind fun _ _ => ?_
  refine .read fun ttl => ?_
  exact (setTtl_frames _ _).bind fun _ _ => setTtl_frames _ _

theorem change_frames {c : Change} (htask : c.task = .text owner.1)
    (hid : c.taskId = .text owner.2) : Sustains (Frame owner s₀) (change c) := by
  have hkey : taskKey c.task c.taskId = .text (keyOf owner.1 owner.2) := by
    rw [htask, hid, taskKey_text]
  rw [change, hkey]
  refine .read fun value => (storeFields_frames _).bind fun _ _ => ?_
  refine .bind (Q := fun _ => True) ?_ fun _ _ => Ensures.bind (Q := fun _ => True) ?_ ?_
  · unfold changeMessage
    rw [hkey]
    split_ifs
    · exact storeFields_frames _
    · exact ensures_pure trivial
  · unfold changeData
    rw [hkey]
    split_ifs
    · refine Ensures.bind (Q := fun _ => True) ?_ fun old _ => .read fun _ => .read fun _ =>
        storeFields_frames _
      unfold findStart
      split_ifs
      · exact ensures_pure trivial
      · exact (find_ensures_of readFields_frames _ _).bind fun _ _ => ensures_any _
    · exact ensures_pure trivial
  · intro _ _
    unfold prolong
    split_ifs
    · exact .read fun _ => setTtl_frames _ _
    · exact ensures_pure trivial

/-! ## The document of a task -/

def IsPart (v : Value) : Prop := ∃ name ∈ stateNames, v = .text name

theorem isPart_setEntry (h : ∀ e ∈ sets, IsPart e.1) {name : String} (hname : name ∈ stateNames)
    (v : Value) : ∀ e ∈ setEntry (.text name) v sets, IsPart e.1 := by
  induction sets with
  | nil => simpa [setEntry] using ⟨name, hname, rfl⟩
  | cons x rest ih =>
    obtain ⟨hx, hrest⟩ := forall_mem_cons.mp h
    rw [setEntry]
    split_ifs
    · exact forall_mem_cons.mpr ⟨hx, hrest⟩
    · exact forall_mem_cons.mpr ⟨hx, ih hrest⟩

theorem changeEach_ensures {P : Value → Prop} {u : Value} {operator : String}
    {es : List (Value × Value)} {change : Value → Value → Value → Outcome Value}
    (hents : u.getD operator (.map []) = .ok (.map es))
    (h : ∀ e ∈ es, ∀ doc doc', P doc → change e.1 e.2 doc = .ok doc' → P doc') :
    Sustains P (changeEach u operator change) := by
  refine .known hents (.known (a := es) rfl ((Ensures.forIn fun e he => ?_).bind fun _ _ =>
    ensures_pure trivial))
  refine ensures_get.bind fun doc hdoc => ?_
  refine (ensures_lift (Q := P) fun doc' => h e he doc doc' hdoc).bind fun doc' hdoc' => ?_
  exact (ensures_set hdoc').bind fun _ _ => ensures_pure rfl

theorem plain_stateNames :
    ∀ name ∈ stateNames, Text.split name '.' = [name] ∧ "task_id" ≠ name ∧ "task" ≠ name := by
  decide

theorem amend_ensures (h : ∀ e ∈ sets, IsPart e.1) :
    Sustains (fun doc => meets (ownedBy owner) doc = true) (amend (.record [("$set",
      .map sets)])) := by
  rw [amend_eq]
  refine (changeEach_ensures rfl fun e he doc doc' hdoc hdoc' => ?_).bind fun _ _ => ?_
  · obtain ⟨name, hname, hpart⟩ := h e he
    obtain ⟨es, rfl⟩ := isMap_of_meets hdoc
    have hsplit : Text.split name '.' = [name] ∧ "task_id" ≠ name ∧ "task" ≠ name :=
      plain_stateNames name hname
    rw [hpart, setAt_field hsplit.1] at hdoc'
    cases hdoc'
    rw [meets_ownedBy, field?_map, field?_map] at hdoc ⊢
    rwa [findEntry_setEntry, findEntry_setEntry, if_neg hsplit.2.1, if_neg hsplit.2.2]
  · refine (changeEach_ensures rfl (forall_mem_nil _)).bind fun _ _ => ?_
    exact changeEach_ensures rfl (forall_mem_nil _)

theorem changeDocument_frames {c : Change} (htask : c.task = .text owner.1)
    (hid : c.taskId = .text owner.2) (hfld : IsPart c.field) :
    Sustains (Frame owner s₀) (changeDocument c) := by
  obtain ⟨name, hname, hfld⟩ := hfld
  have hfilter : ofTask c.taskId c.task = .record (ownedBy owner) := by rw [hid, htask]; rfl
  have hlast : ∀ sets, (∀ e ∈ sets, IsPart e.1) → Sustains (Frame owner s₀) (do
      let _ ← updateOne collection (.record (ownedBy owner)) (.record [("$set",
        .map sets)])) := fun sets hsets =>
    (within_frames fun docs hdocs => update_refiles hdocs (amend_ensures hsets)).bind fun _ _ =>
      ensures_pure trivial
  have hsets : ∀ e ∈ if c.message.truthy = true then
      setEntry (.text "message") c.message [(c.field, c.value)] else [(c.field, c.value)],
      IsPart e.1 := by
    have hone : ∀ e ∈ [(c.field, c.value)], IsPart e.1 := by simpa using ⟨name, hname, hfld⟩
    split_ifs
    · exact isPart_setEntry hone (by decide) _
    · exact hone
  unfold changeDocument
  dsimp only
  rw [if_neg (by simp [hfld, isKey]), hfilter]
  -- what is set besides is the merged data, wherever the old data come from
  generalize (if c.message.truthy = true then _ else _) = sets at hsets ⊢
  have hdata : ∀ v, Sustains (Frame owner s₀) (do
      let _ ← updateOne collection (.record (ownedBy owner))
        (.record [("$set", .map (setEntry (.text "data") v sets))])) :=
    fun v => hlast _ (isPart_setEntry hsets (by decide) v)
  split_ifs
  · exact hdata _
  · refine (findOne_frames _).bind fun found _ => ?_
    cases found with
    | none => exact .read fun v => hdata v
    | some doc =>
      dsimp only
      split_ifs
      · exact .read fun _ => .read fun v => hdata v
      · exact .read fun v => hdata v
  · exact hlast _ hsets

theorem storeDocument_frames (v : Value) :
    Sustains (Frame owner s₀) (storeDocument (.text owner.2) v (.text owner.1)) := by
  refine .read fun _ => .read fun importName => ?_
  refine .read fun status => .read fun code => ?_
  refine .read fun msg => .read fun data => ?_
  refine ensures_get.bind fun s _ => ?_
  refine (within_frames fun docs hdocs =>
    replace_refiles hdocs (meets_ownedBy.mpr ⟨rfl, rfl⟩) _).bind fun isOld _ => ?_
  split_ifs
  · exact ensures_modify fun s hs => ⟨hs.mild, hs.cache, hs.documents⟩
  · exact ensures_pure trivial

/-! ## Requests about a task -/

def About (req : Value) (owner : String × String) : Prop :=
  req.item "task_id" = .ok (.text owner.2) ∧ req.item "task" = .ok (.text owner.1)

/-- A request to store the state of a task, or to change a part of it. -/
inductive Writes (owner : String × String) : Work Value → Prop where
  | set {request : Value} (h : About request owner) : Writes owner (Tasks.set request)
  | update {request : Value} {part : String} (h : About request owner)
      (hpart : part ∈ stateNames) (hfield : request.item "field" = .ok (.text part)) :
      Writes owner (Tasks.update request)

theorem changeOf_eq_ok {req : Value} {c : Change} (h : About req owner) {v : Value}
    (hfld : req.item "field" = .ok v) (hc : changeOf req = .ok c) :
    c.taskId = .text owner.2 ∧ c.task = .text owner.1 ∧ c.field = v := by
  simp only [changeOf, h.1, h.2, hfld, Outcome.ok_bind, Outcome.bind_eq_ok] at hc
  obtain ⟨value, -, msg, -, data, -, reset, -, hc⟩ := hc
  cases hc
  exact ⟨rfl, rfl, rfl⟩

theorem Writes.frames {call : Work Value} (h : Writes owner call) :
    Sustains (Frame owner s₀) call := by
  cases h with
  | set h =>
    refine .handle ?_ fun _ => ensures_pure trivial
    refine .known h.1 (.read fun _ => .read fun v => ?_)
    refine .known h.2 ((store_frames v).bind fun _ _ => ?_)
    exact (storeDocument_frames v).bind fun _ _ => ensures_pure trivial
  | @update req part h hpart hfld =>
    refine .handle ?_ fun _ => ensures_pure trivial
    refine (ensures_lift fun c hc => changeOf_eq_ok h hfld hc).bind fun c hc => ?_
    obtain ⟨hid, htask, hpart'⟩ := hc
    refine (change_frames htask hid).bind fun _ _ => ?_
    exact (changeDocument_frames htask hid ⟨part, hpart,
      hpart'⟩).bind fun _ _ => ensures_pure trivial

/-! ## What the answer about a task depends on -/

/-- The states are the same to a request for the state of a task. -/
structure Same (owner : String × String) (s t : State) : Prop where
  mild : Mild s.outages
  outages : t.outages = s.outages
  hash : held t.cache (keyOf owner.1 owner.2) = held s.cache (keyOf owner.1 owner.2)
  index : ∀ name, held t.cache (indexOf owner.1 name) = held s.cache (indexOf owner.1 name) ∨
    Open s.cache (indexOf owner.1 name) ∧ Open t.cache (indexOf owner.1 name)
  maps : AllMaps (s.documents collection) ∧ AllMaps (t.documents collection)
  found : (t.documents collection).find? (meets (ownedBy owner)) =
    (s.documents collection).find? (meets (ownedBy owner))

theorem announce_alike (target method : String) : (announce target method).Alike (Same owner) := by
  intro s t h
  obtain ⟨r, rest, hrest, hrun⟩ := announce_mild h.mild target method
  rw [Ends, hrun s rfl, hrun t h.outages]
  refine Alike.bind (alike_modify fun s t h => ?_) (fun _ => alike_lift r) s t h
  exact ⟨hrest, rfl, h.hash, h.index, h.maps, h.found⟩

theorem Cache.rewrite_of_ok {change : Cache → Outcome Cache} (h : change s.cache = .ok c) :
    rewrite change s = .ok () { s with cache := c } :=
  (bind_of_ok (get_run s)).trans (bind_known h)

theorem Cache.rewrite_of_error {change : Cache → Outcome Cache} {f : Fault}
    (h : change s.cache = .error f) : rewrite change s = .error f s :=
  (bind_of_ok (get_run s)).trans (bind_of_error (lift_of_error h s))

/-- The same is put under a key, or a set with members under a key that is not the one of the
task. -/
theorem Same.put (h : Same owner s t) {v w : Value × Value}
    (hc : held c = update (held s.cache) k (some v))
    (hd : held d = update (held t.cache) k (some w))
    (hvw : v = w ∨ k ≠ keyOf owner.1 owner.2 ∧ ∃ members members',
      v = (.text setKind, .list members) ∧ w = (.text setKind, .list members')) :
    Same owner { s with cache := c } { t with cache := d } := by
  refine ⟨h.mild, h.outages, ?_, fun name => ?_, h.maps, h.found⟩
  · rw [hc, hd]
    by_cases hk : keyOf owner.1 owner.2 = k
    · obtain rfl := hvw.resolve_right fun hset => hset.1 hk.symm
      rw [hk, update_self, update_self]
    · rw [update_of_ne hk, update_of_ne hk, h.hash]
  · by_cases hk : indexOf owner.1 name = k
    · rcases hvw with rfl | ⟨-, members, members', rfl, rfl⟩
      · exact .inl (by rw [hc, hd, hk, update_self, update_self])
      · exact .inr ⟨⟨members, .inl (by rw [hc, hk, update_self])⟩,
          members', .inl (by rw [hd, hk, update_self])⟩
    · simpa only [Open, HoldsOr, hc, hd, update_of_ne hk] using h.index name

/-- What is the same under a key is altered in both caches in the same way, or in none. -/
theorem Same.alter (h : Same owner s t) (hk : held t.cache k = held s.cache k) (empty : Value)
    (change : Value → Outcome Value) :
    let act := Cache.rewrite (·.alter kind empty change (.text k))
    act.Ends s (fun a s' => ∃ t', act t = .ok a t' ∧ Same owner s' t')
      fun f s' => ∃ t', act t = .error f t' ∧ Same owner s' t' := by
  have hs := s.cache.alter_eq kind empty change k
  have ht := t.cache.alter_eq kind empty change k
  rw [hk] at ht
  cases hnew : Cache.altered kind empty change (held s.cache k) with
  | error f =>
    rw [hnew] at hs ht
    exact ends_of_error (Cache.rewrite_of_error hs) ⟨t, Cache.rewrite_of_error ht, h⟩
  | ok new =>
    rw [hnew] at hs ht
    exact ends_of_ok (Cache.rewrite_of_ok hs) ⟨_, Cache.rewrite_of_ok ht,
      h.put (Cache.held_put ..) (Cache.held_put ..) (.inl rfl)⟩

theorem storeFields_alike (fs : List (Value × Value)) :
    (Cache.storeFields (.text (keyOf owner.1 owner.2)) fs).Alike (Same owner) := by
  have hwrite : ∀ texts, (Cache.rewrite (·.setFields (.text (keyOf owner.1 owner.2)) texts)).Alike
      (Same owner) := fun texts s t h => h.alter h.hash _ _
  refine (announce_alike _ _).bind fun _ => (Alike.forIn (fun x => ?_) _).bind fun _ => ?_
  · dsimp only
    split_ifs
    · exact (alike_lift (.error _)).bind fun _ => alike_pure _
    · exact alike_pure _
  · rw [mapM_of_lift (g := fun x => do return (x.1, ← Cache.stored x.2)) fun x => by
      rw [lift_bind]; rfl]
    exact (alike_lift _).bind hwrite

/-- A member is added in both caches, or in none. -/
theorem addition_alike {change : Value → Outcome Value} (name : String)
    (hchg : ∀ members, ∃ members', change (.list members) = .ok (.list members')) :
    (Cache.rewrite (·.alter setKind (.list []) change (.text (indexOf owner.1 name)))).Alike
      (Same owner) := by
  intro s t h
  rcases h.index name with hsame | ⟨⟨members, hs⟩, members', ht⟩
  · exact h.alter hsame _ _
  -- the sets may differ, but both take the member
  · obtain ⟨new, hnew⟩ := hchg members
    obtain ⟨new', hnew'⟩ := hchg members'
    obtain ⟨c, hc, hent⟩ := Cache.alter_of_holdsOr hs hnew
    obtain ⟨d, hd, hent'⟩ := Cache.alter_of_holdsOr ht hnew'
    refine ends_of_ok (Cache.rewrite_of_ok hc) ⟨_, Cache.rewrite_of_ok hd, ?_⟩
    exact h.put (Cache.held_of_entryAt hent) (Cache.held_of_entryAt hent')
      (.inr ⟨(keyOf_ne_indexOf _ _ _).symm, new, new', rfl, rfl⟩)

theorem insertMember_alike (name : String) (member : Value) :
    (Cache.insertMember (.text (indexOf owner.1 name)) member).Alike (Same owner) := by
  rw [Cache.insertMember_eq_rewrite]
  refine (announce_alike _ _).bind fun _ => ?_
  refine (addition_alike name fun members => ⟨members, rfl⟩).bind fun _ => ?_
  exact .read fun text => addition_alike name fun members => ⟨_, rfl⟩

theorem setTtl_alike (key ttl : Value) : (Cache.setTtl key ttl).Alike (Same owner) := by
  refine (announce_alike _ _).bind fun _ s t h => ⟨_, rfl, ?_⟩
  refine ⟨h.mild, h.outages, ?_, fun name => ?_, h.maps, h.found⟩
  · simpa only [Cache.held_expire] using h.hash
  · simpa only [Open, HoldsOr, Cache.held_expire] using h.index name

theorem findOne_alike :
    (findOne collection (.record (ownedBy owner))).Alike (Same owner) := by
  have hrun : ∀ docs : Documents, AllMaps docs →
      (do (← get).first? (.record (ownedBy owner)) : Act Documents (Option Value)) docs =
        .ok (docs.find? (meets (ownedBy owner))) docs := fun docs hdocs =>
    (bind_of_ok (get_run docs)).trans (lift_of_ok (first?_record hdocs _) docs)
  refine (announce_alike _ _).bind fun _ s t h => ?_
  refine ends_of_ok (within_of_ok (hrun _ h.maps.1))
    ⟨_, by rw [← h.found]; exact within_of_ok (hrun _ h.maps.2), ?_⟩
  exact ⟨h.mild, h.outages, h.hash, h.index, by simpa using h.maps, by simpa using h.found⟩

theorem find_alike : (find (.text owner.2) (.text owner.1)).Alike (Same owner) := by
  refine ((announce_alike _ _).bind fun _ => alike_get (fun s t h => ?_) fun s => ?_).bind
    fun fs => ?_
  · rw [Cache.fields, Cache.fields, taskKey_text, Cache.contentOf_eq, Cache.contentOf_eq, h.hash]
  · exact alike_lift _
  · split
    · exact alike_pure _
    · exact .read fun _ => .read fun _ => alike_pure _

theorem findDocument_alike : (findDocument (.text owner.2) (.text owner.1)).Alike (Same owner) := by
  refine findOne_alike.bind fun found => ?_
  cases found with
  | none => exact alike_pure _
  | some doc =>
    dsimp only
    split_ifs
    · exact alike_lift _
    · exact alike_pure _

theorem store_alike (v : Value) : (store (.text owner.2) v (.text owner.1)).Alike (Same owner) := by
  refine .read fun _ => .read fun importName => ?_
  refine .read fun _ => .read fun _ => .read fun _ => ?_
  refine .read fun _ => .read fun _ => ?_
  refine (storeFields_alike _).bind fun _ => (insertMember_alike importName.plain _).bind fun _ => ?_
  exact .read fun _ => (setTtl_alike _ _).bind fun _ => setTtl_alike _ _

theorem get_alike {req : Value} (h : About req owner) :
    (Tasks.get req).Alike (Same owner) := by
  unfold Tasks.get
  rw [h.1, h.2]
  refine .handle (find_alike.bind fun found => ?_) fun _ => alike_pure _
  cases found with
  | some v => exact alike_pure _
  | none =>
    refine findDocument_alike.bind fun found => ?_
    cases found with
    | some v => exact (store_alike v).bind fun _ => alike_pure _
    | none => exact alike_pure _

/-- A request about a task leaves what the answer about another task depends on. -/
theorem Frame.same {other : String × String} (h : Frame owner s t)
    (howner : ':' ∉ owner.1.toList) (hother : ':' ∉ other.1.toList) (hne : other ≠ owner)
    (hmaps : AllMaps (s.documents collection)) {plan : List (Outage Disturbance)}
    (hplan : Mild plan) :
    Same other { s with outages := plan } { t with outages := plan } := by
  -- the keys of different tasks differ, and no key of a task is the key of an import
  refine ⟨hplan, rfl, ?_, fun name => ?_, ⟨hmaps, h.documents.maps⟩, h.documents.found other hne⟩
  · rcases h.cache (keyOf other.1 other.2) with hsame | ⟨hkey, -⟩ | ⟨⟨name, hidx⟩, -⟩
    · exact hsame
    · obtain ⟨htask, hid⟩ := keyOf_inj hother howner hkey
      exact absurd (Prod.ext htask hid) hne
    · exact absurd hidx (keyOf_ne_indexOf_of_plain hother howner)
  · rcases h.cache (indexOf other.1 name) with hsame | ⟨hkey, -⟩ | ⟨-, hopen, members, hset⟩
    · exact .inl hsame
    · exact absurd hkey.symm (keyOf_ne_indexOf_of_plain howner hother)
    · exact .inr ⟨hopen, members, .inl hset⟩

/-- Where the kinds of tasks have no colon, a request that stores the state of a task or changes a
part of it, whatever becomes of it, leaves the answer about every other task as it is. Under the key
of an import it leaves what was there or a set, and under the key of a task what was there or a
hash. -/
theorem writes_spare_other_tasks (s : State) (hmild : Mild s.outages)
    (hmaps : AllMaps (s.documents collection)) (owner other : String × String)
    (howner : ':' ∉ owner.1.toList) (hother : ':' ∉ other.1.toList) (hne : other ≠ owner)
    (call : Work Value) (hcall : Writes owner call) (request : Value)
    (hrequest : About request other) (plan : List (Outage Disturbance)) (hplan : Mild plan) :
    let s' := (call.outcome s).2
    ((Tasks.get request).outcome { s' with outages := plan }).1 =
      ((Tasks.get request).outcome { s with outages := plan }).1 ∧
    ∀ k, (IsIndexKey k → held s'.cache k = held s.cache k ∨ HasSet s'.cache k) ∧
      (IsTaskKey k → held s'.cache k = held s.cache k ∨ HasHash s'.cache k) := by
  intro s'
  have hframe : Frame owner s s' :=
    hcall.frames.state ⟨hmild, touches_of_held rfl, .refl hmaps⟩
  refine ⟨((get_alike hrequest).outcome (hframe.same howner hother hne hmaps hplan)).1, fun k => ?_⟩
  have htask : IsTaskKey (keyOf owner.1 owner.2) := ⟨_, _, howner, rfl⟩
  rcases hframe.cache k with hsame | ⟨rfl, hhash⟩ | ⟨⟨name, rfl⟩, -, hset⟩
  · exact ⟨fun _ => .inl hsame, fun _ => .inl hsame⟩
  · exact ⟨fun hindex => absurd hindex htask.not_index, fun _ => .inr hhash⟩
  · exact ⟨fun _ => .inr hset, fun hkey => absurd ⟨_, _, howner, rfl⟩ hkey.not_index⟩

/-- A task is stored next to another one with the same identity. -/
theorem writes_spare_other_tasks_namesake :
    let s : State := { collections := [("tasks", [documentOf ("schemas", "1") queued])] }
    let call := Tasks.set (.record [("task_id", .text "1"), ("value", queued.toValue),
      ("task", .text "validation")])
    let request : Value := .record [("task_id", .text "1"), ("task", .text "schemas")]
    ((Tasks.get request).outcome { (call.outcome s).2 with outages := [] }).1 =
      ((Tasks.get request).outcome { s with outages := [] }).1 := by
  intro s call request
  have hmaps : AllMaps (s.documents collection) := by
    simp [AllMaps, s, State.documents, collection, documentOf, record]
  have hcall : Writes ("validation", "1") call := .set ⟨rfl, rfl⟩
  exact (writes_spare_other_tasks s (by simp [Mild, s]) hmaps _ ("schemas", "1") (by decide)
    (by decide) (by decide) call hcall request ⟨rfl, rfl⟩ [] (by simp [Mild])).1

/-! ## Reading a task that is not in the cache -/

variable {q : GetTaskRequest} {m : ApiResponse} {doc : Value}

theorem get_frames (q : GetTaskRequest) :
    Sustains (Frame (q.task, q.taskId) s₀) (Tasks.get q.toValue) := by
  refine .handle ?_ fun _ => ensures_pure trivial
  refine (find_ensures_of readFields_frames _ _).bind fun found _ => ?_
  cases found with
  | some v => exact ensures_pure trivial
  | none =>
    refine .bind (Q := fun _ => True) ((findOne_frames _).bind fun found _ => ?_)
      fun found _ => ?_
    · cases found with
      | none => exact ensures_pure trivial
      | some doc =>
        dsimp only
        split_ifs
        · exact ensures_any _
        · exact ensures_pure trivial
    · cases found with
      | some v => exact (store_frames v).bind fun _ _ => ensures_pure trivial
      | none => exact ensures_pure trivial

/-- The key holds a content of another kind. -/
def Other (cache : Cache) (k kind : String) : Prop :=
  ∃ other content, held cache k = some (.text other, content) ∧ other ≠ kind

theorem Other.ne_none {cache : Cache} (h : Other cache k kind) : held cache k ≠ none := by
  obtain ⟨other, content, hheld, -⟩ := h
  simp [hheld]

theorem Other.not_open {cache : Cache} (h : Other cache k setKind) : ¬ TaskCache.Open cache k := by
  obtain ⟨other, content, hheld, hne⟩ := h
  rintro (hnone | ⟨members, hset⟩)
  · simp [hheld] at hnone
  · simp [hheld, listed, hne] at hset

theorem Other.find (hs : s.Calm) (h : Other s.cache (keyOf q.task q.taskId) hashKind) :
    TaskCache.find (.text q.taskId) (.text q.task) s = .error wrongType s := by
  obtain ⟨other, content, hheld, hne⟩ := h
  unfold TaskCache.find
  exact bind_of_error (Cache.readFields_refused hs hheld hne)

theorem get_of_hashed (hs : s.Calm) (hm : m.Proper)
    (h : held s.cache (keyOf q.task q.taskId) = some (hashed m)) :
    Tasks.get q.toValue s = .ok (foundState (some m.toValue)) s := by
  exact handle_of_ok (bind_of_ok (find_of_hashed hs hm h))

theorem get_of_other (hs : s.Calm) (h : Other s.cache (keyOf q.task q.taskId) hashKind) :
    Tasks.get q.toValue s = .ok (foundState none) s := by
  rw [get_eq]
  exact handle_of_error (bind_of_error (h.find hs)) rfl

section Filling

variable (hs : s.Calm) (hmaps : AllMaps (s.documents collection))
  (hdoc : (s.documents collection).find? (meets (ownedBy (q.task, q.taskId))) = some doc)
  (hshows : Shows doc m) (hkey : held s.cache (keyOf q.task q.taskId) = none)

include hs hmaps hdoc hshows hkey

theorem get_fills (hidx : TaskCache.Open s.cache (indexOf q.task m.importName)) :
    ∃ s', Tasks.get q.toValue s = .ok (foundState (some m.toValue)) s' ∧
      held s'.cache (keyOf q.task q.taskId) = some (hashed m) := by
  obtain ⟨before, after, hloc⟩ := exists_located hdoc
  have hs' : (s.reread collection).Calm := hs
  obtain ⟨cache', members, hstore, hheld⟩ := store_calm hs' (.inl hkey) hidx
  refine ⟨_, handle_of_ok ((bind_of_ok (find_of_none hs hkey)).trans
    ((bind_of_ok (findDocument_shows hs hmaps hloc hshows)).trans (bind_of_ok hstore))), ?_⟩
  rw [hheld, update_of_ne (keyOf_ne_indexOf _ _ _), update_self]

theorem get_refused (hidx : Other s.cache (indexOf q.task m.importName) setKind) :
    ∃ s', Tasks.get q.toValue s = .ok (foundState none) s' ∧
      held s'.cache (keyOf q.task q.taskId) = some (hashed m) := by
  obtain ⟨before, after, hloc⟩ := exists_located hdoc
  have hs' : (s.reread collection).Calm := hs
  obtain ⟨kind, content, hother, hkind⟩ := hidx
  obtain ⟨cache', hstore, hheld⟩ := store_refused hs' (.inl hkey) hother hkind
  refine ⟨_, handle_of_error ((bind_of_ok (find_of_none hs hkey)).trans
    ((bind_of_ok (findDocument_shows hs hmaps hloc hshows)).trans (bind_of_error hstore))) rfl,
    ?_⟩
  rw [hheld, update_self]

end Filling

/-- A task that the cache does not have is read from its document, where the cache has nothing under
its key and takes members under that of its import; otherwise the answer is that there is no such
task. If nothing was under its key, the cache has it after that, and as long as it does, every
answer is the state in the document, whatever becomes of the document. Where the kinds of tasks have
no colon, the answers about other tasks are the same before and after. -/
theorem reading_fills_cache (s : State) (hs : s.Calm) (hmaps : AllMaps (s.documents collection))
    (q : GetTaskRequest) (doc : Value) (m : ApiResponse) (hm : m.Proper)
    (hdoc : (s.documents collection).find? (meets (ownedBy (q.task, q.taskId))) = some doc)
    (hshows : Shows doc m)
    (hkey : held s.cache (keyOf q.task q.taskId) = none ∨
      Other s.cache (keyOf q.task q.taskId) hashKind)
    (hindex : TaskCache.Open s.cache (indexOf q.task m.importName) ∨
      Other s.cache (indexOf q.task m.importName) setKind) :
    ∃ first s', Tasks.get q.toValue s = .ok (foundState first) s' ∧
      (first = some m.toValue ∨ first = none) ∧
      (first = some m.toValue ↔ held s.cache (keyOf q.task q.taskId) = none ∧
        TaskCache.Open s.cache (indexOf q.task m.importName)) ∧
      (held s.cache (keyOf q.task q.taskId) = none → ∀ t : State, t.Calm →
        held t.cache (keyOf q.task q.taskId) = held s'.cache (keyOf q.task q.taskId) →
          Tasks.get q.toValue t = .ok (foundState (some m.toValue)) t) ∧
      ∀ q' : GetTaskRequest, (q'.task, q'.taskId) ≠ (q.task, q.taskId) →
        ':' ∉ q.task.toList → ':' ∉ q'.task.toList → ∀ plan, Mild plan →
          ((Tasks.get q'.toValue).outcome { s' with outages := plan }).1 =
            ((Tasks.get q'.toValue).outcome { s with outages := plan }).1 := by
  have hmild : Mild s.outages := by
    rw [show s.outages = [] from hs]
    simp [Mild]
  have hothers : ∀ first s', Tasks.get q.toValue s = .ok (foundState first) s' →
      ∀ q' : GetTaskRequest, (q'.task, q'.taskId) ≠ (q.task, q.taskId) →
        ':' ∉ q.task.toList → ':' ∉ q'.task.toList → ∀ plan, Mild plan →
          ((Tasks.get q'.toValue).outcome { s' with outages := plan }).1 =
            ((Tasks.get q'.toValue).outcome { s with outages := plan }).1 := by
    intro first s' hrun q' hne hplain hplain' plan hplan
    have hframe := (get_frames q).state ⟨hmild, touches_of_held rfl, .refl hmaps⟩
    rw [outcome_of_ok hrun] at hframe
    exact ((get_alike ⟨rfl, rfl⟩).outcome (hframe.same hplain hplain' hne hmaps hplan)).1
  rcases hkey with hkey | hkey
  · rcases hindex with hindex | hindex
    · obtain ⟨s', hrun, hheld⟩ := get_fills hs hmaps hdoc hshows hkey hindex
      exact ⟨_, s', hrun, .inl rfl, by simp [hkey, hindex],
        fun _ t ht h => get_of_hashed ht hm (h.trans hheld), hothers _ s' hrun⟩
    · obtain ⟨s', hrun, hheld⟩ := get_refused hs hmaps hdoc hshows hkey hindex
      refine ⟨_, s', hrun, .inr rfl, ?_, fun _ t ht h => get_of_hashed ht hm (h.trans hheld),
        hothers _ s' hrun⟩
      simp [hindex.not_open]
  · have hrun := get_of_other (q := q) hs hkey
    refine ⟨_, s, hrun, .inr rfl, ?_, fun hnone => absurd hnone hkey.ne_none, hothers _ s hrun⟩
    simp [hkey.ne_none]

def readSchema : GetTaskRequest := { taskId := "1", task := "schemas" }

def uncached (cache : Cache) : State where
  cache := cache
  collections := [("tasks", [documentOf ("schemas", "1") queued])]

theorem allMaps_uncached (cache : Cache) : AllMaps ((uncached cache).documents collection) := by
  simp [AllMaps, uncached, State.documents, collection, documentOf, record]

/-- The document may be lost after it has been read. A text under the key of the import keeps the
first answer, but not the later ones, from telling the state. -/
theorem reading_fills_cache_lost :
    (∃ s', Tasks.get readSchema.toValue (uncached []) =
        .ok (foundState (some queued.toValue)) s' ∧
      Tasks.get readSchema.toValue { cache := s'.cache } =
        .ok (foundState (some queued.toValue)) { cache := s'.cache }) ∧
    let s := uncached [⟨.text "schemas:import:orders:tasks", .text "string", .text "", .null⟩]
    ∃ s', Tasks.get readSchema.toValue s = .ok (foundState none) s' ∧
      Tasks.get readSchema.toValue { cache := s'.cache } =
        .ok (foundState (some queued.toValue)) { cache := s'.cache } := by
  have hproper : queued.Proper := ⟨by simp [IsInt32, queued], by simp [queued]⟩
  constructor
  · obtain ⟨first, s', hrun, -, hfirst, hlater, -⟩ := reading_fills_cache (uncached []) rfl
      (allMaps_uncached _) readSchema _ queued hproper rfl ⟨rfl, rfl, rfl, rfl⟩ (.inl rfl)
      (.inl (.inl rfl))
    obtain rfl := hfirst.mpr ⟨rfl, .inl rfl⟩
    exact ⟨s', hrun, hlater rfl _ rfl rfl⟩
  · intro s
    have hother : Other s.cache (indexOf "schemas" "orders") setKind :=
      ⟨"string", _, rfl, by decide⟩
    obtain ⟨first, s', hrun, hcases, hfirst, hlater, -⟩ := reading_fills_cache s rfl
      (allMaps_uncached _) readSchema _ queued hproper rfl ⟨rfl, rfl, rfl, rfl⟩ (.inl rfl)
      (.inr hother)
    obtain rfl := hcases.resolve_left fun h => hother.not_open (hfirst.mp h).2
    exact ⟨s', hrun, hlater rfl _ rfl rfl⟩

end SheetMill.Database
