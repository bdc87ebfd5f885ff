import SheetMill.Proofs.TaskStores

/-!
# What requests about tasks keep

A property of the entries of the cache and a property of the documents of tasks outlive every
request if they outlive what the request writes.
-/

namespace SheetMill.Database.Tasks

open Act Value Message TaskCache Documents List
open Cache (Stocked Tidy HashOr ListOr StoredAs entryAt hashEntry listEntry held ttlAt hashKind setKind
  wrongType)

/-- The state is calm, the entries of its cache have one property and the documents of tasks
another. -/
structure Fit (p : Entry → Prop) (d : Value → Prop) (s : State) : Prop where
  calm : s.Calm
  stocked : Stocked p s.cache
  filed : ∀ doc ∈ s.documents collection, d doc

/-- The entries are hashes and sets, and the documents are maps. -/
structure Orderly (p : Entry → Prop) (d : Value → Prop) : Prop where
  tidy : ∀ e, p e → Tidy e
  maps : ∀ doc, d doc → ∃ entries, doc = .map entries

variable {p : Entry → Prop} {d : Value → Prop} {s s' : State} {k task taskId : String}
  {u : UpdateTaskRequest}

theorem Fit.withCache (h : Fit p d s) {cache : Cache} (hcache : Stocked p cache) :
    Fit p d { s with cache } := ⟨h.calm, hcache, h.filed⟩

theorem Fit.withFiled (h : Fit p d s) (hs' : s'.Calm) (hcache : s'.cache = s.cache)
    (hfiled : ∀ doc ∈ s'.documents collection, d doc) : Fit p d s' :=
  ⟨hs', by rw [hcache]; exact h.stocked, hfiled⟩

theorem Fit.tidy (h : Fit p d s) (ho : Orderly p d) : Stocked Tidy s.cache :=
  fun k e he => ho.tidy e (h.stocked k e he)

theorem Fit.allMaps (h : Fit p d s) (ho : Orderly p d) : AllMaps (s.documents collection) :=
  fun doc hdoc => ho.maps doc (h.filed doc hdoc)

/-! ## Reading -/

theorem readFields_ensures (key : Value) : Sustains (Fit p d) (Cache.readFields key) :=
  ensures_of_idle fun _ h => ⟨_, Cache.readFields_eq h.calm key, fun _ _ => trivial⟩

theorem readMembers_ensures (key : Value) : Sustains (Fit p d) (Cache.readMembers key) :=
  ensures_of_idle fun _ h => ⟨_, Cache.readMembers_eq h.calm key, fun _ _ => trivial⟩

theorem find_ensures_of {P : State → Prop}
    (hread : ∀ key, Sustains P (Cache.readFields key)) (taskId task : Value) :
    Sustains P (find taskId task) := by
  refine (hread _).bind fun fs _ => ?_
  split
  · exact ensures_pure trivial
  · exact .read fun v => .read fun v => ensures_pure trivial

theorem findAll_ensures (importName task : Value) :
    Sustains (Fit p d) (TaskCache.findAll importName task) := by
  refine (readMembers_ensures _).bind fun ids _ => ?_
  refine (Ensures.mapM (R := fun _ => True) fun id _ => ?_).bind fun found _ => ensures_pure trivial
  refine (readFields_ensures _).bind fun fs _ => ?_
  split_ifs
  · exact ensures_pure trivial
  · exact .read fun v => ensures_pure trivial

theorem Fit.reread (h : Fit p d s) :
    Fit p d (s.reread collection) := by
  refine h.withFiled h.calm rfl ?_
  rw [documents_withDocuments]
  exact h.filed

theorem findOne_ensures (ho : Orderly p d) (fs : List (String × Value)) :
    Ensures (Fit p d) (findOne collection (.record fs)) fun found => ∀ doc ∈ found, d doc := by
  refine .of_run fun s h => ?_
  refine .inl ⟨_, _, findOne_record h.calm (h.allMaps ho) fs, fun doc hdoc => ?_, h.reread⟩
  exact h.filed doc (mem_of_find?_eq_some hdoc)

theorem findSome_ensures (ho : Orderly p d) (fs : List (String × Value)) :
    Ensures (Fit p d) (Documents.findAll collection (.record fs)) fun found =>
      ∀ doc ∈ found, d doc := by
  refine .of_run fun s h => ?_
  refine .inl ⟨_, _, findAll_calm h.calm (h.allMaps ho) fs, fun doc hdoc => ?_, h.reread⟩
  exact h.filed doc (mem_of_mem_filter hdoc)

/-- The state is one that a document of the class tells. -/
def Told (d : Value → Prop) (v : Value) : Prop :=
  ∃ doc, d doc ∧ (stateOf (fun c => .int <$> c.toInt) doc = .ok v ∨ stateOf .ok doc = .ok v)

theorem unlessIncomplete_eq_some {r : Outcome Value} {v : Value}
    (h : unlessIncomplete r = .ok (some v)) : r = .ok v := by
  unfold unlessIncomplete at h
  split at h
  · cases h
    rfl
  · cases h
  · cases h

theorem findDocument_ensures (ho : Orderly p d) (taskId task : Value) :
    Ensures (Fit p d) (findDocument taskId task) fun found => ∀ v ∈ found, Told d v := by
  refine (findOne_ensures ho [("task_id", taskId), ("task", task)]).bind fun found hfound => ?_
  cases found with
  | none => exact ensures_pure (by simp)
  | some doc =>
    simp only
    split_ifs
    · refine ensures_lift fun state hst v hv => ?_
      subst hv
      exact ⟨doc, hfound doc rfl, .inl (unlessIncomplete_eq_some hst)⟩
    · exact ensures_pure (by simp)

theorem findDocuments_ensures (ho : Orderly p d) (importName task : Value) :
    Ensures (Fit p d) (findDocuments importName task) fun found => ∀ v ∈ found, Told d v := by
  refine (findSome_ensures ho [("import_name", importName), ("task", task)]).bind fun docs hdocs => ?_
  refine (Ensures.mapM (R := fun found => ∀ v ∈ found, Told d v) fun doc hdoc => ?_).bind
    fun found hfound => ?_
  · refine ensures_lift fun state hst v hv => ?_
    subst hv
    exact ⟨doc, hdocs doc hdoc, .inr (unlessIncomplete_eq_some hst)⟩
  · refine ensures_pure fun v hv => ?_
    obtain ⟨state, hst, hv⟩ := mem_filterMap.mp hv
    exact hfound state hst v hv

/-! ## Storing -/

theorem storeDocument_ensures (ho : Orderly p d) {m : ApiResponse}
    (hd : ∀ id, d ((documentOf (task, taskId) m).withField "_id" id)) :
    Sustains (Fit p d) (storeDocument (.text taskId) m.toValue (.text task)) := by
  refine .of_run fun s h => ?_
  obtain ⟨id, s', hrun, hs', hcache, hdocs⟩ :=
    storeDocument_spec h.calm (h.allMaps ho) task taskId m
  refine .inl ⟨(), s', hrun, trivial, h.withFiled hs' hcache fun doc hdoc => ?_⟩
  rcases hdocs doc hdoc with hold | rfl
  · exact h.filed doc hold
  · exact hd id

theorem changeDocument_ensures (ho : Orderly p d)
    (hd : ∀ (docs : Documents) sets doc doc', (∀ doc ∈ docs, d doc) → Sets docs u sets → d doc →
      amend (.record [("$set", .record sets)]) doc = .ok () doc' → d doc') :
    Sustains (Fit p d) (changeDocument (requested u)) := by
  refine .of_run fun s h => ?_
  obtain ⟨s', hs', hcache, hcases⟩ := changeDocument_spec h.calm (h.allMaps ho) u
  rcases hcases with ⟨f, -, hrun, hdocs⟩ | ⟨hrun, hdocs⟩
  · exact .inr ⟨f, s', hrun, h.withFiled hs' hcache (by rw [hdocs]; exact h.filed)⟩
  · refine .inl ⟨(), s', hrun, trivial, h.withFiled hs' hcache ?_⟩
    rcases hdocs with hdocs | ⟨before, doc, doc', after, sets, hsplit, hsets, hamend, hdocs⟩ <;>
      rw [hdocs]
    · exact h.filed
    · have hfiled := h.filed
      rw [hsplit] at hfiled
      obtain ⟨hdoc, hothers⟩ := forall_mem_split.mp hfiled
      exact forall_mem_split.mpr ⟨hd _ sets doc doc' h.filed hsets hdoc hamend, hothers⟩

/-- The property is one of sets, and of hashes for as long as they live; hashes keep it when fields
of a class are put into them. -/
structure Closed (p : Entry → Prop) (w : List (String × String) → Prop) : Prop where
  list : ∀ k members ttl, p (listEntry k members ttl)
  live : ∀ k fields ttl ttl', p (hashEntry k fields ttl) → p (hashEntry k fields ttl')
  hash : ∀ k old new ttl, old = [] ∨ p (hashEntry k old ttl) → w new →
    p (hashEntry k (merged old new) ttl)

section Closed

variable {w : List (String × String) → Prop}

theorem storeFields_ensures (ho : Orderly p d) (hc : Closed p w) (k : String)
    (fs : List (String × Value)) (hw : ∀ texts, Forall₂ StoredAs fs texts → w texts) :
    Sustains (Fit p d) (Cache.storeFields (.text k) (fs.map (named id))) := by
  refine .of_run fun s h => ?_
  rcases Cache.storeFields_cases h.calm k fs with ⟨f, hrun⟩ | ⟨texts, htexts, hrun⟩
  · exact .inr ⟨f, s, hrun, h⟩
  · rw [hrun]
    rcases (h.tidy ho).cases k with (hnone | ⟨old, ttl, hhash⟩) | ⟨members, ttl, hlist⟩
    · obtain ⟨cache', hstore, hent⟩ :=
        Cache.storeFields_writes h.calm (show HashOr _ _ [] from Cache.holdsOr_free hnone) texts
      refine .inl ⟨(), _, hstore, trivial, h.withCache (h.stocked.update hent ?_)⟩
      exact hc.hash k [] texts _ (.inl rfl) (hw texts htexts)
    · obtain ⟨cache', hstore, hent⟩ := leaves_storeFields h.calm hhash texts
      refine .inl ⟨(), _, hstore, trivial, h.withCache (h.stocked.update hent ?_)⟩
      exact hc.hash k old texts ttl (.inr (h.stocked k _ hhash)) (hw texts htexts)
    · exact .inr ⟨_, s, Cache.storeFields_refused h.calm (Cache.held_of_listEntry hlist) texts, h⟩

theorem insertMember_ensures (ho : Orderly p d) (hc : Closed p w) (k : String) (member : Value) :
    Sustains (Fit p d) (Cache.insertMember (.text k) member) := by
  refine .of_run fun s h => ?_
  have hlists : (∃ members, ListOr s.cache k members) →
      (∃ a s', Cache.insertMember (.text k) member s = .ok a s' ∧ True ∧ Fit p d s') ∨
        ∃ e s', Cache.insertMember (.text k) member s = .error e s' ∧ Fit p d s' := by
    rintro ⟨members, hmems⟩
    obtain ⟨cache', members', hent, hrun⟩ := Cache.insertMember_cases h.calm hmems member
    have hfit := h.withCache (h.stocked.update hent (hc.list k members' _))
    rcases hrun with hrun | ⟨f, hrun⟩
    · exact .inl ⟨(), _, hrun, trivial, hfit⟩
    · exact .inr ⟨f, _, hrun, hfit⟩
  rcases (h.tidy ho).cases k with (hnone | ⟨old, ttl, hhash⟩) | ⟨members, ttl, hlist⟩
  · exact hlists ⟨[], Cache.holdsOr_free hnone⟩
  · exact .inr ⟨_, s, Cache.insertMember_refused h.calm (Cache.held_of_hashEntry hhash) (by decide)
      member, h⟩
  · exact hlists ⟨members, .inl (Cache.held_of_listEntry hlist)⟩

theorem setTtl_ensures (ho : Orderly p d) (hc : Closed p w) (k : String) (ttl : Value) :
    Sustains (Fit p d) (Cache.setTtl (.text k) ttl) := by
  refine .of_run fun s h => ?_
  refine .inl ⟨(), { s with cache := s.cache.expire (.text k) ttl }, ?_, trivial, h.withCache ?_⟩
  · exact (bind_of_ok (announce_calm h.calm _ _)).trans rfl
  · have hent := Cache.entryAt_expire s.cache k ttl
    rcases (h.tidy ho).cases k with (hnone | ⟨old, ttl', hhash⟩) | ⟨members, ttl', hlist⟩
    · rw [hnone, Option.map_none, ← hnone, Function.update_eq_self] at hent
      intro k' e he
      rw [hent] at he
      exact h.stocked k' e he
    · rw [hhash] at hent
      exact h.stocked.update hent (hc.live k old ttl' ttl (h.stocked k _ hhash))
    · rw [hlist] at hent
      exact h.stocked.update hent (hc.list k members ttl)

def StoredState (v : Value) (texts : List (String × String)) : Prop :=
  ∃ status code msg data json, v.item "status" = .ok status ∧ v.item "code" = .ok code ∧
    v.item "message" = .ok msg ∧ v.item "data" = .ok data ∧ data.toJson = .ok json ∧
    Forall₂ StoredAs [("status", status), ("code", .text code.plain), ("message", msg),
      ("data", .text json)] texts

theorem store_ensures (ho : Orderly p d) (hc : Closed p w) (taskId v task : Value)
    (hw : ∀ texts, StoredState v texts → w texts) :
    Sustains (Fit p d) (store taskId v task) := by
  refine .read fun _ => ?_
  refine .read fun importName => ?_
  refine .given fun status hstat => ?_
  refine .given fun code hcode => ?_
  refine .given fun msg hmsg => ?_
  refine .given fun data hdata => ?_
  refine .given fun json hjson => ?_
  refine (storeFields_ensures ho hc _ [("status", status), ("code", .text code.plain),
    ("message", msg), ("data", .text json)] fun texts htexts => ?_).bind fun _ _ => ?_
  · exact hw texts ⟨status, code, msg, data, json, hstat, hcode, hmsg, hdata, hjson, htexts⟩
  · refine (insertMember_ensures ho hc _ taskId).bind fun _ _ => ?_
    refine .read fun ttl => ?_
    exact (setTtl_ensures ho hc _ ttl).bind fun _ _ => setTtl_ensures ho hc _ ttl

end Closed

/-! ## Requests -/

theorem get_eq (m : GetTaskRequest) : Tasks.get m.toValue = Act.handle (do
    match ← TaskCache.find (.text m.taskId) (.text m.task) with
    | some v => return foundState (some v)
    | none =>
      match ← findDocument (.text m.taskId) (.text m.task) with
      | some v =>
        store (.text m.taskId) v (.text m.task)
        return foundState (some v)
      | none => return foundState none)
    fun _ => return foundState none := rfl

/-- A task that is asked for may be stored in the cache again. -/
theorem get_ensures (ho : Orderly p d) (m : GetTaskRequest)
    (hstore : ∀ v, Told d v → Sustains (Fit p d) (store (.text m.taskId) v (.text m.task))) :
    Sustains (Fit p d) (Tasks.get m.toValue) := by
  refine .handle ?_ fun _ => ensures_pure trivial
  refine (find_ensures_of readFields_ensures _ _).bind fun found _ => ?_
  cases found with
  | some v => exact ensures_pure trivial
  | none =>
    refine (findDocument_ensures ho _ _).bind fun found hfound => ?_
    cases found with
    | some v => exact (hstore v (hfound v rfl)).bind fun _ _ => ensures_pure trivial
    | none => exact ensures_pure trivial

theorem getAll_ensures (ho : Orderly p d) (m : ImportTasksRequest)
    (hrefill : ∀ v, Told d v → Sustains (Fit p d) (refill (.text m.task) v)) :
    Sustains (Fit p d) (Tasks.getAll m.toValue) := by
  refine .handle ?_ fun _ => ensures_pure trivial
  refine (findAll_ensures _ _).bind fun cached _ => ?_
  split_ifs
  · exact ensures_pure trivial
  · refine (findDocuments_ensures ho _ _).bind fun states hstates => ?_
    refine (Ensures.forIn fun v hv => ?_).bind fun _ _ => ensures_pure trivial
    exact (hrefill v (hstates v hv)).bind fun _ _ => ensures_pure rfl

theorem set_ensures (ho : Orderly p d) (q : SetTaskRequest)
    (hstore : Sustains (Fit p d)
      (store (.text q.taskId) (q.value.getD {}).toValue (.text q.task)))
    (hd : ∀ id, d ((documentOf (q.task, q.taskId) (q.value.getD {})).withField "_id" id)) :
    Sustains (Fit p d) (Tasks.set q.toValue) := by
  refine .handle ?_ fun _ => ensures_pure trivial
  refine hstore.bind fun _ _ => ?_
  exact (storeDocument_ensures ho hd).bind fun _ _ => ensures_pure trivial

/-- A change of a hash keeps what holds of the hash that it starts from, or of a new one. -/
theorem change_keeps (ho : Orderly p d) (h : Fit p d s)
    (hfresh : entryAt s.cache u.key = none → ∀ new ttl, Written u [] new →
      p (hashEntry u.key (merged [] new) ttl))
    (hmore : ∀ old new ttl ttl', p (hashEntry u.key old ttl) →
      Written u old new → ttl' = ttl ∨ ttl' = life u.value →
      p (hashEntry u.key (merged old new) ttl')) :
    Fit p d ((change (requested u)).outcome s).2 := by
  -- The key is free, holds a hash, or holds a set; in the last case nothing is written.
  rcases (h.tidy ho).cases u.key with
    (hnone | ⟨old, ttl, hhash⟩) | ⟨members, ttl, hlist⟩
  · obtain ⟨new, ttl, cache', hnew, -, hrun, hent⟩ :=
      change_state h.calm (show HashOr _ _ [] from Cache.holdsOr_free hnone)
    rw [hrun]
    exact h.withCache (h.stocked.update hent (hfresh hnone new ttl hnew))
  · obtain ⟨new, ttl', cache', hnew, httl, hrun, hent⟩ :=
      change_state h.calm (hashOr_of_entryAt hhash)
    have hsame : ttlAt s.cache u.key = ttl := by
      rw [ttlAt, hhash]
      rfl
    rw [hsame] at httl
    rw [hrun]
    exact h.withCache (h.stocked.update hent
      (hmore old new ttl ttl' (h.stocked _ _ hhash) hnew httl))
  · rw [outcome_of_error (change_of_listed h.calm (Cache.held_of_listEntry hlist))]
    exact h

theorem update_eq (u : UpdateTaskRequest) : Tasks.update u.toValue = Act.handle (do
    change (requested u)
    changeDocument (requested u)
    return done true "Task updated successfully in both Redis and MongoDB")
    fun f => return done false ("Error updating task: " ++ f.message) := rfl

theorem update_state_of_error {f : Fault} (h : change (requested u) s = .error f s') :
    ((Tasks.update u.toValue).outcome s).2 = s' := by
  rw [update_eq, handle_state, outcome_of_error (bind_of_error h)]

theorem update_state_of_ok (h : change (requested u) s = .ok () s') :
    ((Tasks.update u.toValue).outcome s).2 = ((changeDocument (requested u)).outcome s').2 := by
  rw [update_eq, handle_state, outcome_bind_of_ok h, outcome_bind_pure]

theorem update_keeps (hchg : Fit p d ((change (requested u)).outcome s).2)
    (hdoc : Sustains (Fit p d) (changeDocument (requested u))) :
    Fit p d ((Tasks.update u.toValue).outcome s).2 := by
  cases hrun : change (requested u) s with
  | error f s1 =>
    rw [outcome_of_error hrun] at hchg
    rw [update_state_of_error hrun]
    exact hchg
  | ok _ s1 =>
    rw [outcome_of_ok hrun] at hchg
    rw [update_state_of_ok hrun]
    exact hdoc.state hchg

/-- The documents are changed without a look at the cache. -/
theorem update_cache (ho : Orderly p d) (h : Fit p d ((change (requested u)).outcome s).2) :
    ((Tasks.update u.toValue).outcome s).2.cache = ((change (requested u)).outcome s).2.cache := by
  cases hrun : change (requested u) s with
  | error f s1 => rw [update_state_of_error hrun, outcome_of_error hrun]
  | ok _ s1 =>
    rw [outcome_of_ok hrun] at h ⊢
    rw [update_state_of_ok hrun]
    obtain ⟨s2, -, hcache, hcases⟩ := changeDocument_spec h.calm (h.allMaps ho) u
    rcases hcases with ⟨f, -, hdoc, -⟩ | ⟨hdoc, -⟩
    · rw [outcome_of_error hdoc]
      exact hcache
    · rw [outcome_of_ok hdoc]
      exact hcache

end SheetMill.Database.Tasks
