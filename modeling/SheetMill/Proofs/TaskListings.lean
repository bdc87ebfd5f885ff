import SheetMill.Proofs.TaskStores

/-!
# The tasks of an import

The tasks of an import are listed from the documents, by the import that the document of a task
names, and from the cache, through the set of the tasks that were stored under the import. So the
documents give the tasks that were last stored under the import, and the cache gives those that ever
were; the two agree up to order if and only if none of these is now under another name.
-/

namespace SheetMill.Database.TaskCache

open Act Value Message Cache List

variable {s : State} {task taskId importName : String} {m : ApiResponse}

/-! ## Reading through a set -/

theorem importKey_text (task importName : String) :
    importKey (.text task) (.text importName) = .text (indexOf task importName) := rfl

theorem indexOf_inj {task' importName' : String} (htask : ':' ∉ task.toList)
    (htask' : ':' ∉ task'.toList) (h : indexOf task importName = indexOf task' importName') :
    task = task' ∧ importName = importName' := by
  have hchars := congrArg String.toList h
  rw [toList_indexOf, toList_indexOf] at hchars
  obtain ⟨hkind, hrest⟩ := append_colon_inj htask htask' hchars
  have hname := append_cancel_right (append_cancel_left hrest)
  exact ⟨String.toList_inj.mp hkind, String.toList_inj.mp hname⟩

theorem ofImport_fieldsOf (hm : m.Proper) :
    ofImport ((fieldsOf m).map textEntry) = .ok m.toValue := by
  have hcode : (Value.map ((fieldsOf m).map textEntry)).item "code" =
      .ok (.text (toString m.code)) := rfl
  unfold ofImport
  simp only [hcode, toInt_text hm.code, Outcome.ok_bind]
  have hdata : ((Value.map ((fieldsOf m).map textEntry)).withField "code" (.int m.code)).field? "data" =
      some (.text (mapText m.data)) := rfl
  simp only [hdata, parsed_mapText hm.names]
  rfl

theorem findMember_of_hashed (hs : s.Calm) (hm : m.Proper)
    (h : held s.cache (keyOf task taskId) = some (hashed m)) :
    findMember (.text task) (.text taskId) s = .ok (some m.toValue) s := by
  refine (bind_of_ok (readFields_calm hs (hashOr_of_hashed h))).trans ?_
  exact (bind_known (ofImport_fieldsOf hm)).trans rfl

theorem findMember_of_none (hs : s.Calm) (h : held s.cache (keyOf task taskId) = none) :
    findMember (.text task) (.text taskId) s = .ok none s := by
  have hnil : HashOr s.cache (keyOf task taskId) [] := .inr ⟨h, rfl⟩
  exact (bind_of_ok (readFields_calm hs hnil)).trans rfl

theorem findMember_of_listed {members : List Value} (hs : s.Calm)
    (h : held s.cache (keyOf task taskId) = some (listed members)) :
    findMember (.text task) (.text taskId) s = .error wrongType s := by
  exact bind_of_error (readFields_refused hs h (by decide))

theorem withMember_texts (ids : List String) (id : String) :
    withMember (ids.map .text) (.text id) =
      (if id ∈ ids then ids else ids ++ [id]).map Value.text := by
  unfold withMember
  by_cases hmem : id ∈ ids <;> simp [hmem]

end SheetMill.Database.TaskCache

namespace SheetMill.Database.Tasks

open Act Value Message TaskCache Documents List Function
open Cache (held wrongType ListOr)

variable {s s' : State} {past requests : List Request} {r : Request} {q : SetTaskRequest}
  {task importName : String} {k id : String} {owner : String × String}

/-! ## What was stored, in order -/

section Firsts

variable {α : Type} [BEq α] [LawfulBEq α] {xs : List α} {x : α}

theorem eraseDups_snoc_of_mem (h : x ∈ xs) : (xs ++ [x]).eraseDups = xs.eraseDups := by
  simp [eraseDups_append, removeAll, h]

theorem eraseDups_snoc_of_not_mem (h : x ∉ xs) :
    (xs ++ [x]).eraseDups = xs.eraseDups ++ [x] := by
  simp [eraseDups_append, removeAll, h, eraseDups_cons]

theorem nodup_eraseDups (xs : List α) : xs.eraseDups.Nodup := by
  induction xs using reverseRecOn with
  | nil => simp
  | append_singleton xs x ih =>
    by_cases h : x ∈ xs
    · rwa [eraseDups_snoc_of_mem h]
    · rw [eraseDups_snoc_of_not_mem h, nodup_append_comm, singleton_append, nodup_cons,
        mem_eraseDups]
      exact ⟨h, ih⟩

end Firsts

/-- The tasks of the requests, in the order in which they first occur. -/
def ownersOf (past : List Request) : List (String × String) := (past.map Request.owner).eraseDups

/-- The identities of the tasks that requests added to a set, in the order in which they first
occur. -/
def idsAt (past : List Request) (k : String) : List String :=
  ((past.filter (·.index? = some k)).map (·.owner.2)).eraseDups

theorem mem_ownersOf : owner ∈ ownersOf past ↔ ∃ r ∈ past, r.owner = owner := by
  simp [ownersOf]

theorem ownersOf_snoc (past : List Request) (r : Request) :
    ownersOf (past ++ [r]) =
      if r.owner ∈ ownersOf past then ownersOf past else ownersOf past ++ [r.owner] := by
  unfold ownersOf
  rw [map_append]
  split_ifs with h
  · exact eraseDups_snoc_of_mem (mem_eraseDups.mp h)
  · exact eraseDups_snoc_of_not_mem fun hmem => h (mem_eraseDups.mpr hmem)

theorem idsAt_snoc_self (h : r.index? = some k) : idsAt (past ++ [r]) k =
    if r.owner.2 ∈ idsAt past k then idsAt past k else idsAt past k ++ [r.owner.2] := by
  have hfilter : (past ++ [r]).filter (·.index? = some k) =
      past.filter (·.index? = some k) ++ [r] := by
    simp [h]
  unfold idsAt
  rw [hfilter, map_append]
  split_ifs with hmem
  · exact eraseDups_snoc_of_mem (mem_eraseDups.mp hmem)
  · exact eraseDups_snoc_of_not_mem fun hmem' => hmem (mem_eraseDups.mpr hmem')

theorem idsAt_snoc_of_ne (h : r.index? ≠ some k) : idsAt (past ++ [r]) k = idsAt past k := by
  simp [idsAt, h]

theorem mem_idsAt : id ∈ idsAt past k ↔ ∃ r ∈ past, r.index? = some k ∧ r.owner.2 = id := by
  simp [idsAt, and_assoc]

theorem idsAt_of_not_indexed (h : ¬ Indexed past k) : idsAt past k = [] := by
  rw [eq_nil_iff_forall_not_mem]
  intro id hid
  obtain ⟨r, hr, hidx, -⟩ := mem_idsAt.mp hid
  exact h ⟨r, hr, hidx⟩

/-! ## Documents in order -/

/-- The documents are those of the tasks of the requests, in their order, and each is the one that
the state of its task is stored as. -/
def Filed (docs : Documents) (past : List Request) : Prop :=
  ∃ filed : String × String → Value, docs = (ownersOf past).map filed ∧
    ∀ owner ∈ ownersOf past, ∃ m id, after Request.owner past owner = some m ∧
      filed owner = (documentOf owner m).withField "_id" id

/-- A mapped list with one of its items mapped to something else. -/
theorem map_update_split {α β : Type} [DecidableEq α] {before after : List α} {x : α} (f : α → β)
    (b : β) (h : (before ++ x :: after).Nodup) :
    (before ++ x :: after).map (Function.update f x b) = before.map f ++ b :: after.map f := by
  obtain ⟨-, hcons, hdisjoint⟩ := nodup_append.mp h
  have hbefore : ∀ y ∈ before, y ≠ x := fun y hy => hdisjoint y hy x mem_cons_self
  have hafter : ∀ y ∈ after, y ≠ x := by
    rintro y hy rfl
    exact (nodup_cons.mp hcons).1 hy
  rw [map_append, map_cons, update_self]
  congr 1
  · exact map_congr_left fun y hy => update_of_ne (hbefore y hy) b f
  · congr 1
    exact map_congr_left fun y hy => update_of_ne (hafter y hy) b f

section Filed

variable {docs : Documents}

theorem Filed.allMaps (h : Filed docs past) : AllMaps docs := by
  obtain ⟨filed, rfl, hfiled⟩ := h
  intro doc hdoc
  obtain ⟨owner, howner, rfl⟩ := mem_map.mp hdoc
  obtain ⟨m, id, -, hdocument⟩ := hfiled owner howner
  rw [hdocument]
  exact ⟨_, rfl⟩

theorem filed_snoc {filed : String × String → Value} (id : Value)
    (hfiled : ∀ owner ∈ ownersOf past, ∃ m id, after Request.owner past owner = some m ∧
      filed owner = (documentOf owner m).withField "_id" id) :
    ∀ owner ∈ ownersOf (past ++ [.set q]), ∃ m id',
      after Request.owner (past ++ [.set q]) owner = some m ∧
      Function.update filed (q.task, q.taskId)
        ((documentOf (q.task, q.taskId) (q.value.getD {})).withField "_id" id) owner =
          (documentOf owner m).withField "_id" id' := by
  intro owner howner
  rw [after_snoc]
  by_cases hsame : owner = (q.task, q.taskId)
  · subst hsame
    exact ⟨q.value.getD {}, id, update_self .., update_self ..⟩
  · have hbefore : owner ∈ ownersOf past := by
      obtain ⟨r, hr, rfl⟩ := mem_ownersOf.mp howner
      rcases mem_append.mp hr with hr | hr
      · exact mem_ownersOf.mpr ⟨r, hr, rfl⟩
      · rw [mem_singleton.mp hr] at hsame
        exact absurd rfl hsame
    obtain ⟨m, id', hst, hdoc⟩ := hfiled owner hbefore
    refine ⟨m, id', ?_, ?_⟩
    · exact (update_of_ne hsame ..).trans hst
    · exact (update_of_ne hsame ..).trans hdoc

theorem storeDocument_filed (hs : s.Calm) (h : Filed (s.documents collection) past)
    (q : SetTaskRequest) :
    ∃ s', storeDocument (.text q.taskId) (q.value.getD {}).toValue (.text q.task) s = .ok () s' ∧
      s'.cache = s.cache ∧ Filed (s'.documents collection) (past ++ [.set q]) := by
  have hmaps := h.allMaps
  obtain ⟨filed, hdocs, hfiled⟩ := h
  have howned : ∀ owner ∈ ownersOf past, meets (ownedBy owner) (filed owner) = true := by
    intro owner howner
    obtain ⟨m, id, -, hdocument⟩ := hfiled owner howner
    rw [hdocument]
    exact (shows_documentOf owner m id).1
  have hsnoc := ownersOf_snoc past (.set q)
  rw [show (Request.set q).owner = (q.task, q.taskId) from rfl] at hsnoc
  rw [storeDocument_eq]
  by_cases hmem : (q.task, q.taskId) ∈ ownersOf past
  -- The document of a known task is replaced in its place; that of a new one comes last.
  · obtain ⟨before, after, hsplit⟩ := append_of_mem hmem
    have hnodup : (before ++ (q.task, q.taskId) :: after).Nodup := hsplit ▸ nodup_eraseDups _
    have hbefore : ∀ doc ∈ before.map filed, meets (ownedBy (q.task, q.taskId)) doc = false := by
      intro doc hdoc
      obtain ⟨owner, howner, rfl⟩ := mem_map.mp hdoc
      refine meets_other (howned owner (by rw [hsplit]; simp [howner])) fun heq => ?_
      exact (nodup_append.mp hnodup).2.2 owner howner _ mem_cons_self heq.symm
    have hdocs' : s.documents collection =
        before.map filed ++ filed (q.task, q.taskId) :: after.map filed := by
      rw [hdocs, hsplit, map_append, map_cons]
    obtain ⟨id, hrun⟩ := replaceOne_split hs hmaps ⟨hdocs', howned _ hmem, hbefore⟩
      (documentOf (q.task, q.taskId) (q.value.getD {}))
    refine ⟨_, hrun, rfl, _, ?_, filed_snoc id hfiled⟩
    rw [documents_withDocuments, hsnoc, if_pos hmem, hsplit, map_update_split filed _ hnodup]
  · have hne : ∀ owner ∈ ownersOf past, owner ≠ (q.task, q.taskId) := by
      rintro owner howner rfl
      exact hmem howner
    have hnone : ∀ doc ∈ s.documents collection,
        meets (ownedBy (q.task, q.taskId)) doc = false := by
      intro doc hdoc
      rw [hdocs] at hdoc
      obtain ⟨owner, howner, rfl⟩ := mem_map.mp hdoc
      exact meets_other (howned owner howner) (hne owner howner).symm
    obtain ⟨id, s', hrun, -, hcache, hdocs'⟩ := replaceOne_none hs hmaps hnone
      (documentOf (q.task, q.taskId) (q.value.getD {}))
    refine ⟨s', hrun, hcache, _, ?_, filed_snoc id hfiled⟩
    rw [hdocs', hdocs, hsnoc, if_neg hmem, map_append, map_singleton, update_self]
    congr 1
    exact map_congr_left fun owner howner => (update_of_ne (hne owner howner) ..).symm

end Filed

/-! ## One request -/

/-- Both places keep what past requests left behind, in order. -/
structure Lists (s : State) (past : List Request) : Prop where
  keeps : Keeps s past
  sets : ∀ k, Indexed past k → held s.cache k = some (listed ((idsAt past k).map .text))
  filed : Filed (s.documents collection) past

theorem Fresh.lists (hs : Fresh s) : Lists s [] := by
  refine ⟨hs.keeps, ?_, fun _ => .null, ?_, ?_⟩
  · rintro k ⟨r, hr, -⟩
    cases hr
  · rw [hs.documents]
    rfl
  · rintro owner howner
    cases howner

/-- The set under a key that is not that of a task. -/
theorem Lists.holdsOr (h : Lists s past) (hk : after Request.key past k = none) :
    ListOr s.cache k ((idsAt past k).map .text) := by
  by_cases hidx : Indexed past k
  · exact .inl (h.sets k hidx)
  · refine .inr ⟨h.keeps.cached.others k hk hidx, ?_⟩
    rw [idsAt_of_not_indexed hidx]
    rfl

theorem Lists.set (h : Lists s past) (hq : (Request.set q).Proper)
    (hrej : ¬ Refused past (.set q)) : Carries Lists s past (.set q) := by
  obtain ⟨answer, s', hrun, hsucc, hkeeps⟩ := h.keeps.step hq (.inl trivial) hrej
  rw [Refused, not_or] at hrej
  have hindex : after Request.key past (indexOf q.task (q.value.getD {}).importName) = none := by
    rw [← Option.not_isSome_iff_eq_none]
    exact fun hsome => hrej.2 ⟨_, rfl, hsome⟩
  obtain ⟨old, hold, -⟩ := (h.keeps.free hrej.1).hashOr (q.value.getD {})
  have hold' : Cache.HashOr s.cache (keyOf q.task q.taskId) old := hold
  obtain ⟨cache', hstore, hent⟩ := store_writes h.keeps.calm hold' (h.holdsOr hindex)
  obtain ⟨s'', hdoc, hcache, hfiled⟩ :=
    storeDocument_filed (s := { s with cache := cache' }) h.keeps.calm h.filed q
  obtain ⟨answer', hrun', -⟩ := set_of_ok hstore hdoc
  cases hrun.symm.trans hrun'
  refine ⟨answer, s', hrun, hsucc, hkeeps, fun k hk => ?_, hfiled⟩
  rw [hcache, Cache.held_eq, hent]
  by_cases hself : k = indexOf q.task (q.value.getD {}).importName
  · subst hself
    rw [update_self, withMember_texts, idsAt_snoc_self (r := .set q) rfl]
    rfl
  · have hne : (Request.set q).index? ≠ some k := fun heq => hself (Option.some.inj heq).symm
    have hidx : Indexed past k := (indexed_snoc.mp hk).resolve_right hne
    have hkey : k ≠ keyOf q.task q.taskId := by
      rintro rfl
      exact hrej.1 hidx
    rw [update_of_ne hself, update_of_ne hkey, idsAt_snoc_of_ne hne]
    exact h.sets k hidx

theorem Lists.step (h : Lists s past) (hr : r.IsSet ∧ r.Proper) (_ : Allowed past r)
    (hrej : ¬ Refused past r) : Carries Lists s past r := by
  cases r with
  | set q => exact h.set hr.2 hrej
  | update u => exact hr.1.elim

/-! ## Listings -/

/-- The states of the tasks of a kind that were last stored under an import. -/
def filedUnder (past : List Request) (task importName : String) : List ApiResponse :=
  ((ownersOf past).filter fun owner => owner.1 = task ∧
    (after Request.owner past owner).map (·.importName) = some importName).filterMap
      (after Request.owner past)

/-- The states under the keys of the tasks that were ever stored under an import. -/
def cachedUnder (past : List Request) (task importName : String) : List ApiResponse :=
  (idsAt past (indexOf task importName)).filterMap fun id => after Request.key past (keyOf task id)

/-- The key of the set of an import is that of a task, or that of one of its tasks is that of a
set. -/
def Tangled (past : List Request) (task importName : String) : Prop :=
  (after Request.key past (indexOf task importName)).isSome = true ∨
    ∃ id ∈ idsAt past (indexOf task importName), Indexed past (keyOf task id)

instance (past : List Request) (task importName : String) :
    Decidable (Tangled past task importName) :=
  inferInstanceAs (Decidable (_ ∨ _))

theorem meets_documentOf (owner : String × String) (m : ApiResponse) (id : Value) :
    meets [("import_name", .text importName), ("task", .text task)]
      ((documentOf owner m).withField "_id" id) =
        decide (owner.1 = task ∧ m.importName = importName) := by
  have hname : ((documentOf owner m).withField "_id" id).field? "import_name" =
      some (.text m.importName) := (field?_withField_of_ne (by decide) _ _).trans rfl
  have htask : ((documentOf owner m).withField "_id" id).field? "task" = some (.text owner.1) :=
    (field?_withField_of_ne (by decide) _ _).trans rfl
  rw [Bool.eq_iff_iff, meets_cons_text, meets_cons_text, hname, htask]
  simp [and_comm]

theorem findDocuments_filed (hs : s.Calm) (h : Filed (s.documents collection) past)
    (task importName : String) :
    findDocuments (.text importName) (.text task) s =
      .ok ((filedUnder past task importName).map ApiResponse.toValue)
        (s.reread collection) := by
  have hmaps := h.allMaps
  obtain ⟨filed, hdocs, hfiled⟩ := h
  have hselect : (s.documents collection).filter
      (meets [("import_name", .text importName), ("task", .text task)]) =
      ((ownersOf past).filter fun owner => owner.1 = task ∧
        (after Request.owner past owner).map (·.importName) = some importName).map filed := by
    rw [hdocs, filter_map]
    refine congrArg (map filed) (filter_congr fun owner howner => ?_)
    obtain ⟨m, id, hst, hdoc⟩ := hfiled owner howner
    rw [comp_apply, hdoc, meets_documentOf, hst]
    simp
  refine (bind_of_ok (findAll_calm hs hmaps [("import_name", .text importName),
    ("task", .text task)])).trans ?_
  rw [hselect, mapM_map]
  refine (bind_of_ok (mapM_of_idle (g := fun owner =>
    (after Request.owner past owner).map ApiResponse.toValue) fun owner howner => ?_)).trans ?_
  · obtain ⟨m, id, hst, hdoc⟩ := hfiled owner (mem_of_mem_filter howner)
    rw [comp_apply, hdoc, hst]
    rfl
  · rw [filterMap_map, filedUnder, map_filterMap]
    rfl

theorem Lists.findDocuments (h : Lists s past) (task importName : String) :
    ((Tasks.findDocuments (.text importName) (.text task)).outcome s).1 =
      .ok ((filedUnder past task importName).map ApiResponse.toValue) := by
  rw [outcome_of_ok (findDocuments_filed h.keeps.calm h.filed task importName)]

theorem Lists.findMember (h : Lists s past) (hid : ¬ Indexed past (keyOf task id)) :
    findMember (.text task) (.text id) s =
      .ok ((after Request.key past (keyOf task id)).map ApiResponse.toValue) s := by
  cases hst : after Request.key past (keyOf task id) with
  | none => exact findMember_of_none h.keeps.calm (h.keeps.cached.others _ hst hid)
  | some m =>
    exact findMember_of_hashed h.keeps.calm (h.keeps.proper_after hst)
      (h.keeps.cached.hashes _ m hst)

theorem Lists.findAll (h : Lists s past) (task importName : String) :
    ((TaskCache.findAll (.text importName) (.text task)).outcome s).1 =
      if Tangled past task importName then .error wrongType
      else .ok ((cachedUnder past task importName).map ApiResponse.toValue) := by
  rw [TaskCache.findAll, importKey_text]
  cases hkey : after Request.key past (indexOf task importName) with
  | some m =>
    have hrun := Cache.readMembers_refused h.keeps.calm (h.keeps.cached.hashes _ m hkey)
    rw [outcome_of_error (bind_of_error hrun), if_pos (.inl (by rw [hkey]; rfl))]
  | none =>
    rw [outcome_bind_of_ok (Cache.readMembers_calm h.keeps.calm (h.holdsOr hkey)), mapM_map]
    have hunread : ∀ id, Indexed past (keyOf task id) →
        TaskCache.findMember (.text task) (.text id) s = .error wrongType s := fun id hid =>
      findMember_of_listed h.keeps.calm (h.sets _ hid)
    by_cases htangled : ∃ id ∈ idsAt past (indexOf task importName), Indexed past (keyOf task id)
    -- One member whose key holds a set is enough to end the listing.
    · rw [if_pos (.inr htangled)]
      obtain ⟨id, hmem, hid⟩ := htangled
      have hrun : (idsAt past (indexOf task importName)).mapM
          (fun id => TaskCache.findMember (.text task) (.text id)) s = .error wrongType s := by
        refine mapM_of_unread (g := fun id =>
          (after Request.key past (keyOf task id)).map ApiResponse.toValue) (fun id _ => ?_)
          ⟨id, hmem, hunread id hid⟩
        by_cases hid : Indexed past (keyOf task id)
        · exact .inr (hunread id hid)
        · exact .inl (h.findMember hid)
      exact congrArg Prod.fst (outcome_of_error (bind_of_error hrun))
    · have hfree : ¬ Tangled past task importName := by
        rintro (hsome | hidx)
        · rw [hkey] at hsome
          cases hsome
        · exact htangled hidx
      rw [if_neg hfree]
      have hrun : (idsAt past (indexOf task importName)).mapM
          (fun id => TaskCache.findMember (.text task) (.text id)) s =
          .ok ((idsAt past (indexOf task importName)).map fun id =>
            (after Request.key past (keyOf task id)).map ApiResponse.toValue) s :=
        mapM_of_idle fun id hid =>
          h.findMember fun hidx => htangled ⟨id, hid, hidx⟩
      rw [cachedUnder, map_filterMap]
      exact (congrArg Prod.fst (outcome_bind_of_ok hrun)).trans
        (congrArg Except.ok filterMap_map)

/-! ## Kinds without a colon -/

theorem exists_set_of_after {sets : List SetTaskRequest} {m : ApiResponse}
    (h : after Request.owner (sets.map .set) owner = some m) :
    ∃ q ∈ sets, (q.task, q.taskId) = owner ∧ q.value.getD {} = m := by
  induction sets using reverseRecOn with
  | nil => cases h
  | append_singleton sets q ih =>
    rw [map_append, map_singleton, after_snoc, update_apply] at h
    split_ifs at h with hsame
    · exact ⟨q, by simp, hsame.symm, Option.some.inj h⟩
    · obtain ⟨q', hq', hfound⟩ := ih h
      exact ⟨q', mem_append_left _ hq', hfound⟩

theorem after_key_of_ownKey (h : OwnKey past task id) :
    after Request.key past (keyOf task id) = after Request.owner past (task, id) := by
  refine congrArg folded (filter_congr fun r hr => ?_)
  rw [decide_eq_decide]
  refine ⟨h.2 r hr, fun howner => ?_⟩
  rw [Request.key, howner]

section Plain

variable {sets : List SetTaskRequest}

theorem not_tangled (hplain : ∀ r ∈ past, ':' ∉ r.owner.1.toList) (htask : ':' ∉ task.toList)
    (importName : String) : ¬ Tangled past task importName := by
  rintro (hst | ⟨id, -, hidx⟩)
  · obtain ⟨r, hr, hkey, -⟩ := after_isSome_iff.mp hst
    exact keyOf_ne_indexOf_of_plain (hplain r hr) htask hkey
  · exact (ownKey_of_plain hplain htask id).1 hidx

theorem mem_idsAt_of_plain (hplain : ∀ q ∈ sets, ':' ∉ q.task.toList) (htask : ':' ∉ task.toList) :
    id ∈ idsAt (sets.map .set) (indexOf task importName) ↔
      ∃ q ∈ sets, (q.task, q.taskId) = (task, id) ∧ (q.value.getD {}).importName = importName := by
  rw [mem_idsAt]
  constructor
  · rintro ⟨r, hr, hidx, rfl⟩
    obtain ⟨q, hq, rfl⟩ := mem_map.mp hr
    obtain ⟨hkind, hname⟩ := indexOf_inj (hplain q hq) htask (Option.some.inj hidx)
    exact ⟨q, hq, Prod.ext hkind rfl, hname⟩
  · rintro ⟨q, hq, howner, rfl⟩
    cases howner
    exact ⟨.set q, mem_map_of_mem hq, rfl, rfl⟩

def Stays (past : List Request) (task importName id : String) : Prop :=
  (after Request.owner past (task, id)).map (·.importName) = some importName

instance (past : List Request) (task importName id : String) :
    Decidable (Stays past task importName id) :=
  inferInstanceAs (Decidable (_ = _))

theorem filedUnder_perm (hplain : ∀ q ∈ sets, ':' ∉ q.task.toList) (htask : ':' ∉ task.toList)
    (importName : String) :
    (filedUnder (sets.map .set) task importName).Perm
      (((idsAt (sets.map .set) (indexOf task importName)).filter
        (Stays (sets.map .set) task importName ·)).filterMap fun id =>
          after Request.owner (sets.map .set) (task, id)) := by
  have howners : ((ownersOf (sets.map .set)).filter fun owner => owner.1 = task ∧
      (after Request.owner (sets.map .set) owner).map (·.importName) = some importName).Perm
      (((idsAt (sets.map .set) (indexOf task importName)).filter
        (Stays (sets.map .set) task importName ·)).map fun id => (task, id)) := by
    refine (perm_ext_iff_of_nodup ((nodup_eraseDups _).filter _) ?_).mpr fun owner => ?_
    · exact ((nodup_eraseDups _).filter _).map fun _ _ h => (Prod.mk.inj h).2
    · simp only [mem_filter, mem_map, decide_eq_true_eq, mem_idsAt_of_plain hplain htask]
      constructor
      · rintro ⟨-, hkind, hname⟩
        obtain ⟨kind, id⟩ := owner
        cases hkind
        obtain ⟨m, hst, hm⟩ := Option.map_eq_some_iff.mp hname
        obtain ⟨q, hq, howner, rfl⟩ := exists_set_of_after hst
        exact ⟨id, ⟨⟨q, hq, howner, hm⟩, hname⟩, rfl⟩
      · rintro ⟨id, ⟨⟨q, hq, howner, -⟩, hstays⟩, rfl⟩
        exact ⟨mem_ownersOf.mpr ⟨.set q, mem_map_of_mem hq, howner⟩, rfl, hstays⟩
  have hstates := howners.filterMap (after Request.owner (sets.map .set))
  rwa [filterMap_map] at hstates

theorem cachedUnder_eq (hplain : ∀ q ∈ sets, ':' ∉ q.task.toList) (htask : ':' ∉ task.toList)
    (importName : String) :
    cachedUnder (sets.map .set) task importName =
      (idsAt (sets.map .set) (indexOf task importName)).filterMap fun id =>
        after Request.owner (sets.map .set) (task, id) := by
  have hplain' : ∀ r ∈ sets.map Request.set, ':' ∉ r.owner.1.toList := by
    simpa [Request.owner] using hplain
  exact filterMap_congr fun id _ => after_key_of_ownKey (ownKey_of_plain hplain' htask id)

/-- The listings agree up to order if and only if all tasks in the set stayed under the import. -/
theorem listings_perm_iff (hplain : ∀ q ∈ sets, ':' ∉ q.task.toList) (htask : ':' ∉ task.toList)
    (importName : String) :
    ((cachedUnder (sets.map .set) task importName).map ApiResponse.toValue).Perm
        ((filedUnder (sets.map .set) task importName).map ApiResponse.toValue) ↔
      ∀ q ∈ sets, q.task = task → (q.value.getD {}).importName = importName →
        Stays (sets.map .set) task importName q.taskId := by
  have hfiled := filedUnder_perm hplain htask importName
  rw [cachedUnder_eq hplain htask importName]
  constructor
  · -- the listings have as many states as there are tasks in the set, or that stayed
    intro hperm q hq htask' hname
    have hids : ∀ id ∈ idsAt (sets.map .set) (indexOf task importName),
        (after Request.owner (sets.map .set) (task, id)).isSome = true := by
      intro id hid
      obtain ⟨q, hq, howner, -⟩ := (mem_idsAt_of_plain hplain htask).mp hid
      exact after_isSome_iff.mpr ⟨.set q, mem_map_of_mem hq, howner, trivial⟩
    have hlen := hperm.length_eq
    rw [length_map, length_map, hfiled.length_eq,
      filterMap_length_eq_length.mpr hids, filterMap_length_eq_length.mpr
        fun id hid => hids id (mem_of_mem_filter hid)] at hlen
    have hall := length_filter_eq_length_iff.mp hlen.symm q.taskId
      ((mem_idsAt_of_plain hplain htask).mpr ⟨q, hq, by rw [htask'], hname⟩)
    simpa using hall
  · intro hstays
    rw [filter_eq_self.mpr fun id hid => ?_] at hfiled
    · exact (hfiled.map _).symm
    · obtain ⟨q, hq, howner, hname⟩ := (mem_idsAt_of_plain hplain htask).mp hid
      cases howner
      simpa using hstays q hq rfl hname

end Plain

/-- From empty stores, and with no outage, after a run that has stored tasks, the documents list the
tasks that were last stored under an import, and the cache lists the states under the keys of those
that ever were, unless the keys of tasks and sets meet. If the kinds have no colon, all tasks are
stored and both listings are there; they agree up to order if and only if no task of the kind was
stored under the import and is now under another one. -/
theorem listings_agree_iff_stay (s : State) (hs : s.Calm) (hcache : s.cache = [])
    (hdocs : s.documents collection = []) (sets : List SetTaskRequest)
    (hproper : ∀ q ∈ sets, (q.value.getD {}).Proper) :
    (∀ answers s', (sets.map Request.set).mapM Request.run s = .ok answers s' →
      (∀ a ∈ answers, Succeeded a) → ∀ task importName,
        ((findDocuments (.text importName) (.text task)).outcome s').1 =
          .ok ((filedUnder (sets.map .set) task importName).map ApiResponse.toValue) ∧
        ((findAll (.text importName) (.text task)).outcome s').1 =
          if Tangled (sets.map .set) task importName then .error wrongType
          else .ok ((cachedUnder (sets.map .set) task importName).map ApiResponse.toValue)) ∧
    ((∀ q ∈ sets, ':' ∉ q.task.toList) →
      ∃ answers s', (sets.map Request.set).mapM Request.run s = .ok answers s' ∧
        (∀ a ∈ answers, Succeeded a) ∧ ∀ task importName, ':' ∉ task.toList →
          ∃ cached filed, ((findAll (.text importName) (.text task)).outcome s').1 = .ok cached ∧
            ((findDocuments (.text importName) (.text task)).outcome s').1 = .ok filed ∧
            (cached.Perm filed ↔
              ∀ q ∈ sets, q.task = task → (q.value.getD {}).importName = importName →
                Stays (sets.map .set) task importName q.taskId)) := by
  have hfresh : Fresh s := ⟨hs, hcache, hdocs⟩
  have hproper' : ∀ r ∈ sets.map Request.set, r.Proper := by
    simpa [Request.Proper] using hproper
  have hsets : ∀ r ∈ sets.map Request.set, r.IsSet ∧ r.Proper := by
    simpa [Request.IsSet] using hproper'
  have hstarts : Starts [] (sets.map .set) := fun owner r hr =>
    .inl (hsets r (mem_of_find?_eq_some hr)).1
  have hkept : ∀ answers s', (sets.map Request.set).mapM Request.run s = .ok answers s' →
      (∀ a ∈ answers, Succeeded a) → Lists s' (sets.map .set) := fun answers s' hrun hall =>
    kept_of_run Lists.keeps Lists.step hfresh.lists hsets hstarts hrun hall
  refine ⟨fun answers s' hrun hall task importName => ?_, fun hplain => ?_⟩
  · have hlists := hkept answers s' hrun hall
    exact ⟨hlists.findDocuments task importName, hlists.findAll task importName⟩
  have hplain' : ∀ r ∈ sets.map Request.set, ':' ∉ r.owner.1.toList := by
    simpa [Request.owner] using hplain
  have hdistinct : Distinct ([] ++ sets.map .set) := fun r hr =>
    (ownKey_of_plain hplain' (hplain' r hr) r.owner.2).1
  obtain ⟨answers, s', hrun, hall⟩ := hfresh.keeps.run hproper' hstarts hdistinct
  refine ⟨answers, s', hrun, hall, fun task importName htask => ?_⟩
  have hlists := hkept answers s' hrun hall
  have hcached := hlists.findAll task importName
  rw [if_neg (not_tangled hplain' htask importName)] at hcached
  exact ⟨_, _, hcached, hlists.findDocuments task importName,
    listings_perm_iff hplain htask importName⟩

def importing (importName : String) : ApiResponse where
  status := "accepted"
  code := 202
  message := "queued"
  data := [("import_name", importName)]

def movedTask : List SetTaskRequest :=
  [{ taskId := "t1", task := "validation", value := some (importing "orders") },
    { taskId := "t1", task := "validation", value := some (importing "clients") }]

theorem listings_agree_iff_stay_moved :
    ∃ answers s', (movedTask.map Request.set).mapM Request.run {} = .ok answers s' ∧
      (∀ a ∈ answers, Succeeded a) ∧
      ((findAll (.text "orders") (.text "validation")).outcome s').1 =
        .ok [(importing "clients").toValue] ∧
      ((findDocuments (.text "orders") (.text "validation")).outcome s').1 = .ok [] ∧
      ∃ cached filed, ((findAll (.text "clients") (.text "validation")).outcome s').1 = .ok cached ∧
        ((findDocuments (.text "clients") (.text "validation")).outcome s').1 = .ok filed ∧
        cached.Perm filed := by
  have hproper : ∀ q ∈ movedTask, (q.value.getD {}).Proper := by
    simp only [movedTask, forall_mem_cons]
    refine ⟨⟨?_, ?_⟩, ⟨?_, ?_⟩, by simp⟩ <;> simp [IsInt32, importing]
  have hplain : ∀ q ∈ movedTask, ':' ∉ q.task.toList := by decide
  have hstays : ∀ q ∈ movedTask, Stays (movedTask.map .set) "validation" "clients" q.taskId := by
    decide
  obtain ⟨hlists, hruns⟩ := listings_agree_iff_stay {} rfl rfl rfl movedTask hproper
  obtain ⟨answers, s', hrun, hall, hagree⟩ := hruns hplain
  obtain ⟨hfiled, hcached⟩ := hlists answers s' hrun hall "validation" "orders"
  rw [if_neg (by decide)] at hcached
  refine ⟨answers, s', hrun, hall, hcached, hfiled, ?_⟩
  obtain ⟨cached, filed, hcached', hfiled', hperm⟩ := hagree "validation" "clients" (by decide)
  exact ⟨cached, filed, hcached', hfiled', hperm.mpr fun q hq _ _ => hstays q hq⟩

end SheetMill.Database.Tasks
