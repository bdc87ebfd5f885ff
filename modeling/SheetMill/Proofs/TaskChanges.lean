import SheetMill.Proofs.TaskDocuments

/-!
# What a change does to any state

The hash under the key of a task need not be that of a state: there may be none yet, or one with
other fields. A change writes the field and the message at once, then reads the data if it has to,
and stops there if that fails; what it has written by then stays.
-/

namespace SheetMill.Message

/-- The key of the task that the request is about. -/
abbrev UpdateTaskRequest.key (u : UpdateTaskRequest) : String :=
  Database.TaskCache.keyOf u.task u.taskId

end SheetMill.Message

namespace SheetMill.Database.TaskCache

open Act hiding Leaves
open Value Message Cache

variable {s : State} {k task taskId : String} {u : UpdateTaskRequest} {e : Entry} {ttl : Value}
  {old fields : List (String × String)} {texts : List (String × String)}

/-! ## Writing to a hash -/

theorem andThen_leaves {e' : Entry} {work work' : Work Unit} (hs : s.Calm) (h : Leaves s k e work)
    (h' : ∀ s' : State, s'.Calm → entryAt s'.cache k = some e → Leaves s' k e' work') :
    Leaves s k e' (do work; work') := by
  obtain ⟨cache1, hrun1, hentry1⟩ := h
  have hs1 : State.Calm { s with cache := cache1 } := hs
  obtain ⟨cache2, hrun2, hentry2⟩ := h' _ hs1 (by rw [hentry1, Function.update_self])
  refine ⟨cache2, (bind_of_ok hrun1).trans hrun2, ?_⟩
  rw [hentry2, hentry1, Function.update_idem]

theorem leaves_pure (h : entryAt s.cache k = some e) : Leaves s k e (pure ()) :=
  ⟨s.cache, rfl, by rw [← h, Function.update_eq_self]⟩

theorem hashOr_of_entryAt (h : entryAt s.cache k = some (hashEntry k fields ttl)) :
    HashOr s.cache k fields := .inl (held_of_hashEntry h)

theorem leaves_storeFields (hs : s.Calm) (h : entryAt s.cache k = some (hashEntry k fields ttl))
    (new : List (String × String)) :
    Leaves s k (hashEntry k (merged fields new) ttl) (storeFields (.text k) (new.map textEntry)) := by
  obtain ⟨cache', hrun, hent⟩ := storeFields_writes hs (hashOr_of_entryAt h) new
  refine ⟨cache', hrun, ?_⟩
  rw [hent, ttlAt, h]
  rfl

/-! ## The parts of a change -/

def messageIn (u : UpdateTaskRequest) : List (String × String) :=
  if u.message.getD "" = "" then [] else [("message", u.message.getD "")]

/-- The fields that a change writes before it looks at the data. -/
def spoken (u : UpdateTaskRequest) : List (String × String) := (u.field, u.value) :: messageIn u

/-- The data that a change of a hash starts from. -/
def startIn (u : UpdateTaskRequest) (fields : List (String × String)) : Outcome Value :=
  if u.resetData.getD false then .ok (.map [])
  else do ((← stateIn (fields.map textEntry)).getD .null).item "data"

/-- The field with the data that a change writes to a hash, if it has data. -/
def dataIn (u : UpdateTaskRequest) (fields : List (String × String)) :
    Outcome (List (String × String)) :=
  if u.data = [] then .ok []
  else do
    let new ← merge (← startIn u fields) (textMapValue u.data)
    return [("data", ← new.toJson)]

theorem leaves_message (hs : s.Calm)
    (h : entryAt s.cache u.key = some (hashEntry u.key fields ttl)) :
    Leaves s u.key
      (hashEntry u.key (merged fields (messageIn u)) ttl)
      (changeMessage (requested u)) := by
  unfold changeMessage messageIn
  by_cases hnil : u.message.getD "" = ""
  · rw [if_pos hnil, if_neg (mt truthy_message.mp (not_not.mpr hnil))]
    exact leaves_pure h
  · rw [if_neg hnil, if_pos (truthy_message.mpr hnil)]
    exact leaves_storeFields hs h [("message", u.message.getD "")]

theorem findStart_eq (hs : s.Calm) (h : HashOr s.cache u.key fields) :
    findStart (requested u) s = (liftM (startIn u fields) : Work Value) s := by
  have hreset : (requested u).resetData.truthy = u.resetData.getD false := rfl
  unfold findStart startIn
  rw [hreset]
  cases u.resetData.getD false with
  | true => rfl
  | false =>
    have hfind := find_of_hashOr hs h
    cases hst : stateIn (fields.map textEntry) with
    | ok found =>
      rw [hst] at hfind
      exact bind_of_ok hfind
    | error f =>
      rw [hst] at hfind
      exact bind_of_error hfind

theorem changeData_eq (hs : s.Calm) (h : HashOr s.cache u.key fields)
    (hdata : u.data ≠ []) :
    changeData (requested u) s = (do
      let texts ← (dataIn u fields : Outcome (List (String × String)))
      storeFields (.text u.key) (texts.map textEntry) : Work Unit) s := by
  have hstart := findStart_eq hs h
  rw [changeData, if_pos (truthy_data.mpr hdata), dataIn, if_neg hdata]
  cases hold : startIn u fields with
  | error f =>
    rw [hold] at hstart
    exact bind_of_error hstart
  | ok old =>
    rw [hold] at hstart
    refine (bind_of_ok hstart).trans ?_
    simp only [Outcome.ok_bind, lift_bind, bind_assoc]
    rfl

theorem leaves_data (hs : s.Calm) (h : entryAt s.cache u.key = some (hashEntry u.key fields ttl))
    (hdata : dataIn u fields = .ok texts) :
    Leaves s u.key
      (hashEntry u.key (merged fields texts) ttl)
      (changeData (requested u)) := by
  by_cases hnil : u.data = []
  · rw [dataIn, if_pos hnil] at hdata
    cases hdata
    unfold changeData
    rw [if_neg (mt truthy_data.mp (not_not.mpr hnil))]
    exact leaves_pure h
  · obtain ⟨cache', hrun, hent⟩ := leaves_storeFields hs h texts
    refine ⟨cache', ?_, hent⟩
    rw [changeData_eq hs (hashOr_of_entryAt h) hnil]
    exact (bind_known hdata).trans hrun

theorem changeData_of_error (hs : s.Calm) {f : Fault}
    (h : HashOr s.cache u.key fields) (hdata : dataIn u fields = .error f) :
    changeData (requested u) s = .error f s := by
  have hnil : u.data ≠ [] := by
    intro hnil
    rw [dataIn, if_pos hnil] at hdata
    cases hdata
  rw [changeData_eq hs h hnil]
  exact bind_of_error (lift_of_error hdata s)

theorem leaves_prolong (hs : s.Calm)
    (h : entryAt s.cache u.key = some (hashEntry u.key fields ttl)) :
    Leaves s u.key
      (hashEntry u.key fields (if u.field = "status" then life u.value else ttl))
      (prolong (requested u) (.text u.value)) := by
  have hsame : (requested u).field.same (.text "status") = (u.field == "status") :=
    same_text_text u.field "status"
  unfold prolong
  rw [hsame]
  by_cases hfld : u.field = "status"
  · rw [if_pos (beq_iff_eq.mpr hfld), if_pos hfld]
    exact setTtl_writes hs h (life u.value)
  · rw [if_neg (mt beq_iff_eq.mp hfld), if_neg hfld]
    exact leaves_pure h

/-! ## Changes -/

theorem leaves_spoken (hs : s.Calm) (h : HashOr s.cache u.key old) :
    Leaves s u.key
      (hashEntry u.key (merged old (spoken u)) (ttlAt s.cache u.key))
      (do
        storeFields (.text u.key) [(.text u.field, .text u.value)]
        changeMessage (requested u)) := by
  refine andThen_leaves hs (storeFields_writes hs h [(u.field, u.value)]) fun s1 hs1 h1 => ?_
  exact leaves_message hs1 h1

theorem change_of_ok (hs : s.Calm) (h : HashOr s.cache u.key old)
    (hdata : dataIn u (merged old (spoken u)) = .ok texts) :
    Leaves s u.key
      (hashEntry u.key (merged old (spoken u ++ texts))
        (if u.field = "status" then life u.value else ttlAt s.cache u.key))
      (change (requested u)) := by
  have hmerged : merged old (spoken u ++ texts) = merged (merged old (spoken u)) texts :=
    List.foldl_append
  rw [change, hmerged]
  have hparts := andThen_leaves hs (leaves_spoken hs h) fun s1 hs1 h1 =>
    andThen_leaves hs1 (leaves_data hs1 h1 hdata) fun s2 hs2 h2 => leaves_prolong hs2 h2
  simp only [bind_assoc] at hparts
  exact hparts

theorem merged_spoken (hu : u.Proper) (m : ApiResponse) :
    merged (fieldsOf m) (spoken u) = fieldsOf (u.withMessage (u.withValue m)) := by
  have hval : putEntry (u.field, u.value) (fieldsOf m) = fieldsOf (u.withValue m) := by
    rcases hu.field with hfld | hfld <;>
      simp [UpdateTaskRequest.withValue, hfld, putEntry, fieldsOf]
  show merged (putEntry (u.field, u.value) (fieldsOf m)) (messageIn u) = _
  rw [hval]
  unfold messageIn UpdateTaskRequest.withMessage
  split_ifs <;> rfl

/-- In the hash of a state, the new data is put into the data that the change starts from. -/
theorem dataIn_fieldsOf {m : ApiResponse} (hu : u.Proper) (hm : m.Proper) :
    ∃ texts, dataIn u (fieldsOf m) = .ok texts ∧
      merged (fieldsOf m) texts = fieldsOf (u.withData m) := by
  unfold dataIn UpdateTaskRequest.withData
  by_cases hnil : u.data = []
  · rw [if_pos hnil, if_pos hnil]
    exact ⟨[], rfl, rfl⟩
  · rw [if_neg hnil, if_neg hnil]
    obtain ⟨old, hstart, hnew⟩ : ∃ old, startIn u (fieldsOf m) = .ok (textMapValue old) ∧
        (if u.resetData.getD false then u.data else merged m.data u.data) = merged old u.data := by
      unfold startIn
      cases u.resetData.getD false with
      | true =>
        -- the data is merged here too, but into none
        have hall : merged [] u.data = u.data := merged_of_distinct (by simpa using hu.names)
        exact ⟨[], rfl, hall.symm⟩
      | false =>
        refine ⟨m.data, ?_, rfl⟩
        rw [stateIn_fieldsOf hm]
        rfl
    refine ⟨[("data", mapText (merged old u.data))], ?_, by rw [hnew]; rfl⟩
    rw [hstart, Outcome.ok_bind, merge_textMapValue, Outcome.ok_bind, toJson_textMapValue]
    rfl

/-- A change of a task makes the hash of its state that of the changed state. -/
theorem change_calm {m : ApiResponse} (hs : s.Calm) (hu : u.Proper) (hm : m.Proper)
    (h : held s.cache u.key = some (hashed m)) :
    ∃ cache', change (requested u) s = .ok () { s with cache := cache' } ∧
      held cache' = Function.update (held s.cache) u.key
        (some (hashed (u.amended m))) := by
  have hproper : (u.withMessage (u.withValue m)).Proper :=
    UpdateTaskRequest.withMessage_proper (UpdateTaskRequest.withValue_proper hm)
  obtain ⟨texts, hdata, hflds⟩ := dataIn_fieldsOf hu hproper
  rw [← merged_spoken hu] at hdata hflds
  obtain ⟨cache', hrun, hent⟩ := change_of_ok hs (hashOr_of_hashed h) hdata
  have hmerged : merged (fieldsOf m) (spoken u ++ texts) = fieldsOf (u.amended m) :=
    List.foldl_append.trans hflds
  refine ⟨cache', hrun, ?_⟩
  rw [held_of_entryAt hent, hmerged]
  rfl

theorem change_of_error (hs : s.Calm) (h : HashOr s.cache u.key old) {f : Fault}
    (hdata : dataIn u (merged old (spoken u)) = .error f) :
    ∃ cache', change (requested u) s = .error f { s with cache := cache' } ∧
      entryAt cache' = Function.update (entryAt s.cache) u.key
        (some (hashEntry u.key (merged old (spoken u))
          (ttlAt s.cache u.key))) := by
  obtain ⟨cache', hrun, hent⟩ := leaves_spoken (u := u) hs h
  have hs' : State.Calm { s with cache := cache' } := hs
  have h' : HashOr cache' u.key (merged old (spoken u)) := by
    left
    rw [held_of_entryAt hent, Function.update_self]
    rfl
  refine ⟨cache', ?_, hent⟩
  have hparts := (bind_of_ok (f := fun _ => do
    changeData (requested u)
    prolong (requested u) (.text u.value)) hrun).trans (bind_of_error (changeData_of_error hs' h' hdata))
  simp only [bind_assoc] at hparts
  exact hparts

/-- What a change writes to a hash with the given fields, whether it ends well or not. -/
def Written (u : UpdateTaskRequest) (old new : List (String × String)) : Prop :=
  new = spoken u ∨ ∃ texts, dataIn u (merged old (spoken u)) = .ok texts ∧ new = spoken u ++ texts

theorem change_state (hs : s.Calm) (h : HashOr s.cache u.key old) :
    ∃ new ttl cache', Written u old new ∧
      (ttl = ttlAt s.cache u.key ∨ ttl = life u.value) ∧
      ((change (requested u)).outcome s).2 = { s with cache := cache' } ∧
      entryAt cache' = Function.update (entryAt s.cache) u.key
        (some (hashEntry u.key (merged old new) ttl)) := by
  cases hdata : dataIn u (merged old (spoken u)) with
  | ok texts =>
    obtain ⟨cache', hrun, hent⟩ := change_of_ok hs h hdata
    refine ⟨_, _, cache', .inr ⟨texts, hdata, rfl⟩, ?_, by rw [outcome_of_ok hrun], hent⟩
    split_ifs
    · exact .inr rfl
    · exact .inl rfl
  | error f =>
    obtain ⟨cache', hrun, hent⟩ := change_of_error hs h hdata
    exact ⟨_, _, cache', .inl rfl, .inl rfl, by rw [outcome_of_error hrun], hent⟩

theorem change_of_listed {members : List Value} (hs : s.Calm)
    (h : held s.cache u.key = some (listed members)) :
    change (requested u) s = .error wrongType s := by
  refine (bind_known (a := Value.text u.value) rfl).trans ?_
  exact bind_of_error (storeFields_refused hs h [(u.field, u.value)])

end SheetMill.Database.TaskCache

namespace SheetMill.Database.Tasks

open Act Value Message Documents

variable {s : State} {u : UpdateTaskRequest} {docs : Documents} {sets : List (String × Value)}

/-! ## Changes of documents -/

/-- The data that a change may start from: none, or that of a document. -/
def OldData (docs : Documents) (old : Value) : Prop :=
  old = .map [] ∨ ∃ doc ∈ docs, doc.field? "data" = some old

/-- The data that a change may give to one of the documents: its own, or that of a document with its
own put into it. -/
def NewData (docs : Documents) (u : UpdateTaskRequest) (data : Value) : Prop :=
  data = textMapValue u.data ∨
    ∃ old, OldData docs old ∧ TaskCache.merge old (textMapValue u.data) = .ok data

def Sets (docs : Documents) (u : UpdateTaskRequest) (sets : List (String × Value)) : Prop :=
  sets = told u ∨ ∃ data, NewData docs u data ∧ sets = putEntry ("data", data) (told u)

def Unmergeable (docs : Documents) (u : UpdateTaskRequest) (f : Fault) : Prop :=
  ∃ old, OldData docs old ∧ TaskCache.merge old (textMapValue u.data) = .error f

theorem oldData_dataOf (docs : Documents) (owner : String × String) :
    OldData docs (dataOf docs owner) := by
  unfold dataOf
  cases hfound : docs.find? (meets (ownedBy owner)) with
  | none => exact .inl rfl
  | some doc =>
    rw [Option.bind_some]
    cases hdata : doc.field? "data" with
    | none => exact .inl rfl
    | some old => exact .inr ⟨doc, List.mem_of_find?_eq_some hfound, hdata⟩

theorem setsIn_cases (docs : Documents) (u : UpdateTaskRequest) :
    (∃ f, Unmergeable docs u f ∧ setsIn docs u = .error f) ∨
      ∃ sets, Sets docs u sets ∧ setsIn docs u = .ok sets := by
  unfold setsIn
  split_ifs
  · exact .inr ⟨_, .inl rfl, rfl⟩
  · exact .inr ⟨_, .inr ⟨_, .inl rfl, rfl⟩, rfl⟩
  · have hold := oldData_dataOf docs (u.task, u.taskId)
    cases hmerge : TaskCache.merge (dataOf docs (u.task, u.taskId)) (textMapValue u.data) with
    | error f => exact .inl ⟨f, ⟨_, hold, hmerge⟩, rfl⟩
    | ok data => exact .inr ⟨_, .inr ⟨data, .inr ⟨_, hold, hmerge⟩, rfl⟩, rfl⟩

/-! ## The update of a document -/

/-- The first of the fields has the given name; the others are the message and the data. -/
def Headed (name : String) (sets : List (String × Value)) : Prop :=
  ∃ v rest, sets = (name, v) :: rest ∧ ∀ e ∈ rest, e.1 = "message" ∨ e.1 = "data"

theorem Headed.put {name other : String} (h : Headed name sets)
    (hother : other = "message" ∨ other = "data") (w : Value) :
    Headed name (putEntry (other, w) sets) := by
  obtain ⟨v, rest, rfl, hrest⟩ := h
  by_cases hname : name = other
  · subst hname
    exact ⟨w, rest, by simp [putEntry], hrest⟩
  · refine ⟨v, putEntry (other, w) rest, by simp [putEntry, hname], fun e he => ?_⟩
    rcases mem_putEntry he with rfl | he
    · exact hother
    · exact hrest e he

theorem headed_told (u : UpdateTaskRequest) : Headed u.field (told u) := by
  have hone : Headed u.field [(u.field, .text u.value)] := ⟨_, [], rfl, by simp⟩
  unfold told
  split_ifs
  · exact hone
  · exact hone.put (.inl rfl) _

theorem Sets.headed (h : Sets docs u sets) : Headed u.field sets := by
  rcases h with rfl | ⟨data, -, rfl⟩
  · exact headed_told u
  · exact (headed_told u).put (.inr rfl) data

theorem split_of_rest {rest : List (String × Value)}
    (h : ∀ e ∈ rest, e.1 = "message" ∨ e.1 = "data") : ∀ e ∈ rest, Text.split e.1 '.' = [e.1] := by
  intro e he
  rcases h e he with hname | hname <;>
    (rw [hname]; decide)

/-- The update of a document is done or, if it fails, leaves all documents as they are. -/
theorem setting_cases (hs : s.Calm) (hmaps : AllMaps (s.documents collection))
    (h : Headed u.field sets) :
    (∃ f, (∃ doc ∈ s.documents collection,
        amend (.record [("$set", .record sets)]) doc = .error f doc) ∧
      setting u (.record sets) s = .error f (s.reread collection)) ∨
    setting u (.record sets) s = .ok () (s.reread collection) ∨
    ∃ before doc doc' after, s.documents collection = before ++ doc :: after ∧
      amend (.record [("$set", .record sets)]) doc = .ok () doc' ∧
      setting u (.record sets) s = .ok () (s.withDocuments collection (before ++ doc' :: after)) := by
  obtain ⟨v, rest, rfl, hrest⟩ := h
  rcases located_or_none (meets (ownedBy (u.task, u.taskId))) (s.documents collection) with
    hnone | ⟨before, doc, after, hdoc⟩
  · exact .inr (.inl (bind_of_ok (updateOne_none hs hmaps hnone _)))
  · obtain ⟨es, rfl⟩ := hmaps doc hdoc.mem
    rcases amend_set_cons u.field v (split_of_rest hrest) es with
      ⟨f, hamend⟩ | ⟨first, path, inner, -, -, hamend⟩
    · refine .inl ⟨f, ⟨_, hdoc.mem, hamend⟩, ?_⟩
      have hupd := updateOne_of_error hs hmaps hdoc hamend
      rw [← hdoc.eq] at hupd
      exact bind_of_error hupd
    · obtain ⟨report, hupd⟩ := updateOne_split hs hmaps hdoc hamend
      exact .inr (.inr ⟨before, _, _, after, hdoc.eq, hamend, bind_of_ok hupd⟩)

def Unsettable (docs : Documents) (u : UpdateTaskRequest) (f : Fault) : Prop :=
  ∃ sets, Sets docs u sets ∧ ∃ doc ∈ docs, amend (.record [("$set", .record sets)]) doc = .error f doc

/-- A change of documents sets fields of one of them, or it changes nothing; if it fails, it has
changed nothing. -/
theorem changeDocument_spec (hs : s.Calm) (hmaps : AllMaps (s.documents collection))
    (u : UpdateTaskRequest) :
    ∃ s', s'.Calm ∧ s'.cache = s.cache ∧
      ((∃ f, (Unmergeable (s.documents collection) u f ∨ Unsettable (s.documents collection) u f) ∧
          changeDocument (TaskCache.requested u) s = .error f s' ∧
          s'.documents collection = s.documents collection) ∨
        changeDocument (TaskCache.requested u) s = .ok () s' ∧
          (s'.documents collection = s.documents collection ∨
            ∃ before doc doc' after sets, s.documents collection = before ++ doc :: after ∧
              Sets (s.documents collection) u sets ∧
              amend (.record [("$set", .record sets)]) doc = .ok () doc' ∧
              s'.documents collection = before ++ doc' :: after)) := by
  obtain ⟨s1, hs1, hcache, hdocs1, hrun⟩ := changeDocument_eq_setting hs hmaps u
  rcases setsIn_cases (s.documents collection) u with ⟨f, hwhy, hf⟩ | ⟨sets, hsets, hok⟩
  · rw [hf] at hrun
    exact ⟨s1, hs1, hcache, .inl ⟨f, .inl hwhy, hrun, hdocs1⟩⟩
  · rw [hok] at hrun
    have hmaps1 : AllMaps (s1.documents collection) := hdocs1 ▸ hmaps
    rcases setting_cases hs1 hmaps1 hsets.headed with
      ⟨f, hwhy, hset⟩ | hset | ⟨before, doc, doc', after, hdocs, hamend, hset⟩
    · rw [hdocs1] at hwhy
      refine ⟨s1.withDocuments collection _, hs1, hcache,
        .inl ⟨f, .inr ⟨sets, hsets, hwhy⟩, hrun.trans hset, ?_⟩⟩
      rw [documents_withDocuments, hdocs1]
    · refine ⟨s1.withDocuments collection _, hs1, hcache, .inr ⟨hrun.trans hset, .inl ?_⟩⟩
      rw [documents_withDocuments, hdocs1]
    · refine ⟨s1.withDocuments collection _, hs1, hcache, .inr ⟨hrun.trans hset, .inr ?_⟩⟩
      refine ⟨before, doc, doc', after, sets, hdocs1 ▸ hdocs, hsets, hamend, ?_⟩
      rw [documents_withDocuments]

theorem storeDocument_spec (hs : s.Calm) (hmaps : AllMaps (s.documents collection))
    (task taskId : String) (m : ApiResponse) :
    ∃ id s', storeDocument (.text taskId) m.toValue (.text task) s = .ok () s' ∧ s'.Calm ∧
      s'.cache = s.cache ∧
      ∀ doc ∈ s'.documents collection, doc ∈ s.documents collection ∨
        doc = (documentOf (task, taskId) m).withField "_id" id := by
  rw [storeDocument_eq]
  rcases located_or_none (meets (ownedBy (task, taskId))) (s.documents collection) with
    hnone | ⟨before, old, after, hold⟩
  · obtain ⟨id, s', hrun, hs', hcache, hdocs'⟩ := replaceOne_none hs hmaps hnone
      (documentOf (task, taskId) m)
    refine ⟨id, s', hrun, hs', hcache, fun doc hdoc => ?_⟩
    rw [hdocs', List.mem_append, List.mem_singleton] at hdoc
    exact hdoc
  · obtain ⟨id, hrun⟩ := replaceOne_split hs hmaps hold (documentOf (task, taskId) m)
    refine ⟨id, _, hrun, hs, rfl, fun doc hdoc => ?_⟩
    rw [documents_withDocuments, List.mem_append, List.mem_cons] at hdoc
    rw [hold.eq, List.mem_append, List.mem_cons]
    tauto

end SheetMill.Database.Tasks
