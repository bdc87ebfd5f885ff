import SheetMill.Proofs.Documents
import SheetMill.Proofs.TaskHash

/-!
# Tasks as documents

The document of a task is told by the kind and the identity of the task together, and it shows the
state in four of its fields. Storing a task replaces its document and a change sets fields of it;
the documents of other tasks stay as they are.
-/

namespace SheetMill.Database.Tasks

open Act Value Message Documents

variable {docs before after : Documents} {doc : Value} {owner : String × String}
  {states : String × String → Option ApiResponse} {m : ApiResponse} {u : UpdateTaskRequest}
  {s : State}

def ownedBy (owner : String × String) : List (String × Value) :=
  [("task_id", .text owner.2), ("task", .text owner.1)]

structure Shows (doc : Value) (m : ApiResponse) : Prop where
  status : doc.field? "status" = some (.text m.status)
  code : doc.field? "code" = some (.int m.code)
  message : doc.field? "message" = some (.text m.message)
  data : doc.field? "data" = some (textMapValue m.data)

def ShowOne (docs : Documents) : Option ApiResponse → Prop
  | none => docs = []
  | some m => ∃ doc, docs = [doc] ∧ Shows doc m

structure Represents (docs : Documents) (states : String × String → Option ApiResponse) : Prop where
  owned : ∀ doc ∈ docs, ∃ owner, meets (ownedBy owner) doc = true
  shows : ∀ owner, ShowOne (docs.filter (meets (ownedBy owner))) (states owner)

/-! ## The document of a task -/

theorem meets_ownedBy : meets (ownedBy owner) doc = true ↔
    doc.field? "task_id" = some (.text owner.2) ∧ doc.field? "task" = some (.text owner.1) := by
  simp [ownedBy, meets_cons_text]

theorem meets_other {other : String × String} (hdoc : meets (ownedBy owner) doc = true)
    (hne : other ≠ owner) : meets (ownedBy other) doc = false := by
  rw [← Bool.not_eq_true, meets_ownedBy]
  rintro ⟨hid, htask⟩
  obtain ⟨hid', htask'⟩ := meets_ownedBy.mp hdoc
  rw [hid'] at hid
  rw [htask'] at htask
  simp only [Option.some.injEq, text.injEq] at hid htask
  exact hne (Prod.ext htask.symm hid.symm)

theorem Represents.allMaps (h : Represents docs states) : AllMaps docs := by
  intro doc hdoc
  obtain ⟨owner, howner⟩ := h.owned doc hdoc
  obtain ⟨es, rfl, -⟩ := eq_map_of_field? (meets_ownedBy.mp howner).1
  exact ⟨es, rfl⟩

theorem represents_nil : Represents [] fun _ => none :=
  ⟨fun _ h => (List.not_mem_nil h).elim, fun _ => rfl⟩

theorem Represents.meets_eq_false (h : Represents docs states) (hst : states owner = none) :
    ∀ x ∈ docs, meets (ownedBy owner) x = false := by
  have hshows := h.shows owner
  rw [hst] at hshows
  exact eq_false_of_filter_eq_nil hshows

theorem Represents.exists_split (h : Represents docs states) (hst : states owner = some m) :
    ∃ before doc after, Located (meets (ownedBy owner)) docs before doc after ∧ Shows doc m ∧
      (before ++ after).filter (meets (ownedBy owner)) = [] := by
  have hshows := h.shows owner
  rw [hst] at hshows
  obtain ⟨doc, hdocs, hdoc⟩ := hshows
  obtain ⟨before, after, hloc, hnone⟩ := split_of_filter hdocs
  exact ⟨before, doc, after, hloc, hdoc, hnone⟩

theorem Represents.erase (h : Represents (before ++ doc :: after) states)
    (hdoc : meets (ownedBy owner) doc = true)
    (hnone : (before ++ after).filter (meets (ownedBy owner)) = []) :
    Represents (before ++ after) (Function.update states owner none) := by
  refine ⟨(forall_mem_split.mp h.owned).2, fun other => ?_⟩
  by_cases hother : other = owner
  · subst hother
    rw [Function.update_self]
    exact hnone
  · rw [Function.update_of_ne hother, ← filter_split_of_false (meets_other hdoc hother)]
    exact h.shows other

theorem Represents.put (h : Represents (before ++ after) states) (hst : states owner = none)
    (hdoc : meets (ownedBy owner) doc = true) (hshows : Shows doc m) :
    Represents (before ++ doc :: after) (Function.update states owner (some m)) := by
  refine ⟨forall_mem_split.mpr ⟨⟨owner, hdoc⟩, h.owned⟩, fun other => ?_⟩
  by_cases hother : other = owner
  · subst hother
    have hnone := h.shows other
    rw [hst] at hnone
    rw [Function.update_self, filter_split_of_none hnone hdoc]
    exact ⟨doc, rfl, hshows⟩
  · rw [Function.update_of_ne hother, filter_split_of_false (meets_other hdoc hother)]
    exact h.shows other

theorem Represents.exchange {doc' : Value} (h : Represents (before ++ doc :: after) states)
    (hdoc : meets (ownedBy owner) doc = true)
    (hnone : (before ++ after).filter (meets (ownedBy owner)) = [])
    (hdoc' : meets (ownedBy owner) doc' = true) (hshows : Shows doc' m) :
    Represents (before ++ doc' :: after) (Function.update states owner (some m)) := by
  -- taking the old document out first makes this a case of putting one in
  have hput := (h.erase hdoc hnone).put (Function.update_self ..) hdoc' hshows
  rwa [Function.update_idem] at hput

/-! ## Reading -/

theorem stateOf_shows (h : Shows doc m) :
    stateOf (fun c => .int <$> c.toInt) doc = .ok m.toValue := by
  simp only [stateOf, item_of_field? h.status, item_of_field? h.code, item_of_field? h.message,
    item_of_field? h.data, Outcome.ok_bind]
  rfl

theorem stateOf_ok_shows (h : Shows doc m) : stateOf .ok doc = .ok m.toValue := by
  simp only [stateOf, item_of_field? h.status, item_of_field? h.code, item_of_field? h.message,
    item_of_field? h.data, Outcome.ok_bind]
  rfl

theorem findDocument_shows {task taskId : String} (hs : s.Calm)
    (hmaps : AllMaps (s.documents collection))
    (hdoc : Located (meets (ownedBy (task, taskId))) (s.documents collection) before doc after)
    (hshows : Shows doc m) :
    findDocument (.text taskId) (.text task) s =
      .ok (some m.toValue) (s.reread collection) := by
  have hone : findOne collection (ofTask (.text taskId) (.text task)) s =
      .ok (some doc) (s.reread collection) :=
    findOne_split hs hmaps hdoc
  refine (bind_of_ok hone).trans ?_
  simp only [truthy_of_field? hshows.status, if_true, stateOf_shows hshows]
  rfl

theorem findDocument_calm (hs : s.Calm) (h : Represents (s.documents collection) states)
    (task taskId : String) :
    findDocument (.text taskId) (.text task) s =
      .ok ((states (task, taskId)).map ApiResponse.toValue)
        (s.reread collection) := by
  cases hst : states (task, taskId) with
  | none =>
    have hfst : (s.documents collection).first? (ofTask (.text taskId) (.text task)) = .ok none :=
      first?_none h.allMaps (h.meets_eq_false hst)
    exact (bind_of_ok (findOne_calm hs hfst)).trans rfl
  | some m =>
    obtain ⟨before, doc, after, hdoc, hshows, -⟩ := h.exists_split hst
    exact findDocument_shows hs h.allMaps hdoc hshows

/-! ## Storing -/

/-- The work leaves the cache as it is and makes the documents represent the states. -/
def Writes (s : State) (states : String × String → Option ApiResponse) (work : Work Unit) : Prop :=
  ∃ s', work s = .ok () s' ∧ s'.Calm ∧ s'.cache = s.cache ∧
    Represents (s'.documents collection) states

def documentOf (owner : String × String) (m : ApiResponse) : Value :=
  .record [("task_id", .text owner.2), ("task", .text owner.1),
    ("import_name", .text m.importName), ("status", .text m.status), ("code", .int m.code),
    ("message", .text m.message), ("data", textMapValue m.data)]

theorem shows_documentOf (owner : String × String) (m : ApiResponse) (id : Value) :
    meets (ownedBy owner) ((documentOf owner m).withField "_id" id) = true ∧
      Shows ((documentOf owner m).withField "_id" id) m := by
  have hfld : ∀ name, name ≠ "_id" →
      ((documentOf owner m).withField "_id" id).field? name = (documentOf owner m).field? name :=
    fun name hname => field?_withField_of_ne hname _ _
  refine ⟨meets_ownedBy.mpr ⟨?_, ?_⟩, ⟨?_, ?_, ?_, ?_⟩⟩ <;>
    exact (hfld _ (by decide)).trans rfl

theorem storeDocument_eq (s : State) (task taskId : String) (m : ApiResponse) :
    storeDocument (.text taskId) m.toValue (.text task) s =
      replaceOne collection (.record (ownedBy (task, taskId))) (documentOf (task, taskId) m) s := by
  have hdata : m.toValue.item "data" = .ok (textMapValue m.data) := rfl
  refine (bind_known hdata).trans ?_
  refine (bind_known (TaskCache.getD_textMapValue m.data _ _)).trans ?_
  refine (bind_known (a := text m.status) rfl).trans ?_
  refine (bind_known (a := int m.code) rfl).trans ?_
  refine (bind_known (a := text m.message) rfl).trans ?_
  exact bind_known hdata

theorem storeDocument_writes (hs : s.Calm) (h : Represents (s.documents collection) states)
    (task taskId : String) (m : ApiResponse) :
    Writes s (Function.update states (task, taskId) (some m))
      (storeDocument (.text taskId) m.toValue (.text task)) := by
  unfold Writes
  rw [storeDocument_eq]
  cases hst : states (task, taskId) with
  | none =>
    obtain ⟨id, s', hrun, hs', hcache, hdocs⟩ := replaceOne_none hs h.allMaps
      (h.meets_eq_false hst) (documentOf (task, taskId) m)
    obtain ⟨howner, hshows⟩ := shows_documentOf (task, taskId) m id
    have hrest : Represents (s.documents collection ++ []) states := by rwa [List.append_nil]
    refine ⟨s', hrun, hs', hcache, ?_⟩
    rw [hdocs]
    exact hrest.put hst howner hshows
  | some old =>
    obtain ⟨before, doc, after, hdoc, -, hnone⟩ := h.exists_split hst
    obtain ⟨id, hrun⟩ := replaceOne_split hs h.allMaps hdoc (documentOf (task, taskId) m)
    obtain ⟨howner, hshows⟩ := shows_documentOf (task, taskId) m id
    rw [hdoc.eq] at h
    refine ⟨_, hrun, hs, rfl, ?_⟩
    rw [documents_withDocuments]
    exact h.exchange hdoc.found hnone howner hshows

/-! ## Changing -/

def told (u : UpdateTaskRequest) : List (String × Value) :=
  if u.message.getD "" = "" then [(u.field, .text u.value)]
  else putEntry ("message", .text (u.message.getD "")) [(u.field, .text u.value)]

def settings (u : UpdateTaskRequest) (m : ApiResponse) : List (String × Value) :=
  if u.data = [] then told u else putEntry ("data", textMapValue (u.withData m).data) (told u)

theorem told_named (u : UpdateTaskRequest) :
    (if (TaskCache.requested u).message.truthy then
        setEntry (.text "message") (TaskCache.requested u).message
          [((TaskCache.requested u).field, (TaskCache.requested u).value)]
      else [((TaskCache.requested u).field, (TaskCache.requested u).value)]) =
      (told u).map (named id) := by
  unfold told
  by_cases hnil : u.message.getD "" = ""
  · rw [if_pos hnil, if_neg (mt TaskCache.truthy_message.mp (not_not.mpr hnil))]
    rfl
  · rw [if_neg hnil, if_pos (TaskCache.truthy_message.mpr hnil)]
    exact setEntry_named id ("message", .text (u.message.getD "")) [(u.field, .text u.value)]

def setting (u : UpdateTaskRequest) (sets : Value) : Work Unit := do
  let _ ← updateOne collection (.record (ownedBy (u.task, u.taskId))) (.record [("$set", sets)])

def dataOf (docs : Documents) (owner : String × String) : Value :=
  ((docs.find? (meets (ownedBy owner))).bind (·.field? "data")).getD (.map [])

/-- The fields that a change sets in the document of its task. -/
def setsIn (docs : Documents) (u : UpdateTaskRequest) : Outcome (List (String × Value)) :=
  if u.data = [] then .ok (told u)
  else if u.resetData.getD false then .ok (putEntry ("data", textMapValue u.data) (told u))
  else do
    let data ← TaskCache.merge (dataOf docs (u.task, u.taskId)) (textMapValue u.data)
    return putEntry ("data", data) (told u)

theorem record_putEntry (data : Value) (sets : List (String × Value)) :
    map (setEntry (.text "data") data (sets.map (named id))) =
      .record (putEntry ("data", data) sets) :=
  congrArg map (setEntry_named id ("data", data) sets)

theorem settingMerged_eq (u : UpdateTaskRequest) (old : Value) (s : State) :
    (do
      let new ← TaskCache.merge old (textMapValue u.data)
      setting u (.map (setEntry (.text "data") new ((told u).map (named id)))) : Work Unit) s =
    (do
      let sets ← (do
        let data ← TaskCache.merge old (textMapValue u.data)
        return putEntry ("data", data) (told u) : Outcome (List (String × Value)))
      setting u (.record sets) : Work Unit) s := by
  cases TaskCache.merge old (textMapValue u.data) with
  | error f => rfl
  | ok data => exact congrArg (setting u · s) (record_putEntry data (told u))

theorem changeDocument_eq_setting (hs : s.Calm) (hmaps : AllMaps (s.documents collection))
    (u : UpdateTaskRequest) :
    ∃ s1, s1.Calm ∧ s1.cache = s.cache ∧ s1.documents collection = s.documents collection ∧
      changeDocument (TaskCache.requested u) s =
        (do setting u (.record (← setsIn (s.documents collection) u)) : Work Unit) s1 := by
  have hkey : (TaskCache.requested u).field.isKey = true := rfl
  unfold changeDocument setsIn
  simp only [hkey, Bool.not_true, Bool.false_eq_true, if_false, pure_bind, told_named]
  by_cases hnil : u.data = []
  · refine ⟨s, hs, rfl, rfl, ?_⟩
    rw [if_pos hnil, if_neg (mt TaskCache.truthy_data.mp (not_not.mpr hnil))]
    rfl
  · simp only [if_pos (TaskCache.truthy_data.mpr hnil), if_neg hnil]
    cases hreset : u.resetData.getD false with
    | true =>
      have hreset' : (TaskCache.requested u).resetData.truthy = true := hreset
      refine ⟨s, hs, rfl, rfl, ?_⟩
      rw [if_pos hreset', if_pos rfl]
      exact congrArg (setting u · s) (record_putEntry (textMapValue u.data) (told u))
    | false =>
      have hreset' : (TaskCache.requested u).resetData.truthy = false := hreset
      refine ⟨s.reread collection, hs, rfl,
        documents_withDocuments s _ _, ?_⟩
      have hfilter : ofTask (TaskCache.requested u).taskId (TaskCache.requested u).task =
          .record (ownedBy (u.task, u.taskId)) := rfl
      simp only [hreset', Bool.false_eq_true, if_false]
      rw [hfilter, bind_of_ok (findOne_record hs hmaps _), dataOf]
      -- Without a document, or without data in it, the new data is merged into an empty map.
      cases hfound : (s.documents collection).find? (meets (ownedBy (u.task, u.taskId))) with
      | none => exact settingMerged_eq u _ _
      | some doc =>
        obtain ⟨es, rfl⟩ := hmaps doc (List.mem_of_find?_eq_some hfound)
        cases es with
        | nil => exact settingMerged_eq u _ _
        | cons e rest => exact settingMerged_eq u _ _

theorem setsIn_represents (h : Represents docs states)
    (hst : states (u.task, u.taskId) = some m) : setsIn docs u = .ok (settings u m) := by
  obtain ⟨before, doc, after, hdoc, hshows, -⟩ := h.exists_split hst
  have hdata : dataOf docs (u.task, u.taskId) = textMapValue m.data := by
    rw [dataOf, hdoc.find?, Option.bind_some, hshows.data, Option.getD_some]
  unfold setsIn settings UpdateTaskRequest.withData
  by_cases hnil : u.data = []
  · rw [if_pos hnil, if_pos hnil]
  · cases u.resetData.getD false with
    | true => simp [hnil]
    | false => simp [hnil, hdata, TaskCache.merge_textMapValue]

theorem nodup_settings (u : UpdateTaskRequest) (m : ApiResponse) :
    ((settings u m).map Prod.fst).Nodup := by
  have htold : ((told u).map Prod.fst).Nodup := by
    unfold told
    split_ifs
    · simp
    · exact nodup_putEntry (by simp) _
  unfold settings
  split_ifs
  · exact htold
  · exact nodup_putEntry htold _

theorem lookup_settings (u : UpdateTaskRequest) (m : ApiResponse) (name : String) :
    (settings u m).lookup name =
      if name = "data" ∧ u.data ≠ [] then some (textMapValue (u.withData m).data)
      else if name = "message" ∧ u.message.getD "" ≠ "" then some (.text (u.message.getD ""))
      else if u.field = name then some (.text u.value)
      else none := by
  have hfld : [(u.field, text u.value)].lookup name =
      if u.field = name then some (.text u.value) else none := by
    by_cases h : u.field = name
    · simp [h]
    · rw [lookup_cons_of_ne (Ne.symm h), if_neg h]
      rfl
  unfold settings told
  by_cases hdata : u.data = [] <;> by_cases hmsg : u.message.getD "" = "" <;>
    simp [hdata, hmsg, lookup_putEntry, hfld]

theorem split_settings (hu : u.Proper) : ∀ e ∈ settings u m, Text.split e.1 '.' = [e.1] := by
  intro e he
  obtain ⟨v, hsome⟩ := lookup_of_mem (List.mem_map_of_mem (f := Prod.fst) he)
  rw [lookup_settings] at hsome
  have hname : e.1 = "data" ∨ e.1 = "message" ∨ u.field = e.1 := by
    by_contra hother
    rw [not_or, not_or] at hother
    simp [hother] at hsome
  rcases hname with hname | hname | hname
  · rw [hname]
    decide
  · rw [hname]
    decide
  · rcases hu.field with hfld | hfld <;>
      (rw [← hname, hfld]; decide)

def reset (u : UpdateTaskRequest) (m : ApiResponse) (es : List (Value × Value)) : Value :=
  .map (((settings u m).map (named id)).foldl (fun acc (k, v) => setEntry k v acc) es)

theorem field?_reset (u : UpdateTaskRequest) (m : ApiResponse) (es : List (Value × Value))
    (name : String) :
    (reset u m es).field? name =
      ((settings u m).lookup name).or ((map es).field? name) :=
  findEntry_foldl_setEntry (nodup_settings u m) name es

theorem shows_reset (hu : u.Proper) {es : List (Value × Value)}
    (h : Shows (.map es) m) : Shows (reset u m es) (u.amended m) := by
  refine ⟨?_, ?_, ?_, ?_⟩
  · rw [field?_reset, lookup_settings, h.status, UpdateTaskRequest.status_amended]
    by_cases hfld : u.field = "status" <;> simp [hfld]
  · rw [field?_reset, lookup_settings, h.code, UpdateTaskRequest.code_amended]
    rcases hu.field with hfld | hfld <;> simp [hfld]
  · rw [field?_reset, lookup_settings, h.message, UpdateTaskRequest.message_amended]
    by_cases hmsg : u.message.getD "" = "" <;> by_cases hfld : u.field = "message" <;>
      simp [hmsg, hfld]
  · rw [field?_reset, lookup_settings, h.data, UpdateTaskRequest.data_amended]
    by_cases hdata : u.data = []
    · rcases hu.field with hfld | hfld <;> simp [hdata, hfld, UpdateTaskRequest.withData]
    · simp [hdata]

/-- A change of a task makes its document show the changed state. -/
theorem changeDocument_writes (hs : s.Calm) (h : Represents (s.documents collection) states)
    (hu : u.Proper) (hst : states (u.task, u.taskId) = some m) :
    Writes s (Function.update states (u.task, u.taskId) (some (u.amended m)))
      (changeDocument (TaskCache.requested u)) := by
  obtain ⟨s1, hs1, hcache, hdocs1, hchg⟩ := changeDocument_eq_setting hs h.allMaps u
  rw [setsIn_represents h hst] at hchg
  obtain ⟨before, doc, after, hdoc, hshows, hnone⟩ := h.exists_split hst
  obtain ⟨es, rfl, -⟩ := eq_map_of_field? hshows.status
  obtain ⟨report, hupd⟩ := updateOne_split hs1 (hdocs1 ▸ h.allMaps) (hdocs1 ▸ hdoc)
    (amend_set (split_settings hu) es)
  have hother : ∀ name, name ≠ "status" → name ≠ "message" → name ≠ "data" →
      (reset u m es).field? name = (map es).field? name := by
    intro name hstat hmsg hdata
    rw [field?_reset, lookup_settings]
    rcases hu.field with hfld | hfld <;>
      simp [hfld, hdata, hmsg, Ne.symm hstat, Ne.symm hmsg]
  have howner : meets (ownedBy (u.task, u.taskId)) (reset u m es) = true := by
    rw [meets_ownedBy, hother _ (by decide) (by decide) (by decide),
      hother _ (by decide) (by decide) (by decide)]
    exact meets_ownedBy.mp hdoc.found
  refine ⟨_, hchg.trans (bind_of_ok hupd), hs1, hcache, ?_⟩
  rw [hdoc.eq] at h
  rw [documents_withDocuments]
  exact h.exchange hdoc.found hnone howner (shows_reset hu hshows)

end SheetMill.Database.Tasks
