import SheetMill.Database.Tasks
import SheetMill.Message.Tasks
import SheetMill.Proofs.Cache
import SheetMill.Proofs.Integer

/-!
# Tasks as hashes

The state of a task is a hash of four texts. The code is the text of a number and the data is JSON,
and both are read back as what they were, so the state that is found is the one that was stored.
-/

namespace SheetMill.Message

/-! ## States of tasks and the requests that change them -/

/-- A state as a message carries it: the code has 32 bits and no name of the data stands twice. -/
structure ApiResponse.Proper (m : ApiResponse) : Prop where
  code : IsInt32 m.code
  names : (m.data.map Prod.fst).Nodup

namespace UpdateTaskRequest

/-- A change of the status or of the message, with data in which no name stands twice. -/
structure Proper (u : UpdateTaskRequest) : Prop where
  field : u.field = "status" ∨ u.field = "message"
  names : (u.data.map Prod.fst).Nodup

def withValue (u : UpdateTaskRequest) (m : ApiResponse) : ApiResponse :=
  if u.field = "status" then { m with status := u.value }
  else if u.field = "message" then { m with message := u.value }
  else m

def withMessage (u : UpdateTaskRequest) (m : ApiResponse) : ApiResponse :=
  if u.message.getD "" = "" then m else { m with message := u.message.getD "" }

/-- The state with the data of the request, unless there is none: in the place of the old data, or
put into it. -/
def withData (u : UpdateTaskRequest) (m : ApiResponse) : ApiResponse :=
  if u.data = [] then m
  else { m with data := if u.resetData.getD false then u.data else Value.merged m.data u.data }

def amended (u : UpdateTaskRequest) (m : ApiResponse) : ApiResponse :=
  u.withData (u.withMessage (u.withValue m))

variable {u : UpdateTaskRequest} {m : ApiResponse}

theorem withValue_proper (hm : m.Proper) : (u.withValue m).Proper := by
  unfold withValue
  split_ifs <;> exact ⟨hm.code, hm.names⟩

theorem withMessage_proper (hm : m.Proper) : (u.withMessage m).Proper := by
  unfold withMessage
  split_ifs <;> exact ⟨hm.code, hm.names⟩

theorem withData_proper (hu : u.Proper) (hm : m.Proper) : (u.withData m).Proper := by
  unfold withData
  split_ifs with hnil hreset
  · exact hm
  · exact ⟨hm.code, hu.names⟩
  · exact ⟨hm.code, Value.nodup_merged hm.names u.data⟩

theorem amended_proper (hu : u.Proper) (hm : m.Proper) : (u.amended m).Proper :=
  withData_proper hu (withMessage_proper (withValue_proper hm))

theorem status_amended (u : UpdateTaskRequest) (m : ApiResponse) :
    (u.amended m).status = if u.field = "status" then u.value else m.status := by
  unfold amended withData withMessage withValue
  split_ifs <;> rfl

theorem code_amended (u : UpdateTaskRequest) (m : ApiResponse) : (u.amended m).code = m.code := by
  unfold amended withData withMessage withValue
  split_ifs <;> rfl

theorem message_amended (u : UpdateTaskRequest) (m : ApiResponse) :
    (u.amended m).message = if u.message.getD "" ≠ "" then u.message.getD ""
      else if u.field = "message" then u.value else m.message := by
  unfold amended withData withMessage withValue
  split_ifs <;> simp_all

theorem data_amended (u : UpdateTaskRequest) (m : ApiResponse) :
    (u.amended m).data = (u.withData m).data := by
  unfold amended withData withMessage withValue
  split_ifs <;> rfl

end UpdateTaskRequest

def ApiResponse.importName (m : ApiResponse) : String :=
  (m.data.lookup "import_name").getD "default"

end SheetMill.Message

namespace SheetMill.Database.TaskCache

open Value Message

variable {u : UpdateTaskRequest}

def keyOf (task taskId : String) : String := task ++ ":task:" ++ taskId

def indexOf (task importName : String) : String := task ++ ":import:" ++ importName ++ ":tasks"

theorem taskKey_text (task taskId : String) :
    taskKey (.text task) (.text taskId) = .text (keyOf task taskId) := rfl

theorem toList_keyOf (task taskId : String) :
    (keyOf task taskId).toList = task.toList ++ ':' :: ("task:".toList ++ taskId.toList) := by
  simp [keyOf]

theorem toList_indexOf (task importName : String) : (indexOf task importName).toList =
    task.toList ++ ':' :: ("import:".toList ++ (importName.toList ++ ":tasks".toList)) := by
  simp [indexOf]

theorem keyOf_ne_indexOf (task taskId importName : String) :
    keyOf task taskId ≠ indexOf task importName := by
  intro h
  have hchars := congrArg String.toList h
  rw [toList_keyOf, toList_indexOf] at hchars
  simpa using List.append_cancel_left hchars

theorem append_colon_inj {kind kind' rest rest' : List Char} (hkind : ':' ∉ kind)
    (hkind' : ':' ∉ kind') (h : kind ++ ':' :: rest = kind' ++ ':' :: rest') :
    kind = kind' ∧ rest = rest' := by
  have htake : ∀ {kind rest : List Char}, ':' ∉ kind →
      (kind ++ ':' :: rest).takeWhile (· ≠ ':') = kind := by
    intro kind rest hkind
    rw [List.takeWhile_append_of_pos]
    · simp
    · intro c hc
      simpa using fun heq : c = ':' => hkind (heq ▸ hc)
  have heq : kind = kind' := by
    rw [← htake hkind, h, htake hkind']
  subst heq
  exact ⟨rfl, (List.cons.inj (List.append_cancel_left h)).2⟩

theorem keyOf_inj {task task' taskId taskId' : String} (htask : ':' ∉ task.toList)
    (htask' : ':' ∉ task'.toList) (h : keyOf task taskId = keyOf task' taskId') :
    task = task' ∧ taskId = taskId' := by
  have hchars := congrArg String.toList h
  rw [toList_keyOf, toList_keyOf] at hchars
  obtain ⟨hkind, hrest⟩ := append_colon_inj htask htask' hchars
  exact ⟨String.toList_inj.mp hkind, String.toList_inj.mp (List.append_cancel_left hrest)⟩

theorem keyOf_ne_indexOf_of_plain {task task' taskId importName : String}
    (htask : ':' ∉ task.toList) (htask' : ':' ∉ task'.toList) :
    keyOf task taskId ≠ indexOf task' importName := by
  intro h
  have hchars := congrArg String.toList h
  rw [toList_keyOf, toList_indexOf] at hchars
  obtain ⟨hkind, -⟩ := append_colon_inj htask htask' hchars
  rw [String.toList_inj.mp hkind] at h
  exact keyOf_ne_indexOf task' taskId importName h

/-! ## Messages as values -/

theorem getD_textMapValue (es : List (String × String)) (name default : String) :
    (textMapValue es).getD name (.text default) =
      .ok (.text ((es.lookup name).getD default)) := by
  rw [textMapValue_eq, getD, findEntry_named]
  cases es.lookup name <;> rfl

theorem merge_textMapValue (old new : List (String × String)) :
    merge (textMapValue old) (textMapValue new) = .ok (textMapValue (merged old new)) := by
  simp only [textMapValue_eq, merge, spread, Outcome.ok_bind, foldl_setEntry_named]
  rfl

def requested (u : UpdateTaskRequest) : Change where
  taskId := .text u.taskId
  field := .text u.field
  value := .text u.value
  task := .text u.task
  message := .text (u.message.getD "")
  data := textMapValue u.data
  resetData := .bool (u.resetData.getD false)

theorem truthy_message : (requested u).message.truthy = true ↔ u.message.getD "" ≠ "" := by
  simp [requested, truthy]

theorem truthy_data : (requested u).data.truthy = true ↔ u.data ≠ [] := by
  simp [requested, textMapValue_eq, truthy]

end SheetMill.Database.TaskCache

namespace SheetMill.Database.Tasks

open Message

inductive Request where
  | set (m : SetTaskRequest)
  | update (m : UpdateTaskRequest)

namespace Request

def run : Request → Work Value
  | set m => Tasks.set m.toValue
  | update m => Tasks.update m.toValue

def owner : Request → String × String
  | set m => (m.task, m.taskId)
  | update m => (m.task, m.taskId)

def key (r : Request) : String := TaskCache.keyOf r.owner.1 r.owner.2

def index? : Request → Option String
  | set m => some (TaskCache.indexOf m.task (m.value.getD {}).importName)
  | update _ => none

def IsSet : Request → Prop
  | set _ => True
  | update _ => False

def Proper : Request → Prop
  | set m => (m.value.getD {}).Proper
  | update m => m.Proper

def apply : Request → Option ApiResponse → Option ApiResponse
  | set m, _ => some (m.value.getD {})
  | update m, state => state.map m.amended

end Request

def folded (requests : List Request) : Option ApiResponse :=
  requests.foldl (fun state r => r.apply state) none

theorem folded_snoc (requests : List Request) (r : Request) :
    folded (requests ++ [r]) = r.apply (folded requests) := by
  simp [folded]

theorem folded_proper {requests : List Request} (hproper : ∀ r ∈ requests, r.Proper)
    {m : ApiResponse} (h : folded requests = some m) : m.Proper := by
  induction requests using List.reverseRecOn generalizing m with
  | nil => cases h
  | append_singleton requests r ih =>
    rw [folded_snoc] at h
    have hr : r.Proper := hproper r (by simp)
    cases r with
    | set q =>
      cases h
      exact hr
    | update u =>
      obtain ⟨old, hold, rfl⟩ := Option.map_eq_some_iff.mp h
      have hpast : ∀ r ∈ requests, r.Proper := fun r hr => hproper r (List.mem_append_left _ hr)
      exact UpdateTaskRequest.amended_proper hr (ih hpast hold)

end SheetMill.Database.Tasks

namespace SheetMill.Database.TaskCache

/-! ## Tasks as hashes -/

open Act Value Message Cache Function

variable {s : State} {task taskId : String} {m : ApiResponse} {fs : List (String × String)}
  {members : List Value} {k : String}

def fieldsOf (m : ApiResponse) : List (String × String) :=
  [("status", m.status), ("code", toString m.code), ("message", m.message),
    ("data", mapText m.data)]

def hashed (m : ApiResponse) : Value × Value := (.text hashKind, .map ((fieldsOf m).map textEntry))

def listed (members : List Value) : Value × Value := (.text setKind, .list members)

/-! ## Reading -/

theorem hashOr_of_hashed (h : held s.cache k = some (hashed m)) :
    HashOr s.cache k (fieldsOf m) := .inl h

theorem readField_of_field? {name : String} {read : Value → Outcome Value} {v w w' : Value}
    (hfld : v.field? name = some w) (hread : read w = .ok w') :
    readField name read v = .ok (v.withField name w') := by
  simp only [readField, hfld, hread, Outcome.map_ok]

def stateIn (fs : List (Value × Value)) : Outcome (Option Value) := do
  if fs.isEmpty then return none
  let v ← readField "data" parsed (.map fs)
  let v ← readField "code" (fun c => .int <$> c.toInt) v
  return if areNames fs then some v else none

theorem find_of_hashOr (hs : s.Calm) (h : HashOr s.cache (keyOf task taskId) fs) :
    find (.text taskId) (.text task) s =
      (liftM (stateIn (fs.map textEntry)) : Work (Option Value)) s := by
  unfold find stateIn
  refine (bind_of_ok (readFields_calm hs h)).trans ?_
  cases (fs.map textEntry).isEmpty with
  | true => rfl
  | false =>
    simp only [Bool.false_eq_true, if_false, lift_bind]
    rfl

theorem stateIn_fieldsOf (hm : m.Proper) :
    stateIn ((fieldsOf m).map textEntry) = .ok (some m.toValue) := by
  let half : Value := .record [("status", .text m.status), ("code", .text (toString m.code)),
    ("message", .text m.message), ("data", textMapValue m.data)]
  have hdata : readField "data" parsed (.map ((fieldsOf m).map textEntry)) = .ok half :=
    readField_of_field? rfl (parsed_mapText hm.names)
  have hnum : (.int <$> (text (toString m.code)).toInt : Outcome Value) =
      .ok (.int m.code) := by
    rw [toInt_text hm.code, Outcome.map_ok]
  have hcode : readField "code" (fun c => .int <$> c.toInt) half = .ok m.toValue :=
    readField_of_field? rfl hnum
  unfold stateIn
  rw [hdata, Outcome.ok_bind, hcode]
  rfl

theorem find_of_hashed (hs : s.Calm) (hm : m.Proper)
    (h : held s.cache (keyOf task taskId) = some (hashed m)) :
    find (.text taskId) (.text task) s = .ok (some m.toValue) s := by
  rw [find_of_hashOr hs (hashOr_of_hashed h), stateIn_fieldsOf hm]
  rfl

theorem find_of_none (hs : s.Calm) (h : held s.cache (keyOf task taskId) = none) :
    find (.text taskId) (.text task) s = .ok none s := by
  have hnil : HashOr s.cache (keyOf task taskId) [] := .inr ⟨h, rfl⟩
  exact find_of_hashOr hs hnil

theorem find_of_listed (hs : s.Calm) (h : held s.cache (keyOf task taskId) = some (listed members)) :
    find (.text taskId) (.text task) s = .error wrongType s := by
  unfold find
  exact bind_of_error (readFields_refused hs h (by decide))

/-! ## Storing -/

/-- A hash may be stored under the key: it holds nothing or a hash of a task. -/
def Free (cache : Cache) (k : String) : Prop :=
  held cache k = none ∨ ∃ m, held cache k = some (hashed m)

/-- A member may be added under the key: it holds nothing or a set. -/
def Open (cache : Cache) (k : String) : Prop :=
  held cache k = none ∨ ∃ members, held cache k = some (listed members)

theorem Free.hashOr {cache : Cache} (h : Free cache k) (m : ApiResponse) :
    ∃ old, HashOr cache k old ∧ merged old (fieldsOf m) = fieldsOf m := by
  rcases h with hnone | ⟨m', hm'⟩
  · exact ⟨[], .inr ⟨hnone, rfl⟩, rfl⟩
  · exact ⟨fieldsOf m', .inl hm', rfl⟩

theorem storeState_calm (hs : s.Calm) (hfree : Free s.cache k) (m : ApiResponse) :
    ∃ cache', storeFields (.text k) ((fieldsOf m).map textEntry) s =
        .ok () { s with cache := cache' } ∧
      held cache' = update (held s.cache) k (some (hashed m)) := by
  obtain ⟨old, hold, hmerged⟩ := hfree.hashOr m
  obtain ⟨cache', hrun, hheld⟩ := storeFields_calm hs hold (fieldsOf m)
  rw [hmerged] at hheld
  exact ⟨cache', hrun, hheld⟩

theorem store_eq (s : State) (task taskId : String) (m : ApiResponse) :
    store (.text taskId) m.toValue (.text task) s = (do
      let key := text (keyOf task taskId)
      let index := text (indexOf task m.importName)
      storeFields key ((fieldsOf m).map textEntry)
      insertMember index (.text taskId)
      let ttl ← lifetime (.text m.status)
      setTtl key ttl
      setTtl index ttl : Work Unit) s := by
  have hdata : m.toValue.item "data" = .ok (textMapValue m.data) := rfl
  refine (bind_known hdata).trans ?_
  refine (bind_known (getD_textMapValue m.data _ _)).trans ?_
  refine (bind_known (a := text m.status) rfl).trans ?_
  refine (bind_known (a := int m.code) rfl).trans ?_
  refine (bind_known (a := text m.message) rfl).trans ?_
  exact bind_known (toJson_textMapValue m.data)

def life (status : String) : Value :=
  (findEntry (.text status) (lifetimes {})).getD (.int ({} : Lifetimes).default)

theorem life_ne_null (status : String) : life status ≠ .null := by
  unfold life
  cases h : findEntry (.text status) (lifetimes {}) with
  | none => simp
  | some v =>
    have hmem := mem_of_findEntry h
    simp only [lifetimes, List.map_cons, List.map_nil, List.cons_append, List.nil_append,
      List.mem_cons, Prod.mk.injEq, List.not_mem_nil, or_false] at hmem
    rintro rfl
    simp at hmem

/-- A task is stored under its key and listed under that of its import; both live as long as its
status says. -/
theorem store_writes {old : List (String × String)} (hs : s.Calm)
    (hkey : HashOr s.cache (keyOf task taskId) old)
    (hidx : ListOr s.cache (indexOf task m.importName) members) :
    ∃ cache', store (.text taskId) m.toValue (.text task) s = .ok () { s with cache := cache' } ∧
      entryAt cache' = update (update (entryAt s.cache) (keyOf task taskId)
          (some (hashEntry (keyOf task taskId) (merged old (fieldsOf m)) (life m.status))))
        (indexOf task m.importName)
        (some (listEntry (indexOf task m.importName) (withMember members (.text taskId))
          (life m.status))) := by
  have hne := keyOf_ne_indexOf task taskId m.importName
  obtain ⟨cache1, hstore, hentry1⟩ := storeFields_writes hs hkey (fieldsOf m)
  have hindex1 : ListOr cache1 (indexOf task m.importName) members := by
    unfold ListOr HoldsOr
    rw [held_of_entryAt hentry1, update_of_ne hne.symm]
    exact hidx
  have hs1 : State.Calm { s with cache := cache1 } := hs
  obtain ⟨cache2, hadd, hentry2⟩ := insertMember_stored hs1 hindex1
    (show Cache.stored (.text taskId) = _ from rfl)
  have hs2 : State.Calm { s with cache := cache2 } := hs
  obtain ⟨cache3, hlive3, hentry3⟩ := setTtl_writes (k := keyOf task taskId) hs2
    (by rw [hentry2, update_of_ne hne, hentry1, update_self]) (life m.status)
  have hs3 : State.Calm { s with cache := cache3 } := hs
  obtain ⟨cache4, hlive4, hentry4⟩ := setTtl_writes (k := indexOf task m.importName) hs3
    (by rw [hentry3, update_of_ne hne.symm, hentry2, update_self]) (life m.status)
  refine ⟨cache4, ?_, ?_⟩
  · rw [store_eq]
    refine (bind_of_ok hstore).trans ?_
    refine (bind_of_ok hadd).trans ?_
    exact (bind_of_ok hlive3).trans hlive4
  · rw [hentry4, hentry3, hentry2, hentry1]
    funext k
    simp only [update_apply]
    split_ifs <;> rfl

theorem store_calm (hs : s.Calm) (hkey : Free s.cache (keyOf task taskId))
    (hidx : Open s.cache (indexOf task m.importName)) :
    ∃ cache' members, store (.text taskId) m.toValue (.text task) s =
        .ok () { s with cache := cache' } ∧
      held cache' = update
        (update (held s.cache) (keyOf task taskId) (some (hashed m)))
        (indexOf task m.importName) (some (listed members)) := by
  obtain ⟨old, hold, hmerged⟩ := hkey.hashOr m
  obtain ⟨members, hmems⟩ : ∃ members, ListOr s.cache (indexOf task m.importName) members := by
    rcases hidx with hnone | ⟨members, hmems⟩
    · exact ⟨[], .inr ⟨hnone, rfl⟩⟩
    · exact ⟨members, .inl hmems⟩
  obtain ⟨cache', hrun, hent⟩ := store_writes hs hold hmems
  rw [hmerged] at hent
  refine ⟨cache', withMember members (.text taskId), hrun, ?_⟩
  funext k
  rw [held_eq, hent]
  simp only [update_apply]
  split_ifs <;> rfl

theorem store_of_listed (hs : s.Calm) (h : held s.cache (keyOf task taskId) = some (listed members))
    (m : ApiResponse) : store (.text taskId) m.toValue (.text task) s = .error wrongType s := by
  rw [store_eq]
  exact bind_of_error (storeFields_refused hs h (fieldsOf m))

/-- The hash is stored before the import refuses the task. -/
theorem store_refused {kind : String} {content : Value} (hs : s.Calm)
    (hkey : Free s.cache (keyOf task taskId))
    (hidx : held s.cache (indexOf task m.importName) = some (.text kind, content))
    (hkind : kind ≠ setKind) :
    ∃ cache', store (.text taskId) m.toValue (.text task) s =
        .error wrongType { s with cache := cache' } ∧
      held cache' = update (held s.cache) (keyOf task taskId) (some (hashed m)) := by
  obtain ⟨cache', hstore, hheld⟩ := storeState_calm hs hkey m
  have hidx' : held cache' (indexOf task m.importName) = some (.text kind, content) := by
    rw [hheld, update_of_ne (keyOf_ne_indexOf task taskId m.importName).symm]
    exact hidx
  have hs' : State.Calm { s with cache := cache' } := hs
  refine ⟨cache', ?_, hheld⟩
  rw [store_eq]
  exact (bind_of_ok hstore).trans
    (bind_of_error (insertMember_refused hs' hidx' hkind (.text taskId)))

end SheetMill.Database.TaskCache
