import SheetMill.Client
import SheetMill.Gateway.Tasks
import SheetMill.Proofs.Retrying

/-!
# Handing tasks in

What the client of the database answers about the tasks of an import counts as true even if there are
none. So a schema or a file is published only if the sender insists, and then once.
-/

namespace SheetMill

open Act Message

theorem Act.sustains_true {σ α : Type} (act : Act σ α) : Sustains (fun _ => True) act := by
  intro s _
  split
  · exact ⟨trivial, trivial⟩
  · exact trivial

/-- What is asked was written, and what is answered was read. -/
def Exchanged (call : Call) (request answer : Value) : Prop :=
  (∃ octets, call.request.write .asInserted request = .ok octets) ∧
    ∃ octets, call.response.read octets = .ok answer

theorem Client.ensures_call (client : Client) (call : Call) (req : Value) :
    Ensures (fun _ => True) (client.call call req) (Exchanged call req) := by
  have hexchange : Ensures (fun _ => True) (exchange call req) (Exchanged call req) :=
    .given fun octets hwritten => (sustains_true _).bind fun answer _ =>
      ensures_lift fun _ hread => ⟨⟨octets, hwritten⟩, answer, hread⟩
  have hattempt : ∀ n, Ensures (fun _ => True)
      (client.attempt call.name (fun _ => exchange call req) n) (Exchanged call req) := by
    intro n
    unfold Client.attempt
    split
    · exact (sustains_true _).bind fun _ _ => (sustains_true _).bind fun _ _ => hexchange
    · exact hexchange
  refine ensures_iff_ends.mpr fun s hs => (Retry.ends_retry (C := True) client.policy
    (fun n s hs => ?_) (fun _ _ _ => sustains_true _) (fun _ => sustains_true _) hs).mono
    (fun _ _ ha => ⟨ha, trivial⟩) fun _ _ _ => trivial
  exact ((hattempt n).ends hs).mono (fun _ _ ha => ha.1) fun _ _ _ => ⟨trivial, trivial⟩

namespace Gateway

abbrev Published := List (Errand × List (String × Value))

/-- The database behind a client, and a publisher that may refuse what is handed in. -/
def desk (client : Client) (deliver : Published → Outcome Value) :
    Surroundings (Remote × Published) where
  database call request := (client.call call request).within Prod.fst fun r st => (r, st.2)
  publish errand request := do
    modify fun st => (st.1, st.2 ++ [(errand, request)])
    deliver (← get).2

def schemaArguments (name : String) (schema : Value) (raw new : Bool) : Arguments where
  named := [(.text "import_name", .text name), (.text "schema", schema), (.text "raw", .bool raw),
    (.text "new", .bool new)]

def fileArguments (name : String) (new : Bool) : Arguments where
  named := [(.text "import_name", .text name), (.text "new", .bool new)]

variable {client : Client} {deliver : Published → Outcome Value} {st : Remote × Published}
  {name kind : String} {errand : Errand} {request : List (String × Value)}

def callTasks (client : Client) (kind name : String) : Act Remote Value :=
  client.call .tasksOfImport (.record [("import_name", .text name), ("task", .text kind)])

/-- Nothing is published, and the tasks are answered that the client has for the import. -/
def AnswersKnown (client : Client) (kind name : String) (st : Remote × Published)
    (route : Act (Remote × Published) Value) : Prop :=
  route.Ends st
    (fun answer st' => st'.2 = st.2 ∧ ∃ tasks : List ApiResponse,
      callTasks client kind name st.1 = .ok (importTasksResponse.toValue tasks) st'.1 ∧
        answer = .list (tasks.map ApiResponse.toValue))
    fun f st' => st'.2 = st.2 ∧ callTasks client kind name st.1 = .error f st'.1

theorem answersKnown {rest : Act (Remote × Published) Value} :
    AnswersKnown client kind name st (do
      let known ← tasksOf (desk client deliver) kind (.text name)
      if known.truthy then return ← known.item "tasks"
      rest) := by
  refine .bind (.within ?_)
  rcases ((client.ensures_call .tasksOfImport _).ends (s := st.1) trivial).cases with
    ⟨answer, r, hrun, ⟨-, octets, hread⟩, -⟩ | ⟨f, r, hrun, -⟩
  · obtain ⟨tasks, -, htasks⟩ := Outcome.bind_eq_ok.mp hread
    cases htasks
    exact ends_of_ok hrun (ends_pure ⟨rfl, tasks, hrun, rfl⟩)
  · exact ends_of_error hrun ⟨rfl, hrun⟩

theorem uploadSchema_known (hname : name ≠ "") (schema : Value) (raw : Bool) :
    AnswersKnown client "schemas" name st
      (uploadSchema (desk client deliver) (schemaArguments name schema raw false)) := by
  unfold uploadSchema
  refine .known (by rfl) ?_
  rw [if_neg (by simpa [Bound.value, Value.truthy] using hname)]
  exact answersKnown

theorem uploadFile_known (hname : name ≠ "") (file : UploadedFile) :
    AnswersKnown client "validation" name st
      (uploadFile (desk client deliver) (some file) (fileArguments name false)) := by
  unfold uploadFile
  refine .known (by rfl) ?_
  dsimp only
  rw [if_neg (by simpa [Bound.value, Value.truthy] using hname)]
  exact answersKnown

/-- The request is published, and an answer is given only if the publisher took it. -/
def PublishesOnce (deliver : Published → Outcome Value) (errand : Errand)
    (request : List (String × Value)) (st : Remote × Published)
    (route : Act (Remote × Published) Value) : Prop :=
  route.Ends st
    (fun answer st' => st'.2 = st.2 ++ [(errand, request)] ∧
      (∃ taskId, deliver st'.2 = .ok taskId) ∧ answer.field? "status" = some (.text "accepted"))
    fun _ st' => st'.2 = st.2 ++ [(errand, request)]

theorem ends_storeTask (kind : String) (taskId response : Value) (st : Remote × Published) :
    (storeTask (desk client deliver) kind taskId response).Ends st
      (fun answer st' => st'.2 = st.2 ∧ answer = response ∧
        ∃ octets, (Call.setTask).request.write .asInserted (.record
          [("task_id", taskId), ("value", response), ("task", .text kind)]) = .ok octets)
      fun _ st' => st'.2 = st.2 := by
  refine .bind (.within (((client.ensures_call _ _).ends trivial).mono (fun _ r h => ?_)
    fun _ _ _ => rfl))
  exact ends_pure ⟨rfl, rfl, h.1.1⟩

theorem publishesOnce {next : Outcome Value → Act (Remote × Published) Value} {message : String}
    {importName : Value} (hok : ∀ taskId, next (.ok taskId) = storeTask (desk client deliver) kind
      taskId (receipt "accepted" 202 message (taskData taskId importName)))
    (herr : ∀ fault st, (next (.error fault)).Ends st (fun _ _ => False) fun _ st' => st'.2 = st.2) :
    PublishesOnce deliver errand request st
      (((desk client deliver).publish errand request).attempt >>= next) := by
  refine .bind (.attempt (.bind (ends_modify (.get (ends_lift (fun taskId htaken => ?_)
    fun fault _ => ?_)))))
  · rw [hok]
    exact (ends_storeTask kind taskId _ _).mono
      (fun answer st' h => ⟨h.1, ⟨taskId, h.1 ▸ htaken⟩, h.2.1 ▸ rfl⟩) fun _ _ h => h
  · exact (herr fault _).mono (fun _ _ hfalse => hfalse.elim) fun _ _ h => h

theorem publishesOnce_uploadSchema (hname : name ≠ "") (schema : Value) (raw : Bool) :
    ∃ request, PublishesOnce deliver .schema request st
      (uploadSchema (desk client deliver) (schemaArguments name schema raw true)) := by
  unfold uploadSchema
  apply Exists.intro
  refine .known (by rfl) ?_
  rw [if_neg (by simpa [Bound.value, Value.truthy] using hname)]
  refine publishesOnce (fun _ => rfl) fun fault st => ?_
  dsimp only
  split
  · exact ends_throw rfl
  · refine (ends_storeTask _ _ _ _).mono (fun answer st' h => ?_) fun _ _ h => h
    -- there is no task to be stored
    obtain ⟨octets, hwritten⟩ := h.2.2
    cases hwritten

theorem publishesOnce_uploadFile (hname : name ≠ "") {file : UploadedFile} {content metadata : Value}
    (hfile : file.read = .ok (content, metadata)) :
    ∃ request, PublishesOnce deliver .validation request st
      (uploadFile (desk client deliver) (some file) (fileArguments name true)) := by
  unfold uploadFile
  apply Exists.intro
  refine .known (by rfl) ?_
  dsimp only
  rw [if_neg (by simpa [Bound.value, Value.truthy] using hname), hfile]
  exact publishesOnce (fun _ => rfl) fun _ _ => ends_throw rfl

theorem publishesOnce_removeSchema (hname : name ≠ "") :
    ∃ request, PublishesOnce deliver .schema request st (removeSchema (desk client deliver)
      { named := [(.text "import_name", .text name)] }) := by
  unfold removeSchema
  apply Exists.intro
  refine .known (by rfl) ?_
  rw [if_neg (by simpa [Bound.value, Value.truthy] using hname)]
  exact publishesOnce (fun _ => rfl) fun _ _ => ends_throw rfl

/-- Unless the sender insists, a schema or a file is never published, even if no task is known for the
import; the tasks that are known are answered. Otherwise one request is published, and the answer
is that it was accepted, or there is none. -/
theorem published_only_if_new (client : Client) (deliver : Published → Outcome Value)
    (st : Remote × Published) {name : String} (hname : name ≠ "") (schema : Value) (raw : Bool)
    {file : UploadedFile} {content metadata : Value} (hfile : file.read = .ok (content, metadata)) :
    AnswersKnown client "schemas" name st
        (uploadSchema (desk client deliver) (schemaArguments name schema raw false)) ∧
      AnswersKnown client "validation" name st
        (uploadFile (desk client deliver) (some file) (fileArguments name false)) ∧
      (∃ request, PublishesOnce deliver .schema request st
        (uploadSchema (desk client deliver) (schemaArguments name schema raw true))) ∧
      (∃ request, PublishesOnce deliver .validation request st
        (uploadFile (desk client deliver) (some file) (fileArguments name true))) ∧
      ∃ request, PublishesOnce deliver .schema request st (removeSchema (desk client deliver)
        { named := [(.text "import_name", .text name)] }) :=
  ⟨uploadSchema_known hname schema raw, uploadFile_known hname file,
    publishesOnce_uploadSchema hname schema raw, publishesOnce_uploadFile hname hfile,
    publishesOnce_removeSchema hname⟩

/-- No task is known for the import, and nothing can be published. -/
theorem published_only_if_new_unknown :
    let s := desk ⟨"db:50050", {}, "api"⟩ fun _ => .error (.other "AMQPError" "closed")
    (∃ r, uploadSchema s (schemaArguments "orders" (.map []) false false)
      ({ replies := [.answer []] }, []) = .ok (.list []) (r, [])) ∧
    ∃ f st, uploadSchema s (schemaArguments "orders" (.map []) false true) ({}, []) = .error f st := by
  intro s
  have hroutes (st : Remote × Published) := published_only_if_new ⟨"db:50050", {}, "api"⟩
    (fun _ => .error (.other "AMQPError" "closed")) st (by decide : "orders" ≠ "") (.map []) false
    (rfl : UploadedFile.read ⟨.ok (.bytes []), .null, .null⟩ = .ok (_, _))
  refine ⟨?_, ?_⟩
  · have hcall : ∃ r, callTasks ⟨"db:50050", {}, "api"⟩ "schemas" "orders"
        { replies := [.answer []] } = .ok (importTasksResponse.toValue []) r := ⟨_, rfl⟩
    obtain ⟨r, hcall⟩ := hcall
    rcases (hroutes ({ replies := [.answer []] }, [])).1.cases with
      ⟨answer, ⟨r', log⟩, hrun, rfl, tasks, hknown, rfl⟩ | ⟨f, ⟨r', log⟩, hrun, rfl, hknown⟩
    · cases tasks with
      | nil => exact ⟨r', hrun⟩
      | cons task tasks => cases hcall.symm.trans hknown
    · cases hcall.symm.trans hknown
  · obtain ⟨request, hends⟩ := (hroutes ({}, [])).2.2.1
    rcases hends.cases with ⟨_, _, _, _, ⟨_, htaken⟩, _⟩ | ⟨f, st, hrun, -⟩
    · cases htaken
    · exact ⟨f, st, hrun⟩

end Gateway

end SheetMill
