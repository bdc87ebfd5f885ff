import SheetMill.Arguments
import SheetMill.Checking.ActiveSchema
import SheetMill.Value.Json

/-!
# Tasks

A client uploads a schema or a file, or asks for a schema to be removed. An import for which a task
is known is not handed in again unless the client insists.
-/

namespace SheetMill.Gateway

/-! ## Refusals -/

/-- A response to a web request. -/
structure Response where
  status : Int
  content : Value

def Response.toValue (r : Response) : Value :=
  .record [("status_code", .int r.status), ("content", r.content)]

def webStatus : RpcStatus → Int
  | .unavailable | .cancelled => 503
  | .deadlineExceeded => 504
  | .invalidArgument => 400
  | .notFound => 404
  | .alreadyExists => 409
  | .permissionDenied => 403
  | .unauthenticated => 401
  | .unknown | .internal => 500

def ofRemoteFault (fault : Fault) (path : Value) : Outcome Response :=
  match fault with
  | .rpc status details => .ok ⟨webStatus status, .record [
      ("error", .text "Database service error"), ("code", .text status.name),
      ("message", .text details), ("path", path)]⟩
  | fault => .error (.noMember ("'" ++ fault.label ++ "' object has no attribute 'code'"))

def ofBrokerFault (fault : Fault) (path : Value) : Response :=
  let status := match fault with
    | .broker .connection _ => 503
    | .broker .streamLost _ => 504
    | _ => 500
  ⟨status, .record [("error", .text "Message broker service unavailable"),
    ("message", .text fault.message), ("path", path)]⟩

def ofFault (fault : Fault) (path : Value) : Response :=
  ⟨500, .record [("error", .text "Internal server error"), ("message", .text fault.message),
    ("path", path)]⟩

/-! ## Tasks -/

open Message

/-- What a worker is asked for. -/
inductive Errand where
  | schema
  | validation
  deriving Repr, DecidableEq

/-- What the gateway calls. -/
structure Surroundings (σ : Type) where
  database : Checking.Database σ
  publish : Errand → List (String × Value) → Act σ Value

variable {σ : Type} (s : Surroundings σ)

def schemasKey : String := "schemas.request"

def validationsKey : String := "validation.request"

def receipt (status : String) (code : Int) (message : String)
    (more : List (String × Value) := []) : Value :=
  .record ([("status", .text status), ("code", .int code), ("message", .text message)] ++ more)

def taskData (taskId importName : Value) : List (String × Value) :=
  [("data", .record [("task_id", taskId), ("import_name", importName)])]

def noImportName : Fault := .refusal 400 (.text "import_name must be provided.")

def storeTask (kind : String) (taskId response : Value) : Act σ Value := do
  let _ ← s.database .setTask (.record
    [("task_id", taskId), ("value", response), ("task", .text kind)])
  return response

def tasksOf (kind : String) (importName : Value) : Act σ Value :=
  s.database .tasksOfImport (.record [("import_name", importName), ("task", .text kind)])

def noTaskId : Fault :=
  .unassigned "cannot access local variable 'task_id' where it is not associated with a value"

def uploadSchema (args : Arguments) : Act σ Value := do
  let bound ← args.bind {
    required := ["import_name", "schema"]
    optional := [("raw", .bool false), ("new", .bool false)] }
  let importName := bound.value "import_name"
  if !importName.truthy then throw noImportName
  if !(bound.value "new").truthy then
    let known ← tasksOf s "schemas" importName
    if known.truthy then return ← known.item "tasks"
  let handedIn ← (s.publish .schema [
    ("routing_key", .text schemasKey), ("schema", bound.value "schema"),
    ("import_name", importName), ("raw", bound.value "raw"),
    ("task", .text "upload_schema")]).attempt
  match handedIn with
  | .ok taskId =>
    storeTask s "schemas" taskId (receipt "accepted" 202
      "Schema upload request submitted successfully" (taskData taskId importName))
  | .error fault =>
    if !fault.isOrdinary then throw fault
    storeTask s "schemas" .null (receipt "error" 500
      ("Failed to upload schema: " ++ fault.message) (taskData .null importName))

def submit (kind : String) (errand : Errand) (request : List (String × Value)) (importName : Value)
    (message : String) : Act σ Value := do
  match ← (s.publish errand request).attempt with
  | .ok taskId => storeTask s kind taskId (receipt "accepted" 202 message (taskData taskId importName))
  | .error fault => throw (if fault.isOrdinary then noTaskId else fault)

def removeSchema (args : Arguments) : Act σ Value := do
  let bound ← args.bind { required := ["import_name"] }
  let importName := bound.value "import_name"
  if !importName.truthy then throw noImportName
  submit s "schemas" .schema [
    ("routing_key", .text validationsKey), ("import_name", importName),
    ("task", .text "remove_schema")] importName "Schema removal request submitted successfully"

/-- A file that was uploaded. -/
structure UploadedFile where
  content : Outcome Value
  filename : Value
  contentType : Value

def UploadedFile.read (file : UploadedFile) : Outcome (Value × Value) := do
  let content ← file.content
  return (content, .record [("filename", file.filename), ("content_type", file.contentType),
    ("size", .int (← content.size))])

def uploadFile (file : Option UploadedFile) (args : Arguments) : Act σ Value := do
  let bound ← args.bind { required := ["import_name"], optional := [("new", .bool false)] }
  let importName := bound.value "import_name"
  match file with
  | none => throw (.wrongKind "missing 1 required positional argument: 'spreadsheet_file'")
  | some file =>
    if !importName.truthy then throw noImportName
    if !(bound.value "new").truthy then
      let known ← tasksOf s "validation" importName
      if known.truthy then return ← known.item "tasks"
    match file.read with
    | .error fault => throw (if fault.isOrdinary then noTaskId else fault)
    | .ok (content, metadata) =>
      submit s "validation" .validation [
        ("routing_key", .text validationsKey), ("file_data", content), ("import_name", importName),
        ("metadata", metadata), ("task", .text "sample_validation")] importName
        "Validation request submitted successfully"

/-- Asks for the tasks of an import, or for one task. -/
def taskStatus (kind complaint : String) (strict : Bool) (args : Arguments) : Act σ Value := do
  let bound ← args.bind { optional := [("task_id", .text ""), ("import_name", .text "")] }
  let taskId := bound.value "task_id"
  let importName := bound.value "import_name"
  if !taskId.truthy && !importName.truthy then throw (.refusal 400 (.text complaint))
  if importName.truthy then return ← (← tasksOf s kind importName).item "tasks"
  let found ← s.database .getTask (.record [("task_id", taskId), ("task", .text kind)])
  if !(← found.item "found").truthy && strict then
    throw (.refusal 404 (.text ("Task with ID " ++ taskId.plain ++ " not found.")))
  found.item "value"

def schemaStatus (args : Arguments) : Act σ Value :=
  taskStatus s "schemas" "Either task_id or import_name must be provided." true args

def validationStatus (args : Arguments) : Act σ Value :=
  taskStatus s "validation" "Either `task_id` or `import_name` must be provided." false args

def readCache (args : Arguments) : Act σ Value := do
  let _ ← args.bind {}
  let entries ← (← (← s.database .dumpCache .null).item "cache").entriesAs "items"
  let read ← (entries.mapM fun (k, v) => do return (k, ← v.parsed) :
    Outcome (List (Value × Value)))
  return .map read

def clearCache (args : Arguments) : Act σ Value := do
  let _ ← args.bind {}
  s.database .clearCache .null

end SheetMill.Gateway
