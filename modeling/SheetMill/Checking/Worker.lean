import SheetMill.Checking.ActiveSchema
import SheetMill.Checking.FileCheck
import SheetMill.Value.Json

/-!
# Workers

A worker takes requests from a queue, tells the database how far it has come with each, publishes
the result, and acknowledges the delivery or rejects it for good.
-/

namespace SheetMill.Checking

open Message

/-- What a worker calls. -/
structure Surroundings (σ : Type) where
  database : Database σ
  publish : (exchange key body : String) → Act σ Unit
  acknowledge : Nat → Act σ Unit
  reject : Nat → Act σ Unit
  now : Act σ String

/-- Where a worker sends its results. -/
structure Post where
  task : String
  source : String
  exchange : String := "typechecking.exchange"
  resultKey : String

/-- A new status of a task. -/
structure StatusChange where
  taskId : Value
  status : Value
  message : String := ""
  data : List (String × Value) := []
  resetData : Bool := false

namespace Surroundings

variable {σ : Type} [Journaled σ]

def setStatus (world : Surroundings σ) (post : Post) (change : StatusChange) : Act σ Unit := do
  discard <| world.database .updateTask (.record [
    ("task_id", change.taskId), ("field", .text "status"), ("value", change.status),
    ("task", .text post.task), ("message", .text change.message), ("data", .record change.data),
    ("reset_data", .bool change.resetData)])

def updated (world : Surroundings σ) : Act σ (List (String × Value)) :=
  return [("update_date", .text (← world.now))]

def say (world : Surroundings σ) (post : Post) (taskId : Value) (status text : String) : Act σ Unit := do
  world.setStatus post { taskId, status := .text status, message := text, data := ← world.updated }

def setReceived (world : Surroundings σ) (post : Post) (message taskId : Value) (status : String) :
    Act σ Unit := do
  let date ← message.item "date"
  world.setStatus post
    { taskId, status := .text status, data := ("upload_date", date) :: (← world.updated) }

def publishResult (world : Surroundings σ) (post : Post) (taskId result : Value) (failed : Bool) :
    Act σ Unit := do
  if failed then
    let task ← world.database .getTask (.record [("task_id", taskId), ("task", .text post.task)])
    let uploaded ← (← (← task.item "value").item "data").getD "upload_date" (.text (← world.now))
    world.setStatus post
      { taskId, status := .text "failed-publishing-result"
        message := "Failed to publish validation result"
        data := ("error", .text "Failed to publish validation result") :: (← world.updated) ++
          [("upload_date", uploaded)]
        resetData := true }
    note post.source .error ("Failed to publish result for task: " ++ taskId.plain)
  else
    world.publish post.exchange post.resultKey (← result.toJson)
    world.say post taskId "published" "Validation result published"
    note post.source .info ("Validation result published for task: " ++ taskId.plain)

/-- Works on a delivery and answers it: it is acknowledged if the work went through, and rejected
if it did not or if it could not be acknowledged. -/
def deliver (world : Surroundings σ) (post : Post) (failure : String) (tag : Nat)
    (work : Act σ String) : Act σ Unit :=
  Act.handle (do
    let text ← work
    world.acknowledge tag
    note post.source .info text)
    fun f => do
      note post.source .error (failure ++ f.message)
      world.reject tag

end Surroundings

def messageOf (body : List UInt8) : Outcome Value := do
  match Wire.octetsText? body with
  | none => throw (.badEncoding "invalid start byte")
  | some text =>
    match ← Value.ofJson text with
    | .map entries => return .map entries
    | v => throw (.wrongKind ("argument after ** must be a mapping, not " ++ v.kindName))

end SheetMill.Checking

namespace SheetMill.Checking.SchemaWorker

/-! ## The worker for schemas -/

def post : Post :=
  { task := "schemas", source := "Typechecking.schemas", resultKey := "schemas.results.publish" }

variable {σ : Type} [Journaled σ]

def resultOf (taskId importName : Value) (status : String) (schema result : Value) : Value :=
  .record [
    ("task_id", taskId), ("status", .text status), ("import_name", importName), ("schema", schema),
    ("result", result)]

def decided (step : Act σ Value) (failed : String) : Act σ (Value × String) :=
  Act.handle (do return (← step, "completed")) fun f => return (.text f.literal, failed)

def create (world : Surroundings σ) (message raw taskId importName : Value) : Act σ Value := do
  let schema ← createSchema raw (← message.item "schema")
  world.say post taskId "schema-created" ("Schema created for import: " ++ importName.plain)
  return schema

def refuse (world : Surroundings σ) (taskId importName : Value) : Act σ (Value × Bool) := do
  note post.source .error "Schema creation failed"
  world.say post taskId "failed-creating-schema" "<SchemaError>"
  return (resultOf taskId importName "failed-creating-schema" .null (.bool false), true)

def conclude (world : Surroundings σ) (taskId importName schema result told : Value)
    (status text : String) : Act σ (Value × Bool) := do
  world.setStatus post
    { taskId, status := .text status, message := text, data := ("results", told) :: (← world.updated) }
  return (resultOf taskId importName status schema result, status != "completed")

def update (world : Surroundings σ) (message : Value) : Act σ (Value × Bool) := do
  let taskId ← message.item "id"
  let importName ← message.item "import_name"
  let raw ← message.getD "raw" (.bool false)
  world.say post taskId "creating-schema" ("Creating schema for import: " ++ importName.plain)
  match ← (create world message raw taskId importName).attempt with
  | .error (.badSchema _) => refuse world taskId importName
  | .error f => throw f
  | .ok schema =>
    world.say post taskId "saving-schema" ""
    let (result, status) ←
      decided (do saveSchema world.database world.now (← schema.copied) importName)
        "failed-saving-schema"
    let told := if result.truthy then result.literal else "Schema is the same, no update needed."
    conclude world taskId importName schema result (.text told) status
      "Validation completed and uploaded to the database."

def remove (world : Surroundings σ) (message : Value) : Act σ (Value × Bool) := do
  let taskId ← message.item "id"
  let importName ← message.item "import_name"
  world.say post taskId "removing-schema" ("Removing schema for import: " ++ importName.plain)
  let (result, status) ← decided (removeSchema world.database importName) "failed-removing-schema"
  let told := if result.truthy then result else .text "Active Schema not found."
  conclude world taskId importName .null result told status "Schema removal completed."

def work (world : Surroundings σ) (body : List UInt8) : Act σ String := do
  let message ← messageOf body
  let taskId ← message.item "id"
  let task ← message.getD "task" (.text "upload_schema")
  let (result, failed) ←
    match task with
    | .text "upload_schema" =>
      note post.source .info ("Processing schema update: " ++ taskId.plain)
      world.setReceived post message taskId "received-schema-update"
      update world message
    | .text "remove_schema" =>
      note post.source .info ("Removing schema: " ++ taskId.plain)
      world.setReceived post message taskId "received-removing-schema"
      remove world message
    | _ =>
      throw (.unassigned
        "cannot access local variable 'result' where it is not associated with a value")
  world.publishResult post taskId result failed
  return "Schema update completed for task: " ++ taskId.plain

def process (world : Surroundings σ) (tag : Nat) (body : List UInt8) : Act σ Unit :=
  world.deliver post "Error processing schema update: " tag (work world body)

end SheetMill.Checking.SchemaWorker

namespace SheetMill.Checking

/-! ## The worker for files -/

def summarize (result : Value) : Outcome Value := do
  let results ← result.getD "validation_results" .null
  if !results.truthy then
    return .record [("status", .text "error"), ("summary", .text "No validation results available")]
  let total ← do
    if (← results.item "is_valid").truthy then
      let total ← results.item "total_items"
      pure ("success", "All " ++ total.plain ++ " items passed validation")
    else
      let invalid ← results.item "invalid_items"
      let total ← results.item "total_items"
      pure ("warning", invalid.plain ++ " out of " ++ total.plain ++ " items failed validation")
  return .record [
    ("status", .text total.1),
    ("summary", .text total.2),
    ("details", .record [
      ("total_items", ← results.item "total_items"),
      ("valid_items", ← results.item "valid_items"),
      ("invalid_items", ← results.item "invalid_items"),
      ("error_count", .int (← (← results.getD "errors" (.list [])).size)),
      ("file_name", ← results.getD "file_name" .null),
      ("validated_at", ← results.getD "validated_at" .null)])]

end SheetMill.Checking

namespace SheetMill.Checking.ValidationWorker

def post : Post :=
  { task := "validation", source := "Typechecking.validation"
    resultKey := "validation.results.publish" }

/-- A file to be validated, as a worker reads it. -/
structure Request where
  filename : Value
  octets : List UInt8
  importName : Value

variable {σ : Type} [Journaled σ]

def octetsOfHex? : List Char → Option (List UInt8)
  | [] => some []
  | [c] => if c.isWhitespace || c.toNat = 11 || c.toNat = 12 then some [] else none
  | c :: d :: cs =>
    if c.isWhitespace || c.toNat = 11 || c.toNat = 12 then octetsOfHex? (d :: cs)
    else do
      let high ← Text.hexValue? c
      let low ← Text.hexValue? d
      return UInt8.ofNat (16 * high + low) :: (← octetsOfHex? cs)

def fileOf (data : Value) : Outcome (List UInt8) :=
  match data with
  | .text s =>
    match octetsOfHex? s.toList with
    | some octets => .ok octets
    | none => .error (.badValue "non-hexadecimal number found in fromhex() arg")
  | v => .error (.wrongKind ("fromhex() argument must be str, not " ++ v.kindName))

/-- The check of the file of a request, by at most so many workers. No database is named to look the
schema up in. -/
def checkUpload (validator : Validator) (reader : TableReader σ) (now : Act σ String) (limit : Int)
    (r : Request) : Act σ Value :=
  let upload : Upload := { name := r.filename }
  checkFile validator noLookup (processFile reader upload (return .bytes r.octets)) now upload
    r.importName (.int limit) (.int limit)

def validate (world : Surroundings σ) (check : Request → Act σ Value) (message : Value) :
    Act σ (Value × Bool) := do
  let taskId ← message.item "id"
  world.say post taskId "processing-file" ""
  let octets ← fileOf (← message.item "file_data")
  let filename ← (← message.item "metadata").item "filename"
  world.say post taskId "validating-file" ""
  let result ← check { filename, octets, importName := ← message.item "import_name" }
  note post.source .debug ("Results: " ++ (← result.toJsonIndented 4))
  let summary ← summarize result
  let status ← summary.item "status"
  world.setStatus post
    { taskId, status, data := ("results", .text (← summary.toJson)) :: (← world.updated) }
  return (.record [("task_id", taskId), ("status", status), ("results", summary)],
    status.same (.text "error"))

def work (world : Surroundings σ) (check : Request → Act σ Value) (body : List UInt8) :
    Act σ String := do
  let message ← messageOf body
  let taskId ← message.item "id"
  let task ← message.getD "task" (.text "sample_validation")
  if !task.same (.text "sample_validation") then
    throw (.unassigned
      "cannot access local variable 'result' where it is not associated with a value")
  note post.source .info ("Process validation request: " ++ taskId.plain)
  world.setReceived post message taskId "received-sample-validation"
  let (result, failed) ← validate world check message
  world.publishResult post taskId result failed
  return "Validation completed for task: " ++ taskId.plain

def process (world : Surroundings σ) (check : Request → Act σ Value) (tag : Nat)
    (body : List UInt8) : Act σ Unit :=
  world.deliver post "Error processing validation request: " tag (work world check body)

end SheetMill.Checking.ValidationWorker
