import SheetMill.Database.Schemas
import SheetMill.Database.TaskCache

/-!
# Tasks

The state of a task is kept twice: in the cache, from which it is read as long as it lives there,
and as a document, from which the cache is filled again.
-/

namespace SheetMill.Database.Tasks

def collection : String := ({} : Addresses).tasks

def ofTask (taskId task : Value) : Value := .record [("task_id", taskId), ("task", task)]

/-! ## Tasks as documents -/

def changeDocument (c : TaskCache.Change) : Work Unit := do
  let filter := ofTask c.taskId c.task
  if !c.field.isKey then throw c.field.keyFault
  let sets := [(c.field, c.value)]
  let sets := if c.message.truthy then Value.setEntry (.text "message") c.message sets else sets
  let sets ←
    if c.data.truthy then
      if c.resetData.truthy then pure (Value.setEntry (.text "data") c.data sets)
      else do
        let old ←
          match ← Documents.findOne collection filter with
          | some doc => if doc.truthy then doc.getD "data" (.map []) else pure (Value.map [])
          | none => pure (Value.map [])
        pure (Value.setEntry (.text "data") (← TaskCache.merge old c.data) sets)
    else pure sets
  let _ ← Documents.updateOne collection filter (.record [("$set", .map sets)])

def storeDocument (taskId value task : Value) : Work Unit := do
  let importName ← (← value.item "data").getD "import_name" (.text "default")
  let document := Value.record [("task_id", taskId), ("task", task), ("import_name", importName),
    ("status", ← value.item "status"), ("code", ← value.item "code"),
    ("message", ← value.item "message"), ("data", ← value.item "data")]
  Documents.replaceOne collection (ofTask taskId task) document

def state (status code message data : Value) : Value :=
  .record [("status", status), ("code", code), ("message", message), ("data", data)]

def stateOf (code : Value → Outcome Value) (doc : Value) : Outcome Value := do
  let status ← doc.item "status"
  let number ← code (← doc.item "code")
  return state status number (← doc.item "message") (← doc.item "data")

def unlessIncomplete (r : Outcome Value) : Outcome (Option Value) :=
  match r with
  | .ok v => .ok (some v)
  | .error (.missingKey _) => .ok none
  | .error f => .error f

def findDocument (taskId task : Value) : Work (Option Value) := do
  match ← Documents.findOne collection (ofTask taskId task) with
  | some doc =>
    if doc.truthy then unlessIncomplete (stateOf (fun c => .int <$> c.toInt) doc) else return none
  | none => return none

def findDocuments (importName task : Value) : Work (List Value) := do
  let docs ← Documents.findAll collection (.record [("import_name", importName), ("task", task)])
  let found ← docs.mapM fun doc => (unlessIncomplete (stateOf .ok doc) : Outcome (Option Value))
  return found.filterMap id

/-! ## Requests -/

def done (success : Bool) (message : String) : Value :=
  .record [("success", .bool success), ("message", .text message)]

def changeOf (request : Value) : Outcome TaskCache.Change := do
  return {
    taskId := ← request.item "task_id"
    field := ← request.item "field"
    value := ← request.item "value"
    task := ← request.item "task"
    message := ← request.getD "message" (.text "")
    data := ← request.getD "data" .null
    resetData := ← request.getD "reset_data" (.bool false) }

def update (request : Value) : Work Value := do
  let work : Work Value := do
    let change ← changeOf request
    TaskCache.change change
    changeDocument change
    return done true "Task updated successfully in both Redis and MongoDB"
  work.handle fun f => return done false ("Error updating task: " ++ f.message)

def set (request : Value) : Work Value := do
  let work : Work Value := do
    let taskId ← request.item "task_id"
    let value ← (← request.item "value").copied
    let task ← request.item "task"
    TaskCache.store taskId value task
    storeDocument taskId value task
    return done true "Task set successfully in both Redis and MongoDB"
  work.handle fun f => return done false ("Error setting task: " ++ f.message)

def foundState (v : Option Value) : Value :=
  .record [("value", v.getD .null), ("found", .bool v.isSome)]

/-- The state of a task, from the cache or from its document. -/
def get (request : Value) : Work Value := do
  let work : Work Value := do
    let taskId ← request.item "task_id"
    let task ← request.item "task"
    match ← TaskCache.find taskId task with
    | some v => return foundState (some v)
    | none =>
      match ← findDocument taskId task with
      | some v =>
        TaskCache.store taskId v task
        return foundState (some v)
      | none => return foundState none
  work.handle fun _ => return foundState none

/-- Stores a state again, if its data tells the identity of its task. -/
def refill (task v : Value) : Work Unit := do
  let taskId ← (← v.item "data").getD "task_id" .null
  if taskId.truthy then TaskCache.store taskId v task

def getAll (request : Value) : Work Value := do
  let work : Work Value := do
    let importName ← request.item "import_name"
    let task ← request.item "task"
    let cached ← TaskCache.findAll importName task
    if !cached.isEmpty then return .record [("tasks", .list cached)]
    let states ← findDocuments importName task
    for v in states do refill task v
    return .record [("tasks", .list states)]
  work.handle fun _ => return .record [("tasks", .list [])]

end SheetMill.Database.Tasks
