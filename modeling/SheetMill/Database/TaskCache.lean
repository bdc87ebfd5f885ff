import SheetMill.Database.Connections
import SheetMill.Value.Json

/-!
# Tasks in the cache

The state of a task is a hash of four fields: the status, the code, the message and, as JSON, the
data. The tasks of an import are found through a set.
-/

namespace SheetMill.Database

/-- The seconds for which a task of each status is cached. -/
structure Lifetimes where
  pending : Int := 1800
  processing : Int := 3600
  completed : Int := 86400
  published : Int := 43200
  failed : Int := 43200
  default : Int := 1800

namespace TaskCache

def lifetimes (times : Lifetimes) : List (Value × Value) :=
  let all (seconds : Int) (states : List String) : List (Value × Value) :=
    states.map fun s => (.text s, .int seconds)
  all times.pending ["accepted"] ++ all times.completed ["completed"] ++
    all times.published ["published"] ++
    all times.failed ["error", "failed-publishing-result", "failed-creating-schema",
      "failed-saving-schema", "failed-removing-schema"] ++
    all times.processing ["received-sample-validation", "processing-file", "validating-file",
      "success", "warning", "received-schema-update", "received-removing-schema", "creating-schema",
      "schema-created", "saving-schema", "removing-schema"]

def lifetime (status : Value) (times : Lifetimes := {}) : Outcome Value :=
  if status.isKey then .ok ((Value.findEntry status (lifetimes times)).getD (.int times.default))
  else .error status.keyFault

def taskKey (task taskId : Value) : Value := .text (task.plain ++ ":task:" ++ taskId.plain)

def importKey (task importName : Value) : Value :=
  .text (task.plain ++ ":import:" ++ importName.plain ++ ":tasks")

def spread (v : Value) : Outcome (List (Value × Value)) :=
  match v with
  | .map entries => .ok entries
  | v => .error (.wrongKind ("'" ++ v.kindName ++ "' object is not a mapping"))

def merge (old new : Value) : Outcome Value := do
  let old ← spread old
  let new ← spread new
  return .map (new.foldl (fun acc (k, v) => Value.setEntry k v acc) old)

def readField (name : String) (read : Value → Outcome Value) (v : Value) : Outcome Value :=
  match v.field? name with
  | none => .ok v
  | some w => v.withField name <$> read w

def areNames (fields : List (Value × Value)) : Bool := fields.all fun (k, _) => k.isText

def find (taskId task : Value) : Work (Option Value) := do
  let fields ← Cache.readFields (taskKey task taskId)
  if fields.isEmpty then return none
  let v ← readField "data" Value.parsed (.map fields)
  let v ← readField "code" (fun c => .int <$> c.toInt) v
  return if areNames fields then some v else none

/-- Puts the state of a task into the cache. -/
def store (taskId value task : Value) : Work Unit := do
  let importName ← (← value.item "data").getD "import_name" (.text "default")
  let status ← value.item "status"
  let code ← value.item "code"
  let message ← value.item "message"
  let data ← (← value.item "data").toJson
  let key := taskKey task taskId
  let index := importKey task importName
  Cache.storeFields key [(.text "status", status), (.text "code", .text code.plain),
    (.text "message", message), (.text "data", .text data)]
  Cache.insertMember index taskId
  let ttl ← lifetime status
  Cache.setTtl key ttl
  Cache.setTtl index ttl

/-- A change of a task: a field gets a value, a message that is not empty becomes the message, and
data that is not empty is merged into that of the task or replaces it. -/
structure Change where
  taskId : Value
  field : Value
  value : Value
  task : Value
  message : Value := .text ""
  data : Value := .null
  resetData : Value := .bool false

def flat (v : Value) : Outcome Value :=
  match v with
  | .map _ => .text <$> v.toJson
  | v => .ok v

def changeMessage (c : Change) : Work Unit := do
  if c.message.truthy then
    Cache.storeFields (taskKey c.task c.taskId) [(.text "message", c.message)]

/-- The data that a change starts from. -/
def findStart (c : Change) : Work Value :=
  if c.resetData.truthy then return .map []
  else do (((← find c.taskId c.task).getD .null).item "data" : Outcome Value)

def changeData (c : Change) : Work Unit := do
  if c.data.truthy then
    let merged ← merge (← findStart c) c.data
    Cache.storeFields (taskKey c.task c.taskId) [(.text "data", .text (← merged.toJson))]

def prolong (c : Change) (value : Value) : Work Unit := do
  if c.field.same (.text "status") then Cache.setTtl (taskKey c.task c.taskId) (← lifetime value)

def change (c : Change) : Work Unit := do
  let value ← flat c.value
  Cache.storeFields (taskKey c.task c.taskId) [(c.field, value)]
  changeMessage c
  changeData c
  prolong c value

def ofImport (fields : List (Value × Value)) : Outcome Value := do
  let v := Value.map fields
  let v := v.withField "code" (.int (← (← v.item "code").toInt))
  let data ←
    match v.field? "data" with
    | none => pure (Value.map [])
    | some data => data.parsed
  if areNames fields then return v.withField "data" data
  else throw (.wrongKind "keywords must be strings")

def findMember (task id : Value) : Work (Option Value) := do
  let fields ← Cache.readFields (taskKey task id)
  if fields.isEmpty then return none
  return some (← ofImport fields)

def findAll (importName task : Value) : Work (List Value) := do
  let ids ← Cache.readMembers (importKey task importName)
  return (← ids.mapM (findMember task)).filterMap id

end TaskCache

end SheetMill.Database

namespace SheetMill.Database.Entries

/-! ## Requests to the cache -/

def put (key value seconds : Value) : Work Unit := do
  let isUsual ← if seconds.same .null then pure true else seconds.atMost (.int 0)
  Cache.store key value (if isUsual then .int ({} : Lifetimes).default else seconds)

def readable (v : Value) : Outcome Value :=
  match v.parsed with
  | .ok w => .ok w
  | .error (.badJson _) | .error (.wrongKind _) => .ok v
  | .error f => .error f

def shown (key : Value) : Work Value := do
  let entry ← (← get).cache.find? key
  let kind := (entry.map (·.kind)).getD (.text "none")
  match kind with
  | .text "string" =>
    let content ← Cache.read key
    if content.truthy then readable content else return .null
  | .text "hash" =>
    let content := Value.map (← Cache.readFields key)
    match content.field? "data" with
    | none => return content
    | some data => return content.withField "data" (← readable data)
  | .text "set" => return .list (← Cache.readMembers key)
  | .text "list" | .text "zset" => return (entry.map (·.content)).getD .null
  | kind => return .text ("Unsupported type: " ++ kind.plain)

def everything : Work Value := do
  let keys ← Cache.findKeys (.text "*")
  return .map (← keys.mapM fun key => return (key, ← shown key))

def clear : Work Bool := do
  match ← Cache.flush.attempt with
  | .ok done => return done
  | .error (.cache .connection _) => return false
  | .error f => throw f

/-! ## Requests -/

def keys (request : Value) : Work Value := do
  return .record [("keys", .list (← Cache.findKeys (← request.item "pattern")))]

def set (request : Value) : Work Value := do
  let work : Work Bool := do
    put (← request.item "key") (← request.item "value") (← request.item "expiration")
    return true
  return .record [("success", .bool (← work.handle fun _ => return false))]

def get (request : Value) : Work Value := do
  let found ← Cache.read (← request.item "key")
  return .record [("value", found), ("found", .bool !found.same .null)]

def delete (request : Value) : Work Value := do
  let keys ← (← request.item "keys").items
  let n ← Cache.removeKeys keys
  return .record [("count", .int n)]

def ping (_ : Value) : Work Value := do
  return .record [("pong", .bool (← Cache.ping))]

def dump (_ : Value) : Work Value := do
  let entries ← (← everything).entriesAs "items"
  return .record [("cache", .map (← entries.mapM fun (k, v) => return (k, .text (← v.toJson))))]

def erase (_ : Value) : Work Value := do
  return .record [("success", .bool (← clear))]

end SheetMill.Database.Entries
