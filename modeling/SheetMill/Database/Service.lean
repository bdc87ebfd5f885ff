import SheetMill.Database.Tasks
import SheetMill.Message.Catalogue
import SheetMill.Remote

/-!
# The database service

A call is told to the journal when it comes in and when it is answered or fails; in between its
operation is tried, on new connections if need be, as the retry policies say.
-/

namespace SheetMill.Database

open Message

/-- How the calls of the cache and of the store are retried. -/
structure Policies where
  cache : RetryPolicy := {}
  store : RetryPolicy := {}

/-- The policy for operations on the cache and the store together: the more patient of the two. -/
def Policies.joint (policies : Policies) : Outcome RetryPolicy := do
  return {
    attempts := ← policies.cache.attempts.larger policies.store.attempts
    delay := ← policies.cache.delay.larger policies.store.delay }

namespace Service

def introduce (address : String) (debug : Bool) : Work Unit :=
  say .info ("[INIT] Initializing DatabaseServicer - Database Channel: " ++ address ++
    ", Debug Mode: " ++ (Value.bool debug).plain)

/-! ## Retrying -/

def retryLine (kind operation : String) (attempts : Value) (n : Nat) (delay : Value) (f : Fault) :
    String :=
  kind ++ " operation '" ++ operation ++ "' failed (attempt " ++ toString n ++ "/" ++
    attempts.plain ++ "): " ++ f.message ++ ". Retrying in " ++ delay.plain ++ "s..."

def lastLine (kind operation : String) (attempts : Value) (f : Fault) : String :=
  kind ++ " operation '" ++ operation ++ "' failed after " ++ attempts.plain ++
    " attempts: " ++ f.message

def cachePlan (policies : Policies) (operation : String) : Retry.Plan State :=
  let attempts := policies.cache.attempts
  { mayPass := isCacheTrouble
    between := fun n delay f => do
      say .warning (retryLine "Redis" operation attempts n delay f)
      sleep delay
    afterLast := fun f => say .error (lastLine "Redis" operation attempts f) }

def cacheAttempt (work : Nat → Work Value) (n : Nat) : Work Value := do
  let _ ← keptCache.obtain (1 < n)
  work n

def tryCache (policies : Policies) (operation : String) (work : Nat → Work Value) : Work Value :=
  retry policies.cache (cachePlan policies operation) (cacheAttempt work)

def onCache (policies : Policies) (operation : String) (work : Work Value) : Work Value :=
  tryCache policies operation fun _ => work

def schemaPlan : Retry.Plan State :=
  { mayPass := isStoreDown, between := fun _ delay _ => sleep delay }

def schemaAttempt (work : Nat → Work Value) (n : Nat) : Work Value := do
  let _ ← keptSchemas.obtain (1 < n)
  work n

def trySchemas (policies : Policies) (work : Nat → Work Value) : Work Value :=
  retry policies.store schemaPlan (schemaAttempt work)

def onSchemas (policies : Policies) (work : Work Value) : Work Value :=
  trySchemas policies fun _ => work

def noBackoff : Fault := .noMember "'DatabaseTasksHandler' object has no attribute 'backoff'"

/-- What is done around the attempts of an operation on the tasks. There is no factor by which the
wait grows, so the operation cannot be tried a second time. -/
def taskPlan (policy : RetryPolicy) (operation : String) : Retry.Plan State :=
  { mayPass := fun f => isCacheTrouble f || isStoreDown f
    between := fun n delay f => do
      say .warning (retryLine "Database" operation policy.attempts n delay f)
      sleep delay
      throw noBackoff
    afterLast := fun f => say .error (lastLine "Database" operation policy.attempts f) }

def taskAttempt (work : Nat → Work Value) (n : Nat) : Work Value := do
  let _ ← keptCache.obtain (1 < n)
  let _ ← keptTasks.obtain (1 < n)
  work n

def tryTasks (policies : Policies) (operation : String) (work : Nat → Work Value) :
    Work Value := do
  let policy ← policies.joint
  retry policy (taskPlan policy operation) (taskAttempt work)

def onTasks (policies : Policies) (operation : String) (work : Work Value) : Work Value :=
  tryTasks policies operation fun _ => work

/-! ## Calls -/

def tell {α : Type} (tag opening failure : String) (closing : α → String) (work : Work α) :
    Work α := do
  say .info ("[" ++ tag ++ "] " ++ opening)
  let answer : Work α := do
    let a ← work
    say .info ("[" ++ tag ++ "] " ++ closing a)
    return a
  answer.handle fun f => do
    say .error ("[" ++ tag ++ "] " ++ failure ++ " failed: " ++ f.message)
    throw f

def from_ (peer : String) : String := "Request from client " ++ peer

def yesNo (b : Bool) : String := (Value.bool b).plain

def quoted (s : String) : String := "'" ++ s ++ "'"

variable (policies : Policies) (peer : String)

def getKeys (pattern : String) : Work (List String) :=
  tell "REDIS_GET_KEYS" (from_ peer ++ " - Pattern: " ++ quoted pattern) "Operation"
    (fun keys => "Successfully retrieved " ++ toString keys.length ++ " keys") do
    keysResponse.ofValue (← onCache policies "get_keys" (Entries.keys (keysRequest.toValue pattern)))

def set (request : SetRequest) : Work Bool :=
  let ttl := (request.expiration.map fun i => ", TTL: " ++ toString i ++ "s").getD ""
  tell "REDIS_SET" (from_ peer ++ " - Key: " ++ quoted request.key ++ ttl) "Operation"
    (fun r => "Key operation completed - Key: " ++ quoted request.key ++ ", Success: " ++
      yesNo r) do
    setResponse.ofValue (← onCache policies "set_value" (Entries.set request.toValue))

def get (key : String) : Work GetResponse :=
  tell "REDIS_GET" (from_ peer ++ " - Key: " ++ quoted key) "Operation"
    (fun r => "Key lookup completed - Key: " ++ quoted key ++ ", Found: " ++ yesNo r.found) do
    GetResponse.ofValue (← onCache policies "get_value" (Entries.get (getRequest.toValue key)))

def delete (keys : List String) : Work Int :=
  tell "REDIS_DELETE" (from_ peer ++ " - KeyCount: " ++ toString keys.length) "Operation"
    (fun count => "Key deletion completed - RequestedKeys: " ++ toString keys.length ++
      ", DeletedKeys: " ++ toString count) do
    deleteResponse.ofValue (← onCache policies "delete_key" (Entries.delete (deleteRequest.toValue keys)))

def health (pong : Bool) : String :=
  "Health check completed - Connection: " ++ (if pong then "OK" else "FAILED")

def pingCache : Work Bool :=
  tell "REDIS_PING" ("Health check request from client " ++ peer) "Health check" health do
    pingResponse.ofValue (← onCache policies "ping" (Entries.ping .null))

def getCache : Work (List (String × String)) :=
  tell "REDIS_GET_CACHE" (from_ peer) "Operation"
    (fun cache => "Cache retrieval completed - CacheEntries: " ++ toString cache.length) do
    cacheResponse.ofValue (← onCache policies "get_cache" (Entries.dump .null))

def clearCache : Work Bool :=
  tell "REDIS_CLEAR_CACHE" (from_ peer) "Operation"
    (fun r => "Cache clear completed - Success: " ++ yesNo r) do
    clearResponse.ofValue (← onCache policies "clear_cache" (Entries.erase .null))

def pingStore : Work Bool :=
  tell "MONGO_PING" ("Health check request from client " ++ peer) "Health check" health do
    pingResponse.ofValue (← onSchemas policies (Schemas.ping .null))

def importOf (name : String) : String := "ImportName: " ++ quoted name

def insertSchema (request : InsertSchemaRequest) : Work SchemaChange :=
  tell "MONGO_INSERT_SCHEMA"
    (from_ peer ++ " - " ++ importOf request.importName ++ ", SchemaReleases: " ++
      toString request.schemasReleases.length) "Operation"
    (fun r => "Schema insertion completed - " ++ importOf request.importName ++ ", Status: " ++
      quoted r.status) do
    let v ← request.toValue
    SchemaChange.ofValue (← onSchemas policies (Schemas.insert v))

def countDocuments : Work Int :=
  tell "MONGO_COUNT_DOCS" (from_ peer) "Operation"
    (fun amount => "Document count completed - Count: " ++ toString amount) do
    countResponse.ofValue (← onSchemas policies (Schemas.countAll .null))

def findSchema (request : ImportRequest) : Work FindSchemaResponse :=
  tell "MONGO_FIND_SCHEMA" (from_ peer ++ " - " ++ importOf request.importName) "Operation"
    (fun r => "Schema search completed - " ++ importOf request.importName ++ ", Status: " ++
      quoted r.status ++ ", HasSchema: " ++ yesNo r.schema.isSome) do
    FindSchemaResponse.ofValue (← onSchemas policies (Schemas.find request.toValue))

def updateSchema (request : UpdateSchemaRequest) : Work SchemaChange :=
  tell "MONGO_UPDATE_SCHEMA" (from_ peer ++ " - " ++ importOf request.importName) "Operation"
    (fun r => "Schema update completed - " ++ importOf request.importName ++ ", Status: " ++
      quoted r.status) do
    let v ← request.toValue
    SchemaChange.ofValue (← onSchemas policies (Schemas.update v))

def removalLine (what name : String) (r : SchemaRemoval) : String :=
  what ++ " deletion completed - " ++ importOf name ++ ", Success: " ++ yesNo r.success ++
    ", Status: " ++ quoted r.status

def deleteSchema (request : ImportRequest) : Work SchemaRemoval :=
  tell "MONGO_DELETE_SCHEMA" (from_ peer ++ " - " ++ importOf request.importName) "Operation"
    (removalLine "Schema" request.importName) do
    SchemaRemoval.ofValue (← onSchemas policies (Schemas.delete request.toValue))

def deleteImport (request : ImportRequest) : Work SchemaRemoval :=
  tell "MONGO_DELETE_IMPORT" (from_ peer ++ " - " ++ importOf request.importName) "Operation"
    (removalLine "Import" request.importName) do
    SchemaRemoval.ofValue (← onSchemas policies (Schemas.deleteImport request.toValue))

def taskOf (taskId task : String) : String := "TaskID: " ++ quoted taskId ++ ", Task: " ++ quoted task

def updateTask (request : UpdateTaskRequest) : Work TaskChange :=
  tell "TASKS_UPDATE"
    (from_ peer ++ " - " ++ taskOf request.taskId request.task ++ ", Field: " ++
      quoted request.field) "Operation"
    (fun r => "Task update completed - TaskID: " ++ quoted request.taskId ++ ", Success: " ++
      yesNo r.success) do
    TaskChange.ofValue (← onTasks policies "update_task_id" (Tasks.update request.toValue))

def getTask (request : GetTaskRequest) : Work GetTaskResponse :=
  tell "TASKS_GET" (from_ peer ++ " - " ++ taskOf request.taskId request.task) "Operation"
    (fun r => "Task lookup completed - TaskID: " ++ quoted request.taskId ++ ", Found: " ++
      yesNo r.found ++ ", HasValue: " ++ yesNo r.value.isSome) do
    GetTaskResponse.ofValue (← onTasks policies "get_task_id" (Tasks.get request.toValue))

def getTasks (request : ImportTasksRequest) : Work (List ApiResponse) :=
  tell "TASKS_GET_BY_IMPORT"
    (from_ peer ++ " - " ++ importOf request.importName ++ ", Task: " ++ quoted request.task)
    "Operation"
    (fun tasks => "Task lookup completed - " ++ importOf request.importName ++ ", TaskCount: " ++
      toString tasks.length) do
    importTasksResponse.ofValue
      (← onTasks policies "get_tasks_by_import_name" (Tasks.getAll request.toValue))

def setTask (request : SetTaskRequest) : Work TaskChange :=
  tell "TASKS_SET" (from_ peer ++ " - " ++ taskOf request.taskId request.task) "Operation"
    (fun r => "Task set completed - TaskID: " ++ quoted request.taskId ++ ", Success: " ++
      yesNo r.success) do
    TaskChange.ofValue (← onTasks policies "set_task_id" (Tasks.set request.toValue))

def call (name : String) (request : Value) : Work Value := do
  match name with
  | "RedisGetKeys" =>
    return keysResponse.toValue (← getKeys policies peer (← keysRequest.ofValue request))
  | "RedisSet" => return setResponse.toValue (← set policies peer (← SetRequest.ofValue request))
  | "RedisGet" => return (← get policies peer (← getRequest.ofValue request)).toValue
  | "RedisDelete" =>
    return deleteResponse.toValue (← delete policies peer (← deleteRequest.ofValue request))
  | "RedisPing" => return pingResponse.toValue (← pingCache policies peer)
  | "RedisGetCache" => return cacheResponse.toValue (← getCache policies peer)
  | "RedisClearCache" => return clearResponse.toValue (← clearCache policies peer)
  | "MongoPing" => return pingResponse.toValue (← pingStore policies peer)
  | "MongoInsertOneSchema" =>
    return (← insertSchema policies peer (← InsertSchemaRequest.ofValue request)).toValue
  | "MongoCountAllDocuments" => return countResponse.toValue (← countDocuments policies peer)
  | "MongoFindJsonSchema" =>
    (← findSchema policies peer (← ImportRequest.ofValue request)).toValue
  | "MongoUpdateOneJsonSchema" =>
    return (← updateSchema policies peer (← UpdateSchemaRequest.ofValue request)).toValue
  | "MongoDeleteOneJsonSchema" =>
    return (← deleteSchema policies peer (← ImportRequest.ofValue request)).toValue
  | "MongoDeleteImportName" =>
    return (← deleteImport policies peer (← ImportRequest.ofValue request)).toValue
  | "UpdateTaskId" =>
    return (← updateTask policies peer (← UpdateTaskRequest.ofValue request)).toValue
  | "GetTaskId" => return (← getTask policies peer (← GetTaskRequest.ofValue request)).toValue
  | "GetTasksByImportName" =>
    return importTasksResponse.toValue
      (← getTasks policies peer (← ImportTasksRequest.ofValue request))
  | "SetTaskId" => return (← setTask policies peer (← SetTaskRequest.ofValue request)).toValue
  | _ => throw default

end Service

end SheetMill.Database
