import SheetMill.Broker.Publisher
import SheetMill.Database.Service
import SheetMill.Gateway.Users
import SheetMill.Swarm.Monitor

/-!
# The console

What can be asked and done, on values, in a fixed order; a front end gives the operations names.
-/

namespace SheetMill.Console

variable {σ : Type}

def silent (work : Act σ Unit) : Act σ Value := do
  work
  return .null

/-- Goes on with the arguments by their names. -/
def taking (args : Arguments) (required : List String) (optional namedOnly : Bound)
    (work : (String → Value) → Act σ Value) : Act σ Value := do
  work (← args.bind { required, optional, namedOnly }).value

/-! ## The swarm and its scaler -/

section

open Swarm

def swarm (settings : Settings) (v tasks : Value) : List (Work Value) :=
  [silent (do
      let clock ← (← get).clock.add v
      modify fun s => { s with clock }),
    silent (do
      if !v.isKey then throw v.keyFault
      match (← get).services.find? (·.name.same v) with
      | some service => modify (·.withService { service with tasks })
      | none => throw (.missingKey v)),
    do silent (evaluate settings (← Policy.ofFields ⟨[], v.entries⟩)),
    return .bool (← mayChange settings v),
    return .bool (← scale (v.nth 0) (v.nth 1) (.told (v.nth 2).plain)),
    return ((← bothReplicas v).map fun (n, v) => .list [.int n, v]).getD .null,
    silent (monitor settings)]

def serviceOf (v : Value) : Service :=
  let fault (name : String) : Option Fault :=
    match v.part name with
    | .null => none
    | text => some (failure text.plain)
  { name := v.part "name", attributes := v.part "attrs"
    tasks := (v.field? "tasks").getD (.list [])
    tasksFault := fault "tasks_error", updateFault := fault "update_error" }

def servicesOf (vs : List Value) : List Service :=
  vs.foldl (fun services v => addService (serviceOf v) services) []

def policy (settings : Settings) (service : Service) : Outcome Value := do
  match ← Policy.ofAttributes? settings service.name service.attributes with
  | none => return .null
  | some p => return .record (p.fields ++ [("on_demand", .bool p.isUnlimited)])

def load (settings : Settings) (v : Value) (ask : Bool) : Work Value := do
  let p ← Policy.ofFields ⟨[], v.entries⟩
  let query ← p.loadQuery settings
  let load ← if ask then p.load? settings else pure none
  return .record [("query", query), ("value", (load.map .float).getD .null)]

def webReplyOf (v : Value) : Value × Value := ((v.field? "status").getD (.int 200), v.part "json")

end

/-! ## The connections of a thread, and publishers -/

section

open Broker

def broker (params : Value) (inside : Work Unit) : List (Work Value) :=
  let connected (c : Nat) : Work Value := return .bool ((← get).isConnected c)
  let opened (c : Nat) : Work Value := return .bool ((← get).isOpen c)
  [do
      configure (if params.same .null then ({} : Settings).all else params)
      let s ← get
      return .record [("params", s.params), ("exchange", s.exchange)],
    return .record (← connectionParams),
    return (← get).exchange,
    silent (closeThread 0),
    do connected (← threadConnection 0),
    do opened (← threadChannel 0),
    do silent (declareQueues (← threadChannel 0)),
    do
      let channel ← readyChannel 0
      inside
      opened channel,
    silent dropConnections,
    silent dropChannels]

def publisher (p : Publisher) (args : Arguments) : List (Act Post Value) := [
  silent Publisher.close,
  do return .text (← p.schema (← SchemaRequest.ofArguments args)),
  do return .text (← p.validation (← ValidationRequest.ofArguments args))]

def publisherSignature : Signature where
  optional := [("params", .null), ("exchange_info", .null), ("max_tries", .int 5),
    ("retry_delay", .float 1.0), ("backoff", .float 2.0)]
  isOpen := true

def publisherOf (args : Arguments) : Outcome (Publisher × Value) := do
  let bound ← args.bind publisherSignature
  let given (name : String) (default : Value) : Value :=
    if (bound.value name).same .null then default else bound.value name
  let publisher : Publisher := {
    exchange := given "exchange_info" ({} : Settings).exchangeValue
    policy := {
      attempts := bound.value "max_tries", delay := bound.value "retry_delay"
      backoff := bound.value "backoff" }
    source := "" }
  return (publisher, given "params" ({} : Settings).paramsValue)

def openPublisher (args : Arguments) : Work (Publisher × Nat × Value) := do
  let (p, params) ← publisherOf args
  let channel ← p.open_ params
  return (p, channel,
    .list [p.policy.attempts, p.policy.delay, p.policy.backoff, p.exchange])

end

/-! ## The links to the cache and to the document store, the kept links and the service -/

section

open Database

def cache (link : CacheLink) (args : Arguments) : List (Work Value) :=
  let on := taking (σ := State) args
  [return link.host,
    return link.port,
    return link.db,
    return link.password,
    on [] [] [] fun _ => return .bool (← cacheHealthy),
    on [] [] [] fun _ => return .bool (← Cache.ping),
    on ["pattern"] [] [] fun b => return .list (← Cache.findKeys (b "pattern")),
    on ["key", "value"] [("ex_secs", .null)] [] fun b =>
      silent (Entries.put (b "key") (b "value") (b "ex_secs")),
    on ["key"] [] [] fun b => Cache.read (b "key"),
    do
      let _ ← ({ args with positional := [] } : Arguments).bind {}
      return .int (← Cache.removeKeys args.positional),
    on ["status"] [] [] fun b => TaskCache.lifetime (b "status"),
    on ["task_id", "field", "value", "task"] []
      [("message", .text ""), ("data", .null), ("reset_data", .bool false)] fun b =>
      silent (TaskCache.change {
        taskId := b "task_id", field := b "field", value := b "value", task := b "task"
        message := b "message", data := b "data", resetData := b "reset_data" }),
    on ["task_id", "value", "task"] [] [] fun b =>
      silent (TaskCache.store (b "task_id") (b "value") (b "task")),
    on ["task_id", "task"] [] [] fun b =>
      return (← TaskCache.find (b "task_id") (b "task")).getD .null,
    on ["import_name", "task"] [] [] fun b =>
      return .list (← TaskCache.findAll (b "import_name") (b "task")),
    on [] [] [] fun _ => Entries.everything,
    on [] [] [] fun _ => return .bool (← Entries.clear)]

def store (link : StoreLink) (args : Arguments) : List (Work Value) :=
  let docs := link.collection
  let on := taking (σ := State) args
  let filterOf (b : String → Value) : Value :=
    if (b "filter").same .null then .map [] else b "filter"
  [return .handle "MongoClient",
    return .handle "Database",
    return .handle "Collection",
    on [] [] [] fun _ => return .bool (← storeHealthy),
    on ["document"] [] [] fun b => do
      let id ← Documents.insert docs (b "document")
      return .record [("acknowledged", .bool true), ("inserted_id", id)],
    on [] [("filter", .null)] [] fun b => return .int (← Documents.countOf docs (filterOf b)),
    on [] [("filter", .null), ("projection", .null)] [] fun b =>
      return (← Documents.findOne docs (filterOf b)).getD .null,
    on ["filter", "update"] [] [] fun b =>
      return (← Documents.updateOne docs (b "filter") (b "update")).toValue,
    on ["filter"] [] [] fun b => do
      let n ← Documents.removeOne docs (b "filter")
      return .record [("deleted_count", .int n), ("raw_result", removalReport n)]]

def works (request : Value) : List (Work Value) :=
  let onCache (work : Value → Work Value) : Work Value := do
    let _ ← keptCache.obtain
    work request
  let onSchemas (work : Value → Work Value) : Work Value := do
    let _ ← keptSchemas.obtain
    work request
  let onTasks (work : Value → Work Value) : Work Value := do
    let _ ← keptCache.obtain
    let _ ← keptTasks.obtain
    work request
  [onCache Entries.keys, onCache Entries.set, onCache Entries.get, onCache Entries.delete,
    onCache Entries.ping, onCache Entries.dump, onCache Entries.erase,
    onSchemas Schemas.ping, onSchemas Schemas.insert, onSchemas Schemas.countAll,
    onSchemas Schemas.find, onSchemas Schemas.update, onSchemas Schemas.delete,
    onSchemas Schemas.deleteImport,
    onTasks Tasks.update, onTasks Tasks.set, onTasks Tasks.get, onTasks Tasks.getAll]

def links (args : Arguments) (inside : Work Unit) : List (Work Value) :=
  let obtained {κ : Type} (kept : Kept κ) (number : κ → Nat) : Work Value :=
    taking args [] [("force_reconnect", .bool false)] [] fun b =>
      return .int (number (← kept.obtain (b "force_reconnect").truthy))
  let engaged {κ : Type} (kept : Kept κ) (trouble : Fault → Bool) (kind : String) : Work Value :=
    kept.engage trouble fun _ => do
      inside
      return .text kind
  [obtained keptCache (·.id),
    obtained keptTasks (·.id),
    obtained keptSchemas (·.id),
    engaged keptCache isCacheTrouble "RedisConnection",
    engaged keptTasks isStoreDown "MongoConnection",
    engaged keptSchemas isStoreDown "MongoConnection",
    taking args [] [] [] fun _ => silent closeAll]

def newLinks (args : Arguments) : List (Work Value) :=
  let addresses : Addresses := {}
  let linked (names : List String) := taking (σ := State) args [] (names.map (·, .null)) []
  let storeLink (names : List String) (collection : String) : Work Value :=
    linked names fun _ => do
      let _ ← openStore collection
      return .text "MongoConnection"
  [linked ["host", "port", "db", "password"] fun b => do
      let link ← openCache addresses (b "host") (b "port") (b "db") (b "password")
      return .list [link.host, link.port, link.db, link.password],
    storeLink ["uri", "database", "collection"] addresses.tasks, storeLink [] addresses.tasks,
    storeLink [] addresses.schemas]

def databaseOf (v : Value) : State where
  cache := (v.seq "redis").foldl
    (fun cache e => cache.put ⟨e.nth 0, e.nth 1, e.nth 2, e.nth 3⟩) ([] : Cache)
  collections := [("schemas", v.seq "schemas"), ("tasks", v.seq "tasks")]

def policiesOf (c : Configuration) : Policies :=
  let policy (service : String) : RetryPolicy :=
    { attempts := c.value (service ++ "_MAX_RETRIES")
      delay := c.value (service ++ "_RETRY_DELAY_SECONDS")
      backoff := c.value (service ++ "_RETRY_BACKOFF_FACTOR") }
  { cache := policy "REDIS", store := policy "MONGO" }

end

/-! ## Users

A form is described by its kind under `model` and its fields under `fields`. -/

section

open Accounts

def paperOf (v : Value) : Paper :=
  match v.field? "model" with
  | some name =>
    match FormKind.ofName? name.plain with
    | some kind => .of kind (v.part "fields").fields
    | none => .other v
  | none => .other v

def rowValue (row : Option Row) : Value := (row.map .record).getD .null

def users (args : Arguments) : List (Accounts.Work Value) :=
  let active : String × Value := ("active", .bool true)
  let asked (required : List String) (namedOnly : Bound)
      (answer : Tables → (String → Value) → Outcome Value) : Accounts.Work Value :=
    taking args required [] namedOnly fun b => do answer (← get).tables b
  let done (required : List String) (byAdmin : Bool)
      (change : (String → Paper) → Bool → Accounts.Work Receipt) : Accounts.Work Value :=
    taking args required [] [("admin", .bool byAdmin)] fun b =>
      return (← change (paperOf ∘ b) (b "admin").truthy).toValue
  [asked ["search_user"] [active] fun t b =>
      return rowValue (t.account? (← (paperOf (b "search_user")).sought) (b "active").truthy),
    asked ["username"] [active] fun t b =>
      return rowValue (t.accountOf? (b "username") (b "active").truthy),
    asked ["user_login"] [] fun t b =>
      return rowValue (← t.authenticate? (paperOf (b "user_login"))),
    asked ["username"] [active, ("rol", .bool false)] fun t b =>
      match t.member? (b "username") (b "active").truthy with
      | none => return .null
      | some member => return .record (← (member.form (b "rol").truthy).whole),
    asked [] [active, ("rol", .bool false), ("limit", .int 100), ("page", .int 1)] fun t b => do
      (← t.page (b "active").truthy (b "limit") (b "page")).toValue (b "rol").truthy,
    done ["new_user"] true fun b => create (b "new_user"),
    done ["search_user", "updated_info"] false fun b => update (b "search_user") (b "updated_info"),
    done ["search_user"] false fun b => close (b "search_user"),
    done ["search_user"] false fun b => remove (b "search_user")]

def novelty (t : Tables) (request : Value) : Outcome Value := do
  let names := ["email", "phone", "exclude_username"]
  let b ← Arguments.bind ⟨[], request.entries⟩ { namedOnly := names.map (·, .null) }
  return (t.novelty (b.value "email") (b.value "phone") (b.value "exclude_username")).toValue

open Gateway in
def userRoutes (o : Office σ) (request : Value) : List (Act σ Value) :=
  let asked (required : List String) (optional : Bound) := taking (σ := σ) ⟨[], request.entries⟩
    required optional []
  let sought (b : String → Value) : Sought := ⟨b "username", b "rol"⟩
  let useCache : String × Value := ("use_cache", .bool true)
  let active : String × Value := ("active", .bool true)
  [asked ["current_user"] [] fun b => ownProfile o (paperOf (b "current_user")),
    asked ["admin", "username"] [("all", .bool false), active, useCache] fun b =>
      anyProfile o (paperOf (b "admin"))
        ⟨b "username", b "all", b "active", (b "use_cache").truthy⟩,
    asked ["_"] [active, ("rol", .bool false), ("limit", .int 100), ("page", .int 1), useCache]
      fun b => userPage o ⟨b "active", b "rol", b "limit", b "page", (b "use_cache").truthy⟩,
    asked ["user", "admin"] [] fun b => createUser o (paperOf (b "admin")) (paperOf (b "user")),
    asked ["username", "user", "rol", "admin"] [] fun b =>
      updateUser o (paperOf (b "admin")) (sought b) (paperOf (b "user")),
    asked ["username", "rol", "admin"] [("complete", .bool false)] fun b =>
      deleteUser o (paperOf (b "admin")) (sought b) (b "complete").truthy]

open Gateway in
def credentials (t : Tables) (v : Value) (token : Outcome Value) : List (Outcome Value) :=
  let login (name : String) : String × Value := (name, v.part name)
  [Gateway.login t (.of .login (["username", "password", "rol"].map login)),
    (paperOf v).toValue,
    actorOf t token >>= Paper.toValue,
    administrator (paperOf v) >>= Paper.toValue]

open Gateway in
def taskRoutes (s : Surroundings σ) (file : Option UploadedFile) (args : Arguments) :
    List (Act σ Value) := [
  uploadSchema s args, removeSchema s args, schemaStatus s args, uploadFile s file args,
  validationStatus s args, readCache s args, clearCache s args]

end

end SheetMill.Console
