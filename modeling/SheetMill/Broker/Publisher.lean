import SheetMill.Arguments
import SheetMill.Broker.Connections
import SheetMill.Remote
import SheetMill.Value.Json

/-!
# Publishing requests

Each attempt carries an identifier of its own; that of the attempt that went through is the answer.
-/

namespace SheetMill.Broker

/-- The broker and the channel on which is published. -/
structure Post where
  broker : State
  channel : Nat

instance : Journaled Post := ⟨fun line s => { s with broker := Journaled.addLine line s.broker }⟩

def onBroker {α : Type} (work : Work α) : Act Post α :=
  Act.within Post.broker (fun broker s => { s with broker }) work

/-- Who publishes requests. -/
structure Publisher where
  thread : Nat := 0
  policy : RetryPolicy := { delay := .float 1.0 }
  exchange : Value
  source : String

/-- A file to be validated. -/
structure ValidationRequest where
  routingKey : Value
  fileData : Value
  importName : Value
  metadata : Value
  task : Value
  extra : List (Value × Value) := []

/-- A schema to be stored or removed. -/
structure SchemaRequest where
  routingKey : Value
  schema : Value := .null
  importName : Value := .null
  raw : Value := .bool false
  task : Value := .null
  extra : List (Value × Value) := []

def ValidationRequest.signature : Signature where
  required := ["routing_key", "file_data", "import_name", "metadata", "task"]
  isOpen := true

def ValidationRequest.ofArguments (args : Arguments) : Outcome ValidationRequest := do
  let bound ← args.bind signature
  return {
    routingKey := bound.value "routing_key"
    fileData := bound.value "file_data"
    importName := bound.value "import_name"
    metadata := bound.value "metadata"
    task := bound.value "task"
    extra := args.others signature }

def SchemaRequest.signature : Signature where
  required := ["routing_key"]
  optional := [("schema", .null), ("import_name", .null), ("raw", .bool false), ("task", .null)]
  isOpen := true

def SchemaRequest.ofArguments (args : Arguments) : Outcome SchemaRequest := do
  let bound ← args.bind signature
  return {
    routingKey := bound.value "routing_key"
    schema := bound.value "schema"
    importName := bound.value "import_name"
    raw := bound.value "raw"
    task := bound.value "task"
    extra := args.others signature }

def hexadecimalOf (v : Value) : Outcome String :=
  match v with
  | .bytes octets => .ok (Value.hexText octets)
  | .float x => .ok (Decimal.hexadecimal x)
  | v => .error (v.memberFault "hex")

def ValidationRequest.body (r : ValidationRequest) (id date : String) : Outcome Value := do
  return .record [
    ("id", .text id), ("task", r.task), ("file_data", .text (← hexadecimalOf r.fileData)),
    ("import_name", r.importName), ("metadata", r.metadata), ("date", .text date),
    ("extra", .map r.extra)]

def SchemaRequest.body (r : SchemaRequest) (id date : String) : Outcome Value :=
  .ok (.record [
    ("id", .text id), ("schema", r.schema), ("import_name", r.importName), ("raw", r.raw),
    ("tasks", r.task), ("date", .text date), ("extra", .map r.extra)])

namespace Publisher

def mayPass : Fault → Bool
  | .broker .general _ => false
  | .broker _ _ => true
  | _ => false

/-- Makes a publisher. -/
def open_ (params : Value) (publisher : Publisher) : Work Nat := do
  if !(← get).params.truthy then
    match params with
    | .map entries =>
      if (params.field? "exchange").isSome then
        throw (.wrongKind "got multiple values for keyword argument 'exchange'")
      if !entries.all fun (k, _) => k.isText then throw (.wrongKind "keywords must be strings")
      configure (params.withField "exchange" publisher.exchange)
    | v => throw (.wrongKind ("argument after ** must be a mapping, not " ++ v.kindName))
  threadChannel publisher.thread

def renew (publisher : Publisher) (force : Bool) : Act Post Unit := do
  let s ← get
  if force || !s.broker.isOpen s.channel then
    let channel ← onBroker (threadChannel publisher.thread)
    modify fun s => { s with channel }

/-- Publishes a new message and returns its identifier. -/
def send (publisher : Publisher) (routingKey : Value) (body : String → String → Outcome Value) :
    Act Post String := do
  let id ← onBroker newIdentifier
  let now := (← get).broker.now
  let content ← body id now.text
  let exchange ← publisher.exchange.item "exchange"
  let written ← content.toJson
  let channel := (← get).channel
  onBroker (call "basic_publish" [
    ("exchange", exchange), ("routing_key", routingKey), ("body", .text written),
    ("properties", .record [
      ("message_id", .text id), ("timestamp", .int now.seconds), ("delivery_mode", .int 2)])]
    channel)
  return id

def plan (publisher : Publisher) (operation : String) : Retry.Plan Post :=
  let attempts := publisher.policy.attempts.plain
  let say (text : String) : Act Post Unit :=
    note publisher.source .warning ("[Publisher] " ++ operation ++ " failed " ++ text)
  { mayPass
    between := fun n delay f => do
      say ("(attempt " ++ toString n ++ "/" ++ attempts ++ "): " ++ f.message ++ ". Retrying in " ++
        delay.plain ++ "s...")
      onBroker (sleep delay)
    afterLast := fun f => say ("after " ++ attempts ++ " attempts: " ++ f.message) }

def attempt {α : Type} (publisher : Publisher) (work : Nat → Act Post α) (n : Nat) :
    Act Post α := do
  publisher.renew (1 < n)
  work n

def persist {α : Type} (publisher : Publisher) (operation : String) (work : Nat → Act Post α) :
    Act Post α :=
  retry publisher.policy (publisher.plan operation) (publisher.attempt work)

def publish (publisher : Publisher) (operation : String) (routingKey : Value)
    (body : String → String → Outcome Value) : Act Post String :=
  publisher.persist operation fun _ => publisher.send routingKey body

def validation (publisher : Publisher) (r : ValidationRequest) : Act Post String :=
  publisher.publish "publish_validation_request" r.routingKey r.body

def schema (publisher : Publisher) (r : SchemaRequest) : Act Post String :=
  publisher.publish "publish_schema_update" r.routingKey r.body

def close : Act Post Unit := do
  let s ← get
  if s.broker.isOpen s.channel then onBroker (closeChannel s.channel)

end Publisher

end SheetMill.Broker
