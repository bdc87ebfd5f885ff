import SheetMill.Calendar
import SheetMill.Journal

/-!
# Connections of threads

Neither connections nor channels may be shared between threads, so each thread has its own.
-/

namespace SheetMill.Broker

/-! ## The message broker -/

/-- A fault of a call, the seconds until it comes, and whether it closes the channel. -/
structure Strike where
  fault : Fault
  after : Amount := .whole 0
  closes : Bool := false

/-- A channel of a connection. -/
structure Channel where
  connection : Nat
  isOpen : Bool := true
  deriving Repr, DecidableEq

/-- The broker, and the connection and the channel that each thread keeps. -/
structure State where
  params : Value := .map []
  exchange : Value := .map []
  connections : List Bool := []
  channels : List Channel := []
  connectionOf : List (Nat × Nat) := []
  channelOf : List (Nat × Nat) := []
  calls : List (String × Value) := []
  outages : List (Outage Strike) := []
  origin : Moment := ⟨0⟩
  clock : Amount := .whole 0
  issued : Nat := 0
  sleeps : List Value := []
  journal : Journal := []

instance : Journaled State := ⟨fun line s => { s with journal := s.journal ++ [line] }⟩

abbrev Work := Act State

def State.now (s : State) : Moment := s.origin.after s.clock

def State.isConnected (s : State) (connection : Nat) : Bool := s.connections.getD connection false

def State.isOpen (s : State) (channel : Nat) : Bool := (s.channels[channel]?.map (·.isOpen)).getD false

def State.closeChannel (s : State) (channel : Nat) : State :=
  { s with channels := s.channels.modify channel fun c => { c with isOpen := false } }

def State.closeConnection (s : State) (connection : Nat) : State :=
  { s with connections := s.connections.set connection false }

def sleep (seconds : Value) : Work Unit := modify fun s => { s with sleeps := s.sleeps ++ [seconds] }

def identifier (number : Nat) : String :=
  "00000000-0000-4000-8000-" ++ Decimal.padLeft 12 (toString number)

def newIdentifier : Work String := do
  modify fun s => { s with issued := s.issued + 1 }
  return identifier (← get).issued

def call (name : String) (arguments : List (String × Value)) (channel : Option Nat := none) :
    Work Unit := do
  let s ← get
  let (strike, outages) := Outage.strike "broker" name s.outages
  let s := { s with calls := s.calls ++ [(name, Value.record arguments)], outages }
  match strike with
  | none => set s
  | some strike =>
    let s := { s with clock := s.clock.plus strike.after }
    set (match channel with
      | some c => if strike.closes then s.closeChannel c else s
      | none => s)
    throw strike.fault

/-! ## Connections of threads -/

/-- Where the broker is, and what is declared there. -/
structure Settings where
  host : Value := .text "mq"
  port : Value := .int 5672
  username : Value := .text "guest"
  password : Value := .text "secret"
  virtualHost : Value := .text "/"
  exchange : String := "typechecking.exchange"
  exchangeType : String := "topic"
  queues : List (String × String) := [
    ("typechecking.schemas.queue", "schemas.*"),
    ("typechecking.validations.queue", "validation.*"),
    ("typechecking.schemas.results.queue", "schemas.results.*"),
    ("typechecking.validation.results.queue", "validation.results.*")]

namespace Settings

def exchangeValue (settings : Settings) : Value :=
  .record [
    ("exchange", .text settings.exchange),
    ("durable", .bool true),
    ("type", .text settings.exchangeType),
    ("queues", .list (settings.queues.map fun (queue, key) =>
      .record [("queue", .text queue), ("durable", .bool true), ("routing_key", .text key)]))]

def paramsValue (settings : Settings) : Value :=
  .record [
    ("host", settings.host),
    ("port", settings.port),
    ("username", settings.username),
    ("password", settings.password),
    ("virtual_host", settings.virtualHost)]

def all (settings : Settings) : Value := settings.paramsValue.withField "exchange" settings.exchangeValue

end Settings

def configure (params : Value) : Work Unit := do
  let params ← params.copied
  let exchange ← (← params.item "exchange").copied
  modify fun s => { s with exchange, params := params.withoutField "exchange" }

def connectionParams : Work (List (String × Value)) := do
  let params := (← get).params
  let host ← params.item "host"
  let port ← params.item "port"
  let virtualHost ← params.item "virtual_host"
  let username ← params.item "username"
  let password ← params.item "password"
  return [
    ("host", host), ("port", port), ("virtual_host", virtualHost),
    ("credentials", .record [("username", username), ("password", password)]),
    ("heartbeat", .int 600), ("blocked_connection_timeout", .int 300)]

def threadConnection (thread : Nat) : Work Nat := do
  let s ← get
  let kept := (s.connectionOf.lookup thread).filter s.isConnected
  match kept with
  | some connection => return connection
  | none =>
    call "connect" (← connectionParams)
    let s ← get
    let connection := s.connections.length
    set { s with
      connections := s.connections ++ [true]
      connectionOf := (thread, connection) :: s.connectionOf.filter (·.1 != thread) }
    return connection

/-- The open channel of a thread, a new one if need be. -/
def threadChannel (thread : Nat) : Work Nat := do
  let connection ← threadConnection thread
  let s ← get
  let kept := (s.channelOf.lookup thread).filter s.isOpen
  match kept with
  | some channel => return channel
  | none =>
    call "channel" []
    let s ← get
    let channel := s.channels.length
    set { s with
      channels := s.channels ++ [({ connection } : Channel)]
      channelOf := (thread, channel) :: s.channelOf.filter (·.1 != thread) }
    return channel

def declareQueues (channel : Nat) : Work Unit := do
  let exchange := (← get).exchange
  let name ← exchange.item "exchange"
  let type ← exchange.item "type"
  let durable ← exchange.item "durable"
  call "exchange_declare" [("exchange", name), ("exchange_type", type), ("durable", durable)] channel
  for queue in ← (← exchange.item "queues").items do
    let queueName ← queue.item "queue"
    let durable ← queue.item "durable"
    call "queue_declare" [("queue", queueName), ("durable", durable)] channel
    let key ← queue.item "routing_key"
    call "queue_bind" [("exchange", name), ("queue", queueName), ("routing_key", key)] channel

def readyChannel (thread : Nat) : Work Nat := do
  let channel ← threadChannel thread
  declareQueues channel
  return channel

def closeChannel (channel : Nat) : Work Unit := do
  modify (·.closeChannel channel)
  call "channel.close" [] channel

def disconnectThread (thread : Nat) : Work Unit := do
  let s ← get
  match (s.connectionOf.lookup thread).filter s.isConnected with
  | none => pure ()
  | some connection =>
    modify (·.closeConnection connection)
    call "connection.close" []
    modify fun s => { s with connectionOf := s.connectionOf.filter (·.1 != thread) }

def closeThread (thread : Nat) : Work Unit := do
  let s ← get
  match (s.channelOf.lookup thread).filter s.isOpen with
  | none => pure ()
  | some channel =>
    closeChannel channel
    modify fun s => { s with channelOf := s.channelOf.filter (·.1 != thread) }
  disconnectThread thread

def dropChannels : Work Unit :=
  modify fun s => s.channelOf.foldl (fun s (_, c) => s.closeChannel c) s

def dropConnections : Work Unit :=
  modify fun s => s.connectionOf.foldl (fun s (_, c) => s.closeConnection c) s

end SheetMill.Broker
