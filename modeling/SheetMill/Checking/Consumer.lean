import SheetMill.Broker.Connections
import SheetMill.Remote

/-!
# Consuming a queue

A consumer connects to the broker and waits for deliveries. When the connection breaks it waits and
connects again, up to a number of times; a stable session starts the count anew.
-/

namespace SheetMill.Checking

/-- What a consumer works on. -/
structure Consuming where
  broker : Broker.State
  remote : Remote := {}
  channel : Option Nat := none

instance : Journaled Consuming :=
  ⟨fun line s => { s with broker := Journaled.addLine line s.broker }⟩

/-- A consumer of requests. -/
structure Consumer where
  thread : Nat := 0
  database : Nat := 0
  policy : RetryPolicy
  threshold : Value
  queue : String
  prefetch : Value := .int 1
  source : String
  title : String
  name : String
  formalName : String
  farewell : String

def schemaConsumer (policy : RetryPolicy) (threshold : Value) (thread : Nat := 0) : Consumer :=
  { thread, policy, threshold, queue := "typechecking.schemas.queue", source := "Typechecking.schemas"
    title := "Schema worker", name := "schema worker", formalName := "SchemaWorker"
    farewell := "Stopping schema Worker..." }

def validationConsumer (policy : RetryPolicy) (threshold : Value) (thread : Nat := 0) : Consumer :=
  { thread, policy, threshold, queue := "typechecking.validations.queue"
    source := "Typechecking.validation", title := "Validation worker", name := "validation worker"
    formalName := "ValidationWorker", farewell := "Stopping validation worker..." }

namespace Consumer

def onBroker {α : Type} (work : Broker.Work α) : Act Consuming α :=
  Act.within Consuming.broker (fun broker s => { s with broker }) work

def say (consumer : Consumer) (severity : Severity) (text : String) : Act Consuming Unit :=
  note consumer.source severity text

/-- Lets go of everything; what cannot be closed is only told. -/
def stop (consumer : Consumer) : Act Consuming Unit :=
  Act.handle (do
    consumer.say .info consumer.farewell
    Act.within Consuming.remote (fun remote s => { s with remote })
      (Remote.disconnect consumer.database)
    let s ← get
    match s.channel.filter s.broker.isOpen with
    | none => pure ()
    | some channel =>
      onBroker (Broker.call "stop_consuming" [] channel)
      onBroker (Broker.closeThread consumer.thread)
      consumer.say .info (consumer.formalName ++ ": Connections closed"))
    fun f => consumer.say .error (consumer.formalName ++ ": Error closing connections: " ++ f.message)

def clock : Act Consuming Amount := return (← get).broker.clock

/-- One session: connects, and takes deliveries until there are no more. -/
def session (consumer : Consumer) (since : Amount) : Act Consuming (Outcome Unit × Amount) := do
  let opened ← Act.attempt do
    let _ ← onBroker (Broker.threadConnection consumer.thread)
    let channel ← onBroker (Broker.threadChannel consumer.thread)
    modify fun s => { s with channel := some channel }
    onBroker (Broker.declareQueues channel)
    onBroker (Broker.call "basic_qos" [("prefetch_count", consumer.prefetch)] channel)
    onBroker (Broker.call "basic_consume"
      [("queue", .text consumer.queue), ("auto_ack", .bool false)] channel)
    consumer.say .info (consumer.title ++ " started. Waiting for messages...")
    consumer.say .debug (consumer.title ++ " connected to RabbitMQ in " ++
      Decimal.fixedText 2 ((← clock).minus since).toFloat ++ "s.")
    return channel
  match opened with
  | .error f => return (.error f, since)
  | .ok channel =>
    let since ← clock
    let ended ← Act.attempt do
      onBroker (Broker.call "start_consuming" [] channel)
      consumer.say .info (consumer.title ++ " stopped consuming messages.")
    return (ended, since)

/-- The fault of a session that may be followed by another. -/
def passing? : Outcome Unit → Option Fault
  | .ok () | .error (.broker .general _) => none
  | .error (.broker fault detail) => some (.broker fault detail)
  | .error _ => none

/-- The failures in a row, and the next wait. -/
structure Patience where
  failures : Nat := 0
  delay : Value

def isStable (consumer : Consumer) (uptime : Amount) : Outcome Bool :=
  uptime.toValue.atLeast consumer.threshold

/-- Waits after a session that broke. A stable session starts the count anew. -/
def pause (consumer : Consumer) (patience : Patience) (uptime : Amount) (f : Fault) :
    Act Consuming Patience := do
  let isStable ← consumer.isStable uptime
  let patience := if isStable then { delay := consumer.policy.delay } else patience
  if isStable then
    consumer.say .info ("Connection was stable for " ++ Decimal.fixedText 1 uptime.toFloat ++
      "s. Resetting retry counter.")
  consumer.say .warning (consumer.title ++ " connection error (attempt " ++
    toString (patience.failures + 1) ++ "/" ++ consumer.policy.attempts.plain ++ "): " ++
    f.literal ++ ". Retrying in " ++ patience.delay.plain ++ "s...")
  onBroker (Broker.sleep patience.delay)
  return ⟨patience.failures + 1, ← patience.delay.mul consumer.policy.backoff⟩

/-- What follows a session that is the last one. -/
def conclude (consumer : Consumer) : Outcome Unit → Act Consuming Unit
  | .ok () => pure ()
  | .error .interrupted => do
    consumer.say .info (consumer.title ++ " interrupted by user.")
    consumer.stop
  | .error f => do
    if !f.isOrdinary then throw f
    consumer.say .error ("Error starting " ++ consumer.name ++ ": " ++ f.literal)
    consumer.stop
    throw (.exit 1)

def sessions (consumer : Consumer) : Nat → Patience → Act Consuming Unit
  | 0, _ => pure ()
  | fuel + 1, patience => do
    if ← (Value.int patience.failures).less consumer.policy.attempts then
      let (ended, since) ← consumer.session (← clock)
      match passing? ended with
      | some f => sessions consumer fuel (← consumer.pause patience ((← clock).minus since) f)
      | none => consumer.conclude ended

/-- How many sessions there are at most: each but the last is broken by a planned failure. -/
def maxSessions (s : Consuming) : Nat := Outage.total s.broker.outages + 1

def run (consumer : Consumer) : Act Consuming Unit := do
  consumer.say .info ("Starting " ++ consumer.name ++ "...")
  consumer.sessions (maxSessions (← get)) { delay := consumer.policy.delay }
  consumer.stop

end Consumer

end SheetMill.Checking
