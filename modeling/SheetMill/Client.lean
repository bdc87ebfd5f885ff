import SheetMill.Message.Catalogue
import SheetMill.Remote

/-!
# The client of the database service

The client keeps one channel. A call that fails remotely is tried again on a new channel, which is
opened after the old one was closed.
-/

namespace SheetMill

/-- A client of the database service. -/
structure Client where
  address : String
  policy : RetryPolicy
  source : String

namespace Client

def start (client : Client) : Act Remote Unit := discard (Remote.connect client.address)

def close : Act Remote Unit := do Remote.disconnect (← get).current

def reconnect (client : Client) : Act Remote Unit := do
  close.handle fun _ => pure ()
  client.start

def path (call : Message.Call) : String := "/database_service.DatabaseService/" ++ call.name

def exchange (call : Message.Call) (request : Value) : Act Remote Value := do
  let octets ← call.request.write .asInserted request
  call.response.read (← Remote.send (path call) octets)

def isRemote : Fault → Bool
  | .rpc _ _ => true
  | _ => false

def describe : Fault → String
  | .rpc status details => "StatusCode." ++ status.name ++ " - " ++ details
  | f => f.message

section Retrying

variable {α : Type} (client : Client) (name : String)

def say (severity : Severity) (text : String) : Act Remote Unit :=
  note client.source severity ("[DatabaseClient] " ++ text)

def plan : Retry.Plan Remote :=
  let attempts := client.policy.attempts.plain
  { mayPass := isRemote
    between := fun n delay f => do
      client.say .warning (name ++ " failed (attempt " ++ toString n ++ "/" ++ attempts ++ "): " ++
        describe f ++ ". Retrying in " ++ delay.plain ++ "s...")
      Remote.sleep delay
    afterLast := fun f =>
      client.say .warning (name ++ " failed after " ++ attempts ++ " attempts: " ++ describe f) }

def attempt (operation : Nat → Act Remote α) (n : Nat) : Act Remote α := do
  if 1 < n then
    client.say .info ("Reinitializing channel for " ++ name ++ " (attempt " ++ toString n ++ "/" ++
      client.policy.attempts.plain ++ ")")
    client.reconnect
  operation n

def persist (operation : Nat → Act Remote α) : Act Remote α :=
  retry client.policy (client.plan name) (client.attempt name operation)

end Retrying

def call (client : Client) (call : Message.Call) (request : Value) : Act Remote Value :=
  client.persist call.name fun _ => exchange call request

end Client

end SheetMill
