import SheetMill.Journal
import SheetMill.Value.Order
import SheetMill.Wire.Codec

/-!
# Remote calls

A call over a channel sends the octets of a request under a path and takes the next reply.
-/

namespace SheetMill

/-! ## Retrying -/

/-- How often an operation is tried, and how long to wait in between. -/
structure RetryPolicy where
  attempts : Value := .int 5
  delay : Value := .float 0.5
  backoff : Value := .float 2.0
  deriving Repr, Inhabited

def RetryPolicy.count (policy : RetryPolicy) : Outcome Nat :=
  match policy.attempts.asInt? with
  | some n => .ok n.toNat
  | none => .error (Value.operandFault "+" policy.attempts (.int 1))

namespace Retry

variable {σ α : Type}

/-- What is retried, and what is done about a failure. -/
structure Plan (σ : Type) where
  mayPass : Fault → Bool
  /-- What follows an attempt that failed and is not the last: its number, the wait and the
  fault. -/
  between : Nat → Value → Fault → Act σ Unit
  afterLast : Fault → Act σ Unit := fun _ => pure ()

def noAttempt : Fault := .wrongKind "exceptions must derive from BaseException"

/-- The outcome of up to `left` attempts, the next of which has the number `n` and would be followed
by the wait `delay`. -/
def attemptFrom (plan : Plan σ) (backoff : Value) (attempt : Nat → Act σ α) :
    (left n : Nat) → (delay : Value) → Act σ α
  | 0, _, _ => throw noAttempt
  | left + 1, n, delay => do
    match ← (attempt n).attempt with
    | .ok a => return a
    | .error f =>
      if plan.mayPass f then
        if left = 0 then
          plan.afterLast f
          throw f
        plan.between n delay f
        attemptFrom plan backoff attempt left (n + 1) (← delay.mul backoff)
      else throw f

end Retry

/-- Attempts something as often as the policy allows. -/
def retry {σ α : Type} (policy : RetryPolicy) (plan : Retry.Plan σ) (attempt : Nat → Act σ α) :
    Act σ α := do
  Retry.attemptFrom plan policy.backoff attempt (← policy.count) 1 policy.delay

/-! ## Remote calls -/

/-- How a call is answered. -/
inductive Reply where
  | answer (octets : Wire.Octets)
  | failure (fault : Fault)
  /-- The answer of a service to the request, and what the service wrote to the journal. -/
  | served (serve : Wire.Octets → Outcome Wire.Octets × Journal)

/-- The other end of remote calls. -/
structure Remote where
  addresses : List String := []
  /-- The numbers of the channels that were closed, one for each time; the first channel has the
  number zero. -/
  closings : List Nat := []
  sent : List (String × Wire.Octets) := []
  replies : List Reply := []
  outages : List (Outage Fault) := []
  sleeps : List Value := []
  journal : Journal := []

namespace Remote

instance : Journaled Remote := ⟨fun line s => { s with journal := s.journal ++ [line] }⟩

def closed (s : Remote) : Nat := s.closings.length

def current (s : Remote) : Nat := s.addresses.length - 1

def connect (address : String) : Act Remote Nat := do
  modify fun s => { s with addresses := s.addresses ++ [address] }
  return (← get).current

def disconnect (channel : Nat) : Act Remote Unit := do
  let s ← get
  let (effect, outages) := Outage.strike "channel" "close" s.outages
  set { s with closings := s.closings ++ [channel], outages }
  match effect with
  | none => pure ()
  | some fault => throw fault

def sleep (seconds : Value) : Act Remote Unit :=
  modify fun s => { s with sleeps := s.sleeps ++ [seconds] }

def send (path : String) (request : Wire.Octets) : Act Remote Wire.Octets := do
  modify fun s => { s with sent := s.sent ++ [(path, request)] }
  let s ← get
  match s.replies with
  | [] => throw (.badIndex "pop from empty list")
  | reply :: replies =>
    set { s with replies }
    match reply with
    | .answer octets => return octets
    | .failure fault => throw fault
    | .served serve =>
      let (answer, lines) := serve request
      modify fun s => { s with journal := s.journal ++ lines }
      answer

end Remote

end SheetMill
