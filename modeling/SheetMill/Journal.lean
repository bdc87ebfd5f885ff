import SheetMill.Value.Access

/-!
# The journal

What a service tells about its work, line by line. A component keeps only the lines that are at
least as severe as its threshold.
-/

namespace SheetMill

/-- How severe a line is. -/
inductive Severity where
  | debug | info | warning | error | critical
  deriving Repr, DecidableEq, Inhabited

namespace Severity

def name : Severity → String
  | debug => "DEBUG"
  | info => "INFO"
  | warning => "WARNING"
  | error => "ERROR"
  | critical => "CRITICAL"

def rank : Severity → Nat
  | debug => 10
  | info => 20
  | warning => 30
  | error => 40
  | critical => 50

def all : List Severity := [debug, info, warning, error, critical]

def ofName? (name : String) : Option Severity := all.find? (·.name == name)

end Severity

/-- A line of a journal. -/
structure Line where
  source : String
  severity : Severity
  text : String
  deriving Repr, DecidableEq, Inhabited

abbrev Journal := List Line

def Journal.above (threshold : Severity) (journal : Journal) : Journal :=
  journal.filter fun line => threshold.rank ≤ line.severity.rank

/-- States that hold a journal. -/
class Journaled (σ : Type) where
  addLine : Line → σ → σ

instance : Journaled Journal := ⟨fun line journal => journal ++ [line]⟩

namespace Act

variable {σ τ α : Type}

def ofOutcome (r : Outcome α) : Act σ α := fun s =>
  match r with
  | .ok a => .ok a s
  | .error f => .error f s

instance : MonadLift Outcome (Act σ) := ⟨ofOutcome⟩

def attempt (act : Act σ α) : Act σ (Outcome α) := fun s =>
  match act s with
  | .ok a s => .ok (.ok a) s
  | .error f s => .ok (.error f) s

def within (part : τ → σ) (put : σ → τ → τ) (act : Act σ α) : Act τ α := fun t =>
  match act (part t) with
  | .ok a s => .ok a (put s t)
  | .error f s => .error f (put s t)

/-- Runs a computation and hands an ordinary fault to the handler; requests to stop pass
through. -/
def handle (act : Act σ α) (handler : Fault → Act σ α) : Act σ α := fun s =>
  match act s with
  | .ok a s => .ok a s
  | .error f s => if f.isOrdinary then handler f s else .error f s

def andThen (act : Act σ α) (last : Act σ Unit) : Act σ α := fun s =>
  match act s with
  | .ok a s =>
    match last s with
    | .ok () s => .ok a s
    | .error f s => .error f s
  | .error f s =>
    match last s with
    | .ok () s => .error f s
    | .error g s => .error g s

def outcome (act : Act σ α) (s : σ) : Outcome α × σ :=
  match act s with
  | .ok a s => (.ok a, s)
  | .error f s => (.error f, s)

end Act

def note {σ : Type} [Journaled σ] (source : String) (severity : Severity) (text : String) :
    Act σ Unit :=
  modify (Journaled.addLine ⟨source, severity, text⟩)

end SheetMill
