import SheetMill.Deployment.Programs

/-!
# The command line

`sheetmill COMPONENT PROGRAM` runs a program of a component with its default settings.
-/

namespace SheetMill.Deployment

def shownLine (line : Line) : String := "[" ++ line.severity.name ++ "] " ++ line.text

def exitCode : Outcome Unit → UInt32
  | .ok () => 0
  | .error (.exit code) => code.toNat.toUInt32
  | .error _ => 1

def usage : String :=
  "usage: sheetmill COMPONENT PROGRAM\n" ++ "\n".intercalate (Component.named.map fun (name, k) =>
    "  " ++ name ++ ": " ++ " ".intercalate ((programs k [] {}).map (·.1)))

def named? : List String → Option (Program Unit)
  | [component, program] => do
    let k ← Component.named.lookup component
    (programs k k.settings {}).lookup program
  | _ => none

end SheetMill.Deployment

open SheetMill Deployment in
def main (args : List String) : IO UInt32 := do
  match named? args with
  | none =>
    IO.eprintln usage
    return 2
  | some program =>
    let (r, s) := program.outcome { levels := standardLevels }
    IO.print s.printed
    s.journal.forM fun line => IO.eprintln (shownLine line)
    if let .error f := r then IO.eprintln (f.label ++ ": " ++ f.message)
    return exitCode r
