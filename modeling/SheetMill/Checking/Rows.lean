import SheetMill.Value.Order

/-!
# Checking rows

The rows are cut into chunks of equal size, and each chunk is checked on its own. The findings of a
chunk number its items from zero; in the report they are renumbered.
-/

namespace SheetMill.Checking

/-- What rows are checked with: it tells what is wrong with a value by a schema, if anything is, and
fails on what is no schema. -/
abbrev Validator := Value → Value → Outcome (Option String)

/-- What is said of a row that fails. -/
def finding (position : Nat) (message : String) : String :=
  "Item " ++ toString position ++ ": " ++ message

/-- What is found in rows, the first of which has the given position. -/
def findingsFrom (validator : Validator) (schema : Value) (position : Nat) :
    List Value → Outcome (List String)
  | [] => .ok []
  | row :: rest => do
    let violation ← validator schema row
    let others ← findingsFrom validator schema (position + 1) rest
    return (violation.map (finding position)).toList ++ others

/-- What is found in a chunk. -/
def findings (validator : Validator) (schema : Value) (rows : List Value) : Outcome (List String) :=
  findingsFrom validator schema 0 rows

def chunksOf (sizeLessOne : Nat) (rows : List Value) : List (List Value) :=
  match rows with
  | [] => []
  | row :: rest =>
    (row :: rest.take sizeLessOne) :: chunksOf sizeLessOne (rest.drop sizeLessOne)
termination_by rows.length
decreasing_by simp only [List.length_drop, List.length_cons]; omega

def chunkWeight : Nat := 3

def numberOf (text : String) : Option Int :=
  Decimal.readInt? (Text.replace ((Text.split text ':').headD "") "Item " "")

def renumber (start : Nat) (text : String) : String :=
  match numberOf text with
  | some n =>
    Text.replace text ("Item " ++ toString n ++ ":") ("Item " ++ toString (start + n) ++ ":")
  | none => text

/-- How many rows there are, how many are valid, and what is wrong with the others. -/
structure Report where
  total : Int
  valid : Int
  errors : List String
  deriving Repr, DecidableEq

namespace Report

def shown : Nat := 50

def toValue (r : Report) : Value :=
  .record [
    ("is_valid", .bool r.errors.isEmpty),
    ("total_items", .int r.total),
    ("valid_items", .int r.valid),
    ("invalid_items", .int (r.total - r.valid)),
    ("errors", .texts (r.errors.take shown))]

end Report

def merge (found : List (List String)) : List String × Int :=
  let errors := (found.zipIdx.map fun (texts, i) => texts.map (renumber (chunkWeight * i))).flatten
  let valid := (found.map fun texts => (chunkWeight : Int) - texts.length).foldr (· + ·) 0
  (errors, valid)

def rowsOf : Value → Outcome (List Value)
  | .map _ => .error (.wrongKind "unhashable type: 'slice'")
  | v => v.items

/-- The size of a chunk for a number of rows and of workers: what falls to each worker, but at least
one row. -/
def chunkSize (count : Nat) (workers : Value) : Outcome Nat :=
  match workers.asInt?, workers with
  | some n, _ =>
    if n = 0 then .error (.zeroDivision "integer division or modulo by zero")
    else .ok (max 1 ((count : Int).fdiv n)).toNat
  | none, .float x =>
    if x == 0.0 then .error (.zeroDivision "float floor division by zero")
    else if 0.0 < x && 2.0 * x ≤ Float.ofNat count then
      .error (.wrongKind "'float' object cannot be interpreted as an integer")
    else .ok 1
  | none, v => .error (Value.operandFault "//" (.int count) v)

/-- Gathers up to the given number of workers for some chunks. -/
def gather (workers : Value) (chunks : Nat) : Outcome Unit := do
  let workers ← workers.smaller (.int chunks)
  if ← workers.less (.int 1) then throw (.badValue "Number of processes must be at least 1")
  if workers.asInt?.isNone then
    throw (.wrongKind ("'" ++ workers.kindName ++ "' object cannot be interpreted as an integer"))

/-- The report on rows that are checked in chunks, by a number of workers. -/
def checkRows (validator : Validator) (rows schema workers : Value) : Outcome Report := do
  if !rows.truthy then return ⟨0, 0, []⟩
  let count ← rows.size
  let size ← chunkSize count workers
  let items ← rowsOf rows
  let chunks := chunksOf (size - 1) items
  gather workers chunks.length
  let found ← chunks.mapM (findings validator schema)
  let (errors, valid) := merge found
  let width ← (items.headD .null).size
  return ⟨count * width, valid, errors⟩

/-- What a single worker gives back for a chunk and its number. -/
def checkChunk (validator : Validator) (rows schema index : Value) : Outcome Value := do
  let errors ← findings validator schema (← rows.items)
  return .list [index, .bool errors.isEmpty, .texts errors]

end SheetMill.Checking
