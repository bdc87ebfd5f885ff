import SheetMill.Text.Casing
import SheetMill.Value.Access

/-!
# Cell references

A cell is named by the letters of its column and the digits of its row, as in `BC25`. The letters
are the digits of a system with base twenty-six that has no zero.
-/

namespace SheetMill.Sheet

open Text

def columnOf (cell : String) : String := String.ofList (cell.toList.filter isLetter)

/-- The index of a column given by its capital letters, from one on. -/
def indexOfChars (letters : List Char) : Int :=
  letters.foldl (fun index c => index * 26 + ((c.toNat : Int) - 64)) 0

def columnIndex (column : String) : Int := indexOfChars (upper column).toList

/-- The letters of the column with the given index; zero is written with the character before
`A`. -/
def columnChars (index : Nat) : List Char :=
  if index ≤ 26 then [Char.ofNat (64 + index)]
  else columnChars ((index - 1) / 26) ++ [Char.ofNat (65 + (index - 1) % 26)]
termination_by index
decreasing_by omega

/-- The name of the column with the given index. -/
def columnName (index : Int) : Outcome String :=
  if 0 ≤ index then .ok (String.ofList (columnChars index.toNat))
  else if -64 ≤ index then .ok (String.ofList [Char.ofNat (64 + index).toNat])
  else if -0x80000000 ≤ 64 + index then .error (.badValue "chr() arg not in range(0x110000)")
  else .error (.overflow "signed integer is less than minimum")

def interval (first last : Int) : List Int :=
  (List.range (last + 1 - first).toNat).map fun (i : Nat) => first + (i : Int)

def columnRange (start stop : String) : Outcome (List String) :=
  (interval (columnIndex start) (columnIndex stop)).mapM columnName

def piecesOf (kind : Char → Bool) (cell : Value) : Outcome String := do
  let pieces ← (← cell.items).mapM fun piece =>
    match piece with
    | .text s => pure (if !s.isEmpty && s.toList.all kind then s else "")
    | v => throw (.wrongKind ("descriptor for 'str' objects doesn't apply to a '" ++ v.kindName ++
        "' object"))
  return join "" pieces

def columnIn (cell : Value) : Outcome String := piecesOf isLetter cell

def rowIn (cell : Value) : Outcome Int := do Value.toInt (.text (← piecesOf isDigit cell))

def indexIn (column : Value) : Outcome Int :=
  match column with
  | .text s => .ok (columnIndex s)
  | .bytes [] => .ok 0
  | .bytes _ => .error (.wrongKind "ord() expected string of length 1, but int found")
  | v => .error (v.memberFault "upper")

def nameIn (index : Value) : Outcome String :=
  match index with
  | .float x =>
    if x.isNaN || x.isInf && 0 < x then .error .tooDeep
    else .error (.wrongKind "'float' object cannot be interpreted as an integer")
  | v =>
    match v.asInt? with
    | some i => columnName i
    | none => .error (.wrongKind ("'<=' not supported between instances of '" ++ v.kindName ++
        "' and 'int'"))

def columnsIn (start stop : Value) : Outcome (List String) := do
  let first ← indexIn start
  (interval first (← indexIn stop)).mapM columnName

def rowsIn (start stop : Value) : Outcome (List Int) := do
  return interval (← rowIn start) (← rowIn stop)

def cellsIn (start stop : Value) : Outcome (List String) := do
  let first ← columnIn start
  let columns ← columnRange first (← columnIn stop)
  let rows ← rowsIn start stop
  return columns.flatMap fun column => rows.map fun row => column ++ toString row

end SheetMill.Sheet
