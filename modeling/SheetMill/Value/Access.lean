import SheetMill.Decimal.Reading
import SheetMill.Fault
import SheetMill.Text.Search

/-!
# Looking into values

Access to the parts of a value, with the fault that arises when the value has no such part or is of
a kind that has no parts.
-/

namespace SheetMill.Value

def partFault (v : Value) (key : Value) : Fault :=
  match v with
  | map _ => .missingKey key
  | list _ => .wrongKind ("list indices must be integers or slices, not " ++ key.kindName)
  | text _ => .wrongKind ("string indices must be integers, not '" ++ key.kindName ++ "'")
  | bytes _ => .wrongKind ("byte indices must be integers or slices, not " ++ key.kindName)
  | v => .wrongKind ("'" ++ v.kindName ++ "' object is not subscriptable")

def item (v : Value) (name : String) : Outcome Value :=
  match v.field? name with
  | some w => .ok w
  | none => .error (v.partFault (.text name))

def isKey : Value → Bool
  | list _ | map _ => false
  | _ => true

def keyFault (v : Value) : Fault := .wrongKind ("unhashable type: '" ++ v.kindName ++ "'")

def memberFault (v : Value) (member : String) : Fault :=
  .noMember ("'" ++ v.kindName ++ "' object has no attribute '" ++ member ++ "'")

def getD (v : Value) (name : String) (default : Value) : Outcome Value :=
  match v with
  | map entries => .ok ((findEntry (.text name) entries).getD default)
  | v => .error (v.memberFault "get")

def entriesAs (v : Value) (member : String) : Outcome (List (Value × Value)) :=
  match v with
  | map entries => .ok entries
  | v => .error (v.memberFault member)

def iterationFault (v : Value) : Fault :=
  .wrongKind ("'" ++ v.kindName ++ "' object is not iterable")

/-- The items that going through the value yields: those of a list, the keys of a map, the
characters of a text, the numbers of octets. -/
def items (v : Value) : Outcome (List Value) :=
  match v with
  | list xs => .ok xs
  | map entries => .ok (entries.map (·.1))
  | text s => .ok (s.toList.map fun c => .text (String.ofList [c]))
  | bytes octets => .ok (octets.map fun o => .int o.toNat)
  | v => .error v.iterationFault

def copied (v : Value) : Outcome Value :=
  match v with
  | map _ | list _ => .ok v
  | v => .error (v.memberFault "copy")

def size (v : Value) : Outcome Nat :=
  match v with
  | list xs => .ok xs.length
  | map entries => .ok entries.length
  | text s => .ok s.length
  | bytes octets => .ok octets.length
  | v => .error (.wrongKind ("object of type '" ++ v.kindName ++ "' has no len()"))

def textAs (v : Value) (member : String) : Outcome String :=
  match v with
  | text s => .ok s
  | v => .error (v.memberFault member)

/-- The position in a list of the given length that an index means, counted from the end if it is
negative. -/
def position? (length : Nat) (index : Int) : Option Nat :=
  let i := if index < 0 then index + length else index
  if 0 ≤ i ∧ i < length then some i.toNat else none

def at_ (v : Value) (index : Int) : Outcome Value :=
  match v with
  | list xs =>
    match position? xs.length index with
    | some i => .ok (xs.getD i .null)
    | none => .error (.badIndex "list index out of range")
  | text s =>
    match position? s.length index with
    | some i => .ok (.text (String.ofList ((s.toList.drop i).take 1)))
    | none => .error (.badIndex "string index out of range")
  | bytes octets =>
    match position? octets.length index with
    | some i => .ok (.int (octets.getD i 0).toNat)
    | none => .error (.badIndex "index out of range")
  | map entries =>
    match findEntry (.int index) entries with
    | some w => .ok w
    | none => .error (.missingKey (.int index))
  | v => .error (.wrongKind ("'" ++ v.kindName ++ "' object is not subscriptable"))

def under (v key : Value) : Outcome Value :=
  match v, key.asInt? with
  | map entries, _ =>
    if key.isKey then
      match findEntry key entries with
      | some w => .ok w
      | none => .error (.missingKey key)
    else .error key.keyFault
  | v, some i => v.at_ i
  | v, none => .error (v.partFault key)

def octetChar (o : UInt8) : Char := Char.ofNat o.toNat

def holds (v w : Value) : Outcome Bool :=
  match v with
  | map entries =>
    if w.isKey then .ok (findEntry w entries).isSome
    else .error w.keyFault
  | list xs => .ok (xs.any fun x => same x w)
  | text s =>
    match w with
    | text t => .ok (Text.contains s t)
    | w => .error (.wrongKind
        ("'in <string>' requires string as left operand, not " ++ w.kindName))
  | bytes octets =>
    match w with
    | bytes part => .ok (Text.occursIn (part.map octetChar) (octets.map octetChar))
    | w =>
      match w.asInt? with
      | some i =>
        if 0 ≤ i ∧ i < 256 then .ok (octets.any fun o => (o.toNat : Int) == i)
        else .error (.badValue "byte must be in range(0, 256)")
      | none => .error (.wrongKind
          ("a bytes-like object is required, not '" ++ w.kindName ++ "'"))
  | v => .error (.wrongKind ("argument of type '" ++ v.kindName ++ "' is not iterable"))

def asciiText? (octets : List UInt8) : Option String :=
  if octets.all (· < 128) then
    some (String.ofList (octets.map octetChar))
  else none

/-- The value as a text of its own; an integer has one as long as it could be read back. -/
def toText (v : Value) : Outcome String :=
  match v with
  | int i =>
    if i.natAbs < Nat.pow 10 Decimal.maxIntegerDigits then .ok v.plain
    else .error (.badValue Decimal.tooLongToWrite)
  | v => .ok v.plain

def toFloat (v : Value) : Outcome Float :=
  match v with
  | float x => .ok x
  | bool b => .ok (if b then 1.0 else 0.0)
  | int i =>
    match Decimal.ofInt? i with
    | some x => .ok x
    | none => .error (.overflow "int too large to convert to float")
  | text s =>
    match Decimal.readFloat? s with
    | some x => .ok x
    | none => .error (.badValue ("could not convert string to float: " ++ Text.quote s))
  | bytes octets =>
    match (asciiText? octets).bind Decimal.readFloat? with
    | some x => .ok x
    | none => .error (.badValue ("could not convert string to float: " ++ v.literal))
  | v =>
    .error (.wrongKind
      ("float() argument must be a string or a real number, not '" ++ v.kindName ++ "'"))

/-- The integer that a text or octets denote; the notation of a value that is none is shown up to
its two hundredth character. -/
def readAsInt (v : Value) (s : String) : Outcome Int :=
  match Decimal.readInt s with
  | .number i => .ok i
  | .tooLong digits => .error (.badValue (Decimal.tooLongMessage digits))
  | .malformed => .error (.badValue ("invalid literal for int() with base 10: " ++
      String.ofList (v.literal.toList.take 200)))

/-- The integer that a value is; a number is cut towards zero and a text is read as one. -/
def toInt (v : Value) : Outcome Int :=
  match v with
  | int i => .ok i
  | bool b => .ok (if b then 1 else 0)
  | float x =>
    match Decimal.Magnitude.ofFloat x with
    | .finite b => .ok b.truncate
    | .infinite _ => .error (.overflow "cannot convert float infinity to integer")
    | .undefined => .error (.badValue "cannot convert float NaN to integer")
  | text s => v.readAsInt s
  | bytes octets => v.readAsInt ((asciiText? octets).getD "")
  | v =>
    .error (.wrongKind ("int() argument must be a string, a bytes-like object or a real number, not '"
      ++ v.kindName ++ "'"))

end SheetMill.Value
