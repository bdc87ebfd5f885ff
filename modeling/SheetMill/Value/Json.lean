import SheetMill.Decimal.Reading
import SheetMill.Fault
import SheetMill.Text.Search

/-!
# JSON text of values

Values as JSON, on one line or indented, and JSON read back. Texts are written in ASCII, all other
characters by the units of their UTF-16 form.
-/

namespace SheetMill.Value

open Text

def jsonUnit (n : Nat) : List Char := ['\\', 'u'] ++ hexDigits n 4

def jsonChar (c : Char) : List Char :=
  let n := c.toNat
  if c = '"' then ['\\', '"']
  else if c = '\\' then ['\\', '\\']
  else if c = '\n' then ['\\', 'n']
  else if c = '\r' then ['\\', 'r']
  else if c = '\t' then ['\\', 't']
  else if n = 8 then ['\\', 'b']
  else if n = 12 then ['\\', 'f']
  else if 32 ≤ n ∧ n < 127 then [c]
  else if n < 0x10000 then jsonUnit n
  else jsonUnit (0xD800 + (n - 0x10000) / 0x400) ++ jsonUnit (0xDC00 + (n - 0x10000) % 0x400)

def jsonText (s : String) : String :=
  "\"" ++ String.ofList (s.toList.flatMap jsonChar) ++ "\""

def jsonInteger (i : Int) : Outcome String :=
  if i.natAbs < Nat.pow 10 Decimal.maxIntegerDigits then .ok (toString i)
  else .error (.badValue Decimal.tooLongToWrite)

def jsonKey : Value → Outcome String
  | text s => .ok s
  | int i => jsonInteger i
  | float x => .ok (Decimal.json.text x)
  | bool b => .ok (if b then "true" else "false")
  | null => .ok "null"
  | v => .error (.wrongKind ("keys must be str, int, float, bool or None, not " ++ v.kindName))

/-- How JSON is spread over lines: nothing for one line, else the width of an indentation step. -/
abbrev JsonShape := Option Nat

def jsonBreak (shape : JsonShape) (depth : Nat) : String :=
  match shape with
  | none => ""
  | some width => "\n" ++ String.ofList (List.replicate (width * depth) ' ')

def jsonComma (shape : JsonShape) (depth : Nat) : String :=
  match shape with
  | none => ", "
  | some _ => "," ++ jsonBreak shape depth

def jsonEnclosed (shape : JsonShape) (depth : Nat) (first : String) (parts : List String)
    (last : String) : String :=
  first ++ jsonBreak shape (depth + 1) ++ join (jsonComma shape (depth + 1)) parts ++
    jsonBreak shape depth ++ last

mutual

def jsonAt (shape : JsonShape) (depth : Nat) : Value → Outcome String
  | null => .ok "null"
  | bool b => .ok (if b then "true" else "false")
  | int i => jsonInteger i
  | float x => .ok (Decimal.json.text x)
  | text s => .ok (jsonText s)
  | list items => do
    let parts ← jsonItems shape (depth + 1) items
    return if items.isEmpty then "[]" else jsonEnclosed shape depth "[" parts "]"
  | map entries => do
    let parts ← jsonEntries shape (depth + 1) entries
    return if entries.isEmpty then "\x7b\x7d" else jsonEnclosed shape depth "\x7b" parts "\x7d"
  | v => .error (.wrongKind ("Object of type " ++ v.kindName ++ " is not JSON serializable"))

def jsonItems (shape : JsonShape) (depth : Nat) : List Value → Outcome (List String)
  | [] => .ok []
  | v :: rest => do
    let first ← jsonAt shape depth v
    let others ← jsonItems shape depth rest
    return first :: others

def jsonEntries (shape : JsonShape) (depth : Nat) : List (Value × Value) → Outcome (List String)
  | [] => .ok []
  | (k, v) :: rest => do
    let name ← jsonKey k
    let value ← jsonAt shape depth v
    let others ← jsonEntries shape depth rest
    return (jsonText name ++ ": " ++ value) :: others

end

def toJson (v : Value) : Outcome String := jsonAt none 0 v

def toJsonIndented (width : Nat) (v : Value) : Outcome String := jsonAt (some width) 0 v

/-! ## Reading -/

/-- Why a text cannot be read as JSON. -/
inductive JsonTrouble where
  /-- The text is no JSON: what was wrong, and how many characters were left where that was seen. -/
  | wrong (reason : String) (left : Nat)
  | tooLong (digits : Nat)

abbrev JsonOutcome := Except JsonTrouble

def noJsonValue (cs : List Char) : JsonTrouble := .wrong "Expecting value" cs.length

def isJsonBlank (c : Char) : Bool := c = ' ' || c = '\t' || c = '\n' || c = '\r'

def takeUnit? : List Char → Option (Nat × List Char)
  | a :: b :: c :: d :: rest => do
    let a ← hexValue? a
    let b ← hexValue? b
    let c ← hexValue? c
    let d ← hexValue? d
    return (((a * 16 + b) * 16 + c) * 16 + d, rest)
  | _ => none

def escapedChar? : Char → Option Char
  | '"' => some '"'
  | '\\' => some '\\'
  | '/' => some '/'
  | 'b' => some (Char.ofNat 8)
  | 'f' => some (Char.ofNat 12)
  | 'n' => some '\n'
  | 'r' => some '\r'
  | 't' => some '\t'
  | _ => none

def takeEscapedUnit (cs : List Char) : JsonOutcome (Nat × List Char) :=
  match takeUnit? cs with
  | some (n, rest) =>
    if rest.isEmpty then .error (.wrong "Invalid \\uXXXX escape" (cs.length + 1)) else .ok (n, rest)
  | none => .error (.wrong "Invalid \\uXXXX escape" (cs.length + 1))

/-- The character of one or two escaped units, and what follows them. -/
def takeEscapedUnits (cs : List Char) : JsonOutcome (Char × List Char) := do
  let (n, rest) ← takeEscapedUnit cs
  if 0xD800 ≤ n ∧ n < 0xDC00 then
    match rest with
    | '\\' :: 'u' :: more =>
      if more.length ≤ 4 then return (Char.ofNat 0xFFFD, rest)
      let (m, tail) ← takeEscapedUnit more
      if 0xDC00 ≤ m ∧ m < 0xE000 then
        return (Char.ofNat (0x10000 + (n - 0xD800) * 0x400 + (m - 0xDC00)), tail)
      return (Char.ofNat 0xFFFD, rest)
    | _ => return (Char.ofNat 0xFFFD, rest)
  else if 0xDC00 ≤ n ∧ n < 0xE000 then return (Char.ofNat 0xFFFD, rest)
  else return (Char.ofNat n, rest)

/-- The characters of a JSON text up to its closing quote, and what follows it; `start` characters
were left at the opening quote. -/
def takeJsonText (start : Nat) (fuel : Nat) (cs : List Char) :
    JsonOutcome (List Char × List Char) :=
  match fuel, cs with
  | 0, _ | _, [] => .error (.wrong "Unterminated string starting at" start)
  | fuel + 1, c :: rest =>
    if c = '"' then .ok ([], rest)
    else if c = '\\' then
      match rest with
      | 'u' :: units => do
        let (d, tail) ← takeEscapedUnits units
        let (ds, tail) ← takeJsonText start fuel tail
        return (d :: ds, tail)
      | e :: tail =>
        match escapedChar? e with
        | some d => do
          let (ds, tail) ← takeJsonText start fuel tail
          return (d :: ds, tail)
        | none => .error (.wrong "Invalid \\escape" cs.length)
      | [] => .error (.wrong "Unterminated string starting at" start)
    else if c.toNat < 32 then .error (.wrong "Invalid control character at" cs.length)
    else do
      let (ds, tail) ← takeJsonText start fuel rest
      return (c :: ds, tail)

def takeAsciiDigits (cs : List Char) : List Char × List Char :=
  (cs.takeWhile Char.isDigit, cs.dropWhile Char.isDigit)

def asciiDigits (cs : List Char) : Nat := Decimal.ofDigits (cs.map fun c => c.toNat - 48)

def takeJsonExponent (cs : List Char) : Option (Int × List Char) :=
  match cs with
  | e :: rest =>
    if e = 'e' ∨ e = 'E' then
      let (negative, digits) := Decimal.takeSign rest
      match takeAsciiDigits digits with
      | ([], _) => none
      | (ds, tail) => some (if negative then -(asciiDigits ds : Int) else asciiDigits ds, tail)
    else none
  | [] => none

def takeJsonNumber (cs : List Char) : JsonOutcome (Value × List Char) :=
  let (negative, unsigned) :=
    match cs with
    | '-' :: rest => (true, rest)
    | cs => (false, cs)
  let (whole, afterWhole) :=
    match unsigned with
    | '0' :: rest => (['0'], rest)
    | cs => takeAsciiDigits cs
  if whole.isEmpty then .error (noJsonValue cs)
  else
    let (fraction, afterFraction) :=
      match afterWhole with
      | '.' :: rest =>
        match takeAsciiDigits rest with
        | ([], _) => ([], afterWhole)
        | (ds, tail) => (ds, tail)
      | rest => ([], rest)
    let digits := asciiDigits (whole ++ fraction)
    let signed (x : Float) : Value := .float (if negative then -x else x)
    match takeJsonExponent afterFraction with
    | some (e, tail) => .ok (signed (Decimal.nearestFloat digits (e - fraction.length)), tail)
    | none =>
      if fraction.isEmpty then
        if whole.length > Decimal.maxIntegerDigits then .error (.tooLong whole.length)
        else .ok (.int (if negative then -(digits : Int) else digits), afterFraction)
      else .ok (signed (Decimal.nearestFloat digits (-(fraction.length : Int))), afterFraction)

def takeJsonWord? (cs : List Char) : Option (Value × List Char) :=
  let words : List (String × Value) :=
    [("null", .null), ("true", .bool true), ("false", .bool false), ("NaN", .float (0.0 / 0.0)),
      ("Infinity", .float (1.0 / 0.0)), ("-Infinity", .float (-1.0 / 0.0))]
  words.findSome? fun (word, v) => (dropPart? word.toList cs).map fun rest => (v, rest)

def skipJsonBlank (cs : List Char) : List Char := cs.dropWhile isJsonBlank

mutual

def takeJson (fuel : Nat) (cs : List Char) : JsonOutcome (Value × List Char) :=
  match fuel with
  | 0 => .error (noJsonValue cs)
  | fuel + 1 =>
    match cs with
    | '"' :: rest => do
      let (s, tail) ← takeJsonText cs.length (rest.length + 1) rest
      return (.text (String.ofList s), tail)
    | '[' :: rest =>
      match skipJsonBlank rest with
      | ']' :: tail => .ok (.list [], tail)
      | body => do
        let (items, tail) ← takeJsonItems fuel body
        return (.list items, tail)
    | '{' :: rest =>
      match skipJsonBlank rest with
      | '}' :: tail => .ok (.map [], tail)
      | body => do
        let (entries, tail) ← takeJsonEntries fuel body
        return (.map (dedupEntries entries), tail)
    | cs =>
      match takeJsonWord? cs with
      | some found => .ok found
      | none => takeJsonNumber cs

def takeJsonItems (fuel : Nat) (cs : List Char) : JsonOutcome (List Value × List Char) :=
  match fuel with
  | 0 => .error (noJsonValue cs)
  | fuel + 1 => do
    let (v, rest) ← takeJson fuel cs
    match skipJsonBlank rest with
    | ']' :: tail => return ([v], tail)
    | ',' :: more =>
      let (items, tail) ← takeJsonItems fuel (skipJsonBlank more)
      return (v :: items, tail)
    | other => throw (.wrong "Expecting ',' delimiter" other.length)

def takeJsonEntries (fuel : Nat) (cs : List Char) :
    JsonOutcome (List (Value × Value) × List Char) :=
  match fuel with
  | 0 => .error (noJsonValue cs)
  | fuel + 1 =>
    match cs with
    | '"' :: rest => do
      let (name, afterName) ← takeJsonText cs.length (rest.length + 1) rest
      match skipJsonBlank afterName with
      | ':' :: body =>
        let (v, rest) ← takeJson fuel (skipJsonBlank body)
        let entry := (Value.text (String.ofList name), v)
        match skipJsonBlank rest with
        | '}' :: tail => return ([entry], tail)
        | ',' :: more =>
          let (entries, tail) ← takeJsonEntries fuel (skipJsonBlank more)
          return (entry :: entries, tail)
        | other => throw (.wrong "Expecting ',' delimiter" other.length)
      | other => throw (.wrong "Expecting ':' delimiter" other.length)
    | cs => .error (.wrong "Expecting property name enclosed in double quotes" cs.length)

end

def readJson (cs : List Char) : JsonOutcome Value := do
  if cs.head? = some (Char.ofNat 0xFEFF) then
    throw (.wrong "Unexpected UTF-8 BOM (decode using utf-8-sig)" cs.length)
  let (v, rest) ← takeJson (2 * cs.length + 2) (skipJsonBlank cs)
  match skipJsonBlank rest with
  | [] => return v
  | extra => throw (.wrong "Extra data" extra.length)

def jsonFault (cs : List Char) : JsonTrouble → Fault
  | .wrong reason left =>
    let position := cs.length - left
    let before := cs.take position
    let line := before.count '\n' + 1
    let column := (before.reverse.takeWhile (· ≠ '\n')).length + 1
    .badJson (reason ++ ": line " ++ toString line ++ " column " ++ toString column ++
      " (char " ++ toString position ++ ")")
  | .tooLong digits => .badValue (Decimal.tooLongMessage digits)

def ofJson (s : String) : Outcome Value :=
  match readJson s.toList with
  | .ok v => .ok v
  | .error trouble => .error (jsonFault s.toList trouble)

def parsed : Value → Outcome Value
  | text s => ofJson s
  | bytes octets =>
    match unmarked octets with
    | some s => ofJson s
    | none => .error (.badEncoding "invalid start byte")
  | v => .error (.wrongKind ("the JSON object must be str, bytes or bytearray, not " ++ v.kindName))

end SheetMill.Value
