import SheetMill.Message.Sql
import SheetMill.Text.Casing

/-!
# Messages for readers

A tree is shown to readers with a line for each field that is present, in the order of the numbers
of the fields.
-/

namespace SheetMill.Message

def octalDigits (n : Nat) : List Char :=
  [n / 64 % 8, n / 8 % 8, n % 8].map fun digit => Char.ofNat (48 + digit)

/-- A character of a text for readers. -/
def readableChar (c : Char) : List Char :=
  match c with
  | '\n' => ['\\', 'n']
  | '\r' => ['\\', 'r']
  | '\t' => ['\\', 't']
  | '"' => ['\\', '"']
  | '\'' => ['\\', '\'']
  | '\\' => ['\\', '\\']
  | c => if c.toNat < 32 || c.toNat == 127 then '\\' :: octalDigits c.toNat else [c]

def readableText (s : String) : String :=
  "\"" ++ String.ofList (s.toList.flatMap readableChar) ++ "\""

def rounded (b : Decimal.Binary) (count : Nat) : Float :=
  let digits := b.significant count
  let x := Decimal.nearestFloat digits.digits digits.scale
  if b.negative then -x else x

/-- A single-precision number for readers: with six digits, or as many more as it takes to tell it
from others. -/
def readableSingle (x : Float32) : String :=
  match Decimal.Magnitude.ofFloat32 x with
  | .finite b =>
    let same (y : Float) : Bool := (Decimal.toSingle y).toBits == x.toBits
    Decimal.plain.text ((([6, 7, 8].map (rounded b)).find? same).getD (rounded b 9))
  | _ => Decimal.plain.text (Decimal.widened x)

/-- The number of an enumeration for readers: its name in capitals after a common beginning, or the
number if it has no name. -/
def readableNumber (beginning : String) (names : Names) (number : Int) : String :=
  match names.find? (·.2 == number) with
  | some (name, _) => beginning ++ Text.replace (Text.upper name) "-" "_"
  | none => toString number

def readableField (name value : String) : String := name ++ ": " ++ value

def readableTexts (name : String) (texts : List String) : List String :=
  texts.map fun s => readableField name (readableText s)

def Literal.readable : Option Literal → List String
  | none => []
  | some (.number x) => [readableField "number_value" (readableSingle x)]
  | some (.text s) => [readableField "text_value" (readableText s)]
  | some (.logical b) => [readableField "logical_value" (if b then "true" else "false")]

def readablePart (name : String) (lines : List String) : List String :=
  [name ++ " \x7b"] ++ lines.map ("  " ++ ·) ++ ["\x7d"]

namespace SqlTree

mutual

def readable : SqlTree → List String
  | ⟨kind, sql, value, cell, refType, column, cellError, start, stop, cells, columns, rangeError,
      operator, left, right, name, arguments, operand⟩ =>
    (if kind = 0 then [] else [readableField "type" (readableNumber "AST_" nodeKinds kind)]) ++
    readableTexts "sql" (if sql.isEmpty then [] else [sql]) ++
    Literal.readable value ++
    readableTexts "cell" cell.toList ++
    refType.toList.map (fun n => readableField "refType" (readableNumber "REF_" referenceKinds n)) ++
    readableTexts "column" column.toList ++
    readableTexts "error_cell" cellError.toList ++
    readableTexts "start" start.toList ++
    readableTexts "end" stop.toList ++
    readableTexts "cells" cells ++
    readableTexts "columns" columns ++
    readableTexts "error_cell_range" rangeError.toList ++
    readableTexts "operator" operator.toList ++
    readableOption "left" left ++
    readableOption "right" right ++
    readableTexts "name" name.toList ++
    readableList arguments ++
    readableOption "operand" operand

def readableOption (name : String) : Option SqlTree → List String
  | none => []
  | some t => readablePart name t.readable

def readableList : List SqlTree → List String
  | [] => []
  | t :: rest => readablePart "arguments" t.readable ++ readableList rest

end

end SqlTree

end SheetMill.Message
