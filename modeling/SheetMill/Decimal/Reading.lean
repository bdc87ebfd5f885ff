import SheetMill.Decimal.Binary

/-!
# Numbers read from text

White space around a number is ignored. Digits may come from any script, and a single underscore
may stand between two digits.
-/

namespace SheetMill.Decimal

open Text

def startsWithDecimal : List Char → Bool
  | c :: _ => isDecimal c
  | [] => false

/-- The digits at the start of the characters, with single underscores between them, and what
follows them. -/
def takeDigitsFrom (afterDigit : Bool) : List Char → List Nat × List Char
  | [] => ([], [])
  | c :: rest =>
    match decimalValue? c with
    | some d =>
      let (ds, tail) := takeDigitsFrom true rest
      (d :: ds, tail)
    | none =>
      if afterDigit && c == '_' && startsWithDecimal rest then takeDigitsFrom false rest
      else ([], c :: rest)

def takeDigits (cs : List Char) : List Nat × List Char := takeDigitsFrom false cs

def ofDigits (ds : List Nat) : Nat := ds.foldl (fun n d => 10 * n + d) 0

def takeSign : List Char → Bool × List Char
  | '-' :: rest => (true, rest)
  | '+' :: rest => (false, rest)
  | cs => (false, cs)

def maxIntegerDigits : Nat := 4300

/-- What reading a text as an integer gives. -/
inductive IntReading where
  | number (i : Int)
  | tooLong (digits : Nat)
  | malformed
  deriving Repr, DecidableEq

def readInt (s : String) : IntReading :=
  let (negative, cs) := takeSign (stripChars isNumberMargin s.toList)
  match takeDigits cs with
  | ([], _) => .malformed
  | (ds, rest) =>
    if rest.head? == some '_' then .malformed
    else if ds.length > maxIntegerDigits then .tooLong ds.length
    else if rest.isEmpty then .number (if negative then -(ofDigits ds : Int) else ofDigits ds)
    else .malformed

def readInt? (s : String) : Option Int :=
  match readInt s with
  | .number i => some i
  | _ => none

def tooLongMessage (digits : Nat) : String :=
  "Exceeds the limit (" ++ toString maxIntegerDigits ++
    " digits) for integer string conversion: value has " ++ toString digits ++
    " digits; use sys.set_int_max_str_digits() to increase the limit"

def tooLongToWrite : String :=
  "Exceeds the limit (" ++ toString maxIntegerDigits ++
    " digits) for integer string conversion; use sys.set_int_max_str_digits() to increase the limit"

def nearestFloat (digits : Nat) (scale : Int) : Float :=
  if digits = 0 then 0.0
  else
    let lead := scale + (Nat.toDigits 10 digits).length
    if lead > 310 then 1.0 / 0.0
    else if lead < -330 then 0.0
    else if scale < 0 then Float.ofScientific digits true (-scale).toNat
    else Float.ofScientific digits false scale.toNat

def takeExponent : List Char → Option (Int × List Char)
  | e :: rest =>
    if e = 'e' ∨ e = 'E' then
      let (negative, cs) := takeSign rest
      match takeDigits cs with
      | ([], _) => none
      | (ds, tail) => some (if negative then -(ofDigits ds : Int) else ofDigits ds, tail)
    else none
  | [] => none

def readUnsigned? (cs : List Char) : Option Float :=
  let (whole, afterWhole) := takeDigits cs
  let (fraction, afterFraction) :=
    match afterWhole with
    | '.' :: rest => takeDigits rest
    | rest => ([], rest)
  if whole.isEmpty && fraction.isEmpty then none
  else
    let digits := ofDigits (whole ++ fraction)
    match afterFraction with
    | [] => some (nearestFloat digits (-(fraction.length : Int)))
    | rest =>
      match takeExponent rest with
      | some (e, []) => some (nearestFloat digits (e - fraction.length))
      | _ => none

/-- The number that the text denotes, if it denotes one; infinity and the undefined number have
names, in any case. -/
def readFloat? (s : String) : Option Float :=
  let (negative, cs) := takeSign (stripChars isNumberMargin s.toList)
  let magnitude :=
    match String.ofList (cs.map Char.toLower) with
    | "inf" | "infinity" => some (1.0 / 0.0)
    | "nan" => some (0.0 / 0.0)
    | _ => readUnsigned? cs
  magnitude.map fun x => if negative then -x else x

end SheetMill.Decimal
