import SheetMill.Text.Kinds

/-!
# Binary floating-point numbers as exact numbers

A finite binary number is `mantissa * 2 ^ exponent` with a sign.
-/

namespace SheetMill.Decimal

/-- A finite binary number. -/
structure Binary where
  negative : Bool
  mantissa : Nat
  exponent : Int
  /-- Whether the neighbour towards zero is only half as far away as the other one. -/
  narrowBelow : Bool
  deriving Repr, DecidableEq

/-- What a floating point number stands for. -/
inductive Magnitude where
  | undefined
  | infinite (negative : Bool)
  | finite (value : Binary)
  deriving Repr, DecidableEq

/-- The number whose sign, exponent and fraction fields are given, in a format with the given
widths of the exponent and fraction fields. -/
def Magnitude.ofFields (exponentBits fractionBits : Nat) (negative : Bool)
    (exponentField fraction : Nat) : Magnitude :=
  let top := Nat.pow 2 exponentBits - 1
  let least : Int := 3 - (Nat.pow 2 (exponentBits - 1) : Int) - (fractionBits : Int) - 1
  if exponentField = top then
    if fraction = 0 then .infinite negative else .undefined
  else if exponentField = 0 then
    .finite ⟨negative, fraction, least, false⟩
  else
    .finite ⟨negative, Nat.pow 2 fractionBits + fraction, least + exponentField - 1,
      fraction = 0 && exponentField > 1⟩

def Magnitude.ofFloat (x : Float) : Magnitude :=
  let bits := x.toBits.toNat
  .ofFields 11 52 (bits / Nat.pow 2 63 = 1) (bits / Nat.pow 2 52 % Nat.pow 2 11)
    (bits % Nat.pow 2 52)

def Magnitude.ofFloat32 (x : Float32) : Magnitude :=
  let bits := x.toBits.toNat
  .ofFields 8 23 (bits / Nat.pow 2 31 = 1) (bits / Nat.pow 2 23 % Nat.pow 2 8)
    (bits % Nat.pow 2 23)

def twoPowNum (e : Int) : Nat := Nat.pow 2 e.toNat

def twoPowDen (e : Int) : Nat := Nat.pow 2 (-e).toNat

def Binary.truncate (b : Binary) : Int :=
  let whole := b.mantissa * twoPowNum b.exponent / twoPowDen b.exponent
  if b.negative then -(whole : Int) else whole

def Binary.isWhole (b : Binary) : Bool :=
  b.mantissa * twoPowNum b.exponent % twoPowDen b.exponent = 0

def Binary.compareInt (b : Binary) (i : Int) : Ordering :=
  let signed : Int := if b.negative then -(b.mantissa : Int) else b.mantissa
  compare (signed * twoPowNum b.exponent) (i * twoPowDen b.exponent)

def truncate? (x : Float) : Option Int :=
  match Magnitude.ofFloat x with
  | .finite b => some b.truncate
  | _ => none

def isWhole (x : Float) : Bool :=
  match Magnitude.ofFloat x with
  | .finite b => b.isWhole
  | _ => false

def compareFloatInt? (x : Float) (i : Int) : Option Ordering :=
  match Magnitude.ofFloat x with
  | .undefined => none
  | .infinite negative => some (if negative then .lt else .gt)
  | .finite b => some (b.compareInt i)

/-!
## Hexadecimal notation

A number written exactly: its leading digit, thirteen hexadecimal digits of its fraction, and the
power of two by which it is scaled.
-/

def powerText (exponent : Int) : String :=
  (if exponent < 0 then "p-" else "p+") ++ toString exponent.natAbs

def Binary.hexadecimal (b : Binary) : String :=
  let fraction := String.ofList (Text.hexDigits (b.mantissa % Nat.pow 2 52) 13)
  if b.mantissa = 0 then "0x0.0p+0"
  else (if b.mantissa < Nat.pow 2 52 then "0x0." else "0x1.") ++ fraction ++ powerText (b.exponent + 52)

def hexadecimal (x : Float) : String :=
  let signed (negative : Bool) (s : String) : String := if negative then "-" ++ s else s
  match Magnitude.ofFloat x with
  | .undefined => "nan"
  | .infinite negative => signed negative "inf"
  | .finite b => signed b.negative b.hexadecimal

end SheetMill.Decimal
