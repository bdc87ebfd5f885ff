import SheetMill.Decimal.Binary

/-!
# The fewest digits that read back

A binary number is written with the fewest decimal digits that still lie in its rounding interval,
the set of reals that round to it. Of two candidates the nearer one is taken, and the even one if
both are equally near.
-/

namespace SheetMill.Decimal

/-- The number `digits * 10 ^ scale`. -/
structure Digits where
  digits : Nat
  scale : Int
  deriving Repr, DecidableEq

def tenPowNum (e : Int) : Nat := Nat.pow 10 e.toNat

def tenPowDen (e : Int) : Nat := Nat.pow 10 (-e).toNat

def digitCount (n : Nat) : Nat := if n = 0 then 0 else (Nat.toDigits 10 n).length

/-- How many places after the point a fraction `num / den` below one starts with zeros, searched
for up to the given bound. -/
def leadingZeros (num den : Nat) : Nat → Nat
  | 0 => 0
  | fuel + 1 => if num * 10 < den then leadingZeros (num * 10) den fuel + 1 else 0

def pointPlace (num den : Nat) : Int :=
  let whole := num / den
  if whole = 0 then -(leadingZeros num den 400 : Int) else digitCount whole

def Digits.trim (d : Digits) : Nat → Digits
  | 0 => d
  | fuel + 1 =>
    if d.digits ≠ 0 ∧ d.digits % 10 = 0 then Digits.trim ⟨d.digits / 10, d.scale + 1⟩ fuel else d

/-- The neighbour of `value` on the grid of multiples of `den / num` that lies in the interval from
`low` to `high`, all four measured in the same unit. -/
def gridHit? (value low high num den : Nat) (closed : Bool) : Option Nat :=
  let below := value * num / den
  let inside (d : Nat) : Bool :=
    if closed then low * num ≤ d * den && d * den ≤ high * num
    else low * num < d * den && d * den < high * num
  let down := value * num - below * den
  let up := (below + 1) * den - value * num
  match below ≠ 0 && inside below, inside (below + 1) with
  | true, true =>
    if down < up then some below
    else if up < down then some (below + 1)
    else if below % 2 = 0 then some below else some (below + 1)
  | true, false => some below
  | false, true => some (below + 1)
  | false, false => none

/-- The shortest digits of a positive number with at least `count` and at most `count + fuel`
digits. -/
def shortestFrom (b : Binary) (place : Int) (count : Nat) : Nat → Digits
  | 0 => ⟨b.mantissa, 0⟩
  | fuel + 1 =>
    let scale := place - count
    let unit := b.exponent - 2
    let num := twoPowNum unit * tenPowDen scale
    let den := twoPowDen unit * tenPowNum scale
    let value := 4 * b.mantissa
    let low := if b.narrowBelow then value - 1 else value - 2
    match gridHit? value low (value + 2) num den (b.mantissa % 2 = 0) with
    | some d => Digits.trim ⟨d, scale⟩ 20
    | none => shortestFrom b place (count + 1) fuel

def Binary.shortest (b : Binary) : Digits :=
  if b.mantissa = 0 then ⟨0, 0⟩
  else
    let place := pointPlace (b.mantissa * twoPowNum b.exponent) (twoPowDen b.exponent)
    shortestFrom b place 1 17

/-- The quotient of two whole numbers, rounded to the nearest one and a tie to the even one. -/
def roundDiv (num den : Nat) : Nat :=
  let q := num / den
  let r := num % den
  if 2 * r < den then q
  else if den < 2 * r then q + 1
  else if q % 2 = 0 then q else q + 1

def Binary.significant (b : Binary) (count : Nat) : Digits :=
  if b.mantissa = 0 then ⟨0, 0⟩
  else
    let place := pointPlace (b.mantissa * twoPowNum b.exponent) (twoPowDen b.exponent)
    let scale := place - count
    let rounded := roundDiv (b.mantissa * twoPowNum b.exponent * tenPowDen scale)
      (twoPowDen b.exponent * tenPowNum scale)
    Digits.trim ⟨rounded, scale⟩ (count + 1)

def Binary.fixed (b : Binary) (places : Nat) : Nat :=
  roundDiv (b.mantissa * twoPowNum b.exponent * Nat.pow 10 places) (twoPowDen b.exponent)

/-! ## How numbers are laid out as text -/

/-- From and to which exponent numbers are written without one. -/
structure Layout where
  leastPositional : Int
  firstExponential : Int
  undefinedText : String
  infinityText : String

def zeros (n : Nat) : String := String.ofList (List.replicate n '0')

def padLeft (width : Nat) (s : String) : String := zeros (width - s.length) ++ s

def exponentText (e : Int) : String :=
  (if e < 0 then "e-" else "e+") ++ padLeft 2 (toString e.natAbs)

/-- Digits as text: positional between the layout's limits, always with a digit on both sides of
the point, and exponential beyond them. -/
def Layout.digitsText (layout : Layout) (d : Digits) : String :=
  let text := toString d.digits
  let count := text.length
  let place : Int := d.scale + count
  let lead := place - 1
  if d.digits = 0 then "0.0"
  else if layout.leastPositional ≤ lead ∧ lead < layout.firstExponential then
    if place ≤ 0 then "0." ++ zeros (-place).toNat ++ text
    else if count ≤ place.toNat then text ++ zeros (place.toNat - count) ++ ".0"
    else
      String.ofList (text.toList.take place.toNat) ++ "." ++
        String.ofList (text.toList.drop place.toNat)
  else
    let first := String.ofList (text.toList.take 1)
    let rest := String.ofList (text.toList.drop 1)
    (if rest.isEmpty then first else first ++ "." ++ rest) ++ exponentText lead

def Layout.magnitudeText (layout : Layout) (choose : Binary → Digits) : Magnitude → String
  | .undefined => layout.undefinedText
  | .infinite negative => (if negative then "-" else "") ++ layout.infinityText
  | .finite b => (if b.negative then "-" else "") ++ layout.digitsText (choose b)

/-- Numbers in plain text: positional from `1e-4` up to below `1e16`. -/
def plain : Layout := ⟨-4, 16, "nan", "inf"⟩

def json : Layout := { plain with undefinedText := "NaN", infinityText := "Infinity" }

def Layout.text (layout : Layout) (x : Float) : String :=
  layout.magnitudeText Binary.shortest (Magnitude.ofFloat x)

def fixedText (places : Nat) (x : Float) : String :=
  match Magnitude.ofFloat x with
  | .undefined => plain.undefinedText
  | .infinite negative => (if negative then "-" else "") ++ plain.infinityText
  | .finite b =>
    let digits := padLeft (places + 1) (toString (b.fixed places))
    let whole := digits.length - places
    let fraction := String.ofList (digits.toList.drop whole)
    (if b.negative then "-" else "") ++ String.ofList (digits.toList.take whole) ++
      (if places = 0 then "" else "." ++ fraction)

/-! ## Single precision -/

/-- The exponent and fraction fields of the nearest number of a format with the given widths of
these fields, read as one number. They are those of infinity beyond all numbers of the format. -/
def Binary.nearest (exponentBits fractionBits : Nat) (b : Binary) : Nat :=
  if b.mantissa = 0 then 0
  else
    let least : Int := 3 - (Nat.pow 2 (exponentBits - 1) : Int) - (fractionBits : Int) - 1
    let unit := max (b.mantissa.log2 + b.exponent - fractionBits) least
    let shift := b.exponent - unit
    let count := roundDiv (b.mantissa * twoPowNum shift) (twoPowDen shift)
    -- The leading digit of a normal number is not in the fraction but counts as one more exponent.
    min ((unit - least).toNat * Nat.pow 2 fractionBits + count)
      ((Nat.pow 2 exponentBits - 1) * Nat.pow 2 fractionBits)

def signed (width : Nat) (negative : Bool) (fields : Nat) : Nat :=
  if negative then Nat.pow 2 width + fields else fields

def Magnitude.pattern (exponentBits fractionBits : Nat) : Magnitude → Nat
  | .undefined =>
    (Nat.pow 2 exponentBits - 1) * Nat.pow 2 fractionBits + Nat.pow 2 (fractionBits - 1)
  | .infinite negative =>
    signed (exponentBits + fractionBits) negative
      ((Nat.pow 2 exponentBits - 1) * Nat.pow 2 fractionBits)
  | .finite b =>
    signed (exponentBits + fractionBits) b.negative (b.nearest exponentBits fractionBits)

def widened (x : Float32) : Float :=
  Float.ofBits (UInt64.ofNat ((Magnitude.ofFloat32 x).pattern 11 52))

def narrowed (m : Magnitude) : Float32 := Float32.ofBits (UInt32.ofNat (m.pattern 8 23))

/-- The number of double precision that is nearest to a whole number, unless it is beyond all of
them. -/
def ofInt? (i : Int) : Option Float :=
  let fields := Binary.nearest 11 52
    { negative := i < 0, mantissa := i.natAbs, exponent := 0, narrowBelow := false }
  if fields = 2047 * Nat.pow 2 52 then none
  else some (Float.ofBits (UInt64.ofNat (signed 63 (i < 0) fields)))

/-- The fields of the greatest number of single precision, as one of double precision. -/
def singleMax : Nat := 0x47EFFFFFE0000000

def toSingle (x : Float) : Float32 :=
  match Magnitude.ofFloat x with
  | .finite b =>
    if singleMax < x.toBits.toNat % Nat.pow 2 63 then narrowed (.infinite b.negative)
    else narrowed (.finite b)
  | m => narrowed m

end SheetMill.Decimal
