import SheetMill.Value.Access

/-!
# Moments

A moment is counted in microseconds since the beginning of 1970, and so are the spans between
moments.
-/

namespace SheetMill

/-- A moment in microseconds. -/
structure Moment where
  micros : Int
  deriving Repr, DecidableEq, Inhabited

namespace Moment

def ofSeconds (seconds : Int) : Moment := ⟨seconds * 1000000⟩

def seconds (m : Moment) : Int := m.micros.fdiv 1000000

def nearest (x : Float) : Int :=
  match Decimal.Magnitude.ofFloat x with
  | .finite b =>
    let n := Decimal.roundDiv (b.mantissa * Decimal.twoPowNum b.exponent) (Decimal.twoPowDen b.exponent)
    if b.negative then -(n : Int) else n
  | _ => 0

def microsOf : Amount → Int
  | .whole i => i * 1000000
  | .real x =>
    let whole := (Decimal.truncate? x).getD 0
    whole * 1000000 + nearest ((x - Float.ofInt whole) * 1000000)

def after (m : Moment) (seconds : Amount) : Moment := ⟨m.micros + microsOf seconds⟩

def secondsOf (micros : Int) : Float :=
  let n := micros.natAbs * Nat.pow 2 80
  -- More digits than are kept, and a last one that stands for the rest.
  let mantissa := 2 * (n / 1000000) + min 1 (n % 1000000)
  Float.ofBits (UInt64.ofNat ((Decimal.Magnitude.finite
    { negative := micros < 0, mantissa, exponent := -81, narrowBelow := false }).pattern 11 52))

def wholeSeconds (m : Moment) : Int := (Decimal.truncate? (secondsOf m.micros)).getD 0

/-- The fraction of some units of time that a number has beyond the whole ones, as whole microseconds
and a rest. -/
def fractionOf (unit : Nat) (x : Float) : Int × Float :=
  let micros := (x - Float.ofInt ((Decimal.truncate? x).getD 0)) * Float.ofNat unit
  let whole := (Decimal.truncate? micros).getD 0
  (whole, micros - Float.ofInt whole)

def nearestTo (whole : Int) (fraction : Float) : Int :=
  if fraction.abs == 0.5 then
    if whole % 2 = 0 then whole else if fraction < 0.0 then whole - 1 else whole + 1
  else whole + nearest fraction

def mostDays : Int := 999999999

def spanWithin (micros : Int) : Outcome Int :=
  let days := micros.fdiv 86400000000
  if -mostDays ≤ days ∧ days ≤ mostDays then .ok micros
  else if -2147483648 ≤ days ∧ days ≤ 2147483647 then
    .error (.overflow
      ("days=" ++ toString days ++ "; must have magnitude <= " ++ toString mostDays))
  else .error (.overflow "Python int too large to convert to C int")

def spanOf (unit : Nat) (v : Value) : Outcome Int :=
  match v.asInt?, v with
  | some i, _ => spanWithin (i * unit)
  | none, .float x =>
    match Decimal.truncate? x with
    | some i =>
      let (micros, rest) := fractionOf unit x
      spanWithin (nearestTo (i * unit + micros) rest)
    | none =>
      if x.isNaN then .error (.badValue "cannot convert float NaN to integer")
      else .error (.overflow "cannot convert float infinity to integer")
  | none, v => .error (.wrongKind ("unsupported type for timedelta component: " ++ v.kindName))

def plus (m : Moment) (span : Int) : Outcome Moment :=
  let micros := m.micros + span
  if -62135596800000000 ≤ micros ∧ micros < 253402300800000000 then .ok ⟨micros⟩
  else .error (.overflow "date value out of range")

/-- Year, month and day of the day with the given number, counted from the beginning of 1970. -/
def civil (day : Int) : Int × Int × Int :=
  let z := day + 719468
  let era := z.fdiv 146097
  let ofEra := z - era * 146097
  let yearOfEra := (ofEra - ofEra / 1460 + ofEra / 36524 - ofEra / 146096) / 365
  let ofYear := ofEra - (365 * yearOfEra + yearOfEra / 4 - yearOfEra / 100)
  let month := (5 * ofYear + 2) / 153
  let dayOfMonth := ofYear - (153 * month + 2) / 5 + 1
  let month := if month < 10 then month + 3 else month - 9
  (yearOfEra + era * 400 + (if month ≤ 2 then 1 else 0), month, dayOfMonth)

def padded (width : Nat) (n : Int) : String := Decimal.padLeft width (toString n)

def dateText (m : Moment) : String :=
  let (year, month, day) := civil (m.seconds.fdiv 86400)
  padded 4 year ++ "-" ++ padded 2 month ++ "-" ++ padded 2 day

def text (m : Moment) : String :=
  let time := m.seconds.fmod 86400
  let micros := m.micros.fmod 1000000
  m.dateText ++ "T" ++ padded 2 (time / 3600) ++ ":" ++ padded 2 (time / 60 % 60) ++ ":" ++
    padded 2 (time % 60) ++ (if micros = 0 then "" else "." ++ padded 6 micros)

end Moment

end SheetMill
