import SheetMill.Value.Access

/-!
# Order and arithmetic of values

Numbers are ordered by magnitude, texts and octets character by character, and lists by the first
items in which they differ. Sorting compares only as many pairs as it needs, so a list may be sorted
although some of its items have no order among each other.

Numbers are added and multiplied whatever their kinds, and the result is floating if one of them is.
Texts, octets and lists are joined, and repeated by a whole number.
-/

namespace SheetMill.Value

def orderFault (sign : String) (v w : Value) : Fault :=
  .wrongKind ("'" ++ sign ++ "' not supported between instances of '" ++ v.kindName ++ "' and '" ++
    w.kindName ++ "'")

mutual

/-- How two values compare, by the sign of the comparison that was asked for. -/
def order (sign : String) : Value → Value → Outcome (Option Ordering)
  | text s, text t => .ok (some (compare s t))
  | bytes a, bytes b => .ok (some (compare a b))
  | date s, date t => .ok (some (compare s t))
  | list xs, list ys => itemsOrder sign xs ys
  | v, w =>
    match Amount.ofValue? v, Amount.ofValue? w with
    | some a, some b => .ok (a.compare? b)
    | _, _ => .error (orderFault sign v w)

def itemsOrder (sign : String) : List Value → List Value → Outcome (Option Ordering)
  | [], [] => .ok (some .eq)
  | [], _ :: _ => .ok (some .lt)
  | _ :: _, [] => .ok (some .gt)
  | x :: xs, y :: ys => if same x y then itemsOrder sign xs ys else order sign x y

end

def less (v w : Value) : Outcome Bool := (· == some .lt) <$> order "<" v w

def greater (v w : Value) : Outcome Bool := (· == some .gt) <$> order ">" v w

def atMost (v w : Value) : Outcome Bool :=
  (fun o => o == some .lt || o == some .eq) <$> order "<=" v w

def atLeast (v w : Value) : Outcome Bool :=
  (fun o => o == some .gt || o == some .eq) <$> order ">=" v w

def larger (v w : Value) : Outcome Value := return if ← w.greater v then w else v

def smaller (v w : Value) : Outcome Value := return if ← w.less v then w else v

/-! ## Sorting -/

/-- The length of the run at the start in which each item is smaller than the one before it, or in
which none is. -/
def runLength (falling : Bool) (previous : Value) : List Value → Outcome Nat
  | [] => .ok 0
  | v :: rest => do
    if (← v.less previous) = falling then return (← runLength falling v rest) + 1
    else return 0

/-- The place among sorted items before which a value belongs, after all that it is not smaller
than; found by halving the places between two bounds, given fuel. -/
def placeIn (sorted : Array Value) (v : Value) : Nat → Nat → Nat → Outcome Nat
  | 0, low, _ => .ok low
  | fuel + 1, low, high =>
    if low < high then do
      let middle := (low + high) / 2
      if ← v.less (sorted.getD middle .null) then placeIn sorted v fuel low middle
      else placeIn sorted v fuel (middle + 1) high
    else .ok low

def insertAll (sorted : Array Value) : List Value → Outcome (Array Value)
  | [] => .ok sorted
  | v :: rest => do
    let place ← placeIn sorted v (sorted.size + 1) 0 sorted.size
    insertAll (sorted.toList.take place ++ v :: sorted.toList.drop place).toArray rest

/-- The items in their order. -/
def sorted : List Value → Outcome (List Value)
  | [] => .ok []
  | [v] => .ok [v]
  | v :: w :: rest => do
    let falling ← w.less v
    let length := (← runLength falling w rest) + 2
    let run := (v :: w :: rest).take length
    let start := if falling then run.reverse else run
    return (← insertAll start.toArray ((v :: w :: rest).drop length)).toList

/-! ## Arithmetic -/

def operandFault (sign : String) (v w : Value) : Fault :=
  .wrongKind ("unsupported operand type(s) for " ++ sign ++ ": '" ++ v.kindName ++ "' and '" ++
    w.kindName ++ "'")

def onNumbers (sign : String) (whole : Int → Int → Int) (real : Float → Float → Float)
    (v w : Value) : Outcome Value :=
  match v.asInt?, w.asInt? with
  | some i, some j => .ok (.int (whole i j))
  | _, _ =>
    if (Amount.ofValue? v).isSome && (Amount.ofValue? w).isSome then do
      return .float (real (← v.toFloat) (← w.toFloat))
    else .error (operandFault sign v w)

def add : Value → Value → Outcome Value
  | text s, text t => .ok (.text (s ++ t))
  | bytes a, bytes b => .ok (.bytes (a ++ b))
  | list xs, list ys => .ok (.list (xs ++ ys))
  | v, w => onNumbers "+" (· + ·) (· + ·) v w

def sub (v w : Value) : Outcome Value := onNumbers "-" (· - ·) (· - ·) v w

def repeated? (v : Value) (times : Int) : Option Value :=
  let copies {α : Type} (items : List α) : List α := (List.replicate times.toNat items).flatten
  match v with
  | text s => some (.text (String.ofList (copies s.toList)))
  | bytes octets => some (.bytes (copies octets))
  | list items => some (.list (copies items))
  | _ => none

def mul (v w : Value) : Outcome Value :=
  match w.asInt?.bind v.repeated?, v.asInt?.bind w.repeated? with
  | some u, _ => .ok u
  | none, some u => .ok u
  | none, none => onNumbers "*" (· * ·) (· * ·) v w

end SheetMill.Value
