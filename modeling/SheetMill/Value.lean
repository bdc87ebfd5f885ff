import SheetMill.Decimal.Shortest

/-!
# Values

Rows of a sheet, documents of a store and formula trees are values of one type, in which a map keeps
its entries in the order of insertion. Equality is by meaning: a truth value is the number one or
zero, an integer equals the floating-point number of the same magnitude, and maps are equal if they
have the same entries in any order.
-/

namespace SheetMill

/-- A value whose shape is known only when it is looked at. -/
inductive Value where
  | null
  | bool (b : Bool)
  | int (i : Int)
  | float (x : Float)
  | text (s : String)
  | bytes (octets : List UInt8)
  | list (items : List Value)
  | map (entries : List (Value × Value))
  | objectId (number : Nat)
  | date (iso : String)
  | message (octets : List UInt8)
  | kind (name : String)
  /-- A live resource of which only the kind is known. -/
  | handle (kind : String)
  deriving Repr, Inhabited

namespace Value

def record (fields : List (String × Value)) : Value :=
  .map (fields.map fun (name, value) => (.text name, value))

def texts (items : List String) : Value := .list (items.map .text)

def ofText? : Option String → Value
  | none => .null
  | some s => .text s

def kindName : Value → String
  | null => "NoneType"
  | bool _ => "bool"
  | int _ => "int"
  | float _ => "float"
  | text _ => "str"
  | bytes _ => "bytes"
  | list _ => "list"
  | map _ => "dict"
  | objectId _ => "ObjectId"
  | date _ => "date"
  | message _ => "Message"
  | kind _ => "type"
  | handle name => name

def isText : Value → Bool
  | text _ => true
  | _ => false

/-! ## Equality and truth -/

def asInt? : Value → Option Int
  | bool b => some (if b then 1 else 0)
  | int i => some i
  | _ => none

def sameScalar : Value → Value → Bool
  | null, null => true
  | text s, text t => s == t
  | bytes a, bytes b => a == b
  | objectId m, objectId n => m == n
  | date s, date t => s == t
  | message a, message b => a == b
  | kind s, kind t => s == t
  | handle s, handle t => s == t
  | float x, float y => x == y
  | float x, v =>
    match v.asInt? with
    | some i => Decimal.compareFloatInt? x i == some .eq
    | none => false
  | v, float x =>
    match v.asInt? with
    | some i => Decimal.compareFloatInt? x i == some .eq
    | none => false
  | v, w =>
    match v.asInt?, w.asInt? with
    | some i, some j => i == j
    | _, _ => false

def findEntry (key : Value) : List (Value × Value) → Option Value
  | [] => none
  | (k, v) :: rest => if sameScalar k key then some v else findEntry key rest

mutual

def same : Value → Value → Bool
  | list xs, list ys => sameItems xs ys
  | map es, map fs => es.length == fs.length && sameEntries es fs
  | v, w => sameScalar v w

def sameItems : List Value → List Value → Bool
  | [], [] => true
  | x :: xs, y :: ys => same x y && sameItems xs ys
  | _, _ => false

def sameEntries : List (Value × Value) → List (Value × Value) → Bool
  | [], _ => true
  | (k, v) :: rest, fs =>
    (match findEntry k fs with
    | some w => same v w
    | none => false) && sameEntries rest fs

end

instance : BEq Value := ⟨same⟩

def truthy : Value → Bool
  | null => false
  | bool b => b
  | int i => i != 0
  | float x => !(x == 0.0)
  | text s => !s.isEmpty
  | bytes octets => !octets.isEmpty
  | list items => !items.isEmpty
  | map entries => !entries.isEmpty
  | _ => true

/-! ## Maps -/

def setEntry (key value : Value) : List (Value × Value) → List (Value × Value)
  | [] => [(key, value)]
  | (k, v) :: rest =>
    if sameScalar k key then (k, value) :: rest else (k, v) :: setEntry key value rest

def eraseEntry (key : Value) (entries : List (Value × Value)) : List (Value × Value) :=
  entries.filter fun (k, _) => !sameScalar k key

def dedupEntries (entries : List (Value × Value)) : List (Value × Value) :=
  entries.foldl (fun acc (k, v) => setEntry k v acc) []

def field? (v : Value) (name : String) : Option Value :=
  match v with
  | map entries => findEntry (.text name) entries
  | _ => none

def withField (v : Value) (name : String) (value : Value) : Value :=
  match v with
  | map entries => .map (setEntry (.text name) value entries)
  | v => v

def withoutField (v : Value) (name : String) : Value :=
  match v with
  | map entries => .map (eraseEntry (.text name) entries)
  | v => v

/-! ## Depth -/

mutual

def height : Value → Nat
  | list items => itemsHeight items + 1
  | map entries => entriesHeight entries + 1
  | _ => 0

def itemsHeight : List Value → Nat
  | [] => 0
  | v :: rest => max v.height (itemsHeight rest)

def entriesHeight : List (Value × Value) → Nat
  | [] => 0
  | (_, v) :: rest => max v.height (entriesHeight rest)

end

/-! ## Text -/

def hexText (octets : List UInt8) : String :=
  String.ofList (octets.flatMap fun o => Text.hexDigits o.toNat 2)

def quotedOctet (mark : Char) (o : UInt8) : List Char :=
  let n := o.toNat
  let c := Char.ofNat n
  if c = mark ∨ c = '\\' then ['\\', c]
  else if c = '\n' then ['\\', 'n']
  else if c = '\r' then ['\\', 'r']
  else if c = '\t' then ['\\', 't']
  else if 32 ≤ n ∧ n < 127 then [c]
  else ['\\', 'x'] ++ Text.hexDigits n 2

mutual

/-- The value in the notation in which it could be written down: texts in quotes, lists in square
brackets and maps in braces. -/
def literal : Value → String
  | null => "None"
  | bool b => if b then "True" else "False"
  | int i => toString i
  | float x => Decimal.plain.text x
  | text s => Text.quote s
  | bytes octets =>
    let mark := Text.quoteMark (octets.map fun o => Char.ofNat o.toNat)
    String.ofList ('b' :: mark :: octets.flatMap (quotedOctet mark) ++ [mark])
  | list items => "[" ++ itemsLiteral items ++ "]"
  | map entries => "\x7b" ++ entriesLiteral entries ++ "\x7d"
  | objectId n => "ObjectId('" ++ String.ofList (Text.hexDigits n 24) ++ "')"
  | date iso => iso
  | message octets => hexText octets
  | kind name => "<class '" ++ name ++ "'>"
  | handle name => "<" ++ name ++ ">"

def itemsLiteral : List Value → String
  | [] => ""
  | [v] => v.literal
  | v :: rest => v.literal ++ ", " ++ itemsLiteral rest

def entriesLiteral : List (Value × Value) → String
  | [] => ""
  | [(k, v)] => k.literal ++ ": " ++ v.literal
  | (k, v) :: rest => k.literal ++ ": " ++ v.literal ++ ", " ++ entriesLiteral rest

end

def plain : Value → String
  | text s => s
  | objectId n => String.ofList (Text.hexDigits n 24)
  | v => v.literal

end Value

/-! ## Amounts -/

/-- A number as the clock uses it. -/
inductive Amount where
  | whole (i : Int)
  | real (x : Float)
  deriving Repr, Inhabited

namespace Amount

def toFloat : Amount → Float
  | whole i => Float.ofInt i
  | real x => x

def toValue : Amount → Value
  | whole i => .int i
  | real x => .float x

def ofValue? : Value → Option Amount
  | .bool b => some (.whole (if b then 1 else 0))
  | .int i => some (.whole i)
  | .float x => some (.real x)
  | _ => none

def times : Amount → Amount → Amount
  | whole i, whole j => .whole (i * j)
  | a, b => .real (a.toFloat * b.toFloat)

def plus : Amount → Amount → Amount
  | whole i, whole j => .whole (i + j)
  | a, b => .real (a.toFloat + b.toFloat)

def minus : Amount → Amount → Amount
  | whole i, whole j => .whole (i - j)
  | a, b => .real (a.toFloat - b.toFloat)

def compare? : Amount → Amount → Option Ordering
  | whole i, whole j => some (compare i j)
  | real x, whole j => Decimal.compareFloatInt? x j
  | whole i, real y => (Decimal.compareFloatInt? y i).map Ordering.swap
  | real x, real y =>
    if x < y then some .lt else if x == y then some .eq else if y < x then some .gt else none

def text (a : Amount) : String := a.toValue.plain

end Amount

end SheetMill

namespace SheetMill.Value

/-! ## Reading descriptions -/

def elements : Value → List Value
  | list items => items
  | _ => []

def entries : Value → List (Value × Value)
  | map entries => entries
  | _ => []

def fields (v : Value) : List (String × Value) := v.entries.map fun (k, v) => (k.plain, v)

def part (v : Value) (name : String) : Value := (v.field? name).getD .null

def str? (v : Value) (name : String) : Option String :=
  match v.part name with
  | text s => some s
  | _ => none

def str (v : Value) (name : String) : String := (v.str? name).getD ""

def seq (v : Value) (name : String) : List Value := (v.part name).elements

def nth (v : Value) (i : Nat) : Value := v.elements.getD i .null

def flag (v : Value) (name : String) : Bool := (v.part name).truthy

def int? (v : Value) (name : String) : Option Int := (v.part name).asInt?

def amount (v : Value) (name : String) (default : Amount := .whole 0) : Amount :=
  (Amount.ofValue? (v.part name)).getD default

end SheetMill.Value
