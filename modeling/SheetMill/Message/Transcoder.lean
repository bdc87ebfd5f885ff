import SheetMill.Value.Access
import SheetMill.Wire.Codec

/-!
# Transcoders

A transcoder takes a value to an encoded message and back: a codec, and the two ways between values
and messages. A value becomes a message by its named fields, and a message becomes a map of all its
fields. A message of one field is the content of that field.
-/

namespace SheetMill.Wire.Slot

def refuse (v : Value) : Fault :=
  .wrongKind ("bad argument type for field: " ++ v.kindName)

def textOf (v : Value) : Outcome String :=
  match v with
  | .text s => .ok s
  | .bytes octets =>
    match octetsText? octets with
    | some s => .ok s
    | none => .error (.badValue "bytes are not valid UTF-8")
  | v => .error (refuse v)

def text? (v : Value) : Outcome (Option String) :=
  match v with
  | .null => .ok none
  | v => some <$> textOf v

def text (v : Value) : Outcome String := (·.getD "") <$> text? v

def int? (v : Value) : Outcome (Option Int) :=
  match v with
  | .null => .ok none
  | v =>
    match v.asInt? with
    | some i =>
      if -0x80000000 ≤ i ∧ i < 0x80000000 then .ok (some i)
      else .error (.badValue ("Value out of range: " ++ toString i))
    | none => .error (refuse v)

def int (v : Value) : Outcome Int := (·.getD 0) <$> int? v

/-- A truth value or nothing; an integer other than zero counts as true. -/
def bool? (v : Value) : Outcome (Option Bool) :=
  match v with
  | .null => .ok none
  | v =>
    match v.asInt? with
    | some i => .ok (some (i != 0))
    | none => .error (refuse v)

def bool (v : Value) : Outcome Bool := (·.getD false) <$> bool? v

def texts (v : Value) : Outcome (List String) :=
  match v with
  | .null => .ok []
  | v => do (← v.items).mapM textOf

def pair (v : Value) : Outcome (Value × Value) := do
  match ← v.items with
  | [key, value] => return (key, value)
  | _ => throw (.badValue "not a pair of a key and a value")

def withEntry (map : List (String × String)) (key value : Value) :
    Outcome (List (String × String)) :=
  return putEntry map (← textOf key) (← textOf value)

/-- A map from texts to texts, empty if absent; pairs in a row are taken as one. -/
def textMap (v : Value) : Outcome (List (String × String)) := do
  match v with
  | .null => return []
  | .map entries => entries.foldlM (fun acc (k, w) => withEntry acc k w) []
  | v =>
    (← v.items).foldlM (fun acc entry => do
      let (k, w) ← pair entry
      withEntry acc k w) []

end SheetMill.Wire.Slot

namespace SheetMill

open Wire

/-- How a kind of message is written and read. -/
structure Transcoder where
  write : MapOrder → Value → Outcome Octets
  read : Octets → Outcome Value

def Transcoder.of {μ : Type} (codec : Codec μ) (ofValue : Value → Outcome μ)
    (toValue : μ → Outcome Value) : Transcoder where
  write order v := codec.encode order <$> ofValue v
  read octets := do toValue (← codec.decode octets)

/-- The transcoder of a message without fields, which is made from any value and gives the same one
back always. -/
def Transcoder.constant (v : Value) : Transcoder where
  write _ _ := .ok []
  read octets :=
    match fieldsOf octets with
    | some _ => .ok v
    | none => .error .badMessage

namespace Message

def textMapValue (entries : List (String × String)) : Value :=
  .record (entries.map fun (k, v) => (k, .text v))

def intValue? : Option Int → Value
  | none => .null
  | some i => .int i

abbrev Names := List (String × Int)

def Names.number (names : Names) (key : Value) : Outcome Int :=
  match key with
  | .text name =>
    match names.lookup name with
    | some n => .ok n
    | none => .error (.missingKey key)
  | key =>
    if key.isKey then .error (.missingKey key)
    else .error (.wrongKind ("unhashable type: '" ++ key.kindName ++ "'"))

def Names.name (names : Names) (number : Int) : Outcome Value :=
  match names.find? (·.2 == number) with
  | some (name, _) => .ok (.text name)
  | none => .error (.missingKey (.int number))

def optional (v : Value) (name : String) : Value := (v.field? name).getD .null

def ifTruthy {α : Type} (v : Value) (make : Value → Outcome α) : Outcome (Option α) :=
  if v.truthy then some <$> make v else .ok none

/-- A message of one field, which has the number one. -/
structure Single (α : Type) where
  name : String
  codec : Codec α
  read : Value → Outcome α
  value : α → Value

namespace Single

variable {α : Type}

def ofValue (m : Single α) (v : Value) : Outcome α := do m.read (← v.item m.name)

def toValue (m : Single α) (a : α) : Value := .record [(m.name, m.value a)]

def transcoder (m : Single α) : Transcoder := .of m.codec m.ofValue fun a => .ok (m.toValue a)

def only (empty : α) (field : Nat → (α → α) → (α → α → α) → FieldCodec α) : Codec α :=
  ⟨empty, [field 1 id fun a _ => a]⟩

def text (name : String) : Single String := ⟨name, only "" .text, Slot.text, .text⟩

def texts (name : String) : Single (List String) := ⟨name, only [] .texts, Slot.texts, .texts⟩

def int (name : String) : Single Int := ⟨name, only 0 .int, Slot.int, .int⟩

def bool (name : String) : Single Bool := ⟨name, only false .bool, Slot.bool, .bool⟩

def textMap (name : String) : Single (List (String × String)) :=
  ⟨name, only [] .textMap, Slot.textMap, textMapValue⟩

def messages (name : String) (codec : Codec α) (ofValue : Value → Outcome α) (toValue : α → Value) :
    Single (List α) :=
  ⟨name, only [] (.messages · codec), fun v => do (← v.items).mapM ofValue,
    fun ms => .list (ms.map toValue)⟩

end Single

end Message

end SheetMill
