import SheetMill.Fault

/-!
# Codecs of messages

A codec says for each field of a message how it is written and read. A field with its default value
is not written, unless its presence means something.
-/

namespace SheetMill.Wire

/-! ## Fields on the wire -/

abbrev Octets := List UInt8

/-- What a field carries. -/
inductive Payload where
  | varint (n : Nat)
  | fixed64 (octets : Octets)
  | delimited (octets : Octets)
  | group
  | fixed32 (octets : Octets)
  deriving Repr, DecidableEq

/-- A field of a message. -/
structure Field where
  number : Nat
  payload : Payload
  deriving Repr, DecidableEq

/-! ## Writing -/

def putVarint (n : Nat) : Octets :=
  if n < 128 then [UInt8.ofNat n] else UInt8.ofNat (n % 128 + 128) :: putVarint (n / 128)
termination_by n
decreasing_by omega

def Payload.form : Payload → Nat
  | varint _ => 0
  | fixed64 _ => 1
  | delimited _ => 2
  | group => 3
  | fixed32 _ => 5

def Payload.put : Payload → Octets
  | varint n => putVarint n
  | fixed64 octets | fixed32 octets => octets
  | delimited octets => putVarint octets.length ++ octets
  | group => []

def Field.put (f : Field) : Octets := putVarint (f.number * 8 + f.payload.form) ++ f.payload.put

/-! ## Reading -/

def varintLimit : Nat := 10

def takeVarintOf : Nat → Octets → Option (Nat × Octets)
  | 0, _ => none
  | _ + 1, [] => none
  | limit + 1, o :: rest =>
    if o.toNat < 128 then some (o.toNat, rest)
    else (takeVarintOf limit rest).map fun (n, tail) => (o.toNat - 128 + 128 * n, tail)

def takeVarint (octets : Octets) : Option (Nat × Octets) :=
  (takeVarintOf varintLimit octets).map fun (n, rest) => (n % 0x10000000000000000, rest)

def takeOctets (count : Nat) (octets : Octets) : Option (Octets × Octets) :=
  if count ≤ octets.length then some (octets.take count, octets.drop count) else none

mutual

def takePayload (fuel form : Nat) (octets : Octets) : Option (Payload × Octets) :=
  match fuel with
  | 0 => none
  | fuel + 1 =>
    match form with
    | 0 => (takeVarint octets).map fun (n, rest) => (.varint n, rest)
    | 1 => (takeOctets 8 octets).map fun (os, rest) => (.fixed64 os, rest)
    | 2 =>
      match takeVarint octets with
      | some (count, rest) =>
        (takeOctets count rest).map fun (os, tail) => (.delimited os, tail)
      | none => none
    | 3 => (skipGroup fuel octets).map fun rest => (.group, rest)
    | 5 => (takeOctets 4 octets).map fun (os, rest) => (.fixed32 os, rest)
    | _ => none

def skipGroup (fuel : Nat) (octets : Octets) : Option Octets :=
  match fuel with
  | 0 => none
  | fuel + 1 =>
    match takeVarint octets with
    | none => none
    | some (tag, rest) =>
      if tag % 8 = 4 then some rest
      else
        match takePayload fuel (tag % 8) rest with
        | some (_, tail) => skipGroup fuel tail
        | none => none

end

/-- The fields of an encoded message, given at least as much fuel as there are octets. -/
def takeFields : Nat → Octets → Option (List Field)
  | _, [] => some []
  | 0, _ :: _ => none
  | fuel + 1, octets@(_ :: _) =>
    match takeVarint octets with
    | none => none
    | some (tag, rest) =>
      if tag / 8 = 0 then none
      else
        match takePayload (rest.length + 1) (tag % 8) rest with
        | none => none
        | some (payload, tail) =>
          (takeFields fuel tail).map fun fields =>
            if (putVarint tag).length + rest.length = octets.length then
              ⟨tag / 8, payload⟩ :: fields
            else fields

def fieldsOf (octets : Octets) : Option (List Field) := takeFields octets.length octets

/-! ## Codecs of messages -/

/-- The order in which the entries of a map are written. -/
inductive MapOrder where
  | byKey
  | asInserted
  deriving Repr, DecidableEq

/-- How a field of a message is written and read. -/
structure FieldCodec (μ : Type) where
  number : Nat
  /-- The payloads to be written, none if the field is not present. -/
  write : MapOrder → μ → List Payload
  /-- The message with a payload read into it; nothing if the payload has another form. -/
  read : Payload → μ → Outcome (Option μ)

/-- How a message is written and read. -/
structure Codec (μ : Type) where
  empty : μ
  fields : List (FieldCodec μ)

variable {μ ν : Type}

def Codec.encode (codec : Codec μ) (order : MapOrder) (m : μ) : Octets :=
  codec.fields.flatMap fun f => (f.write order m).flatMap fun p => (Field.mk f.number p).put

def Codec.absorb (codec : Codec μ) (m : μ) (field : Field) : Outcome μ :=
  match codec.fields.find? (·.number == field.number) with
  | none => .ok m
  | some f => do
    match ← f.read field.payload m with
    | some m' => return m'
    | none => return m

def Codec.decodeInto (codec : Codec μ) (m : μ) (octets : Octets) : Outcome μ :=
  match fieldsOf octets with
  | none => .error .badMessage
  | some fields => fields.foldlM codec.absorb m

def Codec.decode (codec : Codec μ) (octets : Octets) : Outcome μ :=
  codec.decodeInto codec.empty octets

/-! ## Scalars -/

def textOctets (s : String) : Octets := s.toUTF8.toList

def octetsText? (octets : Octets) : Option String := String.fromUTF8? ⟨octets.toArray⟩

def readText (octets : Octets) : Outcome String :=
  match octetsText? octets with
  | some s => .ok s
  | none => .error .badMessage

def intPayload (i : Int) : Payload := .varint (i % 0x10000000000000000).toNat

def readInt32 (n : Nat) : Int :=
  let low : Nat := n % 0x100000000
  if low < 0x80000000 then low else (low : Int) - 0x100000000

/-- The four octets of a single-precision number, the lowest first; what is no number has one
form. -/
def singleOctets (x : Float32) : Octets :=
  let bits := if x.isNaN then 0x7fc00000 else x.toBits.toNat
  [0, 8, 16, 24].map fun shift => UInt8.ofNat (bits >>> shift % 256)

def readSingle (octets : Octets) : Float32 :=
  Float32.ofBits (UInt32.ofNat (octets.foldr (fun o n => o.toNat + 256 * n) 0))

/-! ## Fields -/

namespace FieldCodec

def ofDelimited (number : Nat) (write : MapOrder → μ → List Octets)
    (read : Octets → μ → Outcome μ) : FieldCodec μ where
  number
  write order m := (write order m).map .delimited
  read
    | .delimited octets, m => some <$> read octets m
    | _, _ => .ok none

def ofVarint (number : Nat) (write : μ → Option Int) (read : Nat → μ → μ) : FieldCodec μ where
  number
  write _ m := (write m).toList.map intPayload
  read
    | .varint n, m => .ok (some (read n m))
    | _, _ => .ok none

def text (number : Nat) (get : μ → String) (set : String → μ → μ) : FieldCodec μ :=
  ofDelimited number (fun _ m => if (get m).isEmpty then [] else [textOctets (get m)])
    fun octets m => (set · m) <$> readText octets

def text? (number : Nat) (get : μ → Option String) (set : Option String → μ → μ) : FieldCodec μ :=
  ofDelimited number (fun _ m => (get m).toList.map textOctets)
    fun octets m => (fun s => set (some s) m) <$> readText octets

def int (number : Nat) (get : μ → Int) (set : Int → μ → μ) : FieldCodec μ :=
  ofVarint number (fun m => if get m = 0 then none else some (get m)) fun n => set (readInt32 n)

def int? (number : Nat) (get : μ → Option Int) (set : Option Int → μ → μ) : FieldCodec μ :=
  ofVarint number get fun n => set (some (readInt32 n))

def bool (number : Nat) (get : μ → Bool) (set : Bool → μ → μ) : FieldCodec μ :=
  ofVarint number (fun m => if get m then some 1 else none) fun n => set (n != 0)

def bool? (number : Nat) (get : μ → Option Bool) (set : Option Bool → μ → μ) : FieldCodec μ :=
  ofVarint number (fun m => (get m).map fun b => if b then 1 else 0) fun n => set (some (n != 0))

def single? (number : Nat) (get : μ → Option Float32) (set : Option Float32 → μ → μ) :
    FieldCodec μ where
  number
  write _ m := (get m).toList.map fun x => .fixed32 (singleOctets x)
  read
    | .fixed32 octets, m => .ok (some (set (some (readSingle octets)) m))
    | _, _ => .ok none

def texts (number : Nat) (get : μ → List String) (set : List String → μ → μ) : FieldCodec μ :=
  ofDelimited number (fun _ m => (get m).map textOctets)
    fun octets m => (fun s => set (get m ++ [s]) m) <$> readText octets

/-- A message that may be absent; a second occurrence is read into the first. -/
def message (number : Nat) (codec : Codec ν) (get : μ → Option ν) (set : Option ν → μ → μ) :
    FieldCodec μ :=
  ofDelimited number (fun order m => (get m).toList.map (codec.encode order))
    fun octets m =>
      (fun n => set (some n) m) <$> codec.decodeInto ((get m).getD codec.empty) octets

def messages (number : Nat) (codec : Codec ν) (get : μ → List ν) (set : List ν → μ → μ) :
    FieldCodec μ :=
  ofDelimited number (fun order m => (get m).map (codec.encode order))
    fun octets m => (fun n => set (get m ++ [n]) m) <$> codec.decode octets

end FieldCodec

/-! ## Maps -/

def entryCodec {κ : Type} (key : FieldCodec (κ × ν)) (value : FieldCodec (κ × ν)) (empty : κ × ν) :
    Codec (κ × ν) := ⟨empty, [key, value]⟩

def putEntry {κ : Type} [BEq κ] (entries : List (κ × ν)) (key : κ) (value : ν) : List (κ × ν) :=
  match entries with
  | [] => [(key, value)]
  | (k, v) :: rest => if k == key then (k, value) :: rest else (k, v) :: putEntry rest key value

def MapOrder.arrange {κ : Type} (order : MapOrder) (le : κ → κ → Bool) (entries : List (κ × ν)) :
    List (κ × ν) :=
  match order with
  | .byKey => entries.mergeSort fun a b => le a.1 b.1
  | .asInserted => entries

def textLe (s t : String) : Bool := decide (s ≤ t)

def textKey : FieldCodec (String × ν) :=
  .text? 1 (fun e => some e.1) fun s e => (s.getD "", e.2)

def intKey : FieldCodec (Int × ν) :=
  .int? 1 (fun e => some e.1) fun i e => (i.getD 0, e.2)

def textEntry : Codec (String × String) :=
  entryCodec textKey (.text? 2 (fun e => some e.2) fun s e => (e.1, s.getD "")) ("", "")

def messageEntry {κ : Type} (key : FieldCodec (κ × ν)) (noKey : κ) (codec : Codec ν) :
    Codec (κ × ν) :=
  entryCodec key (.message 2 codec (fun e => some e.2) fun v e => (e.1, v.getD codec.empty))
    (noKey, codec.empty)

namespace FieldCodec

def map {κ : Type} [BEq κ] (number : Nat) (entry : Codec (κ × ν)) (le : κ → κ → Bool)
    (get : μ → List (κ × ν)) (set : List (κ × ν) → μ → μ) : FieldCodec μ :=
  ofDelimited number
    (fun order m => (order.arrange le (get m)).map (entry.encode order))
    fun octets m => (fun (k, v) => set (putEntry (get m) k v) m) <$> entry.decode octets

def textMap (number : Nat) (get : μ → List (String × String))
    (set : List (String × String) → μ → μ) : FieldCodec μ :=
  map number textEntry textLe get set

def messageMap (number : Nat) (codec : Codec ν) (get : μ → List (String × ν))
    (set : List (String × ν) → μ → μ) : FieldCodec μ :=
  map number (messageEntry textKey "" codec) textLe get set

def intMessageMap (number : Nat) (codec : Codec ν) (get : μ → List (Int × ν))
    (set : List (Int × ν) → μ → μ) : FieldCodec μ :=
  map number (messageEntry intKey 0 codec) (fun i j => decide (i ≤ j)) get set

end FieldCodec

end SheetMill.Wire
