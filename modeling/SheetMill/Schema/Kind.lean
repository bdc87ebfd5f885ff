import SheetMill.Value.Order

/-!
# Types and equality in schemas

The types that schemas give to values, and the equality that they use: a truth value is never equal
to a number, at any depth, and octets are equal to the list of their numbers.
-/

namespace SheetMill.Schema

/-! ## Drafts of the schema language

A schema names the draft of the language that it is written in by an address. The draft of 2020
holds where no address, or an unknown one, is given. -/

/-- The versions of JSON schema. -/
inductive Draft where
  | third | fourth | sixth | seventh | of2019 | of2020
  deriving Repr, DecidableEq

namespace Draft

def all : List Draft := [third, fourth, sixth, seventh, of2019, of2020]

def address : Draft → String
  | third => "http://json-schema.org/draft-03/schema"
  | fourth => "http://json-schema.org/draft-04/schema"
  | sixth => "http://json-schema.org/draft-06/schema"
  | seventh => "http://json-schema.org/draft-07/schema"
  | of2019 => "https://json-schema.org/draft/2019-09/schema"
  | of2020 => "https://json-schema.org/draft/2020-12/schema"

/-- Whether the draft is one of the first two, in which a truth value is no schema, a bound excludes
itself by a flag beside it, and only a number without a point is an integer. -/
def isEarly : Draft → Bool
  | third | fourth => true
  | _ => false

end Draft

def withoutLast (c : Char) (cs : List Char) : List Char :=
  if cs.getLast? = some c then cs.dropLast else cs

/-- An address in the form in which addresses are compared: without line ends and tabs, without
control characters and blanks in front, its scheme in lower case, and without an empty query and an
empty fragment. -/
def comparedAddress (s : String) : String :=
  let cs := (s.toList.dropWhile fun c => c.toNat ≤ 32).filter fun c =>
    c != '\t' && c != '\n' && c != '\r'
  let scheme := cs.takeWhile (· != ':')
  let rest := withoutLast '?' (withoutLast '#' (cs.dropWhile (· != ':')))
  String.ofList (scheme.map Char.toLower ++ rest)

def hostOf (s : String) : List Char :=
  match (s.toList.dropWhile (· != ':')).drop 1 with
  | '/' :: '/' :: rest => rest.takeWhile fun c => c != '/' && c != '?' && c != '#'
  | _ => []

def draftAt (address : Value) : Outcome Draft :=
  match address with
  | .text s =>
    let host := hostOf s
    if host.contains '[' != host.contains ']' then .error (.badValue "Invalid IPv6 URL")
    else .ok ((Draft.all.find? (·.address == comparedAddress s)).getD .of2020)
  | .bytes octets =>
    if octets.all (· < 128) then .ok .of2020
    else .error (.badEncoding "ordinal not in range(128)")
  | v =>
    if !v.isKey then .error (.wrongKind ("unhashable type: '" ++ v.kindName ++ "'"))
    else if v.truthy then .error (v.memberFault "decode")
    else .ok .of2020

def draftOf (schema : Value) : Outcome Draft := do
  match schema with
  | .bool _ => return .of2020
  | schema =>
    if ← schema.holds (.text "$schema") then draftAt (← schema.item "$schema")
    else return .of2020

/-! ## Types and equality -/

/-- The types of values in a schema. -/
inductive Kind where
  | any | array | boolean | integer | null | number | object | string
  deriving Repr, DecidableEq

namespace Kind

def name : Kind → String
  | any => "any"
  | array => "array"
  | boolean => "boolean"
  | integer => "integer"
  | null => "null"
  | number => "number"
  | object => "object"
  | string => "string"

def allIn (draft : Draft) : List Kind :=
  (if draft = .third then [any] else []) ++
    [array, boolean, integer, null, number, object, string]

def ofValue? (draft : Draft) : Value → Option Kind
  | .text name => (allIn draft).find? (·.name == name)
  | _ => none

/-- Whether a value is of a type. -/
def holds (draft : Draft) : Kind → Value → Bool
  | any, _ => true
  | array, .list _ => true
  | boolean, .bool _ => true
  | integer, .int _ => true
  | integer, .float x => !draft.isEarly && Decimal.isWhole x
  | null, .null => true
  | number, .int _ => true
  | number, .float _ => true
  | object, .map _ => true
  | string, .text _ => true
  | _, _ => false

end Kind

/-! ## Equality -/

def equalOctets : List UInt8 → List Value → Bool
  | [], [] => true
  | o :: octets, .int i :: items => (o.toNat : Int) == i && equalOctets octets items
  | o :: octets, .float x :: items =>
    Value.same (.int o.toNat) (.float x) && equalOctets octets items
  | _, _ => false

mutual

def equal : Value → Value → Bool
  | .bool a, .bool b => a == b
  | .bool _, _ => false
  | .list xs, .list ys => equalItems xs ys
  | .list xs, .bytes octets => equalOctets octets xs
  | .bytes octets, .list ys => equalOctets octets ys
  | .map es, .map fs => es.length == fs.length && equalEntries es fs
  | v, w =>
    match w with
    | .bool _ => false
    | w => v.same w

def equalItems : List Value → List Value → Bool
  | [], [] => true
  | x :: xs, y :: ys => equal x y && equalItems xs ys
  | _, _ => false

def equalEntries : List (Value × Value) → List (Value × Value) → Bool
  | [], _ => true
  | (k, v) :: rest, fs =>
    (match Value.findEntry k fs with
    | some w => equal v w
    | none => false) && equalEntries rest fs

end

def allDiffer : List Value → Bool
  | [] => true
  | v :: rest => !rest.any (equal v) && allDiffer rest

def neighboursDiffer : List Value → Bool
  | v :: w :: rest => !equal v w && neighboursDiffer (w :: rest)
  | _ => true

def inOrder? (items : List Value) : Option (List Value) :=
  if items.length > 1 && items.any (fun v => match v with | .bool _ => true | _ => false) then none
  else (Value.sorted items).toOption

def areDistinct (items : List Value) : Bool :=
  match inOrder? items with
  | some sorted => neighboursDiffer sorted
  | none => allDiffer items

end SheetMill.Schema
