import SheetMill.Schema.Kind
import SheetMill.Text.Pattern.Reader

/-!
# The form of schemas

A schema is a map whose known keywords have values of the right form, or in the later drafts a truth
value. The keywords are those that describe the rows and cells of a table. Of several troubles the
one that comes first in the order of the draft's keywords counts.
-/

namespace SheetMill.Schema

/-- What the value of a keyword has to be. -/
inductive Form where
  | text
  | pattern
  | flag
  | number
  | positive
  | integer
  /-- An integer that is not negative. -/
  | count
  | list
  /-- A list of different values that is not empty. -/
  | choices
  /-- A list of different texts. -/
  | names
  /-- A list of different texts that is not empty. -/
  | someNames
  /-- A text, or a list of different texts. -/
  | anyTypes
  /-- A type, or a list of different types that is not empty. -/
  | types
  | schema
  | schemaOrSchemas
  | schemaOrList
  | schemaOrFlag
  | schemaMap
  deriving Repr, DecidableEq

/-! ## Keywords -/

/-- Keywords about the schema as such. -/
def leadForms : List (String × Form) := [("$schema", .text), ("$ref", .text)]

/-- Keywords for readers. -/
def noteForms : List (String × Form) := [
  ("title", .text), ("description", .text), ("format", .text)]

def thirdForms : List (String × Form) := [
  ("type", .anyTypes), ("properties", .schemaMap), ("additionalProperties", .schemaOrFlag),
  ("items", .schemaOrList), ("required", .flag), ("minimum", .number), ("maximum", .number),
  ("exclusiveMinimum", .flag), ("exclusiveMaximum", .flag), ("minItems", .count),
  ("maxItems", .count), ("uniqueItems", .flag), ("pattern", .pattern), ("minLength", .count),
  ("maxLength", .integer), ("enum", .choices)] ++ noteForms ++ leadForms

def fourthForms : List (String × Form) := leadForms ++ noteForms ++ [
  ("multipleOf", .positive), ("maximum", .number), ("exclusiveMaximum", .flag),
  ("minimum", .number), ("exclusiveMinimum", .flag), ("maxLength", .count), ("minLength", .count),
  ("pattern", .pattern), ("items", .schemaOrSchemas), ("maxItems", .count), ("minItems", .count),
  ("uniqueItems", .flag), ("required", .someNames), ("additionalProperties", .schemaOrFlag),
  ("properties", .schemaMap), ("enum", .choices), ("type", .types)]

/-- Keywords about numbers and texts. -/
def scalarForms : List (String × Form) := [
  ("multipleOf", .positive), ("maximum", .number), ("exclusiveMaximum", .number),
  ("minimum", .number), ("exclusiveMinimum", .number), ("maxLength", .count),
  ("minLength", .count), ("pattern", .pattern)]

/-- Keywords about the size of lists and maps. -/
def sizeForms : List (String × Form) := [
  ("maxItems", .count), ("minItems", .count), ("uniqueItems", .flag), ("required", .names)]

/-- Keywords about the parts of maps. -/
def memberForms : List (String × Form) := [
  ("additionalProperties", .schema), ("properties", .schemaMap)]

/-- Keywords that say which values there are. -/
def valueForms : List (String × Form) := [("enum", .list), ("type", .types)]

/-- The keywords of a draft in its order. -/
def Draft.forms : Draft → List (String × Form)
  | third => thirdForms
  | fourth => fourthForms
  | sixth | seventh => leadForms ++ noteForms ++ scalarForms ++ ("items", .schemaOrSchemas) ::
    sizeForms ++ memberForms ++ valueForms
  | of2019 => leadForms ++ ("items", .schemaOrSchemas) :: memberForms ++ scalarForms ++ sizeForms ++
    valueForms ++ noteForms
  | of2020 => leadForms ++ ("items", .schema) :: memberForms ++ valueForms ++ scalarForms ++
    sizeForms ++ noteForms

/-! ## Plain forms -/

def noSchema : Fault := .badSchema ""

def need (condition : Bool) : Outcome Unit := if condition then .ok () else .error noSchema

def patternOf (s : String) : Outcome Text.Pattern :=
  match Text.Pattern.ofString s with
  | .ok pattern => .ok pattern
  | .error .illFormed => .error noSchema
  | .error .tooMany => .error (.overflow "the repetition number is too large")
  | .error .tooLong => .error (.badValue "Exceeds the limit for integer string conversion")
  | .error .contradictory => .error (.badValue "ASCII and UNICODE flags are incompatible")

def isCount (draft : Draft) (v : Value) : Bool :=
  Kind.integer.holds draft v &&
    match v with
    | .int i => 0 ≤ i
    | .float x => 0 ≤ x
    | _ => false

def isPositive : Value → Bool
  | .int i => 0 < i
  | .float x => !(x ≤ 0)
  | _ => false

def areNames (draft : Draft) : Value → Bool
  | .list items => items.all (Kind.string.holds draft) && areDistinct items
  | _ => false

def isSomeList : Value → Bool
  | .list items => !items.isEmpty
  | _ => false

def areTypes (draft : Draft) : Value → Bool
  | .list items =>
    !items.isEmpty && items.all (fun v => (Kind.ofValue? draft v).isSome) && areDistinct items
  | v => (Kind.ofValue? draft v).isSome

def isList : Value → Bool
  | .list _ => true
  | _ => false

def isFlag : Value → Bool
  | .bool _ => true
  | _ => false

def checkPlain (draft : Draft) (form : Form) (v : Value) : Outcome Unit :=
  match form with
  | .text => need (Kind.string.holds draft v)
  | .pattern =>
    match v with
    | .text s => discard (patternOf s)
    | _ => .error noSchema
  | .flag => need (Kind.boolean.holds draft v)
  | .number => need (Kind.number.holds draft v)
  | .positive => need (isPositive v)
  | .integer => need (Kind.integer.holds draft v)
  | .count => need (isCount draft v)
  | .list => need (Kind.array.holds draft v)
  | .choices =>
    match v with
    | .list items => need (!items.isEmpty && areDistinct items)
    | _ => .error noSchema
  | .names => need (areNames draft v)
  | .someNames => need (isSomeList v && areNames draft v)
  | .anyTypes => need (Kind.string.holds draft v || areNames draft v)
  | .types => need (areTypes draft v)
  | _ => .error noSchema

def checkPartners (draft : Draft) (entries : List (Value × Value)) : Outcome Unit :=
  let has (name : String) : Bool := (Value.findEntry (.text name) entries).isSome
  need (!draft.isEarly ||
    (!has "exclusiveMinimum" || has "minimum") && (!has "exclusiveMaximum" || has "maximum"))

/-! ## Schemas -/

def inOrder (draft : Draft) (checks : List (String × Outcome Unit)) : Outcome Unit :=
  draft.forms.forM fun (name, _) => (checks.lookup name).getD (.ok ())

mutual

def check (draft : Draft) : Value → Outcome Unit
  | .bool _ => need (!draft.isEarly)
  | .map entries => do
    inOrder draft (keywordChecks draft entries)
    checkPartners draft entries
  | _ => .error noSchema

def keywordChecks (draft : Draft) : List (Value × Value) → List (String × Outcome Unit)
  | [] => []
  | (key, v) :: rest =>
    let name := match key with
      | .text name => name
      | _ => ""
    let result := match draft.forms.lookup name with
      | none => .ok ()
      | some .schema => check draft v
      | some .schemaOrSchemas => if isList v then checkList draft false v else check draft v
      | some .schemaOrList => if isList v then checkList draft true v else check draft v
      | some .schemaOrFlag => if isFlag v then .ok () else check draft v
      | some .schemaMap => checkMap draft v
      | some form => checkPlain draft form v
    (name, result) :: keywordChecks draft rest

def checkList (draft : Draft) (mayBeEmpty : Bool) : Value → Outcome Unit
  | .list items => do
    need (mayBeEmpty || !items.isEmpty)
    checkItems draft items
  | _ => .error noSchema

def checkItems (draft : Draft) : List Value → Outcome Unit
  | [] => .ok ()
  | v :: rest => do
    check draft v
    checkItems draft rest

def checkMap (draft : Draft) : Value → Outcome Unit
  | .map entries => checkEntries draft entries
  | _ => .error noSchema

def checkEntries (draft : Draft) : List (Value × Value) → Outcome Unit
  | [] => .ok ()
  | (_, v) :: rest => do
    check draft v
    checkEntries draft rest

end

end SheetMill.Schema
