import SheetMill.Schema.Form

/-!
# Violations of a schema

All violations are collected in the order of the keywords of the schema, and one of them speaks for
all: one that lies least deep, of these one whose place comes last, and of these one where the value
is of another type than the schema says.
-/

namespace SheetMill.Schema

/-- What is wrong with a value, or with a part of it. -/
structure Violation where
  message : String
  /-- The steps that lead from the whole value to the part. -/
  path : List Value := []
  /-- Whether the part is of the type that its schema names. -/
  ofType : Bool := false

namespace Violation

def under (key : Value) (violation : Violation) : Violation :=
  { violation with path := key :: violation.path }

def isWeaker (a b : Violation) : Outcome Bool :=
  if a.path.length != b.path.length then .ok (b.path.length < a.path.length)
  else if Value.sameItems a.path b.path then .ok (a.ofType && !b.ofType)
  else (· == some .lt) <$> Value.itemsOrder ">" a.path b.path

def best : List Violation → Outcome (Option Violation)
  | [] => .ok none
  | v :: rest => some <$> rest.foldlM (fun best w => do
      return if ← best.isWeaker w then w else best) v

end Violation

/-! ## Single keywords -/

def isOfKind (draft : Draft) (type v : Value) (unknown : String := "UnknownType") : Outcome Bool :=
  match Kind.ofValue? draft type with
  | some kind => .ok (kind.holds draft v)
  | none => .error (.other unknown "")

def isOfType (draft : Draft) (schema : List (Value × Value)) (v : Value) : Outcome Bool :=
  match Value.findEntry (.text "type") schema with
  | none => .ok false
  | some (.list types) => types.anyM fun type => isOfKind draft type v unchecked
  | some type => isOfKind draft type v unchecked
where
  unchecked : String := "UndefinedTypeCheck"

def compareNumbers (v bound : Value) : Option Ordering :=
  match Amount.ofValue? v, Amount.ofValue? bound with
  | some a, some b => a.compare? b
  | _, _ => none

def countIs (order : Ordering) (n : Nat) (bound : Value) : Bool :=
  compareNumbers (.int n) bound == some order

/-- Whether a number is no multiple of another one. -/
def isNoMultiple (v unit : Value) : Outcome Bool :=
  match unit, v with
  | .int d, .int i => .ok (i % d != 0)
  | .int d, .float x => do
    let y ← (Value.int d).toFloat
    exact x y
  | .float y, v => do
    let x ← v.toFloat
    match Decimal.Magnitude.ofFloat (x / y) with
    | .finite b => return !b.isWhole
    | .undefined => throw (.badValue "cannot convert float NaN to integer")
    | .infinite _ =>
      if x.isInf then throw (.overflow "cannot convert Infinity to integer ratio")
      else exact x y
  | _, _ => .ok false
where
  exact (x y : Float) : Outcome Bool :=
    match Decimal.Magnitude.ofFloat x, Decimal.Magnitude.ofFloat y with
    | .finite a, .finite b =>
      let num := a.mantissa * Decimal.twoPowNum a.exponent * Decimal.twoPowDen b.exponent
      let den := b.mantissa * Decimal.twoPowNum b.exponent * Decimal.twoPowDen a.exponent
      .ok (num % den != 0)
    | .finite _, .infinite _ => .ok (x != 0.0)
    | _, _ => .ok true

def extraKeys (schema entries : List (Value × Value)) : List Value :=
  let known := match Value.findEntry (.text "properties") schema with
    | some (.map properties) => properties
    | _ => []
  (entries.map (·.1)).filter fun k => (Value.findEntry k known).isNone

def excludes (draft : Draft) (schema : List (Value × Value)) (name : String) : Bool :=
  draft.isEarly && ((Value.findEntry (.text name) schema).map Value.truthy).getD false

/-- What is said of a number that is beyond a bound, or at one that is excluded. -/
def beyondBound (beyond : Ordering) (side bound : String) (v limit : Value) (excluded : Bool) :
    Option String :=
  let order := compareNumbers v limit
  if order == some beyond || excluded && order == some .eq then
    some (v.literal ++ " is " ++ side ++ " than " ++ (if excluded then "or equal to " else "") ++
      "the " ++ bound ++ " of " ++ limit.literal)
  else none

def belowBound : Value → Value → Bool → Option String := beyondBound .lt "less" "minimum"

def aboveBound : Value → Value → Bool → Option String := beyondBound .gt "greater" "maximum"

def Draft.knows (draft : Draft) (keyword : String) : Bool :=
  match keyword with
  | "const" | "exclusiveMinimum" | "exclusiveMaximum" => !draft.isEarly
  | "required" | "multipleOf" => draft != third
  | _ => true

def complaints (draft : Draft) (schema : List (Value × Value)) (keyword : String)
    (given v : Value) : Outcome (List String) :=
  let check (ok : Bool) (text : String) : Outcome (List String) := .ok (if ok then [] else [text])
  match keyword, v with
  | "enum", v =>
    let allowed := match given with
      | .list items => items
      | _ => []
    check (allowed.any (equal · v)) (v.literal ++ " is not one of " ++ given.literal)
  | "const", v => check (equal v given) (given.literal ++ " was expected")
  | "required", .map entries => do
    let names ← given.items
    return (names.filter fun k => (Value.findEntry k entries).isNone).map fun k =>
      k.literal ++ " is a required property"
  | "additionalProperties", .map entries =>
    let extras := (extraKeys schema entries).mergeSort fun a b => a.plain ≤ b.plain
    check (given.truthy || extras.isEmpty)
      ("Additional properties are not allowed (" ++ Text.join ", " (extras.map Value.literal) ++
        (if extras.length = 1 then " was" else " were") ++ " unexpected)")
  | "minLength", .text s => shortage given s.length v
  | "minItems", .list items => shortage given items.length v
  | "maxLength", .text s => excess given s.length v
  | "maxItems", .list items => excess given items.length v
  | "pattern", .text s => do
    check ((← patternOf given.plain).occursIn s) (v.literal ++ " does not match " ++ given.literal)
  | "uniqueItems", .list items =>
    check (!given.truthy || areDistinct items) (v.literal ++ " has non-unique elements")
  | "items", .list items =>
    match draft, given with
    | .of2020, .bool false => check items.isEmpty (superfluous items)
    | _, _ => .ok []
  | keyword, v =>
    if Kind.number.holds draft v then
      match keyword with
      | "minimum" => .ok (belowBound v given (excludes draft schema "exclusiveMinimum")).toList
      | "maximum" => .ok (aboveBound v given (excludes draft schema "exclusiveMaximum")).toList
      | "exclusiveMinimum" => .ok (belowBound v given true).toList
      | "exclusiveMaximum" => .ok (aboveBound v given true).toList
      | "multipleOf" => do
        check (!(← isNoMultiple v given)) (v.literal ++ " is not a multiple of " ++ given.literal)
      | _ => .ok []
    else .ok []
where
  shortage (given : Value) (n : Nat) (v : Value) : Outcome (List String) :=
    .ok (if countIs .lt n given then
      [v.literal ++ (if given.same (.int 1) then " should be non-empty" else " is too short")]
    else [])
  excess (given : Value) (n : Nat) (v : Value) : Outcome (List String) :=
    .ok (if countIs .gt n given then
      [v.literal ++ (if given.same (.int 0) then " is expected to be empty" else " is too long")]
    else [])
  superfluous (items : List Value) : String :=
    "Expected at most 0 items but found " ++ toString items.length ++ " extra: " ++
      match items with
      | [v] => v.literal
      | items => (Value.list items).literal

/-! ## All keywords -/

/-- The violation of a type, if the value is of none that is given. -/
def typeViolations (draft : Draft) (whole : List (Value × Value)) (given v : Value) :
    Outcome (List Violation) := do
  let (isOne, names) ← match given with
    | .list types => pure (← types.anyM (isOfKind draft · v), Text.join ", " (types.map Value.literal))
    | given => pure (← isOfKind draft given v, given.literal)
  if isOne then return []
  return [{ message := v.literal ++ " is not of type " ++ names,
            ofType := ← isOfType draft whole v }]

/-- The step of a path that leads to a value, but for one that nothing is allowed for. -/
def step (schema key : Value) (found : List Violation) : List Violation :=
  match schema with
  | .bool _ => found
  | _ => found.map (·.under key)

mutual

def violations (draft : Draft) (schema v : Value) : Outcome (List Violation) :=
  match schema with
  | .bool false => .ok [{ message := "False schema does not allow " ++ v.literal }]
  | .map entries => keywordViolations draft entries entries v
  | _ => .ok []
termination_by structural schema

def keywordViolations (draft : Draft) (whole keywords : List (Value × Value)) (v : Value) :
    Outcome (List Violation) :=
  match keywords with
  | [] => .ok []
  | (key, given) :: rest => do
    let name := match key with
      | .text name => name
      | _ => ""
    let inner ←
      match name, v with
      | "properties", .map entries => memberViolations draft whole given entries v
      | "items", .list items =>
        match given with
        | .list schemas => eachItemViolations draft schemas items 0
        | given =>
          if draft = .of2020 && isFlag given then pure []
          else items.zipIdx.flatMapM fun (v, i) => do
            return step given (.int i) (← violations draft given v)
      | "type", v => typeViolations draft whole given v
      | _, _ => pure []
    let messages ← if draft.knows name then complaints draft whole name given v else pure []
    let own ← messages.mapM fun message => return { message, ofType := ← isOfType draft whole v }
    return own ++ inner ++ (← keywordViolations draft whole rest v)
termination_by structural keywords

def memberViolations (draft : Draft) (whole : List (Value × Value)) (schemas : Value)
    (entries : List (Value × Value)) (v : Value) : Outcome (List Violation) :=
  match schemas with
  | .map schemas => memberViolationsOf draft whole schemas entries v
  | _ => .ok []
termination_by structural schemas

/-- The violations by the values of a map of the given schemas for them. -/
def memberViolationsOf (draft : Draft) (whole schemas entries : List (Value × Value)) (v : Value) :
    Outcome (List Violation) :=
  match schemas with
  | [] => .ok []
  | (k, schema) :: rest => do
    let found ←
      match Value.findEntry k entries with
      | some w => do pure (step schema k (← violations draft schema w))
      | none =>
        if draft = .third && ((schema.field? "required").map Value.truthy).getD false then
          pure [{ message := k.literal ++ " is a required property", path := [.text "required"]
                  ofType := ← isOfType draft whole v }]
        else pure []
    return found ++ (← memberViolationsOf draft whole rest entries v)
termination_by structural schemas

def eachItemViolations (draft : Draft) (schemas items : List Value) (position : Nat) :
    Outcome (List Violation) :=
  match schemas, items with
  | schema :: schemas, v :: items => do
    let found ← violations draft schema v
    return step schema (.int position) found ++
      (← eachItemViolations draft schemas items (position + 1))
  | _, _ => .ok []
termination_by structural schemas

end

/-- What the violation says that speaks for all violations of a schema by a value. There is none if
the value conforms. -/
def validate (schema v : Value) : Outcome (Option String) := do
  let draft ← draftOf schema
  check draft schema
  return (← Violation.best (← violations draft schema v)).map (·.message)

end SheetMill.Schema
