import SheetMill.Value.Access

/-!
# Arguments

The arguments of an operation that is asked for by its name: some by position, the others by name.
-/

namespace SheetMill

/-- The arguments of a call. -/
structure Arguments where
  positional : List Value := []
  named : List (Value × Value) := []

/-- The parameters of a function, with their defaults. -/
structure Signature where
  required : List String := []
  optional : List (String × Value) := []
  namedOnly : List (String × Value) := []
  isOpen : Bool := false

namespace Signature

def places (s : Signature) : List String := s.required ++ s.optional.map (·.1)

def names (s : Signature) : List String := s.places ++ s.namedOnly.map (·.1)

def default? (s : Signature) (name : String) : Option Value :=
  (s.optional ++ s.namedOnly).lookup name

end Signature

abbrev Bound := List (String × Value)

def Bound.value (bound : Bound) (name : String) : Value := (bound.lookup name).getD .null

namespace Arguments

def byName? (args : Arguments) (name : String) : Option Value :=
  Value.findEntry (.text name) args.named

def others (args : Arguments) (s : Signature) : List (Value × Value) :=
  args.named.filter fun (k, _) => !s.names.any fun name => k.same (.text name)

/-- The arguments by the names of the parameters. -/
def bind (args : Arguments) (s : Signature) : Outcome Bound := do
  if s.places.length < args.positional.length then
    throw (.wrongKind ("takes " ++ toString s.places.length ++ " positional arguments but " ++
      toString args.positional.length ++ " were given"))
  if !s.isOpen && !(args.others s).isEmpty then
    throw (.wrongKind "got an unexpected keyword argument")
  let placed := s.places.zip args.positional
  s.names.mapM fun name =>
    match placed.lookup name, args.byName? name, s.default? name with
    | some _, some _, _ =>
      throw (.wrongKind ("got multiple values for argument '" ++ name ++ "'"))
    | some v, none, _ | none, some v, _ | none, none, some v => return (name, v)
    | none, none, none =>
      throw (.wrongKind ("missing 1 required positional argument: '" ++ name ++ "'"))

end Arguments

/-! ## Configurations -/

abbrev Configuration := List (String × Value)

namespace Configuration

def with_ (c : Configuration) (changes : Configuration) : Configuration :=
  c.map fun (name, value) => (name, (changes.lookup name).getD value)

def value (c : Configuration) (name : String) : Value := (c.lookup name).getD .null

def text (c : Configuration) (name : String) : String := (c.value name).plain

def flag (c : Configuration) (name : String) : Bool := (c.value name).truthy

end Configuration

end SheetMill
