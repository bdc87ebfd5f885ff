import SheetMill.Fault
import SheetMill.Text.Search

/-!
# The root directory

The root of a project is the nearest directory, going up from the working directory, in which there
is a certain file or directory.
-/

namespace SheetMill.Deployment

abbrev Place := List String

def namesOf (path : String) : List String :=
  (Text.split path '/').filter fun name => !(name.isEmpty || name == ".")

def Place.next (place : Place) (name : String) : Place :=
  if name == ".." then place.dropLast else place ++ [name]

def placesAlong (place : Place) : List String → List Place
  | [] => [place]
  | name :: rest => place :: placesAlong (place.next name) rest

def placeOf (path : String) : Place := (namesOf path).foldl Place.next []

/-- The files, and the way to the working directory. -/
structure Files where
  files : List Place
  way : List String

namespace Files

def working (f : Files) : Place := f.way.foldl Place.next []

def isDirectory (f : Files) (place : Place) : Bool :=
  (placesAlong [] f.way).contains place ||
    f.files.any fun file => place.isPrefixOf file && place != file

def isThere (f : Files) (place : Place) : Bool := f.isDirectory place || f.files.contains place

/-- Whether some names lead from a directory to something. -/
def leads (f : Files) (place : Place) : List String → Bool
  | [] => f.isThere place
  | name :: rest =>
    if name == ".." then
      f.isDirectory place &&
        if place.isEmpty then rest.all (· == "..") else leads f place.dropLast rest
    else leads f (place ++ [name]) rest

/-- The nearest directory from which the anchor is reached, among a place and those above it, the
given number of which there are. -/
def rootFrom (f : Files) (anchor : List String) (place : Place) : Nat → Option Place
  | 0 => none
  | n + 1 => if f.leads place anchor then some place else rootFrom f anchor place.dropLast n

/-- The root of the project. -/
def root (f : Files) (anchor : String := "pyproject.toml") : Outcome Place :=
  let names := namesOf anchor
  let found := if Text.startsWith anchor "/" then
      if names.all (· == "..") then some f.working else none
    else f.rootFrom names f.working (f.working.length + 1)
  match found with
  | some place => .ok place
  | none => .error (.noFile ("Could not find " ++ anchor ++ " in the parent directories of " ++
      Text.join "/" f.working))

def rootFor (f : Files) (args : List Value) : Outcome Place :=
  match args with
  | [] => f.root
  | [.text anchor] => f.root anchor
  | [v] => .error (.wrongKind ("unsupported operand type(s) for /: 'PosixPath' and '" ++
      v.kindName ++ "'"))
  | _ => .error (.wrongKind "takes from 0 to 1 positional arguments")

end Files

def placeText (place : Place) : String := if place.isEmpty then "." else Text.join "/" place

end SheetMill.Deployment
