
/-!
# Finding and replacing in text

Operations on lists of characters, from which those on texts follow.
-/

namespace SheetMill.Text

def dropPart? : List Char → List Char → Option (List Char)
  | [], cs => some cs
  | _ :: _, [] => none
  | p :: ps, c :: cs => if p = c then dropPart? ps cs else none

def startsWith (s part : String) : Bool := (dropPart? part.toList s.toList).isSome

def endsWith (s part : String) : Bool :=
  (dropPart? part.toList.reverse s.toList.reverse).isSome

def occursIn (part : List Char) : List Char → Bool
  | [] => part.isEmpty
  | c :: cs => (dropPart? part (c :: cs)).isSome || occursIn part cs

def contains (s part : String) : Bool := occursIn part.toList s.toList

/-- The characters with every occurrence of a non-empty `part` replaced, from left to right, given
at least as much fuel as there are characters. -/
def replaceChars (part by_ : List Char) : Nat → List Char → List Char
  | 0, cs => cs
  | _ + 1, [] => []
  | fuel + 1, c :: cs =>
    match dropPart? part (c :: cs) with
    | some rest => by_ ++ replaceChars part by_ fuel rest
    | none => c :: replaceChars part by_ fuel cs

/-- The text with every occurrence of a part replaced, from left to right. -/
def replace (s part by_ : String) : String :=
  let cs := s.toList
  if part.isEmpty then String.ofList (by_.toList ++ cs.flatMap fun c => c :: by_.toList)
  else String.ofList (replaceChars part.toList by_.toList cs.length cs)

def splitChars (sep : Char) : List Char → List (List Char)
  | [] => [[]]
  | c :: cs =>
    if c = sep then [] :: splitChars sep cs
    else
      match splitChars sep cs with
      | [] => [[c]]
      | piece :: pieces => (c :: piece) :: pieces

def split (s : String) (sep : Char) : List String :=
  (splitChars sep s.toList).map String.ofList

def join (sep : String) : List String → String
  | [] => ""
  | s :: rest => rest.foldl (fun text t => text ++ sep ++ t) s

/-! ## Octets of texts -/

def unitOf (octets : List UInt8) : Nat := octets.foldl (fun n o => 256 * n + o.toNat) 0

/-- The octets in groups of the given size; nothing if some are left over. -/
def groupsOf (size : Nat) : Nat → List UInt8 → Option (List (List UInt8))
  | _, [] => some []
  | 0, _ => none
  | fuel + 1, octets =>
    if octets.length < size then none
    else (groupsOf size fuel (octets.drop size)).map (octets.take size :: ·)

def unitsOf? (size : Nat) (highFirst : Bool) (octets : List UInt8) : Option (List Nat) :=
  (groupsOf size octets.length octets).map fun groups =>
    groups.map fun group => unitOf (if highFirst then group else group.reverse)

def charOfCode? (code : Nat) : Option Char :=
  if h : code.isValidChar then some (Char.ofNatAux code h) else none

def charsOfUnits : List Nat → Option (List Char)
  | [] => some []
  | n :: rest =>
    if 0xD800 ≤ n ∧ n < 0xDC00 then
      match rest with
      | m :: more =>
        if 0xDC00 ≤ m ∧ m < 0xE000 then
          (charsOfUnits more).map
            (Char.ofNat (0x10000 + (n - 0xD800) * 0x400 + (m - 0xDC00)) :: ·)
        else none
      | [] => none
    else do return (← charOfCode? n) :: (← charsOfUnits rest)

/-- How code units are stored. -/
inductive UnitForm where
  | bytes
  | pairs (highFirst : Bool)
  | fours (highFirst : Bool)
  deriving Repr, DecidableEq

def UnitForm.decode? (form : UnitForm) (octets : List UInt8) : Option String :=
  match form with
  | bytes => String.fromUTF8? ⟨octets.toArray⟩
  | pairs highFirst =>
    ((unitsOf? 2 highFirst octets).bind charsOfUnits).map String.ofList
  | fours highFirst =>
    ((unitsOf? 4 highFirst octets).bind (·.mapM charOfCode?)).map String.ofList

def formOf (octets : List UInt8) : UnitForm × List UInt8 :=
  match octets with
  | 0 :: 0 :: 0xFE :: 0xFF :: rest => (.fours true, rest)
  | 0xFF :: 0xFE :: 0 :: 0 :: rest => (.fours false, rest)
  | 0xFE :: 0xFF :: rest => (.pairs true, rest)
  | 0xFF :: 0xFE :: rest => (.pairs false, rest)
  | 0xEF :: 0xBB :: 0xBF :: rest => (.bytes, rest)
  | [a, b] => (if a = 0 then .pairs true else if b = 0 then .pairs false else .bytes, octets)
  | a :: b :: c :: d :: _ =>
    (if a = 0 then (if b = 0 then .fours true else .pairs true)
      else if b = 0 then (if c = 0 && d = 0 then .fours false else .pairs false)
      else .bytes, octets)
  | _ => (.bytes, octets)

def unmarked (octets : List UInt8) : Option String :=
  let (form, rest) := formOf octets
  form.decode? rest

end SheetMill.Text
