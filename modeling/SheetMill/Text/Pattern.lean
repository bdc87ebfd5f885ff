import SheetMill.Text.Casing

/-!
# Patterns

Regular expressions over texts. Matching tries the ways to match in order of preference and takes up
the next one when the rest of the pattern fails.
-/

namespace SheetMill.Text

def isWordChar (c : Char) : Bool := isLetter c || isDigit c || isNumeral c || c = '_'

/-- How a part of a pattern is matched. -/
structure PatternMode where
  ignoreCase : Bool := false
  /-- Whether the start and the end of a line count as those of the text. -/
  lines : Bool := false
  /-- Whether a line end is a character like any other. -/
  anyChar : Bool := false
  /-- Whether only ASCII characters are letters, digits and white space. -/
  ascii : Bool := false
  deriving Repr, DecidableEq, Inhabited

/-- A class of characters. -/
inductive CharClass where
  | span (first last : Nat)
  | digit
  | word
  | blank
  deriving Repr, DecidableEq

namespace PatternMode

def isWord (mode : PatternMode) (c : Char) : Bool :=
  if mode.ascii then c.isAlphanum || c = '_' else isWordChar c

/-- Whether two characters are the same once both are in lower case, or as they are if the mode
tells the cases apart. -/
def same (mode : PatternMode) (a b : Char) : Bool :=
  if !mode.ignoreCase then a == b
  else if mode.ascii then a.toLower == b.toLower
  else lowerOne a == lowerOne b

def formsOf (mode : PatternMode) (c : Char) : List Char :=
  if !mode.ignoreCase then [c]
  else if mode.ascii then [c, c.toLower, c.toUpper]
  else letterForms c

end PatternMode

def CharClass.accepts (mode : PatternMode) (c : Char) : CharClass → Bool
  | span first last => (mode.formsOf c).any fun d => first ≤ d.toNat && d.toNat ≤ last
  | digit => if mode.ascii then c.isDigit else isDecimal c
  | word => mode.isWord c
  | blank => if mode.ascii then Spans.covers [(9, 13), (32, 32)] c else isBlank c

/-- A set of characters in square brackets. -/
structure CharSet where
  inverted : Bool := false
  kinds : List (Bool × CharClass)
  deriving Repr, DecidableEq

def CharSet.accepts (mode : PatternMode) (set : CharSet) (c : Char) : Bool :=
  (set.kinds.any fun (inverted, kind) => kind.accepts mode c != inverted) != set.inverted

/-- How often a part is repeated. -/
structure Count where
  least : Nat
  most : Option Nat
  deriving Repr, DecidableEq

/-- Which number of repetitions is tried first. -/
inductive Greed where
  /-- The greatest number first. -/
  | eager
  /-- The least number first. -/
  | lazy
  /-- Only the greatest number that can be reached. -/
  | possessive
  deriving Repr, DecidableEq

/-- How many characters a pattern can match. -/
structure Width where
  least : Nat
  most : Nat
  deriving Repr, DecidableEq

/-- A regular expression. -/
inductive Pattern where
  | empty
  | one (mode : PatternMode) (set : CharSet)
  | seq (first second : Pattern)
  | alt (first second : Pattern)
  | many (count : Count) (greed : Greed) (part : Pattern)
  | start (lines : Bool)
  /-- The end of the text or of a line, or the place before a line end that ends the text. -/
  | finish (lines : Bool)
  | stop
  /-- The edge of a word, or any other place. -/
  | edge (mode : PatternMode) (inverted : Bool)
  | ahead (inverted : Bool) (part : Pattern)
  /-- A place up to which a pattern of a certain width matches, or does not. -/
  | behind (width : Width) (inverted : Bool) (part : Pattern)
  | group (number : Nat) (part : Pattern)
  | again (mode : PatternMode) (number : Nat)
  | given (number : Nat) (yes no : Pattern)
  /-- A pattern that is not matched in another way once it has matched. -/
  | atomic (part : Pattern)
  deriving Repr, DecidableEq

namespace Pattern

/-! ## Matching -/

/-- How far a match has come. -/
structure Progress where
  place : Nat
  /-- Where groups begin (at the even marks) and end (at the odd ones), the latest first. -/
  marks : List (Nat × Nat) := []
  deriving Repr, DecidableEq

def Progress.mark (p : Progress) (number : Nat) : Progress :=
  { p with marks := (number, p.place) :: p.marks }

def Progress.forward (p : Progress) (count : Nat) : Progress := { p with place := p.place + count }

def Progress.spanOf? (p : Progress) (number : Nat) : Option (Nat × Nat) := do
  let first ← p.marks.lookup (2 * number)
  let last ← p.marks.lookup (2 * number + 1)
  if first ≤ last then some (first, last) else none

abbrev Rest := Progress → Option Progress

/-- A part of a pattern, as the way it goes on from a progress to the rest. -/
abbrev Step := Progress → Rest → Option Progress

def run (accepts : Char → Bool) (text : Array Char) : Nat → Nat → Nat
  | 0, _ => 0
  | limit + 1, place =>
    match text[place]? with
    | some c => if accepts c then run accepts text limit (place + 1) + 1 else 0
    | none => 0

def fromMost (p : Progress) (rest : Rest) (least : Nat) : Nat → Option Progress
  | 0 => if least = 0 then rest p else none
  | n + 1 =>
    if n + 1 < least then none
    else match rest (p.forward (n + 1)) with
      | some q => some q
      | none => fromMost p rest least n

def fromLeast (p : Progress) (rest : Rest) : Nat → Option Progress
  | 0 => rest p
  | n + 1 =>
    match rest p with
    | some q => some q
    | none => fromLeast (p.forward 1) rest n

def manyOne (accepts : Char → Bool) (text : Array Char) (count : Count) (greed : Greed) : Step :=
  fun p rest =>
    let room := text.size - p.place
    let found := run accepts text (min room (count.most.getD room)) p.place
    if found < count.least then none
    else match greed with
      | .eager => fromMost p rest count.least found
      | .lazy => fromLeast (p.forward count.least) rest (found - count.least)
      | .possessive => rest (p.forward found)

/-- Whether one more repetition is allowed. -/
def mayRepeat (count : Count) (made : Nat) (last : Option Nat) (p : Progress) : Bool :=
  count.most.all (made < ·) && last != some p.place

def eagerly (step : Step) (count : Count) (rest : Rest) :
    Nat → Nat → Option Nat → Progress → Option Progress
  | 0, _, _, _ => none
  | fuel + 1, made, last, p =>
    if made < count.least then step p (eagerly step count rest fuel (made + 1) last)
    else if mayRepeat count made last p then
      match step p (eagerly step count rest fuel (made + 1) (some p.place)) with
      | some q => some q
      | none => rest p
    else rest p

def lazily (step : Step) (count : Count) (rest : Rest) :
    Nat → Nat → Option Nat → Progress → Option Progress
  | 0, _, _, _ => none
  | fuel + 1, made, last, p =>
    if made < count.least then step p (lazily step count rest fuel (made + 1) last)
    else match rest p with
      | some q => some q
      | none =>
        if mayRepeat count made last p then
          step p (lazily step count rest fuel (made + 1) (some p.place))
        else none

def possessively (step : Step) (count : Count) : Nat → Nat → Option Nat → Progress → Option Progress
  | 0, _, _, _ => none
  | fuel + 1, made, last, p =>
    if made < count.least then
      (step p some).bind (possessively step count fuel (made + 1) last)
    else if mayRepeat count made last p then
      match step p some with
      | some q => possessively step count fuel (made + 1) (some p.place) q
      | none => some p
    else some p

def repeated (step : Step) (text : Array Char) (count : Count) (greed : Greed) : Step :=
  fun p rest =>
    let fuel := count.least + (text.size - p.place) + 2
    match greed with
    | .eager => eagerly step count rest fuel 0 none p
    | .lazy => lazily step count rest fuel 0 none p
    | .possessive => (possessively step count fuel 0 none p).bind rest

def sameRun (mode : PatternMode) (text : Array Char) : Nat → Nat → Nat → Bool
  | 0, _, _ => true
  | n + 1, i, j =>
    match text[i]?, text[j]? with
    | some a, some b => mode.same a b && sameRun mode text n (i + 1) (j + 1)
    | _, _ => false

def isEdge (mode : PatternMode) (text : Array Char) (place : Nat) : Bool :=
  let isWordAt (c : Option Char) : Bool := c.any mode.isWord
  isWordAt (if place = 0 then none else text[place - 1]?) != isWordAt text[place]?

def beginsLine (text : Array Char) (place : Nat) : Bool :=
  place = 0 || text[place - 1]? == some '\n'

def step (text : Array Char) : Pattern → Step
  | empty, p, rest => rest p
  | one mode set, p, rest =>
    match text[p.place]? with
    | some c => if set.accepts mode c then rest (p.forward 1) else none
    | none => none
  | seq first second, p, rest => first.step text p fun q => second.step text q rest
  | alt first second, p, rest =>
    match first.step text p rest with
    | some q => some q
    | none => second.step text p rest
  | many count greed (one mode set), p, rest =>
    manyOne (set.accepts mode) text count greed p rest
  | many count greed part, p, rest => repeated (part.step text) text count greed p rest
  | start lines, p, rest =>
    if p.place = 0 || lines && beginsLine text p.place then rest p else none
  | finish lines, p, rest =>
    let atEnd := p.place = text.size || p.place + 1 = text.size && text[p.place]? == some '\n'
    if atEnd || lines && text[p.place]? == some '\n' then rest p else none
  | stop, p, rest => if p.place = text.size then rest p else none
  | edge mode inverted, p, rest =>
    if !text.isEmpty && isEdge mode text p.place != inverted then rest p else none
  | ahead inverted part, p, rest =>
    match part.step text p some with
    | some q => if inverted then none else rest { q with place := p.place }
    | none => if inverted then rest p else none
  | behind width inverted part, p, rest =>
    let found := if p.place < width.least then none
      else part.step text { p with place := p.place - width.least } some
    match found with
    | some q => if inverted then none else rest { q with place := p.place }
    | none => if inverted then rest p else none
  | group number part, p, rest =>
    part.step text (p.mark (2 * number)) fun q => rest (q.mark (2 * number + 1))
  | again mode number, p, rest =>
    match p.spanOf? number with
    | some (first, last) =>
      if sameRun mode text (last - first) first p.place then rest (p.forward (last - first))
      else none
    | none => none
  | given number yes no, p, rest =>
    match p.spanOf? number with
    | some _ => yes.step text p rest
    | none => no.step text p rest
  | atomic part, p, rest => (part.step text p some).bind rest

def occursIn (pattern : Pattern) (s : String) : Bool :=
  let text := s.toList.toArray
  (List.range (text.size + 1)).any fun place => (pattern.step text { place } some).isSome

/-! ## Widths -/

def widest : Nat := 0x10000000000000000

def Width.add (a b : Width) : Width := ⟨min (a.least + b.least) widest, min (a.most + b.most) widest⟩

def Width.times (w : Width) (count : Count) : Width :=
  let most := match count.most with
    | some n => w.most * n
    | none => if w.most = 0 then 0 else widest
  ⟨min (w.least * count.least) widest, min most widest⟩

def width (groups : Nat → Width) : Pattern → Width
  | one _ _ => ⟨1, 1⟩
  | seq first second => Width.add (first.width groups) (second.width groups)
  | alt first second | given _ first second =>
    let a := first.width groups
    let b := second.width groups
    ⟨min a.least b.least, max a.most b.most⟩
  | many count _ part => Width.times (part.width groups) count
  | group _ part | atomic part => part.width groups
  | again _ number => groups number
  | empty | start _ | finish _ | stop | edge _ _ | ahead _ _ | behind _ _ _ => ⟨0, 0⟩

/-- Whether every part that has to match before a place has one width only. -/
def isFixedBehind : Pattern → Bool
  | behind width _ part => width.least = width.most && width.least < 0x100000000 && part.isFixedBehind
  | seq first second | alt first second | given _ first second =>
    first.isFixedBehind && second.isFixedBehind
  | many _ _ part | ahead _ part | group _ part | atomic part => part.isFixedBehind
  | _ => true

def repeats : Pattern → Bool
  | many _ _ _ => true
  | seq first second | alt first second | given _ first second => first.repeats || second.repeats
  | ahead _ part | behind _ _ part | group _ part | atomic part => part.repeats
  | _ => false

end Pattern

end SheetMill.Text
