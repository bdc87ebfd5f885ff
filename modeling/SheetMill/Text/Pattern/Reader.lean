import SheetMill.Decimal.Reading
import SheetMill.Text.CharName
import SheetMill.Text.Pattern

/-!
# Reading patterns

A pattern is read from left to right. Two conditions can be checked only when the whole pattern is
known: what has to match before a place needs a fixed width, and a condition may refer to a group
that comes later.
-/

namespace SheetMill.Text

/-- What can be wrong with a pattern. -/
inductive PatternFault where
  | illFormed
  | tooMany
  /-- A number of repetitions has too many digits to be read. -/
  | tooLong
  | contradictory
  deriving Repr, DecidableEq

namespace Pattern

/-- The rest of a pattern, and what was read of it. -/
structure Source where
  rest : List Char
  mode : PatternMode := {}
  /-- Whether blanks and comments may stand between the parts. -/
  spaced : Bool := false
  options : List Char := []
  /-- The widths of the groups in order, unknown as long as a group is open. -/
  widths : List (Option Width) := []
  names : List (String × Nat) := []
  /-- The number of groups before the outermost part that has to match before a place. -/
  outside : Option Nat := none
  wanted : Nat := 0

abbrev Reader := EStateM PatternFault Source

def refuse {α : Type} : Reader α := throw .illFormed

def need (condition : Bool) : Reader Unit := if condition then pure () else refuse

def accept (c : Char) : Reader Bool := do
  match (← get).rest with
  | d :: rest =>
    if c = d then
      modify fun s => { s with rest }
      return true
    else return false
  | [] => return false

def next : Reader Char := do
  match (← get).rest with
  | c :: rest =>
    modify fun s => { s with rest }
    return c
  | [] => refuse

def takeSome (kind : Char → Bool) (limit : Nat) : Reader (List Char) := do
  let taken := ((← get).rest.takeWhile kind).take limit
  modify fun s => { s with rest := s.rest.drop taken.length }
  return taken

def takeUntil (mark : Char) : Reader String := do
  let taken := (← get).rest.takeWhile (· != mark)
  modify fun s => { s with rest := s.rest.drop taken.length }
  need (!taken.isEmpty && (← accept mark))
  return String.ofList taken

/-! ## Characters -/

def isOctal (c : Char) : Bool := '0' ≤ c && c ≤ '7'

def numberOf (base : Nat) (digits : List Char) : Nat :=
  digits.foldl (fun n d => base * n + (hexValue? d).getD 0) 0

def takeHex (count : Nat) : Reader Nat := do
  let digits ← takeSome (fun c => (hexValue? c).isSome) count
  need (digits.length = count)
  let code := numberOf 16 digits
  need (code < 0x110000)
  return code

def takeEscaped (c : Char) : Reader Nat :=
  match c with
  | 'a' => pure 7
  | 'f' => pure 12
  | 'n' => pure 10
  | 'r' => pure 13
  | 't' => pure 9
  | 'v' => pure 11
  | 'x' => takeHex 2
  | 'u' => takeHex 4
  | 'U' => takeHex 8
  | 'N' => do
    need (← accept '\x7b')
    match charNamed? (← takeUntil '\x7d') with
    | some code => pure code
    | none => refuse
  | c => if c.isAlphanum then refuse else pure c.toNat

def classOf? (c : Char) : Option (Bool × CharClass) :=
  match c with
  | 'd' => some (false, .digit)
  | 'D' => some (true, .digit)
  | 'w' => some (false, .word)
  | 'W' => some (true, .word)
  | 's' => some (false, .blank)
  | 'S' => some (true, .blank)
  | _ => none

def literal (code : Nat) : CharSet := ⟨false, [(false, .span code code)]⟩

/-! ## Sets -/

def takeMember : Reader (Nat ⊕ (Bool × CharClass)) := do
  match ← next with
  | '\\' =>
    let c ← next
    match classOf? c with
    | some kind => return .inr kind
    | none =>
      if c = 'b' then return .inl 8
      else if isOctal c then
        let code := numberOf 8 (c :: (← takeSome isOctal 2))
        need (code < 256)
        return .inl code
      else return .inl (← takeEscaped c)
  | c => return .inl c.toNat

def kindOf : Nat ⊕ (Bool × CharClass) → Bool × CharClass
  | .inl code => (false, .span code code)
  | .inr kind => kind

/-- The members of a set up to the closing bracket, given fuel. -/
def takeMembers (fuel : Nat) (isFirst : Bool) : Reader (List (Bool × CharClass)) := do
  match fuel with
  | 0 => refuse
  | fuel + 1 =>
    let isEnd ← if isFirst then pure false else accept ']'
    if isEnd then return []
    let first ← takeMember
    if ← accept '-' then
      if ← accept ']' then return [kindOf first, (false, .span 45 45)]
      match first, ← takeMember with
      | .inl first, .inl last =>
        need (first ≤ last)
        return (false, .span first last) :: (← takeMembers fuel false)
      | _, _ => refuse
    else return kindOf first :: (← takeMembers fuel false)

def takeSet : Reader CharSet := do
  let inverted ← accept '^'
  return ⟨inverted, ← takeMembers ((← get).rest.length + 1) true⟩

/-! ## Counts -/

def boundOf (digits : List Char) : Reader Nat := do
  if digits.length > 4300 then throw .tooLong
  let n := numberOf 10 digits
  if n < 4294967295 then return n else throw .tooMany

def takeBraces : Reader (Option Count) := do
  let s ← get
  if s.rest.head? == some '\x7d' then return none
  let least ← takeSome Char.isDigit s.rest.length
  let isOpen ← accept ','
  let most ← if isOpen then takeSome Char.isDigit s.rest.length else pure least
  if !(← accept '\x7d') then
    set s
    return none
  need ((← get).rest != ['\\'])
  let lower ← if least.isEmpty then pure 0 else boundOf least
  if most.isEmpty then return some ⟨lower, none⟩
  let upper ← boundOf most
  need (lower ≤ upper)
  return some ⟨lower, some upper⟩

def takeCount (c : Char) : Reader (Option Count) :=
  match c with
  | '*' => pure (some ⟨0, none⟩)
  | '+' => pure (some ⟨1, none⟩)
  | '?' => pure (some ⟨0, some 1⟩)
  | '\x7b' => takeBraces
  | _ => pure none

def takeGreed : Reader Greed := do
  if ← accept '?' then return .lazy
  if ← accept '+' then return .possessive
  return .eager

/-- A part of a pattern. -/
structure Item where
  pattern : Pattern
  /-- Whether it may be repeated: a bare place may not, nor what is repeated already. -/
  isRepeatable : Bool := true

def repeatLast (count : Count) : List Item → Reader (List Item)
  | [] => refuse
  | item :: items => do
    need item.isRepeatable
    return ⟨.many count (← takeGreed) item.pattern, false⟩ :: items

/-! ## Groups -/

def Source.widthOf (s : Source) (number : Nat) : Width :=
  ((s.widths.getD (number - 1) none)).getD ⟨0, 0⟩

def Source.isClosed (s : Source) (number : Nat) : Bool :=
  0 < number && (s.widths.getD (number - 1) none).isSome

def needOutside (number : Nat) : Reader Unit := do
  let s ← get
  match s.outside with
  | some count => need (s.isClosed number && number ≤ count)
  | none => pure ()

def reference (number : Nat) : Reader Item := do
  need ((← get).isClosed number)
  needOutside number
  return ⟨.again (← get).mode number, true⟩

/-- A digit after a backslash: a character in octal digits, or a reference to a group. -/
def takeNumbered (c : Char) : Reader Item := do
  let char (digits : List Char) : Reader Item := do
    need (numberOf 8 digits < 256)
    return ⟨.one (← get).mode (literal (numberOf 8 digits)), true⟩
  if c = '0' then return ← char (c :: (← takeSome isOctal 2))
  match ← takeSome Char.isDigit 1 with
  | [d] =>
    if isOctal c && isOctal d then
      match ← takeSome isOctal 1 with
      | [e] => char [c, d, e]
      | _ => reference (numberOf 10 [c, d])
    else reference (numberOf 10 [c, d])
  | _ => reference (numberOf 10 [c])

def takeEscape : Reader Item := do
  let mode := (← get).mode
  let c ← next
  match c with
  | 'A' => return ⟨.start false, false⟩
  | 'Z' => return ⟨.stop, false⟩
  | 'b' => return ⟨.edge mode false, false⟩
  | 'B' => return ⟨.edge mode true, false⟩
  | c =>
    match classOf? c with
    | some kind => return ⟨.one mode ⟨false, [kind]⟩, true⟩
    | none =>
      if c.isDigit then takeNumbered c
      else return ⟨.one mode (literal (← takeEscaped c)), true⟩

def optionLetters : List Char := ['i', 'm', 's', 'x', 'a', 't', 'u']

def takeOptions (fuel : Nat) : Reader (List Char × Char) := do
  match fuel with
  | 0 => refuse
  | fuel + 1 =>
    let c ← next
    if optionLetters.contains c then
      let (more, mark) ← takeOptions fuel
      return (c :: more, mark)
    else return ([], c)

def PatternMode.with_ (mode : PatternMode) (on off : List Char) : PatternMode :=
  let flag (c : Char) (current : Bool) : Bool := (current || on.contains c) && !off.contains c
  { ignoreCase := flag 'i' mode.ignoreCase, lines := flag 'm' mode.lines
    anyChar := flag 's' mode.anyChar
    ascii := if on.contains 'a' then true else if on.contains 'u' then false else mode.ascii }

/-- The options at the start of a group, those turned on and those turned off, or nothing if they
hold for the whole pattern. -/
def takeModes : Reader (Option (List Char × List Char)) := do
  let (on, mark) ← takeOptions ((← get).rest.length + 1)
  need (!(on.contains 'a' && on.contains 'u'))
  match mark with
  | ')' =>
    need (!on.isEmpty)
    modify fun s => { s with
      options := s.options ++ on, mode := PatternMode.with_ s.mode on []
      spaced := s.spaced || on.contains 'x' }
    return none
  | ':' =>
    need (!on.isEmpty && !on.contains 't')
    return some (on, [])
  | '-' =>
    let (off, mark) ← takeOptions ((← get).rest.length + 1)
    need (mark = ':' && !off.isEmpty)
    need (!on.contains 't' && !off.any fun c => c = 'a' || c = 'u' || c = 't' || on.contains c)
    return some (on, off)
  | _ => refuse

def openGroup (name : Option String) : Reader Nat := do
  let number := (← get).widths.length + 1
  modify fun s => { s with widths := s.widths ++ [none] }
  if let some name := name then
    need ((← get).names.lookup name).isNone
    modify fun s => { s with names := (name, number) :: s.names }
  return number

def closeGroup (number : Nat) (part : Pattern) : Reader Unit :=
  modify fun s => { s with widths := s.widths.set (number - 1) (some (part.width s.widthOf)) }

def takeName (mark : Char) : Reader String := do
  let name ← takeUntil mark
  need (isIdentifier name)
  return name

def takeCondition : Reader Nat := do
  let name ← takeUntil ')'
  let number ←
    if isIdentifier name then
      match (← get).names.lookup name with
      | some number => pure number
      | none => refuse
    else match Decimal.readInt? name with
      | some n => do
        need (0 < n)
        pure n.toNat
      | none => refuse
  modify fun s => { s with wanted := max s.wanted number }
  needOutside number
  return number

def skipComment (mark : Char) (mayEnd : Bool) : List Char → Reader Unit
  | [] => do
    need mayEnd
    modify fun s => { s with rest := [] }
  | ['\\'] => refuse
  | '\\' :: _ :: rest => skipComment mark mayEnd rest
  | c :: rest =>
    if c = mark then modify fun s => { s with rest }
    else skipComment mark mayEnd rest

def inMode {α : Type} (modes : List Char × List Char) (read : Reader α) : Reader α := do
  let before ← get
  let (on, off) := modes
  modify fun s => { s with
    mode := PatternMode.with_ s.mode on off
    spaced := (s.spaced || on.contains 'x') && !off.contains 'x' }
  let result ← read
  modify fun s => { s with mode := before.mode, spaced := before.spaced }
  return result

def behindPlace (read : Reader Pattern) : Reader Pattern := do
  let before := (← get).outside
  if before.isNone then modify fun s => { s with outside := some s.widths.length }
  let part ← read
  modify fun s => { s with outside := before }
  return part

/-! ## Sequences -/

def sequence (items : List Item) : Pattern :=
  items.foldl (fun rest item => .seq item.pattern rest) .empty

mutual

def takeAlternatives (fuel : Nat) (isTop : Bool) : Reader Pattern := do
  match fuel with
  | 0 => refuse
  | fuel + 1 =>
    let first ← takeSequence fuel isTop []
    if ← accept '|' then return .alt first (← takeAlternatives fuel false)
    else return first

/-- A sequence up to the end of the alternative, after the given parts, the last one first, given
fuel. -/
def takeSequence (fuel : Nat) (isTop : Bool) (items : List Item) : Reader Pattern := do
  match fuel with
  | 0 => refuse
  | fuel + 1 =>
    let s ← get
    match s.rest with
    | [] | '|' :: _ | ')' :: _ => return sequence items
    | c :: rest =>
      set { s with rest }
      let add (item : Item) : Reader Pattern := takeSequence fuel isTop (item :: items)
      if s.spaced && Spans.covers [(9, 13), (32, 32)] c then takeSequence fuel isTop items
      else if s.spaced && c = '#' then
        skipComment '\n' true rest
        takeSequence fuel isTop items
      else match c with
        | '\\' => add (← takeEscape)
        | '[' => add ⟨.one s.mode (← takeSet), true⟩
        | '.' =>
          let kinds := if s.mode.anyChar then [] else [(false, CharClass.span 10 10)]
          add ⟨.one s.mode ⟨true, kinds⟩, true⟩
        | '^' => add ⟨.start s.mode.lines, false⟩
        | '$' => add ⟨.finish s.mode.lines, false⟩
        | '(' =>
          match ← takeGroup fuel (isTop && items.isEmpty) with
          | some item => add item
          | none => takeSequence fuel isTop items
        | c =>
          match ← takeCount c with
          | some count => takeSequence fuel isTop (← repeatLast count items)
          | none => add ⟨.one s.mode (literal c.toNat), true⟩

/-- A group after its opening bracket, given fuel; nothing if it is a comment or holds options for
the whole pattern. -/
def takeGroup (fuel : Nat) (isFirst : Bool) : Reader (Option Item) := do
  match fuel with
  | 0 => refuse
  | fuel + 1 =>
    let inside : Reader Pattern := do
      let part ← takeAlternatives fuel false
      need (← accept ')')
      return part
    let captured (name : Option String) : Reader (Option Item) := do
      let number ← openGroup name
      let part ← inside
      closeGroup number part
      return some ⟨.group number part, true⟩
    if !(← accept '?') then return ← captured none
    match ← next with
    | 'P' =>
      match ← next with
      | '<' => captured (some (← takeName '>'))
      | '=' =>
        match (← get).names.lookup (← takeName ')') with
        | some number => return some (← reference number)
        | none => refuse
      | _ => refuse
    | ':' => return some ⟨← inside, true⟩
    | '#' =>
      skipComment ')' false (← get).rest
      return none
    | '=' => return some ⟨.ahead false (← inside), true⟩
    | '!' => return some ⟨.ahead true (← inside), true⟩
    | '<' =>
      let mark ← next
      need (mark = '=' || mark = '!')
      let part ← behindPlace inside
      return some ⟨.behind (part.width (← get).widthOf) (mark = '!') part, true⟩
    | '(' =>
      let number ← takeCondition
      let yes ← takeSequence fuel false []
      let no ← if ← accept '|' then takeSequence fuel false [] else pure .empty
      need (← accept ')')
      return some ⟨.given number yes no, true⟩
    | '>' => return some ⟨.atomic (← inside), true⟩
    | c =>
      modify fun s => { s with rest := c :: s.rest }
      match ← takeModes with
      | some modes => return some ⟨← inMode modes inside, true⟩
      | none =>
        need isFirst
        return none

end

def takeWhole : Reader Pattern := do
  let pattern ← takeAlternatives (4 * (← get).rest.length + 8) true
  let s ← get
  if s.options.contains 'a' && s.options.contains 'u' then throw .contradictory
  need (s.rest.isEmpty && s.wanted ≤ s.widths.length)
  need (pattern.isFixedBehind && !(s.options.contains 't' && pattern.repeats))
  return pattern

def ofString (s : String) : Except PatternFault Pattern :=
  match takeWhole.run { rest := s.toList } with
  | .ok pattern _ => .ok pattern
  | .error fault _ => .error fault

end Pattern

end SheetMill.Text
