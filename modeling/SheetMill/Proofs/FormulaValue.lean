import SheetMill.Proofs.FormulaUnambiguous

/-!
# The value of SQL texts

The text of an arithmetic expression is read as SQL and evaluated. It has the value that the
expression has if each sign before an operand is taken for a minus; so the text of an expression
with a plus sign before an operand has another value than the expression.
-/

namespace SheetMill

/-! ## Reading arithmetic -/

variable {term : Arithmetic} {c : Char}

inductive Arithmetic where
  | name (s : String)
  | number (n : Nat)
  | plus (operand : Arithmetic)
  | minus (operand : Arithmetic)
  | sum (left right : Arithmetic)
  | difference (left right : Arithmetic)
  | product (left right : Arithmetic)
  deriving Repr, DecidableEq

namespace Arithmetic

open Text List

variable {fuel : Nat} {ts us rest : List Token} {left right : Arithmetic} {cs : List Char}
  {p q : Pending}

def value (assigned : String → Int) : Arithmetic → Int
  | name s => assigned s
  | number n => n
  | plus operand => operand.value assigned
  | minus operand => -operand.value assigned
  | sum left right => left.value assigned + right.value assigned
  | difference left right => left.value assigned - right.value assigned
  | product left right => left.value assigned * right.value assigned

/-! ## Tokens -/

inductive Token where
  | opening
  | closing
  | plus
  | dash
  | star
  | word (s : String)
  | digits (n : Nat)
  deriving Repr, DecidableEq

/-- What has been read of a token that may go on. -/
inductive Pending where
  | nothing
  | word (cs : List Char)
  | digits (n : Nat)
  | dash
  | comment
  deriving Repr, DecidableEq

def Pending.tokens : Pending → List Token
  | nothing | comment => []
  | word cs => [.word (String.ofList cs)]
  | digits n => [.digits n]
  | dash => [.dash]

/-- A character that does not continue a token: the token that it is, or the one that it starts. -/
def start? (c : Char) : Option (List Token × Pending) :=
  if c = '(' then some ([.opening], .nothing)
  else if c = ')' then some ([.closing], .nothing)
  else if c = '+' then some ([.plus], .nothing)
  else if c = '*' then some ([.star], .nothing)
  else if c = '-' then some ([], .dash)
  else if c.isWhitespace then some ([], .nothing)
  else if c.isDigit then some ([], .digits (c.toNat - 48))
  else if opensName c then some ([], .word [c])
  else none

/-- The tokens that are complete after one more character. -/
def advance (pending : Pending) (c : Char) : Option (List Token × Pending) :=
  let fresh := (start? c).map fun (ts, p) => (pending.tokens ++ ts, p)
  match pending with
  | .nothing => fresh
  | .word cs => if continuesName c then some ([], .word (cs ++ [c])) else fresh
  | .digits n => if c.isDigit then some ([], .digits (10 * n + (c.toNat - 48))) else fresh
  | .dash => if c = '-' then some ([], .comment) else fresh
  | .comment => some ([], if c = '\n' then .nothing else .comment)

def tokens? : Pending → List Char → Option (List Token)
  | pending, [] => some pending.tokens
  | pending, c :: cs => do
    let (ts, pending) ← advance pending c
    return ts ++ (← tokens? pending cs)

/-- The characters take one pending token to another and complete tokens in between. -/
def Cuts (p : Pending) (cs : List Char) (q : Pending) (ts : List Token) : Prop :=
  ∀ rest, tokens? p (cs ++ rest) = (tokens? q rest).map (ts ++ ·)

theorem Cuts.nil (p : Pending) : Cuts p [] p [] := by
  intro rest
  simp

theorem Cuts.append {r : Pending} {ds : List Char} (h : Cuts p cs q ts) (h' : Cuts q ds r us) :
    Cuts p (cs ++ ds) r (ts ++ us) := by
  intro rest
  rw [append_assoc, h, h', Option.map_map]
  congr 1
  funext vs
  simp

theorem Cuts.single (h : advance p c = some (ts, q)) : Cuts p [c] q ts := by
  intro rest
  rw [singleton_append, tokens?, h]
  show ((tokens? q rest).bind fun us => some (ts ++ us)) = _
  cases tokens? q rest <;> rfl

theorem Cuts.cons {r : Pending} {c : Char} (h : advance p c = some (ts, q)) (h' : Cuts q cs r us) :
    Cuts p (c :: cs) r (ts ++ us) :=
  (Cuts.single h).append h'

theorem Cuts.tokens?_eq (h : Cuts p cs q ts) : tokens? p cs = some (ts ++ q.tokens) := by
  have hend := h []
  rwa [append_nil, tokens?, Option.map_some] at hend

theorem cuts_word (h : ∀ c ∈ cs, continuesName c = true) (ds : List Char) :
    Cuts (.word ds) cs (.word (ds ++ cs)) [] := by
  induction cs generalizing ds with
  | nil => simpa using Cuts.nil (.word ds)
  | cons c cs ih =>
    have hc : advance (.word ds) c = some ([], .word (ds ++ [c])) := by
      simp [advance, h c mem_cons_self]
    have hrest := ih (fun d hd => h d (mem_cons_of_mem _ hd)) (ds ++ [c])
    rw [append_assoc, singleton_append] at hrest
    exact .cons hc hrest

theorem cuts_digits (h : ∀ c ∈ cs, c.isDigit = true) (n : Nat) :
    Cuts (.digits n) cs (.digits (cs.foldl (fun n c => 10 * n + (c.toNat - 48)) n)) [] := by
  induction cs generalizing n with
  | nil => exact Cuts.nil _
  | cons c cs ih =>
    have hc : advance (.digits n) c = some ([], .digits (10 * n + (c.toNat - 48))) := by
      simp [advance, h c mem_cons_self]
    exact .cons hc (ih (fun d hd => h d (mem_cons_of_mem _ hd)) _)

theorem start?_digit (h : c.isDigit = true) : start? c = some ([], .digits (c.toNat - 48)) := by
  obtain ⟨d, hd, rfl⟩ := Decimal.exists_digit h
  have hall : ∀ d < 10, start? (Char.ofNat (48 + d)) =
      some ([], .digits ((Char.ofNat (48 + d)).toNat - 48)) := by
    decide +kernel
  exact hall d hd

theorem start?_name (h : opensName c = true) : start? c = some ([], .word [c]) := by
  have hne : ∀ d, opensName d = false → c ≠ d := by
    rintro d hd rfl
    simp [h] at hd
  have hdigit := Decimal.isDigit_eq_false_of_opensName h
  have hblank : c.isWhitespace = false := by
    refine Bool.eq_false_iff.mpr fun hc => ?_
    simp only [Char.isWhitespace, Bool.or_eq_true, decide_eq_true_eq] at hc
    rcases hc with ((rfl | rfl) | rfl) | rfl <;> exact absurd h (by decide +kernel)
  simp [start?, h, hdigit, hblank, hne '(' (by decide +kernel), hne ')' (by decide +kernel),
    hne '+' (by decide +kernel), hne '*' (by decide +kernel), hne '-' (by decide +kernel)]

/-! ## Terms -/

mutual

def sum? : Nat → List Token → Option (Arithmetic × List Token)
  | 0, _ => none
  | fuel + 1, ts => do
    let (left, ts) ← product? fuel ts
    moreSum? fuel left ts

def moreSum? : Nat → Arithmetic → List Token → Option (Arithmetic × List Token)
  | 0, _, _ => none
  | fuel + 1, left, .plus :: ts => do
    let (right, ts) ← product? fuel ts
    moreSum? fuel (.sum left right) ts
  | fuel + 1, left, .dash :: ts => do
    let (right, ts) ← product? fuel ts
    moreSum? fuel (.difference left right) ts
  | _ + 1, left, ts => some (left, ts)

def product? : Nat → List Token → Option (Arithmetic × List Token)
  | 0, _ => none
  | fuel + 1, ts => do
    let (left, ts) ← operand? fuel ts
    moreProduct? fuel left ts

def moreProduct? : Nat → Arithmetic → List Token → Option (Arithmetic × List Token)
  | 0, _, _ => none
  | fuel + 1, left, .star :: ts => do
    let (right, ts) ← operand? fuel ts
    moreProduct? fuel (.product left right) ts
  | _ + 1, left, ts => some (left, ts)

/-- A name, a number, a term in parentheses, or a signed operand, and what follows it. -/
def operand? : Nat → List Token → Option (Arithmetic × List Token)
  | 0, _ => none
  | fuel + 1, .plus :: ts => do
    let (operand, ts) ← operand? fuel ts
    return (.plus operand, ts)
  | fuel + 1, .dash :: ts => do
    let (operand, ts) ← operand? fuel ts
    return (.minus operand, ts)
  | fuel + 1, .opening :: ts => do
    match ← sum? fuel ts with
    | (operand, .closing :: ts) => some (operand, ts)
    | _ => none
  | _ + 1, .word s :: ts => some (.name s, ts)
  | _ + 1, .digits n :: ts => some (.number n, ts)
  | _ + 1, _ => none

end

/-- The term of a text. -/
def read? (s : String) : Option Arithmetic := do
  let ts ← tokens? .nothing s.toList
  match ← sum? (4 * ts.length + 4) ts with
  | (term, []) => some term
  | _ => none

example : read? "a - b * -2 - (c)" = some (.difference (.difference (.name "a")
    (.product (.name "b") (.minus (.number 2)))) (.name "c")) := by
  decide +kernel

/-! ## Terms of tokens -/

def Stops (ts : List Token) : Prop := ∀ t ∈ ts.head?, t = .closing

theorem stops_nil : Stops [] := by
  simp [Stops]

theorem stops_cons (ts : List Token) : Stops (.closing :: ts) := by
  simp [Stops]

theorem moreProduct?_of_stops (term : Arithmetic) (h : Stops rest) :
    moreProduct? (fuel + 1) term rest = some (term, rest) := by
  cases rest with
  | nil => rfl
  | cons t ts =>
    rw [h t rfl]
    rfl

theorem moreSum?_of_stops (term : Arithmetic) (h : Stops rest) :
    moreSum? (fuel + 1) term rest = some (term, rest) := by
  cases rest with
  | nil => rfl
  | cons t ts =>
    rw [h t rfl]
    rfl

theorem sum?_of_operand (h : operand? (fuel + 1) ts = some (term, rest)) (hrest : Stops rest) :
    sum? (fuel + 3) ts = some (term, rest) := by
  simp [sum?, product?, h, moreProduct?_of_stops term hrest, moreSum?_of_stops term hrest]

theorem operand?_group (h : sum? fuel (ts ++ .closing :: rest) = some (term, .closing :: rest)) :
    operand? (fuel + 1) (.opening :: (ts ++ .closing :: rest)) = some (term, rest) := by
  simp [operand?, h]

theorem operand?_minus (h : operand? fuel ts = some (term, rest)) :
    operand? (fuel + 1) (.dash :: ts) = some (.minus term, rest) := by
  simp [operand?, h]

theorem sum?_plus (hleft : operand? (fuel + 2) ts = some (left, .plus :: us))
    (hright : operand? (fuel + 1) us = some (right, rest)) (hrest : Stops rest) :
    sum? (fuel + 4) ts = some (.sum left right, rest) := by
  -- the product on the left goes no further than its first operand
  have hmore : moreProduct? (fuel + 2) left (.plus :: us) = some (left, .plus :: us) := rfl
  simp [sum?, product?, moreSum?, hleft, hmore, hright, moreProduct?_of_stops right hrest,
    moreSum?_of_stops _ hrest]

theorem sum?_dash (hleft : operand? (fuel + 2) ts = some (left, .dash :: us))
    (hright : operand? (fuel + 1) us = some (right, rest)) (hrest : Stops rest) :
    sum? (fuel + 4) ts = some (.difference left right, rest) := by
  have hmore : moreProduct? (fuel + 2) left (.dash :: us) = some (left, .dash :: us) := rfl
  simp [sum?, product?, moreSum?, hleft, hmore, hright, moreProduct?_of_stops right hrest,
    moreSum?_of_stops _ hrest]

theorem sum?_star (hleft : operand? (fuel + 2) ts = some (left, .star :: us))
    (hright : operand? (fuel + 1) us = some (right, rest)) (hrest : Stops rest) :
    sum? (fuel + 4) ts = some (.product left right, rest) := by
  simp [sum?, product?, moreProduct?, hleft, hright, moreProduct?_of_stops _ hrest,
    moreSum?_of_stops _ hrest]

end Arithmetic

end SheetMill

namespace SheetMill.Formula

/-! ## The value of SQL texts -/

open Value Text Arithmetic

namespace Expression

/-- Only cells, numbers, signs, sums, differences and products. -/
def IsArithmetic : Expression → Prop
  | cell _ | number _ => True
  | logical _ | text _ => False
  | unary operator operand => (operator = "+" ∨ operator = "-") ∧ operand.IsArithmetic
  | binary operator left right => (operator = "+" ∨ operator = "-" ∨ operator = "*") ∧
      left.IsArithmetic ∧ right.IsArithmetic

/-- The value of an expression, given those of the columns by their letters. -/
def value? (assigned : String → Int) : Expression → Option Int
  | cell letters => some (assigned letters)
  | number n => some n
  | logical _ | text _ => none
  | unary operator operand => do
    let x ← operand.value? assigned
    match operator with
    | "+" => some x
    | "-" => some (-x)
    | _ => none
  | binary operator left right => do
    let x ← left.value? assigned
    let y ← right.value? assigned
    match operator with
    | "+" => some (x + y)
    | "-" => some (x - y)
    | "*" => some (x * y)
    | _ => none

def signs : Expression → List String
  | cell _ | number _ | logical _ | text _ => []
  | unary operator operand => operator :: operand.signs
  | binary _ left right => left.signs ++ right.signs

def negating : Expression → Expression
  | unary _ operand => .unary "-" operand.negating
  | binary operator left right => .binary operator left.negating right.negating
  | e => e

theorem negating_of_signs {e : Expression} (h : ∀ sign ∈ e.signs, sign = "-") :
    e.negating = e := by
  induction e with
  | cell | number | logical | text => rfl
  | unary operator operand ih =>
    rw [signs, List.forall_mem_cons] at h
    rw [negating, ih h.2, h.1]
  | binary operator left right ihl ihr =>
    rw [signs, List.forall_mem_append] at h
    rw [negating, ihl h.1, ihr h.2]

def operatorToken (operator : String) : Token :=
  if operator = "+" then .plus else if operator = "-" then .dash else .star

def tokens (name : String → String) : Expression → List Token
  | cell letters => [.word (name letters)]
  | number (.ofNat n) => [.digits n]
  | number (.negSucc n) => [.dash, .digits (n + 1)]
  | logical _ | text _ => []
  | unary _ operand => .dash :: .opening :: (operand.tokens name ++ [.closing])
  | binary operator left right => .opening :: (left.tokens name ++ .closing ::
      operatorToken operator :: .opening :: (right.tokens name ++ [.closing]))

def term (name : String → String) : Expression → Arithmetic
  | cell letters => .name (name letters)
  | number (.ofNat n) => .number n
  | number (.negSucc n) => .minus (.number (n + 1))
  | logical _ | text _ => .number 0
  | unary _ operand => .minus (operand.term name)
  | binary operator left right =>
    if operator = "+" then .sum (left.term name) (right.term name)
    else if operator = "-" then .difference (left.term name) (right.term name)
    else .product (left.term name) (right.term name)

variable {name : String → String} {e : Expression}

theorem value_term (h : e.IsArithmetic) (assigned : String → Int) :
    e.negating.value? (fun letters => assigned (name letters)) =
      some ((e.term name).value assigned) := by
  induction e with
  | cell letters => rfl
  | number n => cases n <;> rfl
  | logical | text => exact h.elim
  | unary operator operand ih =>
    rw [negating, value?, ih h.2]
    rfl
  | binary operator left right ihl ihr =>
    rw [negating, value?, ihl h.2.1, ihr h.2.2]
    rcases h.1 with rfl | rfl | rfl <;> rfl

end Expression

/-! ## Tokens of the text -/

/-- A pending token that ends where a parenthesis closes. -/
def Settled (p : Pending) : Prop := advance p ')' = some (p.tokens ++ [.closing], .nothing)

theorem settled_word (cs : List Char) : Settled (.word cs) := by
  have hclose : continuesName ')' = false := by decide +kernel
  simp [Settled, advance, hclose, start?]

theorem settled_digits (n : Nat) : Settled (.digits n) := by
  simp [Settled, advance, start?]

theorem settled_nothing : Settled .nothing := by
  simp [Settled, advance, start?, Pending.tokens]

theorem cuts_name {s : String} (h : isIdentifier s = true) :
    Cuts .nothing s.toList (.word s.toList) [] := by
  unfold isIdentifier at h
  cases hs : s.toList with
  | nil => simp [hs] at h
  | cons c cs =>
    rw [hs] at h
    simp only [Bool.and_eq_true, List.all_eq_true] at h
    have hstart : advance .nothing c = some ([], .word [c]) := by
      simp [advance, start?_name h.1, Pending.tokens]
    exact .cons hstart (cuts_word h.2 [c])

theorem cuts_toDigits {p : Pending} (n : Nat)
    (hp : ∀ c : Char, c.isDigit = true → advance p c = some (p.tokens, .digits (c.toNat - 48))) :
    Cuts p (Nat.toDigits 10 n) (.digits n) p.tokens := by
  have hval := Decimal.ofDigits_toDigits n
  cases hdig : Nat.toDigits 10 n with
  | nil => exact absurd hdig Nat.toDigits_ne_nil
  | cons c cs =>
    have hall : ∀ d ∈ c :: cs, d.isDigit = true := by
      intro d hd
      exact Decimal.isDigit_toDigits (n := n) (hdig ▸ hd)
    rw [hdig, Decimal.ofDigits, List.foldl_map] at hval
    have hcuts := Cuts.cons (hp c (hall c List.mem_cons_self))
      (cuts_digits (fun d hd => hall d (List.mem_cons_of_mem _ hd)) (c.toNat - 48))
    rw [List.foldl_cons, Nat.mul_zero, Nat.zero_add] at hval
    rwa [List.append_nil, hval] at hcuts

theorem cuts_number (n : Int) : ∃ p ts, Cuts .nothing (toString n).toList p ts ∧ Settled p ∧
    ts ++ p.tokens = (Expression.number n).tokens id := by
  cases n with
  | ofNat n =>
    rw [Decimal.toList_toString_ofNat]
    have hstart : ∀ c : Char, c.isDigit = true →
        advance .nothing c = some (Pending.nothing.tokens, .digits (c.toNat - 48)) := by
      intro c hc
      simp [advance, start?_digit hc]
    exact ⟨_, _, cuts_toDigits n hstart, settled_digits n, rfl⟩
  | negSucc n =>
    rw [Decimal.toList_toString_negSucc]
    have hdash : advance .nothing '-' = some ([], .dash) := by decide
    have hstart : ∀ c : Char, c.isDigit = true →
        advance .dash c = some (Pending.dash.tokens, .digits (c.toNat - 48)) := by
      intro c hc
      have hne : c ≠ '-' := by
        rintro rfl
        exact absurd hc (by decide)
      simp [advance, start?_digit hc, hne]
    exact ⟨_, _, .cons hdash (cuts_toDigits (n + 1) hstart), settled_digits _, rfl⟩

theorem Settled.cuts_closing {p : Pending} (h : Settled p) {cs : List Char} {q : Pending}
    {ts : List Token} (hcuts : Cuts .nothing cs q ts) :
    Cuts p (')' :: cs) q (p.tokens ++ .closing :: ts) := by
  have := Cuts.cons h hcuts
  rwa [List.append_assoc, List.singleton_append] at this

theorem cuts_operator {operator : String}
    (h : operator = "+" ∨ operator = "-" ∨ operator = "*") {cs : List Char} {q : Pending}
    {ts : List Token} (hcuts : Cuts .nothing cs q ts) :
    Cuts .nothing (' ' :: (operator.toList ++ ' ' :: '(' :: cs)) q
      (Expression.operatorToken operator :: .opening :: ts) := by
  have hblank : advance .nothing ' ' = some ([], .nothing) := by decide
  have hopen : advance .nothing '(' = some ([.opening], .nothing) := by decide
  have hgroup : Cuts .nothing (' ' :: '(' :: cs) q (.opening :: ts) :=
    .cons hblank (.cons hopen hcuts)
  rcases h with rfl | rfl | rfl
  · have hplus : advance .nothing '+' = some ([.plus], .nothing) := by decide
    exact .cons hblank (.cons hplus hgroup)
  · -- a dash is a token only once no second one follows
    have hdash : advance .nothing '-' = some ([], .dash) := by decide
    have hafter : advance .dash ' ' = some ([.dash], .nothing) := by decide
    exact .cons hblank (.cons hdash (.cons hafter (.cons hopen hcuts)))
  · have hstar : advance .nothing '*' = some ([.star], .nothing) := by decide
    exact .cons hblank (.cons hstar hgroup)

namespace Expression

variable {name : String → String} {e : Expression}

theorem cuts_sql (h : e.IsArithmetic) (hname : ∀ l ∈ e.letters, isIdentifier (name l) = true) :
    ∃ p ts, Cuts .nothing (e.sql name).toList p ts ∧ Settled p ∧ ts ++ p.tokens = e.tokens name := by
  have hdash : advance .nothing '-' = some ([], .dash) := by decide
  have hopen : advance .nothing '(' = some ([.opening], .nothing) := by decide
  have hgroup : advance .dash '(' = some ([.dash, .opening], .nothing) := by decide
  have hend : Cuts .nothing [] .nothing [] := Cuts.nil _
  -- what is pending after an operand ends at its parenthesis, so tokens never cross operands
  induction e with
  | cell column =>
    have hword := cuts_name (hname column (by simp [letters]))
    refine ⟨_, _, hword, settled_word _, ?_⟩
    simp [Expression.tokens, Pending.tokens]
  | number n =>
    obtain ⟨p, ts, hcuts, hsettled, htokens⟩ := cuts_number n
    refine ⟨p, ts, hcuts, hsettled, ?_⟩
    rw [htokens]
    cases n <;> rfl
  | logical | text => exact h.elim
  | unary operator operand ih =>
    obtain ⟨p, ts, hcuts, hsettled, htokens⟩ := ih h.2 hname
    -- the parenthesis keeps the sign from making a comment with a dash of the operand
    have hall := Cuts.cons hdash (.cons hgroup (hcuts.append (hsettled.cuts_closing hend)))
    have htext : ((unary operator operand).sql name).toList =
        '-' :: '(' :: ((operand.sql name).toList ++ [')']) := by
      simpa using sql_unary operator operand name []
    refine ⟨.nothing, _, htext ▸ hall, settled_nothing, ?_⟩
    simp [Expression.tokens, Pending.tokens, ← htokens]
  | binary operator left right ihl ihr =>
    simp only [letters, List.mem_append] at hname
    obtain ⟨p, ts, hcuts, hsettled, htokens⟩ := ihl h.2.1 fun l hl => hname l (.inl hl)
    obtain ⟨p', ts', hcuts', hsettled', htokens'⟩ := ihr h.2.2 fun l hl => hname l (.inr hl)
    have hright := hcuts'.append (hsettled'.cuts_closing hend)
    have hall := Cuts.cons hopen
      (hcuts.append (hsettled.cuts_closing (cuts_operator h.1 hright)))
    have htext : ((binary operator left right).sql name).toList =
        '(' :: ((left.sql name).toList ++ ')' :: ' ' :: (operator.toList ++
          ' ' :: '(' :: ((right.sql name).toList ++ [')']))) := by
      simpa using sql_binary operator left right name []
    refine ⟨.nothing, _, htext ▸ hall, settled_nothing, ?_⟩
    simp [Expression.tokens, Pending.tokens, ← htokens, ← htokens']

theorem sum?_tokens (h : e.IsArithmetic) {fuel : Nat} (hfuel : 4 * (e.tokens name).length ≤ fuel)
    {rest : List Token} (hrest : Stops rest) :
    sum? fuel (e.tokens name ++ rest) = some (e.term name, rest) := by
  -- an operand is reached in at most four steps, and its parentheses pay for eight
  induction e generalizing fuel rest with
  | cell column =>
    obtain ⟨fuel, rfl⟩ : ∃ k, fuel = k + 3 := ⟨fuel - 3, by simp [Expression.tokens] at hfuel; omega⟩
    exact sum?_of_operand rfl hrest
  | number n =>
    obtain ⟨fuel, rfl⟩ : ∃ k, fuel = k + 4 :=
      ⟨fuel - 4, by cases n <;> simp [Expression.tokens] at hfuel <;> omega⟩
    cases n with
    | ofNat n => exact sum?_of_operand rfl hrest
    | negSucc n => exact sum?_of_operand (operand?_minus rfl) hrest
  | logical | text => exact h.elim
  | unary operator operand ih =>
    have hlen : (tokens name (.unary operator operand)).length =
        (operand.tokens name).length + 3 := by
      simp [Expression.tokens]
    obtain ⟨fuel, rfl⟩ : ∃ k, fuel = k + 4 := ⟨fuel - 4, by omega⟩
    have hgroup : operand? (fuel + 1) (.opening :: (operand.tokens name ++ .closing :: rest)) =
        some (operand.term name, rest) :=
      operand?_group (ih h.2 (by omega) (stops_cons rest))
    have htext : tokens name (.unary operator operand) ++ rest =
        .dash :: .opening :: (operand.tokens name ++ .closing :: rest) := by
      simp [Expression.tokens]
    rw [htext]
    exact sum?_of_operand (operand?_minus hgroup) hrest
  | binary operator left right ihl ihr =>
    have hlen : (tokens name (.binary operator left right)).length =
        (left.tokens name).length + (right.tokens name).length + 5 := by
      simp [Expression.tokens]
      omega
    obtain ⟨fuel, rfl⟩ : ∃ k, fuel = k + 4 := ⟨fuel - 4, by omega⟩
    have hleft : ∀ us, operand? (fuel + 2) (.opening :: (left.tokens name ++ .closing :: us)) =
        some (left.term name, us) := fun us =>
      operand?_group (ihl h.2.1 (by omega) (stops_cons us))
    have hright : operand? (fuel + 1) (.opening :: (right.tokens name ++ .closing :: rest)) =
        some (right.term name, rest) :=
      operand?_group (ihr h.2.2 (by omega) (stops_cons rest))
    have htext : tokens name (.binary operator left right) ++ rest = .opening ::
        (left.tokens name ++ .closing :: operatorToken operator :: .opening ::
          (right.tokens name ++ .closing :: rest)) := by
      simp [Expression.tokens]
    rw [htext]
    rcases h.1 with rfl | rfl | rfl
    · exact sum?_plus (hleft _) hright hrest
    · exact sum?_dash (hleft _) hright hrest
    · exact sum?_star (hleft _) hright hrest

theorem read?_sql (h : e.IsArithmetic) (hname : ∀ l ∈ e.letters, isIdentifier (name l) = true) :
    read? (e.sql name) = some (e.term name) := by
  obtain ⟨p, ts, hcuts, -, htokens⟩ := cuts_sql h hname
  have hread : sum? (4 * (e.tokens name).length + 4) (e.tokens name ++ []) =
      some (e.term name, []) := sum?_tokens h (by omega) stops_nil
  rw [List.append_nil] at hread
  simp [read?, hcuts.tokens?_eq, htokens, hread]

end Expression

/-- The text of an arithmetic expression, read as SQL, has the value of the expression in which
every sign before an operand is a minus, for all values of the columns. It is thus the value of the
expression itself if no such sign is a plus. There is no text if a number is too large. -/
theorem sql_value_eq (columns : Value) {node : Value} {e : Expression} (hnode : Depicts node e)
    (harithmetic : e.IsArithmetic)
    (hcolumns : ∀ l ∈ e.letters, ∃ name, columns.field? l = some (.text name) ∧
      isIdentifier name = true) :
    ((∀ n ∈ e.numbers, n.natAbs < Decimal.floatLimit) →
      ∃ output sql term, toSql columns node = .ok output ∧ output.item "sql" = .ok sql ∧
        read? sql.plain = some term ∧
        (∀ assigned, e.negating.value? (fun l => assigned (nameOf columns l)) =
          some (term.value assigned)) ∧
        ((∀ sign ∈ e.signs, sign = "-") →
          ∀ assigned, e.value? (fun l => assigned (nameOf columns l)) =
            some (term.value assigned))) ∧
    ((∃ n ∈ e.numbers, Decimal.floatLimit ≤ n.natAbs) →
      toSql columns node = .error (.overflow "int too large to convert to float")) := by
  have hmapped : ∀ l ∈ e.letters, Mapped columns l := by
    intro l hl
    obtain ⟨name, hfield, -⟩ := hcolumns l hl
    exact .intro hfield
  have hname : ∀ l ∈ e.letters, isIdentifier (nameOf columns l) = true := by
    intro l hl
    obtain ⟨name, hfield, hidentifier⟩ := hcolumns l hl
    rwa [nameOf_of_field? hfield]
  constructor
  · intro hwithin
    obtain ⟨output, sql, houtput, hsql, hplain⟩ := hnode.exists_sql hmapped hwithin
    have hvalue : ∀ assigned, e.negating.value? (fun l => assigned (nameOf columns l)) =
        some ((e.term (nameOf columns)).value assigned) :=
      fun assigned => Expression.value_term harithmetic assigned
    refine ⟨output, sql, e.term (nameOf columns), houtput, hsql, ?_, hvalue, ?_⟩
    · rw [hplain, Expression.read?_sql harithmetic hname]
    · intro hsigns assigned
      rw [← hvalue assigned, Expression.negating_of_signs hsigns]
  · rintro ⟨n, hn, hbeyond⟩
    exact hnode.toSql_of_beyond hmapped hn hbeyond

/-- A price with a plus sign, times minus two: the text has twice the price for its value, and the
expression twice the price with the other sign. -/
theorem sql_value_eq_plus :
    let columns : Value := .record [("A", .text "price")]
    let node : Value := .record [("type", .text "binary-expression"), ("operator", .text "*"),
      ("left", .record [("type", .text "unary-expression"), ("operator", .text "+"),
        ("operand", .record [("type", .text "cell"), ("key", .text "$A$1")])]),
      ("right", .record [("type", .text "number"), ("value", .int (-2))])]
    let e : Expression := .binary "*" (.unary "+" (.cell "A")) (.number (-2))
    Depicts node e ∧ ∃ output sql term, toSql columns node = .ok output ∧
      output.item "sql" = .ok sql ∧ read? sql.plain = some term ∧
      (∀ assigned, term.value assigned = -assigned "price" * -2) ∧
      ∀ assigned : String → Int, e.value? (fun l => assigned (nameOf columns l)) =
        some (assigned "price" * -2) := by
  intro columns node e
  have hletters : Sheet.columnOf "$A$1" = "A" := by decide +kernel
  have hcell : Depicts (.record [("type", .text "cell"), ("key", .text "$A$1")]) (.cell "A") := by
    rw [← hletters]
    exact .cell (field?_record _ _) (field?_record _ _)
  have hnode : Depicts node e :=
    .binary (field?_record _ _) (field?_record _ _) (field?_record _ _) (field?_record _ _)
      (.unary (field?_record _ _) (field?_record _ _) (field?_record _ _) hcell)
      (.number (field?_record _ _) (field?_record _ _))
  have hcolumns : ∀ l ∈ e.letters, ∃ name, columns.field? l = some (.text name) ∧
      isIdentifier name = true := by
    intro l hl
    obtain rfl : l = "A" := by simpa [e, Expression.letters] using hl
    exact ⟨"price", field?_record _ _, by decide +kernel⟩
  have hwithin : ∀ n ∈ e.numbers, n.natAbs < Decimal.floatLimit := by
    intro n hn
    obtain rfl : n = -2 := by simpa [e, Expression.numbers] using hn
    exact lt_of_lt_of_le (by decide) (Decimal.le_carry 970)
  have hname : nameOf columns "A" = "price" := nameOf_of_field? (field?_record _ _)
  obtain ⟨output, sql, term, houtput, hsql, hread, hvalue, -⟩ :=
    (sql_value_eq columns hnode ⟨by decide, ⟨by decide, trivial⟩, trivial⟩ hcolumns).1 hwithin
  refine ⟨hnode, output, sql, term, houtput, hsql, hread, fun assigned => ?_, fun assigned => ?_⟩
  · have h := hvalue assigned
    simp only [e, Expression.negating, Expression.value?, hname, Option.bind_eq_bind,
      Option.bind_some, Option.some.injEq] at h
    exact h.symm
  · simp only [e, Expression.value?, hname, Option.bind_eq_bind, Option.bind_some]

end SheetMill.Formula
