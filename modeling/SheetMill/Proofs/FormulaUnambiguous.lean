import SheetMill.Proofs.FormulaText
import SheetMill.Proofs.Integer

/-!
# One expression for each SQL text

Operands stand in parentheses, so the end of an operand is known although the texts and operators
around it are free: of two expressions that are written alike, both are the same.
-/

namespace SheetMill.Formula

open Value Text List

/-- Cells have columns whose names are identifiers and not those of truth values, numbers are
exact in double precision, texts have no quotes, the only sign is a minus, and operators have
neither quotes nor parentheses. -/
def Expression.Plain (columns : Value) : Expression → Prop
  | .cell letters => ∃ name, columns.field? letters = some (.text name) ∧
      isIdentifier name = true ∧ name ≠ "TRUE" ∧ name ≠ "FALSE"
  | .number n => n.natAbs < 2 ^ 53
  | .logical _ => True
  | .text s => ∀ c ∈ s.toList, c ≠ '\'' ∧ c ≠ '"'
  | .unary operator operand => operator = "-" ∧ operand.Plain columns
  | .binary operator left right =>
    operator ≠ "" ∧ (∀ c ∈ operator.toList, c ∉ ['\'', '"', '(', ')']) ∧
      left.Plain columns ∧ right.Plain columns

def DistinctNames (columns : Value) : Prop :=
  ∀ {letters letters' name}, columns.field? letters = some (.text name) →
    columns.field? letters' = some (.text name) → letters = letters'

variable {columns : Value} {r s : List Char} {e : Expression}

/-! ## Runs of characters -/

theorem run_append_inj {p : Char → Bool} {a b : List Char} (ha : ∀ c ∈ a, p c = true)
    (hb : ∀ c ∈ b, p c = true) (hr : ∀ c ∈ r.head?, p c = false) (hs : ∀ c ∈ s.head?, p c = false)
    (h : a ++ r = b ++ s) : a = b ∧ r = s := by
  induction a generalizing b with
  | nil =>
    cases b with
    | nil => exact ⟨rfl, h⟩
    | cons d b =>
      have hd : d ∈ r.head? := by
        rw [nil_append] at h
        simp [h]
      have := hr d hd
      simp [hb d mem_cons_self] at this
  | cons c a ih =>
    cases b with
    | nil =>
      have hc : c ∈ s.head? := by
        rw [nil_append] at h
        simp [← h]
      have := hs c hc
      simp [ha c mem_cons_self] at this
    | cons d b =>
      rw [cons_append, cons_append, cons.injEq] at h
      obtain ⟨rfl, h⟩ := h
      obtain ⟨rfl, hrs⟩ := ih (fun c hc => ha c (mem_cons_of_mem _ hc))
        (fun c hc => hb c (mem_cons_of_mem _ hc)) h
      exact ⟨rfl, hrs⟩

def Ends (r : List Char) : Prop := ∀ c ∈ r.head?, c = ')'

theorem ends_cons (r : List Char) : Ends (')' :: r) := by
  simp [Ends]

theorem Ends.head_eq_false {r : List Char} (h : Ends r) {p : Char → Bool} (hp : p ')' = false) :
    ∀ c ∈ r.head?, p c = false := by
  intro c hc
  rw [h c hc, hp]

theorem continuesName_of_isIdentifier {s : String} (h : isIdentifier s = true) :
    ∀ c ∈ s.toList, continuesName c = true := by
  intro c hc
  unfold isIdentifier at h
  cases hs : s.toList with
  | nil => simp [hs] at hc
  | cons d cs =>
    rw [hs] at h hc
    simp only [Bool.and_eq_true, all_eq_true] at h
    rcases mem_cons.mp hc with rfl | hc
    · simp [continuesName, h.1]
    · exact h.2 c hc

theorem word_append_inj {a b : String} (ha : isIdentifier a = true) (hb : isIdentifier b = true)
    (hr : Ends r) (hs : Ends s) (h : a.toList ++ r = b.toList ++ s) : a = b ∧ r = s := by
  have hclose : continuesName ')' = false := by decide +kernel
  obtain ⟨hab, hrs⟩ := run_append_inj (continuesName_of_isIdentifier ha)
    (continuesName_of_isIdentifier hb) (hr.head_eq_false hclose) (hs.head_eq_false hclose) h
  exact ⟨String.toList_injective hab, hrs⟩

def inNumber (c : Char) : Bool := c.isDigit || c == '-'

theorem inNumber_toString (n : Int) : ∀ c ∈ (toString n).toList, inNumber c = true := by
  intro c hc
  cases n with
  | ofNat n =>
    rw [Decimal.toList_toString_ofNat] at hc
    simp [inNumber, Decimal.isDigit_toDigits hc]
  | negSucc n =>
    rw [Decimal.toList_toString_negSucc] at hc
    rcases mem_cons.mp hc with rfl | hc
    · rfl
    · simp [inNumber, Decimal.isDigit_toDigits hc]

theorem number_append_inj {n m : Int} (hn : n.natAbs < 2 ^ 53) (hm : m.natAbs < 2 ^ 53)
    (hr : Ends r) (hs : Ends s) (h : (toString n).toList ++ r = (toString m).toList ++ s) :
    n = m ∧ r = s := by
  have hclose : inNumber ')' = false := by decide
  obtain ⟨htext, hrs⟩ := run_append_inj (inNumber_toString n) (inNumber_toString m)
    (hr.head_eq_false hclose) (hs.head_eq_false hclose) h
  -- both are read back from the same text
  have hread := Decimal.readInt_toString (Decimal.lt_longest (n := n.natAbs) (by omega))
  rw [String.toList_injective htext, Decimal.readInt_toString (Decimal.lt_longest (by omega))]
    at hread
  cases hread
  exact ⟨rfl, hrs⟩

/-! ## How a text begins -/

inductive Shape where
  | word
  | number
  | quoted
  | negated
  | grouped
  deriving DecidableEq

def Expression.shape : Expression → Shape
  | .cell _ | .logical _ => .word
  | .number _ => .number
  | .text _ => .quoted
  | .unary _ _ => .negated
  | .binary _ _ _ => .grouped

def shapeOf : List Char → Option Shape
  | [] => none
  | c :: cs =>
    if c = '(' then some .grouped
    else if c = '\'' then some .quoted
    else if c = '-' then if cs.head? = some '(' then some .negated else some .number
    else if c.isDigit then some .number
    else some .word

theorem shapeOf_word {s : String} (h : isIdentifier s = true) (r : List Char) :
    shapeOf (s.toList ++ r) = some .word := by
  unfold isIdentifier at h
  cases hs : s.toList with
  | nil => simp [hs] at h
  | cons c cs =>
    rw [hs] at h
    have hopens : opensName c = true := (Bool.and_eq_true _ _ ▸ h).1
    have hne : ∀ d, opensName d = false → c ≠ d := by
      rintro d hd rfl
      simp [hopens] at hd
    have hdigit := Decimal.isDigit_eq_false_of_opensName hopens
    simp [shapeOf, hdigit, hne '(' (by decide +kernel), hne '\'' (by decide +kernel),
      hne '-' (by decide +kernel)]

theorem shapeOf_digits (n : Nat) (r : List Char) :
    shapeOf (Nat.toDigits 10 n ++ r) = some .number := by
  cases hdig : Nat.toDigits 10 n with
  | nil => exact absurd hdig Nat.toDigits_ne_nil
  | cons c cs =>
    have hc : c.isDigit = true := Decimal.isDigit_toDigits (n := n) (by simp [hdig])
    have hne : ∀ d, d.isDigit = false → c ≠ d := by
      rintro d hd rfl
      simp [hc] at hd
    simp [shapeOf, hc, hne '(' (by decide), hne '\'' (by decide), hne '-' (by decide)]

theorem shapeOf_number (n : Int) (r : List Char) :
    shapeOf ((toString n).toList ++ r) = some .number := by
  cases n with
  | ofNat n =>
    rw [Decimal.toList_toString_ofNat]
    exact shapeOf_digits n r
  | negSucc n =>
    rw [Decimal.toList_toString_negSucc]
    cases hdig : Nat.toDigits 10 (n + 1) with
    | nil => exact absurd hdig Nat.toDigits_ne_nil
    | cons c cs =>
      have hc : c.isDigit = true := Decimal.isDigit_toDigits (n := n + 1) (by simp [hdig])
      have hne : c ≠ '(' := by
        rintro rfl
        exact absurd hc (by decide)
      simp [shapeOf, hne]

theorem isIdentifier_truth (b : Bool) : isIdentifier (if b then "TRUE" else "FALSE") = true := by
  cases b <;> decide +kernel

theorem nameOf_of_field? {letters name : String}
    (h : columns.field? letters = some (.text name)) : nameOf columns letters = name := by
  simp [nameOf, h, plain]

/-- The beginning of its text tells what kind of expression it is. -/
theorem Expression.Plain.shapeOf_sql (h : e.Plain columns) (r : List Char) :
    shapeOf ((e.sql (nameOf columns)).toList ++ r) = some e.shape := by
  cases e with
  | cell letters =>
    obtain ⟨name, hfld, hname, -⟩ := h
    rw [Expression.sql, nameOf_of_field? hfld]
    exact shapeOf_word hname r
  | number n => exact shapeOf_number n r
  | logical b => exact shapeOf_word (isIdentifier_truth b) r
  | text s => simp [Expression.sql, shapeOf, Expression.shape]
  | unary operator operand => simp [Expression.sql, shapeOf, Expression.shape]
  | binary operator left right => simp [Expression.sql, shapeOf, Expression.shape]

theorem Expression.Plain.shape_eq {f : Expression} (he : e.Plain columns) (hf : f.Plain columns)
    (h : (e.sql (nameOf columns)).toList ++ r = (f.sql (nameOf columns)).toList ++ s) :
    e.shape = f.shape := by
  have heq := he.shapeOf_sql r
  rw [h, hf.shapeOf_sql s] at heq
  exact (Option.some.inj heq).symm

/-! ## Taking texts apart -/

theorem replaceChars_of_not_mem {part : Char} (by_ : List Char) (fuel : Nat) {cs : List Char}
    (h : part ∉ cs) : replaceChars [part] by_ fuel cs = cs := by
  induction fuel generalizing cs with
  | zero => rfl
  | succ fuel ih =>
    cases cs with
    | nil => rfl
    | cons c cs =>
      rw [mem_cons, not_or] at h
      simp [replaceChars, dropPart?, h.1, ih h.2]

theorem sql_text {s : String} (h : ∀ c ∈ s.toList, c ≠ '\'' ∧ c ≠ '"') (name : String → String)
    (r : List Char) :
    ((Expression.text s).sql name).toList ++ r = '\'' :: (s.toList ++ '\'' :: r) := by
  have hchars : replace s "\"" "'" =
      String.ofList (replaceChars ['"'] ['\''] s.toList.length s.toList) := rfl
  have hnot : '"' ∉ s.toList := fun hmem => (h _ hmem).2 rfl
  have hsame : replace s "\"" "'" = s := by
    rw [hchars, replaceChars_of_not_mem _ _ hnot, String.ofList_toList]
  simp [Expression.sql, hsame]

theorem sql_unary (operator : String) (operand : Expression) (name : String → String)
    (r : List Char) : ((Expression.unary operator operand).sql name).toList ++ r =
      '-' :: '(' :: ((operand.sql name).toList ++ ')' :: r) := by
  simp [Expression.sql]

theorem sql_binary (operator : String) (left right : Expression) (name : String → String)
    (r : List Char) : ((Expression.binary operator left right).sql name).toList ++ r =
      '(' :: ((left.sql name).toList ++ ')' :: ' ' :: (operator.toList ++ [' '] ++
        '(' :: ((right.sql name).toList ++ ')' :: r))) := by
  simp [Expression.sql]

/-- The operator between two operands ends at the parenthesis of the second one. -/
theorem operator_append_inj {a b : String} {r s : List Char}
    (ha : ∀ c ∈ a.toList, c ∉ ['\'', '"', '(', ')']) (hb : ∀ c ∈ b.toList, c ∉ ['\'', '"', '(', ')'])
    (h : a.toList ++ [' '] ++ '(' :: r = b.toList ++ [' '] ++ '(' :: s) : a = b ∧ r = s := by
  have hall : ∀ x : String, (∀ c ∈ x.toList, c ∉ ['\'', '"', '(', ')']) →
      ∀ c ∈ x.toList ++ [' '], (c != '(') = true := by
    intro x hx c hc
    rcases mem_append.mp hc with hc | hc
    · have := hx c hc
      simp only [mem_cons, not_or] at this
      simp [this]
    · rw [mem_singleton.mp hc]
      rfl
  obtain ⟨hab, hrs⟩ := run_append_inj (hall a ha) (hall b hb) (by simp) (by simp) h
  exact ⟨String.toList_injective (append_cancel_right hab), (cons.inj hrs).2⟩

/-- Two expressions that are written alike before the end of an operand are the same. The induction
is on the first of them; the rest is free, so that it can hold what follows an operand. -/
theorem sql_append_inj (hnames : DistinctNames columns) {f : Expression} (he : e.Plain columns)
    (hf : f.Plain columns) (hr : Ends r) (hs : Ends s)
    (h : (e.sql (nameOf columns)).toList ++ r = (f.sql (nameOf columns)).toList ++ s) :
    e = f ∧ r = s := by
  induction e generalizing f r s with
  | cell letters =>
    have hshape := he.shape_eq hf h
    obtain ⟨name, hfld, hname, htrue, hfalse⟩ := he
    rw [Expression.sql, nameOf_of_field? hfld] at h
    cases f with
    | cell letters' =>
      obtain ⟨name', hfld', hname', -⟩ := hf
      rw [Expression.sql, nameOf_of_field? hfld'] at h
      obtain ⟨rfl, hrs⟩ := word_append_inj hname hname' hr hs h
      exact ⟨by rw [hnames hfld hfld'], hrs⟩
    | logical b =>
      obtain ⟨rfl, -⟩ := word_append_inj hname (isIdentifier_truth b) hr hs h
      cases b
      · exact absurd rfl hfalse
      · exact absurd rfl htrue
    | number | text | unary | binary => simp [Expression.shape] at hshape
  | logical b =>
    have hshape := he.shape_eq hf h
    cases f with
    | cell letters' =>
      obtain ⟨name, hfld, hname, htrue, hfalse⟩ := hf
      rw [Expression.sql, nameOf_of_field? hfld] at h
      obtain ⟨rfl, -⟩ := word_append_inj (isIdentifier_truth b) hname hr hs h
      cases b
      · exact absurd rfl hfalse
      · exact absurd rfl htrue
    | logical b' =>
      obtain ⟨hword, hrs⟩ := word_append_inj (isIdentifier_truth b) (isIdentifier_truth b') hr hs h
      cases b <;> cases b' <;> simp_all
    | number | text | unary | binary => simp [Expression.shape] at hshape
  | number n =>
    have hshape := he.shape_eq hf h
    cases f with
    | number m =>
      obtain ⟨rfl, hrs⟩ := number_append_inj he hf hr hs h
      exact ⟨rfl, hrs⟩
    | cell | logical | text | unary | binary => simp [Expression.shape] at hshape
  | text t =>
    have hshape := he.shape_eq hf h
    cases f with
    | text u =>
      rw [sql_text he, sql_text hf, cons.injEq] at h
      have hall : ∀ x : String, (∀ c ∈ x.toList, c ≠ '\'' ∧ c ≠ '"') →
          ∀ c ∈ x.toList, (c != '\'') = true := fun x hx c hc => bne_iff_ne.mpr (hx c hc).1
      obtain ⟨htu, hrs⟩ := run_append_inj (hall t he) (hall u hf) (by simp) (by simp) h.2
      exact ⟨by rw [String.toList_injective htu], (cons.inj hrs).2⟩
    | cell | logical | number | unary | binary => simp [Expression.shape] at hshape
  | unary operator operand ih =>
    have hshape := he.shape_eq hf h
    cases f with
    | unary operator' operand' =>
      obtain ⟨rfl, he⟩ := he
      obtain ⟨rfl, hf⟩ := hf
      simp only [sql_unary, cons.injEq, true_and] at h
      obtain ⟨rfl, hrs⟩ := ih he hf (ends_cons r) (ends_cons s) h
      exact ⟨rfl, (cons.inj hrs).2⟩
    | cell | logical | number | text | binary => simp [Expression.shape] at hshape
  | binary operator left right ihl ihr =>
    have hshape := he.shape_eq hf h
    cases f with
    | binary operator' left' right' =>
      obtain ⟨-, hoperator, hleft, hright⟩ := he
      obtain ⟨-, hoperator', hleft', hright'⟩ := hf
      simp only [sql_binary, cons.injEq, true_and] at h
      -- the operator may be any text, but it begins only after the left operand is closed
      obtain ⟨rfl, hrest⟩ := ihl hleft hleft' (ends_cons _) (ends_cons _) h
      simp only [cons.injEq, true_and] at hrest
      obtain ⟨rfl, hlast⟩ := operator_append_inj hoperator hoperator' hrest
      obtain ⟨rfl, hrs⟩ := ihr hright hright' (ends_cons r) (ends_cons s) hlast
      exact ⟨rfl, (cons.inj hrs).2⟩
    | cell | logical | number | text | unary => simp [Expression.shape] at hshape

theorem Expression.Plain.mapped (h : e.Plain columns) : ∀ l ∈ e.letters, Mapped columns l := by
  induction e with
  | cell letters =>
    obtain ⟨name, hfld, -⟩ := h
    simpa [Expression.letters] using Mapped.intro hfld
  | number | logical | text => simp [Expression.letters]
  | unary operator operand ih => exact ih h.2
  | binary operator left right ihl ihr =>
    intro l hl
    rcases mem_append.mp hl with hl | hl
    · exact ihl h.2.2.1 l hl
    · exact ihr h.2.2.2 l hl

theorem Expression.Plain.within (h : e.Plain columns) :
    ∀ n ∈ e.numbers, n.natAbs < Decimal.floatLimit := by
  induction e with
  | number n =>
    have hlim : 2 ^ 53 ≤ Decimal.floatLimit := Decimal.le_carry 970
    have hn : n.natAbs < 2 ^ 53 := h
    simpa [Expression.numbers] using hn.trans_le hlim
  | cell | logical | text => simp [Expression.numbers]
  | unary operator operand ih => exact ih h.2
  | binary operator left right ihl ihr =>
    intro n hn
    rcases mem_append.mp hn with hn | hn
    · exact ihl h.2.2.1 n hn
    · exact ihr h.2.2.2 n hn

/-- Nodes of plain expressions get the same text exactly if they stand for the same expression:
nothing is lost but the rows of cells, their signs and the kinds of their references. -/
theorem sql_texts_eq_iff (columns : Value) (hnames : DistinctNames columns) {a b : Value}
    {e f : Expression} (ha : Depicts a e) (hb : Depicts b f) (he : e.Plain columns)
    (hf : f.Plain columns) :
    ∃ output output' sql sql', toSql columns a = .ok output ∧ toSql columns b = .ok output' ∧
      output.item "sql" = .ok sql ∧ output'.item "sql" = .ok sql' ∧
      (sql.plain = sql'.plain ↔ e = f) := by
  obtain ⟨output, sql, houtput, hsql, hplain⟩ := ha.exists_sql he.mapped he.within
  obtain ⟨output', sql', houtput', hsql', hplain'⟩ := hb.exists_sql hf.mapped hf.within
  refine ⟨output, output', sql, sql', houtput, houtput', hsql, hsql', ?_⟩
  rw [hplain, hplain']
  constructor
  · intro h
    have hchars : (e.sql (nameOf columns)).toList ++ [] = (f.sql (nameOf columns)).toList ++ [] := by
      rw [h]
    exact (sql_append_inj hnames he hf (by simp [Ends]) (by simp [Ends]) hchars).1
  · rintro rfl
    rfl

/-- A minus sign before a number is told from a negative number. -/
theorem sql_texts_eq_iff_signed :
    let columns : Value := .record [("A", .text "price"), ("B", .text "tax")]
    let cell (key : String) : Value := .record [("type", .text "cell"), ("key", .text key)]
    let number (n : Int) : Value := .record [("type", .text "number"), ("value", .int n)]
    let sum (right : Value) : Value := .record [("type", .text "binary-expression"),
      ("operator", .text "+"), ("left", cell "$B$2"), ("right", right)]
    let minus (operand : Value) : Value := .record [("type", .text "unary-expression"),
      ("operator", .text "-"), ("operand", operand)]
    ∃ output output' sql sql', toSql columns (sum (minus (number 1))) = .ok output ∧
      toSql columns (sum (number (-1))) = .ok output' ∧ output.item "sql" = .ok sql ∧
      output'.item "sql" = .ok sql' ∧ (sql.plain = sql'.plain ↔
        Expression.binary "+" (.cell "B") (.unary "-" (.number 1)) =
          .binary "+" (.cell "B") (.number (-1))) := by
  intro columns cell number sum minus
  have hnames : DistinctNames columns := by
    intro letters letters' name h h'
    rw [field?_record] at h h'
    have hmem := mem_of_lookup h
    have hmem' := mem_of_lookup h'
    simp only [mem_cons, not_mem_nil, or_false, Prod.mk.injEq, Value.text.injEq]
      at hmem hmem'
    rcases hmem with ⟨rfl, rfl⟩ | ⟨rfl, rfl⟩
    · rcases hmem' with ⟨rfl, -⟩ | ⟨rfl, hname⟩
      · rfl
      · exact absurd hname (by decide)
    · rcases hmem' with ⟨rfl, hname⟩ | ⟨rfl, -⟩
      · exact absurd hname (by decide)
      · rfl
  have hcell : Depicts (cell "$B$2") (.cell "B") := by
    have hletters : Sheet.columnOf "$B$2" = "B" := by decide +kernel
    rw [← hletters]
    exact .cell (field?_record _ _) (field?_record _ _)
  have hplain : Expression.Plain columns (.cell "B") :=
    ⟨"tax", field?_record _ _, by decide +kernel, by decide, by decide⟩
  have hsum : ∀ {right : Value} {e : Expression}, Depicts right e →
      Depicts (sum right) (.binary "+" (.cell "B") e) := fun h =>
    .binary (field?_record _ _) (field?_record _ _) (field?_record _ _) (field?_record _ _) hcell h
  have hnumber : ∀ n : Int, Depicts (number n) (.number n) := fun n =>
    .number (field?_record _ _) (field?_record _ _)
  have hplus : ∀ c ∈ "+".toList, c ∉ ['\'', '"', '(', ')'] := by simp
  have hone : (1 : Int).natAbs < 2 ^ 53 := by decide
  have hminus : (-1 : Int).natAbs < 2 ^ 53 := by decide
  exact sql_texts_eq_iff columns hnames
    (hsum (.unary (field?_record _ _) (field?_record _ _) (field?_record _ _) (hnumber 1)))
    (hsum (hnumber (-1))) ⟨by decide, hplus, hplain, rfl, hone⟩ ⟨by decide, hplus, hplain, hminus⟩

end SheetMill.Formula
