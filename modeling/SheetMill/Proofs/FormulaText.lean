import SheetMill.Proofs.FormulaService

/-!
# The SQL text of expressions

Expressions of cells, literals and operators, the nodes that stand for them, and the text that is
written for them. A node gets the text of its expression unless one of its numbers is too large.
-/

namespace SheetMill.Formula

open Message Value Text List

variable {e : Expression}

/-- Expressions of cells, literals and operators. -/
inductive Expression where
  | cell (letters : String)
  | number (n : Int)
  | logical (b : Bool)
  | text (s : String)
  | unary (operator : String) (operand : Expression)
  | binary (operator : String) (left right : Expression)
  deriving Repr, DecidableEq

namespace Expression

def letters : Expression → List String
  | cell letters => [letters]
  | number _ | logical _ | text _ => []
  | unary _ operand => operand.letters
  | binary _ left right => left.letters ++ right.letters

def numbers : Expression → List Int
  | number n => [n]
  | cell _ | logical _ | text _ => []
  | unary _ operand => operand.numbers
  | binary _ left right => left.numbers ++ right.numbers

/-- The text of an expression. -/
def sql (name : String → String) : Expression → String
  | cell letters => name letters
  | number n => toString n
  | logical b => if b then "TRUE" else "FALSE"
  | text s => "'" ++ replace s "\"" "'" ++ "'"
  | unary _ operand => "-(" ++ operand.sql name ++ ")"
  | binary operator left right =>
    "(" ++ left.sql name ++ ") " ++ operator ++ " (" ++ right.sql name ++ ")"

end Expression

/-- The node stands for the expression. -/
inductive Depicts : Value → Expression → Prop where
  | cell {node : Value} {key : String} (type : node.field? "type" = some (.text NodeKind.cell.name))
      (at_key : node.field? "key" = some (.text key)) : Depicts node (.cell (Sheet.columnOf key))
  | number {node : Value} {n : Int}
      (type : node.field? "type" = some (.text NodeKind.number.name))
      (value : node.field? "value" = some (.int n)) : Depicts node (.number n)
  | logical {node : Value} {b : Bool}
      (type : node.field? "type" = some (.text NodeKind.logical.name))
      (value : node.field? "value" = some (.bool b)) : Depicts node (.logical b)
  | text {node : Value} {s : String} (type : node.field? "type" = some (.text NodeKind.text.name))
      (value : node.field? "value" = some (.text s)) : Depicts node (.text s)
  | unary {node part : Value} {operator : String} {operand : Expression}
      (type : node.field? "type" = some (.text NodeKind.unary.name))
      (sign : node.field? "operator" = some (.text operator))
      (at_operand : node.field? "operand" = some part) (depicted : Depicts part operand) :
      Depicts node (.unary operator operand)
  | binary {node first second : Value} {operator : String} {left right : Expression}
      (type : node.field? "type" = some (.text NodeKind.binary.name))
      (sign : node.field? "operator" = some (.text operator))
      (at_left : node.field? "left" = some first) (at_right : node.field? "right" = some second)
      (depicted_left : Depicts first left) (depicted_right : Depicts second right) :
      Depicts node (.binary operator left right)

/-! ## References without signs -/

theorem replaceChars_single {part : Char} {by_ : List Char} {fuel : Nat} {cs : List Char}
    (h : cs.length ≤ fuel) :
    replaceChars [part] by_ fuel cs = cs.flatMap fun c => if c = part then by_ else [c] := by
  induction cs generalizing fuel with
  | nil => cases fuel <;> rfl
  | cons c cs ih =>
    obtain ⟨fuel, rfl⟩ : ∃ k, fuel = k + 1 := ⟨fuel - 1, by simp at h; omega⟩
    have hrest := ih (Nat.le_of_succ_le_succ h)
    by_cases hc : part = c
    · subst hc
      simp [replaceChars, dropPart?, hrest]
    · have hc' : c ≠ part := Ne.symm hc
      simp [replaceChars, dropPart?, hc, hc', hrest]

theorem flatMap_erase (d : Char) (cs : List Char) :
    (cs.flatMap fun c => if c = d then [] else [c]) = cs.filter (· ≠ d) := by
  induction cs with
  | nil => rfl
  | cons c cs ih => by_cases hc : c = d <;> simp [hc, ih]

theorem filter_filter_ne {p : Char → Bool} {d : Char} (hd : p d = false) (cs : List Char) :
    (cs.filter (· ≠ d)).filter p = cs.filter p := by
  rw [filter_filter]
  refine filter_congr fun c _ => ?_
  by_cases hc : c = d
  · simp [hc, hd]
  · simp [hc]

/-- Only letters count in a reference, so it can be written with or without signs. -/
theorem columnOf_replace (key : String) :
    Sheet.columnOf (replace key "$" "") = Sheet.columnOf key := by
  have hsign : isLetter '$' = false := by decide +kernel
  have hchars : replace key "$" "" =
      String.ofList (replaceChars ['$'] [] key.toList.length key.toList) := rfl
  unfold Sheet.columnOf
  rw [hchars, String.toList_ofList, replaceChars_single le_rfl, flatMap_erase,
    filter_filter_ne hsign]

/-! ## Nodes with their text -/

def nameOf (cols : Value) (letters : String) : String :=
  ((cols.field? letters).map plain).getD ""

def Mapped (cols : Value) (letters : String) : Prop :=
  cols.field? letters = some (.text (nameOf cols letters))

theorem Mapped.intro {cols : Value} {letters name : String}
    (h : cols.field? letters = some (.text name)) : Mapped cols letters := by
  simp [Mapped, nameOf, h, plain]

/-- What is made of an expression: a node with the text, or the refusal of a number. -/
inductive Drafted (columns : Value) (e : Expression) : Outcome Value → Prop where
  | written {output sql : Value} (within : ∀ n ∈ e.numbers, n.natAbs < Decimal.floatLimit)
      (at_sql : output.field? "sql" = some sql) (plain : sql.plain = e.sql (nameOf columns)) :
      Drafted columns e (.ok output)
  | refused {n : Int} (mem : n ∈ e.numbers) (beyond : Decimal.floatLimit ≤ n.natAbs) :
      Drafted columns e (.error (.overflow "int too large to convert to float"))

variable {cols node : Value}

theorem drafted_cell {key : String} (htype : node.field? "type" = some (.text NodeKind.cell.name))
    (hkey : node.field? "key" = some (.text key)) (hname : Mapped cols (Sheet.columnOf key)) :
    ∃ r, Returns (treeSql cols) node r ∧ Drafted cols (.cell (Sheet.columnOf key)) r := by
  obtain ⟨refType, hrefType⟩ : ∃ v, node.getD "refType" (.text "") = .ok v := by
    obtain ⟨es, rfl, -⟩ := eq_map_of_field? htype
    exact ⟨_, rfl⟩
  obtain ⟨es, hmap, -⟩ := eq_map_of_field? hname
  have hdraft := cellNode_eq ⟨es, hmap⟩ htype hkey hrefType rfl
  rw [columnOf_replace, hname] at hdraft
  exact ⟨_, returns_treeSql htype fun _ _ => hdraft,
    .written (by simp [Expression.numbers]) (field?_record _ _) rfl⟩

theorem drafted_number {n : Int} (htype : node.field? "type" = some (.text NodeKind.number.name))
    (hval : node.field? "value" = some (.int n)) :
    ∃ r, Returns (treeSql cols) node r ∧ Drafted cols (.number n) r := by
  have hdraft := numberNode_eq htype hval
  by_cases hn : n.natAbs < Decimal.floatLimit
  · obtain ⟨x, hx⟩ := toFloat_int_of_lt hn
    rw [hx] at hdraft
    refine ⟨_, returns_treeSql htype fun _ _ => hdraft, .written ?_ (field?_record _ _) rfl⟩
    simpa [Expression.numbers] using hn
  · have hle := Nat.le_of_not_lt hn
    rw [toFloat_int_of_le hle] at hdraft
    exact ⟨_, returns_treeSql htype fun _ _ => hdraft,
      .refused (by simp [Expression.numbers]) hle⟩

theorem drafted_logical {b : Bool}
    (htype : node.field? "type" = some (.text NodeKind.logical.name))
    (hval : node.field? "value" = some (.bool b)) :
    ∃ r, Returns (treeSql cols) node r ∧ Drafted cols (.logical b) r := by
  have hword : (lower (Value.bool b).plain == "true") = b := by
    cases b <;> decide +kernel
  exact ⟨_, returns_treeSql htype fun _ _ => logicalNode_eq htype hval hword,
    .written (by simp [Expression.numbers]) (field?_record _ _) rfl⟩

theorem drafted_text {s : String} (htype : node.field? "type" = some (.text NodeKind.text.name))
    (hval : node.field? "value" = some (.text s)) :
    ∃ r, Returns (treeSql cols) node r ∧ Drafted cols (.text s) r :=
  ⟨_, returns_treeSql htype fun _ _ => textNode_eq htype hval,
    .written (by simp [Expression.numbers]) (field?_record _ _) rfl⟩

theorem drafted_unary {part : Value} {operator : String} {operand : Expression} {r : Outcome Value}
    (htype : node.field? "type" = some (.text NodeKind.unary.name))
    (hsign : node.field? "operator" = some (.text operator))
    (hpart : node.field? "operand" = some part) (hret : Returns (treeSql cols) part r)
    (hdrafted : Drafted cols operand r) :
    ∃ r, Returns (treeSql cols) node r ∧ Drafted cols (.unary operator operand) r := by
  refine ⟨_, returns_unary htype hsign hpart hret, ?_⟩
  cases hdrafted with
  | refused mem beyond => exact .refused mem beyond
  | @written output sql within at_sql plain =>
    rw [Outcome.ok_bind, item_of_field? at_sql, Outcome.ok_bind, plain]
    exact .written within (field?_record _ _) rfl

theorem drafted_binary {first second : Value} {operator : String} {left right : Expression}
    {r r' : Outcome Value} (htype : node.field? "type" = some (.text NodeKind.binary.name))
    (hsign : node.field? "operator" = some (.text operator))
    (hfst : node.field? "left" = some first) (hsecond : node.field? "right" = some second)
    (hret : Returns (treeSql cols) first r) (hdrafted : Drafted cols left r)
    (hret' : Returns (treeSql cols) second r') (hdrafted' : Drafted cols right r') :
    ∃ r, Returns (treeSql cols) node r ∧ Drafted cols (.binary operator left right) r := by
  refine ⟨_, returns_binary htype hsign hfst hsecond hret hret', ?_⟩
  -- a refusal on the left comes before anything is made of the right
  cases hdrafted with
  | refused mem beyond => exact .refused (mem_append_left _ mem) beyond
  | @written output sql within at_sql plain =>
    cases hdrafted' with
    | refused mem beyond => exact .refused (mem_append_right _ mem) beyond
    | @written output' sql' within' at_sql' plain' =>
      simp only [Outcome.ok_bind, item_of_field? at_sql, item_of_field? at_sql', plain, plain']
      refine .written (fun n hn => ?_) (field?_record _ _) rfl
      rcases mem_append.mp hn with hn | hn
      · exact within n hn
      · exact within' n hn

/-- Every node comes out as the expression that it stands for. -/
theorem Depicts.drafted (h : Depicts node e) (hmapped : ∀ l ∈ e.letters, Mapped cols l) :
    ∃ r, Returns (treeSql cols) node r ∧ Drafted cols e r := by
  induction h with
  | cell type at_key => exact drafted_cell type at_key (hmapped _ (by simp [Expression.letters]))
  | number type value => exact drafted_number type value
  | logical type value => exact drafted_logical type value
  | text type value => exact drafted_text type value
  | unary type sign at_operand _ ih =>
    obtain ⟨r, hret, hdrafted⟩ := ih hmapped
    exact drafted_unary type sign at_operand hret hdrafted
  | binary type sign at_left at_right _ _ ihl ihr =>
    simp only [Expression.letters, mem_append] at hmapped
    obtain ⟨r, hret, hdrafted⟩ := ihl fun l hl => hmapped l (.inl hl)
    obtain ⟨r', hret', hdrafted'⟩ := ihr fun l hl => hmapped l (.inr hl)
    exact drafted_binary type sign at_left at_right hret hdrafted hret' hdrafted'

/-- The text of a node whose numbers are all within double precision. -/
theorem Depicts.exists_sql (h : Depicts node e) (hmapped : ∀ l ∈ e.letters, Mapped cols l)
    (hwithin : ∀ n ∈ e.numbers, n.natAbs < Decimal.floatLimit) :
    ∃ output sql, toSql cols node = .ok output ∧ output.item "sql" = .ok sql ∧
      sql.plain = e.sql (nameOf cols) := by
  obtain ⟨r, hret, hdrafted⟩ := h.drafted hmapped
  have hres : toSql cols node = r := hret.back _ (Nat.lt_succ_self _)
  cases hdrafted with
  | written _ at_sql plain => exact ⟨_, _, hres, item_of_field? at_sql, plain⟩
  | @refused n mem beyond => exact absurd (hwithin n mem) (Nat.not_lt.mpr beyond)

theorem Depicts.toSql_of_beyond (h : Depicts node e) (hmapped : ∀ l ∈ e.letters, Mapped cols l)
    {n : Int} (hn : n ∈ e.numbers) (hbeyond : Decimal.floatLimit ≤ n.natAbs) :
    toSql cols node = .error (.overflow "int too large to convert to float") := by
  obtain ⟨r, hret, hdrafted⟩ := h.drafted hmapped
  have hres : toSql cols node = r := hret.back _ (Nat.lt_succ_self _)
  cases hdrafted with
  | written within _ _ => exact absurd (within n hn) (Nat.not_lt.mpr hbeyond)
  | refused _ _ => exact hres

end SheetMill.Formula
