import SheetMill.Proofs.FormulaText
import SheetMill.Proofs.Plan

/-!
# Texts in statements

In SQL a text stands between single quotes, and the double quotes in it become single ones, but no
quote is doubled. So the text is a literal only if its quotes stand in pairs.
-/

namespace SheetMill.Formula

open Value Text Table

/-! ## Literals -/

/-- Whether quotes stand in pairs, one directly behind the other. -/
def paired (isQuote : Char → Bool) : List Char → Bool
  | [] => true
  | [c] => !isQuote c
  | c :: d :: rest =>
    if isQuote c then isQuote d && paired isQuote rest else paired isQuote (d :: rest)

/-- A single literal: a quote, characters among which every quote is doubled, and a quote. -/
def IsLiteral (sql : List Char) : Prop :=
  ∃ body, paired (· == '\'') body = true ∧ sql = '\'' :: (body ++ ['\''])

/-- What of a statement is code, and whether a literal is open at its end. -/
def scan : Bool → List Char → List Char × Bool
  | inside, [] => ([], inside)
  | inside, c :: rest =>
    if c = '\'' then scan (!inside) rest
    else (if inside then (scan inside rest).1 else c :: (scan inside rest).1, (scan inside rest).2)

theorem scan_append (inside : Bool) (xs ys : List Char) :
    scan inside (xs ++ ys) = ((scan inside xs).1 ++ (scan (scan inside xs).2 ys).1,
      (scan (scan inside xs).2 ys).2) := by
  induction xs generalizing inside with
  | nil => rfl
  | cons c xs ih =>
    by_cases hc : c = '\''
    · simp only [List.cons_append, scan, if_pos hc, ih]
    · cases inside <;> simp [scan, hc, ih]

theorem paired_map (isQuote : Char → Bool) (f : Char → Char) (cs : List Char) :
    paired isQuote (cs.map f) = paired (fun c => isQuote (f c)) cs := by
  fun_induction paired (fun c => isQuote (f c)) cs with
  | case1 => rfl
  | case2 c => rfl
  | case3 c d rest hc ih => simp [paired, hc, ih]
  | case4 c d rest hc ih => simpa [paired, hc] using ih

/-- Up to the last quote nothing is code and the literal goes on, exactly if the other quotes stand
in pairs. -/
theorem scan_body_iff (body : List Char) :
    scan true (body ++ ['\'']) = ([], false) ↔ paired (· == '\'') body = true := by
  fun_induction paired (· == '\'') body with
  | case1 => simp [scan]
  | case2 c => by_cases hc : c = '\'' <;> simp [scan, hc]
  | case3 c d rest hc ih =>
    rw [beq_iff_eq] at hc
    by_cases hd : d = '\''
    · simpa [scan, hc, hd] using ih
    · simp [scan, hc, hd]
  | case4 c d rest hc ih =>
    rw [beq_iff_eq] at hc
    simpa [scan, hc] using ih

theorem isLiteral_iff (body : List Char) :
    IsLiteral ('\'' :: (body ++ ['\''])) ↔ paired (· == '\'') body = true := by
  constructor
  · rintro ⟨body', hpaired, heq⟩
    have hbody : body = body' := by simpa using heq
    rwa [hbody]
  · exact fun hpaired => ⟨body, hpaired, rfl⟩

/-! ## Texts -/

def isQuote (c : Char) : Bool := c == '\'' || c == '"'

def single (c : Char) : Char := if c = '"' then '\'' else c

def quoted (s : String) : String := "'" ++ replace s "\"" "'" ++ "'"

theorem toList_quoted (s : String) :
    (quoted s).toList = '\'' :: (s.toList.map single ++ ['\'']) := by
  have hchars : replace s "\"" "'" =
      String.ofList (replaceChars ['"'] ['\''] s.toList.length s.toList) := rfl
  have hsingle : (fun c => if c = '"' then ['\''] else [c]) = fun c => [single c] := by
    funext c
    rw [single, apply_ite (fun c => [c])]
  rw [quoted, hchars, replaceChars_single le_rfl, hsingle, ← List.map_eq_flatMap]
  simp

theorem isQuote_eq : isQuote = fun c => single c == '\'' := by
  funext c
  by_cases hc : c = '"' <;> simp [isQuote, single, hc]

/-- The SQL of a text is a single literal exactly if the quotes of the text, of both kinds, stand in
pairs, and only then is nothing of it read as code where no literal is open. In a statement that
adds a column, whatever part of the text is code stands among the code of the formula around it, and
the rest of the statement is read as the text leaves it. -/
theorem text_literal_iff_paired (node columns : Value) (s : String)
    (htype : node.field? "type" = some (.text NodeKind.text.name))
    (hvalue : node.field? "value" = some (.text s)) :
    (∃ output, toSql columns node = .ok output ∧
      output.item "sql" = .ok (.text (quoted s))) ∧
    (IsLiteral (quoted s).toList ↔ paired isQuote s.toList = true) ∧
    (scan false (quoted s).toList = ([], false) ↔ paired isQuote s.toList = true) ∧
    ∀ (cols types name column : Value) (table before after : String) (d : Definition),
      cols.under name = .ok column →
      column.item "sql" = .ok (.text (before ++ quoted s ++ after)) →
      Plan.addition cols types table name = .ok d →
      ∃ kind extra : Value,
        let start := Plan.opening table name kind ++ before
        let finish := after ++ ") STORED " ++ extra.plain ++ ";"
        d.sql = start ++ quoted s ++ finish ∧
        ((scan false start.toList).2 = false →
          (scan false d.sql.toList).1 = (scan false start.toList).1 ++ (scan false (quoted s).toList).1 ++
            (scan (scan false (quoted s).toList).2 finish.toList).1) := by
  have hpaired : paired isQuote s.toList = paired (· == '\'') (s.toList.map single) := by
    rw [paired_map, isQuote_eq]
  refine ⟨⟨_, (returns_treeSql htype fun _ _ => textNode_eq htype hvalue).back _
    (Nat.lt_succ_self _), item_of_field? (field?_record _ _)⟩, ?_, ?_, ?_⟩
  · rw [hpaired, toList_quoted, isLiteral_iff]
  · rw [hpaired, toList_quoted, ← scan_body_iff]
    rfl
  · intro cols types name column table before after d hcolumn hsql h
    obtain ⟨kind, column', formula, extra, hcolumn', hformula, -, hd⟩ := Plan.addition_eq_ok h
    rw [hcolumn] at hcolumn'
    cases hcolumn'
    rw [hsql] at hformula
    cases hformula
    have hparts : d.sql = (Plan.opening table name kind ++ before) ++ quoted s ++
        (after ++ ") STORED " ++ extra.plain ++ ";") := by
      simp only [hd, plain, String.append_assoc]
    refine ⟨kind, extra, hparts, fun houtside => ?_⟩
    simp only [hparts, String.toList_append] at houtside ⊢
    rw [scan_append, scan_append, houtside]

/-- The text closes its literal and opens another, and what stands between them is code. -/
theorem text_literal_iff_paired_escape :
    let s := "' || secret || '"
    let node : Value := .record [("type", .text "text"), ("value", .text s)]
    (∃ output, toSql (.record []) node = .ok output ∧
      output.item "sql" = .ok (.text (quoted s))) ∧
    ¬ IsLiteral (quoted s).toList ∧
    scan false (quoted s).toList = (" || secret || ".toList, false) := by
  intro s node
  obtain ⟨hsql, hliteral, -, -⟩ := text_literal_iff_paired node (.record []) s rfl rfl
  have hpaired : ¬ paired isQuote s.toList = true := by decide +kernel
  exact ⟨hsql, mt hliteral.mp hpaired, by decide +kernel⟩

end SheetMill.Formula
