import SheetMill.Proofs.Columns

/-!
# The columns of a rectangle of cells
-/

namespace SheetMill.Formula

open Value Text Sheet List

variable {node : Value} {letters first last : List Char} {c : Char}

/-- The node is a cell in the column: its key is the letters and a row, with signs between. -/
structure IsCorner (node : Value) (letters : List Char) : Prop where
  type : node.field? "type" = some (.text NodeKind.cell.name)
  column : IsColumn letters
  key : ∃ key row, node.field? "key" = some (.text key) ∧ (∀ c ∈ row, c.isDigit = true) ∧
    key.toList.filter (· ≠ '$') = letters ++ row

theorem isLetter_of_isUpper (h : c.isUpper = true) : isLetter c = true :=
  of_isUpper (p := fun c => isLetter c = true) (by decide +kernel) h

theorem isLetter_of_isDigit (h : c.isDigit = true) : isLetter c = false := by
  have hall : ∀ d < 10, isLetter (Char.ofNat (48 + d)) = false := by decide +kernel
  have hcode : 48 ≤ c.toNat ∧ c.toNat ≤ 57 := by
    simpa [Char.isDigit, UInt32.le_iff_toNat_le] using h
  have hsum : 48 + (c.toNat - 48) = c.toNat := by omega
  simpa [hsum] using hall (c.toNat - 48) (by omega)

theorem IsCorner.cornerCell (h : IsCorner node letters) (entries : List (Value × Value)) :
    ∃ cell, cornerCell (.map entries) node = .ok cell ∧ columnOf cell = String.ofList letters := by
  obtain ⟨key, row, hkey, hrow, hchars⟩ := h.key
  have hsign : isLetter '$' = false := by decide +kernel
  have hcol : columnOf key = String.ofList letters := by
    rw [columnOf, ← filter_filter_ne hsign, hchars, filter_append,
      filter_eq_self.mpr fun c hc => isLetter_of_isUpper (h.column.2 c hc),
      filter_eq_nil_iff.mpr fun c hc => by simp [isLetter_of_isDigit (hrow c hc)],
      append_nil]
  refine ⟨replace key "$" "", ?_, (columnOf_replace key).trans hcol⟩
  obtain ⟨fs, rfl, -⟩ := eq_map_of_field? h.type
  rw [Formula.cornerCell, cellNode_eq ⟨entries, rfl⟩ h.type hkey rfl rfl]
  cases (map entries).field? (columnOf (replace key "$" "")) <;> rfl

theorem quotedChar_of_isUpper (h : c.isUpper = true) : quotedChar '\'' c = [c] :=
  of_isUpper (p := fun c => quotedChar '\'' c = [c]) (by decide +kernel) h

theorem literal_missingKey (h : IsColumn letters) :
    (Fault.missingKey (.text (String.ofList letters))).literal =
      "KeyError('" ++ String.ofList letters ++ "')" := by
  have hchars : letters.flatMap (quotedChar '\'') = letters := by
    rw [flatMap_congr fun c hc => quotedChar_of_isUpper (h.2 c hc), flatMap_singleton']
  have hmark : '\'' ∉ letters := fun hmem => absurd (h.2 _ hmem) (by decide)
  have hquote : quote (String.ofList letters) = "'" ++ String.ofList letters ++ "'" := by
    simp [quote, quoteMark, hmark, hchars, ← String.toList_inj]
  simp [Fault.literal, literal, hquote, ← String.toList_inj]

/-- The answer lists the columns and what the map has for each, or the first that it has not. -/
def Reports (cols : Value) (cells : List (List Char)) (output : Value) : Prop :=
  output.field? "cells" = some (.texts (cells.map String.ofList)) ∧
    ((∃ values, Forall₂ (fun l v => cols.field? (String.ofList l) = some v) cells values ∧
        output.field? "columns" = some (.list values) ∧ output.field? "error" = some .null) ∨
      ∃ before l after, cells = before ++ l :: after ∧
        (∀ m ∈ before, ∃ v, cols.field? (String.ofList m) = some v) ∧
        cols.field? (String.ofList l) = none ∧ output.field? "columns" = some (.list []) ∧
        output.field? "error" = some (.text ("KeyError('" ++ String.ofList l ++ "')")))

/-- The first column that the map does not have decides about all. -/
theorem lookUpAll_cases (entries : List (Value × Value)) {cells : List (List Char)}
    (h : ∀ l ∈ cells, IsColumn l) :
    (∃ values, Forall₂
        (fun l v => (map entries).field? (String.ofList l) = some v) cells values ∧
        lookUpAll (.map entries) (cells.map String.ofList) = .ok (.ok values)) ∨
      ∃ before l after, cells = before ++ l :: after ∧
        (∀ m ∈ before, ∃ v, (map entries).field? (String.ofList m) = some v) ∧
        (map entries).field? (String.ofList l) = none ∧
        lookUpAll (.map entries) (cells.map String.ofList) =
          .ok (.error ("KeyError('" ++ String.ofList l ++ "')")) := by
  induction cells with
  | nil => exact .inl ⟨[], .nil, rfl⟩
  | cons l rest ih =>
    rw [forall_mem_cons] at h
    rw [map_cons]
    cases hfound : (map entries).field? (String.ofList l) with
    | none =>
      refine .inr ⟨[], l, rest, rfl, forall_mem_nil _, hfound, ?_⟩
      rw [← literal_missingKey h.1]
      simp only [lookUpAll, lookUp, item, hfound]
      rfl
    | some v =>
      simp only [lookUpAll, lookUp, item_of_field? hfound]
      rcases ih h.2 with ⟨values, hvals, hall⟩ | ⟨before, m, after, rfl, hbefore, hm, hall⟩
      · exact .inl ⟨v :: values, .cons hfound hvals, by rw [hall]; rfl⟩
      · refine .inr ⟨l :: before, m, after, rfl, ?_, hm, by rw [hall]; rfl⟩
        exact forall_mem_cons.mpr ⟨⟨v, hfound⟩, hbefore⟩

section Range

variable {left right : Value} (entries : List (Value × Value)) (node : Value)
  (htype : node.field? "type" = some (.text NodeKind.cellRange.name))
  (hleft : node.field? "left" = some left) (hright : node.field? "right" = some right)
  (hfirst : IsCorner left first) (hlast : IsCorner right last)

include htype hleft hright hfirst hlast

/-- A rectangle of cells has the columns from one of its ends to the other in their order. -/
theorem range_columns_between :
    ∃ cells : List (List Char), (∀ l, l ∈ cells ↔ IsColumn l ∧
        indexOfChars first ≤ indexOfChars l ∧ indexOfChars l ≤ indexOfChars last) ∧
      cells.Pairwise (fun a b => indexOfChars a < indexOfChars b) ∧
      ∃ output, cellRangeNode (.map entries) node = .ok output ∧
        Reports (.map entries) cells output := by
  refine ⟨between first last, fun _ => mem_between hfirst.column,
    pairwise_between hfirst.column last, ?_⟩
  obtain ⟨start, hstart, hfirst'⟩ := hfirst.cornerCell entries
  obtain ⟨stop, hstop, hlast'⟩ := hlast.cornerCell entries
  rw [cellRangeNode, expect_of_type htype, item_of_field? hleft, item_of_field? hright]
  simp only [Outcome.ok_bind, hstart, hstop, hfirst', hlast',
    columnRange_eq hfirst.column hlast.column]
  rcases lookUpAll_cases entries (fun l hl => ((mem_between hfirst.column).mp hl).1) with
    ⟨values, hvals, hall⟩ | ⟨before, l, after, hcells, hbefore, hl, hall⟩
  · rw [hall]
    exact ⟨_, rfl, rfl, .inl ⟨values, hvals, rfl, rfl⟩⟩
  · rw [hall]
    exact ⟨_, rfl, rfl, .inr ⟨before, l, after, hcells, hbefore, hl, rfl, rfl⟩⟩

end Range

def corner (key : List Char) : Value :=
  .record [("type", .text NodeKind.cell.name), ("key", .text (String.ofList key))]

def rectangle (key key' : List Char) : Value :=
  .record [("type", .text NodeKind.cellRange.name), ("left", corner key), ("right", corner key')]

theorem range_columns_between_carry :
    ∃ cells output, cellRangeNode (.record [("Z", .text "price")])
        (rectangle ['$', 'Z', '$', '1'] ['A', 'B', '7']) = .ok output ∧ ['A', 'A'] ∈ cells ∧
      Reports (.record [("Z", .text "price")]) cells output := by
  have hfirst : IsCorner (corner ['$', 'Z', '$', '1']) ['Z'] :=
    ⟨rfl, ⟨by simp, by simp⟩, _, ['1'], rfl, by simp, by simp⟩
  have hlast : IsCorner (corner ['A', 'B', '7']) ['A', 'B'] :=
    ⟨rfl, ⟨by simp, by simp⟩, _, ['7'], rfl, by simp, by simp⟩
  obtain ⟨cells, hcells, -, output, hrun, hreports⟩ :=
    range_columns_between [(.text "Z", .text "price")] (rectangle _ _) rfl rfl rfl hfirst hlast
  exact ⟨cells, output, hrun, (hcells _).mpr ⟨⟨by simp, by simp⟩, by decide, by decide⟩, hreports⟩

end SheetMill.Formula
