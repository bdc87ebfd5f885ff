import SheetMill.Proofs.Octets
import SheetMill.Proofs.Outcome
import SheetMill.Workbook.Content

/-!
# Tables as separated text

However a table is written as separated text, with or without quotation marks around its cells, the
workbook that is read from the text has the cells of the table.
-/

namespace SheetMill.Workbook

open Outcome List Text

variable {line text : List Char} {row : List String}

/-! ## Written tables -/

/-- The characters of a cell between quotation marks: a mark is written twice. -/
def doubled (c : Char) : List Char := if c = '"' then [c, c] else [c]

/-- The ways to write a cell. -/
inductive WrittenCell (cell : String) : List Char → Prop where
  | quoted : WrittenCell cell ('"' :: cell.toList.flatMap doubled ++ ['"'])
  | bare (plain : ∀ c ∈ cell.toList, c ≠ ',' ∧ c ≠ '"') : WrittenCell cell cell.toList

inductive WrittenRow : List String → List Char → Prop where
  | one {cell : String} {text : List Char} (written : WrittenCell cell text) :
      WrittenRow [cell] text
  | more {cell : String} {cells : List String} {text line : List Char}
      (written : WrittenCell cell text) (rest : WrittenRow cells line) :
      WrittenRow (cell :: cells) (text ++ ',' :: line)

/-- The ways to write a table. A row is never an empty line: of a single cell that is empty, the
marks are written. -/
inductive WrittenTable : List (List String) → List Char → Prop where
  | nil : WrittenTable [] []
  | last {row : List String} {line : List Char} (written : WrittenRow row line)
      (nonempty : line ≠ []) : WrittenTable [row] line
  | cons {row : List String} {rows : List (List String)} {line ending text : List Char}
      (written : WrittenRow row line) (nonempty : line ≠ [])
      (ends : ending = ['\n'] ∨ ending = ['\r', '\n']) (rest : WrittenTable rows text) :
      WrittenTable (row :: rows) (line ++ (ending ++ text))

/-! ## Scanning a line -/

theorem scanLine_nil {place : Place} (h : place ≠ .quoted) (field : List Char) :
    scanLine place field [] = ⟨[String.ofList field], none⟩ := by
  cases place with
  | quoted => exact absurd rfl h
  | _ => rfl

theorem scanLine_comma {place : Place} (h : place ≠ .quoted) (field line : List Char) :
    scanLine place field (',' :: line) = (scanLine .start [] line).after field := by
  cases place with
  | quoted => exact absurd rfl h
  | _ => simp [scanLine]

theorem scanLine_doubled (cell field rest : List Char) :
    scanLine .quoted field (cell.flatMap doubled ++ '"' :: rest) =
      scanLine .closing (field ++ cell) rest := by
  induction cell generalizing field with
  | nil => simp [scanLine]
  | cons c cell ih =>
    by_cases hc : c = '"'
    · simp [doubled, hc, scanLine, ih]
    · simp [doubled, hc, scanLine, ih]

theorem scanLine_bare {cell : List Char} (h : ∀ c ∈ cell, c ≠ ',') (field rest : List Char) :
    scanLine .bare field (cell ++ rest) = scanLine .bare (field ++ cell) rest := by
  induction cell generalizing field with
  | nil => simp
  | cons c cell ih =>
    obtain ⟨hc, hcell⟩ := forall_mem_cons.mp h
    simp [scanLine, hc, ih hcell]

/-- After a written cell the field that was scanned is the cell, and not open. -/
theorem WrittenCell.scanLine {cell : String} (h : WrittenCell cell text) (rest : List Char) :
    ∃ place ≠ Place.quoted,
      scanLine .start [] (text ++ rest) = Workbook.scanLine place cell.toList rest := by
  cases h with
  | quoted => exact ⟨.closing, by decide, by simp [Workbook.scanLine, scanLine_doubled]⟩
  | bare plain =>
    cases hcell : cell.toList with
    | nil => exact ⟨.start, by decide, rfl⟩
    | cons c cs =>
      rw [hcell] at plain
      obtain ⟨⟨hcomma, hmark⟩, hcs⟩ := forall_mem_cons.mp plain
      refine ⟨.bare, by decide, ?_⟩
      simp [Workbook.scanLine, hcomma, hmark, scanLine_bare fun c hc => (hcs c hc).1]

theorem WrittenRow.scanLine (h : WrittenRow row line) : scanLine .start [] line = ⟨row, none⟩ := by
  induction h with
  | one written =>
    obtain ⟨place, hplace, hscan⟩ := written.scanLine []
    rw [append_nil] at hscan
    rw [hscan, scanLine_nil hplace, String.ofList_toList]
  | @more cell _ _ line written _ ih =>
    obtain ⟨place, hplace, hscan⟩ := written.scanLine (',' :: line)
    rw [hscan, scanLine_comma hplace, ih, Scan.after, String.ofList_toList]

/-! ## Falling into lines -/

def Unbroken (line : List Char) : Prop := ∀ c ∈ line, isLineEnd c = false

theorem Unbroken.linesOf_append {rest : List Char} (h : Unbroken line) {lines : List (List Char)}
    (hrest : linesOf rest = [] :: lines) : linesOf (line ++ rest) = line :: lines := by
  induction line with
  | nil => exact hrest
  | cons c line ih =>
    obtain ⟨hc, hline⟩ := forall_mem_cons.mp h
    have hreturn : c ≠ '\r' := by
      rintro rfl
      exact absurd hc (by decide)
    simp [linesOf, hreturn, hc, ih hline]

theorem Unbroken.linesOf (h : Unbroken line) (hne : line ≠ []) : Text.linesOf line = [line] := by
  induction line with
  | nil => exact absurd rfl hne
  | cons c line ih =>
    obtain ⟨hc, hline⟩ := forall_mem_cons.mp h
    have hreturn : c ≠ '\r' := by
      rintro rfl
      exact absurd hc (by decide)
    cases line with
    | nil => simp [Text.linesOf, hc]
    | cons d line => simp [Text.linesOf, hreturn, hc, ih hline]

theorem WrittenCell.unbroken {cell : String} (h : WrittenCell cell text)
    (hcell : Unbroken cell.toList) : Unbroken text := by
  cases h with
  | quoted =>
    have hmark : isLineEnd '"' = false := by decide
    intro c hc
    simp only [cons_append, mem_cons, mem_append, mem_flatMap, doubled, not_mem_nil, or_false] at hc
    rcases hc with rfl | ⟨d, hd, hc⟩ | rfl
    · exact hmark
    · have hcd : c = d := by
        split_ifs at hc <;> simpa using hc
      exact hcd ▸ hcell d hd
    · exact hmark
  | bare _ => exact hcell

theorem WrittenRow.unbroken (h : WrittenRow row line) (hrow : ∀ cell ∈ row, Unbroken cell.toList) :
    Unbroken line := by
  induction h with
  | one written => exact written.unbroken (hrow _ mem_cons_self)
  | more written _ ih =>
    obtain ⟨hcell, hcells⟩ := forall_mem_cons.mp hrow
    exact forall_mem_append.mpr
      ⟨written.unbroken hcell, forall_mem_cons.mpr ⟨by decide, ih hcells⟩⟩

/-! ## Rows of a text -/

theorem WrittenRow.rowsOfLines_cons (h : WrittenRow row line) (hne : line ≠ [])
    (lines : List (List Char)) :
    rowsOfLines none (line :: lines) = row :: rowsOfLines none lines := by
  cases line with
  | nil => exact absurd rfl hne
  | cons c cs => simp [rowsOfLines, h.scanLine]

theorem WrittenTable.rowsOfLines {table : List (List String)} (h : WrittenTable table text)
    (htable : ∀ row ∈ table, ∀ cell ∈ row, Unbroken cell.toList) :
    rowsOfLines none (linesOf text) = table := by
  induction h with
  | nil => rfl
  | last written nonempty =>
    have hline := written.unbroken (htable _ mem_cons_self)
    rw [hline.linesOf nonempty, written.rowsOfLines_cons nonempty]
    rfl
  | @cons _ _ _ ending text written nonempty ends _ ih =>
    obtain ⟨hrow, hrows⟩ := forall_mem_cons.mp htable
    have hends : linesOf (ending ++ text) = [] :: linesOf text := by
      rcases ends with rfl | rfl
      · simp [linesOf, show isLineEnd '\n' = true by decide]
      · rfl
    rw [(written.unbroken hrow).linesOf_append hends, written.rowsOfLines_cons nonempty, ih hrows]

end SheetMill.Workbook
