import SheetMill.Proofs.Value
import SheetMill.Workbook.Content

/-!
# What is read from workbooks

The listing of a workbook gives the cells of each column with a heading from the top. It never
gives more of them than the sheet has columns, so that a sheet is listed as far as the limit says
just if it has at least as many columns as rows should be listed.
-/

namespace SheetMill.Workbook

open Value Outcome List

namespace Sheet

variable {s : Sheet} {a b : Nat}

def headed (s : Sheet) : List Nat := (List.range s.width).filter s.hasHeading

/-- The cells of a column in the first rows. -/
def top (s : Sheet) (rows column : Nat) : List Listed :=
  (List.range (min rows s.height)).map fun row =>
    ⟨letters column ++ toString (row + 1), s.cell row column⟩

/-- The columns with a heading, each with its cells in the first rows. -/
def tops (s : Sheet) (rows : Nat) : List (String × List Listed) :=
  s.headed.map fun column => (letters column, s.top rows column)

/-- The number of rows to list: all of them, or as many as the limit says if it is positive. -/
def due (s : Sheet) (limit : Int) : Nat := if limit ≤ 0 then s.height else min limit.toNat s.height

theorem rowBound_int (s : Sheet) (limit : Int) : s.rowBound (.int limit) =
    .ok (.int (if limit ≤ 0 then max 1 s.width else min limit (max 1 s.width))) := by
  simp only [rowBound, atMost_int, less_int, ok_bind, decide_eq_true_eq]
  by_cases hlim : limit ≤ 0
  · simp only [if_pos hlim, pure_eq_ok]
  · rw [if_neg hlim, if_neg hlim]
    by_cases hwide : max 1 (s.width : Int) < limit
    · rw [if_pos hwide, min_eq_right hwide.le, pure_eq_ok]
    · rw [if_neg hwide, min_eq_left (not_lt.mp hwide), pure_eq_ok]

theorem listedColumn_int (s : Sheet) (rows : Int) (column : Nat) :
    s.listedColumn (.int rows) column = .ok (s.top rows.toNat column) := by
  refine congrArg Except.ok (ext_getElem ?_ fun i _ _ => ?_)
  · simp [top, Sheet.column]
  · simp [top, Sheet.column]

theorem top_congr (h : min a s.height = min b s.height) : s.top a = s.top b := by
  funext column
  rw [top, top, h]

theorem listing_int (s : Sheet) (limit : Int) :
    s.listing (.int limit) = .ok (s.tops (min (s.due limit) (max 1 s.width))) := by
  have hrows : min (if limit ≤ 0 then max 1 (s.width : Int) else min limit (max 1 s.width)).toNat
      s.height = min (min (s.due limit) (max 1 s.width)) s.height := by
    unfold due
    split <;> omega
  simp only [listing, rowBound_int, ok_bind, listedColumn_int, pure_eq_ok, top_congr hrows]
  exact mapM_eq_ok.mpr (forall₂_map_right_iff.mpr (forall₂_same.mpr fun _ _ => rfl))

/-- Listings of a sheet up to some row are the same if there is nothing to list, or if they end at
the same row. -/
theorem tops_eq_iff : s.tops a = s.tops b ↔ (s.headed ≠ [] → min a s.height = min b s.height) := by
  constructor
  · intro h hheaded
    obtain ⟨column, hcol⟩ := exists_mem_of_ne_nil _ hheaded
    have htop := congrArg Prod.snd (map_inj_left.mp h column hcol)
    simpa [top] using congrArg length htop
  · intro h
    by_cases hheaded : s.headed = []
    · simp [tops, hheaded]
    · rw [tops, tops, top_congr (h hheaded)]

theorem tops_min_eq_iff (limit : Int) : s.tops (min (s.due limit) (max 1 s.width)) =
    s.tops (s.due limit) ↔ (s.headed ≠ [] → s.due limit ≤ s.width) := by
  rw [tops_eq_iff]
  refine imp_congr_right fun hheaded => ?_
  obtain ⟨column, hcol⟩ := exists_mem_of_ne_nil _ hheaded
  have hwidth : column < s.width := mem_range.mp (mem_filter.mp hcol).1
  have hdue : s.due limit ≤ s.height := by
    unfold due
    split <;> omega
  omega

end Sheet

theorem put_of_not_mem {α : Type} {cols : Columns α} {name : String}
    (h : .text name ∉ cols.map Prod.fst) (sheet : List (String × α)) :
    cols.put (.text name) sheet = cols ++ [(.text name, sheet)] := by
  induction cols with
  | nil => rfl
  | cons entry cols ih =>
    rw [map_cons, mem_cons, not_or] at h
    have hother : entry.1.sameScalar (.text name) = false :=
      Bool.eq_false_iff.mpr (mt sameScalar_text_right.mp (Ne.symm h.1))
    simp [Columns.put, hother, ih h.2]

/-- The sheets of a workbook are listed one after the other. -/
theorem listing_of_sheets {w : Workbook} {limit : Value} {f : Sheet → List (String × List Listed)}
    (htexts : ∀ s ∈ w, ∃ name, s.title = .text name) (htitles : (w.map Sheet.title).Nodup)
    (h : ∀ s : Sheet, s.listing limit = .ok (f s)) :
    w.listing limit = .ok (w.map fun s => (s.title, f s)) := by
  induction w using reverseRecOn with
  | nil => rfl
  | append_singleton w s ih =>
    rw [map_append, nodup_append] at htitles
    obtain ⟨name, hname⟩ := htexts s (by simp)
    have hnew : .text name ∉ (w.map fun s => (s.title, f s)).map Prod.fst := by
      rw [map_map]
      exact fun hmem => htitles.2.2 _ hmem _ (by simp) hname.symm
    have hw := ih (fun s hs => htexts s (mem_append_left _ hs)) htitles.1
    unfold listing at hw ⊢
    rw [foldlM_append, hw, ok_bind, foldlM_cons, hname, h s]
    simp [isKey, put_of_not_mem hnew, hname]

/-- Each sheet is listed as far as it is due, but not further than it has columns. So the whole
listing is as it is due just if no sheet with headings is too narrow. -/
theorem rows_listed_iff_wide (w : Workbook) (limit : Int)
    (htexts : ∀ s ∈ w, ∃ name, s.title = .text name) (htitles : (w.map Sheet.title).Nodup) :
    w.listing (.int limit) =
        .ok (w.map fun s => (s.title, s.tops (min (s.due limit) (max 1 s.width)))) ∧
      (w.listing (.int limit) = .ok (w.map fun s => (s.title, s.tops (s.due limit))) ↔
        ∀ s ∈ w, s.headed ≠ [] → s.due limit ≤ s.width) := by
  have hlisting := listing_of_sheets htexts htitles (Sheet.listing_int · limit)
  refine ⟨hlisting, ?_⟩
  rw [hlisting, Except.ok.injEq, map_inj_left]
  refine forall₂_congr fun s _ => ?_
  rw [Prod.mk.injEq, and_iff_right rfl, Sheet.tops_min_eq_iff]

/-- Three rows in one column: only the heading is listed. -/
theorem rows_listed_iff_wide_narrow :
    let cell (i : Int) : Option Cell := some ⟨.int i, .text "n"⟩
    let w : Workbook := [⟨.text "Sheet1", [[cell 1], [cell 2], [cell 3]]⟩]
    w.listing (.int 50) = .ok [(.text "Sheet1", [("A", [⟨"A1", ⟨.int 1, .text "n"⟩⟩])])] ∧
      w.listing (.int 50) ≠ .ok (w.map fun s => (s.title, s.tops (s.due 50))) := by
  intro cell w
  obtain ⟨hlisting, hiff⟩ := rows_listed_iff_wide w 50 (by simp [w]) (by simp [w])
  have hone : (w.map fun s => (s.title, s.tops (min (s.due 50) (max 1 s.width)))) =
      [(.text "Sheet1", [("A", [⟨"A1", ⟨.int 1, .text "n"⟩⟩])])] := by cbv
  exact ⟨hone ▸ hlisting, fun h => absurd (hiff.mp h _ mem_cons_self (by decide)) (by decide)⟩

end SheetMill.Workbook
