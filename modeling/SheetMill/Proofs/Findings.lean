import SheetMill.Proofs.Integer
import SheetMill.Proofs.Replacing
import SheetMill.Proofs.RowReports

/-!
# Findings about rows

The text of a finding begins with the number of its row, which is changed where the findings of all
chunks are put together.
-/

namespace SheetMill.Checking

open Text

/-! ## One finding -/

def heading (pos : Nat) : String := "Item " ++ toString pos ++ ":"

theorem toList_heading (pos : Nat) :
    (heading pos).toList = "Item ".toList ++ Nat.toDigits 10 pos ++ [':'] := by
  simp [heading, Nat.repr]

theorem toList_finding (pos : Nat) (msg : String) :
    (finding pos msg).toList = (heading pos).toList ++ ' ' :: msg.toList := by
  simp [finding, heading]

theorem not_mem_digits {c : Char} (hc : c.isDigit = false) (n : Nat) : c ∉ Nat.toDigits 10 n := by
  intro h
  rw [Decimal.isDigit_toDigits h] at hc
  cases hc

theorem heading_inj {i j : Nat} {x y : List Char}
    (h : (heading i).toList ++ x = (heading j).toList ++ y) : i = j ∧ x = y := by
  have hcolon : ∀ n, ':' ∉ Nat.toDigits 10 n := fun n => not_mem_digits rfl n
  simp only [toList_heading, List.append_assoc, List.append_cancel_left_eq,
    List.singleton_append] at h
  have hdig := congrArg (fun cs => (splitChars ':' cs).headD []) h
  simp only [splitChars_append (hcolon _), List.headD_cons] at hdig
  refine ⟨?_, by simpa [hdig] using h⟩
  rw [← Decimal.ofDigits_toDigits i, hdig, Decimal.ofDigits_toDigits]

theorem finding_inj {i j : Nat} {s t : String} : finding i s = finding j t ↔ i = j ∧ s = t := by
  refine ⟨fun h => ?_, fun ⟨hi, hs⟩ => by rw [hi, hs]⟩
  rw [← String.toList_inj, toList_finding, toList_finding] at h
  obtain ⟨hnum, hrest⟩ := heading_inj h
  exact ⟨hnum, String.toList_inj.mp (List.cons.inj hrest).2⟩

theorem numberOf_finding (position : Nat) (msg : String) :
    numberOf (finding position msg) =
      if position < 10 ^ Decimal.maxIntegerDigits then some (position : Int) else none := by
  have htext : (toString (position : Int)).toList = Nat.toDigits 10 position :=
    Decimal.toList_toString_ofNat position
  have hcolon : ':' ∉ ("Item " ++ toString (position : Int)).toList := by
    rw [String.toList_append, htext, List.mem_append, not_or]
    exact ⟨by decide, not_mem_digits rfl position⟩
  have hword : contains (toString (position : Int)) "Item " = false := by
    have hletter : 'I' ∉ Nat.toDigits 10 position := not_mem_digits rfl position
    rw [contains, htext]
    exact not_occurs_of_not_mem hletter
  have hhead : (split (finding position msg) ':').headD "" =
      "Item " ++ toString (position : Int) := by
    have hchars : (finding position msg).toList =
        ("Item " ++ toString (position : Int)).toList ++ ':' :: ' ' :: msg.toList := by
      rw [toList_finding, toList_heading, String.toList_append, htext]
      simp
    rw [split, hchars, splitChars_append hcolon, List.map_cons, List.headD_cons,
      String.ofList_toList]
  have hnum : replace ("Item " ++ toString (position : Int)) "Item " "" =
      toString (position : Int) := by
    rw [replace_append (by decide), replace_of_not_occurs (by decide) hword, String.empty_append]
  rw [numberOf, hhead, hnum, Decimal.readInt?]
  by_cases h : position < 10 ^ Decimal.maxIntegerDigits
  · rw [Decimal.readInt_toString (by simpa using h), if_pos h]
  · rw [Decimal.readInt_of_digits (Decimal.isNumberMargin_toString _)
      (Decimal.takeSign_toString _), if_neg (by simpa using h), if_neg h]

theorem heading_ne_empty (pos : Nat) : heading pos ≠ "" := by
  simp [heading]

theorem renumber_finding (start : Nat) {pos : Nat} (msg : String)
    (h : pos < 10 ^ Decimal.maxIntegerDigits) :
    renumber start (finding pos msg) = finding (start + pos)
      (replace msg (heading pos) (heading (start + pos))) := by
  have hparts : ∀ i s, finding i s = heading i ++ (String.singleton ' ' ++ s) := by
    intro i s
    rw [← String.toList_inj, toList_finding]
    simp
  have hstart : (heading pos).toList.head? ≠ some ' ' := by
    simp [toList_heading]
  have hraised : "Item " ++ toString ((start : Int) + pos) ++ ":" =
    heading (start + pos) := rfl
  unfold renumber
  rw [numberOf_finding, if_pos h]
  show replace (finding pos msg) (heading pos)
    ("Item " ++ toString ((start : Int) + pos) ++ ":") = _
  rw [hraised, hparts, hparts, replace_append (heading_ne_empty _),
    replace_cons (heading_ne_empty _) hstart]

theorem renumber_of_unread (start : Nat) {text : String} (h : numberOf text = none) :
    renumber start text = text := by
  unfold renumber
  rw [h]

/-- A report says about a failing row what is found if the row is in the first chunk. -/
theorem reported_eq_iff {size i : Nat} (hsize : 1 ≤ size) (v : String) :
    reported size (i, v) = finding i v ↔
      i < size ∨ size = 3 ∧ contains v (heading (i % 3)) = false := by
  have hsplit : size * (i / size) + i % size = i := Nat.div_add_mod i size
  have hless : i % size < size := Nat.mod_lt i hsize
  by_cases hread : i % size < 10 ^ Decimal.maxIntegerDigits
  · rw [reported, renumber_finding _ _ hread, finding_inj, chunkWeight]
    by_cases hfst : i < size
    · rw [Nat.div_eq_of_lt hfst, Nat.mod_eq_of_lt hfst, Nat.mul_zero, Nat.zero_add]
      simp [hfst, replace_self (heading_ne_empty i)]
    · have hlater : 0 < i / size := Nat.div_pos (Nat.not_lt.mp hfst) hsize
      have hplace : 3 * (i / size) + i % size = i ↔ size = 3 := by
        refine ⟨fun h => ?_, fun h => by rw [h] at hsplit ⊢; exact hsplit⟩
        have hchunks : 3 * (i / size) = size * (i / size) := by omega
        exact (Nat.eq_of_mul_eq_mul_right hlater hchunks).symm
      rw [hplace, or_iff_right hfst, and_congr_right_iff]
      rintro rfl
      refine replace_eq_self_iff (heading_ne_empty _) fun x y h => ?_
      have hnums := (heading_inj h).1
      omega
  · have hthree : size ≠ 3 := by
      rintro rfl
      exact hread (Decimal.lt_longest (by omega))
    rw [reported, renumber_of_unread _ (by rw [numberOf_finding, if_neg hread]), finding_inj]
    simp only [hthree, false_and, or_false, and_true]
    exact ⟨fun h => h ▸ hless, Nat.mod_eq_of_lt⟩

/-- The findings of a report are about the failing rows in order. The number in each is raised by
three for every chunk before that of its row, wherever it stands in the text. So a finding is the
number of the row with the message that the check gave just for the rows of the first chunk and, if
the chunks have three rows, for those whose message does not hold the number in its own words. -/
theorem findings_numbered_right_iff (validator : Validator) (schema : Value)
    (rows : List Value) (verdicts : List (Option String)) (n : Nat) (hn : 1 ≤ n)
    (hrows : ∀ row ∈ rows, ∃ entries, row = .map entries)
    (hverdicts : rows.mapM (validator schema) = .ok verdicts) :
    let size := max 1 (rows.length / n)
    let number (i : Nat) := 3 * (i / size) + i % size
    ∃ report errors, checkRows validator (.list rows) schema (.int n) = .ok report ∧
      report.toValue.field? "errors" = some (.texts errors) ∧
      List.Forall₂ (fun row text => ∃ i v, row = (i, v) ∧ verdicts[i]? = some (some v) ∧
          (i % size < 10 ^ Decimal.maxIntegerDigits → text = finding (number i)
            (replace v (heading (i % size)) (heading (number i)))) ∧
          (text = finding i v ↔
            i < size ∨ size = 3 ∧ contains v (heading (i % 3)) = false))
        ((failures 0 verdicts).take 50) errors := by
  intro size number
  obtain ⟨report, hreport, herrors⟩ := exists_report hn hrows (Outcome.mapM_eq_ok.mp hverdicts)
  refine ⟨report, report.errors.take Report.shown, hreport, rfl, ?_⟩
  rw [herrors, ← List.map_take, List.forall₂_map_right_iff, Report.shown,
    List.forall₂_same]
  rintro ⟨i, v⟩ hfailure
  exact ⟨i, v, rfl, getElem?_of_mem_failures (List.mem_of_mem_take hfailure),
    fun hread => renumber_finding _ _ hread, reported_eq_iff (Nat.le_max_left 1 _) v⟩

/-- The second of two rows lacks a field, and each of two workers gets one row. -/
theorem findings_numbered_right_iff_second_of_two :
    let schema : Value := .record [("required", .text "a")]
    let rows : List Value := [.record [("a", .null)], .record [("b", .null)]]
    ∃ report, checkRows requiring (.list rows) schema (.int 2) = .ok report ∧
      report.toValue.field? "errors" = some (.texts ["Item 3: 'a' is a required property"]) := by
  intro schema rows
  have hverdicts : rows.mapM (requiring schema) =
      .ok [none, some "'a' is a required property"] := rfl
  have hrows : ∀ row ∈ rows, ∃ entries, row = .map entries := by
    simp [rows, Value.record]
  obtain ⟨report, errors, hreport, herrors, hfindings⟩ :=
    findings_numbered_right_iff requiring schema rows _ 2 (by decide) hrows hverdicts
  obtain ⟨text, rest, ⟨i, v, hrow, -, htext, -⟩, hrest, rfl⟩ :=
    List.forall₂_cons_left_iff.mp hfindings
  cases hrow
  cases List.forall₂_nil_left_iff.mp hrest
  rw [htext (Decimal.lt_longest (by decide))] at herrors
  exact ⟨report, hreport, herrors.trans (by cbv)⟩

end SheetMill.Checking
