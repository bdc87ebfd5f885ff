import Mathlib.Data.List.Forall2
import SheetMill.Checking.Rows
import SheetMill.Proofs.Value

/-!
# Reports on rows

The chunks are the rows in order, so the findings of all chunks, one after another, are the findings
of the failing rows in order.
-/

namespace SheetMill.Checking

open Outcome List Value

variable {validator : Validator} {schema : Value} {rows : List Value}
  {verdicts : List (Option String)} {n : Nat}

/-- What the validator says about each of the rows. -/
abbrev Judged (validator : Validator) (schema : Value) :
    List Value → List (Option String) → Prop :=
  Forall₂ fun row verdict => validator schema row = .ok verdict

/-- The failing rows in order, each with its position, counted from the given one. -/
def failures (pos : Nat) (verdicts : List (Option String)) : List (Nat × String) :=
  (verdicts.zipIdx pos).filterMap fun (verdict, i) => verdict.map (i, ·)

/-- What a report says about a failing row when the chunks have the given size. -/
def reported (size : Nat) (failure : Nat × String) : String :=
  renumber (chunkWeight * (failure.1 / size)) (finding (failure.1 % size) failure.2)

@[simp] theorem failures_nil (pos : Nat) : failures pos [] = [] := rfl

@[simp] theorem failures_none (pos : Nat) (rest : List (Option String)) :
    failures pos (none :: rest) = failures (pos + 1) rest := rfl

@[simp] theorem failures_some (pos : Nat) (v : String) (rest : List (Option String)) :
    failures pos (some v :: rest) = (pos, v) :: failures (pos + 1) rest := rfl

theorem failures_append (pos : Nat) (front rest : List (Option String)) :
    failures pos (front ++ rest) =
      failures pos front ++ failures (pos + front.length) rest := by
  simp [failures, zipIdx_append]

/-- The failures of a whole chunk and of what comes after it. -/
theorem failures_split (pos size : Nat) (verdicts : List (Option String)) :
    failures pos verdicts = failures pos (verdicts.take size) ++
      failures (pos + size) (verdicts.drop size) := by
  by_cases h : size ≤ verdicts.length
  · conv_lhs => rw [← take_append_drop size verdicts, failures_append, length_take,
      Nat.min_eq_left h]
  · rw [take_of_length_le (by omega), drop_eq_nil_of_le (by omega), failures_nil,
      append_nil]

theorem length_failures (pos : Nat) (verdicts : List (Option String)) :
    (failures pos verdicts).length = verdicts.countP Option.isSome := by
  induction verdicts generalizing pos with
  | nil => rfl
  | cons verdict rest ih => cases verdict <;> simp [ih]

theorem getElem?_of_mem_failures {i : Nat} {v : String} (h : (i, v) ∈ failures 0 verdicts) :
    verdicts[i]? = some (some v) := by
  obtain ⟨⟨verdict, i'⟩, hmem, hverd⟩ := mem_filterMap.mp h
  obtain ⟨v', rfl, hv⟩ := Option.map_eq_some_iff.mp hverd
  cases hv
  exact mk_mem_zipIdx_iff_getElem?.mp hmem

theorem findingsFrom_eq (pos : Nat) (h : Judged validator schema rows verdicts) :
    findingsFrom validator schema pos rows =
      .ok ((failures pos verdicts).map fun f => finding f.1 f.2) := by
  induction h generalizing pos with
  | nil => rfl
  | @cons row verdict rows verdicts hverd _ ih =>
    rw [findingsFrom, hverd, ok_bind, ih, ok_bind]
    cases verdict <;> rfl

/-- In a chunk, counting from the start of the chunk and the number of the chunk say the same as
counting from the start of all rows. -/
theorem map_failures_chunk {size : Nat} (j : Nat) {i : Nat} (h : i + verdicts.length ≤ size) :
    ((failures i verdicts).map fun f => renumber (chunkWeight * j) (finding f.1 f.2)) =
      (failures (size * j + i) verdicts).map (reported size) := by
  induction verdicts generalizing i with
  | nil => rw [failures_nil, failures_nil, map_nil, map_nil]
  | cons verdict rest ih =>
    rw [length_cons] at h
    have hrest := ih (show i + 1 + rest.length ≤ size by omega)
    have hdiv : (size * j + i) / size = j := by
      rw [Nat.mul_add_div (by omega), Nat.div_eq_of_lt (by omega), Nat.add_zero]
    have hmod : (size * j + i) % size = i := by
      rw [Nat.mul_add_mod, Nat.mod_eq_of_lt (by omega)]
    cases verdict with
    | none => rw [failures_none, failures_none, hrest, Nat.add_assoc]
    | some v =>
      rw [failures_some, failures_some, map_cons, map_cons, hrest, reported, hdiv, hmod,
        Nat.add_assoc]

/-- The findings of the chunks from a number on, renumbered and one after another. -/
theorem exists_found {k : Nat} (j : Nat) (h : Judged validator schema rows verdicts) :
    ∃ found, (chunksOf k rows).mapM (findings validator schema) = .ok found ∧
      ((found.zipIdx j).map fun (texts, i) => texts.map (renumber (chunkWeight * i))).flatten =
        (failures ((k + 1) * j) verdicts).map (reported (k + 1)) := by
  -- The chunk with the number j begins at the row (k + 1) * j, so the number goes with the rows.
  fun_induction chunksOf k rows generalizing verdicts j with
  | case1 =>
    cases h
    exact ⟨[], rfl, rfl⟩
  | case2 row rest ih =>
    obtain ⟨found, hfound, hrest⟩ := ih (j + 1) (forall₂_drop (k + 1) h)
    have hhead := findingsFrom_eq 0 (forall₂_take (k + 1) h)
    have hlen : (verdicts.take (k + 1)).length ≤ k + 1 := length_take_le _ _
    have hfindings : findings validator schema (row :: rest.take k) = .ok _ := hhead
    refine ⟨_ :: found, by rw [mapM_cons, hfindings, hfound, ok_bind]; rfl, ?_⟩
    have hchunk := map_failures_chunk j
      (show 0 + (verdicts.take (k + 1)).length ≤ k + 1 by omega)
    rw [zipIdx_cons, map_cons, flatten_cons, hrest]
    simp only [map_map, Function.comp_def, hchunk]
    rw [← map_append, Nat.add_zero ((k + 1) * j), Nat.mul_succ, ← failures_split]

theorem chunkSize_int (count n : Nat) (hn : 1 ≤ n) :
    chunkSize count (.int n) = .ok (max 1 (count / n)) := by
  have hzero : (n : Int) ≠ 0 := by omega
  have hdiv : (count : Int).fdiv n = (count / n : Nat) := (Int.ofNat_fdiv count n).symm
  have hmax : (max 1 (count / n : Nat) : Int).toNat = max 1 (count / n) := by omega
  simp only [chunkSize, asInt?, if_neg hzero, hdiv, hmax]

theorem gather_int {chunks : Nat} (hn : 1 ≤ n) (hchunks : 1 ≤ chunks) :
    gather (.int n) chunks = .ok () := by
  have hleast : ¬ min (n : Int) chunks < 1 := by omega
  rw [gather, smaller_int, ok_bind, less_int, decide_eq_false hleast]
  rfl

theorem length_chunksOf (k : Nat) (rows : List Value) :
    (chunksOf k rows).length = (rows.length + k) / (k + 1) := by
  fun_induction chunksOf k rows with
  | case1 => simp [Nat.div_eq_of_lt]
  | case2 row rest ih =>
    rw [length_cons, ih, length_drop, length_cons]
    by_cases h : k ≤ rest.length
    · rw [Nat.sub_add_cancel h, show rest.length + 1 + k = rest.length + (k + 1) by omega,
        Nat.add_div_right _ (Nat.succ_pos k)]
    · rw [show rest.length - k = 0 by omega, Nat.zero_add, Nat.div_eq_of_lt (Nat.lt_succ_self k),
        show rest.length + 1 + k = rest.length + (k + 1) by omega,
        Nat.add_div_right _ (Nat.succ_pos k), Nat.div_eq_of_lt (by omega)]

/-- Each chunk counts for three, and each finding takes one away. -/
theorem merge_valid (found : List (List String)) :
    (merge found).2 = chunkWeight * found.length - ((merge found).1.length : Int) := by
  have hlen : (merge found).1.length = (found.map length).sum := by
    have hfst : found.zipIdx.map (fun p => p.1.length) = found.map length := by
      conv_rhs => rw [← zipIdx_map_fst 0 found, map_map]
      rfl
    simp [merge, length_flatten, Function.comp_def, hfst]
  rw [hlen]
  show (found.map fun texts => (chunkWeight : Int) - texts.length).foldr (· + ·) 0 = _
  clear hlen
  induction found with
  | nil => rfl
  | cons texts rest ih =>
    rw [map_cons, foldr_cons, ih, map_cons, sum_cons, length_cons]
    push_cast
    ring

def chunkCount (rows workers : Nat) : Nat :=
  let size := max 1 (rows / workers)
  (rows + (size - 1)) / size

/-- The whole report on a table whose first row has some entries: as many findings as rows fail, each
about its row, and the counts. -/
theorem exists_report_cons (hn : 1 ≤ n) {es : List (Value × Value)} {rest : List Value}
    (h : Judged validator schema (.map es :: rest) verdicts) :
    ∃ report, checkRows validator (.list (.map es :: rest)) schema (.int n) = .ok report ∧
      report.errors = (failures 0 verdicts).map (reported (max 1 ((rest.length + 1) / n))) ∧
      report.total = (rest.length + 1 : Nat) * es.length ∧
      report.valid = 3 * chunkCount (rest.length + 1) n - verdicts.countP Option.isSome := by
  obtain ⟨k, hk⟩ : ∃ k, max 1 ((rest.length + 1) / n) = k + 1 :=
    ⟨_, (Nat.sub_add_cancel (Nat.le_max_left 1 _)).symm⟩
  obtain ⟨found, hfound, herrs⟩ := exists_found (k := k) 0 h
  have hcnt := length_chunksOf k (.map es :: rest)
  have hgather : gather (.int n) (chunksOf k (.map es :: rest)).length = .ok () :=
    gather_int hn (by rw [chunksOf, length_cons]; omega)
  have hsize := chunkSize_int (map es :: rest).length n hn
  rw [length_cons, hk] at hsize
  rw [hk]
  refine ⟨⟨((rest.length + 1 : Nat) : Int) * es.length, (merge found).2, (merge found).1⟩, ?_,
    herrs, rfl, ?_⟩
  · -- the first row is a map, so the cells are counted
    show (do
      let size ← chunkSize (map es :: rest).length (.int n)
      gather (.int n) (chunksOf (size - 1) (.map es :: rest)).length
      let found ← (chunksOf (size - 1) (.map es :: rest)).mapM (findings validator schema)
      return (⟨((map es :: rest).length : Int) * es.length, (merge found).2,
        (merge found).1⟩ : Report)) = _
    rw [length_cons, hsize, ok_bind, Nat.add_sub_cancel, hgather, ok_bind,
      hfound]
    rfl
  · have hlen : (merge found).1.length = verdicts.countP Option.isSome := by
      rw [show (merge found).1 = _ from herrs, length_map, length_failures]
    rw [merge_valid, hlen, ← (mapM_eq_ok.mp hfound).length_eq, hcnt, chunkCount, hk]
    rfl

theorem exists_report (hn : 1 ≤ n) (hrows : ∀ row ∈ rows, ∃ es, row = .map es)
    (h : Judged validator schema rows verdicts) :
    ∃ report, checkRows validator (.list rows) schema (.int n) = .ok report ∧
      report.errors = (failures 0 verdicts).map (reported (max 1 (rows.length / n))) := by
  cases rows with
  | nil =>
    cases h
    exact ⟨⟨0, 0, []⟩, rfl, rfl⟩
  | cons row rest =>
    obtain ⟨es, rfl⟩ := hrows row mem_cons_self
    obtain ⟨report, hreport, herrs, -⟩ := exists_report_cons hn h
    exact ⟨report, hreport, herrs⟩

/-- For every number of workers a table of rows on which there are verdicts gets a report. It is
positive just if every row passes, it shows as many findings as rows fail, at most fifty, and the
findings are about the failing rows in their order. -/
theorem report_lists_failing_rows (validator : Validator) (schema : Value)
    (rows : List Value) (verdicts : List (Option String)) (n : Nat) (hn : 1 ≤ n)
    (hrows : ∀ row ∈ rows, ∃ entries, row = .map entries)
    (hverdicts : rows.mapM (validator schema) = .ok verdicts) :
    ∃ report errors, checkRows validator (.list rows) schema (.int n) = .ok report ∧
      report.toValue.field? "is_valid" = some (.bool (verdicts.all Option.isNone)) ∧
      report.toValue.field? "errors" = some (.texts errors) ∧
      errors.length = min 50 (verdicts.countP Option.isSome) ∧
      ∀ (k : Nat) text, errors[k]? = some text → ∃ i v, (failures 0 verdicts)[k]? = some (i, v) ∧
        verdicts[i]? = some (some v) ∧ text = reported (max 1 (rows.length / n)) (i, v) := by
  obtain ⟨report, hreport, herrors⟩ := exists_report hn hrows (mapM_eq_ok.mp hverdicts)
  refine ⟨report, report.errors.take Report.shown, hreport, ?_, rfl, ?_, ?_⟩
  · have hempty : report.errors.isEmpty = verdicts.all Option.isNone := by
      rw [Bool.eq_iff_iff, List.isEmpty_iff, ← List.length_eq_zero_iff, herrors, List.length_map,
        length_failures, countP_eq_zero, all_eq_true]
      simp
    rw [← hempty]
    rfl
  · rw [length_take, herrors, List.length_map, length_failures]
    rfl
  · intro k text htext
    rw [getElem?_take, herrors, getElem?_map] at htext
    split_ifs at htext
    obtain ⟨⟨i, v⟩, hfailure, rfl⟩ := Option.map_eq_some_iff.mp htext
    exact ⟨i, v, hfailure, getElem?_of_mem_failures (mem_of_getElem? hfailure), rfl⟩

/-- A validator that knows one rule: a row has to have the field that the schema requires. -/
def requiring : Validator := fun schema row => do
  let name ← schema.item "required"
  return if ← row.holds name then none else some (name.literal ++ " is a required property")

/-- The first and the third of three rows lack a field; two workers get a row each and one more. -/
theorem report_lists_failing_rows_two_of_three :
    let schema : Value := .record [("required", .text "a")]
    let rows : List Value := [.record [], .record [("a", .null)], .record [("b", .null)]]
    let missing := some "'a' is a required property"
    rows.mapM (requiring schema) = .ok [missing, none, missing] ∧
      ∃ report errors, checkRows requiring (.list rows) schema (.int 2) = .ok report ∧
        report.toValue.field? "is_valid" = some (.bool false) ∧
        report.toValue.field? "errors" = some (.texts errors) ∧ errors.length = 2 := by
  intro schema rows missing
  have hverdicts : rows.mapM (requiring schema) = .ok [missing, none, missing] := rfl
  have hrows : ∀ row ∈ rows, ∃ entries, row = .map entries := by
    simp [rows, Value.record]
  obtain ⟨report, errors, hreport, hvalid, herrors, hlength, -⟩ :=
    report_lists_failing_rows requiring schema rows _ 2 (by decide) hrows hverdicts
  exact ⟨hverdicts, report, errors, hreport, hvalid, herrors, hlength⟩

/-! ## Counts -/

theorem chunkCount_one_worker {rows : Nat} (h : 1 ≤ rows) : chunkCount rows 1 = 1 := by
  have hsize : max 1 (rows / 1) = rows := by
    rw [Nat.div_one]
    exact Nat.max_eq_right h
  rw [chunkCount, hsize, Nat.add_div_left _ h, Nat.div_eq_of_lt (by omega)]

theorem chunkCount_of_le {rows workers : Nat} (h : rows / workers ≤ 1) :
    chunkCount rows workers = rows := by
  rw [chunkCount, Nat.max_eq_left h, Nat.sub_self, Nat.add_zero, Nat.div_one]

/-- The number of what counts as right when some of the rows fail. -/
def validCount (rows failing workers : Nat) : Int := 3 * chunkCount rows workers - failing

/-- One worker gets one chunk and as many workers as rows get as many chunks, so the count is the
same for both only if there is a single row. -/
theorem validCount_consistent_iff {rows failing width : Nat} (hrows : 1 ≤ rows)
    (hfailing : failing ≤ rows) :
    (∀ n, 1 ≤ n → 0 ≤ validCount rows failing n ∧ validCount rows failing n ≤ rows * width ∧
        (rows * width - validCount rows failing n = 0 ↔ failing = 0)) ∧
      (∀ n m, 1 ≤ n → 1 ≤ m → validCount rows failing n = validCount rows failing m) ↔
    rows = 1 ∧ if failing = 0 then width = 3 else 3 ≤ width := by
  unfold validCount
  constructor
  · rintro ⟨hconsistent, hsame⟩
    have hchunks := hsame 1 rows le_rfl hrows
    rw [chunkCount_one_worker hrows, chunkCount_of_le (Nat.div_self hrows).le] at hchunks
    obtain rfl : rows = 1 := by omega
    obtain ⟨-, hhigh, hzero⟩ := hconsistent 1 le_rfl
    rw [chunkCount_one_worker hrows] at hhigh hzero
    split_ifs
    · omega
    · omega
  · rintro ⟨rfl, hwidth⟩
    have hchunks : ∀ n, chunkCount 1 n = 1 := fun n => chunkCount_of_le (Nat.div_le_self 1 n)
    refine ⟨fun n _ => ?_, fun n m _ _ => by rw [hchunks, hchunks]⟩
    rw [hchunks]
    split_ifs at hwidth
    · omega
    · omega

theorem exists_report_counts {fs : List String} (hn : 1 ≤ n) (hne : rows ≠ [])
    (hflds : ∀ row ∈ rows, ∃ es, row = .map es ∧
      (es.map (·.1)).Perm (fs.map .text)) (h : Judged validator schema rows verdicts) :
    let failing := verdicts.countP Option.isSome
    let total : Int := rows.length * fs.length
    let valid := validCount rows.length failing n
    ∃ report errors, checkRows validator (.list rows) schema (.int n) = .ok report ∧
      report.toValue = .record [("is_valid", .bool (failing = 0)), ("total_items", .int total),
        ("valid_items", .int valid), ("invalid_items", .int (total - valid)),
        ("errors", .texts errors)] := by
  intro failing total valid
  obtain ⟨row, rest, rfl⟩ := exists_cons_of_ne_nil hne
  obtain ⟨es, rfl, hperm⟩ := hflds row mem_cons_self
  obtain ⟨report, hreport, herrs, htotal, hvalid⟩ := exists_report_cons hn h
  have hwidth : es.length = fs.length := by simpa using hperm.length_eq
  have hnil : report.errors.isEmpty = decide (failing = 0) := by
    rw [herrs, Bool.eq_iff_iff, List.isEmpty_iff, ← List.length_eq_zero_iff, List.length_map,
      length_failures, decide_eq_true_iff]
  refine ⟨report, report.errors.take Report.shown, hreport, ?_⟩
  rw [Report.toValue, hnil, htotal, hvalid, hwidth]
  rfl

/-- The total counts the cells. What counts as right is three for every chunk less one for every
failing row, so it depends on the number of workers. The counts are consistent with each other and
the same for all numbers of workers just for a single row of three cells, or of at least three if it
fails. -/
theorem counts_consistent_iff_single_row (validator : Validator) (schema : Value)
    (rows : List Value) (verdicts : List (Option String)) (fields : List String) (hnonempty : rows ≠ [])
    (hfields : ∀ row ∈ rows, ∃ entries, row = .map entries ∧
      (entries.map (·.1)).Perm (fields.map .text))
    (hverdicts : rows.mapM (validator schema) = .ok verdicts) :
    let failing := verdicts.countP Option.isSome
    let total : Int := rows.length * fields.length
    let valid := validCount rows.length failing
    (∀ n : Nat, 1 ≤ n → ∃ report errors, checkRows validator (.list rows) schema (.int n) = .ok report ∧
      report.toValue = .record [("is_valid", .bool (failing = 0)), ("total_items", .int total),
        ("valid_items", .int (valid n)), ("invalid_items", .int (total - valid n)),
        ("errors", .texts errors)]) ∧
    ((∀ n, 1 ≤ n → 0 ≤ valid n ∧ valid n ≤ total ∧ (total - valid n = 0 ↔ failing = 0)) ∧
        (∀ n m, 1 ≤ n → 1 ≤ m → valid n = valid m) ↔
      rows.length = 1 ∧ if failing = 0 then fields.length = 3 else 3 ≤ fields.length) := by
  intro failing total valid
  have hall := mapM_eq_ok.mp hverdicts
  have hfailing : failing ≤ rows.length := by
    rw [hall.length_eq]
    exact countP_le_length
  exact ⟨fun n hn => exists_report_counts hn hnonempty hfields hall,
    validCount_consistent_iff (length_pos_iff.mpr hnonempty) hfailing⟩

/-- A single row of one cell that passes. -/
theorem counts_consistent_iff_single_row_cell :
    let rows : List Value := [.record [("a", .null)]]
    let schema : Value := .record [("required", .text "a")]
    ∃ report errors, checkRows requiring (.list rows) schema (.int 1) = .ok report ∧
      report.toValue = .record [("is_valid", .bool true), ("total_items", .int 1),
        ("valid_items", .int 3), ("invalid_items", .int (-2)), ("errors", .texts errors)] := by
  intro rows schema
  have hverdicts : rows.mapM (requiring schema) = .ok [none] := rfl
  have hfields : ∀ row ∈ rows, ∃ entries, row = .map entries ∧
      (entries.map (·.1)).Perm (["a"].map .text) := by
    simp [rows, Value.record]
  have hcounts := counts_consistent_iff_single_row requiring schema rows _ ["a"] (by simp [rows])
    hfields hverdicts
  simpa [rows, validCount, chunkCount] using hcounts.1 1 le_rfl

end SheetMill.Checking
