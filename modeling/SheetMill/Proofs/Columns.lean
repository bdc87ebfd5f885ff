import SheetMill.Proofs.FormulaText
import SheetMill.Proofs.Integer

/-!
# Columns and their indices

The letters of a column are the digits of its index in a system with base twenty-six that has no
zero.
-/

namespace SheetMill.Sheet

open Text List

variable {letters other : List Char} {c : Char}

def IsColumn (letters : List Char) : Prop := letters ≠ [] ∧ ∀ c ∈ letters, c.isUpper = true

/-! ## Letters and indices -/

theorem toNat_of_isUpper (h : c.isUpper = true) : 65 ≤ c.toNat ∧ c.toNat ≤ 90 := by
  simpa [Char.isUpper, UInt32.le_iff_toNat_le] using h

theorem of_isUpper {p : Char → Prop} (hall : ∀ d < 26, p (Char.ofNat (65 + d)))
    (h : c.isUpper = true) : p c := by
  have hcode := toNat_of_isUpper h
  have hsum : 65 + (c.toNat - 65) = c.toNat := by omega
  simpa [hsum] using hall (c.toNat - 65) (by omega)

theorem indexOfChars_snoc (letters : List Char) (c : Char) :
    indexOfChars (letters ++ [c]) = indexOfChars letters * 26 + ((c.toNat : Int) - 64) := by
  simp [indexOfChars]

theorem indexOfChars_nonneg (h : ∀ c ∈ letters, c.isUpper = true) : 0 ≤ indexOfChars letters := by
  induction letters using reverseRecOn with
  | nil => exact le_rfl
  | append_singleton letters c ih =>
    simp only [mem_append, mem_singleton] at h
    have hrest := ih fun d hd => h d (.inl hd)
    have hlast := toNat_of_isUpper (h c (.inr rfl))
    rw [indexOfChars_snoc]
    omega

theorem IsColumn.index_pos (h : IsColumn letters) : 0 < indexOfChars letters := by
  obtain ⟨rest, c, rfl⟩ := (eq_nil_or_concat' letters).resolve_left h.1
  have hrest : 0 ≤ indexOfChars rest := indexOfChars_nonneg fun d hd => h.2 d (by simp [hd])
  have hlast := toNat_of_isUpper (h.2 c (by simp))
  rw [indexOfChars_snoc]
  omega

theorem columnChars_indexOfChars (h : IsColumn letters) :
    columnChars (indexOfChars letters).toNat = letters := by
  obtain ⟨hne, hupper⟩ := h
  induction letters using reverseRecOn with
  | nil => exact absurd rfl hne
  | append_singleton rest c ih =>
    simp only [mem_append, mem_singleton] at hupper
    have hlast := toNat_of_isUpper (hupper c (.inr rfl))
    have hrest : ∀ d ∈ rest, d.isUpper = true := fun d hd => hupper d (.inl hd)
    rw [indexOfChars_snoc, columnChars]
    by_cases hnil : rest = []
    · subst hnil
      have hcode : 64 + (indexOfChars [] * 26 + ((c.toNat : Int) - 64)).toNat = c.toNat := by
        simp only [indexOfChars, foldl_nil]
        omega
      rw [if_pos (by omega), hcode, Char.ofNat_toNat, nil_append]
    · have hpos := IsColumn.index_pos ⟨hnil, hrest⟩
      have hquotient : ((indexOfChars rest * 26 + ((c.toNat : Int) - 64)).toNat - 1) / 26 =
          (indexOfChars rest).toNat := by omega
      have hcode : 65 + ((indexOfChars rest * 26 + ((c.toNat : Int) - 64)).toNat - 1) % 26 =
          c.toNat := by omega
      rw [if_neg (by omega), hquotient, hcode, ih hnil hrest, Char.ofNat_toNat]

theorem isUpper_ofNat {d : Nat} (h : d < 26) :
    (Char.ofNat (65 + d)).isUpper = true ∧ (Char.ofNat (65 + d)).toNat = 65 + d := by
  decide +revert

theorem columnChars_spec (index : Nat) (h : 1 ≤ index) :
    IsColumn (columnChars index) ∧ indexOfChars (columnChars index) = index := by
  fun_induction columnChars index with
  | case1 index hle =>
    obtain ⟨hupper, hcode⟩ := isUpper_ofNat (d := index - 1) (by omega)
    have hshift : 64 + index = 65 + (index - 1) := by omega
    rw [hshift]
    refine ⟨⟨by simp, by simpa using hupper⟩, ?_⟩
    simp only [indexOfChars, foldl_cons, foldl_nil]
    omega
  | case2 index hlt ih =>
    obtain ⟨⟨-, hrest⟩, hidx⟩ := ih (by omega)
    obtain ⟨hupper, hcode⟩ := isUpper_ofNat (Nat.mod_lt (index - 1) (by omega))
    refine ⟨⟨by simp, ?_⟩, ?_⟩
    · intro c hc
      rcases mem_append.mp hc with hc | hc
      · exact hrest c hc
      · rw [mem_singleton.mp hc]
        exact hupper
    · rw [indexOfChars_snoc]
      omega

/-! ## The order of the columns -/

/-- Lists of one length are in the order of what stands before their last items, and if that is the
same, in the order of these. -/
theorem snoc_lt_snoc {rest rest' : List Char} {c' : Char} (h : rest.length = rest'.length) :
    rest ++ [c] < rest' ++ [c'] ↔ rest < rest' ∨ rest = rest' ∧ c < c' := by
  induction rest generalizing rest' with
  | nil =>
    obtain rfl := length_eq_zero_iff.mp h.symm
    simp [cons_lt_cons_iff]
  | cons d rest ih =>
    obtain ⟨d', rest', rfl⟩ := exists_cons_of_length_eq_add_one h.symm
    have hlen : rest.length = rest'.length := by simpa using h
    simp only [cons_append, cons_lt_cons_iff, ih hlen, cons.injEq]
    tauto

theorem indexOfChars_inj (h : ∀ c ∈ letters, c.isUpper = true)
    (h' : ∀ c ∈ other, c.isUpper = true) :
    indexOfChars letters = indexOfChars other ↔ letters = other := by
  refine ⟨fun heq => ?_, fun heq => heq ▸ rfl⟩
  rcases eq_or_ne letters [] with rfl | hne <;> rcases eq_or_ne other [] with rfl | hne'
  · rfl
  · exact absurd heq (IsColumn.index_pos ⟨hne', h'⟩).ne
  · exact absurd heq (IsColumn.index_pos ⟨hne, h⟩).ne'
  · rw [← columnChars_indexOfChars ⟨hne, h⟩, heq, columnChars_indexOfChars ⟨hne', h'⟩]

/-- Columns are in the order of their lengths, and those of one length in that of the alphabet. -/
theorem indexOfChars_lt_iff (h : ∀ c ∈ letters, c.isUpper = true)
    (h' : ∀ c ∈ other, c.isUpper = true) :
    indexOfChars letters < indexOfChars other ↔
      letters.length < other.length ∨ letters.length = other.length ∧ letters < other := by
  induction letters using reverseRecOn generalizing other with
  | nil =>
    rcases eq_nil_or_concat' other with rfl | ⟨rest', c', rfl⟩
    · simp
    · have hpos := IsColumn.index_pos ⟨by simp, h'⟩
      simp only [indexOfChars, foldl_nil, length_nil, length_append,
        length_singleton, Nat.zero_lt_succ, true_or, iff_true]
      exact hpos
  | append_singleton rest c ih =>
    rcases eq_nil_or_concat' other with rfl | ⟨rest', c', rfl⟩
    · have hpos := IsColumn.index_pos ⟨by simp, h⟩
      simp [indexOfChars] at hpos ⊢
      omega
    · simp only [mem_append, mem_singleton] at h h'
      have hrest : ∀ d ∈ rest, d.isUpper = true := fun d hd => h d (.inl hd)
      have hrest' : ∀ d ∈ rest', d.isUpper = true := fun d hd => h' d (.inl hd)
      have hlast := toNat_of_isUpper (h c (.inr rfl))
      have hlast' := toNat_of_isUpper (h' c' (.inr rfl))
      have hcode : c < c' ↔ c.toNat < c'.toNat := UInt32.lt_iff_toNat_lt
      have hsplit : indexOfChars (rest ++ [c]) < indexOfChars (rest' ++ [c']) ↔
          indexOfChars rest < indexOfChars rest' ∨
            indexOfChars rest = indexOfChars rest' ∧ c < c' := by
        rw [indexOfChars_snoc, indexOfChars_snoc, hcode]
        omega
      rw [hsplit, ih hrest hrest', indexOfChars_inj hrest hrest']
      by_cases hlen : rest.length = rest'.length
      · rw [snoc_lt_snoc hlen]
        simp [hlen]
      · have hne : rest ≠ rest' := fun heq => hlen (heq ▸ rfl)
        simp [hlen, hne]

/-! ## Names -/

theorem upperChar_of_isAlpha (h : c.isAlpha = true) : upperChar c = [c.toUpper] := by
  have hall : ∀ n < 128, (Char.ofNat n).isAlpha = true →
      upperChar (Char.ofNat n) = [(Char.ofNat n).toUpper] := by decide +kernel
  have hcode : c.toNat < 128 := by
    simp [Char.isAlpha, Char.isUpper, Char.isLower, UInt32.le_iff_toNat_le] at h
    omega
  simpa [h] using hall c.toNat hcode

theorem columnIndex_ofList (h : ∀ c ∈ letters, c.isAlpha = true) :
    columnIndex (String.ofList letters) = indexOfChars (letters.map Char.toUpper) := by
  have hupper : letters.flatMap upperChar = letters.map Char.toUpper := by
    rw [map_eq_flatMap]
    exact flatMap_congr fun c hc => upperChar_of_isAlpha (h c hc)
  simp [columnIndex, upper, hupper]

theorem toUpper_of_isUpper (h : c.isUpper = true) : c.toUpper = c :=
  of_isUpper (p := fun c => c.toUpper = c) (by decide) h

theorem IsColumn.columnIndex_eq (h : IsColumn letters) :
    columnIndex (String.ofList letters) = indexOfChars letters := by
  have hsame : letters.map Char.toUpper = letters :=
    (map_congr_left fun c hc => toUpper_of_isUpper (h.2 c hc)).trans (map_id _)
  rw [columnIndex_ofList fun c hc => by simp [Char.isAlpha, h.2 c hc], hsame]

theorem columnName_of_pos {index : Int} (h : 1 ≤ index) :
    columnName index = .ok (String.ofList (columnChars index.toNat)) := by
  rw [columnName, if_pos (by omega)]

theorem IsColumn.columnName_eq (h : IsColumn letters) :
    columnName (indexOfChars letters) = .ok (String.ofList letters) := by
  rw [columnName_of_pos h.index_pos, columnChars_indexOfChars h]

/-- Columns and the indices from one on correspond to each other in their orders. -/
theorem columns_correspond_to_indices (h : IsColumn letters) (h' : IsColumn other) (index : Int)
    (hindex : 1 ≤ index) :
    (∃ name, IsColumn name ∧ columnIndex (String.ofList name) = index ∧
      columnName index = .ok (String.ofList name)) ∧
    1 ≤ columnIndex (String.ofList letters) ∧
    columnName (columnIndex (String.ofList letters)) = .ok (String.ofList letters) ∧
    (∀ written : List Char, (∀ c ∈ written, c.isAlpha = true) → written.map Char.toUpper = letters →
      columnIndex (String.ofList written) = columnIndex (String.ofList letters)) ∧
    (columnIndex (String.ofList letters) < columnIndex (String.ofList other) ↔
      letters.length < other.length ∨ letters.length = other.length ∧ letters < other) := by
  rw [h.columnIndex_eq, h'.columnIndex_eq]
  refine ⟨?_, h.index_pos, h.columnName_eq, ?_, indexOfChars_lt_iff h.2 h'.2⟩
  · obtain ⟨hname, hnamed⟩ := columnChars_spec index.toNat (by omega)
    refine ⟨_, hname, ?_, columnName_of_pos hindex⟩
    rw [hname.columnIndex_eq, hnamed]
    omega
  · rintro written halpha rfl
    exact columnIndex_ofList halpha

theorem columns_correspond_to_indices_carry :
    IsColumn ['Z', 'Z'] ∧ IsColumn ['A', 'A', 'A'] ∧ columnName (columnIndex "ZZ") = .ok "ZZ" ∧
      columnIndex "zZ" = columnIndex "ZZ" ∧ columnIndex "ZZ" < columnIndex "AAA" ∧
      ∃ name, IsColumn name ∧ columnIndex (String.ofList name) = 703 ∧
        columnName 703 = .ok (String.ofList name) := by
  have h : IsColumn ['Z', 'Z'] := ⟨by simp, by simp⟩
  have h' : IsColumn ['A', 'A', 'A'] := ⟨by simp, by simp⟩
  obtain ⟨hindex, -, hname, hwritten, horder⟩ :=
    columns_correspond_to_indices h h' 703 (by decide)
  exact ⟨h, h', hname, hwritten ['z', 'Z'] (by simp) rfl,
    horder.mpr (.inl (by decide)), hindex⟩

/-! ## Columns between two others -/

theorem mem_interval {first last i : Int} : i ∈ interval first last ↔ first ≤ i ∧ i ≤ last := by
  simp only [interval, mem_map, mem_range]
  constructor
  · omega
  · rintro ⟨hfirst, hlast⟩
    exact ⟨(i - first).toNat, by omega, by omega⟩

theorem pairwise_interval (first last : Int) : (interval first last).Pairwise (· < ·) := by
  refine pairwise_map.mpr (pairwise_lt_range.imp fun {m n} h => ?_)
  omega

variable {first last : List Char}

/-- The columns from one to another. -/
def between (first last : List Char) : List (List Char) :=
  (interval (indexOfChars first) (indexOfChars last)).map fun i => columnChars i.toNat

theorem indexOfChars_between (h : IsColumn first) {i : Int}
    (hi : i ∈ interval (indexOfChars first) (indexOfChars last)) :
    IsColumn (columnChars i.toNat) ∧ indexOfChars (columnChars i.toNat) = i := by
  have hpos := h.index_pos
  have hfirst := (mem_interval.mp hi).1
  obtain ⟨hcol, hidx⟩ := columnChars_spec i.toNat (by omega)
  exact ⟨hcol, by omega⟩

theorem mem_between (h : IsColumn first) :
    letters ∈ between first last ↔ IsColumn letters ∧
      indexOfChars first ≤ indexOfChars letters ∧ indexOfChars letters ≤ indexOfChars last := by
  rw [between, mem_map]
  constructor
  · rintro ⟨i, hi, rfl⟩
    obtain ⟨hcol, hidx⟩ := indexOfChars_between h hi
    rw [hidx]
    exact ⟨hcol, mem_interval.mp hi⟩
  · rintro ⟨hcol, hrange⟩
    exact ⟨_, mem_interval.mpr hrange, columnChars_indexOfChars hcol⟩

theorem pairwise_between (h : IsColumn first) (last : List Char) :
    (between first last).Pairwise fun a b => indexOfChars a < indexOfChars b := by
  refine pairwise_map.mpr ((pairwise_interval _ _).imp_of_mem fun {i j} hi hj hlt => ?_)
  rw [(indexOfChars_between h hi).2, (indexOfChars_between h hj).2]
  exact hlt

theorem columnRange_eq (h : IsColumn first) (h' : IsColumn last) :
    columnRange (String.ofList first) (String.ofList last) =
      .ok ((between first last).map String.ofList) := by
  rw [columnRange, h.columnIndex_eq, h'.columnIndex_eq, between, map_map]
  refine Outcome.mapM_eq_ok.mpr (forall₂_map_right_iff.mpr (forall₂_same.mpr fun i hi => ?_))
  have hpos := h.index_pos
  exact columnName_of_pos (hpos.trans_le (mem_interval.mp hi).1)

end SheetMill.Sheet
