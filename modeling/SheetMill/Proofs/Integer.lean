import Mathlib
import SheetMill.Value.Access

/-!
# Integers as text

An integer that is written down in decimal digits is read back, unless it has more digits than are
read.
-/

namespace SheetMill.Text.Spans

variable {c : Char}

theorem covers_eq_true_iff {spans : Spans} :
    spans.covers c = true ↔ ∃ span ∈ spans, span.1 ≤ c.toNat ∧ c.toNat ≤ span.2 := by
  simp [Spans.covers]

theorem covers_eq_false {spans others : Spans}
    (h : ∀ a ∈ spans, ∀ b ∈ others, a.2 < b.1 ∨ b.2 < a.1) (hc : spans.covers c = true) :
    others.covers c = false := by
  refine Bool.eq_false_iff.mpr fun hother => ?_
  obtain ⟨a, ha, hlow, hhigh⟩ := covers_eq_true_iff.mp hc
  obtain ⟨b, hb, hlow', hhigh'⟩ := covers_eq_true_iff.mp hother
  rcases h a ha b hb with h | h <;> omega

end SheetMill.Text.Spans

namespace SheetMill.Decimal

open Text List

variable {c : Char} {cs : List Char} {n : Nat}

theorem exists_digit (h : c.isDigit = true) : ∃ d < 10, c = Char.ofNat (48 + d) := by
  simp only [Char.isDigit, Bool.and_eq_true, decide_eq_true_eq] at h
  have hlow : 48 ≤ c.toNat := h.1
  have hhigh : c.toNat ≤ 57 := h.2
  refine ⟨c.toNat - 48, by omega, ?_⟩
  rw [Nat.add_sub_cancel' hlow, Char.ofNat_toNat]

theorem isDigit_eq_false_of_opensName (h : opensName c = true) : c.isDigit = false := by
  refine Bool.eq_false_iff.mpr fun hc => ?_
  obtain ⟨d, hd, rfl⟩ := exists_digit hc
  have hall : ∀ d < 10, opensName (Char.ofNat (48 + d)) = false := by decide +kernel
  simp [hall d hd] at h

theorem decimalValue?_digit (h : c.isDigit = true) : decimalValue? c = some (c.toNat - 48) := by
  obtain ⟨d, hd, rfl⟩ := exists_digit h
  have hall : ∀ d < 10,
      decimalValue? (Char.ofNat (48 + d)) = some ((Char.ofNat (48 + d)).toNat - 48) := by
    decide
  exact hall d hd

theorem isNumberMargin_digit (h : c.isDigit = true) : isNumberMargin c = false := by
  obtain ⟨d, hd, rfl⟩ := exists_digit h
  have hall : ∀ d < 10, isNumberMargin (Char.ofNat (48 + d)) = false := by decide
  exact hall d hd

theorem takeDigitsFrom_digits (h : ∀ c ∈ cs, c.isDigit = true) (flag : Bool) :
    takeDigitsFrom flag cs = (cs.map fun c => c.toNat - 48, []) := by
  induction cs generalizing flag with
  | nil => rfl
  | cons c cs ih =>
    rw [takeDigitsFrom, decimalValue?_digit (h c mem_cons_self)]
    simp only [ih (fun d hd => h d (mem_cons_of_mem _ hd)), map_cons]

theorem stripChars_of_all {margin : Char → Bool} (h : ∀ c ∈ cs, margin c = false) :
    stripChars margin cs = cs := by
  have hkeep : ∀ ds : List Char, (∀ d ∈ ds, margin d = false) → ds.dropWhile margin = ds := by
    intro ds hds
    cases ds with
    | nil => rfl
    | cons d ds => simp [hds d mem_cons_self]
  unfold stripChars
  rw [hkeep cs h, hkeep cs.reverse (fun c hc => h c (mem_reverse.mp hc)), reverse_reverse]

theorem ofDigits_toDigits (n : Nat) :
    ofDigits ((Nat.toDigits 10 n).map fun c => c.toNat - 48) = n := by
  have h := Nat.ofDigitChars_toDigits (b := 10) (n := n) (by decide) (by decide)
  unfold ofDigits
  rw [foldl_map]
  exact h

theorem isDigit_toDigits (h : c ∈ Nat.toDigits 10 n) : c.isDigit = true :=
  Nat.isDigit_of_mem_toDigits (by decide) (by decide) h

theorem readInt_of_takeDigits {s : String} {negative : Bool} {rest : List Char} {ds : List Nat}
    (hchars : ∀ c ∈ s.toList, isNumberMargin c = false) (hsign : takeSign s.toList = (negative, cs))
    (htake : takeDigits cs = (ds, rest)) (hrest : rest.head? ≠ some '_') :
    readInt s =
      if ds = [] then .malformed
      else if maxIntegerDigits < ds.length then .tooLong ds.length
      else if rest = [] then .number (if negative then -(ofDigits ds : Int) else ofDigits ds)
      else .malformed := by
  unfold readInt
  rw [stripChars_of_all hchars, hsign]
  simp only [htake]
  cases ds with
  | nil => rfl
  | cons d ds => simp [hrest]

theorem takeDigits_toDigits (n : Nat) :
    takeDigits (Nat.toDigits 10 n) = ((Nat.toDigits 10 n).map fun c => c.toNat - 48, []) :=
  takeDigitsFrom_digits (fun _ hc => isDigit_toDigits hc) false

theorem readInt_of_digits {s : String} {negative : Bool}
    (hchars : ∀ c ∈ s.toList, isNumberMargin c = false)
    (hsign : takeSign s.toList = (negative, Nat.toDigits 10 n)) :
    readInt s = if n < 10 ^ maxIntegerDigits then .number (if negative then -(n : Int) else n)
      else .tooLong (Nat.toDigits 10 n).length := by
  have hlen : (Nat.toDigits 10 n).length ≤ maxIntegerDigits ↔ n < 10 ^ maxIntegerDigits :=
    Nat.length_toDigits_le_iff (by decide) (by decide)
  rw [readInt_of_takeDigits hchars hsign (takeDigits_toDigits n) (by simp), ofDigits_toDigits,
    length_map, if_neg (by simp [Nat.toDigits_ne_nil])]
  by_cases h : n < 10 ^ maxIntegerDigits
  · rw [if_neg (Nat.not_lt.mpr (hlen.mpr h)), if_pos rfl, if_pos h]
  · rw [if_pos (Nat.not_le.mp (mt hlen.mp h)), if_neg h]

theorem takeSign_digits (n : Nat) :
    takeSign (Nat.toDigits 10 n) = (false, Nat.toDigits 10 n) := by
  cases hdig : Nat.toDigits 10 n with
  | nil => rfl
  | cons c cs =>
    have hc : c.isDigit = true := isDigit_toDigits (n := n) (by simp [hdig])
    have hminus : c ≠ '-' := by rintro rfl; exact absurd hc (by decide)
    have hplus : c ≠ '+' := by rintro rfl; exact absurd hc (by decide)
    simp [takeSign, hminus, hplus]

theorem toList_toString_ofNat (n : Nat) : (toString (Int.ofNat n)).toList = Nat.toDigits 10 n :=
  String.toList_ofList

theorem toList_toString_negSucc (n : Nat) :
    (toString (Int.negSucc n)).toList = '-' :: Nat.toDigits 10 (n + 1) := by
  have hrepr : toString (Int.negSucc n) = "-" ++ String.ofList (Nat.toDigits 10 (n + 1)) := rfl
  simp [hrepr]

theorem isNumberMargin_toString (i : Int) :
    ∀ c ∈ (toString i).toList, isNumberMargin c = false := by
  intro c hc
  cases i with
  | ofNat n =>
    rw [toList_toString_ofNat] at hc
    exact isNumberMargin_digit (isDigit_toDigits hc)
  | negSucc n =>
    rw [toList_toString_negSucc] at hc
    rcases mem_cons.mp hc with rfl | hc
    · decide
    · exact isNumberMargin_digit (isDigit_toDigits hc)

theorem takeSign_toString (i : Int) :
    takeSign (toString i).toList = (decide (i < 0), Nat.toDigits 10 i.natAbs) := by
  cases i with
  | ofNat n =>
    rw [toList_toString_ofNat, takeSign_digits]
    rfl
  | negSucc n =>
    rw [toList_toString_negSucc, decide_eq_true (Int.negSucc_lt_zero n)]
    rfl

theorem lt_longest (h : n < 10 ^ 16) : n < 10 ^ maxIntegerDigits :=
  Nat.lt_of_lt_of_le h (Nat.pow_le_pow_right (by decide) (by decide))

/-- An integer that is not too long is read back from its text. -/
theorem readInt_toString {i : Int} (h : i.natAbs < 10 ^ maxIntegerDigits) :
    readInt (toString i) = .number i := by
  rw [readInt_of_digits (isNumberMargin_toString i) (takeSign_toString i), if_pos h]
  congr 1
  split_ifs with hsign
  · have hneg := of_decide_eq_true hsign
    omega
  · have hpos := of_decide_eq_false (Bool.eq_false_iff.mpr hsign)
    omega

end SheetMill.Decimal

def SheetMill.IsInt32 (i : Int) : Prop := -2 ^ 31 ≤ i ∧ i < 2 ^ 31

namespace SheetMill.Value

theorem toInt_text {i : Int} (h : IsInt32 i) : (Value.text (toString i)).toInt = .ok i := by
  obtain ⟨hlow, hhigh⟩ := h
  have hbound : i.natAbs < 10 ^ Decimal.maxIntegerDigits := Decimal.lt_longest (by omega)
  simp only [toInt, readAsInt, Decimal.readInt_toString hbound]

end SheetMill.Value
