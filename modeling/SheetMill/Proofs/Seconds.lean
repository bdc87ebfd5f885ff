import SheetMill.Calendar
import SheetMill.Proofs.Precision
import SheetMill.Value.Order

/-!
# Spans of time in seconds

A span of microseconds is measured in floating-point seconds. The measure never reaches a whole
number of seconds too early, unless the number is too large for the microseconds to have a place.
-/

namespace SheetMill

namespace Decimal

variable {c m T : Nat}

theorem roundDiv_near (n d : Nat) : 2 * (roundDiv n d * d) ≤ 2 * n + d := by
  have hparts := Nat.div_add_mod n d
  have hcomm := Nat.mul_comm d (n / d)
  have hnext : (n / d + 1) * d = n / d * d + d := Nat.succ_mul _ _
  unfold roundDiv
  dsimp only
  split_ifs
  · omega
  · omega
  · omega
  · omega

/-- A number with more digits than are kept is rounded by at most half a unit of the last digit that
is. -/
theorem nearest_of_long (hlow : 2 ^ 60 ≤ m) (hhigh : m < 2 ^ 115) :
    ∃ count, 2 ^ 52 ≤ count ∧ count ≤ 2 ^ 53 ∧
      2 * (count * 2 ^ (m.log2 - 52)) ≤ 2 * m + 2 ^ (m.log2 - 52) ∧
      Binary.nearest 11 52 ⟨false, m, -81, false⟩ = (m.log2 + 941) * 2 ^ 52 + count := by
  have hm : m ≠ 0 := by omega
  have hleast : 60 ≤ m.log2 := (Nat.le_log2 hm).mpr hlow
  have hmost : m.log2 < 115 := (Nat.log2_lt hm).mpr hhigh
  obtain ⟨count, hdig, hdig', hcnt, hnear⟩ := nearest_normal hm (e := -81) (by omega) false false
  rw [Nat.sub_eq_zero_of_le (by omega : 52 ≤ m.log2), Nat.pow_zero, Nat.mul_one] at hcnt
  have hfld : ((m.log2 : Int) + -81 + 1022).toNat = m.log2 + 941 := by omega
  refine ⟨count, hdig, hdig', hcnt ▸ roundDiv_near _ _, hnear.trans ?_⟩
  rw [hfld]
  exact Nat.min_eq_left (by omega)

/-- The fields stand for their count of units, also if it has one digit too many. -/
theorem ofFields_count {field count : Nat} (hlow : 2 ^ 52 ≤ count) (hhigh : count ≤ 2 ^ 53)
    (hfld : field < 2000) : ∃ digits e isNarrow, Magnitude.ofFields 11 52 false
      ((field * 2 ^ 52 + count) / 2 ^ 52) ((field * 2 ^ 52 + count) % 2 ^ 52) =
        .finite ⟨false, digits, e, isNarrow⟩ ∧
      (digits = count ∧ e = field - 1074 ∨ 2 * digits = count ∧ e = field - 1073) := by
  unfold Magnitude.ofFields
  simp only [Nat.pow_eq]
  rw [if_neg (by omega), if_neg (by omega)]
  refine ⟨_, _, _, rfl, ?_⟩
  omega

theorem compareInt_eq_lt {k : Nat} {isNarrow : Bool} (h : m < c * 2 ^ k) :
    Binary.compareInt ⟨false, m, -k, isNarrow⟩ c = .lt := by
  have hcast : (m : Int) * (2 ^ (-(k : Int)).toNat : Nat) < c * (2 ^ (-(-k : Int)).toNat : Nat) := by
    rw [Int.toNat_neg_natCast, neg_neg, Int.toNat_natCast]
    exact_mod_cast (Nat.mul_one m).symm ▸ h
  exact compare_lt_iff_lt.mpr hcast

theorem compareInt_zero {k : Nat} {isNarrow : Bool} (hc : 0 < c) :
    Binary.compareInt ⟨false, 0, -k, isNarrow⟩ c = .lt :=
  compareInt_eq_lt (Nat.mul_pos hc (Nat.two_pow_pos k))

/-- What the digits of a span are, with the rest, where it is shorter than some whole seconds. The
power of two is a variable, so that it is not computed. -/
theorem mantissa_bounds {n : Nat} (hT : T = 1208925819614629174706176) (hc : c ≤ 2 ^ 34)
    (hpos : 0 < n) (hlt : n < c * 1000000)
    (hm : 2 * (n * T / 1000000) + min 1 (n * T % 1000000) = m) :
    2 ^ 60 ≤ m ∧ m < 2 ^ 115 ∧ 1000000 * m + 2 * T ≤ 2 * (c * T * 1000000) + 1000000 := by
  have hleast : T ≤ n * T := Nat.le_mul_of_pos_left _ hpos
  have hnext : (n + 1) * T ≤ c * 1000000 * T := Nat.mul_le_mul_right _ hlt
  have hmost : c * T ≤ 2 ^ 34 * T := Nat.mul_le_mul_right _ hc
  rw [Nat.succ_mul, Nat.mul_right_comm] at hnext
  exact ⟨by omega, by omega, by omega⟩

theorem count_lt {count L : Nat} (hT : T = 1208925819614629174706176) (hL : 60 ≤ L) (hL' : L < 115)
    (hgap : 1000000 * m + 2 * T ≤ 2 * (c * T * 1000000) + 1000000)
    (hnear : 2 * (count * 2 ^ (L - 52)) ≤ 2 * m + 2 ^ (L - 52)) : count < c * 2 ^ (133 - L) := by
  have hunit : 2 ^ (L - 52) ≤ 4611686018427387904 :=
    (Nat.pow_le_pow_right two_pos (by omega : L - 52 ≤ 62)).trans_eq (by norm_num)
  have hscale : c * 2 ^ (133 - L) * 2 ^ (L - 52) = 2 * (c * T) := by
    rw [Nat.mul_assoc, ← Nat.pow_add, show 133 - L + (L - 52) = 81 by omega, hT]
    ring
  refine Nat.lt_of_mul_lt_mul_right (a := 2 ^ (L - 52)) ?_
  omega

theorem compareFloatInt_long (hT : T = 1208925819614629174706176) (hlong : 2 ^ 60 ≤ m)
    (hshort : m < 2 ^ 115) (hgap : 1000000 * m + 2 * T ≤ 2 * (c * T * 1000000) + 1000000) :
    compareFloatInt? (Float.ofBits (UInt64.ofNat (signed 63 false
      (Binary.nearest 11 52 ⟨false, m, -81, false⟩)))) c = some .lt := by
  obtain ⟨count, hlow, hhigh, hnear, hflds⟩ := nearest_of_long hlong hshort
  have hlog : m.log2 < 115 := (Nat.log2_lt (by omega)).mpr hshort
  have hlog' : 60 ≤ m.log2 := (Nat.le_log2 (by omega)).mpr hlong
  have hsmall := count_lt hT hlog' hlog hgap hnear
  obtain ⟨digits, e, isNarrow, hdig, hcases⟩ :=
    ofFields_count hlow hhigh (show m.log2 + 941 < 2000 by omega)
  unfold compareFloatInt?
  rw [(ofFloat_signed (by rw [hflds]; omega) false).2, hflds, hdig]
  refine congrArg some ?_
  rcases hcases with ⟨rfl, he⟩ | ⟨rfl, he⟩
  · rw [show e = -(133 - m.log2 : Nat) by omega]
    exact compareInt_eq_lt hsmall
  · rw [show e = -(132 - m.log2 : Nat) by omega]
    refine compareInt_eq_lt ?_
    rw [show 133 - m.log2 = 132 - m.log2 + 1 by omega, Nat.pow_succ, ← Nat.mul_assoc] at hsmall
    omega

/-- As long as the whole seconds are few enough for their microseconds to have a place in the digits,
they are not reached too early. -/
theorem compareFloatInt_secondsOf {n : Nat} (hc : c ≤ 2 ^ 34) (hlt : n < c * 1000000) :
    compareFloatInt? (Moment.secondsOf n) c = some .lt := by
  have hsign : decide ((n : Int) < 0) = false := decide_eq_false (by omega)
  have hcpos : 0 < c := Nat.pos_of_mul_pos_right (Nat.zero_lt_of_lt hlt)
  obtain ⟨T, hT⟩ : ∃ T, Nat.pow 2 80 = T := ⟨_, rfl⟩
  obtain ⟨m, hm⟩ : ∃ m, 2 * (n * T / 1000000) + min 1 (n * T % 1000000) = m := ⟨_, rfl⟩
  unfold Moment.secondsOf Magnitude.pattern
  dsimp only
  rw [hsign, Int.natAbs_natCast, hT, hm]
  rcases Nat.eq_zero_or_pos n with rfl | hpos
  · obtain rfl : m = 0 := by simpa using hm.symm
    unfold compareFloatInt?
    exact congrArg some (compareInt_zero (k := 1074) hcpos)
  · obtain ⟨hlong, hshort, hgap⟩ := mantissa_bounds hT.symm hc hpos hlt hm
    exact compareFloatInt_long hT.symm hlong hshort hgap

end Decimal

namespace Moment

/-- Where a span is found to have lasted some whole seconds, it has. -/
theorem le_of_atLeast_secondsOf {d c : Int} (hd : 0 ≤ d) (hc : c ≤ 2 ^ 34)
    (h : (Value.float (secondsOf d)).atLeast (.int c) = .ok true) : c * 1000000 ≤ d := by
  by_contra hlt
  obtain ⟨n, rfl⟩ := Int.eq_ofNat_of_zero_le hd
  obtain ⟨k, rfl⟩ := Int.eq_ofNat_of_zero_le (show 0 ≤ c by omega)
  have hless : Decimal.compareFloatInt? (secondsOf n) k = some .lt :=
    Decimal.compareFloatInt_secondsOf (by omega) (by omega)
  have horder : (Value.float (secondsOf n)).order ">=" (.int k) =
      .ok (Decimal.compareFloatInt? (secondsOf n) k) := by
    simp only [Value.order, Amount.ofValue?, Amount.compare?]
  unfold Value.atLeast at h
  rw [horder, hless] at h
  cases h

end Moment

end SheetMill
