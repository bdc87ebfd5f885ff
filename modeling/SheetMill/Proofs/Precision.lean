import Mathlib
import SheetMill.Value.Access

/-!
# Single precision within double precision

A number of single precision, taken as one of double precision, keeps all its digits, so that the
nearest number of single precision is the number itself.
-/

namespace SheetMill.Decimal

open Float.Model Float.Model.UnpackedFloat

variable {format : Format}

/-! ## Bits and fields -/

theorem toNat_unpackMantissa (v : BitVec format.numBits) :
    (unpackMantissa v).toNat = v.toNat % 2 ^ format.mantissaBitsWithoutImplicit := by
  rw [unpackMantissa_def, BitVec.extractLsb'_toNat, Nat.shiftRight_zero]

theorem toNat_unpackExponent (v : BitVec format.numBits) :
    (unpackExponent v).toNat =
      v.toNat / 2 ^ format.mantissaBitsWithoutImplicit % 2 ^ format.exponentBits := by
  rw [unpackExponent_def, BitVec.extractLsb'_toNat, Nat.shiftRight_eq_div_pow]

theorem float_toBits_ofBits {bits : UInt64} (hvalid : Format.binary64.Valid bits.toBitVec) :
    (Float.ofBits bits).toBits = bits := by
  have hpack := pack_unpack_of_valid hvalid
  simp only [Float.ofBits, Float.toBits, Float.Model.ofBits, Float.Model.pack, hpack,
    UInt64.ofBitVec_toBitVec]

/-! ## Rounding -/

theorem roundDiv_bounds (n d : Nat) :
    n / d ≤ roundDiv n d ∧ roundDiv n d ≤ n / d + 1 := by
  unfold roundDiv
  dsimp only
  split_ifs <;> omega

theorem roundDiv_mul (n : Nat) {d : Nat} (hd : 0 < d) : roundDiv (n * d) d = n := by
  simp [roundDiv, Nat.mul_div_cancel n hd, hd]

/-- The digits of a number that is large enough are as many units as can be written with 53 digits,
or one more. -/
theorem nearest_normal {n : Nat} {e : Int} (hn : n ≠ 0) (he : -1022 ≤ n.log2 + e)
    (negative isNarrow : Bool) : ∃ count, 2 ^ 52 ≤ count ∧ count ≤ 2 ^ 53 ∧
      count = roundDiv (n * 2 ^ (52 - n.log2)) (2 ^ (n.log2 - 52)) ∧
      Binary.nearest 11 52 ⟨negative, n, e, isNarrow⟩ =
        min ((n.log2 + e + 1022).toNat * 2 ^ 52 + count) (2047 * 2 ^ 52) := by
  obtain ⟨hfst, hnext⟩ := (Nat.log2_eq_iff hn).mp rfl
  have hpower : ∀ k, 2 ^ (52 + k) * 2 ^ (n.log2 - 52) = 2 ^ (n.log2 + k) * 2 ^ (52 - n.log2) := by
    intro k
    rw [← Nat.pow_add, ← Nat.pow_add]
    congr 1
    omega
  have hlow : 2 ^ 52 ≤ n * 2 ^ (52 - n.log2) / 2 ^ (n.log2 - 52) :=
    (Nat.le_div_iff_mul_le (Nat.two_pow_pos _)).mpr
      ((hpower 0).trans_le (Nat.mul_le_mul_right _ hfst))
  have hhigh : n * 2 ^ (52 - n.log2) / 2 ^ (n.log2 - 52) < 2 ^ 53 :=
    (Nat.div_lt_iff_lt_mul (Nat.two_pow_pos _)).mpr
      ((Nat.mul_lt_mul_of_pos_right hnext (Nat.two_pow_pos _)).trans_eq (hpower 1).symm)
  have hround := roundDiv_bounds (n * 2 ^ (52 - n.log2)) (2 ^ (n.log2 - 52))
  have hunit : max ((n.log2 : Int) + e - (52 : Nat)) (3 - (2 ^ 10 : Nat) - (52 : Nat) - 1) =
      n.log2 + e - 52 := by omega
  have hwhole : (e - ((n.log2 : Int) + e - 52)).toNat = 52 - n.log2 := by omega
  have hshift : (-(e - ((n.log2 : Int) + e - 52))).toNat = n.log2 - 52 := by omega
  have hfld : ((n.log2 : Int) + e - 52 - (3 - (2 ^ 10 : Nat) - (52 : Nat) - 1)).toNat =
      (n.log2 + e + 1022).toNat := by omega
  refine ⟨_, hlow.trans hround.1, hround.2.trans hhigh, rfl, ?_⟩
  unfold Binary.nearest twoPowNum twoPowDen
  simp only [Nat.pow_eq, Nat.reduceSub]
  rw [if_neg hn, hunit, hwhole, hshift, hfld]

/-- A number that is a whole count of the unit of a format is not rounded. -/
theorem Binary.nearest_eq (b : Binary) (exponentBits fractionBits : Nat) {count : Nat}
    {least unit : Int}
    (hpos : b.mantissa ≠ 0)
    (hleast : 3 - ((2 ^ (exponentBits - 1) : Nat) : Int) - fractionBits - 1 = least)
    (hunit : max (b.mantissa.log2 + b.exponent - fractionBits) least = unit)
    (hcnt : b.mantissa * 2 ^ (b.exponent - unit).toNat =
      count * 2 ^ (-(b.exponent - unit)).toNat)
    (hfits : (unit - least).toNat * 2 ^ fractionBits + count ≤
      (2 ^ exponentBits - 1) * 2 ^ fractionBits) :
    b.nearest exponentBits fractionBits = (unit - least).toNat * 2 ^ fractionBits + count := by
  have hround : roundDiv (b.mantissa * twoPowNum (b.exponent - unit))
      (twoPowDen (b.exponent - unit)) = count := by
    simp only [twoPowNum, twoPowDen, Nat.pow_eq]
    rw [hcnt]
    exact roundDiv_mul count (Nat.two_pow_pos _)
  unfold Binary.nearest
  simp only [Nat.pow_eq]
  rw [if_neg hpos, hleast, hunit, hround, Nat.min_eq_left hfits]

/-- A finite number of single precision other than zero. -/
structure Binary.IsSingle (b : Binary) : Prop where
  pos : 0 < b.mantissa
  lt : b.mantissa < 2 ^ 24
  least : -149 ≤ b.exponent
  greatest : b.exponent ≤ 104
  normal : b.mantissa < 2 ^ 23 → b.exponent = -149

section Single

variable {b : Binary} (h : b.IsSingle)

include h

theorem Binary.IsSingle.log2_bounds :
    b.mantissa.log2 ≤ 23 ∧ (b.mantissa.log2 < 23 → b.exponent = -149) := by
  have hpos := h.pos.ne'
  have hlt := (Nat.log2_lt hpos).mpr h.lt
  exact ⟨by omega, fun hlog => h.normal ((Nat.log2_lt hpos).mp hlog)⟩

/-- The digits of the number with its leading digit in the place of that of double precision. -/
theorem Binary.IsSingle.aligned :
    2 ^ 52 ≤ b.mantissa * 2 ^ (52 - b.mantissa.log2) ∧
      b.mantissa * 2 ^ (52 - b.mantissa.log2) ≤ 2 ^ 53 - 2 ^ 29 := by
  obtain ⟨hlog, -⟩ := h.log2_bounds
  obtain ⟨hlow, hhigh⟩ := (Nat.log2_eq_iff h.pos.ne').mp rfl
  generalize b.mantissa.log2 = k at *
  have hsplit : 2 ^ k * 2 ^ (52 - k) = 2 ^ 52 := by
    rw [← Nat.pow_add]
    congr 1
    omega
  constructor
  · rw [← hsplit]
    exact Nat.mul_le_mul_right _ hlow
  · have hnext : (b.mantissa + 1) * 2 ^ (52 - k) ≤ 2 ^ (k + 1) * 2 ^ (52 - k) :=
      Nat.mul_le_mul_right _ hhigh
    have hgap : 2 ^ 29 ≤ 2 ^ (52 - k) := Nat.pow_le_pow_right (by omega) (by omega)
    rw [Nat.pow_succ, Nat.mul_right_comm, hsplit, Nat.succ_mul] at hnext
    omega

/-- As a number of double precision it is normal and keeps all its digits. -/
theorem Binary.IsSingle.nearest_double :
    b.nearest 11 52 = (b.mantissa.log2 + b.exponent + 1022).toNat * 2 ^ 52 +
      b.mantissa * 2 ^ (52 - b.mantissa.log2) := by
  obtain ⟨hlog, -⟩ := h.log2_bounds
  have hleast := h.least
  have hgreatest := h.greatest
  obtain ⟨count, -, hhigh, hcnt, hnear⟩ :=
    nearest_normal h.pos.ne' (e := b.exponent) (by omega) b.negative b.narrowBelow
  have hexact : count = b.mantissa * 2 ^ (52 - b.mantissa.log2) := by
    rw [hcnt, Nat.sub_eq_zero_of_le (by omega : b.mantissa.log2 ≤ 52), Nat.pow_zero]
    simpa using roundDiv_mul (b.mantissa * 2 ^ (52 - b.mantissa.log2)) one_pos
  rw [hexact] at hhigh hnear
  exact hnear.trans (Nat.min_eq_left (by omega))

theorem Binary.IsSingle.nearest_double_le : b.nearest 11 52 ≤ singleMax := by
  obtain ⟨hlog, hnormal⟩ := h.log2_bounds
  obtain ⟨hlow, hhigh⟩ := h.aligned
  have hgreatest := h.greatest
  rw [h.nearest_double]
  unfold singleMax
  omega

theorem Binary.IsSingle.ofFields_double (negative : Bool) :
    ∃ wide, Magnitude.ofFields 11 52 negative (b.nearest 11 52 / 2 ^ 52)
        (b.nearest 11 52 % 2 ^ 52) = .finite wide ∧ wide.negative = negative ∧
      wide.mantissa = b.mantissa * 2 ^ (52 - b.mantissa.log2) ∧
      wide.exponent = b.mantissa.log2 + b.exponent - 52 := by
  obtain ⟨hlog, hnormal⟩ := h.log2_bounds
  obtain ⟨hlow, hhigh⟩ := h.aligned
  have hleast := h.least
  have hgreatest := h.greatest
  rw [h.nearest_double]
  generalize b.mantissa * 2 ^ (52 - b.mantissa.log2) = digits at *
  generalize hfld : (b.mantissa.log2 + b.exponent + 1022).toNat = field
  have hdiv : (field * 2 ^ 52 + digits) / 2 ^ 52 = field + 1 := by omega
  have hmod : (field * 2 ^ 52 + digits) % 2 ^ 52 = digits - 2 ^ 52 := by omega
  unfold Magnitude.ofFields
  simp only [Nat.pow_eq]
  rw [if_neg (by omega), if_neg (by omega)]
  refine ⟨_, rfl, rfl, ?_, ?_⟩ <;> dsimp only <;> omega

/-- The nearest number of single precision is the number itself. -/
theorem Binary.IsSingle.nearest_single {wide : Binary}
    (hmantissa : wide.mantissa = b.mantissa * 2 ^ (52 - b.mantissa.log2))
    (hexp : wide.exponent = b.mantissa.log2 + b.exponent - 52) :
    wide.nearest 8 23 = (b.exponent + 149).toNat * 2 ^ 23 + b.mantissa := by
  obtain ⟨hlog, hnormal⟩ := h.log2_bounds
  obtain ⟨hlow, hhigh⟩ := h.aligned
  have hlt := h.lt
  have hleast := h.least
  have hgreatest := h.greatest
  rw [← hmantissa] at hlow hhigh
  have hpos : wide.mantissa ≠ 0 := by omega
  have hdig : wide.mantissa.log2 = 52 := (Nat.log2_eq_iff hpos).mpr ⟨hlow, by omega⟩
  have hunit : max ((wide.mantissa.log2 : Int) + wide.exponent - (23 : Nat)) (-149) =
      b.exponent := by
    omega
  have hcnt : wide.mantissa * 2 ^ (wide.exponent - b.exponent).toNat =
      b.mantissa * 2 ^ (-(wide.exponent - b.exponent)).toNat := by
    have hleft : (wide.exponent - b.exponent).toNat = 0 := by omega
    have hright : (-(wide.exponent - b.exponent)).toNat = 52 - b.mantissa.log2 := by omega
    rw [hleft, hright, hmantissa, Nat.pow_zero, Nat.mul_one]
  have hunits : (b.exponent - -149).toNat = (b.exponent + 149).toNat := by omega
  rw [wide.nearest_eq 8 23 hpos (by rfl) hunit hcnt (by omega), hunits]

end Single

/-! ## Numbers of both precisions -/

/-- Only what is no number can be written in more than one way. -/
theorem valid_of_number {v : BitVec format.numBits}
    (h : v.toNat / 2 ^ format.mantissaBitsWithoutImplicit % 2 ^ format.exponentBits ≠
      2 ^ format.exponentBits - 1 ∨ v.toNat % 2 ^ format.mantissaBitsWithoutImplicit = 0) :
    format.Valid v := by
  refine ⟨fun htop hzero => ?_⟩
  exfalso
  rcases h with h | h
  · refine h ?_
    rw [← toNat_unpackExponent, htop, BitVec.neg_one_eq_allOnes, BitVec.toNat_allOnes]
  · refine hzero (BitVec.eq_of_toNat_eq ?_)
    rw [toNat_unpackMantissa, h, BitVec.toNat_zero]

theorem toBits_ofBits_toNat {n : Nat} (hn : n < 2 ^ 64)
    (h : n / 2 ^ 52 % 2 ^ 11 ≠ 2047 ∨ n % 2 ^ 52 = 0) :
    (Float.ofBits (UInt64.ofNat n)).toBits.toNat = n := by
  have htoNat : (UInt64.ofNat n).toNat = n := UInt64.toNat_ofNat_of_lt hn
  have hvalid : Format.binary64.Valid (UInt64.ofNat n).toBitVec := by
    apply valid_of_number
    rw [UInt64.toNat_toBitVec, htoNat]
    exact h
  rw [float_toBits_ofBits hvalid, htoNat]

theorem narrowed_eq {m : Magnitude} {x : Float32} (h : m.pattern 8 23 = x.toBits.toNat) :
    narrowed m = x := by
  rw [narrowed, h, UInt32.ofNat_toNat, Float32.ofBits_toBits]

theorem toNat_of_undefined {x : Float32} (htop : x.toBits.toNat / 2 ^ 23 % 2 ^ 8 = 2 ^ 8 - 1)
    (hfrac : x.toBits.toNat % 2 ^ 23 ≠ 0) : x.toBits.toNat = 255 * 2 ^ 23 + 2 ^ 22 := by
  have hvalid : Format.binary32.Valid x.toBits.toBitVec := x.toModel.valid
  have hpacked : x.toBits.toBitVec = packedNaN .binary32 := by
    refine hvalid.eq_packedNaN (BitVec.eq_of_toNat_eq ?_) fun hzero => hfrac ?_
    · rw [toNat_unpackExponent, BitVec.neg_one_eq_allOnes, BitVec.toNat_allOnes]
      exact htop
    · have hnone := congrArg BitVec.toNat hzero
      exact hnone
  rw [← UInt32.toNat_toBitVec, hpacked]
  rfl

/-- What a number of single precision is, and its bits. -/
theorem ofFloat32_cases (x : Float32) :
    (Magnitude.ofFloat32 x = .undefined ∧ x.toBits.toNat = 255 * 2 ^ 23 + 2 ^ 22) ∨
    (∃ negative, Magnitude.ofFloat32 x = .infinite negative ∧
      x.toBits.toNat = signed 31 negative (255 * 2 ^ 23)) ∨
    ∃ b, Magnitude.ofFloat32 x = .finite b ∧
      (b.mantissa = 0 ∧ x.toBits.toNat = signed 31 b.negative 0 ∨
        b.IsSingle ∧ x.toBits.toNat =
          signed 31 b.negative ((b.exponent + 149).toNat * 2 ^ 23 + b.mantissa)) := by
  have hundefined := @toNat_of_undefined x
  have hbits := x.toBits.toNat_lt
  unfold Magnitude.ofFloat32 Magnitude.ofFields
  simp only [Nat.pow_eq]
  generalize x.toBits.toNat = n at *
  have hsigned : n = signed 31 (decide (n / 2 ^ 31 = 1))
      (n / 2 ^ 23 % 2 ^ 8 * 2 ^ 23 + n % 2 ^ 23) := by
    unfold signed
    simp only [Nat.pow_eq, decide_eq_true_eq]
    split <;> omega
  by_cases htop : n / 2 ^ 23 % 2 ^ 8 = 2 ^ 8 - 1
  · rw [if_pos htop]
    by_cases hfrac : n % 2 ^ 23 = 0
    · refine .inr (.inl ⟨_, if_pos hfrac, ?_⟩)
      rwa [htop, hfrac] at hsigned
    · exact .inl ⟨if_neg hfrac, hundefined htop hfrac⟩
  · rw [if_neg htop]
    refine .inr (.inr ?_)
    by_cases hleast : n / 2 ^ 23 % 2 ^ 8 = 0
    · refine ⟨_, if_pos hleast, ?_⟩
      by_cases hfrac : n % 2 ^ 23 = 0
      · refine .inl ⟨hfrac, ?_⟩
        rwa [hleast, hfrac] at hsigned
      · refine .inr ⟨⟨?_, ?_, ?_, ?_, fun _ => rfl⟩, ?_⟩ <;> dsimp only
        · omega
        · omega
        · omega
        · omega
        · rwa [hleast] at hsigned
    · refine ⟨_, if_neg hleast, .inr ⟨⟨?_, ?_, ?_, ?_, ?_⟩, ?_⟩⟩ <;> dsimp only
      · omega
      · omega
      · omega
      · omega
      · omega
      · have hflds : n / 2 ^ 23 % 2 ^ 8 * 2 ^ 23 + n % 2 ^ 23 =
            (3 - ((2 ^ (8 - 1) : Nat) : Int) - (23 : Nat) - 1 + (n / 2 ^ 23 % 2 ^ 8 : Nat) - 1 +
              149).toNat * 2 ^ 23 + (2 ^ 23 + n % 2 ^ 23) := by omega
        rwa [hflds] at hsigned

theorem ofFloat_signed {fields : Nat} (hflds : fields ≤ 2047 * 2 ^ 52) (negative : Bool) :
    (Float.ofBits (UInt64.ofNat (signed 63 negative fields))).toBits.toNat % 2 ^ 63 = fields ∧
      Magnitude.ofFloat (Float.ofBits (UInt64.ofNat (signed 63 negative fields))) =
        .ofFields 11 52 negative (fields / 2 ^ 52) (fields % 2 ^ 52) := by
  have hsigned : signed 63 negative fields = (if negative then 2 ^ 63 else 0) + fields := by
    cases negative <;> simp [signed]
  have hbits : (Float.ofBits (UInt64.ofNat (signed 63 negative fields))).toBits.toNat =
      signed 63 negative fields := by
    rw [hsigned]
    apply toBits_ofBits_toNat
    · split <;> omega
    · split <;> omega
  have hmod : signed 63 negative fields % 2 ^ 63 = fields := by
    rw [hsigned]
    split <;> omega
  have hsign : decide (signed 63 negative fields / 2 ^ 63 = 1) = negative := by
    rw [hsigned]
    cases negative with
    | false => exact decide_eq_false (by rw [if_neg (by decide)]; omega)
    | true => exact decide_eq_true (by rw [if_pos rfl]; omega)
  have hexp : signed 63 negative fields / 2 ^ 52 % 2 ^ 11 = fields / 2 ^ 52 := by
    rw [hsigned]
    split <;> omega
  have hfrac : signed 63 negative fields % 2 ^ 52 = fields % 2 ^ 52 := by
    rw [hsigned]
    split <;> omega
  unfold Magnitude.ofFloat
  simp only [hbits, Nat.pow_eq, hmod, hsign, hexp, hfrac]
  exact ⟨trivial, trivial⟩

theorem toSingle_of_finite {y : Float} {b : Binary} (hval : Magnitude.ofFloat y = .finite b)
    (hmax : y.toBits.toNat % 2 ^ 63 ≤ singleMax) : toSingle y = narrowed (.finite b) := by
  unfold toSingle
  simp only [hval, Nat.pow_eq]
  exact if_neg (by omega)

theorem toSingle_widened (x : Float32) : toSingle (widened x) = x := by
  unfold widened
  rcases ofFloat32_cases x with ⟨hval, hbits⟩ | ⟨negative, hval, hbits⟩ |
    ⟨b, hval, ⟨hzero, hbits⟩ | ⟨hsingle, hbits⟩⟩ <;> rw [hval]
  · have hwide : Magnitude.ofFloat (Float.ofBits (UInt64.ofNat (Magnitude.undefined.pattern 11 52))) =
        .undefined := by decide
    unfold toSingle
    exact narrowed_eq hbits.symm
  · have hpat : (Magnitude.infinite negative).pattern 11 52 =
        signed 63 negative (2047 * 2 ^ 52) := rfl
    obtain ⟨-, hwide⟩ := ofFloat_signed (Nat.le_refl (2047 * 2 ^ 52)) negative
    have hinfinite : Magnitude.ofFields 11 52 negative (2047 * 2 ^ 52 / 2 ^ 52)
        (2047 * 2 ^ 52 % 2 ^ 52) = .infinite negative := by
      cases negative <;> decide
    rw [hpat]
    unfold toSingle
    rw [hwide, hinfinite]
    exact narrowed_eq hbits.symm
  · have hpat : (Magnitude.finite b).pattern 11 52 = signed 63 b.negative 0 := by
      simp [Magnitude.pattern, Binary.nearest, hzero]
    obtain ⟨hflds, hwide⟩ := ofFloat_signed (Nat.zero_le (2047 * 2 ^ 52)) b.negative
    rw [hpat, toSingle_of_finite hwide (by rw [hflds]; exact Nat.zero_le _)]
    exact narrowed_eq hbits.symm
  · have hpat : (Magnitude.finite b).pattern 11 52 =
        signed 63 b.negative (b.nearest 11 52) := rfl
    have hmax := hsingle.nearest_double_le
    have hbelow : b.nearest 11 52 ≤ 2047 * 2 ^ 52 := hmax.trans (by decide)
    obtain ⟨hflds, hwide⟩ := ofFloat_signed hbelow b.negative
    obtain ⟨wide, hfinite, hneg, hmantissa, hexp⟩ := hsingle.ofFields_double b.negative
    rw [hpat, toSingle_of_finite (hwide.trans hfinite) (by rw [hflds]; exact hmax)]
    apply narrowed_eq
    rw [Magnitude.pattern, hsingle.nearest_single hmantissa hexp, hneg, hbits]

/-! ## Whole numbers beyond double precision -/

variable {n : Nat}

/-- Of the numbers with `p + 54` digits those that are nearest to `2 ^ (p + 54)` get one digit more
by rounding to 53 digits; the one in the middle is among them. -/
theorem roundDiv_carry {p : Nat} (h : n < 2 ^ (p + 54)) :
    ¬ roundDiv n (2 ^ (p + 1)) < 2 ^ 53 ↔ 2 ^ (p + 54) - 2 ^ p ≤ n := by
  have hpos := Nat.two_pow_pos p
  rw [Nat.pow_add 2 p 54] at h ⊢
  rw [Nat.pow_succ]
  generalize 2 ^ p = half at *
  have hdiv := Nat.div_add_mod n (half * 2)
  have hmod := Nat.mod_lt n (Nat.mul_pos hpos two_pos)
  have hquot : n / (half * 2) < 2 ^ 53 := by
    rw [Nat.div_lt_iff_lt_mul (by omega)]
    omega
  unfold roundDiv
  dsimp only
  generalize n / (half * 2) = q at *
  by_cases hlast : q = 2 ^ 53 - 1
  · rw [hlast] at hdiv
    split_ifs <;> omega
  · have hle : half * 2 * q ≤ half * 2 * (2 ^ 53 - 2) := Nat.mul_le_mul_left _ (by omega)
    split_ifs <;> omega

theorem lt_carry {p : Nat} (h : n < 2 ^ (p + 53)) : n < 2 ^ (p + 54) - 2 ^ p := by
  rw [Nat.pow_add] at h ⊢
  omega

theorem carry_le {p k : Nat} (hk : p + 54 ≤ k) (h : 2 ^ k ≤ n) : 2 ^ (p + 54) - 2 ^ p ≤ n := by
  have hle : 2 ^ (p + 54) ≤ 2 ^ k := Nat.pow_le_pow_right two_pos hk
  exact (Nat.sub_le _ _).trans (hle.trans h)

theorem le_carry (p : Nat) : 2 ^ 53 ≤ 2 ^ (p + 54) - 2 ^ p := by
  have hpos := Nat.two_pow_pos p
  rw [Nat.pow_add]
  omega

/-- The middle between the greatest number of double precision and `2 ^ 1024`. -/
def floatLimit : Nat := 2 ^ (970 + 54) - 2 ^ 970

/-- No number of double precision is nearest from the limit on. -/
theorem nearest_eq_top (n : Nat) (negative isNarrow : Bool) :
    Binary.nearest 11 52 ⟨negative, n, 0, isNarrow⟩ = 2047 * 2 ^ 52 ↔ floatLimit ≤ n := by
  rcases Nat.eq_zero_or_pos n with rfl | hpos
  · have hlim : 2 ^ 53 ≤ floatLimit := le_carry 970
    have hzero : Binary.nearest 11 52 ⟨negative, 0, 0, isNarrow⟩ = 0 := if_pos rfl
    omega
  obtain ⟨count, hlow, hhigh, hcnt, hflds⟩ :=
    nearest_normal hpos.ne' (e := 0) (by omega) negative isNarrow
  obtain ⟨hfst, -⟩ := (Nat.log2_eq_iff hpos.ne').mp rfl
  -- the place of the limit is kept as a variable, so that no power of it is computed
  unfold floatLimit
  generalize hp : 970 = p
  by_cases hlarge : p + 54 ≤ n.log2
  · refine iff_of_true ?_ (carry_le hlarge hfst)
    omega
  have hsmall := (Nat.log2_lt hpos.ne').mp (Nat.lt_of_not_le hlarge)
  by_cases htop : n.log2 = p + 53
  · rw [← roundDiv_carry hsmall]
    rw [htop, show 52 - (p + 53) = 0 by omega, show p + 53 - 52 = p + 1 by omega, Nat.pow_zero,
      Nat.mul_one] at hcnt
    omega
  · have hhalf : n < 2 ^ (p + 53) := (Nat.log2_lt hpos.ne').mp (by omega)
    have := lt_carry hhalf
    omega

theorem ofInt?_eq_none (i : Int) : ofInt? i = none ↔ floatLimit ≤ i.natAbs := by
  unfold ofInt?
  rw [← nearest_eq_top i.natAbs (i < 0) false, Nat.pow_eq]
  simp only [ite_eq_left_iff, reduceCtorEq, imp_false, Decidable.not_not]

end SheetMill.Decimal

namespace SheetMill.Value

theorem toFloat_int_of_lt {n : Int} (h : n.natAbs < Decimal.floatLimit) :
    ∃ x, (Value.int n).toFloat = .ok x := by
  obtain ⟨x, hx⟩ := Option.ne_none_iff_exists'.mp
    (fun hnone => Nat.not_le.mpr h ((Decimal.ofInt?_eq_none n).mp hnone))
  exact ⟨x, by simp only [toFloat, hx]⟩

theorem toFloat_int_of_le {n : Int} (h : Decimal.floatLimit ≤ n.natAbs) :
    (Value.int n).toFloat = .error (.overflow "int too large to convert to float") := by
  simp only [toFloat, (Decimal.ofInt?_eq_none n).mpr h]

end SheetMill.Value
