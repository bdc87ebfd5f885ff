import SheetMill.Proofs.Integer
import SheetMill.Proofs.Json

/-!
# Numbers in JSON

A number is written with its parts in the form that JSON has for them, and read back.
-/

namespace SheetMill.Value

open Text Decimal List

variable {ds rest : List Char}

def NoDigit (cs : List Char) : Prop := ∀ c, cs.head? = some c → c.isDigit = false

theorem Follows.noDigit (h : Follows rest) : NoDigit rest := by
  intro c hc
  rcases h c hc with rfl | rfl | rfl <;> decide

/-! ## Reading -/

theorem takeAsciiDigits_append (hds : ∀ c ∈ ds, c.isDigit = true) (hrest : NoDigit rest) :
    takeAsciiDigits (ds ++ rest) = (ds, rest) := by
  unfold takeAsciiDigits
  rw [takeWhile_append_of_pos hds, dropWhile_append_of_pos hds]
  cases rest with
  | nil => simp
  | cons c rest =>
    have hc := hrest c rfl
    simp [hc]

/-- The digits before the point: a zero, or digits of which the first is none. -/
def IsWhole (ds : List Char) : Prop :=
  ds = ['0'] ∨ (∀ c ∈ ds, c.isDigit = true) ∧ ∃ c tail, ds = c :: tail ∧ c ≠ '0'

def IsFraction (cs : List Char) : Prop :=
  cs = [] ∨ ∃ ds, cs = '.' :: ds ∧ ds ≠ [] ∧ ∀ c ∈ ds, c.isDigit = true

def IsExponent (cs : List Char) : Prop :=
  cs = [] ∨ ∃ sign ds, cs = 'e' :: sign :: ds ∧ (sign = '+' ∨ sign = '-') ∧ ds ≠ [] ∧
    ∀ c ∈ ds, c.isDigit = true

def takeWhole (cs : List Char) : List Char × List Char :=
  match cs with
  | '0' :: rest => (['0'], rest)
  | cs => takeAsciiDigits cs

/-- The digits behind the point, if there are any, and what follows them. -/
def takeFraction (cs : List Char) : List Char × List Char :=
  match cs with
  | '.' :: rest =>
    match takeAsciiDigits rest with
    | ([], _) => ([], cs)
    | (ds, tail) => (ds, tail)
  | rest => ([], rest)

/-- The number of the digits and of what is left to read. -/
def finishNumber (negative : Bool) (whole : List Char) (r : List Char × List Char) :
    JsonOutcome (Value × List Char) :=
  let digits := asciiDigits (whole ++ r.1)
  let signed (x : Float) : Value := .float (if negative then -x else x)
  match takeJsonExponent r.2 with
  | some (e, tail) => .ok (signed (Decimal.nearestFloat digits (e - r.1.length)), tail)
  | none =>
    if r.1.isEmpty then
      if whole.length > Decimal.maxIntegerDigits then .error (.tooLong whole.length)
      else .ok (.int (if negative then -(digits : Int) else digits), r.2)
    else .ok (signed (Decimal.nearestFloat digits (-(r.1.length : Int))), r.2)

theorem takeJsonNumber_minus {cs : List Char} (h : (takeWhole cs).1 ≠ []) :
    takeJsonNumber ('-' :: cs) =
      finishNumber true (takeWhole cs).1 (takeFraction (takeWhole cs).2) := by
  have hnil : (takeWhole cs).1.isEmpty = false := by simpa using h
  have hopen : takeJsonNumber ('-' :: cs) =
      if (takeWhole cs).1.isEmpty then .error (noJsonValue ('-' :: cs))
      else finishNumber true (takeWhole cs).1 (takeFraction (takeWhole cs).2) := rfl
  rw [hopen, hnil]
  rfl

theorem takeJsonNumber_plain {cs : List Char} (hminus : cs.head? ≠ some '-')
    (h : (takeWhole cs).1 ≠ []) :
    takeJsonNumber cs =
      finishNumber false (takeWhole cs).1 (takeFraction (takeWhole cs).2) := by
  have hnil : (takeWhole cs).1.isEmpty = false := by simpa using h
  have hopen : takeJsonNumber cs =
      if (takeWhole cs).1.isEmpty then .error (noJsonValue cs)
      else finishNumber false (takeWhole cs).1 (takeFraction (takeWhole cs).2) := by
    cases cs with
    | nil => rfl
    | cons c cs =>
      have hc : c ≠ '-' := by simpa using hminus
      unfold takeJsonNumber
      split
      rename_i negative unsigned heq
      split at heq
      · rename_i heq'
        cases heq'
        exact absurd rfl hc
      · cases heq
        rfl
  rw [hopen, hnil]
  rfl

theorem IsWhole.takeWhole_append (hds : IsWhole ds) (hrest : NoDigit rest) :
    takeWhole (ds ++ rest) = (ds, rest) := by
  rcases hds with rfl | ⟨hdig, c, tail, rfl, hc⟩
  · rfl
  · unfold takeWhole
    split
    · rename_i heq
      cases heq
      exact absurd rfl hc
    · exact takeAsciiDigits_append hdig hrest

theorem IsFraction.takeFraction_append {fraction : List Char} (h : IsFraction fraction)
    (hrest : NoDigit rest) (hpoint : rest.head? ≠ some '.') :
    takeFraction (fraction ++ rest) = (fraction.tail, rest) := by
  rcases h with rfl | ⟨ds, rfl, hds, hdig⟩
  · unfold takeFraction
    split
    · rename_i heq
      rw [nil_append] at heq
      rw [heq] at hpoint
      exact absurd rfl hpoint
    · rfl
  · have htake := takeAsciiDigits_append hdig hrest
    obtain ⟨d, ds, rfl⟩ := exists_cons_of_ne_nil hds
    simp only [takeFraction, cons_append] at htake ⊢
    rw [htake]
    rfl

theorem takeJsonExponent_of_follows (h : Follows rest) : takeJsonExponent rest = none := by
  cases rest with
  | nil => rfl
  | cons c rest =>
    have hc : ¬ (c = 'e' ∨ c = 'E') := by
      rcases h c rfl with rfl | rfl | rfl <;> decide
    simp only [takeJsonExponent, if_neg hc]

theorem takeJsonExponent_append {sign : Char} (hsign : sign = '+' ∨ sign = '-') (hds : ds ≠ [])
    (hdig : ∀ c ∈ ds, c.isDigit = true) :
    ∃ e, ∀ rest, Follows rest →
      takeJsonExponent ('e' :: sign :: ds ++ rest) = some (e, rest) := by
  refine ⟨if sign = '-' then -(asciiDigits ds : Int) else asciiDigits ds, fun rest hrest => ?_⟩
  have htake := takeAsciiDigits_append hdig hrest.noDigit
  rcases hsign with rfl | rfl <;>
    simp only [takeJsonExponent, cons_append, Decimal.takeSign] at htake ⊢ <;>
    simp [htake]

theorem IsWhole.head (h : IsWhole ds) : ∃ c tail, ds = c :: tail ∧ c.isDigit = true := by
  rcases h with rfl | ⟨hdig, c, tail, rfl, -⟩
  · exact ⟨'0', [], rfl, by decide⟩
  · exact ⟨c, tail, rfl, hdig c mem_cons_self⟩

/-- A number as it may be written; an integer must not be too long. -/
structure Numeral where
  negative : Bool
  whole : List Char
  fraction : List Char
  exponent : List Char
  isWhole : IsWhole whole
  isFraction : IsFraction fraction
  isExponent : IsExponent exponent
  short : fraction = [] → exponent = [] → whole.length ≤ maxIntegerDigits

namespace Numeral

def chars (n : Numeral) : List Char :=
  (if n.negative then ['-'] else []) ++ (n.whole ++ (n.fraction ++ n.exponent))

def digits (n : Numeral) : Nat := asciiDigits (n.whole ++ n.fraction.tail)

/-- The floating-point number with these digits and the given power of ten. -/
def scaled (n : Numeral) (power : Int) : Value :=
  let x := nearestFloat n.digits (power - (n.fraction.tail).length)
  .float (if n.negative then -x else x)

theorem finish (n : Numeral) : ∃ v, ∀ rest, Follows rest →
    finishNumber n.negative n.whole (n.fraction.tail, n.exponent ++ rest) = .ok (v, rest) := by
  rcases n.isExponent with hexp | ⟨sign, ds, hexp, hsign, hds, hdig⟩
  · by_cases hfrac : n.fraction.tail = []
    · have hnil : n.fraction = [] := by
        rcases n.isFraction with hnil | ⟨ds, hcons, hds, -⟩
        · exact hnil
        · rw [hcons] at hfrac
          exact absurd hfrac hds
      have hshort : ¬ n.whole.length > maxIntegerDigits := Nat.not_lt.mpr (n.short hnil hexp)
      refine ⟨.int (if n.negative then -(n.digits : Int) else n.digits), fun rest hrest => ?_⟩
      simp [finishNumber, hexp, takeJsonExponent_of_follows hrest, hfrac, hshort, digits]
    · refine ⟨n.scaled 0, fun rest hrest => ?_⟩
      simp [finishNumber, hexp, takeJsonExponent_of_follows hrest, hfrac, scaled, digits]
  · obtain ⟨e, he⟩ := takeJsonExponent_append hsign hds hdig
    refine ⟨n.scaled e, fun rest hrest => ?_⟩
    simp only [finishNumber, hexp, he rest hrest, scaled, digits]

theorem take (n : Numeral) : ∃ v, ∀ rest, Follows rest →
    takeJsonNumber (n.chars ++ rest) = .ok (v, rest) := by
  obtain ⟨v, hv⟩ := n.finish
  refine ⟨v, fun rest hrest => ?_⟩
  have hexp : NoDigit (n.exponent ++ rest) ∧ (n.exponent ++ rest).head? ≠ some '.' := by
    rcases n.isExponent with hnil | ⟨sign, ds, hcons, -⟩
    · rw [hnil]
      refine ⟨hrest.noDigit, fun hpoint => ?_⟩
      rcases hrest _ hpoint with h | h | h <;> cases h
    · rw [hcons]
      exact ⟨by rintro c ⟨⟩; decide, by rintro ⟨⟩⟩
  have hfrac : NoDigit (n.fraction ++ (n.exponent ++ rest)) := by
    rcases n.isFraction with hnil | ⟨ds, hcons, -⟩
    · rw [hnil]
      exact hexp.1
    · rw [hcons]
      rintro c ⟨⟩
      decide
  have hwhole := n.isWhole.takeWhole_append hfrac
  have htake := n.isFraction.takeFraction_append hexp.1 hexp.2
  obtain ⟨c, tail, hhead, hc⟩ := n.isWhole.head
  have hne : (takeWhole (n.whole ++ (n.fraction ++ (n.exponent ++ rest)))).1 ≠ [] := by
    rw [hwhole, hhead]
    simp
  unfold chars
  simp only [append_assoc]
  cases hneg : n.negative with
  | true =>
    rw [hneg] at hv
    rw [if_pos rfl, singleton_append, takeJsonNumber_minus hne, hwhole, htake, hv rest hrest]
  | false =>
    have hminus : (n.whole ++ (n.fraction ++ (n.exponent ++ rest))).head? ≠ some '-' := by
      rw [hhead]
      rintro ⟨⟩
      exact absurd hc (by decide)
    rw [hneg] at hv
    rw [if_neg Bool.false_ne_true, nil_append, takeJsonNumber_plain hminus hne, hwhole, htake,
      hv rest hrest]

end Numeral

/-! ## The numbers that are written -/

theorem exists_head_toDigits {n : Nat} (h : n ≠ 0) :
    ∃ c tail, Nat.toDigits 10 n = c :: tail ∧ c ≠ '0' := by
  induction n using Nat.strongRecOn with
  | _ n ih =>
    by_cases hlt : n < 10
    · have hdigit : ∀ d < 10, d ≠ 0 → Nat.digitChar d ≠ '0' := by decide
      exact ⟨n.digitChar, [], Nat.toDigits_of_lt_base hlt, hdigit n hlt h⟩
    · obtain ⟨c, tail, htail, hc⟩ := ih (n / 10) (by omega) (by omega)
      refine ⟨c, tail ++ [(n % 10).digitChar], ?_, hc⟩
      rw [Nat.toDigits_of_base_le (by decide) (Nat.not_lt.mp hlt), htail, cons_append]

theorem isWhole_toDigits (n : Nat) : IsWhole (Nat.toDigits 10 n) := by
  by_cases h : n = 0
  · subst h
    exact .inl rfl
  · exact .inr ⟨fun c hc => isDigit_toDigits hc, exists_head_toDigits h⟩

theorem exists_numeral_int {i : Int} {text : String} (h : jsonInteger i = .ok text) :
    ∃ n : Numeral, n.chars = text.toList := by
  unfold jsonInteger at h
  split at h
  · rename_i hshort
    rw [Nat.pow_eq, ← Nat.length_toDigits_le_iff (by decide) (by decide)] at hshort
    cases h
    refine ⟨⟨decide (i < 0), Nat.toDigits 10 i.natAbs, [], [], isWhole_toDigits _, .inl rfl,
      .inl rfl, fun _ _ => hshort⟩, ?_⟩
    cases i with
    | ofNat n =>
      rw [toList_toString_ofNat]
      simp [Numeral.chars]
    | negSucc n =>
      rw [toList_toString_negSucc]
      simp [Numeral.chars]
  · cases h

theorem isDigit_zeros {n : Nat} {c : Char} (h : c ∈ (zeros n).toList) : c.isDigit = true := by
  have hc : c = '0' := by
    unfold zeros at h
    rw [String.toList_ofList] at h
    exact eq_of_mem_replicate h
  subst hc
  decide

theorem toList_toString_nat (n : Nat) : (toString n).toList = Nat.toDigits 10 n :=
  toList_toString_ofNat n

theorem isExponent_exponentText (e : Int) : IsExponent (exponentText e).toList := by
  have hdig : ∀ c ∈ (padLeft 2 (toString e.natAbs)).toList, c.isDigit = true := by
    intro c hc
    unfold padLeft at hc
    rw [String.toList_append, mem_append, toList_toString_nat] at hc
    rcases hc with hc | hc
    · exact isDigit_zeros hc
    · exact isDigit_toDigits hc
  have hne : (padLeft 2 (toString e.natAbs)).toList ≠ [] := by
    have hdigit : Nat.toDigits 10 e.natAbs ≠ [] := Nat.toDigits_ne_nil
    unfold padLeft
    simp [hdigit]
  refine .inr ⟨if e < 0 then '-' else '+', (padLeft 2 (toString e.natAbs)).toList, ?_, ?_, hne,
    hdig⟩
  · unfold exponentText
    split <;> simp
  · split <;> simp

theorem exponentText_ne_nil (e : Int) : (exponentText e).toList ≠ [] := by
  unfold exponentText
  split <;> simp

theorem isFraction_point (hds : ds ≠ []) (hdig : ∀ c ∈ ds, c.isDigit = true) :
    IsFraction ('.' :: ds) := .inr ⟨ds, rfl, hds, hdig⟩

theorem isFraction_zero : IsFraction ['.', '0'] := by
  refine isFraction_point (by simp) fun c hc => ?_
  rw [mem_singleton.mp hc]
  decide

/-- Digits as text, in any layout: a number with a point or an exponent. -/
theorem exists_parts (layout : Layout) (d : Digits) :
    ∃ whole fraction exponent, (layout.digitsText d).toList = whole ++ (fraction ++ exponent) ∧
      IsWhole whole ∧ IsFraction fraction ∧ IsExponent exponent ∧
      (fraction = [] → exponent ≠ []) := by
  unfold Layout.digitsText
  dsimp only
  have htext := toList_toString_nat d.digits
  have hdigit : ∀ c ∈ Nat.toDigits 10 d.digits, c.isDigit = true := fun c hc => isDigit_toDigits hc
  by_cases hzero : d.digits = 0
  · rw [if_pos hzero]
    exact ⟨['0'], ['.', '0'], [], by simp, .inl rfl, isFraction_zero, .inl rfl, by simp⟩
  obtain ⟨first, others, hdig, hfst⟩ := exists_head_toDigits hzero
  have hlen : (toString d.digits).length = others.length + 1 := by
    rw [← String.length_toList, htext, hdig, length_cons]
  rw [hdig] at htext hdigit
  have hothers : ∀ c ∈ others, c.isDigit = true := fun c hc => hdigit c (mem_cons_of_mem _ hc)
  -- the leading digit is not zero, so whatever begins with it can stand before the point
  have hwhole : ∀ ds : List Char, (∀ c ∈ ds, c.isDigit = true) → IsWhole (first :: ds) :=
    fun ds hds => .inr ⟨forall_mem_cons.mpr ⟨hdigit first mem_cons_self, hds⟩,
      first, ds, rfl, hfst⟩
  generalize hplace : d.scale + ((toString d.digits).length : Int) = place
  split_ifs with hpositional hsmall hlarge hsingle
  · refine ⟨['0'], '.' :: ((zeros (-place).toNat).toList ++ first :: others), [], ?_, .inl rfl,
      isFraction_point (by simp) ?_, .inl rfl, by simp⟩
    · simp [hdig]
    · intro c hc
      rcases mem_append.mp hc with hc | hc
      · exact isDigit_zeros hc
      · exact hdigit c hc
  · refine ⟨first :: (others ++ (zeros (place.toNat - (toString d.digits).length)).toList),
      ['.', '0'], [], ?_, hwhole _ ?_, isFraction_zero, .inl rfl, by simp⟩
    · simp [hdig]
    · intro c hc
      rcases mem_append.mp hc with hc | hc
      · exact hothers c hc
      · exact isDigit_zeros hc
  · obtain ⟨n, hn⟩ : ∃ n, place.toNat = n + 1 := ⟨place.toNat - 1, by omega⟩
    refine ⟨first :: others.take n, '.' :: others.drop n, [], ?_,
      hwhole _ fun c hc => hothers c (mem_of_mem_take hc),
      isFraction_point ?_ fun c hc => hothers c (mem_of_mem_drop hc), .inl rfl, by simp⟩
    · simp [hdig, hn]
    · intro hnil
      rw [drop_eq_nil_iff] at hnil
      omega
  · refine ⟨[first], [], (exponentText (place - 1)).toList, ?_, hwhole [] (by simp), .inl rfl,
      isExponent_exponentText _, fun _ => ?_⟩
    · simp [hdig]
    · exact exponentText_ne_nil _
  · refine ⟨[first], '.' :: others, (exponentText (place - 1)).toList, ?_, hwhole [] (by simp),
      isFraction_point ?_ hothers, isExponent_exponentText _, by simp⟩
    · simp [hdig]
    · rintro rfl
      simp [hdig] at hsingle

/-- A floating-point number is written as a word or as a number. -/
theorem json_text_cases (x : Float) :
    json.text x ∈ ["NaN", "Infinity", "-Infinity"] ∨
      ∃ n : Numeral, n.chars = (json.text x).toList := by
  unfold Layout.text Layout.magnitudeText
  split
  · exact .inl (by simp [json])
  · rename_i negative _
    cases negative <;> exact .inl (by simp [json])
  · rename_i b _
    obtain ⟨whole, fraction, exponent, hparts, hwhole, hfrac, hexp, hlong⟩ :=
      exists_parts json b.shortest
    refine .inr ⟨⟨b.negative, whole, fraction, exponent, hwhole, hfrac, hexp,
      fun hf he => absurd he (hlong hf)⟩, ?_⟩
    rw [String.toList_append, hparts]
    cases hneg : b.negative <;> simp [Numeral.chars]

end SheetMill.Value
