import SheetMill.Accounts.Changes
import SheetMill.Proofs.Integer

/-!
# Formats of addresses and phone numbers

Each format is a product of languages of characters of one kind, and the readers take their factors
off a text in the only possible way. A line end may follow.
-/

namespace SheetMill.Accounts

open List Text

variable {kind : Char → Bool} {lengths : Nat → Prop} {cs : List Char} {l m : Language Char}

def run (kind : Char → Bool) (lengths : Nat → Prop) : Language Char :=
  {cs | lengths cs.length ∧ ∀ c ∈ cs, kind c = true}

@[simp] theorem mem_run :
    cs ∈ run kind lengths ↔ lengths cs.length ∧ ∀ c ∈ cs, kind c = true := Iff.rfl

def email : Language Char :=
  run isMailboxChar (0 < ·) * {['@']} * (run isLabelChar (0 < ·) * {['.']}) *
    run isDomainChar (0 < ·)

def phone (digit gap : Char → Bool) : Language Char :=
  run digit (· = 3) * (run gap (· ≤ 1) * run digit (· = 3)) * run gap (· ≤ 1) * run digit (· = 4)

/-! ## Readers -/

/-- The reader takes a text of the language off, wherever one stands at the beginning. -/
def Takes (l : Language Char) (read : List Char → Option (List Char)) : Prop :=
  ∀ cs rest, read cs = some rest ↔ ∃ taken ∈ l, taken ++ rest = cs

theorem Takes.mul {read read' : List Char → Option (List Char)} (h : Takes l read)
    (h' : Takes m read') : Takes (l * m) fun cs => (read cs).bind read' := by
  intro cs rest
  simp only [Option.bind_eq_some_iff, h _ _, h' _ _, Language.mem_mul]
  constructor
  · rintro ⟨_, ⟨a, ha, rfl⟩, b, hb, rfl⟩
    exact ⟨a ++ b, ⟨a, ha, b, hb, rfl⟩, append_assoc a b rest⟩
  · rintro ⟨_, ⟨a, ha, b, hb, rfl⟩, rfl⟩
    exact ⟨b ++ rest, ⟨a, ha, (append_assoc a b rest).symm⟩, b, hb, rfl⟩

theorem takes_afterSome {mark : Char} (hmark : kind mark = false) :
    Takes (run kind (0 < ·) * {[mark]}) (afterSome kind mark) := by
  intro cs rest
  constructor
  · intro h
    unfold afterSome at h
    split at h
    · next c taken d dropped htake hdrop =>
      obtain ⟨rfl, ⟨⟩⟩ := Option.ite_none_right_eq_some.mp h
      refine ⟨_, ⟨c :: taken, ⟨by simp, fun x hx => ?_⟩, [d], rfl, rfl⟩, ?_⟩
      · exact mem_takeWhile_imp (htake ▸ hx)
      · simpa [htake, hdrop] using takeWhile_append_dropWhile (p := kind) (l := cs)
    · cases h
  · rintro ⟨_, ⟨a, ⟨hpos, hall⟩, _, rfl, rfl⟩, rfl⟩
    have htake : (a ++ [mark] ++ rest).takeWhile kind = a := by
      simp [takeWhile_append_of_pos hall, hmark]
    have hdrop : (a ++ [mark] ++ rest).dropWhile kind = mark :: rest := by
      simp [dropWhile_append_of_pos hall, hmark]
    rw [afterSome, htake, hdrop]
    obtain ⟨c, a, rfl⟩ := exists_cons_of_length_pos hpos
    simp

theorem takes_afterDigits (n : Nat) : Takes (run isDecimal (· = n)) (afterDigits n) := by
  intro cs rest
  induction n generalizing cs with
  | zero => simpa [afterDigits] using eq_comm
  | succ n ih =>
    cases cs with
    | nil => simp [afterDigits]
    | cons c cs =>
      simp only [afterDigits, Option.ite_none_right_eq_some, ih]
      constructor
      · rintro ⟨hc, a, ⟨rfl, hall⟩, rfl⟩
        exact ⟨c :: a, ⟨rfl, forall_mem_cons.mpr ⟨hc, hall⟩⟩, rfl⟩
      · rintro ⟨_ | ⟨d, a⟩, ⟨hlen, hall⟩, heq⟩
        · cases hlen
        · cases heq
          have hall := forall_mem_cons.mp hall
          exact ⟨hall.1, a, ⟨Nat.succ.inj hlen, hall.2⟩, rfl⟩

abbrev isGap (c : Char) : Bool := c = '-' || isBlank c

theorem isGap_of_isDecimal {c : Char} (h : isDecimal c = true) : isGap c = false := by
  have hspans : Spans.covers (decimalZeros.map fun start => (start, start + 9)) c = true := by
    simpa [isDecimal, decimalValue?, Spans.covers] using h
  have hblank : isBlank c = false := Spans.covers_eq_false (by decide) hspans
  have hdash : c ≠ '-' := by rintro rfl; cases h
  simp [hblank, hdash]

theorem takes_afterGap (n : Nat) : Takes (run isGap (· ≤ 1) * run isDecimal (· = n + 1))
    fun cs => afterDigits (n + 1) (afterGap cs) := by
  intro cs rest
  simp only [takes_afterDigits (n + 1) _ _, Language.mem_mul]
  constructor
  · rintro ⟨a, ha, hcs⟩
    match cs with
    | [] => exact ⟨a, ⟨[], by simp, a, ha, rfl⟩, hcs⟩
    | c :: cs =>
      rw [afterGap] at hcs
      split at hcs
      · next hc => exact ⟨c :: a, ⟨[c], by simpa using hc, a, ha, rfl⟩, by rw [← hcs]; rfl⟩
      · exact ⟨a, ⟨[], by simp, a, ha, rfl⟩, hcs⟩
  · rintro ⟨_, ⟨gap, ⟨hlen, hgap⟩, a, ha, rfl⟩, rfl⟩
    refine ⟨a, ha, ?_⟩
    match gap, a with
    | [c], _ => exact (if_pos (hgap c mem_cons_self)).symm
    | [], c :: a => exact (if_neg (by simpa using isGap_of_isDecimal (ha.2 c mem_cons_self))).symm
    | [], [] => cases ha.1
    | _ :: _ :: _, _ => simp at hlen

/-! ## The end of the line -/

/-- If no text of the language ends with a line end, it does not matter whether one is taken off. -/
theorem withoutLineEnd_mem (hpos : ¬ lengths 0) (hend : kind '\n' = false) :
    withoutLineEnd cs ∈ l * run kind lengths ↔ cs ∈ l * run kind lengths * {[], ['\n']} := by
  have hlast : ∀ cs ∈ l * run kind lengths, cs.getLast? ≠ some '\n' := by
    rintro _ ⟨a, -, b, ⟨hlen, hall⟩, rfl⟩ hlast
    have hne : b ≠ [] := fun hnil => hpos (by simpa [hnil] using hlen)
    rw [getLast?_append_of_ne_nil _ hne] at hlast
    exact absurd (hall _ (mem_of_getLast? hlast)) (by simp [hend])
  unfold withoutLineEnd
  constructor
  · split
    · next hcs =>
      obtain ⟨body, rfl⟩ := getLast?_eq_some_iff.mp hcs
      rw [dropLast_concat]
      exact fun hbody => ⟨body, hbody, ['\n'], .inr rfl, rfl⟩
    · exact fun hcs => ⟨cs, hcs, [], .inl rfl, append_nil cs⟩
  · rintro ⟨body, hbody, _, rfl | rfl, rfl⟩
    · simp only [append_nil, hlast body hbody, if_false]
      exact hbody
    · simp only [getLast?_concat, if_true, dropLast_concat]
      exact hbody

/-! ## Which texts are taken -/

/-- The texts that are taken as addresses and as phone numbers: those of the two formats, with the
decimal digits and the blank characters of any script, before the end of the text or a line end. -/
theorem formats_allow_line_end (s : String) :
    (isEmail s = true ↔ s.toList ∈ email * {[], ['\n']}) ∧
    (isPhone s = true ↔ s.toList ∈ phone isDecimal (fun c => c = '-' || isBlank c) * {[], ['\n']}) := by
  constructor
  · have hread := (takes_afterSome (by decide : isMailboxChar '@' = false)).mul
      (takes_afterSome (by decide : isLabelChar '.' = false)) (withoutLineEnd s.toList)
    have hemail : isEmail s = true ↔ ∃ rest ∈ run isDomainChar (0 < ·),
        ((afterSome isMailboxChar '@' (withoutLineEnd s.toList)).bind (afterSome isLabelChar '.')) =
          some rest := by
      unfold isEmail
      cases afterSome isMailboxChar '@' (withoutLineEnd s.toList) with
      | none => simp
      | some domain =>
        cases h : afterSome isLabelChar '.' domain <;> simp [h, length_pos_iff]
    rw [email, ← withoutLineEnd_mem (by decide) (by decide), hemail, Language.mem_mul]
    simp only [hread]
    grind
  · have hread := ((takes_afterDigits 3).mul (takes_afterGap 2)).mul (takes_afterGap 3)
      (withoutLineEnd s.toList) []
    simp only [append_nil, exists_eq_right, ← mul_assoc] at hread
    rw [phone, ← mul_assoc, ← withoutLineEnd_mem (by decide) (by decide), ← hread]
    simp [isPhone, Option.bind_assoc]

end SheetMill.Accounts
