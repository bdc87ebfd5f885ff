import SheetMill.Proofs.Work
import SheetMill.Remote

/-!
# The course of a retried operation

How a loop goes depends on the outcomes of its attempts alone: it stops at the first that is a value
or a fault that does not pass, or when no attempt is left, and it waits between two attempts, each
time longer by the same factor.
-/

namespace SheetMill

open Act List

/-- What a policy of `n` attempts comes to: there is at least one, the first wait is the delay, and
each further wait is the one before it multiplied by the backoff. -/
structure RetryPolicy.Allows (policy : RetryPolicy) (n : Nat) (wait : Nat → Value) : Prop where
  count : policy.count = .ok n
  positive : 1 ≤ n
  first : wait 0 = policy.delay
  next : ∀ i, (wait i).mul policy.backoff = .ok (wait (i + 1))

namespace Retry

variable {σ α : Type}

/-! ## The course -/

/-- The outcome is a fault after which the operation may be tried again. -/
def isPassing (mayPass : Fault → Bool) : Outcome α → Bool
  | .ok _ => false
  | .error f => mayPass f

/-- The number of attempts that are made if there may be `n`: the least number of one that does not
end with a passing fault, or `n` if there is none. -/
def attemptsUpTo (mayPass : Fault → Bool) (outcomes : Nat → Outcome α) (n : Nat) : Nat :=
  ((range' 1 n).find? fun k => !isPassing mayPass (outcomes k)).getD n

structure Course (α : Type) where
  attempts : Nat
  waits : List Value
  outcome : Outcome α

/-- The course of up to `n` attempts with the given outcomes, the first of which has the number
one. -/
def course (mayPass : Fault → Bool) (n : Nat) (wait : Nat → Value) (outcomes : Nat → Outcome α) :
    Course α :=
  let k := attemptsUpTo mayPass outcomes n
  ⟨k, (range (k - 1)).map wait, outcomes k⟩

theorem course_outcome (mayPass : Fault → Bool) (n : Nat) (wait : Nat → Value)
    (outcomes : Nat → Outcome α) :
    (course mayPass n wait outcomes).outcome =
      outcomes (course mayPass n wait outcomes).attempts := rfl

section AttemptsUpTo

variable {mayPass : Fault → Bool} {outcomes : Nat → Outcome α}

/-- The same, for the attempts after the first `i`. -/
def attemptsAfter (mayPass : Fault → Bool) (outcomes : Nat → Outcome α) (i left : Nat) : Nat :=
  ((range' (i + 1) left).find? fun k => !isPassing mayPass (outcomes k)).getD (i + left)

theorem attemptsAfter_one (i : Nat) : attemptsAfter mayPass outcomes i 1 = i + 1 := by
  unfold attemptsAfter
  rw [range'_one, find?_singleton]
  split <;> rfl

theorem attemptsAfter_of_final {i : Nat} (h : isPassing mayPass (outcomes (i + 1)) = false)
    (left : Nat) : attemptsAfter mayPass outcomes i (left + 1) = i + 1 := by
  unfold attemptsAfter
  rw [range'_succ, find?_cons_of_pos (by simp [h])]
  rfl

theorem attemptsAfter_of_passing {i : Nat} (h : isPassing mayPass (outcomes (i + 1)) = true)
    (left : Nat) :
    attemptsAfter mayPass outcomes i (left + 1) = attemptsAfter mayPass outcomes (i + 1) left := by
  unfold attemptsAfter
  rw [range'_succ, find?_cons_of_neg (by simp [h])]
  congr 1
  omega

theorem attemptsUpTo_eq (n : Nat) :
    attemptsUpTo mayPass outcomes n = attemptsAfter mayPass outcomes 0 n := by
  unfold attemptsUpTo attemptsAfter
  rw [Nat.zero_add, Nat.zero_add]

/-- At least one attempt is made, and all before the last one have failed in a way that passes. -/
theorem attemptsAfter_spec (mayPass : Fault → Bool) (outcomes : Nat → Outcome α) (left i : Nat) :
    i < attemptsAfter mayPass outcomes i (left + 1) ∧
      ∀ j, i < j → j < attemptsAfter mayPass outcomes i (left + 1) →
        isPassing mayPass (outcomes j) = true := by
  induction left generalizing i with
  | zero =>
    rw [attemptsAfter_one]
    refine ⟨by omega, fun j hj hj' => ?_⟩
    omega
  | succ left ih =>
    cases hfst : isPassing mayPass (outcomes (i + 1)) with
    | false =>
      rw [attemptsAfter_of_final hfst]
      refine ⟨by omega, fun j hj hj' => ?_⟩
      omega
    | true =>
      rw [attemptsAfter_of_passing hfst]
      obtain ⟨hlow, hpass⟩ := ih (i + 1)
      refine ⟨by omega, fun j hj hj' => ?_⟩
      by_cases heq : j = i + 1
      · rw [heq]
        exact hfst
      · exact hpass j (by omega) hj'

/-- There is one attempt if it is final or the only one that may be made. -/
theorem attemptsUpTo_eq_one_iff {left : Nat} :
    attemptsUpTo mayPass outcomes (left + 1) = 1 ↔
      isPassing mayPass (outcomes 1) = false ∨ left = 0 := by
  rw [attemptsUpTo_eq]
  cases hfst : isPassing mayPass (outcomes 1) with
  | false =>
    rw [attemptsAfter_of_final hfst]
    simp
  | true =>
    cases left with
    | zero =>
      rw [attemptsAfter_one]
      simp
    | succ left =>
      rw [attemptsAfter_of_passing hfst]
      have hlater := (attemptsAfter_spec mayPass outcomes left (0 + 1)).1
      refine ⟨fun h => ?_, fun h => ?_⟩
      · omega
      · rcases h with h | h
        · cases h
        · omega

end AttemptsUpTo

/-! ## Attempts one after the other -/

section Trials

variable (plan : Plan σ) (attempt : Nat → Act σ α) (wait : Nat → Value) (s : σ)

/-- The state in which the attempt after the first `i` begins: these have been made, and each that
failed was followed by its wait. -/
def begun : Nat → σ
  | 0 => s
  | i + 1 =>
    match (attempt (i + 1)).outcome (begun i) with
    | (.ok _, s') => s'
    | (.error f, s') => ((plan.between (i + 1) (wait i) f).outcome s').2

/-- The outcome of an attempt, by its number, and the state that it leaves. -/
def trial (k : Nat) : Outcome α × σ := (attempt k).outcome (begun plan attempt wait s (k - 1))

def outcomes (k : Nat) : Outcome α := (trial plan attempt wait s k).1

/-- What is left of the last attempt: a fault that passes is told, since it is not tried again. -/
def closing (last : Outcome α × σ) : Outcome α × σ :=
  match last with
  | (.ok a, s') => (.ok a, s')
  | (.error f, s') =>
    if plan.mayPass f then (.error f, ((plan.afterLast f).outcome s').2) else (.error f, s')

end Trials

/-- What is done around the attempts ends well, and records the wait where there is one. -/
structure Plan.Waits (plan : Plan σ) (sleeps : σ → List Value) : Prop where
  between : ∀ n delay f s, ∃ s', plan.between n delay f s = .ok () s' ∧
    sleeps s' = sleeps s ++ [delay]
  afterLast : ∀ f s, ∃ s', plan.afterLast f s = .ok () s' ∧ sleeps s' = sleeps s

/-! ## The loop -/

section Step

variable {plan : Plan σ} {backoff delay delay' : Value} {attempt : Nat → Act σ α} {n : Nat}
  {s s1 s2 : σ} {r : Outcome α} {f : Fault}

theorem attemptFrom_of_final (h : (attempt n).outcome s = (r, s1))
    (hr : isPassing plan.mayPass r = false) (left : Nat) :
    (attemptFrom plan backoff attempt (left + 1) n delay).outcome s = (r, s1) := by
  rw [attemptFrom, outcome_bind_of_ok (attempt_run h)]
  cases r with
  | ok a => rfl
  | error f =>
    have hf : plan.mayPass f = false := hr
    simp only [hf, Bool.false_eq_true, if_false]
    rfl

theorem attemptFrom_of_last (h : (attempt n).outcome s = (.error f, s1))
    (hf : plan.mayPass f = true) (hafter : plan.afterLast f s1 = .ok () s2) :
    (attemptFrom plan backoff attempt 1 n delay).outcome s = (.error f, s2) := by
  rw [attemptFrom, outcome_bind_of_ok (attempt_run h)]
  simp only [hf, if_true]
  rw [outcome_bind_of_ok hafter]
  rfl

/-- Where what follows an attempt fails, there is no further attempt. -/
theorem attemptFrom_of_stuck {e : Fault} (h : (attempt n).outcome s = (.error f, s1))
    (hf : plan.mayPass f = true) (hbetween : plan.between n delay f s1 = .error e s2)
    (left : Nat) :
    (attemptFrom plan backoff attempt (left + 2) n delay).outcome s = (.error e, s2) := by
  rw [attemptFrom, outcome_bind_of_ok (attempt_run h)]
  simp only [hf, if_true, if_neg (Nat.succ_ne_zero left)]
  exact outcome_of_error (bind_of_error hbetween)

end Step

/-- Where an attempt may fail for a reason only and what follows a failed one keeps a property, the loop
fails for that reason, or because no attempt was left, and keeps the property then. -/
theorem ends_attemptFrom {P : σ → Prop} {Q : α → σ → Prop} {C : Prop} {plan : Plan σ}
    {backoff : Value} {attempt : Nat → Act σ α}
    (hattempt : ∀ n s, P s → (attempt n).Ends s Q fun _ s' => C ∧ P s')
    (hbetween : ∀ n delay f, Sustains P (plan.between n delay f))
    (hafter : ∀ f, Sustains P (plan.afterLast f)) (left n : Nat) (delay : Value) {s : σ}
    (hs : P s) : (attemptFrom plan backoff attempt left n delay).Ends s Q
      fun _ s' => (left = 0 ∨ C) ∧ P s' := by
  induction left generalizing n delay s with
  | zero => exact ends_throw ⟨.inl rfl, hs⟩
  | succ left ih =>
    refine .bind (.attempt ((hattempt n s hs).mono (fun a s' ha => ha) fun f s' hf => ?_))
    obtain ⟨hC, hs'⟩ := hf
    dsimp only
    split
    · split
      · exact .bind (((hafter f).ends hs').mono (fun _ _ h => ends_throw ⟨.inr hC, h.2⟩)
          fun _ _ h => ⟨.inr hC, h⟩)
      · refine .bind (((hbetween n delay f).ends hs').mono (fun _ s2 h => .bind ?_)
          fun _ _ h => ⟨.inr hC, h⟩)
        refine ends_lift (fun delay' _ => ?_) fun _ _ => ⟨.inr hC, h.2⟩
        exact (ih (n + 1) delay' h.2).mono (fun _ _ ha => ha) fun _ _ hf => ⟨.inr hC, hf.2⟩
    · exact ends_throw ⟨.inr hC, hs'⟩

theorem ends_retry {P : σ → Prop} {Q : α → σ → Prop} {C : Prop} {plan : Plan σ}
    {attempt : Nat → Act σ α} (policy : RetryPolicy)
    (hattempt : ∀ n s, P s → (attempt n).Ends s Q fun _ s' => C ∧ P s')
    (hbetween : ∀ n delay f, Sustains P (plan.between n delay f))
    (hafter : ∀ f, Sustains P (plan.afterLast f)) {s : σ} (hs : P s) :
    (retry policy plan attempt).Ends s Q
      fun _ s' => ((¬ ∃ n, policy.count = .ok (n + 1)) ∨ C) ∧ P s' := by
  refine .given (fun count hcnt => ?_) fun f hcnt => ⟨.inl ?_, hs⟩
  · refine (ends_attemptFrom hattempt hbetween hafter _ _ _ hs).mono (fun _ _ ha => ha)
      fun f s' ⟨hwhy, hs'⟩ => ⟨hwhy.imp_left ?_, hs'⟩
    rintro rfl ⟨n, hn⟩
    cases hn.symm.trans hcnt
  · rintro ⟨n, hn⟩
    cases hn.symm.trans hcnt

theorem ensures_attemptFrom {P : σ → Prop} {plan : Plan σ} {backoff : Value}
    {attempt : Nat → Act σ α}
    (hattempt : ∀ n, Sustains P (attempt n))
    (hbetween : ∀ n delay f, Sustains P (plan.between n delay f))
    (hafter : ∀ f, Sustains P (plan.afterLast f)) (left n : Nat) (delay : Value) :
    Sustains P (attemptFrom plan backoff attempt left n delay) := by
  refine ensures_iff_ends.mpr fun s hs => ?_
  refine (ends_attemptFrom (C := True) (fun n s hs => ?_) hbetween hafter left n delay hs).mono
    (fun _ _ ha => ha) fun _ _ hf => hf.2
  exact ((hattempt n).ends hs).mono (fun _ _ ha => ha) fun _ _ hf => ⟨trivial, hf⟩

section Loop

variable {plan : Plan σ} {attempt : Nat → Act σ α} {wait : Nat → Value} {s : σ}
  {sleeps : σ → List Value}

end Loop

/-- From a state, a loop of up to `n` attempts goes the course of the outcomes that its attempts have
in turn: it makes so many attempts, ends with the outcome of the last one, and waits in between. -/
structure Follows (plan : Plan σ) (attempt : Nat → Act σ α) (n : Nat) (wait : Nat → Value)
    (sleeps : σ → List Value) (loop : Act σ α) (s : σ) : Prop where
  attempts : loop.outcome s = closing plan (trial plan attempt wait s
    (course plan.mayPass n wait (outcomes plan attempt wait s)).attempts)
  outcome : (loop.outcome s).1 = (course plan.mayPass n wait (outcomes plan attempt wait s)).outcome
  sleeps : sleeps (loop.outcome s).2 =
    sleeps s ++ (course plan.mayPass n wait (outcomes plan attempt wait s)).waits

end Retry

end SheetMill
