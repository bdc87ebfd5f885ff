import Mathlib
import SheetMill.Fault

/-!
# Outcomes, step by step

A computation that ends well has a value after each of its steps.
-/

namespace SheetMill.Outcome

open List

variable {α β : Type} {f : α → Outcome β} {xs : List α}

@[simp] theorem ok_bind (a : α) (f : α → Outcome β) : (Except.ok a >>= f) = f a := rfl

@[simp] theorem error_bind (e : Fault) (f : α → Outcome β) :
    ((Except.error e : Outcome α) >>= f) = .error e := rfl

@[simp] theorem pure_eq_ok (a : α) : (pure a : Outcome α) = .ok a := rfl

@[simp] theorem throw_eq_error (e : Fault) : (throw e : Outcome α) = .error e := rfl

@[simp] theorem map_ok (f : α → β) (a : α) : (f <$> (Except.ok a : Outcome α)) = .ok (f a) := rfl

theorem bind_eq_ok {x : Outcome α} {b : β} : (x >>= f) = .ok b ↔ ∃ a, x = .ok a ∧ f a = .ok b := by
  cases x with
  | error e => simp
  | ok a => simp

/-- All items are mapped well if and only if each of them is. -/
theorem mapM_eq_ok {ys : List β} : xs.mapM f = .ok ys ↔ Forall₂ (fun x y => f x = .ok y) xs ys := by
  induction xs generalizing ys with
  | nil => simp [eq_comm]
  | cons x xs ih =>
    rw [mapM_cons]
    constructor
    · intro h
      obtain ⟨y, hy, h⟩ := bind_eq_ok.mp h
      obtain ⟨zs, hzs, h⟩ := bind_eq_ok.mp h
      have hys : y :: zs = ys := by simpa using h
      subst hys
      exact Forall₂.cons hy (ih.mp hzs)
    · intro h
      cases h with
      | cons hy hrest => simp [hy, ih.mpr hrest]

/-- What each item is mapped to makes up what all of them are mapped to. -/
theorem exists_mapM_eq_ok {p : α → β → Prop} (h : ∀ x ∈ xs, ∃ y, f x = .ok y ∧ p x y) :
    ∃ ys, xs.mapM f = .ok ys ∧ Forall₂ p xs ys := by
  induction xs with
  | nil => exact ⟨[], rfl, Forall₂.nil⟩
  | cons x xs ih =>
    obtain ⟨y, hy, hp⟩ := h x mem_cons_self
    obtain ⟨ys, hys, hps⟩ := ih fun z hz => h z (mem_cons_of_mem _ hz)
    exact ⟨y :: ys, by simp [mapM_cons, hy, hys], Forall₂.cons hp hps⟩

theorem allM_of_ok {f : α → Outcome Bool} {p : α → Bool} (h : ∀ x ∈ xs, f x = .ok (p x)) :
    xs.allM f = .ok (xs.all p) := by
  induction xs with
  | nil => rfl
  | cons x xs ih =>
    have hrest := ih fun y hy => h y (mem_cons_of_mem _ hy)
    cases hx : p x <;> simp [h x mem_cons_self, hx, hrest]

theorem filterM_of_ok {f : α → Outcome Bool} {p : α → Bool} (h : ∀ x ∈ xs, f x = .ok (p x)) :
    xs.filterM f = .ok (xs.filter p) := by
  suffices haux : ∀ kept, List.filterAuxM f xs kept = .ok ((xs.filter p).reverse ++ kept) by
    simp [List.filterM, haux]
  induction xs with
  | nil => simp [List.filterAuxM]
  | cons x xs ih =>
    have hrest := ih fun y hy => h y (mem_cons_of_mem _ hy)
    cases hx : p x <;> simp [List.filterAuxM, h x mem_cons_self, hx, hrest]

/-! ## Faults and their causes -/

/-- The computation fails with a fault of some kind for a cause, and else its result is as stated. -/
def FailsIf (kind : Fault → Prop) (cause : Prop) (x : Outcome α) (good : α → Prop) : Prop :=
  cause ∧ (∃ f, x = .error f ∧ kind f) ∨ ¬ cause ∧ ∃ a, x = .ok a ∧ good a

variable {kind : Fault → Prop} {cause : Prop} {x : Outcome α} {good : α → Prop}

theorem FailsIf.bind {good' : β → Prop} (h : FailsIf kind cause x good)
    (hf : ∀ a, good a → ∃ b, f a = .ok b ∧ good' b) : FailsIf kind cause (x >>= f) good' := by
  rcases h with ⟨hcause, e, rfl, he⟩ | ⟨hfine, a, rfl, ha⟩
  · exact .inl ⟨hcause, e, rfl, he⟩
  · exact .inr ⟨hfine, hf a ha⟩

theorem FailsIf.bind_eq {a : α} {b : β} (h : FailsIf kind cause x (· = a)) (hf : f a = .ok b) :
    FailsIf kind cause (x >>= f) (· = b) :=
  h.bind fun _ ha => ⟨b, ha ▸ hf, rfl⟩

/-- The first item that fails decides for all. -/
theorem FailsIf.mapM {cause : α → Prop} {good : α → β → Prop}
    (h : ∀ x ∈ xs, FailsIf kind (cause x) (f x) (good x)) :
    FailsIf kind (∃ x ∈ xs, cause x) (xs.mapM f) (Forall₂ good xs) := by
  induction xs with
  | nil => exact .inr ⟨by simp, [], rfl, .nil⟩
  | cons x xs ih =>
    rw [mapM_cons]
    rcases h x mem_cons_self with ⟨hcause, e, he, hkind⟩ | ⟨hfine, y, hy, hgood⟩
    · exact .inl ⟨⟨x, mem_cons_self, hcause⟩, e, by rw [he]; rfl, hkind⟩
    rcases ih fun z hz => h z (mem_cons_of_mem _ hz) with
      ⟨⟨z, hz, hcause⟩, e, he, hkind⟩ | ⟨hall, ys, hys, hrest⟩
    · exact .inl ⟨⟨z, mem_cons_of_mem _ hz, hcause⟩, e, by rw [hy, he]; rfl, hkind⟩
    · exact .inr ⟨by simpa [hfine] using hall, y :: ys, by rw [hy, hys]; rfl, .cons hgood hrest⟩

theorem FailsIf.mapM_eq {g : α → β} {cause : α → Prop}
    (h : ∀ x ∈ xs, FailsIf kind (cause x) (f x) (· = g x)) :
    FailsIf kind (∃ x ∈ xs, cause x) (xs.mapM f) (· = xs.map g) := by
  rcases FailsIf.mapM h with hfails | ⟨hfine, ys, hys, heach⟩
  · exact .inl hfails
  · have heq : Forall₂ (· = ·) ys (xs.map g) := forall₂_map_right_iff.mpr heach.flip
    exact .inr ⟨hfine, ys, hys, forall₂_eq_eq_eq ▸ heq⟩

end SheetMill.Outcome
