import SheetMill.Database.State
import SheetMill.Proofs.Outcome

/-!
# Work on a calm state

How a computation on a state runs, step by step, and what the calls to the two stores do when no
outage is planned.
-/

namespace SheetMill.Act

open List

variable {σ τ α β : Type} {s s' : σ} {act : Act σ α} {f : α → Act σ β} {handler : Fault → Act σ α}
  {body : α → PUnit → Act σ (ForInStep PUnit)} {xs : List α} {e : Fault} {r : Outcome α}
  {x : Act σ α} {a : α} {put : σ → τ → τ} {part : τ → σ} {t : τ}

theorem bind_of_ok (h : x s = .ok a s') : (x >>= f) s = f a s' := by
  simp only [bind, EStateM.bind, h]

theorem bind_of_error (h : x s = .error e s') : (x >>= f) s = .error e s' := by
  simp only [bind, EStateM.bind, h]

@[simp] theorem pure_run (a : α) (s : σ) : (pure a : Act σ α) s = .ok a s := rfl

@[simp] theorem get_run (s : σ) : (get : Act σ σ) s = .ok s s := rfl

@[simp] theorem lift_ok (a : α) (s : σ) : (liftM (Except.ok a : Outcome α) : Act σ α) s = .ok a s :=
  rfl

theorem lift_of_ok (h : r = .ok a) (s : σ) : (liftM r : Act σ α) s = .ok a s := by
  rw [h, lift_ok]

theorem bind_known (h : r = .ok a) : ((liftM r : Act σ α) >>= f) s = f a s :=
  bind_of_ok (lift_of_ok h s)

theorem lift_of_error (h : r = .error e) (s : σ) : (liftM r : Act σ α) s = .error e s := by
  rw [h]
  rfl

theorem lift_bind (r : Outcome α) (f : α → Outcome β) :
    (liftM (r >>= f) : Act σ β) = liftM r >>= fun a => liftM (f a) := by
  cases r <;> rfl

theorem mapM_of_lift {g : α → Outcome β} (h : ∀ x, f x = liftM (g x)) (xs : List α) :
    xs.mapM f = liftM (xs.mapM g) := by
  induction xs with
  | nil => rfl
  | cons x xs ih =>
    rw [mapM_cons, mapM_cons, lift_bind, h x, ih]
    congr 1
    funext y
    rw [lift_bind]
    rfl

/-- Items that are mapped by reading, where one cannot be read. -/
theorem mapM_of_unread {g : α → β} (h : ∀ x ∈ xs, f x s = .ok (g x) s ∨ f x s = .error e s)
    (hx : ∃ x ∈ xs, f x s = .error e s) : xs.mapM f s = .error e s := by
  induction xs with
  | nil => simp at hx
  | cons x xs ih =>
    rw [forall_mem_cons] at h
    rw [mapM_cons]
    rcases h.1 with hread | hunread
    · obtain ⟨y, hy, hunread⟩ := hx
      have hlater : ∃ x ∈ xs, f x s = .error e s := by
        rcases mem_cons.mp hy with rfl | hy
        · rw [hread] at hunread
          cases hunread
        · exact ⟨y, hy, hunread⟩
      exact (bind_of_ok hread).trans (bind_of_error (ih h.2 hlater))
    · exact bind_of_error hunread

/-- A loop whose every round changes the state as a step of a fold does. -/
theorem forIn_of_foldlM {f : σ → α → Outcome σ}
    (hbody : ∀ x s s', f s x = .ok s' → body x PUnit.unit s = .ok (.yield PUnit.unit) s')
    (h : xs.foldlM f s = .ok s') : (forIn xs PUnit.unit body) s = .ok PUnit.unit s' := by
  induction xs generalizing s with
  | nil =>
    cases h
    rfl
  | cons x xs ih =>
    obtain ⟨next, hnext, h⟩ := Outcome.bind_eq_ok.mp h
    rw [forIn_cons, bind_of_ok (hbody x s next hnext)]
    exact ih h

theorem forIn_of_idle (h : ∀ x ∈ xs, body x PUnit.unit s = .ok (.yield PUnit.unit) s) :
    (forIn xs PUnit.unit body) s = .ok PUnit.unit s := by
  induction xs with
  | nil => rfl
  | cons x xs ih =>
    rw [forIn_cons, bind_of_ok (h x mem_cons_self)]
    exact ih fun y hy => h y (mem_cons_of_mem _ hy)

theorem mapM_of_idle {g : α → β} (h : ∀ x ∈ xs, f x s = .ok (g x) s) :
    xs.mapM f s = .ok (xs.map g) s := by
  induction xs with
  | nil => rfl
  | cons x xs ih =>
    rw [mapM_cons, bind_of_ok (h x mem_cons_self)]
    exact bind_of_ok (ih fun y hy => h y (mem_cons_of_mem _ hy))

theorem bind_eq_ok {b : β} (h : (x >>= f) s = .ok b s') :
    ∃ a s1, x s = .ok a s1 ∧ f a s1 = .ok b s' := by
  cases hx : x s with
  | ok a s1 => exact ⟨a, s1, rfl, (bind_of_ok hx).symm.trans h⟩
  | error e s1 =>
    rw [bind_of_error hx] at h
    cases h

theorem mapM_cons_eq_ok {x : α} {ys : List β} (h : (x :: xs).mapM f s = .ok ys s') :
    ∃ y zs s1, f x s = .ok y s1 ∧ xs.mapM f s1 = .ok zs s' ∧ ys = y :: zs := by
  rw [mapM_cons] at h
  obtain ⟨y, s1, hy, h⟩ := bind_eq_ok h
  obtain ⟨zs, s2, hzs, h⟩ := bind_eq_ok h
  cases h
  exact ⟨y, zs, s1, hy, hzs, rfl⟩

theorem handle_of_ok (h : act s = .ok a s') : act.handle handler s = .ok a s' := by
  simp [handle, h]

theorem handle_of_error (h : act s = .error e s') (he : e.isOrdinary = true) :
    act.handle handler s = handler e s' := by
  simp [handle, h, he]

theorem handle_of_stop (h : act s = .error e s') (he : e.isOrdinary = false) :
    act.handle handler s = .error e s' := by
  simp [handle, h, he]

theorem within_of_ok (h : act (part t) = .ok a s') : act.within part put t = .ok a (put s' t) := by
  simp [within, h]

theorem within_of_error (h : act (part t) = .error e s') :
    act.within part put t = .error e (put s' t) := by
  simp [within, h]

theorem outcome_of_error (h : act s = .error e s') : act.outcome s = (.error e, s') := by
  simp [outcome, h]

theorem outcome_of_ok (h : act s = .ok a s') : act.outcome s = (.ok a, s') := by
  simp [outcome, h]

theorem outcome_bind_of_ok (h : x s = .ok a s') : (x >>= f).outcome s = (f a).outcome s' := by
  unfold outcome
  rw [bind_of_ok h]

theorem outcome_bind_pure (x : Act σ α) (b : β) (s : σ) :
    ((x >>= fun _ => pure b).outcome s).2 = (x.outcome s).2 := by
  cases hrun : x s with
  | ok a s' => rw [outcome_bind_of_ok hrun, outcome_of_ok hrun, outcome_of_ok (pure_run b s')]
  | error e s' => rw [outcome_of_error (bind_of_error hrun), outcome_of_error hrun]

/-- A handler that only answers leaves the state as it finds it. -/
theorem handle_state (act : Act σ α) (handler : Fault → α) (s : σ) :
    ((act.handle fun f => return handler f).outcome s).2 = (act.outcome s).2 := by
  cases hrun : act s with
  | ok a s' => rw [outcome_of_ok (handle_of_ok hrun), outcome_of_ok hrun]
  | error e s' =>
    cases he : e.isOrdinary with
    | true => rw [outcome_of_ok ((handle_of_error hrun he).trans rfl), outcome_of_error hrun]
    | false => rw [outcome_of_error (handle_of_stop hrun he), outcome_of_error hrun]

theorem attempt_run (h : act.outcome s = (r, s')) : act.attempt s = .ok r s' := by
  unfold outcome at h
  unfold attempt
  cases hrun : act s with
  | ok a s1 =>
    rw [hrun] at h
    cases h
    rfl
  | error f s1 =>
    rw [hrun] at h
    cases h
    rfl

/-! ## How a computation ends -/

section Ends

variable {Q Q' : α → σ → Prop} {E E' : Fault → σ → Prop}

/-- From a state on, the computation ends with a result and a state of the first kind or with a fault
and a state of the second kind. -/
def Ends (act : Act σ α) (s : σ) (Q : α → σ → Prop) (E : Fault → σ → Prop) : Prop :=
  match act s with
  | .ok a s' => Q a s'
  | .error f s' => E f s'

/-- However the computation ends, its last state has the property. -/
abbrev Leaves (act : Act σ α) (s : σ) (P : σ → Prop) : Prop := act.Ends s (fun _ => P) fun _ => P

theorem Ends.of_eq {act' : Act σ α} (h : act'.Ends s' Q E) (hrun : act s = act' s') :
    act.Ends s Q E := by
  unfold Ends
  rw [hrun]
  exact h

theorem ends_of_ok (h : act s = .ok a s') (hQ : Q a s') : act.Ends s Q E := by
  unfold Ends
  rw [h]
  exact hQ

theorem ends_of_error (h : act s = .error e s') (hE : E e s') : act.Ends s Q E := by
  unfold Ends
  rw [h]
  exact hE

theorem Ends.cases (h : act.Ends s Q E) :
    (∃ a s', act s = .ok a s' ∧ Q a s') ∨ ∃ f s', act s = .error f s' ∧ E f s' := by
  unfold Ends at h
  cases hrun : act s with
  | ok a s' =>
    rw [hrun] at h
    exact .inl ⟨a, s', rfl, h⟩
  | error f s' =>
    rw [hrun] at h
    exact .inr ⟨f, s', rfl, h⟩

theorem ends_pure (h : Q a s) : (pure a : Act σ α).Ends s Q E := h

theorem ends_throw {f : Fault} (h : E f s) : (throw f : Act σ α).Ends s Q E := h

theorem ends_get {Q : σ → σ → Prop} (h : Q s s) : (get : Act σ σ).Ends s Q E := h

theorem ends_modify {Q : PUnit → σ → Prop} {f : σ → σ} (h : Q PUnit.unit (f s)) :
    (modify f : Act σ PUnit).Ends s Q E := h

theorem ends_lift (hok : ∀ a, r = .ok a → Q a s) (herr : ∀ f, r = .error f → E f s) :
    (liftM r : Act σ α).Ends s Q E := by
  cases r with
  | ok a => exact hok a rfl
  | error f => exact herr f rfl

theorem Ends.mono (h : act.Ends s Q E) (hQ : ∀ a s', Q a s' → Q' a s')
    (hE : ∀ f s', E f s' → E' f s') : act.Ends s Q' E' := by
  rcases h.cases with ⟨a, s', hrun, ha⟩ | ⟨f, s', hrun, hf⟩
  · exact ends_of_ok hrun (hQ a s' ha)
  · exact ends_of_error hrun (hE f s' hf)

theorem Ends.mono_ok (h : act.Ends s Q fun _ _ => False) (hQ : ∀ a s', Q a s' → Q' a s') :
    act.Ends s Q' E' :=
  h.mono hQ fun _ _ hfalse => hfalse.elim

theorem Leaves.imp {P P' : σ → Prop} (h : act.Leaves s P) (hP : ∀ s', P s' → P' s') :
    act.Leaves s P' := Ends.mono h (fun _ => hP) fun _ => hP

/-- The rest of a computation starts where its first step ends. -/
theorem Ends.bind {Q : β → σ → Prop} (h : x.Ends s (fun a s' => (f a).Ends s' Q E) E) :
    (x >>= f).Ends s Q E := by
  rcases h.cases with ⟨a, s', hrun, ha⟩ | ⟨e, s', hrun, he⟩
  · exact ha.of_eq (bind_of_ok hrun)
  · exact ends_of_error (bind_of_error hrun) he

theorem Ends.known {Q : β → σ → Prop} (h : r = .ok a) (hnext : (f a).Ends s Q E) :
    ((liftM r : Act σ α) >>= f).Ends s Q E :=
  hnext.of_eq (bind_known h)

theorem Ends.given {Q : β → σ → Prop} (hok : ∀ a, r = .ok a → (f a).Ends s Q E)
    (herr : ∀ e, r = .error e → E e s) : ((liftM r : Act σ α) >>= f).Ends s Q E :=
  .bind (ends_lift hok herr)

theorem Ends.get {Q : β → σ → Prop} {f : σ → Act σ β} (h : (f s).Ends s Q E) :
    (MonadState.get >>= f).Ends s Q E := .bind (ends_get h)

/-- A handler starts where the computation failed, unless it was asked to stop. -/
theorem Ends.handle (h : act.Ends s Q fun f s' =>
      (f.isOrdinary = true → (handler f).Ends s' Q E) ∧ (f.isOrdinary = false → E f s')) :
    (act.handle handler).Ends s Q E := by
  rcases h.cases with ⟨a, s', hrun, ha⟩ | ⟨f, s', hrun, hhandled, hstopped⟩
  · exact ends_of_ok (handle_of_ok hrun) ha
  · cases hord : f.isOrdinary with
    | true => exact (hhandled hord).of_eq (handle_of_error hrun hord)
    | false => exact ends_of_error (handle_of_stop hrun hord) (hstopped hord)

theorem Ends.attempt {Q : Outcome α → σ → Prop}
    (h : act.Ends s (fun a s' => Q (.ok a) s') fun f s' => Q (.error f) s') :
    act.attempt.Ends s Q E := by
  rcases h.cases with ⟨a, s', hrun, ha⟩ | ⟨f, s', hrun, hf⟩
  · exact ends_of_ok (attempt_run (outcome_of_ok hrun)) ha
  · exact ends_of_ok (attempt_run (outcome_of_error hrun)) hf

theorem Ends.forIn {P : σ → Prop} (h : ∀ x ∈ xs, ∀ s, P s → (body x PUnit.unit).Ends s
      (fun next s' => next = .yield PUnit.unit ∧ P s') fun _ _ => False) (hs : P s) :
    (forIn xs PUnit.unit body).Ends s (fun _ => P) fun _ _ => False := by
  induction xs generalizing s with
  | nil => exact ends_pure hs
  | cons x xs ih =>
    rw [forIn_cons]
    refine .bind ((h x mem_cons_self s hs).mono_ok ?_)
    rintro _ s' ⟨rfl, hs'⟩
    exact ih (fun y hy => h y (mem_cons_of_mem _ hy)) hs'

theorem Ends.within {Q : α → τ → Prop} {E : Fault → τ → Prop}
    (h : act.Ends (part t) (fun a s' => Q a (put s' t)) fun f s' => E f (put s' t)) :
    (act.within part put).Ends t Q E := by
  rcases h.cases with ⟨a, s', hrun, ha⟩ | ⟨f, s', hrun, hf⟩
  · exact ends_of_ok (within_of_ok hrun) ha
  · exact ends_of_error (within_of_error hrun) hf

/-- The end that is known of a computation is that of its outcome. -/
theorem Ends.outcome {R : Outcome α → σ → Prop}
    (h : act.Ends s (fun a s' => R (.ok a) s') fun f s' => R (.error f) s') :
    R (act.outcome s).1 (act.outcome s).2 := by
  rcases h.cases with ⟨a, s', hrun, ha⟩ | ⟨f, s', hrun, hf⟩
  · rw [outcome_of_ok hrun]
    exact ha
  · rw [outcome_of_error hrun]
    exact hf

end Ends

/-! ## What a computation keeps -/

section Ensures

variable {P : σ → Prop} {Q : α → Prop} {R : β → Prop}

/-- The computation keeps a property of the state, whatever its outcome, and its result has another
one. -/
def Ensures (P : σ → Prop) (act : Act σ α) (Q : α → Prop) : Prop :=
  ∀ s, P s → match act s with
    | .ok a s' => Q a ∧ P s'
    | .error _ s' => P s'

/-- The computation keeps a property of the state, whatever its outcome. -/
abbrev Sustains (P : σ → Prop) (act : Act σ α) : Prop := Ensures P act fun _ => True

theorem ensures_iff_ends :
    Ensures P act Q ↔ ∀ s, P s → act.Ends s (fun a s' => Q a ∧ P s') fun _ => P := Iff.rfl

theorem Ensures.ends (h : Ensures P act Q) (hs : P s) :
    act.Ends s (fun a s' => Q a ∧ P s') fun _ => P := h s hs

theorem Ensures.leaves (h : Ensures P act Q) (hs : P s) : act.Leaves s P :=
  (h.ends hs).mono (fun _ _ ha => ha.2) fun _ _ hf => hf

theorem Ensures.state (h : Ensures P act Q) (hs : P s) : P (act.outcome s).2 :=
  Ends.outcome (R := fun _ => P) (h.leaves hs)

theorem Ensures.of_run
    (h : ∀ s, P s → (∃ a s', act s = .ok a s' ∧ Q a ∧ P s') ∨ ∃ e s', act s = .error e s' ∧ P s') :
    Ensures P act Q := by
  refine ensures_iff_ends.mpr fun s hs => ?_
  rcases h s hs with ⟨a, s', hrun, ha⟩ | ⟨e, s', hrun, hs'⟩
  · exact ends_of_ok hrun ha
  · exact ends_of_error hrun hs'

theorem Ensures.of_outcome (h : ∀ s, P s → P (act.outcome s).2) :
    Sustains P act := by
  refine .of_run fun s hs => ?_
  have hlast := h s hs
  cases hrun : act s with
  | ok a s' =>
    rw [outcome_of_ok hrun] at hlast
    exact .inl ⟨a, s', rfl, trivial, hlast⟩
  | error f s' =>
    rw [outcome_of_error hrun] at hlast
    exact .inr ⟨f, s', rfl, hlast⟩

theorem ensures_pure (h : Q a) : Ensures P (pure a) Q := fun _ hs => ⟨h, hs⟩

theorem ensures_lift (h : ∀ a, r = .ok a → Q a) : Ensures P (liftM r : Act σ α) Q :=
  ensures_iff_ends.mpr fun _ hs => ends_lift (fun a ha => ⟨h a ha, hs⟩) fun _ _ => hs

theorem ensures_any (r : Outcome α) : Sustains P (liftM r : Act σ α) :=
  ensures_lift fun _ _ => trivial

theorem ensures_throw (f : Fault) : Ensures P (throw f) Q := fun _ hs => hs

theorem ensures_get : Ensures P get P := fun _ hs => ⟨hs, hs⟩

theorem ensures_set (h : P s') : Sustains P (set s') := fun _ _ => ⟨trivial, h⟩

theorem ensures_modify {f : σ → σ} (h : ∀ s, P s → P (f s)) :
    Sustains P (modify f) := fun s hs => ⟨trivial, h s hs⟩

theorem ensures_of_idle (h : ∀ s, P s → ∃ r : Outcome α, act s = (liftM r : Act σ α) s ∧
    ∀ a, r = .ok a → Q a) : Ensures P act Q := by
  refine ensures_iff_ends.mpr fun s hs => ?_
  obtain ⟨r, hact, hr⟩ := h s hs
  exact ((ensures_lift hr).ends hs).of_eq hact

/-- What follows a step may rely on the result of the step. -/
theorem Ensures.bind (hx : Ensures P x Q) (hf : ∀ a, Q a → Ensures P (f a) R) :
    Ensures P (x >>= f) R :=
  ensures_iff_ends.mpr fun _ hs =>
    Ends.bind ((hx.ends hs).mono (fun a _ ha => (hf a ha.1).ends ha.2) fun _ _ he => he)

theorem Ensures.given (hf : ∀ a, r = .ok a → Ensures P (f a) R) :
    Ensures P ((liftM r : Act σ α) >>= f) R :=
  (ensures_lift fun _ h => h).bind hf

theorem Ensures.read (hf : ∀ a, Ensures P (f a) R) : Ensures P ((liftM r : Act σ α) >>= f) R :=
  .given fun a _ => hf a

theorem Ensures.known (h : r = .ok a) (hf : Ensures P (f a) R) :
    Ensures P ((liftM r : Act σ α) >>= f) R :=
  ensures_iff_ends.mpr fun _ hs => (hf.ends hs).known h

theorem Ensures.handle (h : Ensures P act Q) (hhandler : ∀ f, Ensures P (handler f) Q) :
    Ensures P (act.handle handler) Q :=
  ensures_iff_ends.mpr fun _ hs => .handle ((h.ends hs).mono (fun _ _ ha => ha)
    fun f _ hs' => ⟨fun _ => (hhandler f).ends hs', fun _ => hs'⟩)

theorem Ensures.attempt (h : Ensures P act Q) : Sustains P act.attempt :=
  ensures_iff_ends.mpr fun _ hs => .attempt
    ((h.leaves hs).mono (fun _ _ hs' => ⟨trivial, hs'⟩) fun _ _ hs' => ⟨trivial, hs'⟩)

theorem Ensures.within (h : Ensures P act Q) (hput : ∀ s t, part (put s t) = s) :
    Ensures (fun t => P (part t)) (act.within part put) Q := by
  refine ensures_iff_ends.mpr fun t ht => .within ?_
  simpa only [hput] using h.ends ht

theorem Ensures.mapM (h : ∀ x ∈ xs, Ensures P (f x) R) :
    Ensures P (xs.mapM f) fun ys => ∀ y ∈ ys, R y := by
  induction xs with
  | nil => exact ensures_pure (by simp)
  | cons x xs ih =>
    rw [mapM_cons]
    refine (h x mem_cons_self).bind fun y hy => ?_
    refine (ih fun z hz => h z (mem_cons_of_mem _ hz)).bind fun ys hys => ?_
    exact ensures_pure (forall_mem_cons.mpr ⟨hy, hys⟩)

theorem Ensures.forIn (h : ∀ x ∈ xs, Ensures P (body x PUnit.unit) (· = .yield PUnit.unit)) :
    Sustains P (forIn xs PUnit.unit body) := by
  induction xs with
  | nil => exact ensures_pure trivial
  | cons x xs ih =>
    rw [forIn_cons]
    refine (h x mem_cons_self).bind ?_
    rintro _ rfl
    exact ih fun y hy => h y (mem_cons_of_mem _ hy)

end Ensures

section Keeps

variable {view : σ → β}

/-- The computation leaves what is seen of the state as it is, whatever its outcome. -/
def Keeps (act : Act σ α) (view : σ → β) : Prop :=
  ∀ x, Ensures (fun s => view s = x) act fun _ => True

theorem Keeps.state (h : act.Keeps view) (s : σ) :
    view (act.outcome s).2 = view s := (h (view s)).state rfl

theorem Keeps.bind {γ : Type} {next : α → Act σ γ} (h : act.Keeps view)
    (hnext : ∀ a, (next a).Keeps view) : (act >>= next).Keeps view :=
  fun x => (h x).bind fun a _ => hnext a x

theorem Keeps.attempt (h : act.Keeps view) : act.attempt.Keeps view :=
  fun x => (h x).attempt

theorem Keeps.handle (h : act.Keeps view) (hhandler : ∀ f, (handler f).Keeps view) :
    (act.handle handler).Keeps view :=
  fun x => (h x).handle fun f => hhandler f x

theorem Keeps.mono {γ : Type} (h : act.Keeps view) (f : β → γ) :
    act.Keeps fun s => f (view s) := by
  intro x
  refine .of_outcome fun s hs => ?_
  exact (congrArg f (h.state s)).trans hs

theorem Keeps.ensures {P : σ → Prop} (h : act.Keeps view)
    (hP : ∀ s s', view s' = view s → P s → P s') : Sustains P act :=
  .of_outcome fun s hs => hP s _ (h.state s) hs

theorem keeps_lift (r : Outcome α) : (liftM r : Act σ α).Keeps view := fun _ => ensures_any r

theorem keeps_pure (a : α) : (pure a : Act σ α).Keeps view := fun _ => ensures_pure trivial

theorem keeps_throw (f : Fault) : (throw f : Act σ α).Keeps view := fun _ => ensures_throw f

theorem keeps_get : (get : Act σ σ).Keeps view := fun _ _ hs => ⟨trivial, hs⟩

theorem keeps_modify {f : σ → σ} (h : ∀ s, view (f s) = view s) :
    (modify f : Act σ PUnit).Keeps view :=
  fun _ => ensures_modify fun s hs => (h s).trans hs

end Keeps

section Gives

variable {g : α → Outcome β} {c : Prop} [Decidable c] {tell : Act σ PUnit} {next : PUnit → Act σ α}

/-- The computation ends with the same outcome in every state. -/
def Gives (act : Act σ α) (r : Outcome α) : Prop :=
  ∀ s, act.Ends s (fun a _ => r = .ok a) fun f _ => r = .error f

theorem Gives.outcome (h : act.Gives r) (s : σ) : (act.outcome s).1 = r :=
  (Ends.outcome (R := fun r' _ => r = r') (h s)).symm

theorem gives_pure (a : α) : (pure a : Act σ α).Gives (.ok a) := fun _ => rfl

theorem gives_throw (f : Fault) : (throw f : Act σ α).Gives (.error f) := fun _ => rfl

theorem gives_lift (r : Outcome α) : (liftM r : Act σ α).Gives r :=
  fun _ => ends_lift (fun _ h => h) fun _ h => h

theorem Gives.bind (hx : x.Gives r) (hf : ∀ a, (f a).Gives (g a)) : (x >>= f).Gives (r >>= g) := by
  refine fun s => .bind ((hx s).mono (fun a s' ha => ?_) fun f _ hf => ?_)
  · rw [ha]
    exact hf a s'
  · rw [hf]
    rfl

/-- A handler that passes the fault on does not change the outcome. -/
theorem Gives.handle (h : act.Gives r) (hhandler : ∀ f, (handler f).Gives (.error f)) :
    (act.handle handler).Gives r := by
  refine fun s => .handle ((h s).mono (fun _ _ ha => ha) fun f s' hf => ⟨fun _ => ?_, fun _ => hf⟩)
  rw [hf]
  exact hhandler f s'

/-- Nor do steps that only tell about the work. -/
theorem Gives.after (htell : tell.Gives (.ok ())) (h : (next ⟨⟩).Gives r) :
    (tell >>= next).Gives r :=
  htell.bind fun _ => h

theorem Gives.told (htell : tell.Gives (.ok ())) (h : (next ⟨⟩).Gives r) :
    (if c then tell >>= next else next ⟨⟩).Gives r := by
  split
  · exact htell.after h
  · exact h

theorem Gives.then {tell : α → Act σ Unit} (h : act.Gives r)
    (htell : ∀ a, (tell a).Gives (.ok ())) : (do let a ← act; tell a; return a).Gives r := by
  have hall := h.bind fun a => (htell a).bind fun _ => gives_pure a
  cases r <;> exact hall

end Gives

end SheetMill.Act

namespace SheetMill.Outage

open List

variable {ε : Type}

/-- What can be struck by an outage stays the same. -/
theorem strike_effects (target method : String) (outages : List (Outage ε)) :
    (strike target method outages).2.map (·.effect) = outages.map (·.effect) := by
  induction outages with
  | nil => rfl
  | cons o rest ih =>
    unfold strike
    split_ifs
    · simp [ih]
    · rfl
    · simp [ih]
    · simp [ih]

theorem strike_mem {target method : String} {outages : List (Outage ε)} {e : ε}
    (h : (strike target method outages).1 = some e) : e ∈ outages.map (·.effect) := by
  induction outages with
  | nil => cases h
  | cons o rest ih =>
    unfold strike at h
    split_ifs at h
    · exact mem_cons_of_mem _ (ih h)
    · cases h
      exact mem_cons_self
    · exact mem_cons_of_mem _ (ih h)
    · exact mem_cons_of_mem _ (ih h)

end SheetMill.Outage

namespace SheetMill.Database

open Act

variable {s : State} {α : Type} {work : Act Documents α}

def State.Calm (s : State) : Prop := s.outages = []

theorem announce_calm (hs : s.Calm) (target method : String) :
    announce target method s = .ok () s := by
  obtain ⟨cache, collections, nextDocument, outages⟩ := s
  cases hs
  rfl

theorem announce_get (hs : s.Calm) (target method : String) (next : State → Work α) :
    (do announce target method; next (← get) : Work α) s = next s s :=
  (bind_of_ok (announce_calm hs target method)).trans (bind_of_ok (get_run s))

/-! ## Collections -/

@[simp] theorem documents_withDocuments (s : State) (coll : String) (docs : Documents) :
    (s.withDocuments coll docs).documents coll = docs := by
  unfold State.withDocuments State.documents
  induction s.collections with
  | nil => simp [State.withDocuments.putDocuments]
  | cons entry rest ih =>
    obtain ⟨name, old⟩ := entry
    by_cases h : name = coll
    · simp [State.withDocuments.putDocuments, h]
    · have hne : (coll == name) = false := beq_eq_false_iff_ne.mpr (Ne.symm h)
      simpa [State.withDocuments.putDocuments, List.lookup, h, hne] using ih

@[simp] theorem withDocuments_withDocuments (s : State) (coll : String)
    (docs docs' : Documents) :
    (s.withDocuments coll docs).withDocuments coll docs' =
      s.withDocuments coll docs' := by
  unfold State.withDocuments
  induction s.collections with
  | nil => simp [State.withDocuments.putDocuments]
  | cons entry rest ih =>
    obtain ⟨name, old⟩ := entry
    by_cases h : name = coll
    · simp [State.withDocuments.putDocuments, h]
    · simpa [State.withDocuments.putDocuments, h] using ih

/-- The state after a look at its documents. -/
abbrev State.reread (s : State) (coll : String) : State :=
  s.withDocuments coll (s.documents coll)

namespace Documents

variable {coll : String}

theorem within_calm {method : String} {a : α} {docs : Documents} (hs : s.Calm)
    (h : work (s.documents coll) = .ok a docs) :
    within coll method work s = .ok a (s.withDocuments coll docs) := by
  exact (bind_of_ok (announce_calm hs _ _)).trans (within_of_ok h)

theorem within_refused {method : String} {e : Fault} {docs : Documents} (hs : s.Calm)
    (h : work (s.documents coll) = .error e docs) :
    within coll method work s = .error e (s.withDocuments coll docs) := by
  exact (bind_of_ok (announce_calm hs _ _)).trans (within_of_error h)

end Documents

end SheetMill.Database

namespace SheetMill.Act

/-! ## Computations from related states -/

variable {σ α β : Type} {R : σ → σ → Prop} {f : σ → σ} {act : Act σ α} {next : α → Act σ β}

/-- From related states the computation has the same end, and the last states are related. -/
def Alike (R : σ → σ → Prop) (act : Act σ α) : Prop :=
  ∀ s t, R s t → act.Ends s (fun a s' => ∃ t', act t = .ok a t' ∧ R s' t')
    fun e s' => ∃ t', act t = .error e t' ∧ R s' t'

theorem Alike.outcome (h : act.Alike R) {s t : σ} (hst : R s t) :
    (act.outcome t).1 = (act.outcome s).1 ∧ R (act.outcome s).2 (act.outcome t).2 := by
  have hs := h s t hst
  unfold Ends at hs
  cases hrun : act s with
  | ok a s' =>
    rw [hrun] at hs
    obtain ⟨t', ht, hst'⟩ := hs
    rw [outcome_of_ok hrun, outcome_of_ok ht]
    exact ⟨rfl, hst'⟩
  | error e s' =>
    rw [hrun] at hs
    obtain ⟨t', ht, hst'⟩ := hs
    rw [outcome_of_error hrun, outcome_of_error ht]
    exact ⟨rfl, hst'⟩

theorem alike_lift (r : Outcome α) : (liftM r : Act σ α).Alike R := by
  intro s t hst
  exact ends_lift (fun a ha => ⟨t, lift_of_ok ha t, hst⟩) fun e he => ⟨t, lift_of_error he t, hst⟩

theorem alike_pure (a : α) : (pure a : Act σ α).Alike R := alike_lift (.ok a)

theorem alike_modify {g : σ → σ} (h : ∀ s t, R s t → R (g s) (g t)) :
    (modify g : Act σ PUnit).Alike R :=
  fun s t hst => ⟨g t, rfl, h s t hst⟩

theorem Alike.bind {x : Act σ α} (hx : x.Alike R) (hnext : ∀ a, (next a).Alike R) :
    (x >>= next).Alike R := by
  intro s t hst
  refine .bind ((hx s t hst).mono ?_ ?_)
  · rintro a s' ⟨t', ht', hst'⟩
    have hrun : (x >>= next) t = next a t' := bind_of_ok ht'
    rw [hrun]
    exact hnext a s' t' hst'
  · rintro e s' ⟨t', ht', hst'⟩
    exact ⟨t', bind_of_error ht', hst'⟩

theorem Alike.read {r : Outcome α} (hnext : ∀ a, (next a).Alike R) :
    ((liftM r : Act σ α) >>= next).Alike R := (alike_lift r).bind hnext

theorem alike_get {next : σ → Act σ β} (hsame : ∀ s t, R s t → next t = next s)
    (hnext : ∀ s, (next s).Alike R) : (get >>= next).Alike R := by
  intro s t hst
  have hrun : (get >>= next) t = next s t := congrArg (· t) (hsame s t hst)
  rw [hrun]
  exact hnext s s t hst

theorem Alike.handle {handler : Fault → Act σ α} (h : act.Alike R)
    (hhandler : ∀ e, (handler e).Alike R) : (act.handle handler).Alike R := by
  intro s t hst
  refine .handle ((h s t hst).mono ?_ ?_)
  · rintro a s' ⟨t', ht', hst'⟩
    exact ⟨t', handle_of_ok ht', hst'⟩
  · rintro e s' ⟨t', ht', hst'⟩
    refine ⟨fun hord => ?_, fun hstop => ⟨t', handle_of_stop ht' hstop, hst'⟩⟩
    rw [handle_of_error ht' hord]
    exact hhandler e s' t' hst'

theorem Alike.forIn {body : α → PUnit → Act σ (ForInStep PUnit)}
    (h : ∀ x, (body x PUnit.unit).Alike R) (xs : List α) :
    (forIn xs PUnit.unit body).Alike R := by
  induction xs with
  | nil => exact alike_pure _
  | cons x xs ih =>
    rw [List.forIn_cons]
    refine (h x).bind fun step => ?_
    cases step with
    | done => exact alike_pure _
    | yield => exact ih

theorem alike_throw (e : Fault) : (throw e : Act σ α).Alike R := alike_lift (.error e)

/-- From a changed state the computation has the same end, changed in the same way. -/
abbrev Commutes (f : σ → σ) (act : Act σ α) : Prop := act.Alike fun s t => t = f s

theorem Commutes.outcome (h : act.Commutes f) (s : σ) :
    act.outcome (f s) = ((act.outcome s).1, f (act.outcome s).2) :=
  Prod.ext_iff.mpr (Alike.outcome h rfl)

theorem commutes_modify {g : σ → σ} (h : ∀ s, g (f s) = f (g s)) :
    (modify g : Act σ PUnit).Commutes f := by
  refine alike_modify ?_
  rintro s t rfl
  exact h s

theorem commutes_get {next : σ → Act σ β} (hsame : ∀ s, next (f s) = next s)
    (hnext : ∀ s, (next s).Commutes f) : (get >>= next).Commutes f := by
  refine alike_get ?_ hnext
  rintro s t rfl
  exact hsame s

end SheetMill.Act
