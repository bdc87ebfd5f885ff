import SheetMill.Database.Service
import SheetMill.Proofs.Retrying

/-!
# Calls that ask the store or the cache

While no outage is planned, a call ends as its work does: neither the connections nor the messages
about it touch what is stored.
-/

namespace SheetMill.Database.Service

open Act

variable {α β κ : Type} {s s₀ s₁ : State} {work : Work Value} {kept : Kept κ} {C : Prop}

/-! ## What does not touch what is stored -/

/-- What is stored, and the outages that are planned. -/
def stored (s : State) : State :=
  { cache := s.cache, collections := s.collections, outages := s.outages }

theorem calm_of_stored (h : stored s₁ = stored s) (hs : s.Calm) : s₁.Calm :=
  (congrArg State.outages h).trans hs

def Passes (work : Work α) : Prop :=
  ∀ s : State, s.Calm → work.Ends s (fun _ s₁ => stored s₁ = stored s) fun _ _ => False

theorem passes_pure (a : α) : Passes (pure a) := fun _ _ => ends_pure rfl

theorem Passes.bind {work : Work α} {next : α → Work β} (h : Passes work)
    (hnext : ∀ a, Passes (next a)) : Passes (work >>= next) :=
  fun s hs => .bind ((h s hs).mono_ok fun a s₁ hs1 =>
    (hnext a s₁ (calm_of_stored hs1 hs)).mono_ok fun _ _ hs2 => hs2.trans hs1)

theorem passes_modify {f : State → State} (h : ∀ s, stored (f s) = stored s) : Passes (modify f) :=
  fun s _ => ends_modify (h s)

theorem passes_say (severity : Severity) (text : String) : Passes (say severity text) :=
  passes_modify fun _ => rfl

theorem passes_sleep (delay : Value) : Passes (sleep delay) := passes_modify fun _ => rfl

theorem passes_announce (target method : String) : Passes (announce target method) :=
  fun _ hs => ends_of_ok (announce_calm hs target method) rfl

theorem passes_fresh : Passes freshLink := fun _ _ => rfl

theorem passes_openStore (coll : String) : Passes (openStore coll) := by
  refine Passes.bind (passes_modify fun _ => rfl) fun _ => ?_
  exact (passes_announce _ _).bind fun _ => passes_fresh.bind fun id => passes_pure _

theorem passes_openCache : Passes openCache := by
  refine Passes.bind (passes_modify fun _ => rfl) fun _ s hs => ?_
  refine .bind (.attempt ((passes_announce _ _ s hs).mono_ok fun _ s₁ hs1 => ?_))
  exact ends_of_ok rfl hs1

theorem storeHealthy_calm (hs : s.Calm) : storeHealthy s = .ok true s :=
  (bind_of_ok (attempt_run (outcome_of_ok (announce_calm hs _ _)))).trans rfl

theorem cacheHealthy_calm (hs : s.Calm) : cacheHealthy s = .ok true s := by
  have hping : Cache.ping s = .ok true s := bind_of_ok (announce_calm hs _ _)
  exact (bind_of_ok (attempt_run (outcome_of_ok hping))).trans rfl

theorem passes_obtain (hopening : Passes kept.opening)
    (hkeep : ∀ link s, stored (kept.keep link s) = stored s)
    (hhealthy : ∀ s, s.Calm → kept.healthy s = .ok true s) (force : Bool) :
    Passes (kept.obtain force) := by
  have hnew : Passes (do
      say .info ("Creating new " ++ kept.label ++ " connection")
      kept.renew) :=
    (passes_say _ _).bind fun _ => hopening.bind fun link =>
      (passes_modify (hkeep link)).bind fun _ => passes_pure _
  intro s hs
  refine .bind (ends_get ?_)
  cases kept.current s with
  | none => exact hnew s hs
  | some link =>
    cases force with
    | true => exact hnew s hs
    | false => exact ends_of_ok ((bind_of_ok (hhealthy s hs)).trans rfl) rfl

/-! ## Attempts -/

/-- A property of calm states that is about what is stored. -/
structure Lasting (P : State → Prop) : Prop where
  calm : ∀ s, P s → s.Calm
  of_stored : ∀ s s₁, stored s₁ = stored s → P s → P s₁

section Attempts

variable {P : State → Prop} {pols : Policies} {op : String}

theorem Lasting.steps {work : Work α} (hP : Lasting P) (h : Passes work) (hs : P s) :
    work.Ends s (fun _ => P) fun _ _ => False :=
  (h s (hP.calm s hs)).mono_ok fun _ s₁ hs1 => hP.of_stored s s₁ hs1 hs

theorem Lasting.ensures {work : Work α} (hP : Lasting P) (h : Passes work) :
    Sustains P work :=
  ensures_iff_ends.mpr fun _ hs => (hP.steps h hs).mono_ok fun _ _ hs1 => ⟨trivial, hs1⟩

variable {Q : Value → State → Prop} (hP : Lasting P)
  (h : ∀ s, P s → work.Ends s Q fun _ s₁ => C ∧ P s₁)

include hP h

def Tries (pols : Policies) : Prop := ∃ n, pols.store.count = .ok (n + 1)

def TriesCache (pols : Policies) : Prop := ∃ n, pols.cache.count = .ok (n + 1)

/-- Attempts go on until the work gives an answer, or no attempt is left, or the work has failed. -/
theorem ends_onSchemas (hs : P s) :
    (onSchemas pols work).Ends s Q fun _ s₁ => (¬ Tries pols ∨ C) ∧ P s₁ := by
  refine Retry.ends_retry _ (fun n s hs => .bind ((hP.steps ?_ hs).mono_ok fun _ => h))
    (fun n delay f => hP.ensures (passes_sleep delay)) (fun _ => hP.ensures (passes_pure _)) hs
  exact passes_obtain (passes_openStore _) (fun _ _ => rfl) (fun _ => storeHealthy_calm) _

theorem ends_onCache (hs : P s) :
    (onCache pols op work).Ends s Q fun _ s₁ => (¬ TriesCache pols ∨ C) ∧ P s₁ := by
  refine Retry.ends_retry _ (fun n s hs => .bind ((hP.steps ?_ hs).mono_ok fun _ => h))
    (fun n delay f => hP.ensures ((passes_say _ _).bind fun _ => passes_sleep delay))
    (fun _ => hP.ensures (passes_say _ _)) hs
  exact passes_obtain passes_openCache (fun _ _ => rfl) (fun _ => cacheHealthy_calm) _

end Attempts

/-- A call ends as its work does, and telling about it touches nothing that is stored. -/
theorem ends_tell {P : State → Prop} {Q : α → State → Prop} {E : Fault → State → Prop}
    {work : Work α} (hP : Lasting P) (hs : P s)
    (h : ∀ s₀, P s₀ → work.Ends s₀ (fun a s₁ => Q a (stored s₁)) fun f s₁ => E f (stored s₁))
    (tag opening failure : String) (closing : α → String) :
    (tell tag opening failure closing work).Ends s (fun a s₁ => Q a (stored s₁))
      fun f s₁ => E f (stored s₁) := by
  refine .bind ((hP.steps (passes_say _ _) hs).mono_ok fun _ s₀ hs0 => .handle (.bind ?_))
  exact (h s₀ hs0).mono (fun a s₁ ha => ha) fun f s₁ hf => ⟨fun _ => hf, fun _ => hf⟩

/-! ## Calls about schemas -/

/-- No outage is planned, and the schemas are those of another state. -/
structure Ready (s s₀ : State) : Prop where
  calm : s₀.Calm
  documents : s₀.documents Schemas.collection = s.documents Schemas.collection

theorem lasting_ready (s : State) : Lasting (Ready s) where
  calm _ hs := hs.calm
  of_stored _ _ h hs := ⟨calm_of_stored h hs.calm,
    (congrArg (·.documents Schemas.collection) h).trans hs.documents⟩

variable {Q : Value → Documents → Prop}

/-- Wherever the schemas are those of a state, the work gives an answer that goes with the schemas then,
or it fails, if it may, and leaves them as they were. -/
def Serves (s : State) (work : Work Value) (Q : Value → Documents → Prop) (C : Prop) : Prop :=
  ∀ s₀, Ready s s₀ →
    work.Ends s₀ (fun v s₁ => Q v (s₁.documents Schemas.collection)) fun _ s₁ => C ∧ Ready s s₁

/-- The answer is one that the work has given. -/
theorem Serves.answered (h : Serves s work Q C) :
    Serves s work (fun v docs => Q v docs ∧ ∃ s₀ s₁, Ready s s₀ ∧ work s₀ = .ok v s₁ ∧
      docs = s₁.documents Schemas.collection) C := by
  intro s₀ hs0
  rcases (h s₀ hs0).cases with ⟨v, s₁, hrun, hv⟩ | ⟨f, s₁, hrun, hf⟩
  · exact ends_of_ok hrun ⟨hv, s₀, s₁, hs0, hrun, rfl⟩
  · exact ends_of_error hrun hf

/-- A call gives the answer of the service made into a message. -/
def Told (Q : Value → Documents → Prop) (read : Value → Outcome α) (a : α) (docs : Documents) : Prop :=
  ∃ v, read v = .ok a ∧ Q v docs

/-- A call fails: the answer cannot be made into a message, or no attempt is made or the service may
fail, and the schemas are as they were. -/
def Refused (pols : Policies) (s : State) (Q : Value → Documents → Prop) (C : Prop)
    (read : Value → Outcome α) (f : Fault) (docs : Documents) : Prop :=
  (∃ v, read v = .error f ∧ Q v docs) ∨
    (¬ Tries pols ∨ C) ∧ docs = s.documents Schemas.collection

def Ending (pols : Policies) (s : State) (Q : Value → Documents → Prop) (C : Prop)
    (read : Value → Outcome α) (call : Work α) : Prop :=
  call.Ends s (fun a s₁ => Told Q read a (s₁.documents Schemas.collection))
    fun f s₁ => Refused pols s Q C read f (s₁.documents Schemas.collection)

theorem ending_tell (hs : s.Calm) (h : Serves s work Q C) (pols : Policies)
    (read : Value → Outcome α) (tag opening failure : String) (closing : α → String) :
    Ending pols s Q C read
      (tell tag opening failure closing do read (← onSchemas pols work)) := by
  refine ends_tell (Q := fun a s₁ => Told Q read a (s₁.documents Schemas.collection))
    (E := fun f s₁ => Refused pols s Q C read f (s₁.documents Schemas.collection))
    (lasting_ready s) ⟨hs, rfl⟩ (fun s₀ hs0 => .bind ?_) _ _ _ _
  refine (ends_onSchemas (lasting_ready s) h hs0).mono (fun v s₁ hv => ?_) fun f s₁ hf =>
    .inr ⟨hf.1, hf.2.documents⟩
  exact ends_lift (fun a hread => ⟨v, hread, hv⟩) fun f hread => .inl ⟨v, hread, hv⟩

/-- A request that is not understood does not reach the service. -/
theorem ending_request {req : Outcome Value} {ask : Value → Work Value} (hs : s.Calm)
    (h : Serves s (do ask (← req)) Q C) (pols : Policies) (read : Value → Outcome α)
    (tag opening failure : String) (closing : α → String) :
    Ending pols s Q C read
      (tell tag opening failure closing do
        let v ← req
        read (← onSchemas pols (ask v))) := by
  cases req with
  | ok v =>
    have hask : Serves s (ask v) Q C := h
    exact ending_tell hs hask pols read tag opening failure closing
  | error f =>
    have hfails : C := (h s ⟨hs, rfl⟩).1
    exact ends_tell (Q := fun a s₁ => Told Q read a (s₁.documents Schemas.collection))
      (E := fun f s₁ => Refused pols s Q C read f (s₁.documents Schemas.collection))
      (lasting_ready s) ⟨hs, rfl⟩
      (fun s₀ hs0 => ends_throw (.inr ⟨.inr hfails, hs0.documents⟩)) _ _ _ _

end SheetMill.Database.Service
