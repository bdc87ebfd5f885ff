import SheetMill.Checking.Consumer
import SheetMill.Proofs.BrokerCalls
import SheetMill.Proofs.Retrying
import SheetMill.Proofs.Value

/-!
# The sessions of a consumer

After a session that broke a consumer begins another one as long as its streak of failures is
shorter than the number of attempts; a failure after a stable session begins a new streak. When the
attempts are used up the consumer closes its connections and returns, as if it had been stopped.
-/

namespace SheetMill.Checking

open Act Value Broker

/-- The second state is the first one after a wait, and after it was told. -/
def Consuming.Waited (s s' : Consuming) (delay : Value) : Prop :=
  ∃ journal, s' =
    { s with broker := { s.broker with journal, sleeps := s.broker.sleeps ++ [delay] } }

namespace Consumer

variable {consumer : Consumer} {n : Nat} {wait : Nat → Value} {s s' s₁ s₂ start : Consuming}
  {us : List Amount} {u : Amount}

/-! ## Streaks -/

def endures (consumer : Consumer) (uptime : Amount) : Bool :=
  (consumer.isStable uptime).toOption.getD false

/-- How many failures there were since the last one after a stable session, with that one. -/
def streak (consumer : Consumer) : List Amount → Nat
  | [] => 0
  | u :: us => (if consumer.endures u then 0 else consumer.streak us) + 1

/-- The waits after the sessions: each failure of a streak has its own. -/
def pauses (consumer : Consumer) (wait : Nat → Value) : List Amount → List Value
  | [] => []
  | u :: us => consumer.pauses wait us ++ [wait (consumer.streak (u :: us) - 1)]

/-- The consumer makes up to `n` attempts with the given waits, and can tell a stable session. -/
structure Perseveres (consumer : Consumer) (n : Nat) (wait : Nat → Value) : Prop extends
    consumer.policy.Allows n wait where
  attempts : consumer.policy.attempts = .int n
  threshold : consumer.threshold.IsNumber

theorem Perseveres.isStable (hp : consumer.Perseveres n wait) (u : Amount) :
    consumer.isStable u = .ok (consumer.endures u) := by
  have hu : u.toValue.IsNumber := by cases u <;> rfl
  obtain ⟨b, hb⟩ := hu.atLeast hp.threshold
  rw [endures, Consumer.isStable, hb]
  rfl

/-! ## One session -/

theorem clock_run (s : Consuming) : clock s = .ok s.broker.clock s := rfl

theorem isBroker_of_passing {f g : Fault} (h : passing? (.error f) = some g) :
    f.isBroker = true := by
  cases f with
  | broker fault detail => rfl
  | _ => cases h

/-- A session only connects, and where it breaks a planned failure is used up. -/
theorem ends_session (consumer : Consumer) (since : Amount) (s : Consuming) :
    (consumer.session since).Ends s
      (fun p s' => s.broker.Reaches s'.broker ∧ ((passing? p.1).isSome = true →
        Outage.total s'.broker.outages < Outage.total s.broker.outages)) fun _ _ => False := by
  have hput : ∀ (b : State) (s : Consuming), { s with broker := b }.broker = b := fun _ _ => rfl
  have hsay : ∀ severity text, Connects Consuming.broker (consumer.say severity text) :=
    fun _ _ => connects_modify fun _ => ⟨rfl, rfl, rfl⟩
  have hcall : ∀ {name : String}, name ≠ "basic_publish" → ∀ arguments channel,
      Connects Consuming.broker (onBroker (Broker.call name arguments channel)) :=
    fun hname arguments channel => .within (connects_call hname arguments channel) hput
  have hbroken : ∀ {f : Fault} {s' : Consuming}, (f.isBroker = true →
      Outage.total s'.broker.outages < Outage.total s.broker.outages) →
      (passing? (.error f)).isSome = true →
      Outage.total s'.broker.outages < Outage.total s.broker.outages := fun hlt hf =>
    hlt (isBroker_of_passing (Option.isSome_iff_exists.mp hf).choose_spec)
  refine .bind (.attempt (((?_ : Connects Consuming.broker _) s.broker s (.refl _)).mono
    (fun channel s1 h1 => ?_) fun f s1 h1 => ends_pure ⟨h1.1, hbroken h1.2⟩))
  · refine .bind (.within (connects_threadConnection _) hput) fun _ => ?_
    refine .bind (.within (connects_threadChannel _) hput) fun channel => ?_
    refine .bind (connects_modify fun _ => ⟨rfl, rfl, rfl⟩) fun _ => ?_
    refine .bind (.within (connects_declareQueues _) hput) fun _ => ?_
    refine .bind (hcall (by decide) _ _) fun _ => .bind (hcall (by decide) _ _) fun _ => ?_
    refine .bind (hsay _ _) fun _ => .bind (.get fun _ => connects_pure _) fun _ => ?_
    exact .bind (hsay _ _) fun _ => connects_pure _
  · refine .bind (ends_of_ok (clock_run s1) (.bind (.attempt
      (((?_ : Connects Consuming.broker _) s.broker s1 h1).mono
        (fun _ s2 h2 => ends_pure ⟨h2, by simp [passing?]⟩)
        fun f s2 h2 => ends_pure ⟨h2.1, hbroken h2.2⟩))))
    exact .bind (hcall (by decide) _ _) fun _ => hsay _ _

/-- The session that begins in the first state breaks after the given time. -/
def Breaks (consumer : Consumer) (s : Consuming) (uptime : Amount) (s' : Consuming) : Prop :=
  ∃ ended since, consumer.session s.broker.clock s = .ok (ended, since) s' ∧
    (passing? ended).isSome = true ∧ uptime = s'.broker.clock.minus since

/-- The course of a consumer: the sessions that broke, and the state after the last of them and the
wait that follows it. -/
inductive Trail (consumer : Consumer) (n : Nat) (wait : Nat → Value) (start : Consuming) :
    List Amount → Consuming → Prop
  | begin (journal : Journal) :
      Trail consumer n wait start [] { start with broker := { start.broker with journal } }
  | again {us : List Amount} {u : Amount} {s s₁ s₂ : Consuming} (h : Trail consumer n wait start us s)
      (hlt : consumer.streak us < n) (hbreaks : consumer.Breaks s u s₁)
      (hwaited : s₁.Waited s₂ (wait (consumer.streak (u :: us) - 1))) :
      Trail consumer n wait start (u :: us) s₂

theorem Trail.sleeps (h : consumer.Trail n wait start us s) :
    s.broker.sleeps = start.broker.sleeps ++ consumer.pauses wait us := by
  induction h with
  | begin journal => exact (List.append_nil _).symm
  | @again us u s s₁ s₂ _ _ hbreaks hwaited ih =>
    obtain ⟨ended, since, hrun, -, -⟩ := hbreaks
    obtain ⟨journal, rfl⟩ := hwaited
    have hends := consumer.ends_session s.broker.clock s
    unfold Ends at hends
    rw [hrun] at hends
    have hsleeps : s₁.broker.sleeps = s.broker.sleeps := congrArg (·.1) hends.1.2
    rw [hsleeps, ih, List.append_assoc]
    rfl

def patient : Consumer :=
  schemaConsumer { attempts := .int 2, delay := .float 1.0, backoff := .float 2.0 } (.float 60.0)

end Consumer

end SheetMill.Checking
