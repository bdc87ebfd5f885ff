import SheetMill.Broker.Connections
import SheetMill.Proofs.Work

/-!
# What the broker answers

All calls are recorded, and which of them are struck is planned. So from the outages at first and the
calls since then it can be told which calls came back.
-/

namespace SheetMill

open Act List

def Fault.isBroker : Fault → Bool
  | .broker _ _ => true
  | _ => false

theorem isBroker_item {v : Value} {name : String} {f : Fault} (h : v.item name = .error f) :
    f.isBroker = false := by
  unfold Value.item at h
  split at h
  · cases h
  · cases h
    cases v <;> rfl

theorem isBroker_items {v : Value} {f : Fault} (h : v.items = .error f) : f.isBroker = false := by
  unfold Value.items at h
  split at h <;> cases h
  rfl

/-- A strike is used up. -/
theorem Outage.total_strike {ε : Type} (target method : String) (outages : List (Outage ε)) :
    total (strike target method outages).2 + (strike target method outages).1.toList.length =
      total outages := by
  induction outages with
  | nil => rfl
  | cons o rest ih =>
    unfold total at ih ⊢
    unfold strike
    split_ifs
    · simp only [foldr_cons]
      omega
    · simp only [foldr_cons, Option.toList_some, length_singleton]
      omega
    · simp only [foldr_cons]
      omega
    · simp only [foldr_cons]
      omega

namespace Broker

/-- The calls, each with what struck it. -/
def answers : List (Outage Strike) → List (String × Value) →
    List ((String × Value) × Option Strike)
  | _, [] => []
  | outages, call :: calls =>
    (call, (Outage.strike "broker" call.1 outages).1) ::
      answers (Outage.strike "broker" call.1 outages).2 calls

/-- The outages after the calls. -/
def left (outages : List (Outage Strike)) (calls : List (String × Value)) : List (Outage Strike) :=
  calls.foldl (fun outages call => (Outage.strike "broker" call.1 outages).2) outages

theorem answers_append (outages : List (Outage Strike)) (calls new : List (String × Value)) :
    answers outages (calls ++ new) = answers outages calls ++ answers (left outages calls) new := by
  induction calls generalizing outages with
  | nil => rfl
  | cons call calls ih => simp [answers, left, ih]

theorem total_left (outages : List (Outage Strike)) (calls : List (String × Value)) :
    Outage.total (left outages calls) ≤ Outage.total outages := by
  induction calls generalizing outages with
  | nil => exact Nat.le_refl _
  | cons call calls ih =>
    exact (ih _).trans (Nat.le.intro (Outage.total_strike "broker" call.1 outages))

/-- The second state is after the calls. -/
structure State.Called (s s' : State) (new : List (String × Value)) : Prop where
  calls : s'.calls = s.calls ++ new
  outages : s'.outages = left s.outages new

variable {s s' s'' : State} {new new' : List (String × Value)} {name : String}

theorem State.Called.trans (h : s.Called s' new) (h' : s'.Called s'' new') :
    s.Called s'' (new ++ new') where
  calls := by rw [h'.calls, h.calls, append_assoc]
  outages := by rw [h'.outages, h.outages, left, left, left, foldl_append]

def State.rest (s : State) : List Value × Nat := (s.sleeps, s.issued)

theorem ends_call (s : State) (name : String) (arguments : List (String × Value))
    (channel : Option Nat) :
    (call name arguments channel).Ends s
      (fun _ s' => (s.Called s' [(name, .record arguments)] ∧ s'.rest = s.rest) ∧
        (Outage.strike "broker" name s.outages).1 = none)
      fun _ s' => (s.Called s' [(name, .record arguments)] ∧ s'.rest = s.rest) ∧
        (Outage.strike "broker" name s.outages).1.isSome = true := by
  refine .get ?_
  dsimp only
  cases hstrike : (Outage.strike "broker" name s.outages).1 with
  | none => exact ends_modify ⟨⟨⟨rfl, rfl⟩, rfl⟩, rfl⟩
  | some strike =>
    cases channel with
    | none => exact ⟨⟨⟨rfl, rfl⟩, rfl⟩, rfl⟩
    | some c =>
      dsimp only
      split_ifs
      · exact ⟨⟨⟨rfl, rfl⟩, rfl⟩, rfl⟩
      · exact ⟨⟨⟨rfl, rfl⟩, rfl⟩, rfl⟩

/-- There were only calls to connect since the first state. -/
def State.Reaches (s s' : State) : Prop :=
  (∃ new, s.Called s' new ∧ ∀ call ∈ new, call.1 ≠ "basic_publish") ∧ s'.rest = s.rest

theorem State.Reaches.refl (s : State) : s.Reaches s :=
  ⟨⟨[], ⟨(append_nil _).symm, rfl⟩, by simp⟩, rfl⟩

theorem State.Reaches.total_le (h : s.Reaches s') :
    Outage.total s'.outages ≤ Outage.total s.outages := by
  obtain ⟨⟨new, hnew, -⟩, -⟩ := h
  rw [hnew.outages]
  exact total_left _ _

theorem State.Reaches.called (h : s.Reaches s') {call : String × Value}
    (h' : s'.Called s'' [call] ∧ s''.rest = s'.rest) (hname : call.1 ≠ "basic_publish") :
    s.Reaches s'' := by
  obtain ⟨⟨new, hnew, hcalls⟩, hrest⟩ := h
  refine ⟨⟨new ++ [call], hnew.trans h'.1, fun c hc => ?_⟩, h'.2.trans hrest⟩
  rcases mem_append.mp hc with hc | hc
  · exact hcalls c hc
  · rwa [mem_singleton.mp hc]

theorem State.Reaches.of_same (h : s.Reaches s') (hsame : s''.calls = s'.calls ∧
    s''.outages = s'.outages ∧ s''.rest = s'.rest) : s.Reaches s'' := by
  obtain ⟨⟨new, hnew, hcalls⟩, hrest⟩ := h
  exact ⟨⟨new, ⟨hsame.1.trans hnew.calls, hsame.2.1.trans hnew.outages⟩, hcalls⟩,
    hsame.2.2.trans hrest⟩

/-- A computation makes only calls to connect, and a fault of the broker is one that was planned. -/
def Connects {σ α : Type} (view : σ → State) (work : Act σ α) : Prop :=
  ∀ (s : State) (t : σ), s.Reaches (view t) → work.Ends t (fun _ t' => s.Reaches (view t'))
    fun f t' => s.Reaches (view t') ∧
      (f.isBroker = true → Outage.total (view t').outages < Outage.total s.outages)

section Connects

variable {σ α β : Type} {view : σ → State} {x : Act σ α} {f : α → Act σ β} {r : Outcome α}

theorem connects_pure (a : α) : Connects view (pure a) := fun _ _ hs => ends_pure hs

theorem Connects.bind (hx : Connects view x) (hf : ∀ a, Connects view (f a)) :
    Connects view (x >>= f) := fun s t hs =>
  .bind ((hx s t hs).mono (fun a t' ht => hf a s t' ht) fun _ _ hf => hf)

theorem Connects.get {f : σ → Act σ β} (h : ∀ t, Connects view (f t)) :
    Connects view (get >>= f) := fun s t hs => .get (h t s t hs)

theorem connects_modify {f : σ → σ} (h : ∀ t, (view (f t)).calls = (view t).calls ∧
      (view (f t)).outages = (view t).outages ∧ (view (f t)).rest = (view t).rest) :
    Connects view (modify f) := fun _ t hs => ends_modify (hs.of_same (h t))

theorem connects_update {f : State → State} {g : State → α} (h : ∀ t, (f t).calls = t.calls ∧
      (f t).outages = t.outages ∧ (f t).rest = t.rest) :
    Connects id (do let t ← get; set (f t); return g t) := fun _ t hs =>
  .get (.bind (ends_modify (ends_pure (hs.of_same (h t)))))

theorem Connects.given (hr : ∀ f, r = .error f → f.isBroker = false)
    (hf : ∀ a, Connects view (f a)) : Connects view ((liftM r : Act σ α) >>= f) := fun s t hs =>
  .given (fun a _ => hf a s t hs) fun f hf => ⟨hs, fun hbroker => by simp [hr f hf] at hbroker⟩

theorem Connects.read {v : Value} {f : Value → Act σ β} (hf : ∀ w, Connects view (f w)) :
    Connects view ((liftM (v.item name) : Act σ Value) >>= f) := .given (fun _ => isBroker_item) hf

theorem Connects.forIn {body : α → PUnit → Act σ (ForInStep PUnit)} {xs : List α}
    (h : ∀ x, Connects view (body x ⟨⟩)) : Connects view (ForIn.forIn xs PUnit.unit body) := by
  induction xs with
  | nil => exact connects_pure _
  | cons x xs ih =>
    rw [forIn_cons]
    refine (h x).bind fun step => ?_
    cases step with
    | done => exact connects_pure _
    | yield => exact ih

theorem Connects.within {work : Work α} {put : State → σ → σ} (h : Connects id work)
    (hput : ∀ s t, view (put s t) = s) : Connects view (work.within view put) := fun s t hs =>
  .within ((h s (view t) hs).mono (fun _ s' h => by rwa [hput]) fun _ s' h => by rwa [hput])

end Connects

theorem connects_call (hname : name ≠ "basic_publish") (arguments : List (String × Value))
    (channel : Option Nat) : Connects id (call name arguments channel) := by
  intro s t hs
  refine (ends_call t name arguments channel).mono (fun _ t' h => ?_) fun f t' h => ⟨?_, fun _ => ?_⟩
  · exact hs.called h.1 hname
  · exact hs.called h.1 hname
  · obtain ⟨strike, hstrike⟩ := Option.isSome_iff_exists.mp h.2
    have hone := Outage.total_strike "broker" name t.outages
    have hle := hs.total_le
    rw [hstrike, Option.toList_some, length_singleton] at hone
    change Outage.total t'.outages < _
    rw [h.1.1.outages]
    change Outage.total (Outage.strike "broker" name t.outages).2 < _
    dsimp only [id] at hle
    omega

theorem connects_threadConnection (thread : Nat) : Connects id (threadConnection thread) := by
  refine .get fun s => ?_
  dsimp only
  split
  · exact connects_pure _
  · refine .bind (.get fun s => ?_) fun params => ?_
    · iterate 5 refine .read fun _ => ?_
      exact connects_pure _
    · exact .bind (connects_call (by decide) _ _) fun _ => connects_update fun _ => ⟨rfl, rfl, rfl⟩

theorem connects_threadChannel (thread : Nat) : Connects id (threadChannel thread) := by
  refine .bind (connects_threadConnection thread) fun connection => .get fun s => ?_
  dsimp only
  split
  · exact connects_pure _
  · exact .bind (connects_call (by decide) _ _) fun _ => connects_update fun _ => ⟨rfl, rfl, rfl⟩

theorem connects_declareQueues (channel : Nat) : Connects id (declareQueues channel) := by
  refine .get fun s => ?_
  iterate 3 refine .read fun _ => ?_
  refine .bind (connects_call (by decide) _ _) fun _ => .read fun queues => ?_
  refine .given (fun _ => isBroker_items) fun queues => .bind (.forIn fun queue => ?_)
    fun _ => connects_pure _
  iterate 2 refine .read fun _ => ?_
  refine .bind (connects_call (by decide) _ _) fun _ => .read fun key => ?_
  exact .bind (connects_call (by decide) _ _) fun _ => connects_pure _

end Broker

end SheetMill
