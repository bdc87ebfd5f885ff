import SheetMill.Client
import SheetMill.Database.Service
import SheetMill.Proofs.Exchange
import SheetMill.Proofs.Value

/-!
# The loops of the client, the publisher and the database service

Each of them tries an operation again after a fault that may pass, and goes the course of the
outcomes of its attempts. Only the operations on tasks are never tried again.
-/

namespace SheetMill

open Act Retry List

variable {α : Type} {n : Nat} {wait : Nat → Value}

/-! ## The database service -/

namespace Database

namespace Service

variable {work : Nat → Work Value} {pols : Policies}

def isTaskTrouble (f : Fault) : Bool := isCacheTrouble f || isStoreDown f

section Joint

variable {a b : Int} {delay : Value} (hcache : pols.cache.attempts = .int a)
  (hstore : pols.store.attempts = .int b)
  (hdelay : pols.cache.delay.larger pols.store.delay = .ok delay)

include hcache hstore hdelay

theorem joint_eq : pols.joint = .ok { attempts := .int (max a b), delay } := by
  unfold Policies.joint
  rw [hcache, hstore, Value.larger_int, hdelay]
  rfl

theorem tryTasks_outcome (op : String) (work : Nat → Work Value) (s : State) :
    (tryTasks pols op work).outcome s =
      (attemptFrom (taskPlan { attempts := .int (max a b), delay } op) (.float 2.0)
        (taskAttempt work) (max a b).toNat 1 delay).outcome s := by
  unfold tryTasks
  rw [outcome_bind_of_ok (lift_of_ok (joint_eq hcache hstore hdelay) s)]
  unfold retry
  have hcnt : ({ attempts := .int (max a b), delay } : RetryPolicy).count =
      .ok (max a b).toNat := rfl
  rw [outcome_bind_of_ok (lift_of_ok hcnt s)]

end Joint

/-- An operation on the tasks that goes wrong in a way that passes is told and waited for, and then
fails for want of a factor. -/
theorem between_taskPlan (policy : RetryPolicy) (op : String) (n : Nat) (delay : Value)
    (f : Fault) (s : State) :
    ∃ line, (taskPlan policy op).between n delay f s = .error noBackoff
      { s with journal := s.journal ++ [line], sleeps := s.sleeps ++ [delay] } := ⟨_, rfl⟩

theorem attemptFrom_tasks (policy : RetryPolicy) (op : String) (backoff delay : Value)
    (work : Nat → Work Value) (s : State) (left : Nat) :
    let first := (taskAttempt work 1).outcome s
    let run := (attemptFrom (taskPlan policy op) backoff (taskAttempt work) (left + 1) 1
      delay).outcome s
    (isPassing isTaskTrouble first.1 = false ∨ left = 0 →
      run.1 = first.1 ∧ run.2.sleeps = first.2.sleeps) ∧
    (isPassing isTaskTrouble first.1 = true → left ≠ 0 → ∃ line, run = (.error noBackoff,
      { first.2 with
        journal := first.2.journal ++ [line], sleeps := first.2.sleeps ++ [delay] })) := by
  have hplan : (taskPlan policy op).mayPass = isTaskTrouble := rfl
  cases hfst : (taskAttempt work 1).outcome s with
  | mk r s1 =>
    dsimp only
    cases hr : isPassing isTaskTrouble r with
    | false =>
      rw [attemptFrom_of_final hfst (hplan ▸ hr)]
      exact ⟨fun _ => ⟨rfl, rfl⟩, fun h => by cases h⟩
    | true =>
      cases r with
      | ok v => cases hr
      | error f =>
        have hf : (taskPlan policy op).mayPass f = true := hr
        cases left with
        | zero =>
          rw [attemptFrom_of_last hfst hf rfl]
          exact ⟨fun _ => ⟨rfl, rfl⟩, fun _ h => absurd rfl h⟩
        | succ left =>
          obtain ⟨line, hbetween⟩ := between_taskPlan policy op 1 delay f s1
          rw [attemptFrom_of_stuck hfst hf hbetween]
          refine ⟨fun h => ?_, fun _ _ => ⟨line, rfl⟩⟩
          rcases h with h | h
          · cases h
          · omega

/-- The course of an operation on the tasks says what happens as long as it has one attempt. Where
it goes on to a second, the operation waits and then fails, whatever the further attempts would come
to. -/
theorem tasks_never_tried_again (policies : Policies) (a b : Int) (delay : Value)
    (hcache : policies.cache.attempts = .int a) (hstore : policies.store.attempts = .int b)
    (hdelay : policies.cache.delay.larger policies.store.delay = .ok delay) (operation : String)
    (work : Nat → Work Value) (s : State) :
    let first := (taskAttempt work 1).outcome s
    let run := (tryTasks policies operation work).outcome s
    (max a b ≤ 0 → run = (.error noAttempt, s)) ∧
    (1 ≤ max a b → ∀ (wait : Nat → Value) (outs : Nat → Outcome Value), outs 1 = first.1 →
      let course := course isTaskTrouble (max a b).toNat wait outs
      (course.attempts = 1 → run.1 = course.outcome ∧ run.2.sleeps = first.2.sleeps) ∧
      (course.attempts ≠ 1 → ∃ line, run = (.error noBackoff,
        { first.2 with
          journal := first.2.journal ++ [line], sleeps := first.2.sleeps ++ [delay] }))) := by
  have hrun := tryTasks_outcome hcache hstore hdelay operation work s
  dsimp only
  rw [hrun]
  refine ⟨fun hn => ?_, fun hn wait outs houts => ?_⟩
  · rw [Int.toNat_of_nonpos hn]
    rfl
  obtain ⟨left, hleft⟩ : ∃ left, (max a b).toNat = left + 1 := ⟨(max a b).toNat - 1, by omega⟩
  obtain ⟨honce, hagain⟩ := attemptFrom_tasks { attempts := .int (max a b), delay } operation
    (.float 2.0) delay work s left
  rw [hleft]
  have hone : (course isTaskTrouble (left + 1) wait outs).attempts = 1 ↔
      isPassing isTaskTrouble ((taskAttempt work 1).outcome s).1 = false ∨ left = 0 := by
    rw [← houts]
    exact attemptsUpTo_eq_one_iff
  refine ⟨fun h => ?_, fun h => ?_⟩
  · obtain ⟨houtcome, hsleeps⟩ := honce (hone.mp h)
    refine ⟨?_, hsleeps⟩
    rw [houtcome, ← houts, course_outcome, h]
  · have hpassing := mt hone.mpr h
    rw [not_or, Bool.not_eq_false] at hpassing
    exact hagain hpassing.1 hpassing.2

/-- An operation on the tasks that goes through at the second attempt, which is not made. -/
theorem tasks_never_tried_again_recovered :
    let work : Nat → Work Value := fun k =>
      if k = 1 then throw (.store .connection "down") else return .text "done"
    let outs : Nat → Outcome Value := fun k =>
      if k = 1 then .error (.store .connection "down") else .ok (.text "done")
    (Value.float 0.5).larger (.float 0.5) = .ok (.float 0.5) ∧
      (course isTaskTrouble 5 (fun _ => .null) outs).outcome = .ok (.text "done") ∧
      ((tryTasks {} "get_task_id" work).outcome {}).1 = .error noBackoff ∧
      ((tryTasks {} "get_task_id" work).outcome {}).2.sleeps = [.float 0.5] := by
  intro work outs
  have hdelay : (Value.float 0.5).larger (.float 0.5) = .ok (.float 0.5) :=
    congrArg Except.ok (ite_self _)
  obtain ⟨-, hpositive⟩ := tasks_never_tried_again {} 5 5 (.float 0.5) rfl rfl hdelay "get_task_id"
    work {}
  obtain ⟨line, hrun⟩ := (hpositive (by decide) (fun _ => .null) outs rfl).2 (by decide)
  refine ⟨hdelay, rfl, ?_, ?_⟩
  · rw [hrun]
  · rw [hrun]
    rfl

end Service

end Database

/-! ## The publisher -/

namespace Broker.Publisher

end Broker.Publisher

/-! ## The client -/

namespace Client

theorem attempt_first (client : Client) (name : String) (op : Nat → Act Remote α) {k : Nat}
    (hk : ¬ 1 < k) : client.attempt name op k = op k := by
  unfold attempt
  rw [if_neg hk]

theorem attempt_later (client : Client) (name : String) (op : Nat → Act Remote α) {k : Nat}
    (hk : 1 < k) :
    ∃ line, client.attempt name op k = (do
      client.say .info line
      client.reconnect
      op k) := by
  unfold attempt
  rw [if_pos hk]
  exact ⟨_, rfl⟩

end Client

end SheetMill
