import SheetMill.Proofs.Plans

/-!
# The work on requests about schemas

A request to store a schema and one to withdraw it each have a plan. Whatever the database and the
broker do, the states that are recorded follow it, and the delivery is answered exactly once unless
a request to stop comes in between: acknowledged if a path was gone to its end, and rejected if not.
-/

namespace SheetMill.Checking.SchemaWorker

open Act Message Value

variable {tag : Nat}

def uploadPlan : Plan where
  paths := [
    ["received-schema-update", "creating-schema", "schema-created", "saving-schema", "completed",
      "published"],
    ["received-schema-update", "creating-schema", "schema-created", "saving-schema",
      "failed-saving-schema", "failed-publishing-result"],
    ["received-schema-update", "creating-schema", "failed-creating-schema",
      "failed-publishing-result"]]
  calls := ["UpdateTaskId", "GetTaskId", "MongoInsertOneSchema"]
  deed := "MongoInsertOneSchema"

def removalPlan : Plan where
  paths := [
    ["received-removing-schema", "removing-schema", "completed", "published"],
    ["received-removing-schema", "removing-schema", "failed-removing-schema",
      "failed-publishing-result"]]
  calls := ["UpdateTaskId", "GetTaskId", "MongoDeleteOneJsonSchema"]
  deed := "MongoDeleteOneJsonSchema"

theorem uploadPlan_sound : uploadPlan.Sound := by
  constructor <;> decide

theorem removalPlan_sound : removalPlan.Sound := by
  constructor <;> decide

variable {σ : Type} {world : Surroundings σ} {plan : Plan} {states : List String}

theorem yields_next (htimed : world.Timed) (hopen : states ∉ plan.paths) {status : String}
    (hnext : plan.OnPath (states ++ [status])) (hcall : "UpdateTaskId" ∈ plan.calls)
    (hother : status ≠ "published" ∧ status ≠ "completed") (taskId : Value) (text : String) :
    Yields (Saw (plan.Reached states 0 false)) (world.watched.say post taskId status text)
      (fun _ => Saw (plan.Reached (states ++ [status]) 0 false))
      (plan.Broken states 0 false fun f => ∃ d, f = .badSchema d) := by
  refine (yields_updated htimed).bind fun updated => ?_
  exact yields_setStatus hopen rfl hnext hcall (fun h => absurd h hother.1)
    fun h => absurd h hother.2

/-- The task is completed, and what was asked for was done, or it failed. -/
def Decided (plan : Plan) (states : List String) (failed status : String) (es : List Event) :
    Prop :=
  status = "completed" ∧ plan.Reached states 0 true es ∨
    status = failed ∧ plan.Reached states 0 false es

/-- A step that decides the state of the task may be stopped but does not fail. -/
theorem yields_decided {step : Act (Watched σ) Value} (failed : String)
    (h : Yields (Saw (plan.Reached states 0 false)) step
      (fun _ => Saw (plan.Reached states 0 true)) (plan.Broken states 0 false fun _ => True)) :
    Yields (Saw (plan.Reached states 0 false)) (decided step failed)
      (fun r => Saw (Decided plan states failed r.2)) (fun f => Saw (plan.Halted f)) := by
  refine .handle (h.bind fun v => yields_pure fun t ht => .inl ⟨rfl, ht⟩)
    (fun f t _ ht => ht.1) fun f hf => ?_
  exact yields_pure fun t ht => .inr ⟨rfl, ht.2 hf trivial⟩

/-- What was decided is recorded, and there is a result to publish if the task was completed. -/
theorem yields_conclude (htimed : world.Timed) (hplan : plan.Sound) {failed : String}
    (hdone : states ++ ["completed", "published"] ∈ plan.paths)
    (hfail : states ++ [failed, "failed-publishing-result"] ∈ plan.paths)
    (hother : failed ≠ "completed" ∧ failed ≠ "published")
    (taskId importName schema result told : Value) (status text : String) :
    Yields (Saw (Decided plan states failed status))
      (conclude world.watched taskId importName schema result told status text)
      (fun r => Saw (plan.Ready r.2)) (fun f => Saw (plan.Halted f)) := by
  have hopen := hplan.unfinished hdone
  refine (yields_updated htimed).bind fun updated => ?_
  -- the two paths part here
  rintro t (⟨rfl, ht⟩ | ⟨rfl, ht⟩)
  · have hnext : plan.OnPath (states ++ ["completed"]) := ⟨_, hdone, ["published"], by simp⟩
    refine ((yields_halted (yields_setStatus hopen rfl hnext hplan.updates (by decide)
      fun _ => rfl)).bind fun _ => ?_) t ht
    exact yields_pure fun t ht => ⟨_, _, ht, by simpa using hdone⟩
  · have hnext : plan.OnPath (states ++ [status]) :=
      ⟨_, hfail, ["failed-publishing-result"], by simp⟩
    refine ((yields_halted (yields_setStatus hopen rfl hnext hplan.updates
      (fun h => absurd h hother.2) fun h => absurd h hother.1)).bind fun _ => ?_) t ht
    exact yields_pure fun t ht => ⟨_, _, ht, by simpa [hother.1] using hfail⟩

/-- The schema is made and the database is told so. -/
theorem yields_create (htimed : world.Timed) (msg raw taskId importName : Value) :
    Yields (Saw (uploadPlan.Reached ["received-schema-update", "creating-schema"] 0 false))
      (create world.watched msg raw taskId importName)
      (fun _ => Saw (uploadPlan.Reached
        ["received-schema-update", "creating-schema", "schema-created"] 0 false))
      (uploadPlan.Broken ["received-schema-update", "creating-schema"] 0 false
        fun f => ∃ d, f = .badSchema d) := by
  have h : ["received-schema-update", "creating-schema"] ∉ uploadPlan.paths := by decide
  refine (yields_narrow (yields_read (ordinary_item msg _) h) fun _ _ => trivial).bind
    fun given => ?_
  refine (yields_narrow (yields_read (ordinary_createSchema raw given) h) fun _ _ => trivial).bind
    fun schema => ?_
  refine (yields_next htimed h (by decide) (by decide) (by decide) taskId _).bind fun _ => ?_
  exact yields_pure fun t ht => ht

theorem yields_refuse [Journaled σ] (htimed : world.Timed) (taskId importName : Value) :
    Yields (Saw (uploadPlan.Reached ["received-schema-update", "creating-schema"] 0 false))
      (refuse world.watched taskId importName)
      (fun r => Saw (uploadPlan.Ready r.2)) (fun f => Saw (uploadPlan.Halted f)) := by
  refine (yields_note _ _ _).bind fun _ => ?_
  refine (yields_halted (yields_next htimed (by decide) (by decide) (by decide) (by decide) taskId
    _)).bind fun _ => ?_
  have hpath : ["received-schema-update", "creating-schema", "failed-creating-schema",
      "failed-publishing-result"] ∈ uploadPlan.paths := by decide
  exact yields_pure fun t ht => ⟨_, _, ht, hpath⟩

theorem yields_saveSchema (htimed : world.Timed) (hopen : states ∉ uploadPlan.paths)
    (hstates : uploadPlan.OnPath states)
    (schema importName : Value) :
    Yields (Saw (uploadPlan.Reached states 0 false))
      (do
        let copy ← (liftM schema.copied : Act (Watched σ) Value)
        saveSchema world.watched.database world.watched.now copy importName)
      (fun _ => Saw (uploadPlan.Reached states 0 true))
      (uploadPlan.Broken states 0 false fun _ => True) := by
  refine (yields_read (ordinary_copied schema) hopen).bind fun copy => ?_
  refine (yields_read (ordinary_storedSchema copy) hopen).bind fun stored => ?_
  refine (yields_now htimed).bind fun text => ?_
  exact yields_ask hopen hstates (by decide) (by decide) _

theorem yields_update [Journaled σ] (htimed : world.Timed) (msg : Value) :
    Yields (Saw (uploadPlan.Reached ["received-schema-update"] 0 false)) (update world.watched msg)
      (fun r => Saw (uploadPlan.Ready r.2)) (fun f => Saw (uploadPlan.Halted f)) := by
  have h : ["received-schema-update"] ∉ uploadPlan.paths := by decide
  refine yields_reading (ordinary_item msg _) h fun taskId _ => ?_
  refine yields_reading (ordinary_item msg _) h fun importName _ => ?_
  refine yields_reading (ordinary_getD msg _ _) h fun raw _ => ?_
  refine (yields_halted (yields_next htimed h (by decide) (by decide) (by decide) _ _)).bind
    fun _ => ?_
  refine (yields_create htimed msg raw taskId importName).attempt.bind fun created => ?_
  cases created with
  | error f =>
    dsimp only
    split
    · -- the schema was refused, by the check or by what the worker talks to
      rename_i d hf
      cases hf
      exact (yields_refuse htimed taskId importName).mono (fun t ht => ht.2 rfl ⟨d, rfl⟩)
        (fun _ _ ht => ht) fun _ _ ht => ht
    · rename_i f' _ hf
      cases hf
      exact yields_throw fun t ht => ht.1
    · rename_i hf
      cases hf
  | ok schema =>
    refine (yields_halted (yields_next htimed (by decide) (by decide) (by decide) (by decide) _ _)).bind
      fun _ => ?_
    refine (yields_decided _ (yields_saveSchema htimed (by decide) (by decide) _ _)).bind
      fun r => ?_
    exact yields_conclude htimed uploadPlan_sound (by decide) (by decide) (by decide) _ _ _ _ _ _ _

theorem yields_removeSchema (importName : Value) :
    Yields (Saw (removalPlan.Reached ["received-removing-schema", "removing-schema"] 0 false))
      (removeSchema world.watched.database importName)
      (fun _ => Saw (removalPlan.Reached ["received-removing-schema", "removing-schema"] 0 true))
      (removalPlan.Broken ["received-removing-schema", "removing-schema"] 0 false
        fun _ => True) :=
  yields_ask (by decide) (by decide) (by decide) (by decide) _

theorem yields_remove (htimed : world.Timed) (msg : Value) :
    Yields (Saw (removalPlan.Reached ["received-removing-schema"] 0 false)) (remove world.watched msg)
      (fun r => Saw (removalPlan.Ready r.2)) (fun f => Saw (removalPlan.Halted f)) := by
  have h : ["received-removing-schema"] ∉ removalPlan.paths := by decide
  refine yields_reading (ordinary_item msg _) h fun taskId _ => ?_
  refine yields_reading (ordinary_item msg _) h fun importName _ => ?_
  refine (yields_halted (yields_next htimed h (by decide) (by decide) (by decide) _ _)).bind
    fun _ => ?_
  refine (yields_decided _ (yields_removeSchema importName)).bind fun r => ?_
  exact yields_conclude htimed removalPlan_sound (by decide) (by decide) (by decide) _ _ _ _ _ _ _

/-! ## Deliveries -/

def planOfTask : Value → Plan
  | .text "remove_schema" => removalPlan
  | _ => uploadPlan

/-- The plan for the request in a body. -/
def planOf (body : List UInt8) : Plan :=
  match messageOf body >>= fun msg => msg.getD "task" (.text "upload_schema") with
  | .ok task => planOfTask task
  | .error _ => uploadPlan

theorem planOf_eq {body : List UInt8} {msg task : Value}
    (hmsg : messageOf body = .ok msg)
    (htask : msg.getD "task" (.text "upload_schema") = .ok task) :
    planOf body = planOfTask task := by
  unfold planOf
  rw [hmsg, Outcome.ok_bind, htask]

theorem planOf_cases (body : List UInt8) : planOf body = uploadPlan ∨ planOf body = removalPlan := by
  unfold planOf planOfTask
  split
  · split
    · exact .inr rfl
    · exact .inl rfl
  · exact .inl rfl

theorem nil_notMem_planOf (body : List UInt8) : [] ∉ (planOf body).paths := by
  rcases planOf_cases body with h | h
  · rw [h]
    decide
  · rw [h]
    decide

/-- What is left once the task is ready: its result goes out and the work is done. -/
theorem yields_finish [Journaled σ] (htimed : world.Timed) (hplan : plan.Sound) (taskId : Value)
    (text : String) (r : Value × Bool) :
    Yields (Saw (plan.Ready r.2))
      (do
        world.watched.publishResult post taskId r.1 r.2
        pure text)
      (fun _ => Saw plan.Done) (fun f => Saw (plan.Halted f)) :=
  (yields_publishResult htimed hplan post taskId r.1 r.2).bind fun _ => yields_pure fun _ ht => ht

theorem yields_work [Journaled σ] (htimed : world.Timed) (body : List UInt8) :
    Yields (Saw ((planOf body).Reached [] 0 false)) (work world.watched body)
      (fun _ => Saw (planOf body).Done) (fun f => Saw ((planOf body).Halted f)) := by
  have h := nil_notMem_planOf body
  refine yields_reading (ordinary_messageOf body) h fun msg hmsg => ?_
  refine yields_reading (ordinary_item msg _) h fun taskId _ => ?_
  refine yields_reading (ordinary_getD msg _ _) h fun task htask => ?_
  rw [planOf_eq hmsg htask] at h ⊢
  split
  · refine (yields_note _ _ _).bind fun _ => ?_
    refine (yields_setReceived htimed h msg taskId (by decide) (by decide) (by decide)).bind
      fun _ => ?_
    exact (yields_update htimed msg).bind fun r =>
      yields_finish htimed uploadPlan_sound taskId _ r
  · refine (yields_note _ _ _).bind fun _ => ?_
    refine (yields_setReceived htimed h msg taskId (by decide) (by decide) (by decide)).bind
      fun _ => ?_
    exact (yields_remove htimed msg).bind fun r =>
      yields_finish htimed removalPlan_sound taskId _ r
  · -- a req of another kind fails before the database is told anything
    exact yields_throw fun t ht => ht.halt_of_ordinary h rfl

def Answering (world : Surroundings σ) : Prop :=
  ∀ tag s, (∃ s', world.acknowledge tag s = .ok () s') ∧ ∃ s', world.reject tag s = .ok () s'

/-- The delivery was answered at the end: acknowledged if the task had gone through a whole path,
and rejected if not. -/
def Answered (plan : Plan) (tag : Nat) (es : List Event) : Prop :=
  ∃ before answer, es = before ++ [⟨answer, none⟩] ∧ plan.Orderly before ∧ ¬ Stopped before ∧
    (answer = .acknowledge tag ∧ recorded before ∈ plan.paths ∨
      answer = .reject tag ∧ recorded before ∉ plan.paths)

theorem yields_acknowledge (h : Answering world) (tag : Nat) {E : Fault → Watched σ → Prop} :
    Yields (Saw plan.Done) (world.watched.acknowledge tag) (fun _ => Saw (Answered plan tag)) E := by
  refine .of_run fun t ht => .inl ?_
  obtain ⟨s', hrun⟩ := (h tag t.state).1
  obtain ⟨path, hpath, sent, performed, hreached⟩ := ht
  have hrecorded : recorded t.events ∈ plan.paths := by
    rw [hreached.recorded_eq]
    exact hpath
  exact ⟨(), _, watch_of_ok hrun, t.events, _, rfl, hreached.toOrderly, hreached.unstopped,
    .inl ⟨rfl, hrecorded⟩⟩

theorem yields_reject (h : Answering world) (tag : Nat) {f : Fault} (hf : f.isOrdinary = true)
    {E : Fault → Watched σ → Prop} :
    Yields (Saw (plan.Halted f)) (world.watched.reject tag) (fun _ => Saw (Answered plan tag)) E := by
  refine .of_run fun t ht => .inl ?_
  obtain ⟨s', hrun⟩ := (h tag t.state).2
  have hunstopped : ¬ Stopped t.events := by
    rw [ht.stopped_iff, hf]
    decide
  exact ⟨(), _, watch_of_ok hrun, t.events, _, rfl, ht.toOrderly, hunstopped,
    .inr ⟨rfl, ht.unfinished⟩⟩

theorem yields_process [Journaled σ] (htimed : world.Timed) (hans : Answering world)
    (tag : Nat) (body : List UInt8) :
    Yields (Saw ((planOf body).Reached [] 0 false)) (process world.watched tag body)
      (fun _ => Saw (Answered (planOf body) tag))
      (fun f => Saw fun es => (planOf body).Halted f es ∧ f.isOrdinary = false) := by
  refine .handle ((yields_work htimed body).bind fun text => ?_)
    (fun f t hf ht => ⟨ht, hf⟩) fun f hf => ?_
  · exact (yields_acknowledge hans tag).bind fun _ => yields_note _ _ _
  · exact (yields_note _ _ _).bind fun _ => yields_reject hans tag hf

/-- What a delivery comes to: the outcome of the work on it, and the events. -/
structure Settled (plan : Plan) (tag : Nat) (outcome : Outcome Unit) (es : List Event) : Prop where
  /-- If no request to stop came, the delivery was answered once. -/
  answered : ¬ Stopped es → outcome = .ok () ∧ (answers es = [(tag, true)] ∨ answers es = [(tag, false)])
  /-- A request to stop is passed on, and the delivery is not answered. -/
  stopped : Stopped es → (∃ f, outcome = .error f ∧ f.isOrdinary = false) ∧ answers es = []
  /-- The recorded states are the first ones of a path. -/
  onPath : plan.OnPath (recorded es)
  /-- The delivery was acknowledged if and only if a whole path was recorded. -/
  acknowledged_iff : answers es = [(tag, true)] ↔ recorded es ∈ plan.paths
  /-- That a result is published was recorded only after one was, -/
  timely : Preceded (publications · = 1) "published" es
  /-- and no more than one ever was. -/
  single : publications es ≤ 1
  /-- That the task is completed was recorded only after what was asked for had been done. -/
  earned : Preceded (Performed plan.deed) "completed" es
  asked : Asked plan.calls es
  /-- All states that the database was told are states of the plan, -/
  known : ∀ status ∈ told es, ∃ path ∈ plan.paths, status ∈ path
  /-- and they are the first ones of a path if no schema was refused by the surroundings. -/
  toldOnPath : ¬ Refused es → plan.OnPath (told es)

/-- Surroundings whose database answers all requests alike. -/
def uniform (answer : Outcome Value) : Surroundings Journal where
  database _ _ := answer
  publish _ _ _ := pure ()
  acknowledge _ := pure ()
  reject _ := pure ()
  now := pure "2024-01-02T03:04:05"

theorem timed_uniform (answer : Outcome Value) : (uniform answer).Timed := fun _ => ⟨_, _, rfl⟩

end SheetMill.Checking.SchemaWorker
