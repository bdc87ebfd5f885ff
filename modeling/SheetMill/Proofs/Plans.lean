import SheetMill.Proofs.Watching

/-!
# Plans

A plan lists the sequences of states that a task may go through, the calls that the work on it may
make, and the one among them that does what was asked for.
-/

namespace SheetMill.Checking

open Act Message List Value

variable {status : String}

structure Plan where
  paths : List (List String)
  calls : List String
  deed : String

def Plan.OnPath (plan : Plan) (states : List String) : Prop :=
  ∃ path ∈ plan.paths, states <+: path

instance (plan : Plan) (states : List String) : Decidable (plan.OnPath states) :=
  inferInstanceAs (Decidable (∃ path ∈ plan.paths, states <+: path))

theorem Plan.OnPath.of_append {plan : Plan} {states more : List String}
    (h : plan.OnPath (states ++ more)) : plan.OnPath states := by
  obtain ⟨path, hmem, hpre⟩ := h
  exact ⟨path, hmem, (prefix_append states more).trans hpre⟩

/-- The plan provides for an action once the task has come to the given states, with so many results
published and the deed done or not. -/
structure Plan.Provides (plan : Plan) (states : List String) (sent : Nat) (performed : Bool)
    (action : Action) : Prop where
  unanswered : action.answer? = none
  asked : ∀ call request, action = .ask call request → call.name ∈ plan.calls
  onPath : plan.OnPath (states ++ action.status?.toList)
  timely : action.status? = some "published" → sent = 1
  earned : action.status? = some "completed" → performed = true
  single : action.publishes = true → sent = 0

/-- What the events of work that follows a plan have in common. -/
structure Plan.Orderly (plan : Plan) (es : List Event) : Prop where
  unanswered : answers es = []
  asked : Asked plan.calls es
  timely : Preceded (publications · = 1) "published" es
  earned : Preceded (Performed plan.deed) "completed" es
  single : publications es ≤ 1
  onPath : plan.OnPath (recorded es)
  known : ∀ status ∈ told es, ∃ path ∈ plan.paths, status ∈ path
  toldOnPath : Refused es ∨ plan.OnPath (told es)

/-- The work has come to the given states and can go on. -/
structure Plan.Reached (plan : Plan) (states : List String) (sent : Nat) (performed : Bool)
    (es : List Event) : Prop extends plan.Orderly es where
  recorded_eq : recorded es = states
  published : publications es = sent
  performed_of : performed = true → Performed plan.deed es
  unstopped : ¬ Stopped es
  told_eq : Refused es ∨ told es = states

/-- The work has ended before its time with a fault. -/
structure Plan.Halted (plan : Plan) (f : Fault) (es : List Event) : Prop
    extends plan.Orderly es where
  unfinished : recorded es ∉ plan.paths
  stopped_iff : Stopped es ↔ f.isOrdinary = false

variable {plan : Plan} {states : List String} {sent : Nat} {performed : Bool} {es : List Event}
  {action : Action} {f : Fault}

namespace Plan.Reached

variable (h : plan.Reached states sent performed es)
  (he : plan.Provides states sent performed action)

include h

theorem weaken {less : Bool} (hless : less = true → performed = true) :
    plan.Reached states sent less es :=
  { h with performed_of := fun hp => h.performed_of (hless hp) }

theorem told_append (e : Event) :
    Refused (es ++ [e]) ∨ told (es ++ [e]) = states ++ e.action.status?.toList := by
  rcases h.told_eq with hrej | htold
  · exact .inl ((refused_append es e).mpr (.inl hrej))
  · rw [Checking.told_append, htold]
    exact .inr rfl

theorem halt_of_ordinary (hopen : states ∉ plan.paths) (hf : f.isOrdinary = true) :
    plan.Halted f es where
  toOrderly := h.toOrderly
  unfinished := by rw [h.recorded_eq]; exact hopen
  stopped_iff := by simp [h.unstopped, hf]

include he

theorem orderly_append (fault : Option Fault) : plan.Orderly (es ++ [⟨action, fault⟩]) where
  unanswered := by rw [answers_append, h.unanswered, he.unanswered]; rfl
  asked := (asked_append es _ _).mpr ⟨h.asked, he.asked⟩
  timely := by
    refine (preceded_append es _ _ _).mpr ⟨h.timely, fun hpub => ?_⟩
    -- an action that failed has recorded nothing
    cases fault with
    | none => exact h.published.trans (he.timely hpub)
    | some f => cases hpub
  earned := by
    refine (preceded_append es _ _ _).mpr ⟨h.earned, fun hdone => ?_⟩
    cases fault with
    | none => exact h.performed_of (he.earned hdone)
    | some f => cases hdone
  single := by
    have hbefore := h.single
    rw [h.published] at hbefore
    rw [publications_append, h.published]
    cases hpublishes : action.publishes with
    | true =>
      have hsent := he.single hpublishes
      have hone := Bool.toNat_le (Event.isPublication ⟨action, fault⟩)
      omega
    | false => simpa [Event.isPublication, hpublishes] using hbefore
  onPath := by
    rw [recorded_append, h.recorded_eq]
    cases fault with
    | none => exact he.onPath
    | some f =>
      have hstates := he.onPath.of_append
      simpa [Event.recorded?] using hstates
  known := by
    intro status hstat
    rw [Checking.told_append, mem_append] at hstat
    rcases hstat with hstat | hstat
    · exact h.known status hstat
    · obtain ⟨path, hpath, hpre⟩ := he.onPath
      exact ⟨path, hpath, hpre.subset (mem_append_right _ hstat)⟩
  toldOnPath := by
    rcases h.told_append ⟨action, fault⟩ with hrej | htold
    · exact .inl hrej
    · rw [htold]
      exact .inr he.onPath

/-- An action that is taken brings the work further. -/
theorem advance :
    plan.Reached (states ++ action.status?.toList) (sent + action.publishes.toNat)
      (performed || action.calls plan.deed) (es ++ [⟨action, none⟩]) where
  toOrderly := h.orderly_append he none
  recorded_eq := by rw [recorded_append, h.recorded_eq]; rfl
  published := by rw [publications_append, h.published]; rfl
  performed_of hp := by
    refine (performed_append es _ _).mpr ?_
    rcases (Bool.or_eq_true ..).mp hp with hp | hp
    · exact .inl (h.performed_of hp)
    · exact .inr ⟨rfl, hp⟩
  unstopped := by simpa [stopped_append] using h.unstopped
  told_eq := h.told_append ⟨action, none⟩

/-- An action that fails leaves the work where it was, if the action was not to change the state of
the task or a schema was refused. -/
theorem stay (hf : f.isOrdinary = true)
    (hquiet : action.status? = none ∨ ∃ d, f = .badSchema d) :
    plan.Reached states sent performed (es ++ [⟨action, some f⟩]) where
  toOrderly := h.orderly_append he (some f)
  recorded_eq := by simpa [recorded_append, Event.recorded?] using h.recorded_eq
  published := by simpa [publications_append, Event.isPublication] using h.published
  performed_of hp := (performed_append es _ _).mpr (.inl (h.performed_of hp))
  unstopped := by simpa [stopped_append, hf] using h.unstopped
  told_eq := by
    rcases hquiet with hquiet | ⟨d, rfl⟩
    · simpa [hquiet] using h.told_append ⟨action, some f⟩
    · exact .inl ((refused_append es _).mpr (.inr ⟨d, rfl⟩))

/-- A fault ends the work, and it is a request to stop only if the surroundings made one. -/
theorem halt (hopen : states ∉ plan.paths) : plan.Halted f (es ++ [⟨action, some f⟩]) where
  toOrderly := h.orderly_append he (some f)
  unfinished := by simpa [recorded_append, Event.recorded?, h.recorded_eq] using hopen
  stopped_iff := by simp [stopped_append, h.unstopped]

end Plan.Reached

/-! ## Steps of planned work -/

section Steps

variable {σ α : Type}

/-- What is left when a step fails: the work has ended, or it can go on if the fault is caught. -/
def Plan.Broken (plan : Plan) (states : List String) (sent : Nat) (performed : Bool)
    (caught : Fault → Prop) (f : Fault) : Watched σ → Prop :=
  Saw fun es => plan.Halted f es ∧
    (f.isOrdinary = true → caught f → plan.Reached states sent performed es)

theorem yields_halted {P : Watched σ → Prop} {act : Act (Watched σ) α} {Q : α → Watched σ → Prop}
    {caught : Fault → Prop} (h : Yields P act Q (plan.Broken states sent performed caught)) :
    Yields P act Q fun f => Saw (plan.Halted f) :=
  h.mono (fun _ ht => ht) (fun _ _ ht => ht) fun _ _ ht => ht.1

theorem yields_narrow {P : Watched σ → Prop} {act : Act (Watched σ) α}
    {Q : α → Watched σ → Prop} {caught caught' : Fault → Prop}
    (h : Yields P act Q (plan.Broken states sent performed caught))
    (hcaught : ∀ f, caught' f → caught f) :
    Yields P act Q (plan.Broken states sent performed caught') :=
  h.mono (fun _ ht => ht) (fun _ _ ht => ht) fun f _ ht =>
    ⟨ht.1, fun hf hc => ht.2 hf (hcaught f hc)⟩

theorem yields_planned {step : Act σ α} (hopen : states ∉ plan.paths)
    (he : plan.Provides states sent performed action) :
    Yields (Saw (plan.Reached states sent performed)) (watch action step)
      (fun _ => Saw (plan.Reached (states ++ action.status?.toList)
        (sent + action.publishes.toNat) (performed || action.calls plan.deed)))
      (plan.Broken states sent performed fun f => action.status? = none ∨ ∃ d, f = .badSchema d) :=
  yields_watch (fun _ hes => hes.advance he) fun _ _ hes =>
    ⟨hes.halt he hopen, fun hf hquiet => hes.stay he hf hquiet⟩

/-- What is read from values may fail; the work can then go on. -/
theorem yields_read {r : Outcome α} (hr : r.Ordinary) (hopen : states ∉ plan.paths) :
    Yields (Saw (plan.Reached states sent performed)) (liftM r : Act (Watched σ) α)
      (fun _ => Saw (plan.Reached states sent performed))
      (plan.Broken states sent performed fun _ => True) :=
  yields_lift (fun _ _ _ ht => ht) fun f _ hf ht =>
    ⟨ht.halt_of_ordinary hopen (hr f hf), fun _ _ => ht⟩

/-- Or it has then ended. -/
theorem yields_reading {β : Type} {r : Outcome α} {next : α → Act (Watched σ) β}
    {Q : β → Watched σ → Prop} (hr : r.Ordinary) (hopen : states ∉ plan.paths)
    (hnext : ∀ a, r = .ok a → Yields (Saw (plan.Reached states sent performed)) (next a) Q
      fun f => Saw (plan.Halted f)) :
    Yields (Saw (plan.Reached states sent performed)) ((liftM r : Act (Watched σ) α) >>= next) Q
      fun f => Saw (plan.Halted f) :=
  yields_iff_ends.mpr fun _ ht => .bind (ends_lift (fun a ha => (hnext a ha).ends ht)
    fun f hf => ht.halt_of_ordinary hopen (hr f hf))

variable {world : Surroundings σ}

theorem yields_ask (hopen : states ∉ plan.paths) (honPath : plan.OnPath states) {call : Call}
    (hcall : call.name ∈ plan.calls) (hother : call.name ≠ "UpdateTaskId") (req : Value) :
    Yields (Saw (plan.Reached states sent performed)) (world.watched.database call req)
      (fun _ => Saw (plan.Reached states sent (performed || call.name == plan.deed)))
      (plan.Broken states sent performed fun _ => True) := by
  have hquiet : (Action.ask call req).status? = none := by simp [Action.status?, hother]
  have he : plan.Provides states sent performed (.ask call req) :=
    { unanswered := rfl
      asked := by
        rintro _ _ ⟨⟩
        exact hcall
      onPath := by simpa [hquiet] using honPath
      timely := by simp [hquiet]
      earned := by simp [hquiet]
      single := by rintro ⟨⟩ }
  refine (yields_planned hopen he).mono (fun _ ht => ht) (fun _ t ht => ?_)
    fun f t ht => ⟨ht.1, fun hf _ => ht.2 hf (.inl hquiet)⟩
  simpa [hquiet, Action.publishes, Action.calls] using ht

theorem yields_setStatus (hopen : states ∉ plan.paths) {post : Post} {change : StatusChange}
    (hstat : change.status = .text status) (hnext : plan.OnPath (states ++ [status]))
    (hcall : "UpdateTaskId" ∈ plan.calls) (htimely : status = "published" → sent = 1)
    (hearned : status = "completed" → performed = true) :
    Yields (Saw (plan.Reached states sent performed)) (world.watched.setStatus post change)
      (fun _ => Saw (plan.Reached (states ++ [status]) sent performed))
      (plan.Broken states sent performed fun f => ∃ d, f = .badSchema d) := by
  refine yields_change hstat fun req htold => ?_
  have he : plan.Provides states sent performed (.ask .updateTask req) :=
    { unanswered := rfl
      asked := by
        rintro _ _ ⟨⟩
        exact hcall
      onPath := by simpa [htold] using hnext
      timely := by
        rw [htold]
        rintro ⟨⟩
        exact htimely rfl
      earned := by
        rw [htold]
        rintro ⟨⟩
        exact hearned rfl
      single := by rintro ⟨⟩ }
  refine (yields_planned hopen he).mono (fun _ ht => ht) (fun _ t ht => ?_)
    fun f t ht => ⟨ht.1, fun hf hd => ht.2 hf (.inr hd)⟩
  rw [htold] at ht
  exact ht.weaken fun hp => by simp [hp]

theorem yields_setReceived (htimed : world.Timed) (hopen : states ∉ plan.paths) {post : Post}
    (msg taskId : Value) (hnext : plan.OnPath (states ++ [status]))
    (hcall : "UpdateTaskId" ∈ plan.calls) (hother : status ≠ "published" ∧ status ≠ "completed") :
    Yields (Saw (plan.Reached states sent performed))
      (world.watched.setReceived post msg taskId status)
      (fun _ => Saw (plan.Reached (states ++ [status]) sent performed))
      (fun f => Saw (plan.Halted f)) := by
  refine yields_reading (ordinary_item msg _) hopen fun date _ => ?_
  refine (yields_updated htimed).bind fun updated => ?_
  exact yields_halted (yields_setStatus hopen rfl hnext hcall (fun h => absurd h hother.1)
    fun h => absurd h hother.2)

/-- No path goes on where another one ends, and the calls are there that every plan takes. -/
structure Plan.Sound (plan : Plan) : Prop where
  proper : ∀ path ∈ plan.paths, ∀ path' ∈ plan.paths, path <+: path' → path = path'
  updates : "UpdateTaskId" ∈ plan.calls
  asks : "GetTaskId" ∈ plan.calls

theorem Plan.Sound.unfinished (h : plan.Sound) {more : List String}
    (hpath : states ++ status :: more ∈ plan.paths) : states ∉ plan.paths := by
  intro hstates
  have heq := h.proper states hstates _ hpath (prefix_append states (status :: more))
  have hlen := congrArg length heq
  simp at hlen

/-- All that is left to do is to publish the result, or to record that there is none. -/
def Plan.Ready (plan : Plan) (failed : Bool) (es : List Event) : Prop :=
  ∃ states performed, plan.Reached states 0 performed es ∧
    states ++ [if failed then "failed-publishing-result" else "published"] ∈ plan.paths

def Plan.Done (plan : Plan) (es : List Event) : Prop :=
  ∃ path ∈ plan.paths, ∃ sent performed, plan.Reached path sent performed es

/-- The result of a task that failed is not published; the last state of the path says so. -/
theorem yields_publishResult_failed [Journaled σ] (htimed : world.Timed) (hplan : plan.Sound)
    (hpath : states ++ ["failed-publishing-result"] ∈ plan.paths) (post : Post)
    (taskId result : Value) :
    Yields (Saw (plan.Reached states 0 performed))
      (world.watched.publishResult post taskId result true)
      (fun _ => Saw plan.Done) (fun f => Saw (plan.Halted f)) := by
  have hopen := hplan.unfinished hpath
  have hnext : plan.OnPath (states ++ ["failed-publishing-result"]) :=
    ⟨_, hpath, prefix_refl _⟩
  unfold Surroundings.publishResult
  refine (yields_halted (yields_ask hopen hnext.of_append hplan.asks (by decide) _)).bind
    fun task => ?_
  refine yields_reading (ordinary_item task _) hopen fun v _ => ?_
  refine yields_reading (ordinary_item v _) hopen fun data _ => ?_
  refine (yields_now htimed).bind fun text => ?_
  refine yields_reading (ordinary_getD data _ _) hopen fun uploaded _ => ?_
  refine (yields_updated htimed).bind fun updated => ?_
  refine (yields_halted (yields_setStatus hopen rfl hnext hplan.updates (by decide)
    (fun h => absurd h (by decide)))).bind fun _ => ?_
  refine (yields_note _ _ _).mono (fun _ ht => ht) (fun _ _ ht => ?_) fun _ _ ht => ht
  exact ⟨_, hpath, 0, _, ht⟩

/-- A result is published once, and then the last state of the path is recorded. -/
theorem yields_publishResult_sent [Journaled σ] (htimed : world.Timed) (hplan : plan.Sound)
    (hpath : states ++ ["published"] ∈ plan.paths) (post : Post) (taskId result : Value) :
    Yields (Saw (plan.Reached states 0 performed))
      (world.watched.publishResult post taskId result false)
      (fun _ => Saw plan.Done) (fun f => Saw (plan.Halted f)) := by
  have hopen := hplan.unfinished hpath
  have hnext : plan.OnPath (states ++ ["published"]) := ⟨_, hpath, prefix_refl _⟩
  unfold Surroundings.publishResult
  refine yields_reading (ordinary_jsonAt _ _ result) hopen fun text _ => ?_
  have he : plan.Provides states 0 performed (.publish post.exchange post.resultKey text) :=
    { unanswered := rfl
      asked := by rintro _ _ ⟨⟩
      onPath := by simpa [Action.status?] using hnext.of_append
      timely := by rintro ⟨⟩
      earned := by rintro ⟨⟩
      single := fun _ => rfl }
  -- the broker comes first: if it fails, the task stays where it was and is not published
  refine (yields_halted (yields_planned hopen he)).bind fun _ => ?_
  simp only [Action.status?, Option.toList_none, append_nil]
  refine (Yields.bind (yields_updated htimed) fun updated => yields_halted (yields_setStatus hopen rfl
    hnext hplan.updates (fun _ => rfl) (fun h => absurd h (by decide)))).bind fun _ => ?_
  refine (yields_note _ _ _).mono (fun _ ht => ht) (fun _ _ ht => ?_) fun _ _ ht => ht
  exact ⟨_, hpath, 1, _, ht⟩

theorem yields_publishResult [Journaled σ] (htimed : world.Timed) (hplan : plan.Sound) (post : Post)
    (taskId result : Value) (failed : Bool) :
    Yields (Saw (plan.Ready failed)) (world.watched.publishResult post taskId result failed)
      (fun _ => Saw plan.Done) (fun f => Saw (plan.Halted f)) := by
  rintro t ⟨states, performed, hstates, hpath⟩
  cases failed with
  | true => exact yields_publishResult_failed htimed hplan hpath post taskId result t hstates
  | false => exact yields_publishResult_sent htimed hplan hpath post taskId result t hstates

end Steps

end SheetMill.Checking
