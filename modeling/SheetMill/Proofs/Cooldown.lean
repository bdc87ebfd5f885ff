import SheetMill.Proofs.ScalingSteps
import SheetMill.Proofs.Seconds

/-!
# The time between two updates of a service

Two updates of a service are the cooldown apart unless the second one is urgent, and the updates of
a service are the same as if no other service had been looked at.
-/

namespace SheetMill.Swarm

open Act List Value

/-! ## Runs -/

structure Look where
  name : String
  policy : Policy
  world : State
  start : Int
  named : policy.service = .text name
  reads : world.Reads start

/-- What the scaler remembers, and the updates so far with the policies that they were made for. -/
structure Course where
  changes : List (Value × Moment) := []
  log : List (Policy × Update) := []

def Look.after (settings : Settings) (changes : List (Value × Moment)) (l : Look) : State :=
  ((evaluate settings l.policy).outcome { l.world with changes, updates := [] }).2

def Look.finish (settings : Settings) (changes : List (Value × Moment)) (l : Look) : Int :=
  match (l.after settings changes).now with
  | .ok moment => moment.micros
  | .error _ => l.start

def Course.look (settings : Settings) (c : Course) (l : Look) : Course where
  changes := (l.after settings c.changes).changes
  log := c.log ++ (l.after settings c.changes).updates.map (l.policy, ·)

def Course.looks (settings : Settings) (c : Course) (ls : List Look) : Course :=
  ls.foldl (Course.look settings) c

/-- From one look to the next the clock does not go back. -/
def Steady (settings : Settings) : Int → Course → List Look → Prop
  | _, _, [] => True
  | t, c, l :: ls =>
    t ≤ l.start ∧ Steady settings (l.finish settings c.changes) (c.look settings l) ls

variable {settings : Settings} {changes : List (Value × Moment)} {changes' : List (Value × Moment)}

theorem Look.since (settings : Settings) (changes : List (Value × Moment)) (l : Look) :
    Since l.name l.start { l.world with changes, updates := [] }
        (l.after settings changes).updates (l.finish settings changes) (l.after settings changes) ∧
      Waits settings l.policy changes l.name l.start (l.after settings changes).updates := by
  have hreads : ({ l.world with changes, updates := [] } : State).Reads l.start := l.reads.of_time rfl
  obtain ⟨new, t, hsince, hwaits⟩ := Ends.outcome (R := fun _ => Looked settings l.policy l.name
    l.start { l.world with changes, updates := [] }) (ends_evaluate l.named hreads)
  have hupdates : (l.after settings changes).updates = new := hsince.updates
  have hfinish : l.finish settings changes = t := by
    unfold Look.finish
    rw [show (l.after settings changes).now = _ from hsince.reads.now]
  rw [hupdates, hfinish]
  exact ⟨hsince, hwaits⟩

/-! ## The cooldown -/

/-- Every update so far is remembered with a moment that is not before it and already past. -/
def Course.Remembers (c : Course) (t : Int) : Prop :=
  ∀ e ∈ c.log, ∃ (name : String) (m r : Moment), e.2.service = .text name ∧ e.2.moment = .ok m ∧
    lastChange? c.changes name = some r ∧ m.micros ≤ r.micros ∧ r.micros ≤ t

/-- The later update is of another service or urgent, or the clock was read at two moments between the
updates that are at least the cooldown apart, as far as this can be measured. -/
def Measured (settings : Settings) (earlier later : Policy × Update) : Prop :=
  earlier.2.service = later.2.service → later.1.rank ≠ .high ∨ later.2.reason.isLow = true →
    ∃ m m' : Moment, earlier.2.moment = .ok m ∧ later.2.moment = .ok m' ∧
      ∃ before now : Int, m.micros ≤ before ∧ before ≤ now ∧ now ≤ m'.micros ∧
        (float (Moment.secondsOf (now - before))).atLeast settings.cooldown = .ok true

/-- The later update is of another service or urgent, or comes at least so many seconds after the
earlier one. -/
def Apart (cooldown : Int) (earlier later : Policy × Update) : Prop :=
  earlier.2.service = later.2.service → later.1.rank ≠ .high ∨ later.2.reason.isLow = true →
    ∃ m m' : Moment, earlier.2.moment = .ok m ∧ later.2.moment = .ok m' ∧
      cooldown * 1000000 ≤ m'.micros - m.micros

/-- The measure is exact for a whole number of seconds that is not too large. -/
theorem Measured.apart {cooldown : Int} {earlier later : Policy × Update}
    (h : Measured settings earlier later) (hcooldown : settings.cooldown = .int cooldown)
    (hshort : cooldown ≤ 2 ^ 34) : Apart cooldown earlier later := by
  intro hsame hcalm
  obtain ⟨m, m', hm, hm', before, now, hbefore, hle, hnow, hlong⟩ := h hsame hcalm
  rw [hcooldown] at hlong
  have hpassed := Moment.le_of_atLeast_secondsOf (by omega) hshort hlong
  exact ⟨m, m', hm, hm', by omega⟩

variable {t : Int} {c : Course} {l : Look}

theorem Course.Remembers.look (h : c.Remembers t) (hle : t ≤ l.start) :
    (c.look settings l).Remembers (l.finish settings c.changes) := by
  obtain ⟨hsince, -⟩ := l.since settings c.changes
  have hpassed := hsince.le
  intro e he
  rcases mem_append.mp he with he | he
  · obtain ⟨name, m, r, hsvc, hm, hr, hmr, hrt⟩ := h e he
    by_cases hname : name = l.name
    · subst hname
      cases hnew : (l.after settings c.changes).updates with
      | nil =>
        refine ⟨l.name, m, r, hsvc, hm, ?_, hmr, by omega⟩
        exact (congrArg (lastChange? · l.name) (hsince.idle hnew)).trans hr
      | cons u us =>
        have hu : u ∈ (l.after settings c.changes).updates := by
          rw [hnew]
          exact mem_cons_self
        obtain ⟨-, m', r', -, hr', hm', hmr', hrt'⟩ := hsince.remembered u hu
        exact ⟨l.name, m, r', hsvc, hm, hr', by omega, hrt'⟩
    · exact ⟨name, m, r, hsvc, hm, (hsince.others name hname).trans hr, hmr, by omega⟩
  · obtain ⟨u, hu, rfl⟩ := mem_map.mp he
    obtain ⟨hsvc, m, r, hm, hr, -, hmr, hrt⟩ := hsince.remembered u hu
    exact ⟨l.name, m, r, hsvc, hm, hr, hmr, hrt⟩

/-- The updates of one look are apart: one that has to wait is alone. -/
theorem Waits.pairwise {p : Policy} {name : String} {new : List Update}
    (h : Waits settings p changes name t new) : (new.map (p, ·)).Pairwise (Measured settings) := by
  by_cases hcalm : ∃ u ∈ new, p.rank ≠ .high ∨ u.reason.isLow = true
  · obtain ⟨u, hu, hcalm⟩ := hcalm
    rw [(h u hu hcalm).1]
    exact pairwise_singleton _ _
  · refine pairwise_of_forall_mem_list fun e _ e' he' hsame hcalm' => ?_
    obtain ⟨u, hu, rfl⟩ := mem_map.mp he'
    exact absurd ⟨u, hu, hcalm'⟩ hcalm

theorem Course.pairwise_look (h : c.Remembers t) (hle : t ≤ l.start)
    (hlog : c.log.Pairwise (Measured settings)) :
    (c.look settings l).log.Pairwise (Measured settings) := by
  obtain ⟨hsince, hwaits⟩ := l.since settings c.changes
  refine pairwise_append.mpr ⟨hlog, hwaits.pairwise, fun e he e' he' hsame hcalm => ?_⟩
  obtain ⟨u, hu, rfl⟩ := mem_map.mp he'
  obtain ⟨name, m, r, hsvc, hm, hr, hmr, hrt⟩ := h e he
  obtain ⟨hsvc', -⟩ := hsince.remembered u hu
  have hname : name = l.name := by
    have htext := hsvc.symm.trans (hsame.trans hsvc')
    cases htext
    rfl
  subst hname
  obtain ⟨-, m', hm', hready⟩ := hwaits u hu hcalm
  obtain ⟨now, hlow, hhigh, hlong⟩ := hready r hr
  exact ⟨m, m', hm, hm', r.micros, now, hmr, by omega, hhigh, hlong⟩

theorem Course.pairwise_looks {ls : List Look} (hsteady : Steady settings t c ls) (h : c.Remembers t)
    (hlog : c.log.Pairwise (Measured settings)) :
    (c.looks settings ls).log.Pairwise (Measured settings) := by
  induction ls generalizing t c with
  | nil => exact hlog
  | cons l ls ih =>
    obtain ⟨hle, hrest⟩ := hsteady
    exact ih hrest (h.look hle) (Course.pairwise_look h hle hlog)

/-! ## Other services -/

def only (name : String) (changes : List (Value × Moment)) : List (Value × Moment) :=
  (lastChange? changes name).toList.map (.text name, ·)

theorem find?_only (name : String) (changes : List (Value × Moment)) :
    (only name changes).find? (·.1.same (.text name)) = changes.find? (·.1.same (.text name)) := by
  unfold only lastChange?
  cases hfind : changes.find? (·.1.same (.text name)) with
  | none => rfl
  | some entry =>
    have hname : entry.1 = .text name := same_text_right.mp (by simpa using find?_some hfind)
    obtain ⟨key, moment⟩ := entry
    subst hname
    simp

theorem only_eq_of_lastChange? {name : String}
    (h : lastChange? changes name = lastChange? changes' name) :
    only name changes = only name changes' := by
  unfold only
  rw [h]

theorem changedAt_only (name : String) (moment : Moment) (s : State) :
    (s.mapChanges (only name)).changedAt (.text name) moment =
      (s.changedAt (.text name) moment).mapChanges (only name) := by
  have hafter : only name (s.changedAt (.text name) moment).changes = [(.text name, moment)] := by
    unfold only
    rw [lastChange?_changedAt]
    rfl
  have hbefore : ((s.mapChanges (only name)).changedAt (.text name) moment).changes =
      [(.text name, moment)] := by
    unfold State.changedAt State.mapChanges only
    cases lastChange? s.changes name <;> simp
  show ({ s with
      changes := ((s.mapChanges (only name)).changedAt (.text name) moment).changes } : State) =
    { s with changes := only name (s.changedAt (.text name) moment).changes }
  rw [hbefore, hafter]

variable {name : String}

theorem commutes_readClock (f : List (Value × Moment) → List (Value × Moment)) :
    readClock.Commutes (State.mapChanges f) := by
  refine .bind (commutes_modify fun _ => rfl) fun _ => ?_
  exact commutes_get (fun _ => rfl) fun _ => alike_lift _

theorem commutes_mayChange :
    (mayChange settings (.text name)).Commutes (State.mapChanges (only name)) := by
  refine commutes_get (fun s => ?_) fun s => ?_
  · rw [show (s.mapChanges (only name)).changes.find? (·.1.same (.text name)) = _ from
      find?_only name s.changes]
  · split
    · exact alike_pure _
    · exact (commutes_readClock _).bind fun now => alike_lift _

theorem commutes_update (service : Service) (target : Value)
    (f : List (Value × Moment) → List (Value × Moment)) :
    (service.update target).Commutes (State.mapChanges f) := by
  refine .bind (commutes_modify fun _ => rfl) fun _ => ?_
  refine (quiet_reach.commutes f).bind fun _ => ?_
  split
  · exact alike_throw _
  · refine ((quiet_command _).commutes f).bind fun _ => ?_
    refine .read fun spec => ?_
    exact commutes_modify fun _ => rfl

theorem inherited_commutes (f : List (Value × Moment) → List (Value × Moment)) :
    Inherited (Commutes (State.mapChanges f)) :=
  ⟨fun h => h.commutes f, fun hx hnext => hx.bind hnext, fun h hhandler => h.handle hhandler⟩

/-- A look at a service does not depend on what is remembered of others. -/
theorem commutes_evaluate {p : Policy} (hp : p.service = .text name) :
    (evaluate settings p).Commutes (State.mapChanges (only name)) := by
  refine (inherited_commutes _).evaluate (hp ▸ commutes_mayChange) fun target reason => ?_
  rw [hp]
  exact (inherited_commutes _).scale
    (fun next hnext => ((quiet_service _).commutes _).bind fun found => hnext found trivial)
    (fun found _ => commutes_update found target _) (commutes_modify fun _ => rfl)
    (commutes_readClock _) fun now => commutes_modify (changedAt_only name now)

theorem Look.after_only (settings : Settings) (changes : List (Value × Moment)) (l : Look) :
    l.after settings (only l.name changes) = (l.after settings changes).mapChanges (only l.name) :=
  congrArg Prod.snd ((commutes_evaluate l.named).outcome { l.world with changes, updates := [] })

theorem Look.after_congr (settings : Settings) (h : only l.name changes = only l.name changes') :
    (l.after settings changes).updates = (l.after settings changes').updates ∧
      only l.name (l.after settings changes).changes =
        only l.name (l.after settings changes').changes := by
  have hsame : (l.after settings changes).mapChanges (only l.name) =
      (l.after settings changes').mapChanges (only l.name) := by
    rw [← Look.after_only, ← Look.after_only, h]
  exact ⟨congrArg (·.updates) hsame, congrArg (·.changes) hsame⟩

def IsOf (name : String) (e : Policy × Update) : Bool := e.2.service.same (.text name)

theorem isOf_updates (settings : Settings) (changes : List (Value × Moment)) (l : Look)
    (name : String) :
    ∀ e ∈ (l.after settings changes).updates.map (l.policy, ·), IsOf name e = (l.name == name) := by
  intro e he
  obtain ⟨u, hu, rfl⟩ := mem_map.mp he
  obtain ⟨hsvc, -⟩ := (l.since settings changes).1.remembered u hu
  unfold IsOf
  rw [hsvc, same_text_text]

/-- The updates of a service are those of the looks at it. -/
theorem Course.log_looks_filter {c' : Course}
    (hchgs : only name c.changes = only name c'.changes)
    (hlog : c.log.filter (IsOf name) = c'.log) (ls : List Look) :
    (c.looks settings ls).log.filter (IsOf name) =
      (c'.looks settings (ls.filter (·.name == name))).log := by
  induction ls generalizing c c' with
  | nil => exact hlog
  | cons l ls ih =>
    have hof := isOf_updates settings c.changes l name
    have hlook : (c.look settings l).log.filter (IsOf name) = c'.log ++
        ((l.after settings c.changes).updates.map (l.policy, ·)).filter (IsOf name) := by
      rw [← hlog]
      exact filter_append _ _
    by_cases hname : l.name = name
    · subst hname
      obtain ⟨hupdates, hafter⟩ := Look.after_congr settings hchgs
      have hall : ((l.after settings c.changes).updates.map (l.policy, ·)).filter (IsOf l.name) =
          (l.after settings c'.changes).updates.map (l.policy, ·) := by
        rw [filter_eq_self.mpr fun e he => (hof e he).trans (beq_self_eq_true _), hupdates]
      rw [filter_cons_of_pos (by simp)]
      exact ih hafter (hlook.trans (congrArg (c'.log ++ ·) hall))
    · have hnone :
          ((l.after settings c.changes).updates.map (l.policy, ·)).filter (IsOf name) = [] := by
        refine filter_eq_nil_iff.mpr fun e he => ?_
        rw [hof e he]
        simpa using hname
      have hothers := (l.since settings c.changes).1.others name (Ne.symm hname)
      rw [filter_cons_of_neg (by simpa using hname)]
      refine ih ((only_eq_of_lastChange? hothers).trans hchgs) (hlook.trans ?_)
      rw [hnone, append_nil]

/-- In every run with a clock that does not go back, two updates of a service are at least the
cooldown apart if the second one is of a service that is not of high priority, or asks for fewer
replicas because of a low load. The time between them is measured in floating-point seconds, which is
exact for cooldowns of up to 544 years. And the updates of a service are the same as in the run
without all looks at other services. -/
theorem updates_cool_down (settings : Settings) (changes : List (Value × Moment)) (ls : List Look)
    {t : Int} (hsteady : Steady settings t { changes } ls) :
    (Course.looks settings { changes } ls).log.Pairwise (Measured settings) ∧
      (∀ cooldown, settings.cooldown = .int cooldown → cooldown ≤ 2 ^ 34 →
        (Course.looks settings { changes } ls).log.Pairwise (Apart cooldown)) ∧
      ∀ name, (Course.looks settings { changes } ls).log.filter (IsOf name) =
        (Course.looks settings { changes } (ls.filter (·.name == name))).log := by
  have hmeasured := Course.pairwise_looks hsteady (forall_mem_nil _) .nil
  refine ⟨hmeasured, fun cooldown hcooldown hshort => ?_, fun name => ?_⟩
  · exact hmeasured.imp fun h => h.apart hcooldown hshort
  · exact Course.log_looks_filter rfl rfl ls

theorem State.reads_of_origin {s : State} (horigin : s.origin = ⟨0⟩) (hclock : s.clock = .int 0)
    (h : s.passed + s.pauses.sum < 10 ^ 17) : s.Reads s.passed := by
  have hspan : Moment.spanOf 1000000 (.int 0) = .ok 0 := rfl
  intro k hk
  unfold State.now
  rw [horigin, hclock, hspan, Outcome.ok_bind, Moment.plus]
  rw [if_pos (by dsimp only; omega)]
  congr 2
  push_cast
  ring

/-- A service of two replicas that run, with a high load, at the given microseconds. -/
def busyLook (micros : Nat) (pauses : List Nat) (h : micros + pauses.sum < 10 ^ 17) : Look where
  name := "api"
  policy := { urgentPolicy with priority := .text "medium" }
  world := {
    services := [{
      name := .text "api"
      attributes := .record [("Spec", .record [("Mode", .record [
        ("Replicated", .record [("Replicas", .int 2)])])])]
      tasks := .list [.record [("Status", .record [("State", .text "running")])],
        .record [("Status", .record [("State", .text "running")])]] }]
    replies := [.ok (.int 200, .record [("data", .record [("result", .list [
      .record [("value", .list [.int 0, .text "90"])]])])])]
    passed := micros
    pauses }
  start := micros
  named := rfl
  reads := State.reads_of_origin rfl rfl h

def busyLooks : List Look :=
  [busyLook 1000000 [3, 5] (by decide), busyLook 100000000 [] (by decide),
    busyLook 200000000 [] (by decide)]

theorem updates_cool_down_busy :
    let log := (Course.looks (.ofConfiguration configuration) {} busyLooks).log
    log.map (·.2.moment.toOption) = [some ⟨1000003⟩, some ⟨200000000⟩] ∧ log.Pairwise (Apart 180) := by
  refine ⟨by decide +kernel, ?_⟩
  have hsteady : Steady (.ofConfiguration configuration) 0 {} busyLooks :=
    ⟨by decide, by decide +kernel, by decide +kernel, trivial⟩
  obtain ⟨-, happart, -⟩ := updates_cool_down (.ofConfiguration configuration) [] busyLooks hsteady
  exact happart 180 rfl (by decide)

def longSettings : Settings := { Settings.ofConfiguration configuration with cooldown := .int (2 ^ 35) }

def longLooks : List Look :=
  [busyLook 1 [] (by decide), busyLook (2 ^ 35 * 1000000) [] (by decide)]

/-- A cooldown can be so long that a microsecond is lost when the time is measured. -/
theorem updates_cool_down_long :
    longSettings.cooldown = .int (2 ^ 35) ∧ Steady longSettings 0 {} longLooks ∧
      ¬ (Course.looks longSettings {} longLooks).log.Pairwise (Apart (2 ^ 35)) := by
  refine ⟨rfl, ⟨by decide, by decide +kernel, trivial⟩, fun h => ?_⟩
  have hlog : (Course.looks longSettings {} longLooks).log.map
      (fun e => (e.1.rank, IsOf "api" e, e.2.moment.toOption)) =
        [(.medium, true, some ⟨1⟩), (.medium, true, some ⟨2 ^ 35 * 1000000⟩)] := by decide +kernel
  obtain ⟨e, rest, hcons, hfirst, hrest⟩ := map_eq_cons_iff.mp hlog
  obtain ⟨e', last, hcons', hsecond, -⟩ := map_eq_cons_iff.mp hrest
  rw [hcons, hcons'] at h
  have hservice : e.2.service = e'.2.service := by
    have hof : e.2.service.same (.text "api") = true := congrArg (·.2.1) hfirst
    have hof' : e'.2.service.same (.text "api") = true := congrArg (·.2.1) hsecond
    rw [Value.same_text_right.mp hof, Value.same_text_right.mp hof']
  have hrank : e'.1.rank ≠ .high := by
    rw [show e'.1.rank = .medium from congrArg (·.1) hsecond]
    decide
  obtain ⟨m, m', hm, hm', hle⟩ :=
    (pairwise_cons.mp h).1 e' mem_cons_self hservice (.inl hrank)
  have hfirst' : e.2.moment.toOption = some ⟨1⟩ := congrArg (·.2.2) hfirst
  have hsecond' : e'.2.moment.toOption = some ⟨2 ^ 35 * 1000000⟩ := congrArg (·.2.2) hsecond
  rw [hm] at hfirst'
  rw [hm'] at hsecond'
  cases hfirst'
  cases hsecond'
  dsimp only at hle
  omega

end SheetMill.Swarm
