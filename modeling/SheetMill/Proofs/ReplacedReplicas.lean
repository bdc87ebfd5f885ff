import SheetMill.Proofs.ScalingSteps

/-!
# Replicas that are down under a high load

The number that is asked for in place of replicas that are down is overruled at once: the rule for a
high load asks for one more than there were. Without a limit the first number is even minus one,
since minus one is what is written for it and the room is computed from that. A service that has
replicas gets one more under a high load. The number zero is taken for one that could not be read, so
a service that has shrunk to zero stays there.
-/

namespace SheetMill.Swarm

open Act Value

variable {name : String} {count hi : Int} {asked : List Value} {s s' : State} {p : Policy}
  {settings : Settings} {load : Float}

/-- The service is meant to have a number of replicas, updates of it are accepted, and the clock can
be read. -/
structure State.Accepts (s : State) (name : String) (count : Int) (asked : List Value) : Prop where
  calm : s.troubles = []
  found : ∃ service, s.services.find? (·.name.same (.text name)) = some service ∧
    service.updateFault = none ∧ service.replicas = .ok (.int count)
  asked : s.asked (.text name) = asked
  reads : ∃ t, s.Reads t

namespace State.Accepts

theorem of_same (h : s.Accepts name count asked) (hreads : ∃ t, s'.Reads t)
    (hsame : s'.troubles = s.troubles ∧ s'.holdings = s.holdings) : s'.Accepts name count asked := by
  have hservices : s'.services = s.services := congrArg (·.1) hsame.2
  have htgts : s'.targets = s.targets := congrArg (·.2.1) hsame.2
  refine ⟨hsame.1.trans h.calm, hservices ▸ h.found, ?_, hreads⟩
  rw [State.asked, htgts]
  exact h.asked

theorem told (h : s.Accepts name count asked) (line : Line) :
    (Journaled.addLine line s).Accepts name count asked :=
  h.of_same (h.reads.imp fun _ ht => ht.of_time rfl) ⟨rfl, rfl⟩

theorem shown? (h : s.Accepts name count asked) : s.shown? (.text name) = some (.int count) := by
  obtain ⟨service, hfind, -, hreps⟩ := h.found
  rw [State.shown?, hfind]
  dsimp only
  rw [hreps]
  rfl

theorem reach (h : s.troubles = []) : reach s = .ok () s := by
  cases s
  cases h
  rfl

theorem service (h : s.Accepts name count asked) :
    ∃ found, service (.text name) s = .ok found s ∧
      s.services.find? (·.name.same (.text name)) = some found ∧ found.name = .text name ∧
      found.updateFault = none ∧ found.replicas = .ok (.int count) := by
  obtain ⟨found, hfind, hfault, hreps⟩ := h.found
  have hname : found.name.same (.text name) = true := by simpa using List.find?_some hfind
  refine ⟨found, ?_, hfind, same_text_right.mp hname, hfault, hreps⟩
  rw [service_text, bind_of_ok (reach h.calm), bind_of_ok (get_run s), hfind]
  rfl

end State.Accepts

theorem item_withField_of_ok {v w x : Value} {field : String} (h : v.item field = .ok x) :
    (v.withField field w).item field = .ok w := by
  rw [item_eq_ok] at h ⊢
  cases v with
  | map es => simp [Value.withField, field?_map, findEntry_setEntry]
  | _ => cases h

/-- An update that is accepted changes the number to the one that was asked for. -/
theorem ends_update_accepted (h : s.Accepts name count asked) {found : Service}
    (hname : found.name = .text name) (hfault : found.updateFault = none)
    (hreps : found.replicas = .ok (.int count)) (target : Int) :
    (found.update (.int target)).Ends s
      (fun _ s' => s'.Accepts name target (asked ++ [.int target])) fun _ _ => False := by
  obtain ⟨spec, hspec, hmode⟩ := Outcome.bind_eq_ok.mp hreps
  obtain ⟨mode, hmode, -⟩ := Outcome.bind_eq_ok.mp hmode
  refine .bind (ends_modify (.bind (ends_of_ok (State.Accepts.reach h.calm) ?_)))
  rw [hfault]
  refine .bind (ends_modify (.known hspec (ends_modify ⟨h.calm, ?_, ?_, ?_⟩)))
  · refine ⟨_, find?_addService (by exact hname) _, rfl, ?_⟩
    simp only [Service.replicas, item_withField_of_ok hspec, item_withField_of_ok hmode,
      Outcome.ok_bind]
    rfl
  · rw [← h.asked]
    simp [State.asked, State.withService, List.filter_append, hname]
  · exact h.reads.imp fun _ ht => ht.of_time rfl

theorem ends_scale_accepted (h : s.Accepts name count asked) (hcnt : count ≠ 0) (target : Int)
    (reason : Reason) : (scale (.text name) (.int target) reason).Ends s
      (fun _ s' => s'.Accepts name target (asked ++ [.int target])) fun _ _ => False := by
  obtain ⟨found, hrun, -, hname, hfault, hreps⟩ := h.service
  have hmeant : meantReplicas (.text name) s = .ok (.int count) s :=
    handle_of_ok ((bind_of_ok hrun).trans (lift_of_ok hreps s))
  refine .handle (Ends.mono_ok ?_ fun _ _ hs => hs)
  refine .bind (ends_of_ok hrun (.bind (ends_of_ok hmeant ?_)))
  rw [if_neg (by simpa [truthy] using hcnt)]
  refine .bind ((ends_update_accepted h hname hfault hreps target).mono_ok fun _ s1 h1 => ?_)
  have h2 : (s1.updated (.text name) (.int target) reason).Accepts name target
      (asked ++ [.int target]) := by
    obtain ⟨t, ht⟩ := h1.reads
    obtain ⟨t', -, htick⟩ := ht.tick
    exact h1.of_same ⟨t', htick.of_time rfl⟩ ⟨rfl, rfl⟩
  refine .bind (ends_modify (.known (greater_int target count) (.bind (ends_modify ?_))))
  obtain ⟨t, ht⟩ := (h2.told _).reads
  refine .bind ((ends_readClock ht).mono_ok fun now s3 h3 => ?_)
  obtain ⟨t', -, rfl, hreads, -⟩ := h3
  exact .bind (ends_modify (ends_pure (h2.of_same ⟨t', hreads.of_time rfl⟩ ⟨rfl, rfl⟩)))

/-- When the clock is looked at next, the last change of the service is long enough ago. -/
def State.Rested (s : State) (settings : Settings) (name : String) : Prop :=
  ∀ r now, lastChange? s.changes name = some r → s.tick.now = .ok now →
    (Value.float (Moment.secondsOf (now.micros - r.micros))).atLeast settings.cooldown = .ok true

theorem ends_mayChange_accepted (h : s.Accepts name count asked)
    (hcooldown : settings.cooldown.IsNumber) :
    (mayChange settings (.text name)).Ends s
      (fun may s' => s'.Accepts name count asked ∧ (s.Rested settings name → may = true))
      fun _ _ => False := by
  refine .get ?_
  cases hfind : s.changes.find? (·.1.same (.text name)) with
  | none => exact ends_pure ⟨h, fun _ => rfl⟩
  | some entry =>
    obtain ⟨t, ht⟩ := h.reads
    refine .bind ((ends_readClock ht).mono_ok fun now s1 h1 => ?_)
    obtain ⟨t', -, rfl, hreads, rfl⟩ := h1
    obtain ⟨may, hmay⟩ : ∃ may, (Value.float (Moment.secondsOf (t' - entry.2.micros))).atLeast
        settings.cooldown = .ok may := IsNumber.atLeast rfl hcooldown
    refine ends_of_ok (lift_of_ok hmay _) ⟨h.of_same ⟨t', hreads⟩ ⟨rfl, rfl⟩, fun hrested => ?_⟩
    have hlong := hrested entry.2 ⟨t'⟩ (by rw [lastChange?, hfind]; rfl) hreads.now
    exact Except.ok.inj (hmay.symm.trans hlong)

/-- A service with a high load, and a policy whose numbers can be compared. -/
structure Policy.Loaded (p : Policy) (settings : Settings) (name : String) (hi : Int)
    (load : Float) : Prop where
  service : p.service = .text name
  most : p.most = .int hi
  high : (Value.float load).greater p.upAbove = .ok true
  downBelow : p.downBelow.IsNumber
  cooldown : settings.cooldown.IsNumber

/-- A service that matters with a high load, and a policy whose numbers can be compared. -/
structure Policy.Strained (p : Policy) (settings : Settings) (name : String) (hi : Int)
    (load : Float) : Prop extends p.Loaded settings name hi load where
  rank : p.rank = .high

/-- Whether the rule for a high load adds a replica. -/
def grows (hi cur : Int) : Bool := hi = -1 || cur < hi

theorem ends_recover_accepted (hp : p.Strained settings name hi load)
    (h : s.Accepts name count asked) (hcnt : count ≠ 0) (down : Int) :
    (recover p (.int down) (.int count) load).Ends s
      (fun _ s' => s'.Accepts name (count + min down (hi - count))
        (asked ++ [.int (count + min down (hi - count))])) fun _ _ => False := by
  unfold recover
  rw [hp.rank]
  refine .known hp.high ?_
  rw [if_pos rfl, hp.most, hp.service]
  refine .bind (ends_modify (.known (sub_int hi count) (.known (smaller_int down _)
    (.known (add_int count _) (.bind ?_)))))
  exact (ends_scale_accepted (h.told _) hcnt _ _).mono_ok fun _ _ hs => ends_pure hs

/-- The rule for a high load asks for one replica more if there is room for it. -/
theorem ends_adjust_accepted (hp : p.Loaded settings name hi load)
    (hgo : p.rank = .high ∨ s.Rested settings name) {first : Int} (h : s.Accepts name first asked)
    {Q : State → Prop}
    (hgrown : grows hi count = true → ∀ {s1 : State} reason, s1.Accepts name first asked →
      (scale (.text name) (.int (count + 1)) reason).Ends s1 (fun _ => Q) fun _ _ => False)
    (hfull : grows hi count = false → ∀ s1 : State, s1.Accepts name first asked → Q s1) :
    (adjust settings p (.int count) load).Ends s (fun _ => Q) fun _ _ => False := by
  have hurgent : p.isUrgent load = .ok (decide (p.rank = .high)) := by
    unfold Policy.isUrgent
    split
    · rename_i hrank
      rw [hp.high, decide_eq_true hrank]
    · rename_i hrank
      rw [decide_eq_false hrank]
  have hgrows : p.mayGrow (.int count) = .ok (grows hi count) := by
    unfold Policy.mayGrow Policy.isUnlimited grows
    rw [hp.most, less_int]
    have hsame : (Value.int hi).same (.int (-1)) = decide (hi = -1) := by
      rw [Bool.eq_iff_iff]
      simp [same, sameScalar, asInt?]
    rw [hsame]
    by_cases hnone : hi = -1
    · simp [hnone]
    · simp [hnone]
  obtain ⟨isLow, hlow⟩ : ∃ isLow, (Value.float load).less p.downBelow = .ok isLow :=
    IsNumber.less rfl hp.downBelow
  unfold adjust
  rw [hp.service]
  refine .known hurgent (.bind ((ends_mayChange_accepted h hp.cooldown).mono_ok fun may s1 h1 => ?_))
  have hgoes : ¬ (!may && !decide (p.rank = .high)) = true := by
    rcases hgo with hrank | hrested
    · simp [hrank]
    · simp [h1.2 hrested]
  rw [if_neg hgoes]
  refine .known hp.high (.known hlow ?_)
  refine .known hgrows ?_
  split
  · rename_i hroom
    refine .known (add_int count 1) (.bind ?_)
    exact (hgrown hroom _ h1.1).mono_ok fun _ _ hs => ends_pure hs
  · rename_i hroom
    exact ends_modify (hfull (Bool.eq_false_iff.mpr hroom) _ (h1.1.told _))

/-- A service that matters, has replicas down and a high load is first asked to have as many more as
are down, as far as there is room, and then, if it may grow, to have just one more. So no target is
below the number that was read and all that are down are replaced exactly if there is a limit and
no more than one replica is due. -/
theorem replaced_iff_single {s₁ s₂ : State} {running : Nat} {current : Int}
    (hp : p.Strained settings name hi load) (hload : p.load? settings s = .ok (some load) s₁)
    (hread : bothReplicas p.service s₁ = .ok (some (running, .int current)) s₂)
    (hs : s₂.Accepts name current asked) (hdown : 0 < current - running)
    (hmode : hi = -1 ∨ current ≤ hi) :
    let first := current + min (current - running) (hi - current)
    let targets := first :: if grows hi current then [current + 1] else []
    let final := if grows hi current then current + 1 else current
    let due := if hi = -1 then current - running else min (current - running) (hi - current)
    ∃ s', evaluate settings p s = .ok () s' ∧
      s'.asked (.text name) = asked ++ targets.map .int ∧
      s'.shown? (.text name) = some (.int final) ∧
      ((∀ target ∈ targets, current ≤ target) ∧ current + due ≤ final ↔ hi ≠ -1 ∧ due ≤ 1) := by
  intro first targets final due
  have hfinal : (if grows hi current then current + 1 else first) = final := by
    simp only [final, first, grows]
    grind
  have hends : (evaluate settings p).Ends s
      (fun _ s' => s'.Accepts name final (asked ++ targets.map .int)) fun _ _ => False := by
    unfold evaluate
    refine .bind (ends_of_ok hload (.bind (ends_of_ok hread ?_)))
    refine .known (sub_int current running) (.known (greater_int _ 0) ?_)
    rw [if_pos (decide_eq_true hdown)]
    refine .bind ((ends_recover_accepted hp hs (by omega) _).mono_ok fun _ s3 h3 => ?_)
    refine ends_adjust_accepted hp.toLoaded (.inl hp.rank) h3 (fun hgrows {s4} reason h4 => ?_)
      fun hfull s4 h4 => ?_
    · simpa [targets, final, first, hgrows] using ends_scale_accepted h4 (by omega) (current + 1) reason
    · rw [← hfinal]
      simpa [targets, hfull] using h4
  rcases hends.cases with ⟨_, s', hrun, hs'⟩ | ⟨_, _, _, hfalse⟩
  · refine ⟨s', hrun, hs'.asked, hs'.shown?, ?_⟩
    have hleast : (∀ target ∈ targets, current ≤ target) ↔ current ≤ first := by
      simp only [targets, List.forall_mem_cons, and_iff_left_iff_imp]
      intro _ target htarget
      split at htarget
      · rw [List.mem_singleton.mp htarget]
        omega
      · cases htarget
    rw [hleast]
    simp only [final, due, first, grows]
    grind
  · exact hfalse.elim

set_option maxRecDepth 10000 in
/-- Two replicas are due, and of the two only one is added in the end. -/
theorem replaced_iff_single_two_down :
    urgentPolicy.Strained (.ofConfiguration configuration) "api" 4 90.0 ∧
      ∃ s' : State, evaluate (.ofConfiguration configuration) urgentPolicy brokenSwarm = .ok () s' ∧
        s'.asked (.text "api") = [.int 4, .int 3] ∧ s'.shown? (.text "api") = some (.int 3) := by
  have hp : urgentPolicy.Strained (.ofConfiguration configuration) "api" 4 90.0 :=
    ⟨⟨rfl, rfl, rfl, rfl, rfl⟩, rfl⟩
  have hlook : ∃ s₁ s₂, urgentPolicy.load? (.ofConfiguration configuration) brokenSwarm =
      .ok (some 90.0) s₁ ∧ bothReplicas urgentPolicy.service s₁ = .ok (some (0, .int 2)) s₂ ∧
      s₂.Accepts "api" 2 [] := by
    refine ⟨_, _, rfl, rfl, rfl, ⟨_, rfl, rfl, rfl⟩, rfl, 0, ?_⟩
    intro k hk
    obtain rfl : k = 0 := Nat.le_zero.mp hk
    rfl
  obtain ⟨s₁, s₂, hload, hread, hs⟩ := hlook
  obtain ⟨s', hrun, hasked, hshown, -⟩ :=
    replaced_iff_single hp hload hread hs (by omega) (by omega)
  exact ⟨hp, s', hrun, hasked, hshown⟩

/-! ## Tasks that have failed -/

/-- The tasks of a service can be read, each with its state. -/
def State.Lists (s : State) (name : String) : Prop :=
  ∀ service, s.services.find? (·.name.same (.text name)) = some service →
    service.tasksFault = none ∧ ∃ items, service.tasks.items = .ok items ∧
      ∀ task ∈ items, (∃ state, stateOf task = .ok state) ∧ ∃ id, task.getD "ID" .null = .ok id

theorem ends_kill (h : s.troubles = []) (task : Value) :
    (kill task).Ends s (fun _ s' => s'.troubles = [])
      fun f s' => f.isOrdinary = true ∧ s'.troubles = [] := by
  refine .bind (ends_modify (.bind (ends_of_ok (State.Accepts.reach h) (.bind (ends_get ?_)))))
  split
  · exact ends_throw ⟨rfl, h⟩
  · exact ends_pure h

theorem ends_stopFailedTasks (h : s.Accepts name count asked) (htasks : s.Lists name) :
    (stopFailedTasks (.text name)).Ends s (fun _ s' => s'.troubles = []) fun _ _ => False := by
  obtain ⟨found, hrun, hfind, -⟩ := h.service
  obtain ⟨hfault, items, hitems, hread⟩ := htasks found hfind
  have hall : found.allTasks s = .ok found.tasks s := by
    unfold Service.allTasks
    rw [bind_of_ok (State.Accepts.reach h.calm), hfault]
    rfl
  refine .bind (ends_of_ok hrun (.bind (ends_of_ok hall (.known hitems ?_))))
  refine .bind ((Ends.forIn (P := fun s' : State => s'.troubles = []) (fun task htask s1 h1 => ?_)
    h.calm).mono_ok fun _ _ h1 => ends_pure h1)
  obtain ⟨⟨state, hstate⟩, id, hid⟩ := hread task htask
  refine .known hstate ?_
  split
  · refine .known hid (.bind (ends_modify (.bind (.handle ?_))))
    refine (ends_kill (by exact h1) id).mono (fun _ _ h2 => ends_pure ⟨rfl, h2⟩) fun _ _ h2 => ?_
    exact ⟨fun _ => ends_modify (ends_pure ⟨rfl, h2.2⟩), fun hstop => by simp [h2.1] at hstop⟩
  · exact ends_pure ⟨rfl, h1⟩

theorem Quiet.ends_and {α : Type} {work : Work α} {Q : α → State → Prop} (h : Quiet work)
    (hends : work.Ends s Q fun _ _ => False) :
    work.Ends s (fun a s' => Q a s' ∧ s'.standing = s.standing) fun _ _ => False := by
  rcases hends.cases with ⟨a, s', hrun, ha⟩ | ⟨_, _, _, hfalse⟩
  · rcases (h.ends s).cases with ⟨_, _, hrun', hsame⟩ | ⟨_, _, hrun', -⟩
    · cases hrun.symm.trans hrun'
      exact ends_of_ok hrun ⟨ha, hsame⟩
    · cases hrun.symm.trans hrun'
  · exact hfalse.elim

/-- Unless the service matters most, nothing is changed for replicas that are down. -/
theorem ends_recover_calm (hp : p.service = .text name) (hrank : p.rank ≠ .high)
    (h : s.Accepts name count asked) (htasks : s.Lists name) (down current : Value) :
    (recover p down current load).Ends s
      (fun _ s' => s'.troubles = [] ∧ s'.standing = s.standing) fun _ _ => False := by
  unfold recover
  rw [hp]
  split
  · exact absurd ‹_› hrank
  · refine Quiet.ends_and (.bind (quiet_tell _ _) fun _ => quiet_stopFailedTasks _) ?_
    exact .bind (ends_modify (ends_stopFailedTasks (h.told _) htasks))
  · exact (quiet_tell _ _).ends_and (ends_modify h.calm)
  · exact ends_pure ⟨h.calm, rfl⟩

theorem State.Accepts.of_standing (h : s.Accepts name count asked) (hcalm : s'.troubles = [])
    (hsame : s'.standing = s.standing) : s'.Accepts name count asked :=
  h.of_same (h.reads.imp fun _ ht => ht.of_time (congrArg (·.2.2) hsame))
    ⟨hcalm.trans h.calm.symm, congrArg (·.1) hsame⟩

theorem State.Rested.of_standing (h : s.Rested settings name) (hsame : s'.standing = s.standing) :
    s'.Rested settings name := by
  have hchanges : s'.changes = s.changes := congrArg (·.2.1.1) hsame
  have hnow : s'.tick.now = s.tick.now := by
    have htime : s'.time = s.time := congrArg (·.2.2) hsame
    simp only [State.time, Prod.mk.injEq] at htime
    simp only [State.now, State.tick, htime]
  unfold State.Rested
  rw [hchanges, hnow]
  exact h

/-- A service with replicas that may grow gets one more. -/
theorem ends_evaluate_grown {s₁ s₂ : State} {running : Nat}
    (hp : p.Loaded settings name hi load) (hload : p.load? settings s = .ok (some load) s₁)
    (hread : bothReplicas p.service s₁ = .ok (some (running, .int count)) s₂)
    (hs : s₂.Accepts name count asked) (hrested : s₂.Rested settings name)
    (htasks : s₂.Lists name) (hcnt : count ≠ 0) (hroom : count < hi) :
    (evaluate settings p).Ends s
      (fun _ s' => s'.shown? (.text name) = some (.int (count + 1))) fun _ _ => False := by
  have hgrows : grows hi count = true := by simp [grows, hroom]
  have hadjust : ∀ {first : Int} {s3 : State} {asked' : List Value}, first ≠ 0 →
      s3.Accepts name first asked' → p.rank = .high ∨ s3.Rested settings name →
      (adjust settings p (.int count) load).Ends s3
        (fun _ s' => s'.shown? (.text name) = some (.int (count + 1))) fun _ _ => False := by
    intro first s3 asked' hne h3 hgo
    refine ends_adjust_accepted hp hgo h3 (fun _ {s4} reason h4 => ?_) fun hfull => ?_
    · exact (ends_scale_accepted h4 hne _ reason).mono_ok fun _ _ h5 => h5.shown?
    · simp [hgrows] at hfull
  unfold evaluate
  refine .bind (ends_of_ok hload (.bind (ends_of_ok hread ?_)))
  refine .known (sub_int count running) (.known (greater_int _ 0) ?_)
  split
  · rename_i hdown
    rw [decide_eq_true_eq] at hdown
    by_cases hrank : p.rank = .high
    · refine .bind ((ends_recover_accepted ⟨hp, hrank⟩ hs hcnt _).mono_ok fun _ s3 h3 => ?_)
      exact hadjust (by omega) h3 (.inl hrank)
    · refine .bind ((ends_recover_calm hp.service hrank hs htasks _ _).mono_ok fun _ s3 h3 => ?_)
      exact hadjust hcnt (hs.of_standing h3.1 h3.2) (.inr (hrested.of_standing h3.2))
  · exact hadjust hcnt hs (.inr hrested)

/-! ## Without replicas -/

variable {lo count₀ : Int} {before : List Value} {first : State}

/-- No replicas are taken for a number that could not be read. -/
theorem ensures_scale_none (target : Value) (reason : Reason) :
    Sustains (Held name 0 0 before) (scale (.text name) target reason) := by
  refine .handle ((ensures_of_quiet (quiet_service _)).bind fun found _ => ?_) fun f =>
    ensures_of_quiet (quiet_complain _ _)
  refine (ensures_of_ends (Q := fun v => v.truthy = false) (ends_meantReplicas · name)
    fun s v hs hv => ?_).bind fun current hcur => ?_
  · rcases hv with rfl | hshown
    · rfl
    · obtain ⟨r, rfl, hle, hge⟩ := hs.shown v hshown
      obtain rfl : r = 0 := by omega
      rfl
  · rw [if_pos (by simp [hcur])]
    exact ensures_of_quiet (quiet_complain _ _)

/-- A service that has no replicas never gets any. -/
theorem Policy.Run.none_left (hp : p.service = .text name) (h : p.Run first 0 s count) :
    count = 0 := by
  have hkeep : ∀ settings, Sustains (Held name 0 0 (first.asked (.text name))) (evaluate settings p) := by
    intro settings
    refine (inherited_sustains ensures_of_quiet).evaluate
      (ensures_of_keeps (keeps_mayChange settings _)) fun target reason => ?_
    rw [hp]
    exact ensures_scale_none target reason
  have hbounds := (h.held_of_sustains hp hkeep le_rfl le_rfl).2
  omega

/-- Under a high load a service that may be changed and has room gets one replica more, unless it has
none: it may have come to that if its policy allows it, and stays without replicas for ever. -/
theorem grows_unless_none_left {s₁ s₂ : State} {running : Nat} (hp : p.Bounds name lo hi)
    (hlo : lo ≤ count₀) (hhi : count₀ ≤ hi) (hrun : p.Run first count₀ s count) (hroom : count < hi)
    (hload : p.load? settings s = .ok (some load) s₁)
    (hhigh : (Value.float load).greater p.upAbove = .ok true)
    (hdown : p.downBelow.IsNumber) (hcooldown : settings.cooldown.IsNumber)
    (hread : bothReplicas p.service s₁ = .ok (some (running, .int count)) s₂)
    (hs : s₂.Accepts name count asked) (hrested : s₂.Rested settings name)
    (htasks : s₂.Lists name) :
    (count ≠ 0 → ∃ s', evaluate settings p s = .ok () s' ∧
      s'.shown? p.service = some (.int (count + 1))) ∧
    (count = 0 → lo = 0 ∧ ∀ s' count', p.Run s 0 s' count' → count' = 0) := by
  refine ⟨fun hcnt => ?_, fun hnone => ⟨?_, fun s' count' h => h.none_left hp.service⟩⟩
  · have hloaded : p.Loaded settings name hi load :=
      ⟨hp.service, hp.most, hhigh, hdown, hcooldown⟩
    rcases (ends_evaluate_grown hloaded hload hread hs hrested htasks hcnt hroom).cases with
      ⟨_, s', hs', hshown⟩ | ⟨_, _, _, hfalse⟩
    · exact ⟨s', hs', hp.service ▸ hshown⟩
    · exact hfalse.elim
  · have hbounds := (hrun.held hp hlo hhi).2
    have hnonneg := hp.nonneg
    omega

def lowPolicy : Policy := { urgentPolicy with priority := .text "medium", least := .int 0 }

def patient : Settings := { Settings.ofConfiguration configuration with cooldown := .float 0 }

/-- The load of the service is low twice and then high. -/
def fadingSwarm : State :=
  { brokenSwarm with replies := ["10", "10", "90"].map fun load => .ok (.int 200, .record [
      ("data", .record [("result", .list [.record [("value", .list [.int 0, .text load])]])])]) }

def fadedSwarm : State :=
  ((evaluate patient lowPolicy).outcome ((evaluate patient lowPolicy).outcome fadingSwarm).2).2

set_option maxRecDepth 10000 in
/-- After two rounds with a low load no replica is left, and none comes back under a high load. -/
theorem grows_unless_none_left_faded :
    lowPolicy.Bounds "api" 0 4 ∧ lowPolicy.Run fadingSwarm 2 fadedSwarm 0 ∧
      (∃ s, lowPolicy.load? patient fadedSwarm = .ok (some 90.0) s) ∧
      ∀ s' count', lowPolicy.Run fadedSwarm 0 s' count' → count' = 0 := by
  have hp : lowPolicy.Bounds "api" 0 4 := ⟨rfl, rfl, rfl, by omega, by omega⟩
  have hstart : fadingSwarm.Shows (.text "api") 2 := fun v hv => (Option.some.inj hv).symm
  have hrun : lowPolicy.Run fadingSwarm 2 fadedSwarm 0 :=
    .look patient (.look patient (.start (p := lowPolicy) hstart))
  have hlook : ∃ s₁ s₂, lowPolicy.load? patient fadedSwarm = .ok (some 90.0) s₁ ∧
      bothReplicas lowPolicy.service s₁ = .ok (some (0, .int 0)) s₂ ∧
      s₂.Accepts "api" 0 [.int 1, .int 0] ∧ s₂.Rested patient "api" ∧ s₂.Lists "api" := by
    refine ⟨_, _, rfl, rfl, ⟨rfl, ⟨_, rfl, rfl, rfl⟩, rfl, 0, ?_⟩, ?_, ?_⟩
    · intro k hk
      obtain rfl : k = 0 := Nat.le_zero.mp hk
      rfl
    · intro r now hr hnow
      cases hr
      cases hnow
      rfl
    · intro service hservice
      cases hservice
      exact ⟨rfl, [], rfl, List.forall_mem_nil _⟩
  obtain ⟨s₁, s₂, hload, hread, hs, hrested, htasks⟩ := hlook
  have hstuck := (grows_unless_none_left hp (by omega) (by omega) hrun (by omega) hload rfl rfl rfl
    hread hs hrested htasks).2 rfl
  exact ⟨hp, hrun, ⟨s₁, hload⟩, hstuck.2⟩

end SheetMill.Swarm
