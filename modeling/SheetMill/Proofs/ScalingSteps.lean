import SheetMill.Proofs.ReplicaBounds

/-!
# What one look at a service does

One look at a service may update the service twice, and time may pass before every look at the
clock. Whatever goes wrong on the way, each update that went through is remembered with a moment
that is not before it, and nothing that is remembered of other services changes.
-/

namespace SheetMill.Swarm

open Act List Value

/-! ## The clock -/

/-- The clock shows the given microseconds, and can be read in all the time that is to pass. -/
def State.Reads (s : State) (t : Int) : Prop :=
  ∀ k ≤ s.pauses.sum, ({ s with passed := s.passed + k } : State).now = .ok ⟨t + k⟩

def State.time (s : State) : Moment × Value × Nat × List Nat := (s.origin, s.clock, s.passed,
  s.pauses)

variable {s s' s'' : State} {t t' t'' : Int} {target : Value} {changes : List (Value × Moment)}

theorem State.Reads.now (h : s.Reads t) : s.now = .ok ⟨t⟩ := by
  have hnow := h 0 (Nat.zero_le _)
  rwa [Int.natCast_zero, Int.add_zero] at hnow

theorem State.Reads.of_time (h : s.Reads t) (hsame : s'.time = s.time) : s'.Reads t := by
  have horigin : s'.origin = s.origin := congrArg (·.1) hsame
  have hclock : s'.clock = s.clock := congrArg (·.2.1) hsame
  have hpassed : s'.passed = s.passed := congrArg (·.2.2.1) hsame
  have hpauses : s'.pauses = s.pauses := congrArg (·.2.2.2) hsame
  intro k hk
  rw [hpauses] at hk
  have hnow := h k hk
  rw [horigin, hclock, hpassed]
  exact hnow

theorem State.Reads.tick (h : s.Reads t) : ∃ t', t ≤ t' ∧ s.tick.Reads t' := by
  refine ⟨t + s.pauses.headD 0, by omega, ?_⟩
  intro k hk
  have hsum : s.pauses.headD 0 + s.pauses.tail.sum = s.pauses.sum := by
    cases s.pauses <;> simp
  have hnow := h (s.pauses.headD 0 + k) (by change k ≤ s.pauses.tail.sum at hk; omega)
  have hmoment : t + s.pauses.headD 0 + k = t + (s.pauses.headD 0 + k : Nat) := by push_cast; ring
  rw [hmoment, ← hnow]
  unfold State.now State.tick
  simp only [Nat.add_assoc]

/-! ## What is remembered -/

def State.memory (s : State) :
    (List (Value × Moment) × List Update) × (Moment × Value × Nat × List Nat) :=
  ((s.changes, s.updates), s.time)

def lastChange? (changes : List (Value × Moment)) (name : String) : Option Moment :=
  (changes.find? (·.1.same (.text name))).map (·.2)

theorem lastChange?_changedAt (s : State) (name : String) (moment : Moment) :
    lastChange? (s.changedAt (.text name) moment).changes name = some moment := by
  simp [lastChange?, State.changedAt]

theorem lastChange?_changedAt_of_ne (s : State) {name other : String} (hne : other ≠ name)
    (moment : Moment) :
    lastChange? (s.changedAt (.text name) moment).changes other = lastChange? s.changes other := by
  have hhead : (text name).same (.text other) = false := by simp [Ne.symm hne]
  have hrest : ∀ entry : Value × Moment,
      decide ((!entry.1.same (.text name)) = true ∧ entry.1.same (.text other) = true) =
        entry.1.same (.text other) := by
    intro entry
    cases hother : entry.1.same (.text other) with
    | false => simp
    | true =>
      rw [same_text_right.mp hother]
      simp [hne]
  simp only [lastChange?, State.changedAt, find?_cons, hhead, find?_filter, hrest]

/-- From one state to another some updates of a service went through. -/
structure Since (name : String) (t : Int) (s : State) (new : List Update) (t' : Int) (s' : State) :
    Prop where
  reads : s'.Reads t'
  le : t ≤ t'
  updates : s'.updates = s.updates ++ new
  idle : new = [] → s'.changes = s.changes
  others : ∀ other, other ≠ name → lastChange? s'.changes other = lastChange? s.changes other
  remembered : ∀ u ∈ new, u.service = .text name ∧ ∃ m r : Moment, u.moment = .ok m ∧
    lastChange? s'.changes name = some r ∧ t ≤ m.micros ∧ m.micros ≤ r.micros ∧ r.micros ≤ t'

variable {name : String} {new new' : List Update}

theorem Since.of_memory (h : s.Reads t) (hsame : s'.memory = s.memory) : Since name t s [] t s' where
  reads := h.of_time (congrArg (·.2) hsame)
  le := le_rfl
  updates := by rw [append_nil]; exact congrArg (·.1.2) hsame
  idle _ := congrArg (·.1.1) hsame
  others other _ := congrArg (fun memory => lastChange? memory.1.1 other) hsame
  remembered := forall_mem_nil _

theorem Since.tick (hle : t ≤ t') (h : s.tick.Reads t') : Since name t s [] t' s.tick :=
  ⟨h, hle, (append_nil _).symm, fun _ => rfl, fun _ _ => rfl, forall_mem_nil _⟩

theorem Since.trans (h : Since name t s new t' s') (h' : Since name t' s' new' t'' s'') :
    Since name t s (new ++ new') t'' s'' where
  reads := h'.reads
  le := h.le.trans h'.le
  updates := by rw [h'.updates, h.updates, append_assoc]
  idle hnone := by
    rw [append_eq_nil_iff] at hnone
    exact (h'.idle hnone.2).trans (h.idle hnone.1)
  others other hne := (h'.others other hne).trans (h.others other hne)
  remembered u hu := by
    rcases mem_append.mp hu with hu | hu
    · obtain ⟨hsvc, m, r, hm, hr, htm, hmr, hrt⟩ := h.remembered u hu
      refine ⟨hsvc, m, ?_⟩
      -- a later change only moves the moment on
      cases new' with
      | nil =>
        rw [← h'.idle rfl] at hr
        have hle := h'.le
        exact ⟨r, hm, hr, htm, hmr, by omega⟩
      | cons later rest =>
        obtain ⟨-, m', r', -, hr', htm', hmr', hrt'⟩ := h'.remembered later mem_cons_self
        exact ⟨r', hm, hr', htm, by omega, hrt'⟩
    · obtain ⟨hsvc, m, r, hm, hr, htm, hmr, hrt⟩ := h'.remembered u hu
      have hle := h.le
      exact ⟨hsvc, m, r, hm, hr, by omega, hmr, hrt⟩

def State.Counts (s : State) (name : String) : Prop :=
  ∀ v, s.shown? (.text name) = some v → v.IsNumber

/-- Updates of a service with the given property went through, and a number is shown of it. -/
def Scaled (name : String) (t : Int) (s : State) (P : List Update → Prop) (s' : State) : Prop :=
  ∃ new t', Since name t s new t' s' ∧ s'.Counts name ∧ P new

variable {P Q : List Update → Prop}

theorem State.Counts.of_services (h : s.Counts name) (hsame : s'.services = s.services) :
    s'.Counts name := by
  unfold State.Counts State.shown?
  rw [hsame]
  exact h

theorem Scaled.start (hreads : s.Reads t) (hcounts : s.Counts name) (hnone : P []) :
    Scaled name t s P s := ⟨[], t, .of_memory hreads rfl, hcounts, hnone⟩

theorem Scaled.quiet (h : Scaled name t s P s') (hsame : s''.standing = s'.standing) :
    Scaled name t s P s'' := by
  obtain ⟨new, t', hsince, hcounts, hP⟩ := h
  have hservices : s''.services = s'.services := congrArg (·.1.1) hsame
  have hmemory : s''.memory = s'.memory := congrArg (·.2) hsame
  have hrest := hsince.trans (.of_memory hsince.reads hmemory)
  rw [append_nil] at hrest
  exact ⟨new, t', hrest, hcounts.of_services hservices, hP⟩

theorem Scaled.after (hfst : Since name t s new t' s') (h : Scaled name t' s' P s'')
    (hQ : ∀ rest t'', Since name t' s' rest t'' s'' → P rest → Q (new ++ rest)) :
    Scaled name t s Q s'' := by
  obtain ⟨rest, t'', hsince, hcounts, hP⟩ := h
  exact ⟨new ++ rest, t'', hfst.trans hsince, hcounts, hQ rest t'' hsince hP⟩

theorem Scaled.ends_quiet {α : Type} {work : Work α} (h : Scaled name t s P s') (hwork : Quiet work) :
    work.Leaves s' (Scaled name t s P) := (hwork.ends s').imp fun _ hsame => h.quiet hsame

/-! ## Reading and changing the number of replicas -/

/-- An update changes nothing that is remembered, and a number is shown after it if one was asked
for. -/
theorem ends_update {found : Service} (hname : found.name = .text name) (htgt : target.IsNumber)
    (hcounts : s.Counts name) :
    (found.update target).Leaves s fun s' => s'.memory = s.memory ∧ s'.Counts name := by
  have hquiet : ∀ {s1 s2 : State},
    s2.standing = s1.standing → s1.memory = s.memory ∧ s1.Counts name →
      s2.memory = s.memory ∧ s2.Counts name := by
    intro s1 s2 h2 h1
    exact ⟨(congrArg (·.2) h2).trans h1.1, h1.2.of_services (congrArg (·.1.1) h2)⟩
  refine quiet_reach.ends_bind (fun _ _ h => hquiet h ⟨rfl, hcounts⟩) fun _ s1 h1 => ?_
  have hs1 := hquiet h1 ⟨rfl, hcounts⟩
  split
  · exact ends_throw hs1
  · refine (quiet_command _).ends_bind (fun _ _ h => hquiet h hs1) fun _ s2 h2 => ?_
    have hs2 := hquiet h2 hs1
    refine .given (fun spec _ => ?_) fun _ _ => hs2
    refine ends_modify ⟨hs2.1, fun v hv => ?_⟩
    rw [replicas_updated (replicas_of_shown hname hv)]
    exact htgt

theorem ends_readClock (h : s.Reads t) :
    readClock.Ends s (fun now s' => ∃ t', t ≤ t' ∧ s' = s.tick ∧ s'.Reads t' ∧ now = ⟨t'⟩)
      fun _ _ => False := by
  obtain ⟨t', hle, htick⟩ := h.tick
  refine .bind (ends_modify (.get ?_))
  rw [htick.now]
  exact ends_pure ⟨t', hle, rfl, htick, rfl⟩

def IsSole (reason : Reason) (new : List Update) : Prop := ∀ u ∈ new, new = [u] ∧ u.reason = reason

theorem ends_remember (hreads : s.Reads t) (hcounts : s.Counts name) {cur : Value}
    (htgt : target.IsNumber) (hcur : cur.IsNumber) (reason : Reason)
    (line : Bool → String) :
    Ends (do
      modify (State.updated · (.text name) target reason)
      tell .info (line (← target.greater cur))
      let now ← readClock
      modify (State.changedAt · (.text name) now)
      return true) s (fun _ s' => Scaled name t s (IsSole reason) s') fun _ _ => False := by
  obtain ⟨t1, hle1, htick⟩ := hreads.tick
  obtain ⟨isUp, hisUp⟩ := htgt.greater hcur
  refine .bind (ends_modify (.known hisUp (.bind (ends_modify (.bind ?_)))))
  have hreads1 : (s.updated (.text name) target reason).Reads t1 := htick.of_time rfl
  refine (ends_readClock (hreads1.of_time (by rfl))).mono_ok (fun now s2 h2 => ?_)
  obtain ⟨t2, hle2, rfl, hreads2, rfl⟩ := h2
  refine ⟨[⟨.text name, target, reason, s.tick.now⟩], t2, ?_, hcounts.of_services rfl, ?_⟩
  · refine ⟨hreads2.of_time rfl, hle1.trans hle2, rfl, nofun, fun other hne => ?_, fun u hu => ?_⟩
    · exact lastChange?_changedAt_of_ne _ hne _
    · rw [mem_singleton.mp hu]
      exact ⟨rfl, ⟨t1⟩, ⟨t2⟩, htick.now, lastChange?_changedAt _ _ _, hle1, hle2, le_rfl⟩
  · intro u hu
    rw [mem_singleton.mp hu]
    exact ⟨rfl, rfl⟩

/-- Changing the number of replicas makes one update at most. -/
theorem ends_scale (hreads : s.Reads t) (hcounts : s.Counts name) (htgt : target.IsNumber)
    (reason : Reason) :
    (scale (.text name) target reason).Leaves s (Scaled name t s (IsSole reason)) := by
  have hstart : ∀ {s1 : State}, s1.standing = s.standing → Scaled name t s (IsSole reason) s1 :=
    fun h => (Scaled.start hreads hcounts (forall_mem_nil _)).quiet h
  refine .handle (Ends.mono (E := fun _ => Scaled name t s (IsSole reason)) ?_
    (fun _ _ h => h) fun f s' h => ⟨fun _ => ends_complain fun _ => h.quiet rfl, fun _ => h⟩)
  refine .bind ((ends_service s name).mono (fun found s1 h1 => ?_) fun _ _ h => hstart h)
  refine .bind ((ends_meantReplicas s1 name).mono (fun cur s2 h2 => ?_)
    fun _ _ h => hstart (h.trans h1.1))
  have hs2 : s2.standing = s.standing := h2.1.trans h1.1
  split
  · exact ends_complain fun _ => hstart hs2
  · rename_i htruthy
    have hcur : cur.IsNumber := by
      rcases h2.2 with rfl | hshown
      · exact absurd rfl htruthy
      · exact hcounts cur (shown?_of_standing h1.1 _ ▸ hshown)
    have hcounts2 : s2.Counts name := hcounts.of_services (congrArg (·.1.1) hs2)
    have hmemory : ∀ {s3 : State}, s3.memory = s2.memory → s3.memory = s.memory :=
      fun h => h.trans (congrArg (·.2) hs2)
    refine .bind ((ends_update h1.2.1 htgt hcounts2).mono (fun _ s3 h3 => ?_) fun _ s3 h3 =>
      ⟨[], t, .of_memory hreads (hmemory h3.1), h3.2, forall_mem_nil _⟩)
    have hfst : Since name t s [] t s3 := .of_memory hreads (hmemory h3.1)
    exact (ends_remember hfst.reads h3.2 htgt hcur reason _).mono_ok
      (fun _ _ h => h.after hfst fun _ _ _ h => h)

/-! ## One look at a service -/

/-- Some time between the two given ones, the last change of the service was long enough ago. -/
def Ready (settings : Settings) (changes : List (Value × Moment)) (name : String) (t t' : Int) : Prop :=
  ∀ r : Moment, lastChange? changes name = some r → ∃ now, t ≤ now ∧ now ≤ t' ∧
    (float (Moment.secondsOf (now - r.micros))).atLeast settings.cooldown = .ok true

def Reason.isLow : Reason → Bool
  | lowLoad _ _ => true
  | _ => false

variable {settings : Settings} {p : Policy} {cur : Value} {load : Float}

theorem ends_mayChange (hreads : s.Reads t) (hcounts : s.Counts name) :
    (mayChange settings (.text name)).Ends s
      (fun may s' => ∃ t', Since name t s [] t' s' ∧ s'.Counts name ∧
        (may = true → Ready settings s.changes name t t'))
      fun _ s' => Scaled name t s (· = []) s' := by
  refine .get ?_
  cases hfind : s.changes.find? (·.1.same (.text name)) with
  | none =>
    refine ends_pure ⟨t, .of_memory hreads rfl, hcounts, fun _ r hr => ?_⟩
    rw [lastChange?, hfind] at hr
    cases hr
  | some entry =>
    refine .bind ((ends_readClock hreads).mono_ok (fun now s1 h1 => ?_))
    obtain ⟨t1, hle, rfl, hreads1, rfl⟩ := h1
    have hsince : Since name t s [] t1 s.tick := .tick hle hreads1
    have hcounts1 : s.tick.Counts name := hcounts.of_services rfl
    refine ends_lift (fun may hmay => ⟨t1, hsince, hcounts1, fun hready r hr => ?_⟩) fun _ _ =>
      ⟨[], t1, hsince, hcounts1, rfl⟩
    rw [lastChange?, hfind] at hr
    cases hr
    exact ⟨t1, hle, le_rfl, hready ▸ hmay⟩

/-- Updates for replicas that are down are made only for services that matter and have a high load. -/
def IsUrgent (p : Policy) (load : Float) (new : List Update) : Prop :=
  ∀ u ∈ new, p.rank = .high ∧ u.reason.isLow = false ∧
    (float load).greater p.upAbove = .ok true

theorem ends_recover (hp : p.service = .text name) (hreads : s.Reads t) (hcounts : s.Counts name)
    (hcur : cur.IsNumber) (down : Value) :
    (recover p down cur load).Leaves s (Scaled name t s (IsUrgent p load)) := by
  have hstart : Scaled name t s (IsUrgent p load) s :=
    .start hreads hcounts (forall_mem_nil _)
  unfold recover
  rw [hp]
  split
  · rename_i hrank
    refine .given (fun isHigh hhigh => ?_) fun _ _ => hstart
    split
    · rename_i htrue
      refine (quiet_tell _ _).ends_bind (fun _ _ h => hstart.quiet h) fun _ s1 h1 => ?_
      have hs1 := hstart.quiet h1
      refine .given (fun room _ => ?_) fun _ _ => hs1
      refine .given (fun added _ => ?_) fun _ _ => hs1
      refine .given (fun target htgt => ?_) fun _ _ => hs1
      have hfst : Since name t s [] t s1 := .of_memory hreads (congrArg (·.2) h1)
      have hcounts1 : s1.Counts name := hcounts.of_services (congrArg (·.1.1) h1)
      have hurgent : ∀ {s' : State}, Scaled name t s1 (IsSole (.emergency down load)) s' →
          Scaled name t s (IsUrgent p load) s' := by
        intro s' h
        refine h.after hfst fun rest _ _ hsole u hu => ⟨hrank, ?_, htrue ▸ hhigh⟩
        rw [(hsole u hu).2]
        rfl
      refine .bind ((ends_scale hfst.reads hcounts1 (hcur.add htgt) _).mono
        (fun _ _ h => ends_pure (hurgent h)) fun _ _ h => hurgent h)
    · exact ends_pure hstart
  · exact hstart.ends_quiet (.bind (quiet_tell _ _) fun _ => quiet_stopFailedTasks _)
  · exact hstart.ends_quiet (quiet_tell _ _)
  · exact ends_pure hstart

theorem Ready.mono (h : Ready settings changes name t t') (hle : t' ≤ t'') :
    Ready settings changes name t t'' := by
  intro r hr
  obtain ⟨now, hlow, hhigh, hlong⟩ := h r hr
  exact ⟨now, hlow, hhigh.trans hle, hlong⟩

theorem Policy.isUrgent_eq_false {isUrgent : Bool} (h : p.isUrgent load = .ok isUrgent)
    (hcalm : p.rank ≠ .high ∨ (float load).greater p.upAbove = .ok false) : isUrgent = false := by
  unfold Policy.isUrgent at h
  split at h
  · rename_i hrank
    have hgreater := hcalm.resolve_left (not_not_intro hrank)
    exact Except.ok.inj (h.symm.trans hgreater)
  · exact (Except.ok.inj h).symm

/-- At most one update is made. -/
def IsDue (settings : Settings) (p : Policy) (load : Float) (changes : List (Value × Moment))
    (name : String) (t : Int) (new : List Update) : Prop :=
  ∀ u ∈ new, new = [u] ∧ (u.reason.isLow = true → (float load).greater p.upAbove = .ok false) ∧
    (p.rank ≠ .high ∨ u.reason.isLow = true →
      ∃ m : Moment, u.moment = .ok m ∧ Ready settings changes name t m.micros)

theorem IsSole.isDue {reason : Reason} {may isUrgent : Bool}
    (hurgent : p.isUrgent load = .ok isUrgent) (hgo : may = true ∨ isUrgent = true)
    (hready : may = true → Ready settings changes name t t')
    (hlow : reason.isLow = true → (float load).greater p.upAbove = .ok false)
    (hnew : Since name t' s' new t'' s'') (h : IsSole reason new) :
    IsDue settings p load changes name t new := by
  intro u hu
  obtain ⟨hsingle, hreason⟩ := h u hu
  obtain ⟨-, m, r, hm, -, htm, -, -⟩ := hnew.remembered u hu
  refine ⟨hsingle, fun h => hlow (hreason ▸ h), fun hcalm => ⟨m, hm, ?_⟩⟩
  have hcalm' := hcalm.imp_right fun h => hlow (hreason ▸ h)
  have hmay : may = true := by
    rw [Policy.isUrgent_eq_false hurgent hcalm'] at hgo
    exact hgo.resolve_right Bool.false_ne_true
  exact (hready hmay).mono htm

theorem ends_adjust (hp : p.service = .text name) (hreads : s.Reads t) (hcounts : s.Counts name)
    (hcur : cur.IsNumber) : (adjust settings p cur load).Leaves s
      (Scaled name t s (IsDue settings p load s.changes name t)) := by
  unfold adjust
  rw [hp]
  refine .given (fun isUrgent hurgent => ?_) fun _ _ =>
    .start hreads hcounts (forall_mem_nil _)
  refine .bind ((ends_mayChange hreads hcounts).mono (fun may s1 h1 => ?_) fun _ s1 h1 => ?_)
  swap
  · obtain ⟨new, t1, hsince, hcounts1, rfl⟩ := h1
    exact ⟨[], t1, hsince, hcounts1, forall_mem_nil _⟩
  obtain ⟨t1, hfst, hcounts1, hready⟩ := h1
  have hs1 : Scaled name t s (IsDue settings p load s.changes name t) s1 :=
    ⟨[], t1, hfst, hcounts1, forall_mem_nil _⟩
  split
  · exact ends_pure hs1
  rename_i hnot
  have hgo : may = true ∨ isUrgent = true := by
    cases may <;> cases isUrgent <;> simp at hnot ⊢
  have hscale : ∀ (target : Value) (reason : Reason), target.IsNumber →
      (reason.isLow = true → (float load).greater p.upAbove = .ok false) → Leaves (do
        let _ ← scale (.text name) target reason
        pure PUnit.unit) s1 (Scaled name t s (IsDue settings p load s.changes name t)) := by
    intro target reason htgt hlow
    have hdue : ∀ {s' : State}, Scaled name t1 s1 (IsSole reason) s' →
        Scaled name t s (IsDue settings p load s.changes name t) s' :=
      fun h => h.after hfst fun _ _ hnew hsole => hsole.isDue hurgent hgo hready hlow hnew
    exact .bind ((ends_scale hfst.reads hcounts1 htgt reason).mono
      (fun _ _ h => ends_pure (hdue h)) fun _ _ h => hdue h)
  refine .given (fun isHigh hhigh => ?_) fun _ _ => hs1
  refine .given (fun isLow _ => ?_) fun _ _ => hs1
  split
  · refine .given (fun grows _ => ?_) fun _ _ => hs1
    split
    · refine .given (fun target htgt => ?_) fun _ _ => hs1
      exact hscale target _ (hcur.add htgt) nofun
    · exact hs1.ends_quiet (quiet_tell _ _)
  · rename_i hfalse
    refine .given (fun shrinks _ => ?_) fun _ _ => hs1
    split
    · refine .given (fun target htgt => ?_) fun _ _ => hs1
      refine hscale target _ (isNumber_of_onNumbers htgt).2 fun _ => ?_
      rw [hhigh, Bool.eq_false_iff.mpr hfalse]
    · exact hs1.ends_quiet (quiet_tell _ _)

/-- An update that waits for the service to be ready is the only one. -/
def Waits (settings : Settings) (p : Policy) (changes : List (Value × Moment)) (name : String)
    (t : Int) (new : List Update) : Prop :=
  ∀ u ∈ new, p.rank ≠ .high ∨ u.reason.isLow = true →
    new = [u] ∧ ∃ m : Moment, u.moment = .ok m ∧ Ready settings changes name t m.micros

/-- The updates for replicas that are down and the one for the load do not get in each other's
way. -/
theorem IsUrgent.waits (hfst : Since name t s new t' s') (hurgent : IsUrgent p load new)
    (hdue : IsDue settings p load s'.changes name t' new') :
    Waits settings p s.changes name t (new ++ new') := by
  intro u hu hcalm
  rcases mem_append.mp hu with hu | hu
  · obtain ⟨hrank, hlow, -⟩ := hurgent u hu
    rcases hcalm with hcalm | hcalm
    · exact absurd hrank hcalm
    · rw [hlow] at hcalm
      cases hcalm
  · obtain ⟨hsingle, hnotHigh, hready⟩ := hdue u hu
    have hnone : new = [] := by
      refine eq_nil_iff_forall_not_mem.mpr fun v hv => ?_
      obtain ⟨hrank, -, hhigh⟩ := hurgent v hv
      have hless := hnotHigh (hcalm.resolve_left (not_not_intro hrank))
      rw [hhigh] at hless
      cases hless
    subst hnone
    obtain ⟨m, hm, h⟩ := hready hcalm
    rw [hfst.idle rfl] at h
    refine ⟨hsingle, m, hm, fun r hr => ?_⟩
    obtain ⟨now, hlow, hlong⟩ := h r hr
    exact ⟨now, hfst.le.trans hlow, hlong⟩

def Looked (settings : Settings) (p : Policy) (name : String) (t : Int) (s s' : State) : Prop :=
  ∃ new t', Since name t s new t' s' ∧ Waits settings p s.changes name t new

/-- What one look at a service does, however it ends. -/
theorem ends_evaluate (hp : p.service = .text name) (hreads : s.Reads t) :
    (evaluate settings p).Leaves s (Looked settings p name t s) := by
  have hquiet : ∀ {s1 : State}, s1.standing = s.standing → Looked settings p name t s s1 :=
    fun h => ⟨[], t, .of_memory hreads (congrArg (·.2) h), forall_mem_nil _⟩
  refine (quiet_load settings p).ends_bind (fun _ _ h => hquiet h) fun load s1 h1 => ?_
  split
  · exact ((quiet_tell _ _).ends s1).imp fun _ h => hquiet (h.trans h1)
  rename_i load
  rw [hp]
  refine .bind ((ends_bothReplicas s1 name).mono (fun both s2 h2 => ?_)
    fun _ _ h => hquiet (h.trans h1))
  have hs2 : s2.standing = s.standing := h2.1.trans h1
  split
  · exact ends_pure (hquiet hs2)
  rename_i running cur
  refine .given (fun down hdown => ?_) fun _ _ => hquiet hs2
  have hcur : cur.IsNumber := (isNumber_of_onNumbers hdown).1
  have hcounts : s2.Counts name := by
    intro v hv
    rw [shown?_of_standing h2.1, h2.2 running cur rfl] at hv
    cases hv
    exact hcur
  have hfst : Since name t s [] t s2 := .of_memory hreads (congrArg (·.2) hs2)
  have hadjust : ∀ {new1 : List Update} {t1 : Int} {s3 : State}, Since name t s new1 t1 s3 →
      IsUrgent p load new1 → s3.Counts name →
        (adjust settings p cur load).Leaves s3 (Looked settings p name t s) := by
    intro new1 t1 s3 hsince hurgent hcounts3
    refine (ends_adjust hp hsince.reads hcounts3 hcur).imp ?_
    rintro s' ⟨new2, t2, hsince2, -, hdue⟩
    exact ⟨_, t2, hsince.trans hsince2, hurgent.waits hsince hdue⟩
  refine .given (fun isDown _ => ?_) fun _ _ => hquiet hs2
  split
  · refine .bind ((ends_recover hp hfst.reads hcounts hcur down).mono
      (fun _ s3 h3 => ?_) fun _ s3 h3 => ?_)
    · obtain ⟨new1, t1, hsince, hcounts3, hurgent⟩ := h3
      exact hadjust (hfst.trans hsince) hurgent hcounts3
    · obtain ⟨new1, t1, hsince, -, hurgent⟩ := h3
      refine ⟨new1, t1, hfst.trans hsince, ?_⟩
      have hnone : Waits settings p s.changes name t (new1 ++ []) :=
        hurgent.waits (hfst.trans hsince) (forall_mem_nil _)
      rwa [append_nil] at hnone
  · exact hadjust hfst (forall_mem_nil _) hcounts

end SheetMill.Swarm
