import SheetMill.Proofs.Value
import SheetMill.Proofs.Work
import SheetMill.Swarm.Monitor

/-!
# The bounds of the number of replicas

A look at a service may change the number of its replicas twice, and computes both targets from one
reading. So neither the number nor a target leaves the bounds of the policy as long as nobody else
changes the number.
-/

namespace SheetMill.Swarm

/-! ## What work with the swarm leaves alone -/

open Act List

variable {α : Type}

/-- The services, what was asked for them and became of it, and the clock. -/
def State.standing (s : State) :
    (List Service × List (Value × Value) × Option (List Service)) ×
      (List (Value × Moment) × List Update) × (Moment × Value × Nat × List Nat) :=
  ((s.services, s.targets, s.listed), (s.changes, s.updates),
    (s.origin, s.clock, s.passed, s.pauses))

def State.mapChanges (f : List (Value × Moment) → List (Value × Moment)) (s : State) : State :=
  { s with changes := f s.changes }

/-- The work keeps to the standing of the state, and does not depend on the last changes. -/
structure Quiet {α : Type} (work : Work α) : Prop where
  keeps : work.Keeps State.standing
  commutes : ∀ f, work.Commutes (State.mapChanges f)

namespace Quiet

variable {α β : Type}

theorem bind {x : Work α} {next : α → Work β} (hx : Quiet x) (hnext : ∀ a, Quiet (next a)) :
    Quiet (x >>= next) :=
  ⟨hx.keeps.bind fun a => (hnext a).keeps, fun f => (hx.commutes f).bind fun a => (hnext a).commutes f⟩

theorem handle {work : Work α} {handler : Fault → Work α} (h : Quiet work)
    (hhandler : ∀ e, Quiet (handler e)) : Quiet (work.handle handler) :=
  ⟨h.keeps.handle fun e => (hhandler e).keeps,
    fun f => (h.commutes f).handle fun e => (hhandler e).commutes f⟩

theorem get_bind {next : State → Work β} (hsame : ∀ f s, next (State.mapChanges f s) = next s)
    (hnext : ∀ s, Quiet (next s)) : Quiet (get >>= next) :=
  ⟨keeps_get.bind fun s => (hnext s).keeps,
    fun f => commutes_get (hsame f) fun s => (hnext s).commutes f⟩

end Quiet

theorem quiet_pure (a : α) : Quiet (pure a) := ⟨keeps_pure a, fun _ => alike_pure a⟩

theorem quiet_throw (e : Fault) : Quiet (throw e : Work α) :=
  ⟨keeps_throw e, fun _ => alike_throw e⟩

theorem quiet_forIn {body : α → PUnit → Work (ForInStep PUnit)} (xs : List α)
    (h : ∀ x, Quiet (body x PUnit.unit)) : Quiet (forIn xs PUnit.unit body) := by
  induction xs with
  | nil => exact quiet_pure _
  | cons x xs ih =>
    rw [forIn_cons]
    refine (h x).bind fun step => ?_
    cases step with
    | done => exact quiet_pure _
    | yield => exact ih

theorem quiet_lift (r : Outcome α) : Quiet (liftM r) :=
  ⟨keeps_lift r, fun _ => alike_lift r⟩

theorem quiet_modify {g : State → State} (hkeeps : ∀ s, (g s).standing = s.standing)
    (hcommutes : ∀ f s, g (State.mapChanges f s) = State.mapChanges f (g s)) : Quiet (modify g) :=
  ⟨keeps_modify hkeeps, fun f => commutes_modify (hcommutes f)⟩

theorem quiet_tell (severity : Severity) (text : String) : Quiet (tell severity text) :=
  quiet_modify (fun _ => rfl) fun _ _ => rfl

theorem quiet_complain (text : String) (answer : α) : Quiet (complain text answer) :=
  .bind (quiet_tell _ _) fun _ => quiet_pure _

theorem quiet_command (words : List Value) : Quiet (command words) :=
  quiet_modify (fun _ => rfl) fun _ _ => rfl

theorem quiet_reach : Quiet reach := by
  refine .get_bind (fun _ _ => rfl) fun s => ?_
  refine .bind (quiet_modify (fun _ => rfl) fun _ _ => rfl) fun _ => ?_
  split
  · exact quiet_throw _
  · exact quiet_pure _

theorem quiet_request (url : String) (params : Value) (timeout : Int) :
    Quiet (request url params timeout) := by
  refine .bind (quiet_modify (fun _ => rfl) fun _ _ => rfl) fun _ => ?_
  refine .get_bind (fun _ _ => rfl) fun s => ?_
  split
  · exact quiet_throw _
  · refine .bind (quiet_modify (fun _ => rfl) fun _ _ => rfl) fun _ => ?_
    refine .bind (quiet_lift _) fun reply => ?_
    refine .bind (quiet_lift _) fun refused => ?_
    split
    · exact quiet_throw _
    · exact quiet_pure _

theorem quiet_load (settings : Settings) (p : Policy) : Quiet (p.load? settings) := by
  refine .bind (quiet_lift _) fun query => ?_
  split
  · exact .bind (quiet_tell _ _) fun _ => quiet_pure _
  · refine .handle (.bind (quiet_request _ _ _) fun answer => quiet_lift _) fun e => ?_
    split
    · exact .bind (quiet_tell _ _) fun _ => quiet_pure _
    · exact .bind (quiet_tell _ _) fun _ => quiet_pure _

theorem quiet_service (name : Value) : Quiet (service name) := by
  refine .bind quiet_reach fun _ => ?_
  split
  · exact quiet_throw _
  · refine .get_bind (fun _ _ => rfl) fun s => ?_
    split
    · exact quiet_pure _
    · exact quiet_throw _

theorem quiet_allTasks (service : Service) : Quiet service.allTasks := by
  refine .bind quiet_reach fun _ => ?_
  split
  · exact quiet_throw _
  · exact quiet_pure _

theorem quiet_meantReplicas (name : Value) : Quiet (meantReplicas name) := by
  refine .handle ?_ fun e => quiet_complain _ _
  exact .bind (quiet_service name) fun service => quiet_lift _

theorem quiet_runningReplicas (name : Value) : Quiet (runningReplicas name) := by
  refine .handle ?_ fun e => quiet_complain _ _
  refine .bind (quiet_service name) fun service => ?_
  refine .bind (quiet_allTasks service) fun tasks => ?_
  refine .bind (quiet_lift _) fun wanted => ?_
  exact .bind (quiet_lift _) fun states => quiet_pure _

theorem quiet_bothReplicas (name : Value) : Quiet (bothReplicas name) := by
  refine .bind (quiet_runningReplicas name) fun running => ?_
  split
  · exact quiet_complain _ _
  · refine .bind (quiet_meantReplicas name) fun meant => ?_
    split
    · exact quiet_complain _ _
    · exact quiet_pure _

theorem quiet_kill (task : Value) : Quiet (kill task) := by
  refine .bind (quiet_command _) fun _ => ?_
  refine .bind quiet_reach fun _ => ?_
  refine .get_bind (fun _ _ => rfl) fun s => ?_
  split
  · exact quiet_throw _
  · exact quiet_pure _

theorem quiet_stopFailedTasks (name : Value) : Quiet (stopFailedTasks name) := by
  refine .bind (quiet_service name) fun service => ?_
  refine .bind (quiet_allTasks service) fun tasks => ?_
  refine .bind (quiet_lift _) fun items => ?_
  refine .bind (quiet_forIn items fun task => ?_) fun _ => quiet_pure _
  refine .bind (quiet_lift _) fun state => ?_
  split
  · refine .bind (quiet_lift _) fun id => ?_
    refine .bind (quiet_tell _ _) fun _ => ?_
    exact .bind (.handle (quiet_kill id) fun e => quiet_tell _ _) fun _ => quiet_pure _
  · exact quiet_pure _

/-! ## The bounds of the number of replicas -/

open Value

/-- The number of replicas that a service is shown to have, if it is found and can be read. -/
def State.shown? (s : State) (name : Value) : Option Value :=
  match s.services.find? (·.name.same name) with
  | some service => service.replicas.toOption
  | none => none

def State.asked (s : State) (name : Value) : List Value :=
  (s.targets.filter (·.1.same name)).map (·.2)

def Within (lo hi : Int) (v : Value) : Prop := ∃ r : Int, v = .int r ∧ lo ≤ r ∧ r ≤ hi

structure Policy.Bounds (p : Policy) (name : String) (lo hi : Int) : Prop where
  service : p.service = .text name
  least : p.least = .int lo
  most : p.most = .int hi
  nonneg : 0 ≤ lo
  ordered : lo ≤ hi

/-- What is shown of a service is within bounds, and so is what was asked for it since. -/
structure Held (name : String) (lo hi : Int) (before : List Value) (s : State) : Prop where
  shown : ∀ v, s.shown? (.text name) = some v → Within lo hi v
  asked : ∃ new, s.asked (.text name) = before ++ new ∧ ∀ t ∈ new, Within lo hi t

variable {name : String} {lo hi : Int} {before : List Value} {s s' : State} {α : Type}
  {E : Fault → State → Prop}

/-! ## What leaves the services alone -/

def State.holdings (s : State) :
    List Service × List (Value × Value) × Option (List Service) := (s.services, s.targets, s.listed)

theorem Held.of_holdings (s s' : State) (h : s'.holdings = s.holdings)
    (hs : Held name lo hi before s) : Held name lo hi before s' := by
  have hservices : s'.services = s.services := congrArg (·.1) h
  have htgts : s'.targets = s.targets := congrArg (·.2.1) h
  refine ⟨?_, ?_⟩
  · rw [State.shown?, hservices]
    exact hs.shown
  · rw [State.asked, htgts]
    exact hs.asked

theorem ensures_of_keeps {work : Work α} (h : work.Keeps State.holdings) :
    Sustains (Held name lo hi before) work := h.ensures Held.of_holdings

theorem ensures_of_quiet {work : Work α} (h : Quiet work) :
    Sustains (Held name lo hi before) work :=
  ensures_of_keeps (h.keeps.mono fun standing => standing.1)

theorem keeps_readClock : readClock.Keeps State.holdings := by
  refine .bind (keeps_modify fun _ => rfl) fun _ => ?_
  exact keeps_get.bind fun _ => keeps_lift _

theorem keeps_mayChange (settings : Settings) (name : Value) :
    (mayChange settings name).Keeps State.holdings := by
  unfold mayChange
  split
  · exact keeps_throw _
  · refine keeps_get.bind fun s => ?_
    split
    · exact keeps_pure _
    · exact keeps_readClock.bind fun now => keeps_lift _

/-! ## Reading and changing the number of replicas -/

theorem eq_of_item_withField {v w x : Value} {field : String}
    (h : (v.withField field w).item field = .ok x) : x = w := by
  rw [item_eq_ok] at h
  cases v with
  | map es =>
    simp only [Value.withField, field?_map, findEntry_setEntry] at h
    exact (Option.some.inj h).symm
  | _ => cases h

theorem replicas_updated {service : Service} {spec target v : Value}
    (h : ({ service with attributes := service.attributes.withField "Spec" (spec.withField "Mode"
      (.record [("Replicated", .record [("Replicas", target)])])) } : Service).replicas = .ok v) :
    v = target := by
  obtain ⟨found, hspec, h⟩ := Outcome.bind_eq_ok.mp h
  cases eq_of_item_withField hspec
  obtain ⟨mode, hmode, h⟩ := Outcome.bind_eq_ok.mp h
  cases eq_of_item_withField hmode
  exact (Except.ok.inj h).symm

theorem find?_addService {service : Service} (hname : service.name = .text name)
    (services : List Service) :
    (addService service services).find? (·.name.same (.text name)) = some service := by
  induction services with
  | nil => simp [addService, hname]
  | cons x rest ih =>
    unfold addService
    rw [hname]
    by_cases hx : x.name.same (.text name) = true
    · rw [if_pos hx, find?_cons_of_pos (by simp [hname])]
    · rw [if_neg hx, find?_cons, Bool.eq_false_iff.mpr hx]
      exact ih

theorem replicas_of_shown {service : Service} {v : Value} (hname : service.name = .text name)
    (h : (s.withService service).shown? (.text name) = some v) : service.replicas = .ok v := by
  change (match (addService service s.services).find? (·.name.same (.text name)) with
    | some service => service.replicas.toOption
    | none => none) = some v at h
  rw [find?_addService hname] at h
  cases hreps : service.replicas with
  | error f => simp [hreps, Except.toOption] at h
  | ok w =>
    simp only [hreps, Except.toOption, Option.some.injEq] at h
    rw [h]

theorem service_text (name : String) :
    service (.text name) = (do
      reach
      match (← get).services.find? (·.name.same (.text name)) with
      | some service => return service
      | none => throw (failure ("service not found: " ++ (Value.text name).plain))) := rfl

theorem Quiet.ends {work : Work α} (h : Quiet work) (s : State) :
    work.Leaves s (·.standing = s.standing) :=
  (ensures_iff_ends.mp (h.keeps s.standing) s rfl).mono (fun _ _ h => h.2) fun _ _ h => h

/-- After quiet work everything stands as before, whether it failed or not. -/
theorem Quiet.ends_bind {β : Type} {work : Work α} {next : α → Work β} {Q : β → State → Prop}
    (h : Quiet work) (herr : ∀ f s', s'.standing = s.standing → E f s')
    (hnext : ∀ a s', s'.standing = s.standing → (next a).Ends s' Q E) : (work >>= next).Ends s Q E :=
  Ends.bind ((h.ends s).mono hnext herr)

theorem ends_complain {answer : α} {text : String} {Q : α → State → Prop}
    (h : ∀ line, Q answer (Journaled.addLine line s)) :
    (complain text answer).Ends s Q E := .bind (ends_modify (ends_pure (h _)))

theorem shown?_of_standing (h : s'.standing = s.standing) (name : Value) :
    s'.shown? name = s.shown? name := by
  unfold State.shown?
  rw [show s'.services = s.services from congrArg (·.1.1) h]

theorem ends_service (s : State) (name : String) :
    (service (.text name)).Ends s
      (fun found s' => s'.standing = s.standing ∧ found.name = .text name ∧
        ∀ v, found.replicas = .ok v → s.shown? (.text name) = some v)
      fun _ s' => s'.standing = s.standing := by
  refine quiet_reach.ends_bind (fun _ _ h => h) fun _ s1 h1 => ?_
  have hservices : s1.services = s.services := congrArg (·.1.1) h1
  refine .get ?_
  cases hfind : s1.services.find? (·.name.same (.text name)) with
  | none => exact ends_throw h1
  | some found =>
    have hsame : found.name.same (.text name) = true := by simpa using find?_some hfind
    refine ends_pure ⟨h1, same_text_right.mp hsame, fun v hv => ?_⟩
    rw [State.shown?, ← hservices, hfind]
    dsimp only
    rw [hv]
    rfl

/-- The number of replicas that is read is the one that is shown. -/
theorem ends_meantReplicas (s : State) (name : String) :
    (meantReplicas (.text name)).Ends s
      (fun v s' => s'.standing = s.standing ∧ (v = .null ∨ s.shown? (.text name) = some v))
      fun _ s' => s'.standing = s.standing := by
  refine .handle (.bind ((ends_service s name).mono (fun found s1 h1 => ?_) fun f s1 h1 => ?_))
  · exact ends_lift (fun v hv => ⟨h1.1, .inr (h1.2.2 v hv)⟩) fun f _ =>
      ⟨fun _ => ends_complain fun _ => ⟨h1.1, .inl rfl⟩, fun _ => h1.1⟩
  · exact ⟨fun _ => ends_complain fun _ => ⟨h1, .inl rfl⟩, fun _ => h1⟩

theorem ends_bothReplicas (s : State) (name : String) :
    (bothReplicas (.text name)).Ends s
      (fun both s' => s'.standing = s.standing ∧ ∀ running cur,
        both = some (running, cur) → s.shown? (.text name) = some cur)
      fun _ s' => s'.standing = s.standing := by
  refine (quiet_runningReplicas _).ends_bind (fun _ _ h => h) fun running s1 h1 => ?_
  split
  · exact ends_complain fun _ => ⟨h1, nofun⟩
  · have hshown := shown?_of_standing h1 (.text name)
    refine .bind ((ends_meantReplicas s1 name).mono (fun meant s2 h2 => ?_)
      fun _ _ h => h.trans h1)
    split
    · exact ends_complain fun _ => ⟨h2.1.trans h1, nofun⟩
    · rename_i hnull
      refine ends_pure ⟨h2.1.trans h1, fun _ cur h => ?_⟩
      cases h
      rw [← hshown]
      exact h2.2.resolve_left hnull

/-- What is read of a service whose number is within bounds. -/
theorem ensures_of_ends {work : Work α} {R : State → α → Prop} {Q : α → Prop}
    (h : ∀ s, work.Ends s (fun a s' => s'.standing = s.standing ∧ R s a)
      fun _ s' => s'.standing = s.standing)
    (hQ : ∀ s a, Held name lo hi before s → R s a → Q a) :
    Ensures (Held name lo hi before) work Q := by
  have hheld : ∀ {s s'}, s'.standing = s.standing → Held name lo hi before s →
      Held name lo hi before s' := fun hsame => .of_holdings _ _ (congrArg (·.1) hsame)
  exact ensures_iff_ends.mpr fun s hs => (h s).mono
    (fun a _ ha => ⟨hQ s a hs ha.2, hheld ha.1 hs⟩) fun _ _ hsame => hheld hsame hs

/-- An update to a number within bounds keeps to the bounds, whether or not it succeeds. -/
theorem ensures_update {service : Service} {target : Value} (hname : service.name = .text name)
    (htgt : Within lo hi target) :
    Sustains (Held name lo hi before) (service.update target) := by
  refine .bind (ensures_modify fun s hs => ?_) fun _ _ => ?_
  · obtain ⟨new, hasked, hnew⟩ := hs.asked
    refine ⟨hs.shown, new ++ [target], ?_, ?_⟩
    · rw [← append_assoc, ← hasked]
      simp [State.asked, hname]
    · intro t ht
      rcases mem_append.mp ht with ht | ht
      · exact hnew t ht
      · rw [mem_singleton.mp ht]
        exact htgt
  refine (ensures_of_quiet quiet_reach).bind fun _ _ => ?_
  split
  · exact ensures_throw _
  · refine (ensures_of_quiet (quiet_command _)).bind fun _ _ => ?_
    refine .read fun spec => ?_
    refine ensures_modify fun s hs => ⟨?_, hs.asked⟩
    intro v hv
    rw [replicas_updated (replicas_of_shown hname hv)]
    exact htgt

/-! ## One look at a service -/

variable {p : Policy} {r d : Int}

/-- What a look at a service may ask for, given the numbers that it reads. -/
inductive Policy.Target (p : Policy) (running : Nat) (current : Value) : Value → Prop
  | replaced {down room added target : Value} (hdown : current.sub (.int running) = .ok down)
    (hsome : down.greater (.int 0) = .ok true) (hroom : p.most.sub current = .ok room)
    (hadded : down.smaller room = .ok added) (htarget : current.add added = .ok target) :
    Target p running current target
  | more {target : Value} (hgrows : p.mayGrow current = .ok true)
    (htarget : current.add (.int 1) = .ok target) : Target p running current target
  | fewer {isLow : Bool} {target : Value} (hshrinks : p.mayShrink current isLow = .ok true)
    (htarget : current.sub (.int 1) = .ok target) : Target p running current target

/-- Quiet work has the property, and so has work whose steps have it. -/
structure Inherited (Pr : ∀ {α : Type}, Work α → Prop) : Prop where
  quiet {α : Type} {work : Work α} : Quiet work → Pr work
  bind {α β : Type} {x : Work α} {next : α → Work β} : Pr x → (∀ a, Pr (next a)) → Pr (x >>= next)
  handle {α : Type} {work : Work α} {handler : Fault → Work α} :
    Pr work → (∀ f, Pr (handler f)) → Pr (work.handle handler)

namespace Inherited

variable {Pr : ∀ {α : Type}, Work α → Prop} {running : Nat} {cur down target : Value}
  {settings : Settings} {load : Float} (h : Inherited Pr)

include h

theorem given {α β : Type} {r : Outcome α} {next : α → Work β}
    (hnext : ∀ a, r = .ok a → Pr (next a)) : Pr (liftM r >>= next) := by
  cases r with
  | ok a => exact hnext a rfl
  | error f => exact h.quiet (quiet_throw f)

theorem scale {name : Value} {reason : Reason} {R : Service → Prop}
    (hfound : ∀ next : Service → Work Bool, (∀ found, R found → Pr (next found)) →
      Pr (service name >>= next))
    (hupdate : ∀ found, R found → Pr (found.update target))
    (hupdated : Pr (modify (State.updated · name target reason))) (hclock : Pr readClock)
    (hchanged : ∀ now, Pr (modify (State.changedAt · name now))) :
    Pr (scale name target reason) := by
  refine h.handle (hfound _ fun found hR => ?_) fun f => h.quiet (quiet_complain _ _)
  refine h.bind (h.quiet (quiet_meantReplicas _)) fun cur => ?_
  split
  · exact h.quiet (quiet_complain _ _)
  · refine h.bind (hupdate found hR) fun _ => h.bind hupdated fun _ => h.given fun isUp _ => ?_
    refine h.bind (h.quiet (quiet_tell _ _)) fun _ => h.bind hclock fun now => ?_
    exact h.bind (hchanged now) fun _ => h.quiet (quiet_pure _)

variable (hmay : Pr (mayChange settings p.service)) 

section Targets

variable (hscale : ∀ target reason, p.Target running cur target →
    Pr (Swarm.scale p.service target reason))

include hscale

theorem recover (hdown : cur.sub (.int running) = .ok down)
    (hsome : down.greater (.int 0) = .ok true) : Pr (recover p down cur load) := by
  unfold Swarm.recover
  split
  · refine h.given fun isHigh _ => ?_
    split
    · refine h.bind (h.quiet (quiet_tell _ _)) fun _ => ?_
      refine h.given fun room hroom => h.given fun added hadded => h.given fun target htgt => ?_
      exact h.bind (hscale target _ (.replaced hdown hsome hroom hadded htgt)) fun _ =>
        h.quiet (quiet_pure _)
    · exact h.quiet (quiet_pure _)
  · exact h.quiet (.bind (quiet_tell _ _) fun _ => quiet_stopFailedTasks _)
  · exact h.quiet (quiet_tell _ _)
  · exact h.quiet (quiet_pure _)

include hmay in
theorem adjust : Pr (adjust settings p cur load) := by
  unfold Swarm.adjust
  refine h.given fun isUrgent _ => h.bind hmay fun may => ?_
  split
  · exact h.quiet (quiet_pure _)
  refine h.given fun isHigh _ => h.given fun isLow _ => ?_
  split
  · refine h.given fun grows hgrows => ?_
    split
    · rename_i htrue
      refine h.given fun target htgt => ?_
      exact h.bind (hscale target _ (.more (htrue ▸ hgrows) htgt)) fun _ => h.quiet (quiet_pure _)
    · exact h.quiet (quiet_tell _ _)
  · refine h.given fun shrinks hshrinks => ?_
    split
    · rename_i htrue
      refine h.given fun target htgt => ?_
      exact h.bind (hscale target _ (.fewer (htrue ▸ hshrinks) htgt)) fun _ => h.quiet (quiet_pure _)
    · exact h.quiet (quiet_tell _ _)

end Targets

include hmay

/-- A look at a service has the properties that quiet work has and changes of the number have. -/
theorem evaluate_of_reads {R : Nat → Value → Prop}
    (hread : ∀ next : Option (Nat × Value) → Work Unit, Pr (next none) →
      (∀ running cur, R running cur → Pr (next (some (running, cur)))) →
      Pr (bothReplicas p.service >>= next))
    (hscale : ∀ running cur target reason, R running cur → p.Target running cur target →
      Pr (Swarm.scale p.service target reason)) : Pr (evaluate settings p) := by
  refine h.bind (h.quiet (quiet_load settings p)) fun load => ?_
  split
  · exact h.quiet (quiet_tell _ _)
  refine hread _ (h.quiet (quiet_pure _)) fun running cur hR => ?_
  have hscale := fun target reason => hscale running cur target reason hR
  refine h.given fun down hdown => h.given fun isDown hsome => ?_
  split
  · rename_i htrue
    exact h.bind (h.recover hscale hdown (htrue ▸ hsome)) fun _ => h.adjust hmay hscale
  · exact h.adjust hmay hscale

theorem evaluate (hscale : ∀ target reason, Pr (Swarm.scale p.service target reason)) :
    Pr (evaluate settings p) := by
  refine h.evaluate_of_reads (R := fun _ _ => True) hmay (fun next hnone hsome => ?_)
    fun _ _ target reason _ _ => hscale target reason
  refine h.bind (h.quiet (quiet_bothReplicas _)) fun both => ?_
  cases both with
  | none => exact hnone
  | some both => exact hsome both.1 both.2 trivial

end Inherited

theorem Policy.Bounds.mayGrow (hp : p.Bounds name lo hi) :
    p.mayGrow (.int r) = .ok (decide (r < hi)) := by
  have hne : hi ≠ -1 := by
    have hnonneg := hp.nonneg
    have hord := hp.ordered
    omega
  have hlimited : p.isUnlimited = false := by
    unfold Policy.isUnlimited
    rw [hp.most]
    exact beq_false_of_ne hne
  unfold Policy.mayGrow
  rw [hlimited, hp.most, less_int]
  rfl

theorem Policy.Bounds.mayShrink (hp : p.Bounds name lo hi) {isLow : Bool}
    (h : p.mayShrink (.int r) isLow = .ok true) : lo < r := by
  unfold Policy.mayShrink at h
  rw [hp.least, greater_int] at h
  split at h
  · exact of_decide_eq_true (Except.ok.inj h)
  · cases h

/-- Replicas are added or taken away only where the number that was read has room for it. -/
theorem Policy.Bounds.within (hp : p.Bounds name lo hi) {running : Nat} {cur target : Value}
    (hcur : Within lo hi cur) (h : p.Target running cur target) : Within lo hi target := by
  obtain ⟨r, rfl, hlo, hhi⟩ := hcur
  cases h with
  | replaced hdown hsome hroom hadded htgt =>
    cases hdown
    rw [hp.most] at hroom
    cases hroom
    rw [greater_int] at hsome
    have hpos : 0 < r - (running : Int) := of_decide_eq_true (Except.ok.inj hsome)
    rw [smaller_int] at hadded
    cases hadded
    cases htgt
    exact ⟨r + min (r - running) (hi - r), rfl, by omega, by omega⟩
  | more hgrows htgt =>
    rw [hp.mayGrow] at hgrows
    have hlt : r < hi := of_decide_eq_true (Except.ok.inj hgrows)
    cases htgt
    exact ⟨r + 1, rfl, by omega, by omega⟩
  | fewer hshrinks htgt =>
    have hgt : lo < r := hp.mayShrink hshrinks
    cases htgt
    exact ⟨r - 1, rfl, by omega, by omega⟩

theorem inherited_sustains {P : State → Prop}
    (hquiet : ∀ {α : Type} {work : Work α}, Quiet work → Sustains P work) : Inherited (Sustains P) :=
  ⟨hquiet, fun hx hnext => hx.bind fun a _ => hnext a, fun h hhandler => h.handle hhandler⟩

theorem ensures_scale {target : Value} (htgt : Within lo hi target) (reason : Reason) :
    Sustains (Held name lo hi before) (scale (.text name) target reason) := by
  refine (inherited_sustains ensures_of_quiet).scale (R := fun found => found.name = .text name)
    (fun next hnext => ?_) (fun _ hname => ensures_update hname htgt)
    (ensures_of_keeps (keeps_modify fun _ => rfl)) (ensures_of_keeps keeps_readClock)
    fun now => ensures_of_keeps (keeps_modify fun _ => rfl)
  exact (ensures_of_ends (ends_service · name) fun _ _ _ hfound => hfound.1).bind hnext

theorem ensures_evaluate (hp : p.Bounds name lo hi) (settings : Settings) :
    Sustains (Held name lo hi before) (evaluate settings p) := by
  refine (inherited_sustains ensures_of_quiet).evaluate_of_reads (R := fun _ => Within lo hi)
    (ensures_of_keeps (keeps_mayChange settings _)) ?_ fun _ _ target reason hcur htgt => ?_
  · rw [hp.service]
    intro next hnone hsome
    refine (ensures_of_ends (ends_bothReplicas · name) fun _ _ hs hboth running cur h =>
      hs.shown cur (hboth running cur h)).bind fun both hboth => ?_
    cases both with
    | none => exact hnone
    | some both => exact hsome both.1 both.2 (hboth _ _ rfl)
  · rw [hp.service]
    exact ensures_scale (hp.within hcur htgt) reason

/-! ## Runs -/

def State.Shows (s : State) (name : Value) (count : Int) : Prop :=
  ∀ v, s.shown? name = some v → v = .int count

def State.countAfter (s : State) (name : Value) (count : Int) : Int :=
  match s.shown? name with
  | some (.int r) => r
  | _ => count

/-- The states that looks at a service lead to, with the number of its replicas. Between two looks
anything may change, as long as nobody else changes that number or asks for another. An update that
was asked for may take effect at any later time, even if it was said to have failed. -/
inductive Policy.Run (p : Policy) (first : State) (count₀ : Int) : State → Int → Prop
  | start (hshows : first.Shows p.service count₀) : Run p first count₀ first count₀
  | look {s : State} {count : Int} (settings : Settings) (hs : Run p first count₀ s count) :
    Run p first count₀ ((evaluate settings p).outcome s).2
      (((evaluate settings p).outcome s).2.countAfter p.service count)
  | drift {s s' : State} {count : Int} (hs : Run p first count₀ s count)
    (hshows : s'.Shows p.service count) (hasked : s'.asked p.service = s.asked p.service) :
    Run p first count₀ s' count
  | late {s s' : State} {count target : Int} {new : List Value} (hs : Run p first count₀ s count)
    (hnew : s.asked p.service = first.asked p.service ++ new) (htarget : .int target ∈ new)
    (hshows : s'.Shows p.service target) (hasked : s'.asked p.service = s.asked p.service) :
    Run p first count₀ s' target

theorem Held.of_shows {count : Int} (hshows : s'.Shows (.text name) count) (hlo : lo ≤ count)
    (hhi : count ≤ hi) (hasked : s'.asked (.text name) = s.asked (.text name))
    (hs : ∃ new, s.asked (.text name) = before ++ new ∧ ∀ t ∈ new, Within lo hi t) :
    Held name lo hi before s' := by
  refine ⟨fun v hv => ⟨count, hshows v hv, hlo, hhi⟩, ?_⟩
  rw [hasked]
  exact hs

theorem Held.countAfter {count : Int} (hs : Held name lo hi before s) (hlo : lo ≤ count)
    (hhi : count ≤ hi) :
    lo ≤ s.countAfter (.text name) count ∧ s.countAfter (.text name) count ≤ hi := by
  unfold State.countAfter
  cases hshown : s.shown? (.text name) with
  | none => exact ⟨hlo, hhi⟩
  | some v =>
    obtain ⟨r, rfl, hr⟩ := hs.shown v hshown
    exact hr

theorem Held.of_asked {new : List Value} {target : Int} (hs : Held name lo hi before s)
    (hnew : s.asked (.text name) = before ++ new) (htgt : .int target ∈ new) :
    lo ≤ target ∧ target ≤ hi := by
  obtain ⟨new', hasked, hwithin⟩ := hs.asked
  have heq : new = new' := append_cancel_left (hnew.symm.trans hasked)
  subst heq
  obtain ⟨r, hr, hbounds⟩ := hwithin _ htgt
  cases hr
  exact hbounds

theorem Policy.Run.held_of_sustains {first : State} {count0 count : Int}
    (hp : p.service = .text name)
    (hkeep : ∀ settings, Sustains (Held name lo hi (first.asked (.text name))) (evaluate settings p))
    (hlo : lo ≤ count0) (hhi : count0 ≤ hi) (h : p.Run first count0 s count) :
    Held name lo hi (first.asked (.text name)) s ∧ lo ≤ count ∧ count ≤ hi := by
  induction h with
  | start hshows =>
    rw [hp] at hshows
    refine ⟨.of_shows (s := first) hshows hlo hhi rfl ⟨[], ?_, ?_⟩, hlo, hhi⟩
    · rw [append_nil]
    · intro t ht
      cases ht
  | look settings _ ih =>
    have hafter := (hkeep settings).state ih.1
    rw [hp]
    exact ⟨hafter, hafter.countAfter ih.2.1 ih.2.2⟩
  | drift _ hshows hasked ih =>
    rw [hp] at hshows hasked
    exact ⟨.of_shows hshows ih.2.1 ih.2.2 hasked ih.1.asked, ih.2⟩
  | late _ hnew htgt hshows hasked ih =>
    rw [hp] at hnew hshows hasked
    have hbounds := ih.1.of_asked hnew htgt
    exact ⟨.of_shows hshows hbounds.1 hbounds.2 hasked ih.1.asked, hbounds⟩

theorem Policy.Run.held {first : State} {count0 count : Int} (hp : p.Bounds name lo hi)
    (hlo : lo ≤ count0) (hhi : count0 ≤ hi) (h : p.Run first count0 s count) :
    Held name lo hi (first.asked (.text name)) s ∧ lo ≤ count ∧ count ≤ hi :=
  h.held_of_sustains hp.service (ensures_evaluate hp) hlo hhi

/-- Whatever the loads, the clock, the tasks and the failures of the swarm are, no number of replicas
that is asked for leaves the bounds of the policy, and neither does the number that the service
has. -/
theorem targets_within_bounds {first : State} {count₀ count : Int} (hp : p.Bounds name lo hi)
    (hlo : lo ≤ count₀) (hhi : count₀ ≤ hi) (h : p.Run first count₀ s count) :
    (lo ≤ count ∧ count ≤ hi) ∧
      ∃ new, s.asked p.service = first.asked p.service ++ new ∧
        ∀ target ∈ new, ∃ r : Int, target = .int r ∧ lo ≤ r ∧ r ≤ hi := by
  obtain ⟨hheld, hcount⟩ := h.held hp hlo hhi
  rw [hp.service]
  exact ⟨hcount, hheld.asked⟩

def urgentPolicy : Policy :=
  { service := .text "api", priority := .text "high", least := .int 1, most := .int 4
    metric := .text "cpu", upAbove := .float 75.0, downBelow := .float 25.0 }

/-- The service is meant to have two replicas, none of them runs, and its load is high. -/
def brokenSwarm : State :=
  { services := [{
      name := .text "api"
      attributes := .record [("Spec", .record [("Mode", .record [
        ("Replicated", .record [("Replicas", .int 2)])])])] }]
    replies := [.ok (.int 200, .record [("data", .record [("result", .list [
      .record [("value", .list [.int 0, .text "90"])]])])])] }

/-- One look at the service asks for two numbers, and the second is the number that stays. -/
theorem targets_within_bounds_emergency :
    urgentPolicy.Bounds "api" 1 4 ∧ brokenSwarm.Shows (.text "api") 2 ∧
      let after := ((evaluate (.ofConfiguration configuration) urgentPolicy).outcome brokenSwarm).2
      (after.asked (.text "api")).map Value.asInt? = [some 4, some 3] ∧
        after.countAfter (.text "api") 2 = 3 ∧
        ∃ new, after.asked (.text "api") = brokenSwarm.asked (.text "api") ++ new ∧
          ∀ target ∈ new, ∃ r : Int, target = .int r ∧ 1 ≤ r ∧ r ≤ 4 := by
  have hbounds : urgentPolicy.Bounds "api" 1 4 := ⟨rfl, rfl, rfl, by omega, by omega⟩
  have hshows : brokenSwarm.Shows (.text "api") 2 := by
    intro v hv
    exact (Option.some.inj hv).symm
  have hrun := Policy.Run.look (.ofConfiguration configuration) (.start (p := urgentPolicy) hshows)
  have hwithin := targets_within_bounds hbounds (by omega) (by omega) hrun
  exact ⟨hbounds, hshows, by decide +kernel, by decide +kernel, hwithin.2⟩

end SheetMill.Swarm
