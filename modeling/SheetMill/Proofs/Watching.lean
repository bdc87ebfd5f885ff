import SheetMill.Checking.Worker
import SheetMill.Proofs.Value
import SheetMill.Proofs.Work

/-!
# Watching a worker

Whatever a worker talks to can be watched: each request to the database, each publication and each
answer to a delivery leaves an event, with the fault if there was one.
-/

namespace SheetMill

/-! ## Computations that never ask to stop -/

def Outcome.Ordinary {α : Type} (r : Outcome α) : Prop := ∀ f, r = .error f → f.isOrdinary = true

attribute [local simp] Fault.isOrdinary Value.memberFault Value.partFault Value.jsonFault
  Schema.noSchema

namespace Outcome

variable {α β : Type} {r : Outcome α}

@[simp] theorem ordinary_ok (a : α) : Ordinary (.ok a) := by
  intro f h
  cases h

@[simp] theorem ordinary_error {f : Fault} :
    Ordinary (.error f : Outcome α) ↔ f.isOrdinary = true := by
  simp [Ordinary]

@[simp] theorem ordinary_bind {f : α → Outcome β} :
    Ordinary (r >>= f) ↔ Ordinary r ∧ ∀ a, r = .ok a → Ordinary (f a) := by
  cases r with
  | ok a => simp
  | error e => simp [Ordinary, bind, Except.bind]

@[simp] theorem ordinary_map {f : α → β} : Ordinary (f <$> r) ↔ Ordinary r := by
  cases r <;> simp

@[simp] theorem ordinary_ite {c : Prop} [Decidable c] {r' : Outcome α} :
    Ordinary (if c then r else r') ↔ (c → Ordinary r) ∧ (¬ c → Ordinary r') := by
  split <;> simp [*]

theorem ordinary_forM {xs : List α} {f : α → Outcome PUnit} (h : ∀ x ∈ xs, Ordinary (f x)) :
    Ordinary (xs.forM f) := by
  induction xs with
  | nil => exact ordinary_ok _
  | cons x xs ih => simp_all

theorem ordinary_mapM {xs : List α} {f : α → Outcome β} (h : ∀ x ∈ xs, Ordinary (f x)) :
    Ordinary (xs.mapM f) := by
  induction xs with
  | nil => exact ordinary_ok _
  | cons x xs ih => simp_all

end Outcome

open Outcome

/-! ## Values -/

namespace Value

@[simp] theorem ordinary_item (v : Value) (name : String) : Ordinary (v.item name) := by
  unfold item
  split
  · simp
  · cases v <;> simp

@[simp] theorem ordinary_getD (v : Value) (name : String) (default : Value) :
    Ordinary (v.getD name default) := by
  cases v <;> simp [getD]

@[simp] theorem ordinary_entriesAs (v : Value) (member : String) :
    Ordinary (v.entriesAs member) := by
  cases v <;> simp [entriesAs]

@[simp] theorem ordinary_toText (v : Value) : Ordinary v.toText := by
  unfold toText
  split <;> simp

theorem ordinary_copied (v : Value) : Ordinary v.copied := by
  cases v <;> simp [copied]

@[simp] theorem ordinary_jsonKey (v : Value) : Ordinary v.jsonKey := by
  cases v <;> simp [jsonKey, jsonInteger]

mutual

theorem ordinary_jsonAt (shape : JsonShape) (depth : Nat) :
    ∀ v : Value, Ordinary (jsonAt shape depth v)
  | .list items => by simp [jsonAt, ordinary_jsonItems shape (depth + 1) items]
  | .map es => by simp [jsonAt, ordinary_jsonEntries shape (depth + 1) es]
  | .null | .bool _ | .int _ | .float _ | .text _ | .bytes _ | .objectId _ | .date _ | .message _
  | .kind _ | .handle _ => by simp [jsonAt, jsonInteger]

theorem ordinary_jsonItems (shape : JsonShape) (depth : Nat) :
    ∀ items : List Value, Ordinary (jsonItems shape depth items)
  | [] => by simp [jsonItems]
  | v :: rest => by
    simp [jsonItems, ordinary_jsonAt shape depth v, ordinary_jsonItems shape depth rest]

theorem ordinary_jsonEntries (shape : JsonShape) (depth : Nat) :
    ∀ es : List (Value × Value), Ordinary (jsonEntries shape depth es)
  | [] => by simp [jsonEntries]
  | (k, v) :: rest => by
    simp [jsonEntries, ordinary_jsonAt shape depth v, ordinary_jsonEntries shape depth rest]

end

@[simp] theorem ordinary_ofJson (s : String) : Ordinary (ofJson s) := by
  unfold ofJson
  split
  · simp
  · rename_i trouble _
    cases trouble <;> simp

end Value

/-! ## Schemas -/

namespace Schema

@[simp] theorem ordinary_need (condition : Bool) : Ordinary (need condition) := by
  simp [need]

@[simp] theorem ordinary_patternOf (s : String) : Ordinary (patternOf s) := by
  unfold patternOf
  split <;> simp

@[simp] theorem ordinary_discard {α : Type} {r : Outcome α} (h : Ordinary r) :
    Ordinary (discard r) :=
  ordinary_map.mpr h

theorem ordinary_checkPlain (draft : Draft) (form : Form) (v : Value) :
    Ordinary (checkPlain draft form v) := by
  unfold checkPlain
  split
  case h_2 | h_9 => split <;> simp
  all_goals simp

theorem ordinary_inOrder (draft : Draft) {checks : List (String × Outcome Unit)}
    (h : ∀ c ∈ checks, Ordinary c.2) : Ordinary (inOrder draft checks) := by
  refine ordinary_forM ?_
  rintro ⟨name, form⟩ -
  dsimp only
  cases hfound : checks.lookup name with
  | none => exact ordinary_ok _
  | some r => exact h _ (Value.mem_of_lookup hfound)

variable (draft : Draft)

mutual

theorem ordinary_check (v : Value) : Ordinary (check draft v) := by
  cases v with
  | map es =>
    simp [check, checkPartners, ordinary_inOrder draft (ordinary_keywordChecks es)]
  | _ => simp [check]

theorem ordinary_keywordChecks :
    ∀ es : List (Value × Value), ∀ c ∈ keywordChecks draft es, Ordinary c.2
  | [] => by simp [keywordChecks]
  | (key, v) :: rest => by
    simp only [keywordChecks, List.forall_mem_cons]
    refine ⟨?_, ordinary_keywordChecks rest⟩
    split
    all_goals simp [ordinary_check v, ordinary_checkList _ v, ordinary_checkMap v,
      ordinary_checkPlain]

theorem ordinary_checkList (mayBeEmpty : Bool) (v : Value) :
    Ordinary (checkList draft mayBeEmpty v) := by
  cases v with
  | list items => simp [checkList, ordinary_checkItems items]
  | _ => simp [checkList]

theorem ordinary_checkItems : ∀ items : List Value, Ordinary (checkItems draft items)
  | [] => by simp [checkItems]
  | v :: rest => by simp [checkItems, ordinary_check v, ordinary_checkItems rest]

theorem ordinary_checkMap (v : Value) : Ordinary (checkMap draft v) := by
  cases v with
  | map es => simp [checkMap, ordinary_checkEntries es]
  | _ => simp [checkMap]

theorem ordinary_checkEntries :
    ∀ es : List (Value × Value), Ordinary (checkEntries draft es)
  | [] => by simp [checkEntries]
  | (k, v) :: rest => by simp [checkEntries, ordinary_check v, ordinary_checkEntries rest]

end

end Schema

namespace Checking

open Value

theorem ordinary_messageOf (body : List UInt8) : Ordinary (messageOf body) := by
  unfold messageOf
  split
  · simp
  · simp only [ordinary_bind, ordinary_ofJson, true_and]
    intro v _
    split <;> simp

theorem ordinary_createSchema (raw given : Value) : Ordinary (createSchema raw given) := by
  unfold createSchema
  split <;> simp [Schema.ordinary_check]

theorem ordinary_storedProperty (property : Value) : Ordinary (storedProperty property) := by
  simp [storedProperty, ordinary_mapM]

theorem ordinary_storedSchema (schema : Value) : Ordinary (storedSchema schema) := by
  unfold storedSchema
  split <;> simp [ordinary_mapM, ordinary_storedProperty]

end Checking

end SheetMill

namespace SheetMill.Act

/-! ## Watching a worker -/

variable {σ α β : Type}

/-- From a state with the first property a computation ends well with the second, or fails with the
third. -/
def Yields (P : σ → Prop) (act : Act σ α) (Q : α → σ → Prop) (E : Fault → σ → Prop) : Prop :=
  ∀ s, P s → match act s with
    | .ok a s' => Q a s'
    | .error f s' => E f s'

variable {P P' : σ → Prop} {Q Q' : α → σ → Prop} {R : β → σ → Prop} {E E' : Fault → σ → Prop}
  {act : Act σ α}

theorem yields_iff_ends : Yields P act Q E ↔ ∀ s, P s → act.Ends s Q E := Iff.rfl

theorem Yields.ends (h : Yields P act Q E) {s : σ} (hs : P s) : act.Ends s Q E := h s hs

theorem Yields.of_run
    (h : ∀ s, P s → (∃ a s', act s = .ok a s' ∧ Q a s') ∨ ∃ f s', act s = .error f s' ∧ E f s') :
    Yields P act Q E := by
  refine yields_iff_ends.mpr fun s hs => ?_
  rcases h s hs with ⟨a, s', hrun, ha⟩ | ⟨f, s', hrun, hf⟩
  · exact ends_of_ok hrun ha
  · exact ends_of_error hrun hf

theorem Yields.mono (h : Yields P act Q E) (hP : ∀ s, P' s → P s) (hQ : ∀ a s, Q a s → Q' a s)
    (hE : ∀ f s, E f s → E' f s) : Yields P' act Q' E' :=
  yields_iff_ends.mpr fun s hs => (h.ends (hP s hs)).mono hQ hE

theorem yields_pure {a : α} (h : ∀ s, P s → Q a s) : Yields P (pure a) Q E := h

theorem yields_throw {f : Fault} (h : ∀ s, P s → E f s) : Yields P (throw f) Q E := h

theorem yields_lift {r : Outcome α} (hok : ∀ a s, r = .ok a → P s → Q a s)
    (herr : ∀ f s, r = .error f → P s → E f s) : Yields P (liftM r : Act σ α) Q E :=
  yields_iff_ends.mpr fun s hs => ends_lift (fun a ha => hok a s ha hs) fun f hf => herr f s hf hs

theorem Yields.known {r : Outcome α} {a : α} {f : α → Act σ β} (h : r = .ok a)
    (hf : Yields P (f a) R E) : Yields P ((liftM r : Act σ α) >>= f) R E :=
  yields_iff_ends.mpr fun _ hs => (hf.ends hs).known h

theorem Yields.bind {x : Act σ α} {f : α → Act σ β} (hx : Yields P x Q E)
    (hf : ∀ a, Yields (Q a) (f a) R E) : Yields P (x >>= f) R E :=
  yields_iff_ends.mpr fun _ hs =>
    Ends.bind ((hx.ends hs).mono (fun a _ ha => (hf a).ends ha) fun _ _ he => he)

theorem Yields.discard {x : Act σ α} (h : Yields P x (fun _ => P') E) :
    Yields P (discard x) (fun _ => P') E :=
  h.bind fun _ => yields_pure fun _ hs => hs

/-- A handler goes on from where an ordinary fault has left off. -/
theorem Yields.handle {handler : Fault → Act σ α} (h : Yields P act Q E)
    (hstop : ∀ f s, f.isOrdinary = false → E f s → E' f s)
    (hhandler : ∀ f, f.isOrdinary = true → Yields (E f) (handler f) Q E') :
    Yields P (act.handle handler) Q E' :=
  yields_iff_ends.mpr fun _ hs => .handle ((h.ends hs).mono (fun _ _ ha => ha)
    fun f s hf => ⟨fun ho => (hhandler f ho).ends hf, fun ho => hstop f s ho hf⟩)

theorem Yields.attempt (h : Yields P act Q E) :
    Yields P act.attempt (fun r s => match r with
      | .ok a => Q a s
      | .error f => E f s) E' :=
  yields_iff_ends.mpr fun _ hs => .attempt (h.ends hs)

end SheetMill.Act

namespace SheetMill.Checking

open Act Message

/-! ## Events -/

inductive Action where
  | ask (call : Call) (request : Value)
  | publish (exchange key body : String)
  | acknowledge (tag : Nat)
  | reject (tag : Nat)

structure Event where
  action : Action
  fault : Option Fault

/-- A state and what was done to get to it, the oldest first. -/
structure Watched (σ : Type) where
  state : σ
  events : List Event := []

variable {σ α : Type} {world : Surroundings σ}

instance [Journaled σ] : Journaled (Watched σ) :=
  ⟨fun line t => { t with state := Journaled.addLine line t.state }⟩

def watch (action : Action) (step : Act σ α) : Act (Watched σ) α := fun t =>
  match step t.state with
  | .ok a s => .ok a ⟨s, t.events ++ [⟨action, none⟩]⟩
  | .error f s => .error f ⟨s, t.events ++ [⟨action, some f⟩]⟩

theorem watch_of_ok {action : Action} {step : Act σ α} {t : Watched σ} {a : α} {s' : σ}
    (h : step t.state = .ok a s') :
    watch action step t = .ok a ⟨s', t.events ++ [⟨action, none⟩]⟩ := by
  simp [watch, h]

/-- The surroundings with an event for everything that is done to them. -/
def Surroundings.watched (world : Surroundings σ) : Surroundings (Watched σ) where
  database call request := watch (.ask call request) (world.database call request)
  publish exchange key body := watch (.publish exchange key body) (world.publish exchange key body)
  acknowledge tag := watch (.acknowledge tag) (world.acknowledge tag)
  reject tag := watch (.reject tag) (world.reject tag)
  now := Act.within Watched.state (fun s t => { t with state := s }) world.now

/-! ## What the events tell -/

/-- The state of a task that an action tells to the database. -/
def Action.status? : Action → Option String
  | .ask call req =>
    if call.name = "UpdateTaskId" then
      match req.field? "field", req.field? "value" with
      | some (.text "status"), some (.text status) => some status
      | _, _ => none
    else none
  | _ => none

/-- The answer to a delivery that an action gives, true for an acknowledgement. -/
def Action.answer? : Action → Option (Nat × Bool)
  | .acknowledge tag => some (tag, true)
  | .reject tag => some (tag, false)
  | _ => none

def Action.publishes : Action → Bool
  | .publish .. => true
  | _ => false

def Action.calls (name : String) : Action → Bool
  | .ask call _ => call.name == name
  | _ => false

/-- The state of a task that an event has recorded. -/
def Event.recorded? (e : Event) : Option String := if e.fault.isNone then e.action.status? else none

def Event.isPublication (e : Event) : Bool := e.fault.isNone && e.action.publishes

/-- The states that were told to the database, whether it took them or not. -/
def told (es : List Event) : List String := es.filterMap (·.action.status?)

def recorded (es : List Event) : List String := es.filterMap Event.recorded?

def answers (es : List Event) : List (Nat × Bool) := es.filterMap (·.action.answer?)

def publications (es : List Event) : Nat := es.countP Event.isPublication

def Stopped (es : List Event) : Prop := ∃ e ∈ es, ∃ f, e.fault = some f ∧ f.isOrdinary = false

/-- A schema was refused by what the worker talks to. -/
def Refused (es : List Event) : Prop := ∃ e ∈ es, ∃ d, e.fault = some (.badSchema d)

def Asked (names : List String) (es : List Event) : Prop :=
  ∀ e ∈ es, ∀ call req, e.action = .ask call req → call.name ∈ names

def Performed (name : String) (es : List Event) : Prop :=
  ∃ e ∈ es, e.fault = none ∧ e.action.calls name = true

/-- Whenever a state was recorded, what had been done by then has a property. -/
def Preceded (P : List Event → Prop) (status : String) (es : List Event) : Prop :=
  ∀ before e after, es = before ++ e :: after → e.recorded? = some status → P before

section Append

variable (es : List Event) (e : Event)

theorem told_append : told (es ++ [e]) = told es ++ e.action.status?.toList := by
  cases h : e.action.status? <;> simp [told, h]

theorem recorded_append : recorded (es ++ [e]) = recorded es ++ e.recorded?.toList := by
  cases h : e.recorded? <;> simp [recorded, h]

theorem answers_append : answers (es ++ [e]) = answers es ++ e.action.answer?.toList := by
  cases h : e.action.answer? <;> simp [answers, h]

theorem publications_append :
    publications (es ++ [e]) = publications es + e.isPublication.toNat := by
  cases h : e.isPublication <;> simp [publications, h]

theorem stopped_append :
    Stopped (es ++ [e]) ↔ Stopped es ∨ ∃ f, e.fault = some f ∧ f.isOrdinary = false := by
  simp [Stopped, or_and_right, exists_or]

theorem refused_append : Refused (es ++ [e]) ↔ Refused es ∨ ∃ d, e.fault = some (.badSchema d) := by
  simp [Refused, or_and_right, exists_or]

theorem asked_append (names : List String) : Asked names (es ++ [e]) ↔
    Asked names es ∧ ∀ call req, e.action = .ask call req → call.name ∈ names := by
  simp only [Asked, List.mem_append, List.mem_singleton]
  constructor
  · intro h
    exact ⟨fun x hx => h x (.inl hx), h e (.inr rfl)⟩
  · rintro ⟨hes, he⟩ x (hx | rfl)
    · exact hes x hx
    · exact he

theorem performed_append (name : String) : Performed name (es ++ [e]) ↔
    Performed name es ∨ e.fault = none ∧ e.action.calls name = true := by
  simp [Performed, or_and_right, exists_or]

theorem preceded_append (P : List Event → Prop) (status : String) :
    Preceded P status (es ++ [e]) ↔
      Preceded P status es ∧ (e.recorded? = some status → P es) := by
  constructor
  · intro h
    refine ⟨fun before x after hsplit hx => ?_, h es e [] rfl⟩
    exact h before x (after ++ [e]) (by simp [hsplit]) hx
  · rintro ⟨hes, he⟩ before x after hsplit hx
    -- the event that is looked at is the last one or it was there before
    rcases List.eq_nil_or_concat after with rfl | ⟨front, last, rfl⟩
    · obtain ⟨rfl, hlast⟩ := List.append_inj' hsplit rfl
      cases hlast
      exact he hx
    · have hsplit' : es ++ [e] = (before ++ x :: front) ++ [last] := by simp [hsplit]
      obtain ⟨rfl, -⟩ := List.append_inj' hsplit' rfl
      exact hes before x front rfl hx

end Append

/-! ## Steps that are watched -/

def Saw (P : List Event → Prop) (t : Watched σ) : Prop := P t.events

variable {P Q : List Event → Prop} {E : Fault → List Event → Prop}

theorem yields_watch {action : Action} {step : Act σ α}
    (hok : ∀ es, P es → Q (es ++ [⟨action, none⟩]))
    (herr : ∀ f es, P es → E f (es ++ [⟨action, some f⟩])) :
    Yields (Saw P) (watch action step) (fun _ => Saw Q) (fun f => Saw (E f)) := by
  intro t ht
  cases hrun : step t.state with
  | ok a s =>
    simp only [watch, hrun]
    exact hok t.events ht
  | error f s =>
    simp only [watch, hrun]
    exact herr f t.events ht

theorem yields_note [Journaled σ] (source : String) (severity : Severity) (text : String)
    {E : Fault → Watched σ → Prop} :
    Yields (Saw P) (note source severity text) (fun _ => Saw P) E := fun _ ht => ht

def Surroundings.Timed (world : Surroundings σ) : Prop := ∀ s, ∃ text s', world.now s = .ok text s'

theorem yields_now (h : world.Timed) {E : Fault → Watched σ → Prop} :
    Yields (Saw P) world.watched.now (fun _ => Saw P) E := by
  refine .of_run fun t ht => .inl ?_
  obtain ⟨text, s', hnow⟩ := h t.state
  exact ⟨text, { t with state := s' }, by simp [Surroundings.watched, within, hnow], ht⟩

theorem yields_updated (h : world.Timed) {E : Fault → Watched σ → Prop} :
    Yields (Saw P) world.watched.updated (fun _ => Saw P) E :=
  (yields_now h).bind fun _ => yields_pure fun _ ht => ht

/-- Of a change of the state of a task, only the state in it matters. -/
theorem yields_change {status : String} {post : Post} {change : StatusChange}
    {P Q : Watched σ → Prop} {E : Fault → Watched σ → Prop} (hstat : change.status = .text status)
    (h : ∀ req, (Action.ask .updateTask req).status? = some status →
      Yields P (world.watched.database .updateTask req) (fun _ => Q) E) :
    Yields P (world.watched.setStatus post change) (fun _ => Q) E := by
  refine (h _ ?_).discard
  rw [hstat]
  rfl

/-! ## What lasts -/

/-- Nothing that is done later takes the property away. -/
def Lasting (P : List Event → Prop) : Prop := ∀ es e, P es → P (es ++ [e])

theorem ensures_note [Journaled σ] (source : String) (severity : Severity) (text : String) :
    Sustains (Saw P : Watched σ → Prop) (note source severity text) :=
  ensures_modify fun _ ht => ht

section Surroundings

variable {world : Surroundings σ}

theorem ensures_now : Sustains (Saw P) world.watched.now := by
  refine ensures_iff_ends.mpr fun t ht => .within ?_
  unfold Ends
  cases world.now t.state with
  | ok text s => exact ⟨trivial, ht⟩
  | error f s => exact ht

theorem ensures_updated : Sustains (Saw P) world.watched.updated :=
  ensures_now.bind fun _ _ => ensures_pure trivial

theorem Lasting.ensures_watch (hP : Lasting P) (action : Action) (step : Act σ α) :
    Sustains (Saw P) (watch action step) := by
  intro t ht
  unfold watch
  cases hrun : step t.state with
  | ok a s => exact ⟨trivial, hP _ _ ht⟩
  | error f s => exact hP _ _ ht

theorem Lasting.ensures_setStatus (hP : Lasting P) (post : Post) (change : StatusChange) :
    Sustains (Saw P) (world.watched.setStatus post change) :=
  (hP.ensures_watch _ _).bind fun _ _ => ensures_pure trivial

theorem Lasting.ensures_say (hP : Lasting P) (post : Post) (taskId : Value) (status text : String) :
    Sustains (Saw P) (world.watched.say post taskId status text) :=
  ensures_updated.bind fun _ _ => hP.ensures_setStatus post _

end Surroundings

end SheetMill.Checking
