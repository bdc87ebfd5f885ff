import SheetMill.Proofs.TaskReading
import SheetMill.Proofs.TaskUpkeep

/-!
# The cache under all requests

Tasks are stored, changed and asked for, the cache is emptied and keys outlive their time, in any
order. In runs without such a change, every hash has a time to live and every task that is found
goes into a message, as long as the kinds of the tasks have no colon and nothing but new data is
written to the code and the data.
-/

namespace SheetMill.Database.Cache

open Act Value List

variable {s : State} {cache : Cache} {k : String}

def lapse (k : String) : Work Unit := do
  if !(ttlAt (← get).cache k).same .null then
    let _ ← removeKey (.text k)

theorem entryAt_filter {e : Entry} {k' : String}
    (h : entryAt (cache.filter fun e => !e.key.sameScalar (.text k)) k' = some e) :
    entryAt cache k' = some e := by
  unfold entryAt at h ⊢
  rw [find?_filter] at h
  by_cases hk : k' = k
  · subst hk
    have hfound := find?_some h
    simp at hfound
  · rw [← h]
    congr 1
    funext e
    cases hsame : e.key.sameScalar (.text k') with
    | false => simp
    | true =>
      have hkey : e.key = .text k' := sameScalar_text_right.mp hsame
      simp [hkey, hk]

theorem removeKey_run (s : State) (k : String) :
    ∃ removed cache', removeKey (.text k) s = .ok removed { s with cache := cache' } ∧
      ∀ k' e, entryAt cache' k' = some e → entryAt s.cache k' = some e := by
  have hfind : s.cache.find? (.text k) = .ok (entryAt s.cache k) := rfl
  unfold removeKey
  rw [bind_of_ok (get_run s), bind_known hfind]
  cases hent : entryAt s.cache k with
  | none => exact ⟨false, s.cache, rfl, fun _ _ h => h⟩
  | some e =>
    refine ⟨true, s.cache.filter fun other => !other.key.sameScalar e.key, rfl, ?_⟩
    rw [key_of_entryAt hent]
    exact fun _ _ h => entryAt_filter h

theorem lapse_run (s : State) (k : String) :
    ∃ cache', lapse k s = .ok () { s with cache := cache' } ∧
      ∀ k' e, entryAt cache' k' = some e → entryAt s.cache k' = some e := by
  unfold lapse
  rw [bind_of_ok (get_run s)]
  cases (ttlAt s.cache k).same .null with
  | true => exact ⟨s.cache, rfl, fun _ _ h => h⟩
  | false =>
    obtain ⟨removed, cache', hrun, hents⟩ := removeKey_run s k
    exact ⟨cache', bind_of_ok hrun, hents⟩

/-- A hash of texts with one property, or a set under a key with another one. -/
def Sorted (q : String → List (String × String) → Value → Prop) (r : String → Prop) (e : Entry) :
    Prop :=
  (∃ k fields ttl, e = hashEntry k fields ttl ∧ q k fields ttl) ∨
    ∃ k members ttl, e = listEntry k members ttl ∧ r k

section Sorted

variable {q : String → List (String × String) → Value → Prop} {r : String → Prop}
  {fields : List (String × String)} {members : List Value} {ttl : Value}

theorem textEntry_injective : Function.Injective textEntry := by
  rintro ⟨a, b⟩ ⟨a', b'⟩ h
  simpa [named] using h

theorem sorted_hash : Sorted q r (hashEntry k fields ttl) ↔ q k fields ttl := by
  refine ⟨?_, fun h => .inl ⟨k, fields, ttl, rfl, h⟩⟩
  rintro (⟨k', fields', ttl', heq, h⟩ | ⟨k', members, ttl', heq, -⟩)
  · simp only [hashEntry, Entry.mk.injEq, Value.text.injEq, Value.map.injEq, true_and] at heq
    obtain ⟨rfl, hflds, rfl⟩ := heq
    rw [(map_injective_iff.mpr textEntry_injective) hflds]
    exact h
  · simp [hashEntry, listEntry] at heq

theorem sorted_list : Sorted q r (listEntry k members ttl) ↔ r k := by
  refine ⟨?_, fun h => .inr ⟨k, members, ttl, rfl, h⟩⟩
  rintro (⟨k', fields', ttl', heq, -⟩ | ⟨k', members, ttl', heq, h⟩)
  · simp [hashEntry, listEntry] at heq
  · simp only [listEntry, Entry.mk.injEq, Value.text.injEq] at heq
    rw [heq.1]
    exact h

theorem Sorted.tidy {e : Entry} (h : Sorted q r e) : Tidy e := by
  rcases h with ⟨k, fields, ttl, rfl, -⟩ | ⟨k, members, ttl, rfl, -⟩
  · exact .inl ⟨k, fields, ttl, rfl⟩
  · exact .inr ⟨k, members, ttl, rfl⟩

theorem hash_of_held {v : Value} (h : Stocked (Sorted q r) cache)
    (hheld : held cache k = some (.text hashKind, v)) :
    ∃ fields ttl, entryAt cache k = some (hashEntry k fields ttl) ∧ q k fields ttl ∧
      v = .map (fields.map textEntry) := by
  obtain ⟨e, hent, he⟩ := Option.map_eq_some_iff.mp hheld
  have hkey := key_of_entryAt hent
  rcases h k e hent with ⟨k', fields, ttl, rfl, hq⟩ | ⟨k', members, ttl, rfl, -⟩
  · cases hkey
    exact ⟨fields, ttl, hent, hq, (Prod.mk.inj he).2.symm⟩
  · simp [listEntry, hashKind, setKind] at he

end Sorted

end SheetMill.Database.Cache

namespace SheetMill.Database.Tasks

open Act Value Message TaskCache Documents
open Cache (Stocked Tidy Sorted sorted_hash sorted_list HashOr ListOr StoredAs entryAt hashEntry
  listEntry held ttlAt hashKind setKind)

variable {events past : List Event} {name k : String} {fields : List (String × String)}

inductive Event where
  | write (r : Request)
  | get (m : GetTaskRequest)
  | getAll (m : ImportTasksRequest)
  | clear
  | lapse (k : String)

namespace Event

def pass : Event → State → State
  | write r, s => (r.run.outcome s).2
  | get m, s => ((Tasks.get m.toValue).outcome s).2
  | getAll m, s => ((Tasks.getAll m.toValue).outcome s).2
  | clear, s => ((Entries.erase .null).outcome s).2
  | lapse k, s => ((Cache.lapse k).outcome s).2

def kind? : Event → Option String
  | write r => some r.owner.1
  | get m => some m.task
  | getAll m => some m.task
  | clear | lapse _ => none

/-- The event stores a state as messages carry it, or it changes neither the code nor the data by
their names. -/
def Harmless : Event → Prop
  | write (.set q) => (q.value.getD {}).Proper
  | write (.update u) => u.Harmless
  | _ => True

end Event

def passed (s : State) (events : List Event) : State := events.foldl (fun s e => e.pass s) s

theorem passed_snoc (s : State) (past : List Event) (e : Event) :
    passed s (past ++ [e]) = e.pass (passed s past) := by
  simp [passed]

variable {p : Entry → Prop} {d : Value → Prop} {s : State} {e : Event} {w : List (String × String) → Prop}
  {texts : List (String × String)} {u : UpdateTaskRequest}

/-! ## One event -/

theorem Fit.clear (h : Fit p d s) : Fit p d (Event.clear.pass s) := by
  have hflush : Cache.flush s = .ok true { s with cache := [] } :=
    (bind_of_ok (announce_calm h.calm _ _)).trans rfl
  have hclear : Entries.clear s = .ok true { s with cache := [] } :=
    (bind_of_ok (attempt_run (outcome_of_ok hflush))).trans rfl
  have herase : Entries.erase .null s = .ok _ { s with cache := [] } := bind_of_ok hclear
  rw [Event.pass, outcome_of_ok herase]
  exact h.withCache fun k e he => by cases he

theorem Fit.lapse (h : Fit p d s) (k : String) : Fit p d ((Event.lapse k).pass s) := by
  obtain ⟨cache', hrun, hents⟩ := Cache.lapse_run s k
  have hst : (Event.lapse k).pass s = { s with cache := cache' } :=
    congrArg Prod.snd (outcome_of_ok hrun)
  rw [hst]
  exact h.withCache fun k' e he => h.stocked k' e (hents k' e he)

/-- States that are told by documents may be stored in the cache again. -/
structure Refills (p : Entry → Prop) (d : Value → Prop) (task : String) : Prop where
  one : ∀ v, Told d v → ∀ id : String,
    Sustains (Fit p d) (store (.text id) v (.text task))
  all : ∀ v, Told d v → Sustains (Fit p d) (refill (.text task) v)

theorem Fit.pass (ho : Orderly p d) (h : Fit p d s)
    (hset : ∀ q, e = .write (.set q) →
      Ensures (Fit p d) (store (.text q.taskId) (q.value.getD {}).toValue (.text q.task))
        (fun _ => True) ∧
      ∀ id, d ((documentOf (q.task, q.taskId) (q.value.getD {})).withField "_id" id))
    (hupd : ∀ u, e = .write (.update u) → Fit p d ((change (requested u)).outcome s).2 ∧
      Sustains (Fit p d) (changeDocument (requested u)))
    (hrefill : ∀ task, e.kind? = some task → Refills p d task) : Fit p d (e.pass s) := by
  cases e with
  | write r =>
    cases r with
    | set q =>
      obtain ⟨hstore, hd⟩ := hset q rfl
      exact (set_ensures ho q hstore hd).state h
    | update u =>
      obtain ⟨hchg, hdoc⟩ := hupd u rfl
      exact update_keeps hchg hdoc
  | get m =>
    have hstore := fun v hv => (hrefill m.task rfl).one v hv m.taskId
    exact (get_ensures ho m hstore).state h
  | getAll m => exact (getAll_ensures ho m (hrefill m.task rfl).all).state h
  | clear => exact h.clear
  | lapse k => exact h.lapse k

/-! ## All events -/

def IsMap (doc : Value) : Prop := ∃ es, doc = .map es

theorem names_of_storedAs {fields : List (String × Value)} (h : List.Forall₂ StoredAs fields texts) :
    texts.map Prod.fst = fields.map Prod.fst := by
  induction h with
  | nil => rfl
  | cons hfst _ ih => rw [List.map_cons, List.map_cons, hfst.1, ih]

theorem StoredState.names {v : Value} (h : StoredState v texts) :
    texts.map Prod.fst = stateNames := by
  obtain ⟨status, code, msg, data, json, -, -, -, -, -, htexts⟩ := h
  exact names_of_storedAs htexts

theorem isMap_amend {sets : List (String × Value)} {doc doc' : Value} (hsets : Headed name sets)
    (hdoc : IsMap doc) (h : amend (.record [("$set", .record sets)]) doc = .ok () doc') :
    IsMap doc' := by
  obtain ⟨es, rfl⟩ := hdoc
  obtain ⟨v, rest, rfl, hrest⟩ := hsets
  rcases amend_set_cons name v (split_of_rest hrest) es with
    ⟨f, hrun⟩ | ⟨first, path, inner, -, -, hrun⟩
  · rw [hrun] at h
    cases h
  · rw [hrun] at h
    cases h
    exact ⟨_, rfl⟩

/-- A property that hashes get with all fields of a state outlives every event other than a change,
whatever the documents hold. -/
theorem Fit.pass_of_closed (ho : Orderly p IsMap)
    (hc : Closed p fun texts => texts.map Prod.fst = stateNames) (h : Fit p IsMap s)
    (hchg : ∀ u, e = .write (.update u) → Fit p IsMap ((change (requested u)).outcome s).2) :
    Fit p IsMap (e.pass s) := by
  have hstore : ∀ taskId v task,
      Sustains (Fit p IsMap) (store taskId v task) :=
    fun taskId v task => store_ensures ho hc taskId v task fun _ => StoredState.names
  refine h.pass ho (fun q _ => ⟨hstore _ _ _, fun id => ⟨_, rfl⟩⟩) (fun u hu => ⟨hchg u hu, ?_⟩)
    fun task _ => ⟨fun v _ id => hstore _ _ _, fun v _ => ?_⟩
  · exact changeDocument_ensures ho fun docs sets doc doc' _ hsets hdoc hamend =>
      isMap_amend hsets.headed hdoc hamend
  · refine .read fun data => .read fun taskId => ?_
    split_ifs
    · exact hstore _ _ _
    · exact ensures_pure trivial

/-- What every event of a run keeps holds at every moment of the run. -/
theorem Fresh.fit_passed (hs : Fresh s) (hpast : past <+: events)
    (hstep : ∀ past e, past ++ [e] <+: events → Fit p d (passed s past) →
      Fit p d (e.pass (passed s past))) : Fit p d (passed s past) := by
  induction past using List.reverseRecOn with
  | nil =>
    refine ⟨hs.calm, fun k e (he : entryAt s.cache k = some e) => ?_, fun doc hdoc => ?_⟩
    · rw [hs.cache] at he
      cases he
    · rw [passed, List.foldl_nil, hs.documents] at hdoc
      cases hdoc
  | append_singleton past e ih =>
    rw [passed_snoc]
    exact hstep past e hpast (ih ((List.prefix_append past [e]).trans hpast))

theorem orderly_tidy : Orderly Tidy IsMap := ⟨fun _ h => h, fun _ h => h⟩

theorem tidy_passed (hs : Fresh s) (events : List Event) : Fit Tidy IsMap (passed s events) := by
  have hhash : ∀ k fields ttl, Tidy (hashEntry k fields ttl) := fun k fields ttl =>
    .inl ⟨k, fields, ttl, rfl⟩
  refine hs.fit_passed (List.prefix_refl events) fun past e _ hfit => ?_
  refine hfit.pass_of_closed orderly_tidy ⟨?_, ?_, ?_⟩ fun u _ => ?_
  · exact fun k members ttl => .inr ⟨k, members, ttl, rfl⟩
  · exact fun k fields _ ttl _ => hhash k fields ttl
  · exact fun k _ _ ttl _ _ => hhash k _ ttl
  · exact change_keeps orderly_tidy hfit (fun _ _ ttl _ => hhash _ _ ttl)
      fun _ _ _ ttl _ _ _ => hhash _ _ ttl

/-! ## Hashes with all their fields -/

def AllWhole (s : State) : Prop :=
  ∀ k v, held s.cache k = some (.text hashKind, v) → ∀ name ∈ stateNames, (v.field? name).isSome

abbrev Whole : Entry → Prop := Sorted (fun _ fields _ => Complete fields) fun _ => True

theorem orderly_whole : Orderly Whole IsMap := ⟨fun _ h => h.tidy, fun _ h => h⟩

theorem closed_whole : Closed Whole fun texts => texts.map Prod.fst = stateNames := by
  refine ⟨fun k members ttl => sorted_list.mpr trivial, fun k fields ttl ttl' h => ?_, ?_⟩
  · exact sorted_hash.mpr (sorted_hash.mp h)
  · intro k old new ttl _ hnew
    refine sorted_hash.mpr fun name hname => mem_keys_merged.mpr (.inr ?_)
    rw [hnew]
    exact hname

/-- A change comes when there is something under the key of its task. -/
def Covered (s : State) (events : List Event) : Prop :=
  ∀ past u, past ++ [.write (.update u)] <+: events →
    held (passed s past).cache (keyOf u.task u.taskId) ≠ none

theorem whole_passed (hs : Fresh s) (hcovered : Covered s events) (hpast : past <+: events) :
    Fit Whole IsMap (passed s past) := by
  -- Only a change can write fewer fields than a state has, and it writes them to what it finds.
  refine hs.fit_passed hpast fun past e hpast hfit => ?_
  refine hfit.pass_of_closed orderly_whole closed_whole ?_
  rintro u rfl
  refine change_keeps orderly_whole hfit (fun hnone => ?_) fun old new ttl ttl' hold _ _ => ?_
  · exact absurd (Cache.held_of_free hnone) (hcovered past u hpast)
  · refine sorted_hash.mpr fun name hname => mem_keys_merged.mpr (.inl ?_)
    exact sorted_hash.mp hold name hname

theorem isSome_textEntry :
    ((Value.map (fields.map textEntry)).field? name).isSome ↔ name ∈ fields.map Prod.fst := by
  rw [field?_map, findEntry_textEntry, Option.isSome_map]
  constructor
  · intro hsome
    obtain ⟨t, ht⟩ := Option.isSome_iff_exists.mp hsome
    exact List.mem_map.mpr ⟨(name, t), mem_of_lookup ht, rfl⟩
  · intro hmem
    obtain ⟨t, ht⟩ := lookup_of_mem hmem
    rw [ht]
    rfl

theorem Fit.allWhole (h : Fit Whole d s) : AllWhole s := by
  intro k v hheld name hname
  obtain ⟨fields, ttl, -, hcomplete, rfl⟩ := Cache.hash_of_held h.stocked hheld
  exact isSome_textEntry.mpr (hcomplete name hname)

theorem names_of_dataIn (hdata : dataIn u fields = .ok texts) (h : name ∈ texts.map Prod.fst) :
    name = "data" := by
  unfold dataIn at hdata
  split_ifs at hdata
  · cases hdata
    cases h
  · obtain ⟨start, -, hdata⟩ := Outcome.bind_eq_ok.mp hdata
    obtain ⟨new, -, hdata⟩ := Outcome.bind_eq_ok.mp hdata
    obtain ⟨json, -, hdata⟩ := Outcome.bind_eq_ok.mp hdata
    cases hdata
    simpa using h

theorem names_of_written {old new : List (String × String)} (hnew : Written u old new)
    (h : name ∈ new.map Prod.fst) : name = u.field ∨ name = "message" ∨ name = "data" := by
  rcases hnew with rfl | ⟨texts, hdata, rfl⟩
  · exact (names_of_spoken h).imp_right .inl
  · rw [List.map_append, List.mem_append] at h
    rcases h with h | h
    · exact (names_of_spoken h).imp_right .inl
    · exact .inr (.inr (names_of_dataIn hdata h))

/-- A change that finds nothing leaves a hash without a status or without a code. -/
theorem not_allWhole_update (h : Fit Tidy IsMap s)
    (hnone : held s.cache u.key = none) :
    ¬ AllWhole ((Event.write (.update u)).pass s) := by
  obtain ⟨new, ttl, cache', hnew, -, hst, hent⟩ :=
    change_state (u := u) h.calm (.inr ⟨hnone, rfl⟩ : HashOr s.cache _ [])
  have hfit : Fit Tidy IsMap ((change (requested u)).outcome s).2 :=
    change_keeps orderly_tidy h (fun _ _ ttl _ => .inl ⟨_, _, ttl, rfl⟩)
      fun _ _ _ ttl _ _ _ => .inl ⟨_, _, ttl, rfl⟩
  have hcache : ((Event.write (.update u)).pass s).cache = cache' :=
    (update_cache orderly_tidy hfit).trans (by rw [hst])
  have hheld : held cache' u.key =
      some (.text hashKind, .map ((merged [] new).map textEntry)) := by
    rw [Cache.held_of_entryAt hent, Function.update_self]
    rfl
  have hnames : ∀ name ∈ stateNames, AllWhole ((Event.write (.update u)).pass s) →
      name = u.field ∨ name = "message" ∨ name = "data" := by
    intro name hname hall
    rw [AllWhole, hcache] at hall
    have hmem := isSome_textEntry.mp (hall _ _ hheld name hname)
    exact names_of_written hnew ((mem_keys_merged.mp hmem).resolve_left (by simp))
  intro hall
  -- Neither is the msg or the data, so the one field of the change would be both.
  have hstat := hnames "status" (by simp [stateNames]) hall
  have hcode := hnames "code" (by simp [stateNames]) hall
  simp only [String.reduceEq, or_false] at hstat hcode
  rw [← hstat] at hcode
  simp at hcode

/-- All hashes of a run have all the fields of a state if and only if every change found something
under the key of its task. -/
theorem allWhole_iff_covered (hs : Fresh s) (events : List Event) :
    (∀ past, past <+: events → AllWhole (passed s past)) ↔ Covered s events := by
  refine ⟨fun hwhole past u hpast hnone => ?_, fun hcovered past hpast => ?_⟩
  · have hall := hwhole _ hpast
    rw [passed_snoc] at hall
    exact not_allWhole_update (tidy_passed hs past) hnone hall
  · exact (whole_passed hs hcovered hpast).allWhole

/-! ## Hashes that can be read -/

abbrev Clear : Entry → Prop := Sorted (fun _ fields _ => Legible fields) fun _ => True

theorem orderly_clear : Orderly Clear Readable := ⟨fun _ h => h.tidy, fun _ h => h.eq_map⟩

theorem closed_clear :
    Closed Clear fun texts => ∃ m : ApiResponse, m.Proper ∧ texts = fieldsOf m := by
  refine ⟨fun k members ttl => sorted_list.mpr trivial, fun k fields ttl ttl' h => ?_, ?_⟩
  · exact sorted_hash.mpr (sorted_hash.mp h)
  · rintro k old new ttl hold ⟨m, hm, rfl⟩
    have hlegible : Legible old := by
      rcases hold with rfl | hold
      · exact legible_nil
      · exact sorted_hash.mp hold
    exact sorted_hash.mpr (hlegible.merged (legible_fieldsOf hm))

theorem eq_of_storedAs (fields : List (String × String))
    (h : List.Forall₂ StoredAs (fields.map fun e => (e.1,
      Value.text e.2)) texts) : texts = fields := by
  induction fields generalizing texts with
  | nil =>
    cases h
    rfl
  | cons e fields ih =>
    cases h with
    | @cons _ t _ rest hfst hrest =>
      have hval : e.2 = t.2 := Value.text.inj (Except.ok.inj hfst.2)
      rw [ih hrest, ← Prod.ext hfst.1.symm hval]

theorem storedState_toValue {m : ApiResponse} (h : StoredState m.toValue texts) :
    texts = fieldsOf m := by
  obtain ⟨status, code, message, data, json, hstat, hcode, hmsg, hdata, hjson, htexts⟩ := h
  obtain rfl : .text m.status = status := Except.ok.inj hstat
  obtain rfl : .int m.code = code := Except.ok.inj hcode
  obtain rfl : .text m.message = message := Except.ok.inj hmsg
  obtain rfl : textMapValue m.data = data := Except.ok.inj hdata
  rw [toJson_textMapValue] at hjson
  obtain rfl : mapText m.data = json := Except.ok.inj hjson
  exact eq_of_storedAs (fieldsOf m) htexts

theorem told_readable {v : Value} (h : Told Readable v) :
    ∃ m : ApiResponse, m.Proper ∧ v = m.toValue := by
  obtain ⟨doc, hdoc, hv⟩ := h
  exact hdoc.state hv

/-- The data of a state tells the identity of its task by a text, if it does. -/
theorem refill_ensures {P : State → Prop} {m : ApiResponse} {task : String}
    (hstore : ∀ id : String, Sustains P (store (.text id) m.toValue (.text task))) :
    Sustains P (refill (.text task) m.toValue) := by
  have hdata : m.toValue.item "data" = .ok (textMapValue m.data) := rfl
  have hid : (textMapValue m.data).getD "task_id" .null =
      .ok (((m.data.lookup "task_id").map .text).getD .null) := by
    rw [textMapValue_eq, getD, findEntry_textEntry]
  refine .known hdata (.known hid ?_)
  cases m.data.lookup "task_id" with
  | none => exact ensures_pure trivial
  | some id =>
    split_ifs
    · exact hstore id
    · exact ensures_pure trivial

theorem legible_written {old new : List (String × String)} (hold : Legible old) (hu : u.Harmless)
    (hnew : Written u old new) : Legible (merged old new) := by
  have hspoken := hold.merged (legible_spoken hu)
  rcases hnew with rfl | ⟨texts, hdata, rfl⟩
  · exact hspoken
  · rcases dataIn_of_legible hspoken (merged_spoken_ne_nil old u) u with
      ⟨-, texts', hdata', htexts⟩ | ⟨-, hdata'⟩
    · rw [hdata] at hdata'
      cases hdata'
      exact hold.merged ((legible_spoken hu).append htexts)
    · rw [hdata] at hdata'
      cases hdata'

/-- With states that go into messages, an event writes what it is to store, what it changes, and what
documents tell. -/
theorem Fit.pass_of_harmless (ho : Orderly p Readable) (h : Fit p Readable s) (he : e.Harmless)
    (hstore : ∀ m : ApiResponse, m.Proper → ∀ task ∈ e.kind?, ∀ taskId : String,
      Sustains (Fit p Readable) (store (.text taskId) m.toValue (.text task)))
    (hchg : ∀ u, e = .write (.update u) → Fit p Readable ((change (requested u)).outcome s).2) :
    Fit p Readable (e.pass s) := by
  refine h.pass ho ?_ ?_ fun task htask => ⟨fun v hv id => ?_, fun v hv => ?_⟩
  · rintro q rfl
    exact ⟨hstore _ he _ rfl _, readable_documentOf _ he⟩
  · rintro u rfl
    refine ⟨hchg u rfl, changeDocument_ensures ho fun docs sets doc doc' hdocs hsets hdoc => ?_⟩
    exact hdoc.amended he hdocs hsets
  · obtain ⟨m, hm, rfl⟩ := told_readable hv
    exact hstore m hm task htask id
  · obtain ⟨m, hm, rfl⟩ := told_readable hv
    exact refill_ensures (hstore m hm task htask)

theorem clear_passed (hs : Fresh s) (hevents : ∀ e ∈ events, e.Harmless) :
    Fit Clear Readable (passed s events) := by
  refine hs.fit_passed (List.prefix_refl events) fun past e hpast hfit => ?_
  have he := hevents e (hpast.subset (by simp))
  refine hfit.pass_of_harmless orderly_clear he (fun m hm task _ taskId => ?_) ?_
  · refine store_ensures orderly_clear closed_clear _ _ _ fun texts htexts => ?_
    exact ⟨m, hm, storedState_toValue htexts⟩
  · rintro u rfl
    refine change_keeps orderly_clear hfit (fun _ new ttl hnew => ?_)
      fun old new ttl ttl' hold hnew _ => ?_
    · exact sorted_hash.mpr (legible_written legible_nil he hnew)
    · exact sorted_hash.mpr (legible_written (sorted_hash.mp hold) he hnew)

/-! ## Hashes that live for a time -/

def IsTaskKey (k : String) : Prop := ∃ task taskId, ':' ∉ task.toList ∧ k = keyOf task taskId

def IsIndexKey (k : String) : Prop := ∃ task importName,
  ':' ∉ task.toList ∧ k = indexOf task importName

theorem IsTaskKey.not_index (h : IsTaskKey k) : ¬ IsIndexKey k := by
  obtain ⟨task, taskId, htask, rfl⟩ := h
  rintro ⟨task', importName, htask', hkey⟩
  exact keyOf_ne_indexOf_of_plain htask htask' hkey

/-- A hash of a task that lives for a time, or a set of the tasks of an import. -/
abbrev Alive : Entry → Prop := Sorted (fun k _ ttl => ttl ≠ .null ∧ IsTaskKey k) IsIndexKey

theorem orderly_alive : Orderly Alive Readable := ⟨fun _ h => h.tidy, fun _ h => h.eq_map⟩

theorem Fit.hashOr (h : Fit Alive Readable s) (hk : IsTaskKey k) : ∃ old, HashOr s.cache k old := by
  rcases (h.tidy orderly_alive).cases k with (hnone | ⟨old, ttl, hhash⟩) | ⟨members, ttl, hlist⟩
  · exact ⟨[], Cache.holdsOr_free hnone⟩
  · exact ⟨old, hashOr_of_entryAt hhash⟩
  · exact absurd (sorted_list.mp (h.stocked k _ hlist)) hk.not_index

theorem Fit.listOr (h : Fit Alive Readable s) (hk : IsIndexKey k) :
    ∃ members, ListOr s.cache k members := by
  rcases (h.tidy orderly_alive).cases k with (hnone | ⟨old, ttl, hhash⟩) | ⟨members, ttl, hlist⟩
  · exact ⟨[], Cache.holdsOr_free hnone⟩
  · exact absurd hk (sorted_hash.mp (h.stocked k _ hhash)).2.not_index
  · exact ⟨members, .inl (Cache.held_of_listEntry hlist)⟩

/-- A task whose kind has no colon is stored with a time to live. -/
theorem alive_store {task : String} (htask : ':' ∉ task.toList) (taskId : String) (m : ApiResponse) :
    Sustains (Fit Alive Readable) (store (.text taskId) m.toValue (.text task)) := by
  refine .of_run fun s h => ?_
  have hkey : IsTaskKey (keyOf task taskId) := ⟨task, taskId, htask, rfl⟩
  have hidx : IsIndexKey (indexOf task m.importName) := ⟨task, m.importName, htask, rfl⟩
  obtain ⟨old, hold⟩ := h.hashOr hkey
  obtain ⟨members, hmems⟩ := h.listOr hidx
  obtain ⟨cache', hrun, hent⟩ := store_writes h.calm hold hmems
  refine .inl ⟨(), _, hrun, trivial, h.withCache fun k e he => ?_⟩
  -- The entry is the set of the import, the hash of the task, or an old one.
  rw [hent, Function.update_apply, Function.update_apply] at he
  split_ifs at he
  · cases he
    exact sorted_list.mpr hidx
  · cases he
    exact sorted_hash.mpr ⟨life_ne_null m.status, hkey⟩
  · exact h.stocked k e he

/-- In a run of harmless events in which every change finds something, and all kinds are without a
colon, hashes live for a time. -/
theorem alive_passed (hs : Fresh s) (hcovered : Covered s events)
    (hevents : ∀ e ∈ events, e.Harmless)
    (hkinds : ∀ e ∈ events, ∀ task ∈ e.kind?, ':' ∉ task.toList) (hpast : past <+: events) :
    Fit Alive Readable (passed s past) := by
  -- The keys are part of the invariant: no set stands where a hash is written, so nothing stops
  -- between a hash and its time to live.
  refine hs.fit_passed hpast fun past e hpast hfit => ?_
  have hmem : e ∈ events := hpast.subset (by simp)
  refine hfit.pass_of_harmless orderly_alive (hevents e hmem) (fun m _ task htask taskId => ?_) ?_
  · exact alive_store (hkinds e hmem task htask) taskId m
  · rintro u rfl
    refine change_keeps orderly_alive hfit (fun hnone => ?_) fun old new ttl ttl' hold _ httl => ?_
    · exact absurd (Cache.held_of_free hnone) (hcovered past u hpast)
    · obtain ⟨hlives, hkey⟩ := sorted_hash.mp hold
      refine sorted_hash.mpr ⟨?_, hkey⟩
      rcases httl with rfl | rfl
      · exact hlives
      · exact life_ne_null u.value

/-! ## Tasks that are found -/

/-- A task whose hash can be read and has all its fields is found, and what is found goes into a
message. -/
theorem find_goes_into_message (hwhole : Fit Whole IsMap s) (hclear : Fit Clear Readable s)
    (task taskId : String) :
    (∀ v s', find (.text taskId) (.text task) s = .ok (some v) s' →
      ∃ m, GetTaskResponse.ofValue (foundState (some v)) = .ok ⟨some m, true⟩) ∧
    ∀ content, held s.cache (keyOf task taskId) = some (.text hashKind, content) →
      ∃ v, find (.text taskId) (.text task) s = .ok (some v) s := by
  rcases (hwhole.tidy orderly_whole).cases (keyOf task taskId) with
    (hnone | ⟨fields, ttl, hhash⟩) | ⟨members, ttl, hlist⟩
  · have hheld := Cache.held_of_free hnone
    refine ⟨fun v s' hfind => ?_, fun content hcont => ?_⟩
    · rw [find_of_none hwhole.calm hheld] at hfind
      cases hfind
    · rw [hheld] at hcont
      cases hcont
  · obtain ⟨v, m, hst, hm, hshows⟩ := stateIn_shows
      (sorted_hash.mp (hclear.stocked _ _ hhash)) (sorted_hash.mp (hwhole.stocked _ _ hhash))
    have hfound := find_of_hashOr hwhole.calm (hashOr_of_entryAt hhash)
    rw [hst] at hfound
    refine ⟨fun v' s' hfind => ?_, fun _ _ => ⟨v, hfound⟩⟩
    rw [hfound] at hfind
    cases hfind
    exact ⟨m, ofValue_of_shows hshows hm⟩
  · have hheld := Cache.held_of_listEntry hlist
    refine ⟨fun v s' hfind => ?_, fun content hcont => ?_⟩
    · rw [find_of_listed hwhole.calm hheld] at hfind
      cases hfind
    · rw [hheld] at hcont
      simp [hashKind, setKind] at hcont

/-- From empty stores, and with no outage, all hashes of a run have all the fields of a state if and
only if every change finds something under the key of its task. If besides all events are harmless
and the kinds of the tasks have no colon, then at every moment all hashes live for a time, a task
with a hash is found, and what is found goes into a message. -/
theorem hashes_whole_iff_covered (s : State) (hs : s.Calm) (hcache : s.cache = [])
    (hdocs : s.documents collection = []) (events : List Event) :
    ((∀ past, past <+: events → AllWhole (passed s past)) ↔ Covered s events) ∧
    (Covered s events → (∀ e ∈ events, e.Harmless) →
      (∀ e ∈ events, ∀ task ∈ e.kind?, ':' ∉ task.toList) → ∀ past, past <+: events →
        (∀ k e, entryAt (passed s past).cache k = some e → e.kind = .text hashKind →
          e.ttl ≠ .null) ∧
        ∀ task taskId,
          (∀ v s', find (.text taskId) (.text task) (passed s past) = .ok (some v) s' →
            ∃ m, GetTaskResponse.ofValue (foundState (some v)) = .ok ⟨some m, true⟩) ∧
          ∀ content, held (passed s past).cache (keyOf task taskId) = some (.text hashKind,
            content) →
            ∃ v, find (.text taskId) (.text task) (passed s past) =
              .ok (some v) (passed s past)) := by
  have hfresh : Fresh s := ⟨hs, hcache, hdocs⟩
  refine ⟨allWhole_iff_covered hfresh events, ?_⟩
  intro hcovered hevents hkinds past hpast
  refine ⟨fun k e hentry hkind => ?_, fun task taskId => ?_⟩
  · have hfit := alive_passed hfresh hcovered hevents hkinds hpast
    rcases hfit.stocked k e hentry with ⟨k', fields, ttl, rfl, hlives, -⟩ | ⟨k', members, ttl, rfl,
      -⟩
    · exact hlives
    · simp [listEntry, hashKind, setKind] at hkind
  · have hpast_harmless : ∀ e ∈ past, e.Harmless := fun e he => hevents e (hpast.subset he)
    exact find_goes_into_message (whole_passed hfresh hcovered hpast)
      (clear_passed hfresh hpast_harmless) task taskId

def queued : ApiResponse where
  status := "accepted"
  code := 202
  message := "queued"
  data := [("import_name", "orders")]

def completion : UpdateTaskRequest where
  taskId := "t1"
  task := "validation"
  field := "status"
  value := "completed"
  data := [("rows", "3")]

def queueing : Event := .write (.set { taskId := "t1", task := "validation", value := some queued })

def completing : Event := .write (.update completion)

theorem covered_kept : Covered {} [queueing, completing] := by
  intro past u hpast
  match past with
  | [] => simp [queueing] at hpast
  | [e] =>
    simp only [List.cons_append, List.nil_append, List.cons_prefix_cons, completing,
      Event.write.injEq, Request.update.injEq] at hpast
    obtain ⟨rfl, rfl, -⟩ := hpast
    rw [← Option.isSome_iff_ne_none]
    rfl
  | e :: e' :: past => simp at hpast

theorem hashes_whole_iff_covered_lost :
    (¬ ∀ past, past <+: [queueing, .clear, completing] → AllWhole (passed {} past)) ∧
    (∀ past, past <+: [queueing, completing] → AllWhole (passed {} past)) ∧
    ∃ v m, find (.text "t1") (.text "validation") (passed {} [queueing, completing]) =
        .ok (some v) (passed {} [queueing, completing]) ∧
      GetTaskResponse.ofValue (foundState (some v)) = .ok ⟨some m, true⟩ := by
  have hlost := hashes_whole_iff_covered {} rfl rfl rfl [queueing, .clear, completing]
  have hkept := hashes_whole_iff_covered {} rfl rfl rfl [queueing, completing]
  have hharmless : ∀ e ∈ [queueing, completing], e.Harmless := by
    rintro e (_ | ⟨_, _ | ⟨_, he⟩⟩)
    · exact ⟨by simp [IsInt32, queued], by simp [queued]⟩
    · exact UpdateTaskRequest.Proper.harmless ⟨.inl rfl, by simp [completion]⟩
    · cases he
  have hkinds : ∀ e ∈ [queueing, completing], ∀ task ∈ e.kind?, ':' ∉ task.toList := by
    rintro e (_ | ⟨_, _ | ⟨_, he⟩⟩) task htask
    · cases htask
      decide
    · cases htask
      decide
    · cases he
  obtain ⟨-, hfound⟩ := hkept.2 covered_kept hharmless hkinds _ (List.prefix_refl _)
  obtain ⟨hmessage, hfind⟩ := hfound "validation" "t1"
  have hhash : (held (passed {} [queueing, completing]).cache (keyOf "validation" "t1")).any
      (·.1.same (.text hashKind)) = true := by decide +kernel
  obtain ⟨⟨kind, content⟩, hheld, hkind⟩ := (Option.any_eq_true _ _).mp hhash
  obtain rfl : kind = .text hashKind := same_text_right.mp hkind
  obtain ⟨v, hv⟩ := hfind content hheld
  obtain ⟨m, hm⟩ := hmessage v _ hv
  refine ⟨fun hwhole => ?_, hkept.1.mpr covered_kept, v, m, hv, hm⟩
  exact hlost.1.mp hwhole [queueing, .clear] completion (List.prefix_refl _) rfl

end SheetMill.Database.Tasks
