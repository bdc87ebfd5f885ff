import SheetMill.Proofs.TaskEvents

/-!
# Changes that fail

A change that is answered with a failure leaves all documents as they were, but not the cache: the
field and the message are in the hash by the time the old data is looked for, and nothing takes them
out again.
-/

namespace SheetMill.Database.Tasks

open Act Value Message TaskCache Documents
open Cache (Stocked Tidy HashOr entryAt hashEntry held ttlAt hashKind setKind wrongType)

variable {s t : State} {u : UpdateTaskRequest} {answer : Value}
  {old fields : List (String × String)}

/-! ## Answers to changes -/

theorem not_succeeded_done (msg : String) : ¬ Succeeded (done false msg) := by
  simp [Succeeded, done, List.lookup]

/-- A change that fails in the cache is answered with a failure. -/
theorem update_of_error {f : Fault} (h : change (requested u) s = .error f t)
    (hf : f.isOrdinary = true) :
    ∃ answer, Tasks.update u.toValue s = .ok answer t ∧ ¬ Succeeded answer := by
  refine ⟨done false ("Error updating task: " ++ f.message), ?_, not_succeeded_done _⟩
  rw [update_eq]
  exact handle_of_error (bind_of_error h) hf

def HoldsSet (s : State) (u : UpdateTaskRequest) : Prop :=
  ∃ members, held s.cache (keyOf u.task u.taskId) = some (listed members)

/-- A change of a hash that is answered with a failure has written to the hash. -/
theorem failed_update_of_hashOr (hfit : Fit Tidy IsMap s) (hold : HashOr s.cache u.key old)
    (hrun : Tasks.update u.toValue s = .ok answer t) (hfail : ¬ Succeeded answer) :
    t.documents collection = s.documents collection ∧
      ∃ new ttl, Written u old new ∧
        entryAt t.cache = Function.update (entryAt s.cache) u.key
          (some (hashEntry u.key (merged old new) ttl)) := by
  have hst : ((Tasks.update u.toValue).outcome s).2 = t := by rw [outcome_of_ok hrun]
  cases hdata : dataIn u (merged old (spoken u)) with
  | error f =>
    -- The field and the msg were written before the data was looked for.
    obtain ⟨cache', hchg, hent⟩ := change_of_error hfit.calm hold hdata
    rw [update_state_of_error hchg] at hst
    subst hst
    exact ⟨rfl, _, _, .inl rfl, hent⟩
  | ok texts =>
    obtain ⟨cache', hchg, hent⟩ := change_of_ok hfit.calm hold hdata
    have hmaps := hfit.allMaps orderly_tidy
    obtain ⟨t', -, hcache, hcases⟩ :=
      changeDocument_spec (s := { s with cache := cache' }) hfit.calm hmaps u
    rcases hcases with ⟨f, -, hdoc, hdocs⟩ | ⟨hdoc, -⟩
    -- The hash is complete, and the documents refused the change.
    · rw [update_state_of_ok hchg, outcome_of_error hdoc] at hst
      subst hst
      exact ⟨hdocs, _, _, .inr ⟨texts, hdata, rfl⟩, by rw [hcache]; exact hent⟩
    · obtain ⟨answer', hrun', hsucc⟩ := update_of_ok hchg hdoc
      rw [hrun] at hrun'
      cases hrun'
      exact absurd hsucc hfail

theorem failed_update_state (hfit : Fit Tidy IsMap s) (hrun : Tasks.update u.toValue s = .ok answer t)
    (hfail : ¬ Succeeded answer) :
    t.documents collection = s.documents collection ∧
      (HoldsSet s u ∧ t.cache = s.cache ∨
        ∃ old new ttl, HashOr s.cache u.key old ∧ Written u old new ∧
          entryAt t.cache = Function.update (entryAt s.cache) u.key
            (some (hashEntry u.key (merged old new) ttl))) := by
  rcases hfit.stocked.hash_or_list u.key with ⟨old, hold⟩ | ⟨members, hlist⟩
  · obtain ⟨hdocs, new, ttl, hnew, hcache⟩ := failed_update_of_hashOr hfit hold hrun hfail
    exact ⟨hdocs, .inr ⟨old, new, ttl, hold, hnew, hcache⟩⟩
  · have hst := update_state_of_error (change_of_listed hfit.calm hlist)
    rw [outcome_of_ok hrun] at hst
    subst hst
    exact ⟨rfl, .inl ⟨⟨members, hlist⟩, rfl⟩⟩

/-! ## Changes of the status or of the message -/

/-- A change of the status or of the message never fails in the documents. -/
theorem changeDocument_proper (hs : s.Calm) (hdocs : ∀ doc ∈ s.documents collection, Readable doc)
    (hu : u.Proper) : ∃ t, changeDocument (requested u) s = .ok () t := by
  have hmaps : AllMaps (s.documents collection) := fun doc hdoc => (hdocs doc hdoc).eq_map
  obtain ⟨t, -, -, hcases⟩ := changeDocument_spec hs hmaps u
  rcases hcases with ⟨f, hwhy, -, -⟩ | ⟨hrun, -⟩
  · rcases hwhy with ⟨old, hold, hmerge⟩ | ⟨sets, hsets, doc, hdoc, hamend⟩
    · obtain ⟨data, -, rfl⟩ := hold.textMap hdocs
      cases hmerge
    · obtain ⟨es, rfl⟩ := hmaps doc hdoc
      obtain ⟨v, rest, rfl, hrest⟩ := hsets.headed
      have hfld : Text.split u.field '.' = [u.field] := by
        rcases hu.field with hfld | hfld <;> (rw [hfld]; decide)
      rw [amend_set (List.forall_mem_cons.mpr ⟨hfld, split_of_rest hrest⟩)] at hamend
      cases hamend
  · exact ⟨t, hrun⟩

/-- The change wants to put its data into old data, and there is no hash with data. -/
structure Lacks (s : State) (u : UpdateTaskRequest) : Prop where
  data : u.data ≠ []
  reset : u.resetData.getD false = false
  no_set : ¬ HoldsSet s u
  no_data : ∀ v, held s.cache (keyOf u.task u.taskId) = some (.text hashKind, v) →
    v.field? "data" = none

/-- The hash of the task says already what the change would write before it looks at the data. -/
def Says (s : State) (u : UpdateTaskRequest) : Prop :=
  ∃ old, held s.cache (keyOf u.task u.taskId) = some (.text hashKind, .map (old.map textEntry)) ∧
    merged old (spoken u) = old

section HashOr

variable {old : List (String × String)} {d : Value → Prop}

theorem not_holdsSet (h : HashOr s.cache u.key old) : ¬ HoldsSet s u := by
  rintro ⟨members, hlist⟩
  rcases h with hhash | ⟨hnone, -⟩
  · rw [hlist] at hhash
    simp [listed, hashKind, setKind] at hhash
  · rw [hlist] at hnone
    cases hnone

theorem map_textEntry_inj {fields' : List (String × String)}
    (h : Value.map (fields.map textEntry) = .map (fields'.map textEntry)) : fields = fields' :=
  List.map_injective_iff.mpr Cache.textEntry_injective (Value.map.inj h)

theorem eq_nil_of_map_textEntry (h : Value.map (fields.map textEntry) = .map []) : fields = [] := by
  simpa using h

theorem Fit.legible {k : String} (h : Fit Clear d s) (hold : HashOr s.cache k old) :
    Legible old := by
  rcases hold with hhash | ⟨-, hempty⟩
  · obtain ⟨fields, ttl, -, hlegible, hflds⟩ := Cache.hash_of_held h.stocked hhash
    rwa [map_textEntry_inj hflds]
  · have hnil : old = [] := eq_nil_of_map_textEntry hempty
    rw [hnil]
    exact legible_nil

theorem lacks_iff (hold : HashOr s.cache u.key old) (hu : u.Proper) :
    Lacks s u ↔ u.data ≠ [] ∧ u.resetData.getD false = false ∧
      (merged old (spoken u)).lookup "data" = none := by
  have hspoken : "data" ∉ (spoken u).map Prod.fst := by
    intro hmem
    rcases names_of_spoken hmem with hfld | hmsg
    · exact hu.harmless.field_ne_data hfld.symm
    · simp at hmsg
  rw [lookup_merged_of_not_mem hspoken]
  have hfld : (Value.map (old.map textEntry)).field? "data" = (old.lookup "data").map .text :=
    findEntry_textEntry old "data"
  refine ⟨fun h => ⟨h.data, h.reset, ?_⟩, fun ⟨hdata, hreset, hlook⟩ =>
    ⟨hdata, hreset, not_holdsSet hold, fun v hv => ?_⟩⟩
  · rcases hold with hhash | ⟨-, hempty⟩
    · have hnone := h.no_data _ hhash
      rwa [hfld, Option.map_eq_none_iff] at hnone
    · have hnil : old = [] := eq_nil_of_map_textEntry hempty
      rw [hnil]
      rfl
  · rcases hold with hhash | ⟨hnone, -⟩
    · rw [hhash] at hv
      cases hv
      rw [hfld, hlook]
      rfl
    · rw [hnone] at hv
      cases hv

end HashOr

/-- A change of the status or of the message is carried out, unless the key holds a set or old data
is lacking. -/
theorem update_proper_cases (hfit : Fit Clear Readable s) (hu : u.Proper) :
    (HoldsSet s u ∧ ∃ answer, Tasks.update u.toValue s = .ok answer s ∧ ¬ Succeeded answer) ∨
    (Lacks s u ∧ ∃ answer old cache', HashOr s.cache u.key old ∧
      Tasks.update u.toValue s = .ok answer { s with cache := cache' } ∧ ¬ Succeeded answer ∧
      entryAt cache' = Function.update (entryAt s.cache) u.key
        (some (hashEntry u.key (merged old (spoken u))
          (ttlAt s.cache u.key)))) ∨
    (¬ HoldsSet s u ∧ ¬ Lacks s u ∧ ∃ answer t, Tasks.update u.toValue s = .ok answer t ∧
      Succeeded answer) := by
  have htidy := hfit.tidy orderly_clear
  rcases htidy.hash_or_list u.key with ⟨old, hold⟩ | ⟨members, hlist⟩
  · have hlegible := (hfit.legible hold).merged (legible_spoken hu.harmless)
    rcases dataIn_of_legible hlegible (merged_spoken_ne_nil old u) u with
      ⟨hwhy, texts, hdata, -⟩ | ⟨hwhy, hdata⟩
    · have hlacks : ¬ Lacks s u := by
        rw [lacks_iff hold hu]
        rintro ⟨hneeds, hreset, hnone⟩
        rw [hreset] at hwhy
        exact (hwhy.resolve_left hneeds).elim Bool.false_ne_true fun hsome => hsome hnone
      obtain ⟨cache', hchg, -⟩ := change_of_ok hfit.calm hold hdata
      obtain ⟨t, hdoc⟩ :=
        changeDocument_proper (s := { s with cache := cache' }) hfit.calm hfit.filed hu
      obtain ⟨answer, hrun, hsucc⟩ := update_of_ok hchg hdoc
      exact .inr (.inr ⟨not_holdsSet hold, hlacks, answer, t, hrun, hsucc⟩)
    · obtain ⟨cache', hchg, hent⟩ := change_of_error hfit.calm hold hdata
      obtain ⟨answer, hrun, hfail⟩ := update_of_error hchg rfl
      exact .inr (.inl ⟨(lacks_iff hold hu).mpr hwhy, answer, old, cache', hold, hrun, hfail, hent⟩)
  · obtain ⟨answer, hrun, hfail⟩ := update_of_error (change_of_listed hfit.calm hlist) rfl
    exact .inl ⟨⟨members, hlist⟩, answer, hrun, hfail⟩

theorem unchanged_iff_says {cache' : Cache} (hstocked : Stocked Clear s.cache)
    (hold : HashOr s.cache u.key old)
    (hent : entryAt cache' = Function.update (entryAt s.cache) u.key
      (some (hashEntry u.key (merged old (spoken u))
        (ttlAt s.cache u.key)))) : entryAt cache' = entryAt s.cache ↔ Says s u := by
  rw [hent, Function.update_eq_self_iff]
  have hsame : ∀ fields, held s.cache u.key =
      some (.text hashKind, .map (fields.map textEntry)) → old = fields := by
    intro fields hflds
    rcases hold with hhash | ⟨hnone, -⟩
    · rw [hhash] at hflds
      exact map_textEntry_inj (Prod.mk.inj (Option.some.inj hflds)).2
    · rw [hnone] at hflds
      cases hflds
  constructor
  · intro hwritten
    have hheld := Cache.held_of_hashEntry hwritten.symm
    have hmerged := hsame _ hheld
    rw [← hmerged] at hheld
    exact ⟨old, hheld, hmerged.symm⟩
  · rintro ⟨fields, hflds, hmerged⟩
    obtain rfl := hsame fields hflds
    obtain ⟨fields', ttl, hhash, -, heq⟩ := Cache.hash_of_held hstocked hflds
    rw [hmerged, ttlAt, hhash, map_textEntry_inj heq]
    rfl

/-- After any events from empty stores, and with no outage, a change that is answered with a failure
has changed no document; in the cache it has changed nothing if the key of its task holds a set, and
otherwise it has written to the hash under that key, and only there. A change of the status or of the
message, after harmless events, is always answered; it fails if and only if the key holds a set or old
data is lacking; and a failure leaves the cache as it was if and only if old data is not lacking or
the hash says already what the change has written before it looked for the data. -/
theorem failed_update_leaves_fields (s : State) (hs : s.Calm) (hcache : s.cache = [])
    (hdocs : s.documents collection = []) (events : List Event) (u : UpdateTaskRequest) :
    (∀ answer t, Tasks.update u.toValue (passed s events) = .ok answer t → ¬ Succeeded answer →
      t.documents collection = (passed s events).documents collection ∧
      (HoldsSet (passed s events) u ∧ t.cache = (passed s events).cache ∨
        ∃ old new ttl, HashOr (passed s events).cache (keyOf u.task u.taskId) old ∧
          Written u old new ∧
          entryAt t.cache = Function.update (entryAt (passed s events).cache)
            (keyOf u.task u.taskId) (some (hashEntry (keyOf u.task u.taskId) (merged old new) ttl)))) ∧
    ((∀ e ∈ events, e.Harmless) → u.Proper →
      ∃ answer t, Tasks.update u.toValue (passed s events) = .ok answer t ∧
        (¬ Succeeded answer ↔ HoldsSet (passed s events) u ∨ Lacks (passed s events) u) ∧
        ((¬ Succeeded answer → entryAt t.cache = entryAt (passed s events).cache) ↔
          (Lacks (passed s events) u → Says (passed s events) u))) := by
  refine ⟨fun answer t hrun hfailed => ?_, fun hevents hu => ?_⟩
  · exact failed_update_state (tidy_passed ⟨hs, hcache, hdocs⟩ events) hrun hfailed
  · have hfit := clear_passed ⟨hs, hcache, hdocs⟩ hevents
    rcases update_proper_cases hfit hu with ⟨hset, answer, hrun, hfailed⟩ |
      ⟨hlacks, answer, old, cache', hold, hrun, hfailed, hentry⟩ |
      ⟨hset, hlacks, answer, t, hrun, hsucceeded⟩
    · refine ⟨answer, _, hrun, by simp [hfailed, hset], ?_⟩
      simp only [implies_true, true_iff]
      exact fun hlacks => absurd hset hlacks.no_set
    · refine ⟨answer, _, hrun, by simp [hfailed, hlacks], ?_⟩
      rw [forall_prop_of_true hfailed, forall_prop_of_true hlacks]
      exact unchanged_iff_says hfit.stocked hold hentry
    · exact ⟨answer, t, hrun, by simp [hsucceeded, hset, hlacks], by simp [hsucceeded, hlacks]⟩

theorem failed_update_leaves_fields_lost :
    ∃ answer t, Tasks.update completion.toValue (passed {} [queueing, .clear]) = .ok answer t ∧
      ¬ Succeeded answer ∧ entryAt t.cache ≠ entryAt (passed {} [queueing, .clear]).cache ∧
      t.documents collection = (passed {} [queueing, .clear]).documents collection := by
  have hharmless : ∀ e ∈ [queueing, .clear], e.Harmless := by
    rintro e (_ | ⟨_, _ | ⟨_, he⟩⟩)
    · exact ⟨by simp [IsInt32, queued], by simp [queued]⟩
    · trivial
    · cases he
  have hproper : completion.Proper := ⟨.inl rfl, by simp [completion]⟩
  have hnone : held (passed {} [queueing, .clear]).cache
      (keyOf completion.task completion.taskId) = none := rfl
  have hlacks : Lacks (passed {} [queueing, .clear]) completion := by
    refine ⟨by simp [completion], rfl, ?_, ?_⟩
    · rintro ⟨members, hlist⟩
      rw [hnone] at hlist
      cases hlist
    · intro v hv
      rw [hnone] at hv
      cases hv
  have hsays : ¬ Says (passed {} [queueing, .clear]) completion := by
    rintro ⟨old, hhash, -⟩
    rw [hnone] at hhash
    cases hhash
  obtain ⟨hwrites, hproper_update⟩ :=
    failed_update_leaves_fields {} rfl rfl rfl [queueing, .clear] completion
  obtain ⟨answer, t, hrun, hfails, hsame⟩ := hproper_update hharmless hproper
  have hfailed := hfails.mpr (.inr hlacks)
  refine ⟨answer, t, hrun, hfailed, fun heq => ?_, (hwrites answer t hrun hfailed).1⟩
  exact hsays (hsame.mp (fun _ => heq) hlacks)

end SheetMill.Database.Tasks
