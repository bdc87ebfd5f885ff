import SheetMill.Proofs.TaskChanges

/-!
# Tasks in the cache and as documents

A document is told by the kind and the identity of its task, a hash by a key in which the two are
joined. So after any run of requests, the document of a task shows the fold of the requests about
this task, and the hash under a key is that of the fold of the requests about all tasks with this
key. The two agree for every task whose key no other task of the run has.
-/

namespace SheetMill.Database.Tasks

open Act Value Message TaskCache List Function Option
open Cache (held wrongType)

variable {s s' : State} {past requests : List Request} {r : Request} {q : SetTaskRequest}
  {k : String}

/-! ## What a run leaves behind -/

section After

variable {κ : Type} [DecidableEq κ]

/-- The state that requests leave behind for those of them that have something in common. -/
def after (f : Request → κ) (past : List Request) (x : κ) : Option ApiResponse :=
  folded (past.filter (f · = x))

theorem after_snoc (f : Request → κ) (past : List Request) (r : Request) :
    after f (past ++ [r]) =
      Function.update (after f past) (f r) (r.apply (after f past (f r))) := by
  funext x
  unfold after
  by_cases h : f r = x
  · subst h
    rw [← folded_snoc]
    simp
  · rw [update_of_ne (Ne.symm h)]
    simp [h]

theorem folded_isSome_iff : (folded requests).isSome = true ↔ ∃ r ∈ requests, r.IsSet := by
  induction requests using List.reverseRecOn with
  | nil => simp [folded]
  | append_singleton requests r ih =>
    rw [folded_snoc]
    cases r with
    | set q => simp [Request.apply, Request.IsSet]
    | update u => simp [Request.apply, Request.IsSet, ih]

theorem after_isSome_iff {f : Request → κ} {x : κ} :
    (after f past x).isSome = true ↔ ∃ r ∈ past, f r = x ∧ r.IsSet := by
  simp [after, folded_isSome_iff, and_assoc]

end After

def Indexed (past : List Request) (k : String) : Prop := ∃ r ∈ past, r.index? = some k

instance (past : List Request) (k : String) : Decidable (Indexed past k) :=
  inferInstanceAs (Decidable (∃ r ∈ past, r.index? = some k))

theorem indexed_snoc : Indexed (past ++ [r]) k ↔ Indexed past k ∨ r.index? = some k := by
  simp [Indexed]

/-! ## The keys of the cache -/

/-- Under its keys, the cache holds hashes of states and, under others, sets. -/
structure Caches (view : String → Option (Value × Value)) (states : String → Option ApiResponse)
    (indexed : String → Prop) : Prop where
  hashes : ∀ k m, states k = some m → view k = some (hashed m)
  lists : ∀ k, indexed k → ∃ members, view k = some (listed members)
  others : ∀ k, states k = none → ¬ indexed k → view k = none

section Caches

variable {view : String → Option (Value × Value)} {states : String → Option ApiResponse}
  {indexed indexed' : String → Prop} {k : String}

/-- No key is that of a task and of a set. -/
theorem Caches.not_indexed (h : Caches view states indexed) (hk : (states k).isSome = true) :
    ¬ indexed k := by
  intro hidx
  obtain ⟨m, hm⟩ := isSome_iff_exists.mp hk
  obtain ⟨members, hmems⟩ := h.lists k hidx
  rw [h.hashes k m hm] at hmems
  simp [hashed, listed] at hmems

theorem Caches.hash (h : Caches view states indexed) (hk : ¬ indexed k) (m : ApiResponse) :
    Caches (Function.update view k (some (hashed m))) (Function.update states k (some m))
      indexed := by
  refine ⟨fun k' m' hst => ?_, fun k' hidx => ?_, fun k' hst hidx => ?_⟩
  · by_cases heq : k' = k
    · subst heq
      rw [update_self] at hst ⊢
      cases hst
      rfl
    · rw [update_of_ne heq] at hst ⊢
      exact h.hashes k' m' hst
  · have hne : k' ≠ k := fun heq => hk (heq ▸ hidx)
    rw [update_of_ne hne]
    exact h.lists k' hidx
  · have hne : k' ≠ k := by
      rintro rfl
      rw [update_self] at hst
      cases hst
    rw [update_of_ne hne] at hst ⊢
    exact h.others k' hst hidx

theorem Caches.list (h : Caches view states indexed) (hk : states k = none) (members : List Value)
    (hidx : ∀ k', indexed' k' ↔ indexed k' ∨ k = k') :
    Caches (Function.update view k (some (listed members))) states indexed' := by
  refine ⟨fun k' m hst => ?_, fun k' hk' => ?_, fun k' hst hk' => ?_⟩
  · have hne : k' ≠ k := by
      rintro rfl
      rw [hk] at hst
      cases hst
    rw [update_of_ne hne]
    exact h.hashes k' m hst
  · by_cases heq : k' = k
    · subst heq
      exact ⟨members, update_self ..⟩
    · rw [update_of_ne heq]
      exact h.lists k' (((hidx k').mp hk').resolve_right (Ne.symm heq))
  · rw [hidx, not_or] at hk'
    rw [update_of_ne (Ne.symm hk'.2)]
    exact h.others k' hst hk'.1

end Caches

/-- Both places keep what past requests left behind. -/
structure Keeps (s : State) (past : List Request) : Prop where
  calm : s.Calm
  proper : ∀ r ∈ past, r.Proper
  cached : Caches (held s.cache) (after Request.key past) (Indexed past)
  documents : Represents (s.documents collection) (after Request.owner past)

/-- Nothing is stored, and there is no outage. -/
structure Fresh (s : State) : Prop where
  calm : s.Calm
  cache : s.cache = []
  documents : s.documents collection = []

theorem Fresh.keeps (hs : Fresh s) : Keeps s [] := by
  refine ⟨hs.calm, by simp, ⟨fun k m h => ?_, fun k h => ?_, fun k _ _ => ?_⟩, ?_⟩
  · cases h
  · obtain ⟨r, hr, -⟩ := h
    cases hr
  · rw [hs.cache]
    rfl
  · rw [hs.documents]
    exact represents_nil

/-! ## One request -/

def Succeeded (answer : Value) : Prop := answer.field? "success" = some (.bool true)

theorem set_eq (q : SetTaskRequest) (s : State) :
    Tasks.set q.toValue s = Act.handle (do
      store (.text q.taskId) (q.value.getD {}).toValue (.text q.task)
      storeDocument (.text q.taskId) (q.value.getD {}).toValue (.text q.task)
      return done true "Task set successfully in both Redis and MongoDB")
      (fun f => return done false ("Error setting task: " ++ f.message)) s := rfl

theorem set_of_ok {s1 s2 : State}
    (hstore : store (.text q.taskId) (q.value.getD {}).toValue (.text q.task) s = .ok () s1)
    (hdoc : storeDocument (.text q.taskId) (q.value.getD {}).toValue (.text q.task) s1 =
      .ok () s2) : ∃ answer, Tasks.set q.toValue s = .ok answer s2 ∧ Succeeded answer := by
  refine ⟨done true "Task set successfully in both Redis and MongoDB", ?_, rfl⟩
  exact handle_of_ok ((bind_of_ok hstore).trans ((bind_of_ok hdoc).trans rfl))

theorem set_of_refused
    (hstore : store (.text q.taskId) (q.value.getD {}).toValue (.text q.task) s =
      .error wrongType s') :
    ∃ answer, Tasks.set q.toValue s = .ok answer s' ∧ ¬ Succeeded answer := by
  refine ⟨done false ("Error setting task: " ++ wrongType.message), ?_, ?_⟩
  · rw [set_eq]
    exact handle_of_error (bind_of_error hstore) rfl
  · simp [Succeeded, done]

theorem update_of_ok {u : UpdateTaskRequest} {s1 s2 : State}
    (hchg : change (requested u) s = .ok () s1)
    (hdoc : changeDocument (requested u) s1 = .ok () s2) :
    ∃ answer, Tasks.update u.toValue s = .ok answer s2 ∧ Succeeded answer := by
  refine ⟨done true "Task updated successfully in both Redis and MongoDB", handle_of_ok ?_, rfl⟩
  exact (bind_of_ok hchg).trans ((bind_of_ok hdoc).trans rfl)

/-- The request is carried out, and what has been kept is kept with it. -/
def Carries (kept : State → List Request → Prop) (s : State) (past : List Request) (r : Request) :
    Prop :=
  ∃ answer s', r.run s = .ok answer s' ∧ Succeeded answer ∧ kept s' (past ++ [r])

theorem Keeps.proper_after {κ : Type} [DecidableEq κ] {f : Request → κ} {x : κ} {m : ApiResponse}
    (h : Keeps s past) (hm : after f past x = some m) : m.Proper :=
  folded_proper (fun r hr => h.proper r (mem_of_mem_filter hr)) hm

theorem Keeps.proper_snoc (h : Keeps s past) (hr : r.Proper) : ∀ r' ∈ past ++ [r], r'.Proper := by
  simpa [or_imp, forall_and] using ⟨h.proper, hr⟩

theorem Keeps.free (h : Keeps s past) (hk : ¬ Indexed past k) : Free s.cache k := by
  cases hst : after Request.key past k with
  | none => exact .inl (h.cached.others k hst hk)
  | some m => exact .inr ⟨m, h.cached.hashes k m hst⟩

theorem Keeps.open (h : Keeps s past) (hk : after Request.key past k = none) : Open s.cache k := by
  by_cases hidx : Indexed past k
  · exact .inr (h.cached.lists k hidx)
  · exact .inl (h.cached.others k hk hidx)

/-- A task is stored under a key that is free, and added to a set under a key that is none of a
task. -/
theorem Keeps.set (h : Keeps s past) (hq : (Request.set q).Proper)
    (hkey : ¬ Indexed past (Request.set q).key)
    (hidx : after Request.key past (indexOf q.task (q.value.getD {}).importName) = none) :
    Carries Keeps s past (.set q) := by
  obtain ⟨cache', members, hstore, hheld⟩ := store_calm h.calm (h.free hkey) (h.open hidx)
  have hcalm : State.Calm { s with cache := cache' } := h.calm
  obtain ⟨s', hdoc, hs', hcache, hrep⟩ :=
    storeDocument_writes hcalm h.documents q.task q.taskId (q.value.getD {})
  obtain ⟨answer, hrun, hsucc⟩ := set_of_ok hstore hdoc
  refine ⟨answer, s', hrun, hsucc, hs', h.proper_snoc hq, ?_, ?_⟩
  · rw [hcache, hheld, after_snoc]
    refine (h.cached.hash hkey _).list ?_ members fun k => ?_
    · exact (update_of_ne (keyOf_ne_indexOf _ _ _).symm _ _).trans hidx
    · simp [indexed_snoc, Request.index?, Request.owner]
  · rw [after_snoc]
    exact hrep

theorem isSome_key_of_isSome_owner (h : (after Request.owner past r.owner).isSome = true) :
    (after Request.key past r.key).isSome = true := by
  obtain ⟨first, hmem, howner, hset⟩ := after_isSome_iff.mp h
  exact after_isSome_iff.mpr ⟨first, hmem, by rw [Request.key, howner, Request.key], hset⟩

theorem Keeps.update {u : UpdateTaskRequest} (h : Keeps s past) (hu : u.Proper)
    (hst : (after Request.owner past (Request.update u).owner).isSome = true) :
    Carries Keeps s past (.update u) := by
  have hkey := isSome_key_of_isSome_owner hst
  obtain ⟨shown, hshown⟩ := isSome_iff_exists.mp hst
  -- where keys are shared, the state in the cache need not be the one that the document shows
  obtain ⟨cached, hcached⟩ := isSome_iff_exists.mp hkey
  obtain ⟨cache', hchg, hheld⟩ := change_calm h.calm hu (h.proper_after hcached)
    (h.cached.hashes _ _ hcached)
  have hcalm : State.Calm { s with cache := cache' } := h.calm
  obtain ⟨s', hdoc, hs', hcache, hrep⟩ :=
    changeDocument_writes hcalm h.documents hu hshown
  obtain ⟨answer, hrun, hsucc⟩ := update_of_ok hchg hdoc
  have hidx : Indexed (past ++ [.update u]) = Indexed past := by
    funext k
    simp [indexed_snoc, Request.index?]
  refine ⟨answer, s', hrun, hsucc, hs', h.proper_snoc hu, ?_, ?_⟩
  · rw [hcache, hheld, after_snoc, hcached, hidx]
    exact h.cached.hash (h.cached.not_indexed hkey) _
  · rw [after_snoc, hshown]
    exact hrep

/-- The request wants the key of a set for its task, or the key of a task for its set. -/
def Refused (past : List Request) (r : Request) : Prop :=
  Indexed past r.key ∨ ∃ k, r.index? = some k ∧ (after Request.key past k).isSome = true

/-- A request may come now: it stores its task, or the task has a state. -/
def Allowed (past : List Request) (r : Request) : Prop :=
  r.IsSet ∨ (after Request.owner past r.owner).isSome = true

theorem Keeps.step (h : Keeps s past) (hr : r.Proper) (hallowed : Allowed past r)
    (hrej : ¬ Refused past r) : Carries Keeps s past r := by
  rw [Refused, not_or] at hrej
  cases r with
  | set q =>
    refine h.set hr hrej.1 ?_
    rw [← not_isSome_iff_eq_none]
    exact fun hsome => hrej.2 ⟨_, rfl, hsome⟩
  | update u =>
    rcases hallowed with hset | hst
    · cases hset
    · exact h.update hr hst

theorem Keeps.step_refused (h : Keeps s past) (hallowed : Allowed past r)
    (hrej : Refused past r) :
    ∃ answer s', r.run s = .ok answer s' ∧ ¬ Succeeded answer := by
  cases r with
  | set q =>
    by_cases hkey : Indexed past (Request.set q).key
    · obtain ⟨members, hmems⟩ := h.cached.lists _ hkey
      obtain ⟨answer, hrun, hfail⟩ := set_of_refused (store_of_listed h.calm hmems _)
      exact ⟨answer, s, hrun, hfail⟩
    · rcases hrej with hidx | ⟨k, hk, hst⟩
      · exact absurd hidx hkey
      · cases hk
        obtain ⟨m, hm⟩ := isSome_iff_exists.mp hst
        obtain ⟨cache', hstore, -⟩ := store_refused h.calm (h.free hkey) (h.cached.hashes _ m hm)
          (by decide)
        obtain ⟨answer, hrun, hfail⟩ := set_of_refused hstore
        exact ⟨answer, _, hrun, hfail⟩
  | update u =>
    rcases hallowed with hset | hst
    · cases hset
    · rcases hrej with hidx | ⟨k, hk, -⟩
      · exact absurd hidx (h.cached.not_indexed (isSome_key_of_isSome_owner hst))
      · cases hk

/-! ## Runs -/

/-- The first request about each task stores it, unless the task has a state already. -/
def Starts (past requests : List Request) : Prop :=
  ∀ owner r, requests.find? (·.owner = owner) = some r → Allowed past r

theorem Starts.head (h : Starts past (r :: requests)) : Allowed past r :=
  h r.owner r (by simp)

theorem Starts.tail (h : Starts past (r :: requests)) : Starts (past ++ [r]) requests := by
  intro owner next hnext
  have hallowed := h.head
  have hnext_owner : next.owner = owner := by simpa using find?_some hnext
  rw [Allowed, after_snoc]
  by_cases howner : r.owner = owner
  · right
    rw [hnext_owner, ← howner, update_self]
    rcases hallowed with hset | hst
    · cases r with
      | set q => rfl
      | update u => cases hset
    · cases r with
      | set q => rfl
      | update u => simpa [Request.apply] using hst
  · have hlater := h owner next (by simpa [howner] using hnext)
    rwa [update_of_ne (by rw [hnext_owner]; exact Ne.symm howner)]

def Distinct (requests : List Request) : Prop := ∀ r ∈ requests, ¬ Indexed requests r.key

theorem Distinct.not_refused (h : Distinct (past ++ r :: requests)) : ¬ Refused past r := by
  rintro (⟨lister, hlister, hidx⟩ | ⟨k, hidx, hst⟩)
  · exact h r (by simp) ⟨lister, mem_append_left _ hlister, hidx⟩
  · obtain ⟨other, hother, hkey, -⟩ := after_isSome_iff.mp hst
    exact h other (mem_append_left _ hother) ⟨r, by simp, by rw [hidx, hkey]⟩

theorem Keeps.run (h : Keeps s past) (hproper : ∀ r ∈ requests, r.Proper)
    (hstarts : Starts past requests) (hdist : Distinct (past ++ requests)) :
    ∃ answers s', requests.mapM Request.run s = .ok answers s' ∧ ∀ a ∈ answers, Succeeded a := by
  induction requests generalizing s past with
  | nil => exact ⟨[], s, rfl, by simp⟩
  | cons r requests ih =>
    rw [forall_mem_cons] at hproper
    obtain ⟨answer, s1, hrun, hsucc, hkeeps⟩ :=
      h.step hproper.1 hstarts.head hdist.not_refused
    rw [append_cons] at hdist
    obtain ⟨answers, s', hruns, hall⟩ := ih hkeeps hproper.2 hstarts.tail hdist
    refine ⟨answer :: answers, s', ?_, forall_mem_cons.mpr ⟨hsucc, hall⟩⟩
    rw [mapM_cons]
    exact (bind_of_ok hrun).trans (bind_of_ok hruns)

theorem kept_of_run {kept : State → List Request → Prop} {kind : Request → Prop}
    {answers : List Value} (hkeeps : ∀ {s past}, kept s past → Keeps s past)
    (hstep : ∀ {s past r}, kept s past → kind r → Allowed past r → ¬ Refused past r →
      Carries kept s past r)
    (h : kept s past) (hkind : ∀ r ∈ requests, kind r) (hstarts : Starts past requests)
    (hrun : requests.mapM Request.run s = .ok answers s') (hall : ∀ a ∈ answers, Succeeded a) :
    kept s' (past ++ requests) := by
  -- The past grows with the run, so it is generalised together with the state.
  induction requests generalizing s past answers with
  | nil =>
    cases hrun
    rwa [append_nil]
  | cons r requests ih =>
    obtain ⟨answer, answers, s1, hfst, hrest, rfl⟩ := mapM_cons_eq_ok hrun
    rw [forall_mem_cons] at hkind hall
    -- the answer to a refused req would not be among those that report success
    by_cases hrej : Refused past r
    · obtain ⟨failure, s2, hfst', hfail⟩ := (hkeeps h).step_refused hstarts.head hrej
      cases hfst.symm.trans hfst'
      exact absurd hall.1 hfail
    · obtain ⟨success, s2, hfst', -, hkept⟩ := hstep h hkind.1 hstarts.head hrej
      cases hfst.symm.trans hfst'
      rw [append_cons]
      exact ih hkept hkind.2 hstarts.tail hrest hall.2

/-! ## Reading -/

theorem Keeps.outcome_findDocument (h : Keeps s past) (task taskId : String) :
    ((findDocument (.text taskId) (.text task)).outcome s).1 =
      .ok ((folded (past.filter (·.owner = (task, taskId)))).map ApiResponse.toValue) := by
  rw [outcome_of_ok (findDocument_calm h.calm h.documents task taskId)]
  rfl

theorem Keeps.outcome_find (h : Keeps s past) (task taskId : String) :
    ((find (.text taskId) (.text task)).outcome s).1 =
      if Indexed past (keyOf task taskId) then .error wrongType
      else .ok ((folded (past.filter (·.key = keyOf task taskId))).map ApiResponse.toValue) := by
  by_cases hidx : Indexed past (keyOf task taskId)
  · obtain ⟨members, hmems⟩ := h.cached.lists _ hidx
    rw [if_pos hidx, outcome_of_error (find_of_listed h.calm hmems)]
  · rw [if_neg hidx]
    cases hst : after Request.key past (keyOf task taskId) with
    | none =>
      rw [outcome_of_ok (find_of_none h.calm (h.cached.others _ hst hidx))]
      rw [after] at hst
      rw [hst]
      rfl
    | some m =>
      rw [outcome_of_ok (find_of_hashed h.calm (h.proper_after hst)
        (h.cached.hashes _ m hst))]
      rw [after] at hst
      rw [hst]
      rfl

/-- No request about another task has the key of the task, neither for its hash nor for its set. -/
def OwnKey (requests : List Request) (task taskId : String) : Prop :=
  ¬ Indexed requests (keyOf task taskId) ∧
    ∀ r ∈ requests, r.key = keyOf task taskId → r.owner = (task, taskId)

/-- Keys do not meet where the kinds of the tasks have no colon. -/
theorem ownKey_of_plain (hplain : ∀ r ∈ requests, ':' ∉ r.owner.1.toList) {task : String}
    (htask : ':' ∉ task.toList) (taskId : String) : OwnKey requests task taskId := by
  refine ⟨?_, fun r hr hkey => ?_⟩
  · rintro ⟨r, hr, hidx⟩
    cases r with
    | set q => exact keyOf_ne_indexOf_of_plain htask (hplain _ hr) (some.inj hidx).symm
    | update u => cases hidx
  · obtain ⟨hkind, hid⟩ := keyOf_inj (hplain r hr) htask hkey
    exact Prod.ext hkind hid

/-- From empty stores, and with no outage, a run of requests that starts every task by storing it is
carried out if and only if no key is wanted both for a task and for a set. The document of a task
then shows the fold of the requests about the task, and the cache gives the fold of all requests
that share its key, so that the two agree for every task with a key of its own. All tasks have one
if the kinds have no colon. -/
theorem stores_agree_on_own_keys (s : State) (hs : s.Calm) (hcache : s.cache = [])
    (hdocs : s.documents collection = []) (requests : List Request)
    (hproper : ∀ r ∈ requests, r.Proper)
    (hfirst : ∀ owner r, requests.find? (·.owner = owner) = some r → r.IsSet) :
    ((∃ answers s', requests.mapM Request.run s = .ok answers s' ∧ ∀ a ∈ answers, Succeeded a) ↔
      ∀ r ∈ requests, ¬ Indexed requests r.key) ∧
    (∀ answers s', requests.mapM Request.run s = .ok answers s' → (∀ a ∈ answers, Succeeded a) →
      ∀ task taskId,
        ((findDocument (.text taskId) (.text task)).outcome s').1 =
          .ok ((folded (requests.filter (·.owner = (task, taskId)))).map ApiResponse.toValue) ∧
        ((find (.text taskId) (.text task)).outcome s').1 =
          (if Indexed requests (keyOf task taskId) then .error wrongType
          else .ok ((folded (requests.filter (·.key = keyOf task taskId))).map
            ApiResponse.toValue)) ∧
        (OwnKey requests task taskId →
          ((find (.text taskId) (.text task)).outcome s').1 =
            ((findDocument (.text taskId) (.text task)).outcome s').1)) ∧
    ((∀ r ∈ requests, ':' ∉ r.owner.1.toList) → (∀ r ∈ requests, ¬ Indexed requests r.key) ∧
      ∀ task taskId, ':' ∉ task.toList → OwnKey requests task taskId) := by
  have hstart := Fresh.keeps ⟨hs, hcache, hdocs⟩
  have hstarts : Starts [] requests := fun owner r hr => .inl (hfirst owner r hr)
  have hkeeps : ∀ answers s', requests.mapM Request.run s = .ok answers s' →
      (∀ a ∈ answers, Succeeded a) → Keeps s' requests := fun answers s' hrun hall =>
    kept_of_run id Keeps.step hstart hproper hstarts hrun hall
  refine ⟨⟨?_, hstart.run hproper hstarts⟩, ?_, fun hplain => ⟨fun r hr => ?_, ?_⟩⟩
  · -- a task that was stored holds its key, so no set can have been kept under it
    rintro ⟨answers, s', hrun, hall⟩ r hr
    obtain ⟨first, hfind⟩ : ∃ first, requests.find? (·.owner = r.owner) = some first :=
      Option.isSome_iff_exists.mp (find?_isSome.mpr ⟨r, hr, by simp⟩)
    have howner : first.owner = r.owner := by simpa using find?_some hfind
    refine (hkeeps answers s' hrun hall).cached.not_indexed (isSome_key_of_isSome_owner ?_)
    exact after_isSome_iff.mpr
      ⟨first, mem_of_find?_eq_some hfind, howner, hfirst _ _ hfind⟩
  · intro answers s' hrun hall task taskId
    have hkept := hkeeps answers s' hrun hall
    refine ⟨hkept.outcome_findDocument task taskId, hkept.outcome_find task taskId, ?_⟩
    rintro ⟨hindexed, hown⟩
    have hsame : requests.filter (·.key = keyOf task taskId) =
        requests.filter (·.owner = (task, taskId)) := by
      refine filter_congr fun r hr => ?_
      rw [decide_eq_decide]
      refine ⟨hown r hr, fun howner => ?_⟩
      rw [Request.key, howner]
    rw [hkept.outcome_findDocument, hkept.outcome_find, if_neg hindexed, hsame]
  · exact (ownKey_of_plain hplain (hplain r hr) r.owner.2).1
  · exact fun task taskId htask => ownKey_of_plain hplain htask taskId

def waiting (code : Int) (message part : String) : ApiResponse where
  status := "accepted"
  code := code
  message := message
  data := [("part", part)]

def finished (code : Int) (message part : String) : ApiResponse where
  status := "completed"
  code := code
  message := message
  data := [("part", part), ("rows", "3")]

def finishFirst : UpdateTaskRequest where
  taskId := "b:task:c"
  task := "a"
  field := "status"
  value := "completed"
  data := [("rows", "3")]

def joinedRequests : List Request :=
  [.set { taskId := "b:task:c", task := "a", value := some (waiting 200 "first" "1") },
    .set { taskId := "c", task := "a:task:b", value := some (waiting 201 "second" "2") },
    .update finishFirst]

theorem stores_agree_on_own_keys_joined :
    ∃ answers s', joinedRequests.mapM Request.run {} = .ok answers s' ∧
      (∀ a ∈ answers, Succeeded a) ∧
      ((findDocument (.text "b:task:c") (.text "a")).outcome s').1 =
        .ok (some (finished 200 "first" "1").toValue) ∧
      ((find (.text "b:task:c") (.text "a")).outcome s').1 =
        .ok (some (finished 201 "second" "2").toValue) := by
  have hproper : ∀ r ∈ joinedRequests, r.Proper := by
    simp only [joinedRequests, forall_mem_cons]
    refine ⟨⟨?_, ?_⟩, ⟨?_, ?_⟩, ⟨.inl rfl, ?_⟩, by simp⟩ <;>
      simp [IsInt32, waiting, finishFirst]
  have hfirst : ∀ owner r, joinedRequests.find? (·.owner = owner) = some r → r.IsSet := by
    intro owner r hr
    by_cases hone : ("a", "b:task:c") = owner
    · simp only [joinedRequests, find?_cons, Request.owner, hone, decide_true] at hr
      cases hr
      trivial
    · by_cases htwo : ("a:task:b", "c") = owner
      · simp only [joinedRequests, find?_cons, Request.owner, hone, htwo, decide_true,
          decide_false] at hr
        cases hr
        trivial
      · simp only [joinedRequests, find?_cons, Request.owner, finishFirst, hone, htwo,
          decide_false, find?_nil] at hr
        cases hr
  have hdistinct : ∀ r ∈ joinedRequests, ¬ Indexed joinedRequests r.key := by
    decide
  obtain ⟨hruns, hreads, -⟩ :=
    stores_agree_on_own_keys {} rfl rfl rfl joinedRequests hproper hfirst
  obtain ⟨answers, s', hrun, hall⟩ := hruns.mpr hdistinct
  obtain ⟨hdocument, hcached, -⟩ := hreads answers s' hrun hall "a" "b:task:c"
  refine ⟨answers, s', hrun, hall, hdocument, hcached.trans ?_⟩
  rw [if_neg (by decide)]
  rfl

end SheetMill.Database.Tasks
