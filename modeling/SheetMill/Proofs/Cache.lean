import SheetMill.Proofs.Json
import SheetMill.Proofs.Work

/-!
# What the cache holds under its keys

The calls that store fields of a hash or add a member to a set change what is held under one key and
nothing else, and they are refused where the key holds a content of another kind.
-/

namespace SheetMill.Database.Cache

open Act Value Function List

variable {cache : Cache} {s : State} {k : String} {kind : String} {content : Value}
  {members : List Value} {old : List (String × String)} {change : Value → Outcome Value}
  {empty : Value} {e : Entry}

def held (cache : Cache) (k : String) : Option (Value × Value) :=
  (List.find? (·.key.sameScalar (.text k)) cache).map fun e => (e.kind, e.content)

def entryAt (cache : Cache) (k : String) : Option Entry :=
  List.find? (·.key.sameScalar (.text k)) cache

theorem held_eq (cache : Cache) (k : String) :
    held cache k = (entryAt cache k).map fun e => (e.kind, e.content) := rfl

theorem entryAt_put (k : String) (kind content ttl : Value) (cache : Cache) :
    entryAt (put ⟨.text k, kind, content, ttl⟩ cache) =
      update (entryAt cache) k (some ⟨.text k, kind, content, ttl⟩) := by
  funext k'
  rw [update_apply]
  induction cache with
  | nil =>
    by_cases h : k' = k
    · simp [put, entryAt, h]
    · simp [put, entryAt, h, beq_eq_false_iff_ne.mpr (Ne.symm h)]
  | cons e rest ih =>
    by_cases hk : e.key = .text k
    · by_cases h : k' = k
      · simp [put, entryAt, hk, h]
      · simp [put, entryAt, hk, h, beq_eq_false_iff_ne.mpr (Ne.symm h)]
    · have hne : e.key.sameScalar (.text k) = false :=
        Bool.eq_false_iff.mpr (mt sameScalar_text_right.mp hk)
      rw [put, hne]
      cases h' : e.key.sameScalar (.text k') with
      | false => simpa [entryAt, h'] using ih
      | true =>
        have hkey : e.key = .text k' := sameScalar_text_right.mp h'
        have h : k' ≠ k := fun heq => hk (by rw [hkey, heq])
        simp [entryAt, h', h]

theorem held_of_entryAt {cache' : Cache}
    (h : entryAt cache' = update (entryAt cache) k (some e)) :
    held cache' = update (held cache) k (some (e.kind, e.content)) := by
  funext k'
  rw [held_eq, h]
  by_cases hk : k' = k
  · subst hk
    rw [update_self, update_self]
    rfl
  · rw [update_of_ne hk, update_of_ne hk, held_eq]

theorem held_put (k : String) (kind content ttl : Value) (cache : Cache) :
    held (put ⟨.text k, kind, content, ttl⟩ cache) =
      update (held cache) k (some (kind, content)) :=
  held_of_entryAt (entryAt_put k kind content ttl cache)

theorem key_of_entryAt (h : entryAt cache k = some e) : e.key = .text k := by
  have hsame : e.key.sameScalar (.text k) = true := by simpa using List.find?_some h
  exact sameScalar_text_right.mp hsame

theorem find?_expire (cache : Cache) (k : String) (key ttl : Value) :
    entryAt (expire cache key ttl) k =
      (entryAt cache k).map fun e => if e.key.sameScalar key then { e with ttl } else e := by
  unfold entryAt expire
  rw [List.find?_map]
  congr 2
  funext e
  by_cases h : e.key.sameScalar key <;> simp [h]

theorem entryAt_expire (cache : Cache) (k : String) (ttl : Value) :
    entryAt (expire cache (.text k) ttl) =
      update (entryAt cache) k ((entryAt cache k).map fun e => { e with ttl }) := by
  funext k'
  rw [find?_expire]
  by_cases h : k' = k
  · subst h
    rw [update_self]
    refine Option.map_congr fun e he => ?_
    rw [key_of_entryAt he]
    simp
  · rw [update_of_ne h]
    refine (Option.map_congr fun e he => ?_).trans Option.map_id'
    rw [key_of_entryAt he]
    simp [h]

theorem held_expire (cache : Cache) (key ttl : Value) :
    held (expire cache key ttl) = held cache := by
  funext k
  rw [held_eq, find?_expire, Option.map_map]
  congr 1
  funext e
  by_cases h : e.key.sameScalar key <;> simp [h]

/-! ## Contents of a kind -/

def contentIn (kind : String) : Option (Value × Value) → Outcome (Option Value)
  | none => .ok none
  | some (k, content) => if k.same (.text kind) then .ok (some content) else .error wrongType

theorem contentOf_eq (cache : Cache) (kind k : String) :
    cache.contentOf kind (.text k) = contentIn kind (held cache k) := by
  unfold contentOf held find?
  cases List.find? (·.key.sameScalar (.text k)) cache <;> rfl

theorem contentOf_of_none (h : held cache k = none) (kind : String) :
    cache.contentOf kind (.text k) = .ok none := by
  rw [contentOf_eq, h]
  rfl

theorem contentOf_of_held (h : held cache k = some (.text kind, content)) :
    cache.contentOf kind (.text k) = .ok (some content) := by
  simp [contentOf_eq, h, contentIn]

theorem contentOf_of_other {other : String} (h : held cache k = some (.text other, content))
    (hne : other ≠ kind) : cache.contentOf kind (.text k) = .error wrongType := by
  simp [contentOf_eq, h, contentIn, hne]

/-- The key holds a content of the kind, or nothing, which counts as the empty content. -/
def HoldsOr (cache : Cache) (k kind : String) (empty content : Value) : Prop :=
  held cache k = some (.text kind, content) ∨ held cache k = none ∧ content = empty

theorem held_of_free (h : entryAt cache k = none) : held cache k = none := by
  rw [held_eq, h]
  rfl

theorem holdsOr_free (h : entryAt cache k = none) :
    HoldsOr cache k kind empty empty := .inr ⟨held_of_free h, rfl⟩

def ttlAt (cache : Cache) (k : String) : Value := ((entryAt cache k).map (·.ttl)).getD .null

/-- What becomes of what is held under a key. -/
def altered (kind : String) (empty : Value) (change : Value → Outcome Value)
    (found : Option (Value × Value)) : Outcome Value := do
  change ((← contentIn kind found).getD empty)

/-- A content that is changed keeps its time to live. -/
theorem alter_eq (cache : Cache) (kind : String) (empty : Value) (change : Value → Outcome Value)
    (k : String) : cache.alter kind empty change (.text k) = (do
      let new ← altered kind empty change (held cache k)
      return put ⟨.text k, .text kind, new, ttlAt cache k⟩ cache) := by
  rw [alter, contentOf_eq, altered, bind_assoc]
  rfl

theorem altered_eq_ok {new : Value} :
    altered kind empty change (held cache k) = .ok new ↔
      ∃ content, HoldsOr cache k kind empty content ∧ change content = .ok new := by
  unfold altered HoldsOr
  rcases hheld : held cache k with - | ⟨v, content⟩
  · simp [contentIn]
  · by_cases hkind : v = .text kind
    · simp [contentIn, hkind]
    · simp [contentIn, hkind, mt same_text_right.mp hkind]

theorem alter_of_holdsOr {new : Value} (h : HoldsOr cache k kind empty content)
    (hchg : change content = .ok new) :
    ∃ cache', cache.alter kind empty change (.text k) = .ok cache' ∧
      entryAt cache' = update (entryAt cache) k
        (some ⟨.text k, .text kind, new, ttlAt cache k⟩) := by
  rw [alter_eq, altered_eq_ok.mpr ⟨content, h, hchg⟩]
  exact ⟨_, rfl, entryAt_put k _ _ _ cache⟩

theorem alter_of_other {other : String} (h : held cache k = some (.text other, content))
    (hne : other ≠ kind) : cache.alter kind empty change (.text k) = .error wrongType := by
  simp [alter, contentOf_of_other h hne]

/-- A hash under a key, or none, which counts as a hash without fields. -/
abbrev HashOr (cache : Cache) (k : String) (old : List (String × String)) : Prop :=
  HoldsOr cache k hashKind (.map []) (.map (old.map textEntry))

abbrev ListOr (cache : Cache) (k : String) (members : List Value) : Prop :=
  HoldsOr cache k setKind (.list []) (.list members)

def hashEntry (k : String) (fs : List (String × String)) (ttl : Value) : Entry :=
  ⟨.text k, .text hashKind, .map (fs.map textEntry), ttl⟩

def listEntry (k : String) (members : List Value) (ttl : Value) : Entry :=
  ⟨.text k, .text setKind, .list members, ttl⟩

theorem setFields_of_hashOr (h : HashOr cache k old) (fs : List (String × String)) :
    ∃ cache', cache.setFields (.text k) (fs.map textEntry) = .ok cache' ∧
      entryAt cache' = update (entryAt cache) k
        (some (hashEntry k (merged old fs) (ttlAt cache k))) := by
  unfold hashEntry
  rw [← foldl_setEntry_named]
  exact alter_of_holdsOr h rfl

/-- The members with one more, unless it is there. -/
def withMember (members : List Value) (member : Value) : List Value :=
  if members.any member.same then members else members ++ [member]

theorem addMember_of_holdsOr (h : ListOr cache k members)
    (member : Value) :
    ∃ cache', cache.addMember (.text k) member = .ok cache' ∧
      entryAt cache' = update (entryAt cache) k
        (some (listEntry k (withMember members member) (ttlAt cache k))) :=
  alter_of_holdsOr h rfl

/-! ## Entries -/

def Tidy (e : Entry) : Prop :=
  (∃ k fs ttl, e = hashEntry k fs ttl) ∨ ∃ k members ttl, e = listEntry k members ttl

def Stocked (p : Entry → Prop) (cache : Cache) : Prop := ∀ k e, entryAt cache k = some e → p e

theorem Stocked.update {p : Entry → Prop} {cache' : Cache} {e : Entry} (h : Stocked p cache)
    (hent : entryAt cache' = update (entryAt cache) k (some e)) (he : p e) :
    Stocked p cache' := by
  intro k' e' he'
  rw [hent] at he'
  by_cases hk : k' = k
  · subst hk
    rw [update_self] at he'
    cases he'
    exact he
  · rw [update_of_ne hk] at he'
    exact h k' e' he'

theorem Stocked.cases (h : Stocked Tidy cache) (k : String) :
    (entryAt cache k = none ∨ ∃ fs ttl, entryAt cache k = some (hashEntry k fs ttl)) ∨
      ∃ members ttl, entryAt cache k = some (listEntry k members ttl) := by
  cases hent : entryAt cache k with
  | none => exact .inl (.inl rfl)
  | some e =>
    have hkey := key_of_entryAt hent
    rcases h k e hent with ⟨k', fs, ttl, rfl⟩ | ⟨k', members, ttl, rfl⟩
    · cases hkey
      exact .inl (.inr ⟨fs, ttl, rfl⟩)
    · cases hkey
      exact .inr ⟨members, ttl, rfl⟩

theorem held_of_hashEntry {fs : List (String × String)} {ttl : Value}
    (h : entryAt cache k = some (hashEntry k fs ttl)) :
    held cache k = some (.text hashKind, .map (fs.map textEntry)) := by
  rw [held_eq, h]
  rfl

theorem held_of_listEntry {ttl : Value} (h : entryAt cache k = some (listEntry k members ttl)) :
    held cache k = some (.text setKind, .list members) := by
  rw [held_eq, h]
  rfl

theorem Stocked.hash_or_list (h : Stocked Tidy cache) (k : String) :
    (∃ old, HashOr cache k old) ∨ ∃ members, held cache k = some (.text setKind, .list members) := by
  rcases h.cases k with (hnone | ⟨fs, ttl, hhash⟩) | ⟨members, ttl, hlist⟩
  · exact .inl ⟨[], holdsOr_free hnone⟩
  · exact .inl ⟨fs, .inl (held_of_hashEntry hhash)⟩
  · exact .inr ⟨members, held_of_listEntry hlist⟩

/-! ## Calls on a calm state -/

/-- The work leaves an entry under a key and changes nothing else. -/
def Leaves (s : State) (k : String) (e : Entry) (work : Work Unit) : Prop :=
  ∃ cache', work s = .ok () { s with cache := cache' } ∧
    entryAt cache' = update (entryAt s.cache) k (some e)

/-- Fields that are texts are stored as they are. -/
theorem storeFields_eq (hs : s.Calm) (key : Value) (fs : List (String × String)) :
    storeFields key (fs.map textEntry) s =
      (do write (← (← get).cache.setFields key (fs.map textEntry)) : Work Unit) s := by
  refine (bind_of_ok (announce_calm hs _ _)).trans ?_
  refine (bind_of_ok (forIn_of_idle ?_)).trans ?_
  · intro entry hent
    obtain ⟨field, -, rfl⟩ := mem_map.mp hent
    rfl
  · rw [bind_of_ok (mapM_of_idle ?_), map_id]
    intro entry hent
    obtain ⟨field, -, rfl⟩ := mem_map.mp hent
    rfl

theorem storeFields_writes (hs : s.Calm) (h : HashOr s.cache k old)
    (fs : List (String × String)) :
    Leaves s k (hashEntry k (merged old fs) (ttlAt s.cache k))
      (storeFields (.text k) (fs.map textEntry)) := by
  obtain ⟨cache', hset, hent⟩ := setFields_of_hashOr h fs
  refine ⟨cache', ?_, hent⟩
  rw [storeFields_eq hs]
  exact bind_known hset

theorem storeFields_calm (hs : s.Calm) (h : HashOr s.cache k old)
    (fs : List (String × String)) :
    ∃ cache', storeFields (.text k) (fs.map textEntry) s = .ok () { s with cache := cache' } ∧
      held cache' = update (held s.cache) k
        (some (.text hashKind, .map ((merged old fs).map textEntry))) := by
  obtain ⟨cache', hrun, hent⟩ := storeFields_writes hs h fs
  exact ⟨cache', hrun, held_of_entryAt hent⟩

theorem storeFields_refused (hs : s.Calm) (h : held s.cache k = some (.text setKind, content))
    (fs : List (String × String)) :
    storeFields (.text k) (fs.map textEntry) s = .error wrongType s := by
  rw [storeFields_eq hs, bind_of_ok (get_run s)]
  exact bind_of_error (lift_of_error (alter_of_other h (by decide)) s)

/-- The set is there before its member is looked at. -/
theorem insertMember_eq (hs : s.Calm) (h : ListOr s.cache k members) :
    ∃ cache', entryAt cache' = update (entryAt s.cache) k
        (some (listEntry k members (ttlAt s.cache k))) ∧
      ∀ member, insertMember (.text k) member s = (do
        let t ← (stored member : Outcome Value)
        write (← (← get).cache.addMember (.text k) t) : Work Unit) { s with cache := cache' } := by
  obtain ⟨cache', halter, hent⟩ : ∃ cache', s.cache.alter setKind (.list []) .ok (.text k) =
      .ok cache' ∧ entryAt cache' = update (entryAt s.cache) k
        (some (listEntry k members (ttlAt s.cache k))) :=
    alter_of_holdsOr h rfl
  refine ⟨cache', hent, fun member => ?_⟩
  refine (announce_get hs _ _ _).trans ?_
  exact bind_known halter

theorem insertMember_stored {member t : Value} (hs : s.Calm) (h : ListOr s.cache k members)
    (ht : stored member = .ok t) :
    Leaves s k (listEntry k (withMember members t) (ttlAt s.cache k))
      (insertMember (.text k) member) := by
  obtain ⟨cache1, hentry1, hrun⟩ := insertMember_eq hs h
  have h1 : ListOr cache1 k members := by
    left
    rw [held_of_entryAt hentry1, update_self]
    rfl
  have httl1 : ttlAt cache1 k = ttlAt s.cache k := by
    rw [ttlAt, hentry1, update_self]
    rfl
  obtain ⟨cache2, hadd, hentry2⟩ := addMember_of_holdsOr h1 t
  refine ⟨cache2, ?_, by rw [hentry2, hentry1, httl1, update_idem]⟩
  rw [hrun]
  refine (bind_known ht).trans ?_
  exact bind_known hadd

theorem insertMember_refused (hs : s.Calm) (h : held s.cache k = some (.text kind, content))
    (hne : kind ≠ setKind) (member : Value) :
    insertMember (.text k) member s = .error wrongType s := by
  refine (announce_get hs _ _ _).trans ?_
  exact bind_of_error (lift_of_error (alter_of_other h hne) s)

theorem setTtl_writes (hs : s.Calm) (h : entryAt s.cache k = some e) (ttl : Value) :
    Leaves s k { e with ttl } (setTtl (.text k) ttl) := by
  refine ⟨s.cache.expire (.text k) ttl, ?_, ?_⟩
  · exact (bind_of_ok (announce_calm hs _ _)).trans rfl
  · rw [entryAt_expire, h]
    rfl

theorem readFields_eq (hs : s.Calm) (key : Value) :
    readFields key s = (liftM (s.cache.fields key) : Work (List (Value × Value))) s :=
  announce_get hs _ _ _

theorem readFields_calm (hs : s.Calm) (h : HashOr s.cache k old) :
    readFields (.text k) s = .ok (old.map textEntry) s := by
  rw [readFields_eq hs, fields]
  rcases h with h | ⟨h, hold⟩
  · rw [contentOf_of_held h]
    rfl
  · rw [contentOf_of_none h, Value.map.inj hold]
    rfl

theorem readFields_refused (hs : s.Calm) (h : held s.cache k = some (.text kind, content))
    (hne : kind ≠ hashKind) : readFields (.text k) s = .error wrongType s := by
  rw [readFields_eq hs, fields, contentOf_of_other h hne]
  rfl

theorem readMembers_eq (hs : s.Calm) (key : Value) :
    readMembers key s = (liftM (s.cache.members key) : Work (List Value)) s :=
  announce_get hs _ _ _

theorem readMembers_calm (hs : s.Calm) (h : ListOr s.cache k members) :
    readMembers (.text k) s = .ok members s := by
  rw [readMembers_eq hs, Cache.members]
  rcases h with h | ⟨h, hnil⟩
  · rw [contentOf_of_held h]
    rfl
  · rw [contentOf_of_none h, Value.list.inj hnil]
    rfl

theorem readMembers_refused (hs : s.Calm) (h : held s.cache k = some (.text hashKind, content)) :
    readMembers (.text k) s = .error wrongType s := by
  rw [readMembers_eq hs, Cache.members, contentOf_of_other h (by decide)]
  rfl

/-! ## Values that may not be stored -/

theorem stored_eq_ok {v w : Value} (h : stored v = .ok w) : ∃ t, w = .text t := by
  unfold stored at h
  split at h
  · exact ⟨_, (Except.ok.inj h).symm⟩
  · exact ⟨_, (Except.ok.inj h).symm⟩
  · exact ⟨_, (Except.ok.inj h).symm⟩
  · cases h

def StoredAs (field : String × Value) (text : String × String) : Prop :=
  text.1 = field.1 ∧ stored field.2 = .ok (.text text.2)

theorem storeFields_cases (hs : s.Calm) (k : String) (fs : List (String × Value)) :
    (∃ f, storeFields (.text k) (fs.map (named id)) s = .error f s) ∨
      ∃ texts, Forall₂ StoredAs fs texts ∧
        storeFields (.text k) (fs.map (named id)) s =
          storeFields (.text k) (texts.map textEntry) s := by
  let each : Value × Value → Outcome (Value × Value) := fun e => do return (e.1, ← stored e.2)
  have hrun : storeFields (.text k) (fs.map (named id)) s = (do
      let texts ← (liftM ((fs.map (named id)).mapM each) : Work _)
      write (← (← get).cache.setFields (.text k) texts) : Work Unit) s := by
    refine (bind_of_ok (announce_calm hs _ _)).trans ?_
    refine (bind_of_ok (forIn_of_idle ?_)).trans ?_
    · intro entry hent
      obtain ⟨field, -, rfl⟩ := mem_map.mp hent
      rfl
    · rw [← mapM_of_lift (fun e => ?_)]
      cases h : stored e.2 <;> simp only [each, h] <;> rfl
  cases htexts : (fs.map (named id)).mapM each with
  | error f =>
    rw [htexts] at hrun
    exact .inl ⟨f, hrun⟩
  | ok es =>
    right
    rw [htexts] at hrun
    rw [Outcome.mapM_eq_ok, forall₂_map_left_iff] at htexts
    obtain ⟨texts, rfl, hall⟩ : ∃ texts, es = texts.map textEntry ∧
        Forall₂ StoredAs fs texts := by
      clear hrun
      induction htexts with
      | nil => exact ⟨[], rfl, .nil⟩
      | cons hfst _ ih =>
        obtain ⟨w, hw, hent⟩ := Outcome.bind_eq_ok.mp hfst
        obtain ⟨t, rfl⟩ := stored_eq_ok hw
        obtain ⟨texts, rfl, hall⟩ := ih
        cases hent
        exact ⟨(_, t) :: texts, rfl, .cons ⟨rfl, hw⟩ hall⟩
    exact ⟨texts, hall, hrun.trans (storeFields_eq hs _ texts).symm⟩

/-- A set is there after a member was added, whether the member could be stored or not. -/
theorem insertMember_cases (hs : s.Calm) (h : ListOr s.cache k members) (member : Value) :
    ∃ cache' members', entryAt cache' = update (entryAt s.cache) k
        (some (listEntry k members' (ttlAt s.cache k))) ∧
      (insertMember (.text k) member s = .ok () { s with cache := cache' } ∨
        ∃ f, insertMember (.text k) member s = .error f { s with cache := cache' }) := by
  cases hstored : stored member with
  | ok t =>
    obtain ⟨cache', hrun, hent⟩ := insertMember_stored hs h hstored
    exact ⟨cache', _, hent, .inl hrun⟩
  | error f =>
    obtain ⟨cache', hent, hrun⟩ := insertMember_eq hs h
    refine ⟨cache', members, hent, .inr ⟨f, ?_⟩⟩
    rw [hrun]
    exact bind_of_error (lift_of_error hstored _)

end SheetMill.Database.Cache
