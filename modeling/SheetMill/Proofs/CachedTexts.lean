import SheetMill.Proofs.Cache
import SheetMill.Proofs.Messages
import SheetMill.Proofs.ServiceCalls

/-!
# Calls about texts in the cache

While no outage is planned and the cache holds nothing but texts, the calls that get, set, find and
remove them succeed and do what they say.
-/

namespace SheetMill.Database.Service

open Act Message Value List

variable {α : Type} {cache : Cache} {s : State} {pols : Policies} {peer : String}

/-! ## Texts in the cache -/

abbrev textEntry (key content : String) (ttl : Value) : Entry :=
  ⟨.text key, .text Cache.textKind, .text content, ttl⟩

def HoldsTexts (cache : Cache) : Prop := ∀ e ∈ cache, ∃ key content ttl, e = textEntry key content ttl

def textAt (cache : Cache) (key : String) : Option String :=
  (Cache.entryAt cache key).bind fun e =>
    match e.content with
    | .text content => some content
    | _ => none

theorem HoldsTexts.entryAt (h : HoldsTexts cache) (key : String) :
    Cache.entryAt cache key = none ∧ textAt cache key = none ∨ ∃ content ttl,
      Cache.entryAt cache key = some (textEntry key content ttl) ∧
      textAt cache key = some content := by
  unfold textAt
  cases hent : Cache.entryAt cache key with
  | none => exact .inl ⟨rfl, rfl⟩
  | some e =>
    obtain ⟨k, content, ttl, rfl⟩ := h e (mem_of_find?_eq_some hent)
    cases Cache.key_of_entryAt hent
    exact .inr ⟨content, ttl, rfl, rfl⟩

theorem HoldsTexts.put (h : HoldsTexts cache) (key content : String) (ttl : Value) :
    HoldsTexts (Cache.put (textEntry key content ttl) cache) := by
  induction cache with
  | nil =>
    intro e he
    exact ⟨key, content, ttl, mem_singleton.mp he⟩
  | cons e rest ih =>
    unfold HoldsTexts at h
    rw [forall_mem_cons] at h
    obtain ⟨k, c, ttl', rfl⟩ := h.1
    unfold Cache.put
    split
    · exact forall_mem_cons.mpr ⟨⟨k, content, ttl, rfl⟩, h.2⟩
    · exact forall_mem_cons.mpr ⟨⟨k, c, ttl', rfl⟩, ih h.2⟩

theorem textAt_put (key content : String) (ttl : Value) (cache : Cache) :
    textAt (Cache.put (textEntry key content ttl) cache) =
      Function.update (textAt cache) key (some content) := by
  funext k
  unfold textAt
  rw [Cache.entryAt_put, Function.update_apply, Function.update_apply]
  split <;> rfl

def without (cache : Cache) (key : String) : Cache :=
  cache.filter fun e => !e.key.sameScalar (.text key)

theorem textAt_without (cache : Cache) (key : String) :
    textAt (without cache key) = Function.update (textAt cache) key none := by
  have hent : Cache.entryAt (without cache key) =
      Function.update (Cache.entryAt cache) key none := by
    funext k
    unfold Cache.entryAt without
    rw [Function.update_apply, find?_filter]
    split
    · rename_i hk
      subst hk
      simp
    · rename_i hk
      congr 1
      funext e
      cases h : e.key.sameScalar (.text k) with
      | false => simp
      | true =>
        rw [sameScalar_text_right.mp h]
        simpa using fun h => hk h
  funext k
  unfold textAt
  rw [hent, Function.update_apply, Function.update_apply]
  split <;> rfl

/-! ## Calls about texts -/

def Has (cache : Cache) (s : State) : Prop := s.Calm ∧ s.cache = cache

theorem lasting_has (cache : Cache) : Lasting (Has cache) where
  calm _ hs := hs.1
  of_stored _ _ h hs := ⟨calm_of_stored h hs.1, (congrArg State.cache h).trans hs.2⟩

theorem read_text (hs : Has cache s) (h : HoldsTexts cache) (key : String) :
    Cache.read (.text key) s = .ok (.ofText? (textAt cache key)) s := by
  unfold Cache.read
  rw [bind_of_ok (announce_calm hs.1 _ _), bind_of_ok (get_run s), hs.2]
  rcases h.entryAt key with ⟨hent, htext⟩ | ⟨content, ttl, hent, htext⟩
  · have hheld : Cache.held cache key = none := Cache.held_of_free hent
    rw [Cache.contentOf_of_none hheld, htext]
    rfl
  · have hheld : Cache.held cache key = some (.text Cache.textKind, .text content) := by
      rw [Cache.held_eq, hent]
      rfl
    rw [Cache.contentOf_of_held hheld, htext]
    rfl

/-- A call whose work ends well in the first attempt, and whose answer can be read. -/
theorem ends_answered {ρ : Type} {work : Work Value} {read : Value → Outcome ρ} {Q : ρ → Cache → Prop}
    {tag opening failure op : String} {closing : ρ → String} (hpols : TriesCache pols)
    (hs : Has cache s)
    (hwork : ∀ s0, Has cache s0 → work.Ends s0
      (fun v s' => s'.Calm ∧ ∃ r, read v = .ok r ∧ Q r s'.cache) fun _ _ => False) :
    (tell tag opening failure closing do read (← onCache pols op work)).Ends s
      (fun r s' => s'.Calm ∧ Q r s'.cache) fun _ _ => False := by
  refine ends_tell (Q := fun r s' => s'.Calm ∧ Q r s'.cache) (E := fun _ _ => False)
    (lasting_has cache) hs (fun s0 hs0 => ?_) _ _ _ _
  refine .bind ((ends_onCache (lasting_has cache) (fun s1 hs1 =>
    (hwork s1 hs1).mono_ok fun _ _ h => h) hs0).mono ?_ fun _ _ h => h.1.elim (· hpols) id)
  rintro v s' ⟨hcalm, r, hread, hQ⟩
  exact ends_lift (fun a ha => by cases hread.symm.trans ha; exact ⟨hcalm, hQ⟩)
    fun f hf => by cases hread.symm.trans hf

theorem ends_get_call (hpols : TriesCache pols) (hs : Has cache s) (h : HoldsTexts cache)
    (key : String) :
    (call pols peer "RedisGet" (.record [("key", .text key)])).Ends s
      (fun answer s' => answer = .record [("value", .ofText? (textAt cache key)),
        ("found", .bool (textAt cache key).isSome)] ∧ Has cache s')
      fun _ _ => False := by
  refine .known rfl (.bind ((ends_answered (Q := fun r c =>
    r = ⟨textAt cache key, (textAt cache key).isSome⟩ ∧ c = cache) hpols hs ?_).mono_ok ?_))
  · intro s0 hs0
    refine .known rfl (.bind (ends_of_ok (read_text hs0 h key) (ends_pure ?_)))
    refine ⟨hs0.1, ⟨textAt cache key, (textAt cache key).isSome⟩, ?_, rfl, hs0.2⟩
    cases textAt cache key <;> rfl
  · rintro _ s' ⟨hcalm, rfl, hcache⟩
    exact ends_pure ⟨rfl, hcalm, hcache⟩

theorem ends_set_call (hpols : TriesCache pols) (hs : Has cache s) (key content : String) :
    (call pols peer "RedisSet" (.record [("key", .text key), ("value", .text content),
        ("expiration", .null)])).Ends s
      (fun _ s' => ∃ ttl, Has (Cache.put (textEntry key content ttl) cache) s')
      fun _ _ => False := by
  refine .known rfl (.bind ((ends_answered (Q := fun _ c =>
    ∃ ttl, c = Cache.put (textEntry key content ttl) cache)
    hpols hs ?_).mono_ok ?_))
  · intro s0 hs0
    have hstore : ∀ ttl, (Cache.store (.text key) (.text content) ttl).Ends s0
        (fun _ s' => Has (Cache.put (textEntry key content ttl) cache) s')
        fun _ _ => False := by
      intro ttl
      refine .bind (ends_of_ok (announce_calm hs0.1 _ _) (.known rfl (.get ?_)))
      refine .known rfl (ends_modify ⟨hs0.1, ?_⟩)
      rw [← hs0.2]
    have hput : (Entries.put (.text key) (.text content) .null).Ends s0
        (fun _ s' => ∃ ttl, Has (Cache.put (textEntry key content ttl) cache) s') fun _ _ => False :=
      Ends.bind (ends_pure ((hstore _).mono_ok (fun _ _ h => ⟨_, h⟩)))
    refine .bind (.handle (.known rfl (.known rfl (.known rfl
      (.bind (hput.mono_ok (fun _ s' hs' => ends_pure ?_)))))))
    obtain ⟨ttl, hcalm, hcache⟩ := hs'
    exact ends_pure ⟨hcalm, true, rfl, ttl, hcache⟩
  · rintro _ s' ⟨hcalm, ttl, hcache⟩
    exact ends_pure ⟨ttl, hcalm, hcache⟩

theorem globMatches_self {pattern : List Char} (h : ∀ c ∈ pattern, c ∉ ['*', '?', '[', ']', '\\']) :
    Text.globMatches pattern pattern = true := by
  induction pattern with
  | nil => rfl
  | cons c cs ih =>
    rw [forall_mem_cons] at h
    have hstar : c ≠ '*' := fun hc => h.1 (by simp [hc])
    unfold Text.globMatches
    rw [if_neg hstar]
    simp [ih h.2]

theorem HoldsTexts.textAt_isSome (h : HoldsTexts cache) {key : String} :
    (textAt cache key).isSome = true ↔ .text key ∈ cache.map (·.key) := by
  rw [mem_map]
  constructor
  · intro hsome
    rcases h.entryAt key with ⟨-, hnone⟩ | ⟨content, ttl, hent, -⟩
    · rw [hnone] at hsome
      cases hsome
    · exact ⟨_, mem_of_find?_eq_some hent, rfl⟩
  · rintro ⟨e, he, hkey⟩
    rcases h.entryAt key with ⟨hnone, -⟩ | ⟨content, ttl, -, htext⟩
    · have hother := find?_eq_none.mp hnone e he
      rw [sameScalar_text_right] at hother
      exact absurd hkey hother
    · rw [htext]
      rfl

theorem HoldsTexts.exists_keys (h : HoldsTexts cache) :
    ∃ keys : List String, cache.map (·.key) = keys.map .text := by
  induction cache with
  | nil => exact ⟨[], rfl⟩
  | cons e rest ih =>
    unfold HoldsTexts at h
    rw [forall_mem_cons] at h
    obtain ⟨key, content, ttl, rfl⟩ := h.1
    obtain ⟨keys, hkeys⟩ := ih h.2
    exact ⟨key :: keys, by rw [map_cons, hkeys, map_cons]⟩

def isMatch (pattern : String) : Value → Bool
  | .text key => Text.matchesGlob pattern key
  | _ => false

theorem HoldsTexts.keys (h : HoldsTexts cache) (pattern : String) :
    ∃ keys : List String, cache.keys (.text pattern) = .ok (keys.map .text) ∧
      ∀ key, key ∈ keys ↔ (textAt cache key).isSome = true ∧ Text.matchesGlob pattern key = true := by
  obtain ⟨keys, hkeys⟩ := h.exists_keys
  refine ⟨keys.filter (Text.matchesGlob pattern), ?_, fun key => ?_⟩
  · unfold Cache.keys
    dsimp only
    rw [hkeys, Outcome.filterM_of_ok (p := isMatch pattern), filter_map]
    · rfl
    · rintro _ hkey
      obtain ⟨key, -, rfl⟩ := mem_map.mp hkey
      rfl
  · rw [h.textAt_isSome, hkeys]
    simp

theorem ofValue_keys (keys : List String) :
    keysResponse.ofValue (.record [("keys", .list (keys.map .text))]) = .ok keys :=
  Outcome.bind_eq_ok.mpr ⟨_, rfl, mapM_textOf keys⟩

theorem ends_keys_call (hpols : TriesCache pols) (hs : Has cache s) (h : HoldsTexts cache)
    (pattern : String) :
    (call pols peer "RedisGetKeys" (.record [("pattern", .text pattern)])).Ends s
      (fun answer s' => ∃ keys, answer = .record [("keys", .texts keys)] ∧
        (∀ key, key ∈ keys ↔
          (textAt cache key).isSome = true ∧ Text.matchesGlob pattern key = true) ∧
        Has cache s')
      fun _ _ => False := by
  obtain ⟨keys, hkeys, hmem⟩ := h.keys pattern
  refine .known rfl (.bind ((ends_answered (Q := fun r c =>
    r = keys ∧ c = cache) hpols hs ?_).mono_ok ?_))
  · intro s0 hs0
    have hfind : Cache.findKeys (.text pattern) s0 = .ok (keys.map .text) s0 := by
      unfold Cache.findKeys
      rw [bind_of_ok (announce_calm hs0.1 _ _), bind_of_ok (get_run s0), hs0.2]
      exact lift_of_ok hkeys s0
    refine .known rfl (.bind (ends_of_ok hfind (ends_pure ⟨hs0.1, keys, ?_, rfl, hs0.2⟩)))
    exact ofValue_keys keys
  · rintro answer s' ⟨hcalm, rfl, hcache⟩
    exact ends_pure ⟨answer, rfl, hmem, hcalm, hcache⟩

theorem ends_removeKey (hs : Has cache s) (key : String) :
    (Cache.removeKey (.text key)).Ends s (fun _ s' => Has (without cache key) s') fun _ _ => False := by
  refine .bind (ends_get (.known rfl ?_))
  rw [hs.2]
  split
  · rename_i hfind
    have hsame : without cache key = cache := by
      refine filter_eq_self.mpr fun e he => ?_
      simpa using find?_eq_none.mp hfind e he
    exact ends_pure ⟨hs.1, hs.2.trans hsame.symm⟩
  · rename_i e hfind
    have hkey : e.key = .text key := by
      have hsame := find?_some hfind
      exact sameScalar_text_right.mp hsame
    rw [hkey]
    exact .bind (ends_modify (ends_pure ⟨hs.1, rfl⟩))

/-- What is left of a cache is made of texts, and is all that was not under the keys. -/
abbrev Cleared (keys : List String) (cache : Cache) (s : State) : Prop :=
  s.Calm ∧ HoldsTexts s.cache ∧
    ∀ key, textAt s.cache key = if key ∈ keys then none else textAt cache key

theorem ends_removeAll (keys : List String) (hs : Has cache s) (h : HoldsTexts cache) :
    ((keys.map Value.text).mapM Cache.removeKey).Ends s (fun _ => Cleared keys cache)
      fun _ _ => False := by
  induction keys generalizing s cache with
  | nil =>
    refine ends_pure ⟨hs.1, ?_, ?_⟩
    · rw [hs.2]
      exact h
    · simp [hs.2]
  | cons key keys ih =>
    rw [map_cons, mapM_cons]
    refine .bind ((ends_removeKey hs key).mono_ok (fun _ s1 hs1 => ?_))
    have hrest : HoldsTexts (without cache key) := fun e he => h e (mem_of_mem_filter he)
    refine .bind ((ih hs1 hrest).mono_ok ?_)
    rintro _ s2 ⟨hcalm, htexts, hremoved⟩
    refine ends_pure ⟨hcalm, htexts, fun other => ?_⟩
    rw [hremoved, textAt_without]
    by_cases hother : other = key
    · simp [hother]
    · simp [hother]

theorem ends_delete_call (hpols : TriesCache pols) (hs : Has cache s) (h : HoldsTexts cache)
    (keys : List String) :
    (call pols peer "RedisDelete" (.record [("keys", .texts keys)])).Leaves s
      (Cleared keys cache) := by
  have hreq : deleteRequest.ofValue (.record [("keys", .texts keys)]) = .ok keys := ofValue_keys keys
  refine .known hreq (.bind ((ends_tell (Q := fun _ => Cleared keys cache)
    (E := fun _ => Cleared keys cache) (lasting_has cache) hs (fun s0 hs0 => .bind ?_) _ _ _ _).mono
    (fun _ _ h => ends_pure h) fun _ _ h => h))
  -- whatever the answer says, it is read after the keys are gone
  have hread : ∀ v s', Cleared keys cache s' →
      (liftM (deleteResponse.ofValue v) : Work Int).Leaves s' (Cleared keys cache) :=
    fun v s' hs' => ends_lift (fun _ _ => hs') fun _ _ => hs'
  cases keys with
  | nil =>
    have hkept : ∀ s', Has cache s' → Cleared [] cache s' := by
      rintro s' ⟨hcalm, rfl⟩
      exact ⟨hcalm, h, by simp⟩
    refine (ends_onCache (C := True) (lasting_has cache) (fun s1 hs1 => ?_) hs0).mono
      (fun v s1 hs1 => hread v s1 (hkept s1 hs1)) fun _ s1 hs1 => hkept s1 hs1.2
    exact .known rfl (.known rfl (.bind (.bind
      (ends_of_ok (announce_calm hs1.1 _ _) (.bind (ends_throw ⟨trivial, hs1⟩))))))
  | cons key keys =>
    refine (ends_onCache (lasting_has cache) (fun s1 hs1 => ?_) hs0).mono
      (fun v s1 hs1 => hread v s1 hs1) fun _ _ hf => (hf.1.elim (· hpols) id).elim
    refine .known rfl (.known rfl (.bind (.bind
      (ends_of_ok (announce_calm hs1.1 _ _) ?_))))
    exact .bind ((ends_removeAll (key :: keys) hs1 h).mono_ok
      (fun _ _ hs' => ends_pure (ends_pure hs')))

end SheetMill.Database.Service
