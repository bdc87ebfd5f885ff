import SheetMill.Gateway.Users
import SheetMill.Proofs.CachedTexts

/-!
# An office with a cache

The laws of the calls by which an office uses a cache, and that the database service keeps them.
-/

namespace SheetMill.Gateway

open Act Message Database Database.Service

variable {σ : Type}

/-- A pattern that matches nothing but itself. -/
def IsPlain (pattern : String) : Prop := ∀ c ∈ pattern.toList, c ∉ ['*', '?', '[', ']', '\\']

section Laws

variable (o : Office σ) (fit : σ → Prop) (cached : σ → String → Option String)

/-- A call leaves the session as it is, and adds nothing to the cache but the given entries. -/
structure Office.Steps (added : String → String → Prop) (s s' : σ) : Prop where
  fit : fit s'
  session : o.session s' = o.session s
  cached : ∀ key content, cached s' key = some content →
    added key content ∨ cached s key = some content

abbrev Office.Loses (s s' : σ) : Prop := o.Steps fit cached (fun _ _ => False) s s'

/-- The calls about the cache succeed, and do what they say. Only a removal may end with a fault, as
one of no keys at all does; the keys are gone then too. -/
structure Office.Caches : Prop where
  get : ∀ s key, fit s → (o.database .get (.record [("key", .text key)])).Ends s
    (fun answer s' => answer = .record [("value", .ofText? (cached s key)),
        ("found", .bool (cached s key).isSome)] ∧
      o.Loses fit cached s s')
    fun _ _ => False
  set : ∀ s key content, fit s → (o.database .set (.record [("key", .text key),
      ("value", .text content), ("expiration", .null)])).Ends s
    (fun _ s' => o.Steps fit cached (fun k c => k = key ∧ c = content) s s')
    fun _ _ => False
  keys : ∀ s pattern, fit s → (o.database .keys (.record [("pattern", .text pattern)])).Ends s
    (fun answer s' => ∃ keys, answer = .record [("keys", .texts keys)] ∧
      (IsPlain pattern → (cached s pattern).isSome = true → pattern ∈ keys) ∧
      o.Loses fit cached s s')
    fun _ _ => False
  delete : ∀ s keys, fit s → (o.database .delete (.record [("keys", .texts keys)])).Ends s
    (fun _ s' => (∀ key ∈ keys, cached s' key = none) ∧ o.Loses fit cached s s')
    fun _ s' => (∀ key ∈ keys, cached s' key = none) ∧ o.Loses fit cached s s'
  session : ∀ session s, o.session (o.putSession session s) = session
  fit_put : ∀ session s, fit s → fit (o.putSession session s)
  cached_put : ∀ session s, cached (o.putSession session s) = cached s

end Laws

/-- The database service and a session with the tables of users, side by side. -/
def serviceOffice (pols : Policies) (peer : String) (firstAdministrator : Value) :
    Office (State × Accounts.Session) where
  database call request :=
    Act.within Prod.fst (fun d p => (d, p.2)) (Service.call pols peer call.name request)
  session := Prod.snd
  putSession session p := (p.1, session)
  firstAdministrator

/-- The database service keeps the laws of a cache while no outage is planned and nothing else uses
the cache. -/
theorem caches_serviceOffice {pols : Policies} (hpols : TriesCache pols) (peer : String) (admin : Value) :
    (serviceOffice pols peer admin).Caches (fun p => p.1.Calm ∧ HoldsTexts p.1.cache)
      fun p => textAt p.1.cache where
  get := fun p key hp => .within <|
    (ends_get_call hpols ⟨hp.1, rfl⟩ hp.2 key).mono_ok
      (fun _ s' h => ⟨h.1, ⟨h.2.1, h.2.2 ▸ hp.2⟩, rfl, fun k content hk => .inr (h.2.2 ▸ hk)⟩)
  set := fun p key content hp => .within <| by
    refine (ends_set_call hpols ⟨hp.1, rfl⟩ key content).mono_ok ?_
    rintro _ s' ⟨ttl, hcalm, hcache⟩
    refine ⟨⟨hcalm, ?_⟩, rfl, fun k c hk => ?_⟩
    · rw [hcache]
      exact hp.2.put key content ttl
    · rw [hcache, textAt_put, Function.update_apply] at hk
      split at hk
      · rename_i hkey
        exact .inl ⟨hkey, (Option.some.inj hk).symm⟩
      · exact .inr hk
  keys := fun p pattern hp => .within <| by
    refine (ends_keys_call hpols ⟨hp.1, rfl⟩ hp.2 pattern).mono_ok ?_
    rintro _ s' ⟨keys, hans, hkeys, hcalm, hcache⟩
    refine ⟨keys, hans, fun hplain hsome => ?_, ⟨hcalm, ?_⟩, rfl, fun k c hk => .inr ?_⟩
    · exact (hkeys pattern).mpr ⟨hsome, globMatches_self hplain⟩
    · rw [hcache]
      exact hp.2
    · rwa [hcache] at hk
  delete := fun p keys hp => .within <| by
    refine (ends_delete_call hpols ⟨hp.1, rfl⟩ hp.2 keys).imp ?_
    rintro s' ⟨hcalm, htexts, hremoved⟩
    refine ⟨fun key hkey => ?_, ⟨hcalm, htexts⟩, rfl, fun k c hk => .inr ?_⟩
    · rw [hremoved, if_pos hkey]
    · rw [hremoved] at hk
      split at hk
      · cases hk
      · exact hk
  session := fun _ _ => rfl
  fit_put := fun _ _ hp => hp
  cached_put := fun _ _ => rfl

end SheetMill.Gateway
