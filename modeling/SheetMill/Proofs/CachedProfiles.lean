import SheetMill.Proofs.CachedOffice
import SheetMill.Proofs.ProfileRecords

/-!
# Cached profiles are up to date

A change that could be seen in a profile removes the cached entry of its user: whatever is cached
under the key of a user is what the tables show of the user. This relation between the two stores
holds after every sequence of requests.
-/

namespace SheetMill.Gateway

open Act Message Database Database.Service Accounts Value

variable {σ : Type} {u : String} {t : Tables}

/-! ## Requests -/

structure Actor where
  paper : Paper
  username : String
  named : paper.read "username" = .ok (.text username)

/-- A name in the path of a request, which is never empty there, without characters that mean
something in patterns. -/
structure Segment where
  name : String
  nonempty : name ≠ ""
  plain : IsPlain name

inductive Visit where
  | info (actor : Actor)
  | create (actor : Actor) (fields : TextFields)
  | update (actor : Actor) (user : Segment) (role : String) (fields : TextFields)
  /-- Close the account of a user in a role, or remove it. -/
  | delete (actor : Actor) (user : Segment) (role : String) (complete : Bool)

def Visit.route (o : Office σ) : Visit → Act σ Value
  | info actor => ownProfile o actor.paper
  | create actor fs => createUser o actor.paper fs.creation
  | update actor user role fs =>
    updateUser o actor.paper (seek user.name role) (.of .update fs.values)
  | delete actor user role complete => deleteUser o actor.paper (seek user.name role) complete

structure Served where
  visit : Visit
  faults : List (Option Fault) := []
  today : String := "1970-01-01"

def Office.renewed (o : Office σ) (faults : List (Option Fault)) (today : String) (s : σ) : σ :=
  let saved := (o.session s).saved
  o.putSession { tables := saved, saved, commitFaults := faults, today } s

def Served.run (o : Office σ) (served : Served) (s : σ) : Outcome Value × σ :=
  (served.visit.route o).outcome (o.renewed served.faults served.today s)

def afterVisits (o : Office σ) (visits : List Served) (s : σ) : σ :=
  visits.foldl (fun s served => (served.run o s).2) s

def profileAnswer (t : Tables) (user : String) : Outcome Value :=
  match t.member? (.text user) with
  | none => .error noSuchUser
  | some member => return .record (← (member.form false).whole)

/-! ## What the cache says and what the tables say -/

def infoKey (user : String) : String := user ++ ":user_info"

theorem infoKey_inj {v : String} (h : infoKey u = infoKey v) : u = v := by
  have hlist := congrArg String.toList h
  unfold infoKey at hlist
  rw [String.toList_append, String.toList_append] at hlist
  exact String.toList_inj.mp (List.append_cancel_right hlist)

theorem isPlain_infoKey (h : IsPlain u) : IsPlain (infoKey u) := by
  unfold IsPlain infoKey at *
  rw [String.toList_append, List.forall_mem_append]
  exact ⟨h, by simp⟩

/-- A cached text is the profile that the tables show of the user. -/
def Shows (t : Tables) (user content : String) : Prop :=
  ∃ p, t.shown? user = some p ∧ (Value.record p.profile).toJson = .ok content

theorem textual_of_shown {p : Row} (ht : t.TextProfiles) (h : t.shown? u = some p) :
    Textual p.profile :=
  ht p (List.mem_of_find?_eq_some (Tables.shown?_eq_some.mp h).2)

theorem profileAnswer_of_none (h : t.shown? u = none) : profileAnswer t u = .error noSuchUser := by
  have hmem : t.member? (.text u) = none := Option.map_eq_none_iff.mp h
  unfold profileAnswer
  rw [hmem]

theorem profileAnswer_of_shown {p : Row} (h : t.shown? u = some p) :
    profileAnswer t u = .ok (.record p.profile) := by
  obtain ⟨member, hmem, rfl⟩ := Option.map_eq_some_iff.mp h
  unfold profileAnswer
  rw [hmem]
  rfl

section Invariant

variable (o : Office σ) (fit : σ → Prop) (cached : σ → String → Option String)

/-- The state is fit, the tables hold texts, and all that is cached about users other than one is
what the tables show. -/
structure Coherent (except : Option String) (s : σ) : Prop where
  fit : fit s
  textual : (o.session s).saved.TextProfiles
  shows : ∀ u content, except ≠ some u → cached s (infoKey u) = some content →
    Shows (o.session s).saved u content

end Invariant

section Steps

variable {o : Office σ} {fit : σ → Prop} {cached : σ → String → Option String} {s s' : σ}
  {except : Option String}

theorem Coherent.step {added : String → String → Prop} (h : Coherent o fit cached except s)
    (hstep : o.Steps fit cached added s s')
    (hadded : ∀ u content, added (infoKey u) content → Shows (o.session s).saved u content) :
    Coherent o fit cached except s' := by
  refine ⟨hstep.fit, ?_, fun u content hu hcont => ?_⟩
  · rw [hstep.session]
    exact h.textual
  · rw [hstep.session]
    rcases hstep.cached _ _ hcont with hnew | hold
    · exact hadded u content hnew
    · exact h.shows u content hu hold

theorem Coherent.renewed (ho : o.Caches fit cached) (h : Coherent o fit cached except s)
    (faults : List (Option Fault)) (today : String) :
    Coherent o fit cached except (o.renewed faults today s) := by
  refine ⟨ho.fit_put _ _ h.fit, ?_, fun u content hu hcont => ?_⟩
  · unfold Office.renewed
    rw [ho.session]
    exact h.textual
  · unfold Office.renewed at hcont ⊢
    rw [ho.cached_put] at hcont
    rw [ho.session]
    exact h.shows u content hu hcont

/-! ## Asking -/

/-- The profile that is answered is that of the tables, and what is cached about it is too. -/
theorem ends_ownProfile (ho : o.Caches fit cached) (hs : Coherent o fit cached none s)
    (hclean : (o.session s).tables = (o.session s).saved) (actor : Actor) :
    (ownProfile o actor.paper).Ends s
      (fun v s' => .ok v = profileAnswer (o.session s).saved actor.username ∧
        Coherent o fit cached none s')
      fun f s' => .error f = profileAnswer (o.session s).saved actor.username ∧
        Coherent o fit cached none s' := by
  refine .known actor.named (.bind ?_)
  refine (ho.get s (infoKey actor.username) hs.fit).mono_ok ?_
  rintro _ s1 ⟨rfl, hstep⟩
  have hs1 := hs.step hstep nofun
  refine .known rfl ?_
  cases hcached : cached s (infoKey actor.username) with
  | some content =>
    obtain ⟨p, hshown, hwritten⟩ := hs.shows _ _ nofun hcached
    have hparsed : (Value.text content).parsed = .ok (.record p.profile) :=
      ofJson_textual (textual_of_shown hs.textual hshown) (nodup_profile p) hwritten
    refine .known rfl (.known hparsed (.known (fromCache_profile p) (ends_pure ?_)))
    exact ⟨(profileAnswer_of_shown hshown).symm, hs1⟩
  | none =>
    refine .bind (.get ?_)
    refine ends_pure ?_
    rw [hstep.session, hclean]
    cases hmem : (o.session s).saved.member? (.text actor.username) with
    | none =>
      refine ends_throw ⟨(profileAnswer_of_none ?_).symm, hs1⟩
      rw [Tables.shown?, hmem]
      rfl
    | some member =>
      have hshown : (o.session s).saved.shown? actor.username = some member.profile := by
        rw [Tables.shown?, hmem]
        rfl
      obtain ⟨content, hwritten⟩ := exists_toJson (textual_of_shown hs.textual hshown)
      refine .known (whole_form member) (.known hwritten (.bind ?_))
      refine (ho.set s1 (infoKey actor.username) content hs1.fit).mono_ok (fun _ s2 hset => ?_)
      refine ends_pure ⟨(profileAnswer_of_shown hshown).symm, hs1.step hset ?_⟩
      rintro u _ ⟨hkey, rfl⟩
      cases infoKey_inj hkey
      rw [hstep.session]
      exact ⟨member.profile, hshown, hwritten⟩

/-! ## Forgetting -/

theorem Office.Loses.refl (hs : fit s) : o.Loses fit cached s s := ⟨hs, rfl, fun _ _ h => .inr h⟩

theorem Office.Loses.trans {s'' : σ} (h : o.Loses fit cached s s') (h' : o.Loses fit cached s' s'') :
    o.Loses fit cached s s'' :=
  ⟨h'.fit, h'.session.trans h.session, fun key content hkey =>
    h.cached key content ((h'.cached key content hkey).resolve_left id)⟩

theorem Office.Loses.none (h : o.Loses fit cached s s') {key : String} (hkey : cached s key = none) :
    cached s' key = none := by
  cases hcached : cached s' key with
  | none => rfl
  | some content =>
    have hold := (h.cached key content hcached).resolve_left id
    rw [hkey] at hold
    cases hold

theorem ends_forgetPattern (ho : o.Caches fit cached) (hs : fit s) (pattern : String) :
    (do
      let keys ← (← o.database .keys (.record [("pattern", .text pattern)])).item "keys"
      let _ ← o.database .delete (.record [("keys", keys)]) : Act σ Unit).Leaves s
      fun s' => o.Loses fit cached s s' ∧ (IsPlain pattern → cached s' pattern = none) := by
  refine .bind ((ho.keys s pattern hs).mono_ok ?_)
  rintro _ s1 ⟨keys, rfl, hmem, hlost⟩
  have hgone : ∀ s', (∀ key ∈ keys, cached s' key = none) ∧ o.Loses fit cached s1 s' →
      o.Loses fit cached s s' ∧ (IsPlain pattern → cached s' pattern = none) := by
    rintro s' ⟨hremoved, hlost'⟩
    refine ⟨hlost.trans hlost', fun hplain => ?_⟩
    cases hcached : cached s pattern with
    | none => exact (hlost.trans hlost').none hcached
    | some content => exact hremoved pattern (hmem hplain (by rw [hcached]; rfl))
  refine .known rfl (.bind ((ho.delete s1 keys hlost.fit).mono (fun _ s' h => ?_) ?_))
  · exact ends_pure (hgone s' h)
  · exact fun _ s' h => hgone s' h

theorem ends_forgetPatterns (ho : o.Caches fit cached) (patterns : List String) (hs : fit s) :
    (patterns.forM fun pattern => do
      let keys ← (← o.database .keys (.record [("pattern", .text pattern)])).item "keys"
      let _ ← o.database .delete (.record [("keys", keys)]) : Act σ Unit).Leaves s
      (o.Loses fit cached s) := by
  induction patterns generalizing s with
  | nil => exact ends_pure (.refl hs)
  | cons pattern patterns ih =>
    refine .bind ((ends_forgetPattern ho hs pattern).mono (fun _ s1 h1 => ?_) fun _ _ h => h.1)
    exact (ih h1.1.fit).imp fun _ h => h1.1.trans h

/-- Whatever else is removed, the profile of the user is not cached any more. -/
theorem ends_forget (ho : o.Caches fit cached) (hs : fit s) (user : Segment) :
    (forget o.database (.text user.name) true).Leaves s
      fun s' => o.Loses fit cached s s' ∧ cached s' (infoKey user.name) = none := by
  have hplain := isPlain_infoKey user.plain
  have hpatterns : ∃ rest, stalePatterns (.text user.name) true = infoKey user.name :: rest := by
    have htruthy : (Value.text user.name).truthy = true := by simp [Value.truthy, user.nonempty]
    unfold stalePatterns
    dsimp only
    rw [if_pos htruthy]
    exact ⟨_, rfl⟩
  obtain ⟨rest, hrest⟩ := hpatterns
  unfold forget
  rw [hrest]
  refine .bind ((ends_forgetPattern ho hs _).mono (fun _ s1 h1 => ?_) fun _ _ h => ?_)
  · exact (ends_forgetPatterns ho rest h1.1.fit).imp
      fun _ h => ⟨h1.1.trans h, h.none (h1.2 hplain)⟩
  · exact ⟨h.1, h.2 hplain⟩

/-! ## Changing -/

/-- A change that fails spoils nothing that is cached, and any other one at most what is cached about
its subject. -/
theorem Coherent.changed {byAdmin : Bool} {fault? : Option Fault} {req : Request}
    {out : Outcome Receipt} {session : Session} (ho : o.Caches fit cached)
    (h : Coherent o fit cached none s)
    (heffect : Effect byAdmin fault? (o.session s).saved req out session.saved)
    (hexcept : ∀ u, except ≠ some u → Failed out ∨ req.subject? ≠ some u) :
    Coherent o fit cached except (o.putSession session s) := by
  refine ⟨ho.fit_put _ _ h.fit, ?_, fun u content hu hcont => ?_⟩
  · rw [ho.session]
    exact heffect.textProfiles h.textual
  · rw [ho.cached_put] at hcont
    rw [ho.session]
    obtain ⟨p, hshown, hwritten⟩ := h.shows u content nofun hcont
    exact ⟨p, heffect.shown? (hexcept u hu) hshown, hwritten⟩

theorem ends_changed {user : Value} {data : Outcome (List (String × Value))} (req : Request)
    (ho : o.Caches fit cached) (hs : Coherent o fit cached none s)
    (hclean : (o.session s).tables = (o.session s).saved) (byAdmin : Bool)
    (hforget : ∀ s1, Coherent o fit cached req.subject? s1 →
      (forget o.database user true).Leaves s1 (Coherent o fit cached none)) :
    (do
      let r ← o.inSession (req.work byAdmin)
      ofReceipt o r user data : Act σ Value).Leaves s (Coherent o fit cached none) := by
  have heffective := req.effective byAdmin hclean
  refine .bind (.within (heffective.mono (fun receipt session heffect => ?_)
    fun f session heffect => ?_))
  · unfold ofReceipt
    split
    · rename_i hnum
      have hfail : Failed (.ok receipt) := failed_of_ne (by simpa using hnum)
      exact ends_throw (hs.changed ho heffect fun _ _ => .inl hfail)
    · refine .bind ((hforget _ (hs.changed ho heffect fun _ hu => .inr hu)).mono (fun _ s' hs' => ?_)
        fun _ _ h => h)
      exact .bind (ends_lift (fun _ _ => ends_pure hs') fun _ _ => hs')
  · exact hs.changed ho heffect fun _ _ => .inl (failed_error f)

theorem ends_forget_subject (ho : o.Caches fit cached) (user : Segment) {s1 : σ}
    (hs1 : Coherent o fit cached (some user.name) s1) :
    (forget o.database (.text user.name) true).Leaves s1 (Coherent o fit cached none) := by
  refine (ends_forget ho hs1.fit user).imp ?_
  rintro s' ⟨hlost, hnone⟩
  have hs' := hs1.step hlost nofun
  refine ⟨hs'.fit, hs'.textual, fun u content _ hcont => hs'.shows u content ?_ hcont⟩
  rintro ⟨⟩
  rw [hnone] at hcont
  cases hcont

/-! ## Sequences of requests -/

/-- Every request leaves the cache in agreement with the tables. -/
theorem Coherent.visit (ho : o.Caches fit cached) (hs : Coherent o fit cached none s)
    (hclean : (o.session s).tables = (o.session s).saved) (visit : Visit) :
    (visit.route o).Leaves s (Coherent o fit cached none) := by
  have hadmin : ∀ actor : Actor, isFirstAdministrator o actor.paper =
      .ok ((Value.text actor.username).same o.firstAdministrator) := by
    intro actor
    unfold isFirstAdministrator
    rw [actor.named]
    rfl
  cases visit with
  | info actor =>
    exact (ends_ownProfile ho hs hclean actor).mono (fun _ _ h => h.2) fun _ _ h => h.2
  | create actor fs =>
    refine .known (hadmin actor) ?_
    refine ends_changed (.create fs) ho hs hclean _ fun s1 hs1 => ?_
    exact (ends_forgetPatterns ho _ hs1.fit).imp fun _ h => hs1.step h nofun
  | update actor user role fs =>
    refine .known (hadmin actor) ?_
    exact ends_changed (.update user.name role fs) ho hs hclean _ fun _ =>
      ends_forget_subject ho user
  | delete actor user role complete =>
    refine .known (hadmin actor) ?_
    cases complete with
    | false =>
      exact ends_changed (.close user.name role) ho hs hclean _ fun _ => ends_forget_subject ho user
    | true =>
      exact ends_changed (.remove user.name role) ho hs hclean _ fun _ => ends_forget_subject ho user

theorem clean_renewed (ho : o.Caches fit cached) (faults : List (Option Fault)) (today : String) :
    (o.session (o.renewed faults today s)).tables = (o.session (o.renewed faults today s)).saved := by
  unfold Office.renewed
  rw [ho.session]

theorem Coherent.afterVisits (ho : o.Caches fit cached) (hs : Coherent o fit cached none s)
    (visits : List Served) : Coherent o fit cached none (afterVisits o visits s) := by
  induction visits generalizing s with
  | nil => exact hs
  | cons served visits ih =>
    refine ih ?_
    have hvisit :=
      (hs.renewed ho served.faults served.today).visit ho (clean_renewed ho _ _) served.visit
    exact hvisit.outcome (R := fun _ s' => Coherent o fit cached none s')

/-- After any requests, the profile that an actor is given is the one that the tables show at that
moment, whether it comes from the cache or not. -/
theorem profile_up_to_date (o : Office σ) (fit : σ → Prop) (cached : σ → String → Option String)
    (ho : o.Caches fit cached) (s : σ) (hfit : fit s) (hempty : ∀ key, cached s key = none)
    (htextual : (o.session s).saved.TextProfiles) (visits : List Served) (actor : Actor)
    (faults : List (Option Fault)) (today : String) :
    (Served.run o ⟨.info actor, faults, today⟩ (afterVisits o visits s)).1 =
      profileAnswer (o.session (afterVisits o visits s)).saved actor.username := by
  have hstart : Coherent o fit cached none s := by
    refine ⟨hfit, htextual, fun u content _ hcontent => ?_⟩
    rw [hempty] at hcontent
    cases hcontent
  have hsaved : ∀ s', (o.session (o.renewed faults today s')).saved = (o.session s').saved := by
    intro s'
    unfold Office.renewed
    rw [ho.session]
  have hreached := (hstart.afterVisits ho visits).renewed ho faults today
  have hends := ends_ownProfile ho hreached (clean_renewed ho _ _) actor
  rw [hsaved] at hends
  exact (hends.outcome (R := fun out s' =>
    out = profileAnswer (o.session (SheetMill.Gateway.afterVisits o visits s)).saved actor.username ∧
      Coherent o fit cached none s')).1

end Steps

/-! ## A name that changes -/

def ann : Actor := ⟨.of .account [("username", .text "ann")], "ann", rfl⟩

def annVisits : List Served :=
  [{ visit := .info ann },
    { visit := .update ann ⟨"ann", by decide, by simp [IsPlain]⟩ "user" [("name", some "Anna")] },
    { visit := .info ann }]

def annAlone : Tables where
  profiles := [[("username", .text "ann"), ("name", .text "Ann")]]
  accounts := [[("username", .text "ann"), ("rol", .text "user"), ("is_active", .bool true)]]

theorem textual_annAlone : annAlone.TextProfiles := by
  intro p hp
  rw [List.mem_singleton.mp hp]
  intro name hname
  fin_cases hname
  · exact ⟨some "ann", rfl⟩
  · exact ⟨some "Ann", rfl⟩
  all_goals exact ⟨none, rfl⟩

/-- The database service at the start, and a session with the tables. -/
def annStart : Database.State × Session := ({}, { tables := annAlone, saved := annAlone })

def isAnswer (v : Value) : Outcome Value → Bool
  | .ok answer => answer.same v
  | .error _ => false

/-- The second answer is cached, the third one is it, and has the new name. -/
theorem profile_up_to_date_renamed :
    let o := serviceOffice {} "gateway" (.text "root")
    (Database.Service.textAt (afterVisits o annVisits annStart).1.cache (infoKey "ann")).isSome ∧
      isAnswer (.record [("username", .text "ann"), ("name", .text "Anna"), ("surname", .null),
        ("sex", .null), ("phone", .null), ("email", .null)])
        (Served.run o { visit := .info ann } (afterVisits o annVisits annStart)).1 := by
  refine ⟨by decide +kernel, ?_⟩
  rw [profile_up_to_date (serviceOffice {} "gateway" (.text "root")) _ _
    (caches_serviceOffice ⟨4, rfl⟩ "gateway" (.text "root")) annStart ⟨rfl, nofun⟩ (fun _ => rfl)
    textual_annAlone annVisits ann [] "1970-01-01"]
  decide +kernel

end SheetMill.Gateway
