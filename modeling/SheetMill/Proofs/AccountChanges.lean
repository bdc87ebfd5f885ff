import SheetMill.Accounts.Changes
import SheetMill.Proofs.Work
import SheetMill.Proofs.UserTables

/-!
# What a change of users does to the tables

Any commit of a change may fail. `Effect` says once what the committed tables can be when it ends:
as they were, with the profile of a new user added, or changed as the request asks.
-/

namespace SheetMill.Accounts

open Act Outcome List

variable {t : Tables} {a : Row} {parts : List (String × Outcome Value)}
  {violated : String → Receipt} {f : Tables → Tables} {fields : TextFields}

/-! ## Requests -/

def seek (user role : String) : Sought := ⟨.text user, .text role⟩

theorem username_of_isSought {username role : String} {activeOnly : Bool}
    (h : Tables.isSought (seek username role) activeOnly a = true) :
    a.read "username" = .text username := by
  simp only [Tables.isSought, Bool.and_eq_true] at h
  exact Row.has_text.mp h.1.1

/-- A change that is asked for. -/
inductive Request where
  | create (fields : TextFields)
  | update (username role : String) (fields : TextFields)
  | close (username role : String)
  | remove (username role : String)

def TextFields.creation (fields : TextFields) : Paper := .of .creation fields.values

def Request.work (byAdmin : Bool) : Request → Work Receipt
  | create fields => Accounts.create fields.creation byAdmin
  | update user role fields =>
    Accounts.update (seek user role).paper (.of .update fields.values) byAdmin
  | close user role => Accounts.close (seek user role).paper byAdmin
  | remove user role => Accounts.remove (seek user role).paper byAdmin

def Session.commitFault? (s : Session) : Option Fault := s.commitFaults.head?.join

structure Turn where
  request : Request
  faults : List (Option Fault) := []
  today : String := "1970-01-01"

namespace Turn

def session (turn : Turn) (t : Tables) : Session :=
  { tables := t, saved := t, commitFaults := turn.faults, today := turn.today }

def result (turn : Turn) (byAdmin : Bool) (t : Tables) : Outcome Receipt × Tables :=
  let (out, s) := (turn.request.work byAdmin).outcome (turn.session t)
  (out, s.saved)

def firstFault? (turn : Turn) : Option Fault := turn.faults.head?.join

end Turn

/-! ## Effects -/

def Failed (out : Outcome Receipt) : Prop := ∀ receipt, out = .ok receipt → receipt.number ≠ 0

/-- A form is that of a new user nothing speaks against, and says this profile of the user. -/
structure Introduces (byAdmin : Bool) (t : Tables) (fields : TextFields) (profile : Row) : Prop where
  permitted : ∃ role, fields.creation.read "rol" = .ok role ∧
    (isAdminRole role && !byAdmin) = false
  unknown : ∃ username, fields.creation.read "username" = .ok username ∧
    t.member? username false = none
  unopposed : t.objection? fields.creation = .ok none
  said : (FormKind.profile.names.mapM fun name => return (name, ← fields.creation.read name) :
    Outcome Row) = .ok profile

def Tables.withProfile (t : Tables) (profile : Row) : Tables :=
  { t with profiles := t.profiles ++ [profile] }

def Sought.account (sought : Sought) (password : Value) : Row :=
  [("username", sought.username), ("rol", sought.role), ("password", password),
    ("is_active", .bool true)]

/-- A user is given an account, or a closed one is opened again. -/
inductive Opened (t : Tables) (p : Paper) (sought : Sought) : Receipt → Tables → Prop
  | added {given password : Value} (hnone : t.account? sought false = none)
    (hgiven : p.read "password" = .ok given) (hpassword : hashed given = .ok password) :
    Opened t p sought ⟨0, "User created successfully.", 201⟩
      { t with accounts := t.accounts ++ [sought.account password] }
  | again {before after : List Row} {a : Row}
    (hlocated : Located (Tables.isSought sought false) t.accounts before a after)
    (hclosed : a.isActive = false) :
    Opened t p sought ⟨0, "User activated successfully.", 200⟩ { t with
      accounts := before ++ a.put "is_active" (.bool true) :: after }

/-- An account after an update: the name and the role are new where they were given. -/
structure Revised (fields : TextFields) (a a' : Row) : Prop where
  username : a'.read "username" = ((fields.text? "username").map .text).getD (a.read "username")
  role : a'.read "rol" = ((fields.text? "rol").map .text).getD (a.read "rol")
  active : a'.read "is_active" = a.read "is_active"

/-- The accounts after an update: the sought one is revised, or there is none and nothing was to be
changed about it. -/
inductive AccountsRevised (fields : TextFields) (sought : Sought) (accounts : List Row) :
    List Row → Prop
  | none (haccount : accounts.find? (Tables.isSought sought false) = none)
    (husername : fields.text? "username" = none) (hrole : fields.text? "rol" = none) :
    AccountsRevised fields sought accounts accounts
  | some {before after : List Row} {a a' : Row}
    (hlocated : Located (Tables.isSought sought false) accounts before a after)
    (hrevised : Revised fields a a') :
    AccountsRevised fields sought accounts (before ++ a' :: after)

/-- What the tables can be after a request, depending on whether the first commit fails. -/
inductive Effect (byAdmin : Bool) (fault? : Option Fault) (t : Tables) :
    Request → Outcome Receipt → Tables → Prop
  /-- Nothing is changed, and no new user got past the first commit. -/
  | refused {request : Request} {out : Outcome Receipt} (hfailed : Failed out)
    (hfirst : ∀ fields profile, request = .create fields → Introduces byAdmin t fields profile →
      fault?.isSome = true) :
    Effect byAdmin fault? t request out t
  /-- The profile of a new user is committed, and then the account cannot be. -/
  | introduced {fields : TextFields} {profile : Row} {out : Outcome Receipt} (hfailed : Failed out)
    (hnew : Introduces byAdmin t fields profile) (hfault : fault? = none) :
    Effect byAdmin fault? t (.create fields) out (t.withProfile profile)
  | created {fields : TextFields} {receipt : Receipt} {sought : Sought} {t₁ t₂ : Tables}
    (hzero : receipt.number = 0)
    (hsought : fields.creation.sought = .ok sought)
    (hpermitted : (isAdminRole sought.role && !byAdmin) = false)
    (hknown : t₁ = t ∨ ∃ profile, Introduces byAdmin t fields profile ∧ t₁ = t.withProfile profile)
    (hopened : Opened t₁ fields.creation sought receipt t₂) :
    Effect byAdmin fault? t (.create fields) (.ok receipt) t₂
  | updated {username role : String} {fields : TextFields} {receipt : Receipt} {member : Member}
    {before after accounts : List Row}
    (hzero : receipt.number = 0)
    (hmember : t.member? (.text username) false = some member)
    (hpermitted : byAdmin = true ∨ ∀ a ∈ member.accounts, isAdminRole (a.read "rol") = false)
    (hobjection : t.updateObjection? member.profile fields.changes = .ok none)
    (hprofile : Located (·.has "username" (.text username)) t.profiles before member.profile after)
    (haccounts : AccountsRevised fields (seek username role) t.accounts accounts) :
    Effect byAdmin fault? t (.update username role fields) (.ok receipt)
      ⟨before ++ member.profile.putAll (profilePart fields.changes) :: after, accounts⟩
  | closed {username role today : String} {receipt : Receipt} {before after : List Row} {a : Row}
    (hzero : receipt.number = 0)
    (hpermitted : (isAdminRole (.text role) && !byAdmin) = false)
    (hlocated : Located (Tables.isSought (seek username role) true) t.accounts before a after) :
    Effect byAdmin fault? t (.close username role) (.ok receipt) { t with
      accounts := before ++
        a.putAll [("is_active", .bool false), ("inactivity", .date today)] :: after }
  | removed {username role : String} {receipt : Receipt} {before after : List Row} {a : Row}
    (hzero : receipt.number = 0)
    (hpermitted : (isAdminRole (.text role) && !byAdmin) = false)
    (hlocated : Located (Tables.isSought (seek username role) false) t.accounts before a after) :
    Effect byAdmin fault? t (.remove username role) (.ok receipt)
      { t with accounts := before ++ after }

def Request.Effective (req : Request) (byAdmin : Bool) (s : Session) : Prop :=
  (req.work byAdmin).Ends s
    (fun receipt s' => Effect byAdmin s.commitFault? s.saved req (.ok receipt) s'.saved)
    fun f s' => Effect byAdmin s.commitFault? s.saved req (.error f) s'.saved

/-! ## Single steps -/

variable {s : Session} {byAdmin : Bool} {receipt : Receipt} {R : Outcome Receipt → Tables → Prop}

section Steps

variable {Q : Unit → Session → Prop} {E : Fault → Session → Prop}

theorem ends_commit
    (hok : s.commitFault? = none →
      ∀ s', s'.tables = s.tables → s'.saved = s.tables → Q () s')
    (herr : ∀ f, s.commitFault? = some f → ∀ s', s'.saved = s.saved → E f s') :
    commit.Ends s Q E := by
  obtain ⟨tables, saved, faults, today, deeds⟩ := s
  rcases faults with _ | ⟨_ | fault, rest⟩
  · exact ends_of_ok rfl (hok rfl _ rfl rfl)
  · exact ends_of_ok rfl (hok rfl _ rfl rfl)
  · exact ends_of_error rfl (herr fault rfl _ rfl)

theorem ends_change (h : Q () { s with tables := f s.tables }) :
    (change f).Ends s Q E := ends_modify h

theorem failed_of_ne (h : receipt.number ≠ 0) : Failed (.ok receipt) := by
  rintro _ ⟨⟩
  exact h

theorem failed_error (f : Fault) : Failed (.error f) := by
  rintro _ ⟨⟩

/-- The receipt of the work goes with what is committed, and where it fails, any failure does. -/
def Settles (work : Work Receipt) (s : Session) (R : Outcome Receipt → Tables → Prop) : Prop :=
  work.Ends s (fun receipt s' => R (.ok receipt) s'.saved)
    fun _ s' => ∀ out, Failed out → R out s'.saved

theorem settles_commit (hs : s.tables = s.saved) (hrej : ∀ out, Failed out → R out s.saved)
    (h : R (.ok receipt) (f s.saved)) : Settles (do change f; commit; return receipt) s R := by
  refine .bind (ends_change (.bind ?_))
  refine ends_commit (fun _ s' _ hsaved => ends_pure ?_) fun _ _ s' hsaved => ?_
  · rw [hsaved, hs]
    exact h
  · rw [hsaved]
    exact hrej

/-- A change that is guarded ends as the change does, or it fails and leaves what was committed. -/
theorem ends_guarded {work : Work Receipt} (hviolated : ∀ msg, (violated msg).number ≠ 0)
    (h : Settles work s R) :
    (guarded violated work).Ends s (fun receipt s' => R (.ok receipt) s'.saved)
      fun f s' => R (.error f) s'.saved := by
  refine .handle (h.mono (fun _ _ hR => hR) fun f s' hR => ⟨fun _ => ?_, fun _ => ?_⟩)
  · refine .bind (ends_modify ?_)
    split
    · exact ends_pure (hR _ (failed_of_ne (hviolated _)))
    · exact ends_pure (hR _ (failed_of_ne (by simp)))
  · exact hR _ (failed_error f)

theorem namedViolation_number (msg : String) : (namedViolation msg).number ≠ 0 := by
  unfold namedViolation Violated.ofMessage
  dsimp only
  split_ifs <;> decide

theorem malformed?_number {email phone : Outcome Value}
    (h : malformed? email phone = .ok (some receipt)) : receipt.number ≠ 0 := by
  obtain ⟨_, -, h⟩ := bind_eq_ok.mp h
  obtain ⟨wrongEmail, -, h⟩ := bind_eq_ok.mp h
  cases wrongEmail with
  | true =>
    cases h
    decide
  | false =>
    obtain ⟨_, -, h⟩ := bind_eq_ok.mp h
    obtain ⟨wrongPhone, -, h⟩ := bind_eq_ok.mp h
    cases wrongPhone with
    | true =>
      cases h
      decide
    | false => cases h

theorem objection?_number {p : Paper} (h : t.objection? p = .ok (some receipt)) :
    receipt.number ≠ 0 := by
  obtain ⟨malformed, hmalformed, h⟩ := bind_eq_ok.mp h
  cases malformed with
  | some r =>
    cases h
    exact malformed?_number hmalformed
  | none =>
    obtain ⟨email, -, h⟩ := bind_eq_ok.mp h
    obtain ⟨phone, -, h⟩ := bind_eq_ok.mp h
    have hreceipt := Except.ok.inj h
    split_ifs at hreceipt
    · cases hreceipt
      decide
    · cases hreceipt
      decide

theorem updateObjection?_number {profile : Row} {changes : List (String × Value)}
    (h : t.updateObjection? profile changes = .ok (some receipt)) : receipt.number ≠ 0 := by
  unfold Tables.updateObjection? at h
  dsimp only at h
  split at h
  · cases h
    decide
  · obtain ⟨malformed, hmalformed, h⟩ := bind_eq_ok.mp h
    cases malformed with
    | some r =>
      cases h
      exact malformed?_number hmalformed
    | none =>
      -- what is compared with the other users does not matter for the numbers
      generalize Tables.novelty _ _ _ _ = novelty at h
      have hreceipt := Except.ok.inj h
      split_ifs at hreceipt
      · cases hreceipt
        simp
      · cases hreceipt
        simp

end Steps

/-! ## Creating -/

theorem settles_openAccount {p : Paper} {sought : Sought} (hs : s.tables = s.saved)
    (hrej : ∀ out, Failed out → R out s.saved)
    (hopened : ∀ receipt t, receipt.number = 0 → Opened s.saved p sought receipt t →
      R (.ok receipt) t) :
    Settles (openAccount p sought) s R := by
  refine .get ?_
  dsimp only
  rw [hs]
  cases hacc : s.saved.account? sought false with
  | none =>
    refine .given (fun given hgiven => ?_) fun _ _ => hrej
    refine .given (fun password hpassword => ?_) fun _ _ => hrej
    exact settles_commit hs hrej (hopened _ _ rfl (.added hacc hgiven hpassword))
  | some a =>
    obtain ⟨before, after, hloc⟩ := exists_located hacc
    dsimp only
    split
    · exact ends_pure (hrej _ (failed_of_ne (by decide)))
    · rename_i hactive
      refine settles_commit hs hrej (hopened _ _ rfl ?_)
      rw [hloc.modify]
      exact .again hloc (Bool.eq_false_iff.mpr hactive)

theorem effective_create (byAdmin : Bool) (fields : TextFields) (hs : s.tables = s.saved) :
    (Request.create fields).Effective byAdmin s := by
  have hrej : (∀ profile, ¬ Introduces byAdmin s.saved fields profile) → ∀ out, Failed out →
      Effect byAdmin s.commitFault? s.saved (.create fields) out s.saved := by
    intro hnone out hout
    refine .refused hout fun _ profile hflds hnew => ?_
    cases hflds
    exact absurd hnew (hnone profile)
  refine .given (fun role hrole => ?_) fun f hf => ?_
  swap
  · refine hrej (fun _ hnew => ?_) _ (failed_error f)
    obtain ⟨role, hrole, -⟩ := hnew.permitted
    cases hf.symm.trans hrole
  split
  · rename_i hforbidden
    refine ends_pure (hrej (fun _ hnew => ?_) _ (failed_of_ne (by decide)))
    obtain ⟨asked, hasked, hperm⟩ := hnew.permitted
    cases hrole.symm.trans hasked
    cases hforbidden.symm.trans hperm
  rename_i hperm
  rw [Bool.not_eq_true] at hperm
  refine .given (fun user huser => ?_) fun f hf => ?_
  swap
  · refine hrej (fun _ hnew => ?_) _ (failed_error f)
    obtain ⟨user, huser, -⟩ := hnew.unknown
    cases hf.symm.trans huser
  have hsought : fields.creation.sought = .ok ⟨user, role⟩ := by
    rw [Paper.sought, huser, ok_bind, hrole, ok_bind, pure_eq_ok]
  refine .bind (ends_get (ends_guarded namedViolation_number ?_))
  rw [hs]
  cases hmem : s.saved.member? user false with
  | some member =>
    refine settles_openAccount hs (hrej fun _ hnew => ?_) fun receipt t hzero hopened =>
      .created hzero hsought hperm (.inl rfl) hopened
    obtain ⟨asked, hasked, hunknown⟩ := hnew.unknown
    cases huser.symm.trans hasked
    cases hmem.symm.trans hunknown
  | none =>
    refine .get ?_
    rw [hs]
    refine .given (fun objection hobj => ?_) fun f hf => ?_
    swap
    · exact hrej fun _ hnew => by cases hf.symm.trans hnew.unopposed
    cases objection with
    | some receipt =>
      have hne := objection?_number hobj
      refine ends_pure (hrej (fun _ hnew => ?_) _ (failed_of_ne hne))
      cases hobj.symm.trans hnew.unopposed
    | none =>
      refine .given (fun profile hprof => ?_) fun f hf => ?_
      swap
      · exact hrej fun _ hnew => by cases hf.symm.trans hnew.said
      have hnew : Introduces byAdmin s.saved fields profile :=
        ⟨⟨role, hrole, hperm⟩, ⟨user, huser, hmem⟩, hobj, hprof⟩
      refine .bind (ends_change ?_)
      refine .bind (ends_commit (fun hfault s' htables hsaved => ?_) ?_)
      · have hsaved' : s'.saved = s.saved.withProfile profile := by
          rw [hsaved, hs]
          rfl
        refine settles_openAccount (htables.trans hsaved.symm) (fun out hout => ?_) ?_
        · rw [hsaved']
          exact .introduced hout hnew hfault
        · intro receipt t hzero hopened
          exact .created hzero hsought hperm (.inr ⟨profile, hnew, hsaved'⟩) hopened
      · intro f hfault s' hsaved out hout
        rw [hsaved]
        exact .refused hout fun _ _ _ _ => Option.isSome_of_eq_some hfault

/-! ## Updating -/

section Updating

variable {changes : List (String × Value)} {account : Option Row}

theorem lookup_filter_keys (p : String → Bool) (fields : List (String × Value)) (name : String) :
    (fields.filter fun field => p field.1).lookup name =
      if p name then fields.lookup name else none := by
  induction fields with
  | nil => simp
  | cons field fields ih =>
    obtain ⟨k, v⟩ := field
    by_cases hname : name = k
    · subst hname
      cases hp : p name with
      | true => simp [hp]
      | false => simpa [hp] using ih
    · cases hp : p k with
      | true =>
        rw [filter_cons, if_pos hp, Value.lookup_cons_of_ne hname,
          Value.lookup_cons_of_ne hname, ih]
      | false =>
        rw [filter_cons, if_neg (by simp [hp]), Value.lookup_cons_of_ne hname, ih]

theorem accountPart_eq (changes : List (String × Value)) :
    accountPart changes = (changes.filter (·.1 == "username") ++
      changes.filter fun e => ["password", "rol"].contains e.1).map
        fun e => (e.1, if e.1 == "password" then hashed e.2 else .ok e.2) := rfl

theorem lookup_accountPart (changes : List (String × Value)) {name : String} (h : name ≠ "password") :
    (accountPart changes).lookup name =
      if name = "username" ∨ name = "rol" then (changes.lookup name).map .ok else none := by
  rw [accountPart_eq, Value.lookup_map (fun k v => if k == "password" then hashed v else .ok v),
    lookup_append, lookup_filter_keys (· == "username"),
    lookup_filter_keys (["password", "rol"].contains ·)]
  by_cases huser : name = "username"
  · subst huser
    simp
  · by_cases hrole : name = "rol"
    · subst hrole
      simp
    · simp [huser, hrole, h]

theorem nodup_accountPart (h : (changes.map Prod.fst).Nodup) :
    ((accountPart changes).map Prod.fst).Nodup := by
  have hkeys : (accountPart changes).map Prod.fst = (changes.filter (·.1 == "username") ++
      changes.filter fun e => ["password", "rol"].contains e.1).map Prod.fst := by
    rw [accountPart_eq, map_map]
    rfl
  rw [hkeys, map_append, nodup_append]
  refine ⟨h.sublist (filter_sublist.map _), h.sublist (filter_sublist.map _), ?_⟩
  intro name hname other hother heq
  subst heq
  obtain ⟨⟨k, v⟩, hfst, rfl⟩ := mem_map.mp hname
  obtain ⟨⟨l, w⟩, hsecond, hsame⟩ := mem_map.mp hother
  have huser : k = "username" := by simpa using (mem_filter.mp hfst).2
  have hrest : l = "password" ∨ l = "rol" := by simpa using (mem_filter.mp hsecond).2
  have hsame : l = k := hsame
  rcases hrest with rfl | rfl
  · exact absurd (hsame.trans huser) (by decide)
  · exact absurd (hsame.trans huser) (by decide)

theorem updatedAccount_eq_ok (h : updatedAccount (some a) parts = .ok account) :
    ∃ values, parts = values.map (fun (k, v) => (k, .ok v)) ∧ account = some (a.putAll values) := by
  induction parts generalizing a with
  | nil =>
    cases h
    exact ⟨[], rfl, rfl⟩
  | cons part parts ih =>
    obtain ⟨name, content⟩ := part
    unfold updatedAccount at h
    obtain ⟨next, hnext, h⟩ := bind_eq_ok.mp h
    obtain ⟨v, hv, hnext⟩ := bind_eq_ok.mp hnext
    cases hnext
    obtain ⟨values, hparts, hacc⟩ := ih h
    refine ⟨(name, v) :: values, ?_, hacc⟩
    rw [hv, hparts]
    rfl

theorem updatedAccount_none (h : updatedAccount none parts = .ok account) :
    parts = [] ∧ account = none := by
  cases parts with
  | nil =>
    cases h
    exact ⟨rfl, rfl⟩
  | cons part parts =>
    obtain ⟨next, hnext, -⟩ := bind_eq_ok.mp h
    obtain ⟨v, -, hnext⟩ := bind_eq_ok.mp hnext
    cases hnext

theorem revised_of_updatedAccount
    (h : updatedAccount (some a) (accountPart fields.changes) = .ok account) :
    ∃ a', account = some a' ∧ Revised fields a a' := by
  obtain ⟨values, hparts, hacc⟩ := updatedAccount_eq_ok h
  have hkeys : values.map Prod.fst = (accountPart fields.changes).map Prod.fst := by
    rw [hparts, map_map]
    rfl
  have hread : ∀ name, name ≠ "password" → (a.putAll values).read name =
      (if name = "username" ∨ name = "rol" then fields.changes.lookup name else none).getD
        (a.read name) := by
    intro name hname
    have hlook := lookup_accountPart fields.changes hname
    rw [hparts, Value.lookup_map fun _ => Except.ok] at hlook
    rw [Row.read_putAll (hkeys ▸ nodup_accountPart fields.nodup_changes)]
    congr 1
    refine Option.map_injective (fun _ _ => Except.ok.inj) (hlook.trans ?_)
    split <;> rfl
  refine ⟨_, hacc, ?_, ?_, ?_⟩
  · rw [hread _ (by decide), if_pos (by decide), fields.lookup_changes (by decide)]
  · rw [hread _ (by decide), if_pos (by decide), fields.lookup_changes (by decide)]
  · rw [hread _ (by decide)]
    rfl

theorem accountsRevised_of_updatedAccount {sought : Sought}
    (h : updatedAccount (t.account? sought false) (accountPart fields.changes) = .ok account) :
    AccountsRevised fields sought t.accounts
      (t.accounts.modify (t.accounts.findIdx (Tables.isSought sought false)) account.getD) := by
  cases hfound : t.account? sought false with
  | none =>
    rw [hfound] at h
    obtain ⟨hparts, rfl⟩ := updatedAccount_none h
    have hnone : ∀ name, name = "username" ∨ name = "rol" → fields.text? name = none := by
      intro name hname
      have hother : name ≠ "password" := by rcases hname with rfl | rfl <;> decide
      have hlook := lookup_accountPart fields.changes hother
      rw [hparts, if_pos hname, fields.lookup_changes (by rcases hname with rfl | rfl <;> decide)]
        at hlook
      simpa using hlook.symm
    rw [modify_of_find?_none hfound]
    exact .none hfound (hnone _ (.inl rfl)) (hnone _ (.inr rfl))
  | some a =>
    rw [hfound] at h
    obtain ⟨a', rfl, hrevised⟩ := revised_of_updatedAccount h
    obtain ⟨before, after, hloc⟩ := exists_located hfound
    rw [hloc.modify]
    exact .some hloc hrevised

theorem effective_update (byAdmin : Bool) (user role : String) (fields : TextFields)
    (hs : s.tables = s.saved) : (Request.update user role fields).Effective byAdmin s := by
  have hrej : ∀ out, Failed out →
      Effect byAdmin s.commitFault? s.saved (.update user role fields) out s.saved :=
    fun out hout => .refused hout (by rintro _ _ ⟨⟩)
  refine .given (fun name hname => ?_) fun f _ => hrej _ (failed_error f)
  obtain rfl : .text user = name := Except.ok.inj hname
  refine .get ?_
  rw [hs]
  cases hmem : s.saved.member? (.text user) false with
  | none => exact ends_pure (hrej _ (failed_of_ne (by decide)))
  | some member =>
    dsimp only
    split
    · exact ends_pure (hrej _ (failed_of_ne (by decide)))
    rename_i hperm
    refine ends_guarded namedViolation_number (.get ?_)
    rw [hs]
    refine .given (fun sought hsought => ?_) fun _ _ => hrej
    obtain rfl : seek user role = sought := Except.ok.inj hsought
    refine .given (fun changes hchgs => ?_) fun _ _ => hrej
    obtain rfl : fields.changes = changes := Except.ok.inj hchgs
    refine .given (fun objection hobj => ?_) fun _ _ => hrej
    cases objection with
    | some receipt => exact ends_pure (hrej _ (failed_of_ne (updateObjection?_number hobj)))
    | none =>
      refine .given (fun account hacc => ?_) fun _ _ => hrej
      have hprof : s.saved.profileOf? user = some member.profile := by
        have hprof := s.saved.profile_member? user false
        rw [hmem] at hprof
        split at hprof
        · cases hprof
        · exact hprof.symm
      obtain ⟨before, after, hloc⟩ := exists_located hprof
      refine settles_commit hs hrej ?_
      rw [hloc.modify]
      refine .updated rfl hmem ?_ hobj hloc (accountsRevised_of_updatedAccount hacc)
      by_cases hadmin : byAdmin = true
      · exact .inl hadmin
      · refine .inr fun a ha => Bool.eq_false_iff.mpr fun hrole => hperm ?_
        rw [Bool.eq_false_iff.mpr hadmin]
        exact any_eq_true.mpr ⟨a, ha, hrole⟩

end Updating

/-! ## Closing and removing -/

/-- Closing and removing begin alike: an account is looked for only in a role that the caller may
delete. -/
theorem ends_permitted {user role : String} {req : Request} {search : Paper}
    {work : Sought → Work Receipt} (hother : ∀ fields, req ≠ .create fields)
    (hrole : search.read "rol" = .ok (.text role))
    (hsought : search.sought = .ok (seek user role))
    (hviolated : ∀ msg, (violated msg).number ≠ 0)
    (h : (isAdminRole (.text role) && !byAdmin) = false →
      (∀ out, Failed out → Effect byAdmin s.commitFault? s.saved req out s.saved) →
      Settles (work (seek user role)) s (Effect byAdmin s.commitFault? s.saved req)) :
    (do
      if isAdminRole (← search.read "rol") && !byAdmin then
        return ⟨2, "Cannot delete administrator user.", 403⟩
      guarded violated do
        let sought ← search.sought
        work sought : Work Receipt).Ends s
      (fun receipt s' => Effect byAdmin s.commitFault? s.saved req (.ok receipt) s'.saved)
      fun f s' => Effect byAdmin s.commitFault? s.saved req (.error f) s'.saved := by
  have hrej : ∀ out, Failed out → Effect byAdmin s.commitFault? s.saved req out s.saved :=
    fun out hout => .refused hout fun fields _ hcreate => absurd hcreate (hother fields)
  refine .known hrole ?_
  split
  · exact ends_pure (hrej _ (failed_of_ne (by decide)))
  · rename_i hperm
    have hwork := h (Bool.eq_false_iff.mpr hperm) hrej
    exact ends_guarded hviolated (.known hsought hwork)

theorem effective_close (byAdmin : Bool) (user role : String) (hs : s.tables = s.saved) :
    (Request.close user role).Effective byAdmin s := by
  refine ends_permitted nofun rfl rfl (by simp [reportedViolation]) fun hperm hrej => ?_
  refine .get ?_
  rw [hs]
  cases hidx : s.saved.accounts.findIdx? (Tables.isSought (seek user role) true) with
  | none => exact ends_pure (hrej _ (failed_of_ne (by decide)))
  | some i =>
    obtain ⟨hlt, hfst⟩ := findIdx?_eq_some_iff_findIdx_eq.mp hidx
    obtain ⟨a, ha, hsought⟩ := findIdx_lt_length.mp (hfst.symm ▸ hlt)
    obtain ⟨found, hfound⟩ := Option.isSome_iff_exists.mp (find?_isSome.mpr ⟨a, ha, hsought⟩)
    obtain ⟨before, after, hloc⟩ := exists_located hfound
    refine settles_commit hs hrej ?_
    rw [← hfst, hloc.modify]
    exact .closed rfl hperm hloc

theorem effective_remove (byAdmin : Bool) (user role : String) (hs : s.tables = s.saved) :
    (Request.remove user role).Effective byAdmin s := by
  refine ends_permitted nofun rfl rfl (by simp [reportedViolation]) fun hperm hrej => ?_
  refine .get ?_
  rw [hs]
  cases hfound : s.saved.account? (seek user role) false with
  | none => exact ends_pure (hrej _ (failed_of_ne (by decide)))
  | some a =>
    dsimp only
    split
    · exact ends_pure (hrej _ (failed_of_ne (by decide)))
    obtain ⟨before, after, hloc⟩ := exists_located hfound
    refine settles_commit hs hrej ?_
    rw [hloc.eraseIdx]
    exact .removed rfl hperm hloc

/-- Whatever the request and however its commits go, it ends with one of the effects. -/
theorem Request.effective (req : Request) (byAdmin : Bool) (hs : s.tables = s.saved) :
    req.Effective byAdmin s := by
  cases req with
  | create fields => exact effective_create byAdmin fields hs
  | update user role fields => exact effective_update byAdmin user role fields hs
  | close user role => exact effective_close byAdmin user role hs
  | remove user role => exact effective_remove byAdmin user role hs

theorem Turn.effect (turn : Turn) (byAdmin : Bool) (t : Tables) :
    Effect byAdmin turn.firstFault? t turn.request (turn.result byAdmin t).1
      (turn.result byAdmin t).2 := by
  have heffective : turn.request.Effective byAdmin (turn.session t) :=
    turn.request.effective byAdmin rfl
  exact heffective.outcome (R := fun out (s' : Session) =>
    Effect byAdmin turn.firstFault? t turn.request out s'.saved)

/-! ## Changes that fail -/

/-- The profile of a new user gets past the first commit. -/
def Turn.Introduces (turn : Turn) (byAdmin : Bool) (t : Tables) (profile : Row) : Prop :=
  turn.firstFault? = none ∧
    ∃ fields, turn.request = .create fields ∧ Accounts.Introduces byAdmin t fields profile

theorem Tables.withProfile_ne (t : Tables) (profile : Row) : t.withProfile profile ≠ t := by
  intro h
  have hlen := congrArg (·.profiles.length) h
  simp [withProfile] at hlen

/-- A change that fails leaves the committed tables as they were, whatever it asks for and whichever
commits fail. The one exception is a new user: the profile is committed before the account, and stays
when the account cannot be made. -/
theorem failed_change_leaves_tables (turn : Turn) (byAdmin : Bool) (t : Tables) {receipt : Receipt}
    (hreceipt : (turn.result byAdmin t).1 = .ok receipt) (hnumber : receipt.number ≠ 0) :
    ((turn.result byAdmin t).2 = t ↔ ¬ ∃ profile, turn.Introduces byAdmin t profile) ∧
      ∀ profile, turn.Introduces byAdmin t profile →
        (turn.result byAdmin t).2 = t.withProfile profile := by
  have heffect := turn.effect byAdmin t
  rw [hreceipt] at heffect
  unfold Turn.Introduces
  generalize (turn.result byAdmin t).2 = t' at heffect ⊢
  generalize turn.request = request at heffect ⊢
  cases heffect with
  | refused hfailed hfirst =>
    have hnone : ∀ profile, ¬ (turn.firstFault? = none ∧
        ∃ fields, request = .create fields ∧ Introduces byAdmin t fields profile) := by
      rintro profile ⟨hfault, fields, hfields, hnew⟩
      have hsome := hfirst fields profile hfields hnew
      rw [hfault] at hsome
      cases hsome
    exact ⟨⟨fun _ ⟨profile, h⟩ => hnone profile h, fun _ => rfl⟩,
      fun profile h => (hnone profile h).elim⟩
  | introduced hfailed hnew hfault =>
    refine ⟨⟨fun h => absurd h (t.withProfile_ne _), fun h => ?_⟩, ?_⟩
    · exact absurd ⟨_, hfault, _, rfl, hnew⟩ h
    · rintro profile ⟨-, fields, hfields, hother⟩
      cases hfields
      cases hother.said.symm.trans hnew.said
      rfl
  | created hzero => exact absurd hzero hnumber
  | updated hzero => exact absurd hzero hnumber
  | closed hzero => exact absurd hzero hnumber
  | removed hzero => exact absurd hzero hnumber

def newcomer : TextFields := [("username", some "ann"), ("rol", some "user"), ("password", some "p")]

theorem failed_change_leaves_tables_newcomer :
    let turn : Turn := ⟨.create newcomer, [none, some (.integrity "unique_user_rol")], "2024-01-02"⟩
    (turn.result false {}).1 = .ok ⟨2, "User with this role already exists.", 409⟩ ∧
      (turn.result false {}).2.accounts = [] ∧
      (turn.result false {}).2.profiles = [[("username", .text "ann"), ("name", .null),
        ("surname", .null), ("sex", .null), ("phone", .null), ("email", .null)]] := by
  intro turn
  have hreceipt : (turn.result false {}).1 = .ok ⟨2, "User with this role already exists.",
    409⟩ := by
    rfl
  have hnew : turn.Introduces false {} [("username", .text "ann"), ("name", .null),
      ("surname", .null), ("sex", .null), ("phone", .null), ("email", .null)] :=
    ⟨rfl, newcomer, rfl, ⟨_, rfl, rfl⟩, ⟨_, rfl, rfl⟩, rfl, rfl⟩
  have hleft := (failed_change_leaves_tables turn false {} hreceipt (by decide)).2 _ hnew
  rw [hleft]
  exact ⟨hreceipt, rfl, rfl⟩

end SheetMill.Accounts
