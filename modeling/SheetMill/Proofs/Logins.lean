import SheetMill.Proofs.AccountChanges

/-!
# Administrators, and logging in after a user was created

A new account takes the password of the request. A closed account that is opened again keeps the
password that it had: the request changes its state only. What other users can log in with stays.
-/

namespace SheetMill.Accounts

/-! ## Who becomes an administrator -/

open Value

def Row.isAdmin (a : Row) : Bool := isAdminRole (a.read "rol")

def Tables.admins (t : Tables) : List Row := t.accounts.filter Row.isAdmin

def Tables.HasAdmin (t : Tables) (username : String) : Prop :=
  ∃ a ∈ t.admins, a.read "username" = .text username

def Request.AsksForAdmin (request : Request) : Prop :=
  ∃ username role fs, request = .update username role fs ∧ fs.text? "rol" = some "admin"

/-- A successful update gives the role of an administrator to a user, under the name that the user
has from then on. -/
def Promotes (request : Request) (out : Outcome Receipt) (username : String) : Prop :=
  ∃ name role fs receipt, request = .update name role fs ∧ out = .ok receipt ∧
    receipt.number = 0 ∧ fs.text? "rol" = some "admin" ∧
    (fs.text? "username").getD name = username

/-! ## One change -/

section Step

variable {t t' : Tables} {fault? : Option Fault} {request : Request} {out : Outcome Receipt}

theorem isAdmin_iff {a : Row} : a.isAdmin = true ↔ a.read "rol" = .text "admin" := same_text_right

theorem isAdmin_congr {a b : Row} (h : a.read "rol" = b.read "rol") : a.isAdmin = b.isAdmin := by
  unfold Row.isAdmin
  rw [h]

theorem isAdmin_of_isSought {sought : Sought} {activeOnly : Bool} {a : Row}
    (h : Tables.isSought sought activeOnly a = true) (hrole : isAdminRole sought.role = false) :
    a.isAdmin = false := by
  rw [Bool.eq_false_iff]
  intro hadmin
  have hhas : (a.read "rol").same sought.role = true := by
    simp only [Tables.isSought, Bool.and_eq_true] at h
    exact h.1.2
  rw [isAdmin_iff.mp hadmin, Tables.same_text_left] at hhas
  unfold isAdminRole at hrole
  rw [hhas] at hrole
  cases hrole

theorem filter_replaced {before after : List Row} {a a' : Row} (h : a.isAdmin = false)
    (h' : a'.isAdmin = false) :
    (before ++ a' :: after).filter Row.isAdmin = (before ++ a :: after).filter Row.isAdmin := by
  simp [List.filter_append, h, h']

theorem admins_of_opened {p : Paper} {sought : Sought} {receipt : Receipt}
    (h : Opened t p sought receipt t')
    (hrole : isAdminRole sought.role = false) : t'.admins = t.admins := by
  cases h with
  | @added _ password =>
    have hnew : (sought.account password).isAdmin = false := hrole
    simp [Tables.admins, List.filter_append, hnew]
  | again hloc =>
    have hold := isAdmin_of_isSought hloc.found hrole
    unfold Tables.admins
    rw [hloc.eq]
    refine filter_replaced hold ((isAdmin_congr ?_).trans hold)
    rw [Row.read_put, if_neg (by decide)]

/-- One change leaves the accounts of administrators as they are, or adds one to them: the sought one
of an update that asks for the role. -/
theorem Effect.admins (h : Effect false fault? t request out t') :
    (t'.admins = t.admins ∧ ∀ u, ¬ Promotes request out u) ∨
      ∃ u before a after, (∀ v, Promotes request out v ↔ v = u) ∧ t.admins = before ++ after ∧
        t'.admins = before ++ a :: after ∧ a.read "username" = .text u := by
  cases h with
  | refused hfail =>
    refine .inl ⟨rfl, ?_⟩
    rintro u ⟨_, _, _, receipt, -, hout, hzero, -⟩
    exact hfail receipt hout hzero
  | introduced => exact .inl ⟨rfl, by rintro u ⟨_, _, _, _, ⟨⟩, -⟩⟩
  | @created fs receipt sought t1 _ hzero hsought hperm hknown hopened =>
    have hrole' : isAdminRole sought.role = false := by simpa using hperm
    refine .inl ⟨(admins_of_opened hopened hrole').trans ?_, by rintro u ⟨_, _, _, _, ⟨⟩, -⟩⟩
    rcases hknown with rfl | ⟨profile, -, rfl⟩
    · rfl
    · rfl
  | @updated username role fs receipt member _ _ accounts hzero hmem hperm _ _ haccs =>
    have hpromotes : ∀ v, Promotes (.update username role fs) (.ok receipt) v ↔
        fs.text? "rol" = some "admin" ∧ (fs.text? "username").getD username = v := by
      intro v
      constructor
      · rintro ⟨_, _, _, _, ⟨⟩, ⟨⟩, -, hasked, hname⟩
        exact ⟨hasked, hname⟩
      · rintro ⟨hasked, hname⟩
        exact ⟨_, _, _, _, rfl, rfl, hzero, hasked, hname⟩
    cases haccs with
    | none _ _ hrole =>
      refine .inl ⟨rfl, fun u hu => ?_⟩
      rw [hpromotes, hrole] at hu
      cases hu.1
    | @some before after a a' hloc hrevised =>
      have huser := username_of_isSought hloc.found
      -- the sought account is one of the member's, none of which is an administrator's
      have hold : a.isAdmin = false := by
        refine (hperm.resolve_left (by decide)) a (Tables.mem_accounts_of_member? hmem ?_)
        exact List.mem_filter.mpr ⟨hloc.mem, by simp [Row.has_text.mpr huser]⟩
      by_cases hasked : fs.text? "rol" = some "admin"
      · refine .inr ⟨(fs.text? "username").getD username, before.filter Row.isAdmin, a',
          after.filter Row.isAdmin, fun v => ?_, ?_, ?_, ?_⟩
        · rw [hpromotes]
          exact ⟨fun h => h.2.symm, fun h => ⟨hasked, h.symm⟩⟩
        · simp [Tables.admins, hloc.eq, List.filter_append, hold]
        · have hnew : a'.isAdmin = true := by
            rw [isAdmin_iff, hrevised.role, hasked]
            rfl
          simp [Tables.admins, List.filter_append, hnew]
        · rw [hrevised.username, huser]
          cases fs.text? "username" <;> rfl
      · refine .inl ⟨?_, fun u hu => hasked ((hpromotes u).mp hu).1⟩
        have hnew : a'.isAdmin = false := by
          rw [Bool.eq_false_iff, ne_eq, isAdmin_iff, hrevised.role]
          cases hrole : fs.text? "rol" with
          | none => exact fun h => by simp [isAdmin_iff.mpr h] at hold
          | some r =>
            rw [hrole] at hasked
            simpa using hasked
        unfold Tables.admins
        rw [hloc.eq]
        exact filter_replaced hold hnew
  | @closed username role today receipt before after a hzero hperm hloc =>
    have hrole : isAdminRole (.text role) = false := by simpa using hperm
    have hold := isAdmin_of_isSought hloc.found hrole
    refine .inl ⟨?_, by rintro u ⟨_, _, _, _, ⟨⟩, -⟩⟩
    unfold Tables.admins
    rw [hloc.eq]
    refine filter_replaced hold ((isAdmin_congr ?_).trans hold)
    exact Row.read_putAll_of_not_mem (by simp) a
  | @removed username role receipt before after a hzero hperm hloc =>
    have hrole : isAdminRole (.text role) = false := by simpa using hperm
    have hold := isAdmin_of_isSought hloc.found hrole
    refine .inl ⟨?_, by rintro u ⟨_, _, _, _, ⟨⟩, -⟩⟩
    simp [Tables.admins, hloc.eq, List.filter_append, hold]

theorem Effect.sublist_admins (h : Effect false fault? t request out t') :
    t.admins.Sublist t'.admins := by
  rcases h.admins with ⟨hsame, -⟩ | ⟨u, before, a, after, -, hold, hnew, -⟩
  · rw [hsame]
  · rw [hold, hnew]
    exact (List.sublist_cons_self a after).append_left before

theorem Effect.hasAdmin_iff (h : Effect false fault? t request out t') (username : String) :
    t'.HasAdmin username ↔ t.HasAdmin username ∨ Promotes request out username := by
  unfold Tables.HasAdmin
  rcases h.admins with ⟨hsame, hnone⟩ | ⟨u, before, a, after, hpromotes, hold, hnew, hname⟩
  · rw [hsame]
    exact ⟨.inl, fun h => h.resolve_right (hnone username)⟩
  · have hmem : ∀ b, b ∈ t'.admins ↔ b ∈ t.admins ∨ b = a := by
      intro b
      rw [hold, hnew, List.mem_append, List.mem_append, List.mem_cons]
      tauto
    rw [hpromotes]
    constructor
    · rintro ⟨b, hb, hread⟩
      rcases (hmem b).mp hb with hb | rfl
      · exact .inl ⟨b, hb, hread⟩
      · exact .inr (Value.text.inj (hread.symm.trans hname))
    · rintro (⟨b, hb, hread⟩ | rfl)
      · exact ⟨b, (hmem b).mpr (.inl hb), hread⟩
      · exact ⟨a, (hmem a).mpr (.inr rfl), hname⟩

theorem Effect.admins_eq (h : Effect false fault? t request out t')
    (hasks : ¬ request.AsksForAdmin) : t'.admins = t.admins := by
  rcases h.admins with ⟨hsame, -⟩ | ⟨u, _, _, _, hpromotes, -⟩
  · exact hsame
  · obtain ⟨name, role, fs, _, hreq, -, -, hrole, -⟩ := (hpromotes u).mpr rfl
    exact absurd ⟨name, role, fs, hreq, hrole⟩ hasks

end Step

/-! ## Sequences of changes -/

def afterTurns (turns : List Turn) (t : Tables) : Tables :=
  turns.foldl (fun t turn => (turn.result false t).2) t

theorem sublist_admins_afterTurns (turns : List Turn) (t : Tables) :
    t.admins.Sublist (afterTurns turns t).admins := by
  induction turns generalizing t with
  | nil => exact .refl _
  | cons turn turns ih => exact (turn.effect false t).sublist_admins.trans (ih _)

theorem hasAdmin_afterTurns (turns : List Turn) (t : Tables) (username : String) :
    (afterTurns turns t).HasAdmin username ↔ t.HasAdmin username ∨
      ∃ before turn after, turns = before ++ turn :: after ∧
        Promotes turn.request (turn.result false (afterTurns before t)).1 username := by
  induction turns generalizing t with
  | nil => simp [afterTurns]
  | cons turn turns ih =>
    have hstep : afterTurns (turn :: turns) t = afterTurns turns (turn.result false t).2 := rfl
    rw [hstep, ih, (turn.effect false t).hasAdmin_iff, or_assoc]
    refine or_congr_right ?_
    -- the turn that promotes is the first one, or one of those after it
    constructor
    · rintro (hfst | ⟨before, later, after, rfl, hlater⟩)
      · exact ⟨[], turn, turns, rfl, hfst⟩
      · exact ⟨turn :: before, later, after, rfl, hlater⟩
    · rintro ⟨before, later, after, hturns, hlater⟩
      cases before with
      | nil =>
        cases hturns
        exact .inl hlater
      | cons first before =>
        cases hturns
        exact .inr ⟨before, later, after, rfl, hlater⟩

theorem admins_afterTurns {turns : List Turn} (h : ∀ turn ∈ turns, ¬ turn.request.AsksForAdmin)
    (t : Tables) : (afterTurns turns t).admins = t.admins := by
  induction turns generalizing t with
  | nil => rfl
  | cons turn turns ih =>
    rw [List.forall_mem_cons] at h
    exact (ih h.2 _).trans ((turn.effect false t).admins_eq h.1)

/-- Along any sequence of changes that are not made for the administration, no account of an
administrator is changed or removed, and a user has the role of an administrator afterwards if and
only if the user had it before or a successful update gave it. Without requests for the role in
updates the accounts of administrators are exactly those from before. -/
theorem admins_gained_by_updates_only (turns : List Turn) (t : Tables) :
    t.admins.Sublist (afterTurns turns t).admins ∧
      (∀ username, (afterTurns turns t).HasAdmin username ↔ t.HasAdmin username ∨
        ∃ before turn after, turns = before ++ turn :: after ∧
          Promotes turn.request (turn.result false (afterTurns before t)).1 username) ∧
      ((∀ turn ∈ turns, ¬ turn.request.AsksForAdmin) → (afterTurns turns t).admins = t.admins) := by
  exact ⟨sublist_admins_afterTurns turns t, hasAdmin_afterTurns turns t,
    fun hasks => admins_afterTurns hasks t⟩

def upstart : Turn := { request := .update "bob" "user" [("rol", some "admin")] }

def oneUser : Tables where
  profiles := [[("username", .text "bob")]]
  accounts := [[("username", .text "bob"), ("rol", .text "user"), ("password", .text "hashed:b"),
    ("is_active", .bool true)]]

theorem admins_gained_by_updates_only_upstart :
    ¬ oneUser.HasAdmin "bob" ∧ (afterTurns [upstart] oneUser).HasAdmin "bob" := by
  refine ⟨?_, ?_⟩
  · rintro ⟨a, ha, -⟩
    have hnone : oneUser.admins = [] := rfl
    rw [hnone] at ha
    cases ha
  · refine ((admins_gained_by_updates_only [upstart] oneUser).2.1 "bob").mpr (.inr ?_)
    exact ⟨[], upstart, [], rfl, _, _, _, _, rfl, rfl, rfl, rfl, rfl⟩

/-! ## Logging in after a user was created -/

open List

variable {t t' : Tables} {a : Row} {username role password other role' : String}
  {fields : TextFields} {receipt : Receipt} {p : Paper} {activeOnly : Bool}

def login (username role password : String) : Paper :=
  .of .login [("username", .text username), ("rol", .text role), ("password", .text password)]

/-- The user can log in with the password. -/
def Tables.Admits (t : Tables) (username role password : String) : Prop :=
  ∃ account, t.authenticate? (login username role password) = .ok (some account)

def Row.Takes (a : Row) (password : String) : Prop :=
  a.read "password" = .text ("hashed:" ++ password)

theorem Tables.admits_iff :
    t.Admits username role password ↔ ∃ a ∈ t.account? (seek username role), a.Takes password := by
  have hsought : (login username role password).sought = .ok (seek username role) := rfl
  unfold Admits authenticate?
  rw [hsought, Outcome.ok_bind]
  cases t.account? (seek username role) with
  | none => simp
  | some a =>
    change (∃ account, (Except.ok (if a.has "password" (.text ("hashed:" ++ password)) then some a
      else none) : Outcome (Option Row)) = .ok (some account)) ↔ _
    simp [Row.Takes, Row.has_text]

/-! ## Which account is found -/

theorem isSought_seek :
    Tables.isSought (seek username role) activeOnly a = true ↔ a.read "username" = .text username ∧
      a.read "rol" = .text role ∧ (activeOnly = true → a.isActive = true) := by
  cases activeOnly <;> simp [Tables.isSought, seek, Row.has_text, and_assoc]

theorem isSought_of_ne (hne : (other, role') ≠ (username, role))
    (h : Tables.isSought (seek username role) false a = true) :
    Tables.isSought (seek other role') activeOnly a = false := by
  obtain ⟨huser, hrole, -⟩ := isSought_seek.mp h
  rw [Bool.eq_false_iff, ne_eq, isSought_seek, huser, hrole]
  rintro ⟨⟨⟩, ⟨⟩, -⟩
  exact hne rfl

theorem isSought_active (h : Tables.isSought (seek username role) false a = false) :
    Tables.isSought (seek username role) true a = false := by
  rw [Bool.eq_false_iff, ne_eq, isSought_seek] at h ⊢
  exact fun hsought => h ⟨hsought.1, hsought.2.1, nofun⟩

theorem isSought_put (sought : Sought) (v : Value) :
    Tables.isSought sought false (a.put "is_active" v) = Tables.isSought sought false a := by
  simp [Tables.isSought, Row.has, Row.read_put]

namespace Opened

variable (h : Opened t p (seek username role) receipt t')

include h

theorem account?_of_ne (hne : (other, role') ≠ (username, role)) :
    t'.account? (seek other role') = t.account? (seek other role') := by
  unfold Tables.account?
  cases h with
  | @added _ hash =>
    have hnew : Tables.isSought (seek other role') true ((seek username role).account hash) = false :=
      isSought_of_ne hne (isSought_seek.mpr ⟨rfl, rfl, nofun⟩)
    simp [find?_append, hnew]
  | @again _ _ a hloc _ =>
    have hnew : Tables.isSought (seek other role') true (a.put "is_active" (.bool true)) = false :=
      isSought_of_ne hne ((isSought_put _ _).trans hloc.found)
    rw [hloc.eq, find?_append, find?_append, find?_cons, find?_cons, isSought_of_ne hne hloc.found, hnew]

/-- The account of the user is found afterwards, with the password of the request if it is new and
with the one that it had otherwise. -/
theorem admits_iff (hgiven : p.read "password" = .ok (.text password)) :
    (t.account? (seek username role) false = none ∧ receipt.status = 201 ∧
      ∀ q, t'.Admits username role q ↔ q = password) ∨
    ∃ a, t.account? (seek username role) false = some a ∧ a.isActive = false ∧
      receipt.status = 200 ∧ ∀ q, t'.Admits username role q ↔ a.Takes q := by
  cases h with
  | added hnone hread hhash =>
    cases hgiven.symm.trans hread
    cases hhash
    have hloc : Located (Tables.isSought (seek username role) true) _ t.accounts
        ((seek username role).account (.text ("hashed:" ++ password))) [] :=
      ⟨rfl, isSought_seek.mpr ⟨rfl, rfl, fun _ => rfl⟩, fun b hb =>
        isSought_active (by simpa using find?_eq_none.mp hnone b hb)⟩
    refine .inl ⟨hnone, rfl, fun q => ?_⟩
    rw [Tables.admits_iff, Tables.account?, hloc.find?]
    simp [Row.Takes, Sought.account, Row.read, lookup, eq_comm]
  | @again before after a hloc hclosed =>
    obtain ⟨huser, hrole, -⟩ := isSought_seek.mp ((isSought_put _ (.bool true)).trans hloc.found)
    have hactive : (a.put "is_active" (.bool true)).isActive = true := by
      rw [Row.isActive, Row.read_put, if_pos rfl]
      rfl
    have hloc' : Located (Tables.isSought (seek username role) true) _ before _ after :=
      ⟨rfl, isSought_seek.mpr ⟨huser, hrole, fun _ => hactive⟩, fun b hb =>
        isSought_active (hloc.first b hb)⟩
    refine .inr ⟨a, hloc.find?, hclosed, rfl, fun q => ?_⟩
    rw [Tables.admits_iff, Tables.account?, hloc'.find?]
    simp [Row.Takes, Row.read_put]

end Opened

/-! ## Creating and logging in -/

theorem TextFields.read_creation {name content : String} (hname : name ∈ FormKind.creation.names)
    (h : fields.text? name = some content) : fields.creation.read name = .ok (.text content) := by
  have hlook : fields.lookup name = some (some content) := Option.join_eq_some_iff.mp h
  have hvalue : (FormKind.creation.fill fields.values).value? name = some (.text content) := by
    rw [Form.value?, FormKind.lookup_fill, if_pos hname, lookup_values, hlook]
    rfl
  change (FormKind.creation.fill fields.values).read name = _
  rw [Form.read, hvalue]

/-- After a user was created, a new account admits exactly the password of the request. An account
that was closed admits exactly the password that it had, whatever the request says. Any other user
in any other role is admitted with the same passwords as before. -/
theorem created_user_admitted (huser : fields.text? "username" = some username)
    (hrole : fields.text? "rol" = some role) (hpassword : fields.text? "password" = some password)
    (faults : List (Option Fault)) (today : String) (byAdmin : Bool) (t : Tables) {receipt : Receipt}
    (hreceipt : ((⟨.create fields, faults, today⟩ : Turn).result byAdmin t).1 = .ok receipt)
    (hzero : receipt.number = 0) :
    let t' := ((⟨.create fields, faults, today⟩ : Turn).result byAdmin t).2
    (∀ other role' q, (other, role') ≠ (username, role) →
      (t'.Admits other role' q ↔ t.Admits other role' q)) ∧
    ((t.account? (seek username role) false = none ∧ receipt.status = 201 ∧
        ∀ q, t'.Admits username role q ↔ q = password) ∨
      ∃ a, t.account? (seek username role) false = some a ∧ a.isActive = false ∧
        receipt.status = 200 ∧ ∀ q, t'.Admits username role q ↔ a.Takes q) := by
  intro t'
  have heffect := (⟨.create fields, faults, today⟩ : Turn).effect byAdmin t
  rw [hreceipt] at heffect
  change Effect byAdmin _ t (.create fields) (.ok receipt) t' at heffect
  generalize t' = t' at heffect ⊢
  cases heffect with
  | refused hfailed => exact absurd hzero (hfailed receipt rfl)
  | introduced hfailed => exact absurd hzero (hfailed receipt rfl)
  | @created _ _ sought t₁ _ _ hsought _ hknown hopened =>
    have hseek : seek username role = sought := by
      rw [Paper.sought, TextFields.read_creation (by decide) huser, Outcome.ok_bind,
        TextFields.read_creation (by decide) hrole] at hsought
      exact Except.ok.inj hsought
    subst hseek
    have hsame : t₁.accounts = t.accounts := by
      rcases hknown with rfl | ⟨profile, -, rfl⟩
      · rfl
      · rfl
    have hfound : ∀ sought activeOnly, t₁.account? sought activeOnly = t.account? sought activeOnly := by
      intro sought activeOnly
      rw [Tables.account?, hsame]
      rfl
    refine ⟨fun other role' q hne => ?_, ?_⟩
    · rw [Tables.admits_iff, Tables.admits_iff, hopened.account?_of_ne hne, hfound]
    · rw [← hfound]
      exact hopened.admits_iff (TextFields.read_creation (by decide) hpassword)

theorem created_user_admitted_newcomer :
    ((⟨.create newcomer, [], ""⟩ : Turn).result false {}).1 =
        .ok ⟨0, "User created successfully.", 201⟩ ∧
      ∀ q, ((⟨.create newcomer, [], ""⟩ : Turn).result false {}).2.Admits "ann" "user" q ↔
        q = "p" := by
  have hreceipt : ((⟨.create newcomer, [], ""⟩ : Turn).result false {}).1 =
      .ok ⟨0, "User created successfully.", 201⟩ := rfl
  refine ⟨hreceipt, ?_⟩
  rcases (created_user_admitted rfl rfl rfl [] "" false {} hreceipt rfl).2 with h | ⟨a, ha, -⟩
  · exact h.2.2
  · cases ha

def closedUser : Tables where
  profiles := [[("username", .text "bob")]]
  accounts := [[("username", .text "bob"), ("rol", .text "user"), ("password", .text "hashed:old"),
    ("is_active", .bool false)]]

/-- The account is opened again, and the password that was given with it is not the one to log in
with. -/
theorem reopened_account_refuses_password :
    let turn : Turn := ⟨.create [("username", some "bob"), ("rol", some "user"),
      ("password", some "new")], [], ""⟩
    (turn.result true closedUser).1 = .ok ⟨0, "User activated successfully.", 200⟩ ∧
      ¬ (turn.result true closedUser).2.Admits "bob" "user" "new" := by
  refine ⟨rfl, ?_⟩
  rintro ⟨account, haccount⟩
  cases haccount

end SheetMill.Accounts
