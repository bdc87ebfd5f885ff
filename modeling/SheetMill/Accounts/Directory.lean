import SheetMill.Journal

/-!
# Finding users

Users are found by name, by name and role, or page by page. The pages count accounts, not users: a
user with several accounts may be on two pages.
-/

namespace SheetMill.Accounts

/-! ## Forms about users -/

/-- A kind of form: its fields, with the defaults of those that may be left out. -/
structure FormKind where
  name : String
  fields : List (String × Option Value)

namespace FormKind

def needed (names : List String) : List (String × Option Value) := names.map (·, none)

def spared (names : List String) : List (String × Option Value) := names.map (·, some .null)

def profile : FormKind :=
  ⟨"BaseUser", needed ["username"] ++ spared ["name", "surname", "sex", "phone", "email"]⟩

def user : FormKind := ⟨"User", profile.fields ++ needed ["rol"]⟩

def login : FormKind := ⟨"LoginUser", needed ["username", "password", "rol"]⟩

def search : FormKind := ⟨"SearchUser", needed ["username", "rol"]⟩

def creation : FormKind := ⟨"CreateUser", user.fields ++ needed ["password"]⟩

def update : FormKind := ⟨"UpdateUser",
  spared ["username", "name", "surname", "sex", "phone", "email", "password", "rol"]⟩

def member : FormKind := ⟨"AllUser", profile.fields ++ needed ["roles"]⟩

def account : FormKind := ⟨"UserRoles", needed ["username", "rol", "password"] ++
  [("is_active", some (.bool true)), ("inactivity", some .null)]⟩

def all : List FormKind := [profile, user, login, search, creation, update, member, account]

def ofName? (name : String) : Option FormKind := all.find? (·.name == name)

def names (k : FormKind) : List String := k.fields.map (·.1)

end FormKind

/-- A form with the fields that were given. -/
structure Form where
  kind : FormKind
  given : List (String × Value)

def FormKind.fill (k : FormKind) (fields : List (String × Value)) : Form :=
  ⟨k, k.names.filterMap fun name => (fields.lookup name).map (name, ·)⟩

namespace Form

def value? (f : Form) (name : String) : Option Value :=
  (f.given.lookup name).or ((f.kind.fields.lookup name).bind id)

def read (f : Form) (name : String) : Outcome Value :=
  match f.value? name with
  | some v => .ok v
  | none => .error (.noMember ("'" ++ f.kind.name ++ "' object has no attribute '" ++ name ++ "'"))

def whole (f : Form) : Outcome (List (String × Value)) :=
  f.kind.names.mapM fun name => return (name, ← f.read name)

def filled (f : Form) : List (String × Value) :=
  f.given.filter fun (_, v) => !v.same .null

end Form

/-- What is handed in as a form. -/
inductive Paper where
  | form (f : Form)
  | other (v : Value)

namespace Paper

def read (p : Paper) (name : String) : Outcome Value :=
  match p with
  | .form f => f.read name
  | .other v => .error (v.memberFault name)

def filled (p : Paper) : Outcome (List (String × Value)) :=
  match p with
  | .form f => .ok f.filled
  | .other v => .error (v.memberFault "model_dump")

def whole (p : Paper) : Outcome (List (String × Value)) :=
  match p with
  | .form f => f.whole
  | .other v => .error (v.memberFault "model_dump")

def toValue (p : Paper) : Outcome Value :=
  match p with
  | .form f => return .record (← f.whole)
  | .other v => .ok v

def of (k : FormKind) (fields : List (String × Value)) : Paper := .form (k.fill fields)

end Paper

/-! ## The tables of users -/

abbrev Row := List (String × Value)

namespace Row

/-- What a row holds under a name. -/
def read (row : Row) (name : String) : Value :=
  (row.lookup name).getD (if name == "is_active" then .bool true else .null)

def has (row : Row) (name : String) (v : Value) : Bool := (row.read name).same v

def isActive (row : Row) : Bool := (row.read "is_active").truthy

def put (row : Row) (name : String) (v : Value) : Row :=
  if (row.lookup name).isSome then row.map fun (k, w) => (k, if k == name then v else w)
  else row ++ [(name, v)]

def putAll (row : Row) (fields : List (String × Value)) : Row :=
  fields.foldl (fun row (name, v) => row.put name v) row

def columns (row : Row) (names : List String) : List (String × Value) :=
  names.map fun name => (name, row.read name)

end Row

def hashed (password : Value) : Outcome Value :=
  match password with
  | .text s => .ok (.text ("hashed:" ++ s))
  | v => .error (.wrongKind ("can only concatenate str (not \"" ++ v.kindName ++ "\") to str"))

/-- The profiles of the users, and their accounts, one for each role. -/
structure Tables where
  profiles : List Row := []
  accounts : List Row := []

def Tables.toValue (t : Tables) : Value := .record [
  ("info", .list (t.profiles.map .record)), ("roles", .list (t.accounts.map .record))]

def Tables.ofValue (v : Value) : Tables where
  profiles := (v.seq "info").map Value.fields
  accounts := (v.seq "roles").map Value.fields

/-- What is reported of a session. -/
inductive Deed where
  | commit
  | close
  deriving Repr, DecidableEq

/-- The tables as a session sees them and as they were last saved. -/
structure Session where
  tables : Tables := {}
  saved : Tables := tables
  commitFaults : List (Option Fault) := []
  today : String := "1970-01-01"
  deeds : List Deed := []

abbrev Work := Act Session

def mark (deed : Deed) : Work Unit := modify fun s => { s with deeds := s.deeds ++ [deed] }

def commit : Work Unit := do
  mark .commit
  let s ← get
  match s.commitFaults with
  | some fault :: rest =>
    set { s with commitFaults := rest }
    throw fault
  | none :: rest => set { s with commitFaults := rest, saved := s.tables }
  | [] => set { s with saved := s.tables }

def rollback : Work Unit := modify fun s => { s with tables := s.saved }

def closeSession : Work Unit := mark .close

def change (f : Tables → Tables) : Work Unit := modify fun s => { s with tables := f s.tables }

/-! ## Finding users -/

/-- An account that is looked for. -/
structure Sought where
  username : Value
  role : Value

def Paper.sought (p : Paper) : Outcome Sought := do
  let username ← p.read "username"
  return ⟨username, ← p.read "rol"⟩

def Sought.paper (s : Sought) : Paper :=
  .of .search [("username", s.username), ("rol", s.role)]

namespace Tables

def isSought (sought : Sought) (activeOnly : Bool) (a : Row) : Bool :=
  a.has "username" sought.username && a.has "rol" sought.role && (!activeOnly || a.isActive)

def account? (t : Tables) (sought : Sought) (activeOnly : Bool := true) : Option Row :=
  t.accounts.find? (isSought sought activeOnly)

def accountOf? (t : Tables) (username : Value) (activeOnly : Bool := true) : Option Row :=
  t.accounts.find? fun a => a.has "username" username && (!activeOnly || a.isActive)

def authenticate? (t : Tables) (p : Paper) : Outcome (Option Row) := do
  match t.account? (← p.sought) with
  | none => return none
  | some account =>
    let isRight := account.has "password" (← hashed (← p.read "password"))
    return if isRight then some account else none

def joined (t : Tables) (activeOnly : Bool) : List (Row × Row) :=
  t.profiles.flatMap fun p =>
    (t.accounts.filter fun a =>
      (p.read "username").same (a.read "username") && (!activeOnly || a.isActive)).map (p, ·)

end Tables

/-- A user with the accounts that were found. -/
structure Member where
  profile : Row
  accounts : List Row

def roleOf (account : Row) : Value := .record (account.columns ["rol", "is_active"])

def Member.form (m : Member) (withRoles : Bool) : Form :=
  let fields := m.profile.columns FormKind.profile.names
  if withRoles then
    FormKind.member.fill (fields ++ [("roles", .list (m.accounts.map roleOf))])
  else FormKind.profile.fill fields

def Tables.member? (t : Tables) (username : Value) (activeOnly : Bool := true) : Option Member :=
  match (t.joined activeOnly).filter fun (p, _) => p.has "username" username with
  | [] => none
  | (p, a) :: rest => some ⟨p, a :: rest.map (·.2)⟩

def addPair (pair : Row × Row) : List Member → List Member
  | [] => [⟨pair.1, [pair.2]⟩]
  | m :: rest =>
    if m.profile.has "username" (pair.1.read "username") then
      { m with accounts := m.accounts ++ [pair.2] } :: rest
    else m :: addPair pair rest

def membersOf (pairs : List (Row × Row)) : Outcome (List Member) :=
  match (pairs.map fun (p, _) => p.read "username").find? (!·.isKey) with
  | some name => .error name.keyFault
  | none => .ok (pairs.foldl (fun members pair => addPair pair members) [])

/-- The number of items that an index cuts off in front; a negative one counts from the back. -/
def cutAt (length : Nat) (index : Int) : Nat :=
  (if index < 0 then max 0 (index + length) else min index length).toNat

def itemsFrom {α : Type} (items : List α) (index : Int) : List α :=
  items.drop (cutAt items.length index)

def itemsUpTo {α : Type} (items : List α) (index : Int) : List α :=
  items.take (cutAt items.length index)

/-- A page of a list of users. -/
structure Page where
  members : List Member := []
  total : Int := 0
  page : Value
  limit : Value
  pages : Int := 0
  hasNext : Bool := false
  hasPrevious : Bool := false

/-- A page of users, each page with up to `limit` accounts. -/
def Tables.page (t : Tables) (activeOnly : Bool) (limit page : Value) : Outcome Page :=
  match limit.asInt?, page.asInt? with
  | some most, some place => do
    let all := t.joined activeOnly
    match itemsUpTo (itemsFrom all ((place - 1) * most)) most with
    | [] => return { page, limit }
    | pairs =>
      let total : Int := all.length
      let pages := (total + most - 1).fdiv most
      return ⟨← membersOf pairs, total, page, limit, pages, place < pages, 1 < place⟩
  | _, _ => .error (.wrongKind
      "slice indices must be integers or None or have an __index__ method")

def Page.toValue (p : Page) (withRoles : Bool) : Outcome Value := do
  let items ← p.members.mapM fun m => return Value.record (← (m.form withRoles).whole)
  return .record [
    ("items", .list items), ("total", .int p.total), ("page", p.page), ("limit", p.limit),
    ("total_pages", .int p.pages), ("has_next", .bool p.hasNext), ("has_prev", .bool p.hasPrevious)]

/-- Whether an address and a number are new. -/
structure Novelty where
  email : Bool
  phone : Bool

/-- Whether an e-mail address and a telephone number are new, one user being left out of account. -/
def Tables.novelty (t : Tables) (email phone except : Value) : Novelty :=
  let others := t.profiles.filter fun p => !(except.truthy && p.has "username" except)
  let isNew (name : String) (given : Value) : Bool :=
    !(given.truthy && others.any (·.has name given))
  ⟨isNew "email" email, isNew "phone" phone⟩

def Novelty.toValue (n : Novelty) : Value :=
  .record [("email_valid", .bool n.email), ("phone_valid", .bool n.phone)]

end SheetMill.Accounts
