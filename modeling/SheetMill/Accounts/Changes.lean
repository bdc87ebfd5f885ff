import SheetMill.Accounts.Directory
import SheetMill.Text.Casing

/-!
# Changing users

A change ends with a receipt: a number, zero for success, a message and a status. Only those who act
for the administration may touch administrators.
-/

namespace SheetMill.Accounts

/-!
## Formats of contact data

Which texts are e-mail addresses and telephone numbers.
-/

def isLabelChar (c : Char) : Bool := c.isAlphanum || c = '-'

def isMailboxChar (c : Char) : Bool := isLabelChar c || c = '_' || c = '.' || c = '+'

def isDomainChar (c : Char) : Bool := isLabelChar c || c = '.'

def withoutLineEnd (cs : List Char) : List Char :=
  if cs.getLast? = some '\n' then cs.dropLast else cs

/-- What follows the first character that is not of the kind, if that character is the given one and
some characters of the kind stand before it. -/
def afterSome (kind : Char → Bool) (mark : Char) (cs : List Char) : Option (List Char) :=
  match cs.takeWhile kind, cs.dropWhile kind with
  | _ :: _, c :: rest => if c = mark then some rest else none
  | _, _ => none

def isEmail (s : String) : Bool :=
  match afterSome isMailboxChar '@' (withoutLineEnd s.toList) with
  | none => false
  | some domain =>
    match afterSome isLabelChar '.' domain with
    | none => false
    | some rest => !rest.isEmpty && rest.all isDomainChar

def afterDigits : Nat → List Char → Option (List Char)
  | 0, cs => some cs
  | _ + 1, [] => none
  | n + 1, c :: cs => if Text.isDecimal c then afterDigits n cs else none

def afterGap : List Char → List Char
  | c :: cs => if c = '-' || Text.isBlank c then cs else c :: cs
  | [] => []

def isPhone (s : String) : Bool :=
  let found := do
    let first ← afterDigits 3 (withoutLineEnd s.toList)
    let second ← afterDigits 3 (afterGap first)
    afterDigits 4 (afterGap second)
  found == some []

def fits (format : String → Bool) (v : Value) : Outcome Bool :=
  match v with
  | .text s => .ok (format s)
  | .bytes _ => .error (.wrongKind "cannot use a string pattern on a bytes-like object")
  | v => .error (.wrongKind ("expected string or bytes-like object, got '" ++ v.kindName ++ "'"))

/-! ## Changes -/

/-- What a change answers. -/
structure Receipt where
  number : Int
  message : String
  status : Int
  deriving Repr, DecidableEq

def Receipt.toValue (r : Receipt) : Value := .record [
  ("number", .int r.number), ("message", .text r.message), ("status", .int r.status)]

/-- The constraint that a store reports as violated. -/
structure Violated where
  field : String
  message : String
  number : Int

def Violated.ofMessage (message : String) : Violated :=
  let text := Text.lower message
  if Text.contains text "email" then ⟨"email", "Email already exists.", 4⟩
  else if Text.contains text "phone" then ⟨"phone", "Phone number already exists.", 5⟩
  else if Text.contains text "username" || Text.contains text "user_info_pkey" then
    ⟨"username", "Username already exists.", 3⟩
  else if Text.contains text "unique_user_rol" then
    ⟨"user_role", "User with this role already exists.", 2⟩
  else ⟨"unknown", "Database constraint violation.", 409⟩

def Violated.toValue (v : Violated) : Value := .record [
  ("field", .text v.field), ("message", .text v.message), ("number", .int v.number)]

/-- Does a change, and takes it back if there is trouble; the receipt then depends on whether a
constraint was violated. -/
def guarded (violated : String → Receipt) (work : Work Receipt) : Work Receipt :=
  work.handle fun fault => do
    rollback
    match fault with
    | .integrity message => return violated message
    | fault => return ⟨500, "Unexpected error: " ++ fault.literal, 500⟩

def namedViolation (message : String) : Receipt :=
  let v := Violated.ofMessage message
  ⟨v.number, v.message, 409⟩

def reportedViolation (what message : String) : Receipt :=
  ⟨409, "Cannot delete user due to " ++ what ++ " constraints: " ++ (Fault.integrity message).literal,
    409⟩

/-- Why contact data cannot be taken over, if so. -/
def malformed? (email phone : Outcome Value) : Outcome (Option Receipt) := do
  let isWrong (format : String → Bool) (v : Value) : Outcome Bool :=
    if v.same .null then .ok false else (! ·) <$> fits format v
  if ← isWrong isEmail (← email) then return some ⟨4, "Invalid email format.", 400⟩
  if ← isWrong isPhone (← phone) then return some ⟨5, "Invalid phone format.", 400⟩
  return none

def isAdminRole (role : Value) : Bool := role.same (.text "admin")

/-! ## Creating -/

def Tables.objection? (t : Tables) (p : Paper) : Outcome (Option Receipt) := do
  if let some receipt ← malformed? (p.read "email") (p.read "phone") then
    return some receipt
  let novelty := t.novelty (← p.read "email") (← p.read "phone") .null
  return if !novelty.email then some ⟨3, "Email already exists.", 409⟩
    else if !novelty.phone then some ⟨4, "Phone number already exists.", 409⟩
    else none

def openAccount (p : Paper) (sought : Sought) : Work Receipt := do
  let t := (← get).tables
  match t.account? sought false with
  | none =>
    let password ← hashed (← p.read "password")
    change fun t => { t with accounts := t.accounts ++ [[("username", sought.username),
      ("rol", sought.role), ("password", password), ("is_active", .bool true)]] }
    commit
    return ⟨0, "User created successfully.", 201⟩
  | some account =>
    if account.isActive then
      return ⟨2, "Active user with same username and role already exists.", 409⟩
    change fun t => { t with
      accounts := t.accounts.modify (t.accounts.findIdx (Tables.isSought sought false))
        (·.put "is_active" (.bool true)) }
    commit
    return ⟨0, "User activated successfully.", 200⟩

/-- Adds a user, or a role to a user who is known. -/
def create (p : Paper) (byAdmin : Bool) : Work Receipt := do
  let role ← p.read "rol"
  if isAdminRole role && !byAdmin then return ⟨1, "Cannot create admin user.", 403⟩
  let username ← p.read "username"
  let known := ((← get).tables.member? username false).isSome
  guarded namedViolation do
    if !known then
      if let some receipt ← (← get).tables.objection? p then return receipt
      let profile ← (FormKind.profile.names.mapM fun name => return (name, ← p.read name) :
        Outcome Row)
      change fun t => { t with profiles := t.profiles ++ [profile] }
      commit
    openAccount p ⟨username, role⟩

/-! ## Updating -/

def profilePart (changes : List (String × Value)) : List (String × Value) :=
  changes.filter fun (name, _) => FormKind.profile.names.contains name

def accountPart (changes : List (String × Value)) : List (String × Outcome Value) :=
  (changes.filter (·.1 == "username") ++
    changes.filter fun (name, _) => ["password", "rol"].contains name).map fun (name, v) =>
      (name, if name == "password" then hashed v else .ok v)

def Tables.updateObjection? (t : Tables) (profile : Row) (changes : List (String × Value)) :
    Outcome (Option Receipt) := do
  let taken := (changes.lookup "username").any fun name =>
    !profile.has "username" name && (t.accountOf? name false).isSome
  if taken then return some ⟨3, "Username already exists.", 409⟩
  let given (name : String) : Value := (changes.lookup name).getD .null
  if let some receipt ← malformed? (.ok (given "email")) (.ok (given "phone")) then
    return some receipt
  let different (name : String) : Value :=
    if profile.has name (given name) then .null else given name
  let novelty := t.novelty (different "email") (different "phone") (profile.read "username")
  return if !novelty.email then
      some ⟨4, "Email already exists. " ++ (given "email").plain, 409⟩
    else if !novelty.phone then
      some ⟨5, "Phone number already exists. " ++ (given "phone").plain, 409⟩
    else none

def updatedAccount (account : Option Row) (changes : List (String × Outcome Value)) :
    Outcome (Option Row) :=
  changes.foldlM (fun account (name, v) => do
    let v ← v
    match account with
    | some row => return some (row.put name v)
    | none => throw (Value.null.memberFault name)) account

/-- Changes a user. -/
def update (search changes : Paper) (byAdmin : Bool) : Work Receipt := do
  let username ← search.read "username"
  match (← get).tables.member? username false with
  | none => return ⟨1, "User does not exist.", 404⟩
  | some member =>
    if !byAdmin && member.accounts.any fun a => isAdminRole (a.read "rol") then
      return ⟨2, "Cannot edit administrator user.", 403⟩
    guarded namedViolation do
      let t := (← get).tables
      let sought ← search.sought
      let changes ← changes.filled
      if let some receipt ← t.updateObjection? member.profile changes then return receipt
      let account ← updatedAccount (t.account? sought false) (accountPart changes)
      change fun t => {
        profiles := t.profiles.modify (t.profiles.findIdx (·.has "username" username))
          (·.putAll (profilePart changes))
        accounts := t.accounts.modify (t.accounts.findIdx (Tables.isSought sought false))
          account.getD }
      commit
      return ⟨0, "User updated successfully.", 200⟩

/-! ## Closing and removing -/

/-- Makes an account inactive. -/
def close (search : Paper) (byAdmin : Bool) : Work Receipt := do
  if isAdminRole (← search.read "rol") && !byAdmin then
    return ⟨2, "Cannot delete administrator user.", 403⟩
  guarded (reportedViolation "database") do
    let sought ← search.sought
    let s ← get
    match s.tables.accounts.findIdx? (Tables.isSought sought true) with
    | none => return ⟨1, "User does not exist.", 404⟩
    | some i =>
      change fun t => { t with
        accounts := t.accounts.modify i
          (·.putAll [("is_active", .bool false), ("inactivity", .date s.today)]) }
      commit
      return ⟨0, "User deleted successfully.", 200⟩

/-- Removes an inactive account. -/
def remove (search : Paper) (byAdmin : Bool) : Work Receipt := do
  if isAdminRole (← search.read "rol") && !byAdmin then
    return ⟨2, "Cannot delete administrator user.", 403⟩
  guarded (reportedViolation "foreign key") do
    let sought ← search.sought
    match (← get).tables.account? sought false with
    | none => return ⟨1, "User does not exist.", 404⟩
    | some account =>
      if account.isActive then
        return ⟨3, "Cannot delete active user completely. Deactivate first.", 400⟩
      change fun t => { t with
        accounts := t.accounts.eraseIdx (t.accounts.findIdx (Tables.isSought sought false)) }
      commit
      return ⟨0, "User deleted completely from system.", 200⟩

def provideAdministrator (username password : Value) : Work Unit := do
  let admin : Value := .text "admin"
  if ((← get).tables.account? ⟨username, admin⟩).isNone then
    let _ ← create (.of .creation [("username", username), ("rol", admin), ("password", password)])
      true

end SheetMill.Accounts
