import SheetMill.Accounts.Changes
import SheetMill.Calendar
import SheetMill.Gateway.Tasks

/-!
# Users at the gateway

Clients ask about users and change them. What was found about a user is cached; every change removes
the cached entries of the user and all cached pages.
-/

namespace SheetMill.Gateway

open Accounts
open Message

/-- What the routes for users need of their surroundings. -/
structure Office (σ : Type) where
  /-- How the database service is called. -/
  database : Checking.Database σ
  /-- The session with the tables of users. -/
  session : σ → Session
  putSession : Session → σ → σ
  /-- The name of the administrator whom the settings name, who may do what others may not. -/
  firstAdministrator : Value

variable {σ : Type} (o : Office σ)

def Office.inSession {α : Type} (work : Accounts.Work α) : Act σ α :=
  Act.within o.session o.putSession work

def Office.tables : Act σ Tables := return (o.session (← get)).tables

def isFirstAdministrator (actor : Paper) : Outcome Bool := do
  return (← actor.read "username").same o.firstAdministrator

/-! ## The cache -/

def stalePatterns (username : Value) (pages : Bool) : List String :=
  let name := username.plain
  (if username.truthy then
    [name ++ ":user_info", "*:user_info:" ++ name ++ ":*", name ++ ":user_info:*"] else []) ++
  (if pages then ["all_users:*"] else [])

def forget (database : Checking.Database σ) (username : Value) (pages : Bool) : Act σ Unit :=
  (stalePatterns username pages).forM fun pattern => do
    let keys ← (← database .keys (.record [("pattern", .text pattern)])).item "keys"
    let _ ← database .delete (.record [("keys", keys)])

def cached (key : String) : Act σ Value := o.database .get (.record [("key", .text key)])

def remember (key : String) (answer : Value) : Act σ Value := do
  let text ← answer.toJson
  let _ ← o.database .set (.record
    [("key", .text key), ("value", .text text), ("expiration", .null)])
  return answer

def fromCache (kind : FormKind) (v : Value) : Outcome Value :=
  match v with
  | .map _ => (Paper.of kind v.fields).toValue
  | v => .error (.wrongKind ("argument after ** must be a mapping, not " ++ v.kindName))

/-! ## Questions -/

def noSuchUser : Fault := .refusal 404 (.text "User not found")

def memberFound (key : String) (member : Option Member) (withRoles : Bool) : Act σ Value := do
  match member with
  | none => throw noSuchUser
  | some member => remember o key (.record (← (member.form withRoles).whole))

def ownProfile (actor : Paper) : Act σ Value := do
  let username ← actor.read "username"
  let key := username.plain ++ ":user_info"
  let entry ← cached o key
  if (← entry.item "found").truthy then
    return ← fromCache .profile (← (← entry.item "value").parsed)
  memberFound o key ((← o.tables).member? username) false

/-- A request for one user. -/
structure ProfileRequest where
  username : Value
  all : Value
  active : Value
  useCache : Bool

def anyProfile (actor : Paper) (r : ProfileRequest) : Act σ Value := do
  let key := (← actor.read "username").plain ++ ":user_info:" ++ r.username.plain ++ ":" ++
    r.active.plain ++ ":" ++ r.all.plain
  let entry ← cached o key
  if entry.truthy && r.useCache then
    return ← fromCache (if r.all.truthy then .member else .profile) (← entry.parsed)
  memberFound o key ((← o.tables).member? r.username r.active.truthy) r.all.truthy

/-- A request for a page of users. -/
structure PageRequest where
  active : Value
  roles : Value
  limit : Value
  page : Value
  useCache : Bool

/-- A page of users. Pages are not cached yet: the attempt to do so fails. -/
def userPage (r : PageRequest) : Act σ Value := do
  let entry ← cached o ("all_users:active=" ++ r.active.plain ++ ":rol=" ++ r.roles.plain ++
    ":limit=" ++ r.limit.plain ++ ":page=" ++ r.page.plain)
  if r.useCache && entry.truthy then return ← entry.parsed
  let _ ← (← o.tables).page r.active.truthy r.limit r.page
  throw ((Value.list []).memberFault "model_dump")

/-! ## Changes -/

def ofReceipt (r : Receipt) (username : Value) (data : Outcome (List (String × Value))) :
    Act σ Value := do
  if r.number != 0 then throw (.refusal r.status (.text r.message))
  forget o.database username true
  return receipt "success" r.status r.message [("data", .record (← data))]

def createUser (actor user : Paper) : Act σ Value := do
  let r ← o.inSession (create user (← isFirstAdministrator o actor))
  ofReceipt o r .null user.whole

def updateUser (actor : Paper) (sought : Sought) (changes : Paper) : Act σ Value := do
  let r ← o.inSession (update sought.paper changes (← isFirstAdministrator o actor))
  ofReceipt o r sought.username changes.filled

def deleteUser (actor : Paper) (sought : Sought) (complete : Bool) : Act σ Value := do
  let byAdmin ← isFirstAdministrator o actor
  let r ← o.inSession ((if complete then remove else close) sought.paper byAdmin)
  ofReceipt o r sought.username (.ok [])

/-! ## Tokens -/

def token (username role minutes : Value) (now : Moment) : Outcome String := do
  let expires ← now.plus (← Moment.spanOf 60000000 minutes)
  let payload := Value.record
    [("exp", .int expires.wholeSeconds), ("username", username), ("rol", role)]
  return "HS256." ++ (← payload.toJson)

def badCredentials : Fault := .refusal 403 (.text "Could not validate credentials")

def actorOf (t : Tables) (payload : Outcome Value) : Outcome Paper := do
  match payload with
  | .error (.badFields _) => throw badCredentials
  | .error fault => throw fault
  | .ok payload =>
    let username ← payload.getD "username" .null
    match t.account? ⟨username, ← payload.getD "rol" .null⟩ with
    | some account => return .of .account (account.columns FormKind.account.names)
    | none => throw badCredentials

def administrator (actor : Paper) : Outcome Paper := do
  if isAdminRole (← actor.read "rol") then return actor
  throw (.refusal 401 (.text "Unauthorized access, admin role required."))

/-- Logs a user in. No setting says how long a token is valid, so that no token can be given. -/
def login (t : Tables) (p : Paper) : Outcome Value := do
  match ← t.authenticate? p with
  | none => throw (.refusal 401 (.text "Username or password is incorrect"))
  | some _ =>
    throw (.noMember "'Settings' object has no attribute 'ACCESS_TOKEN_EXPIRE_MINUTES'")

def splitList (v : Value) : Outcome Value :=
  match v with
  | .text s =>
    .ok (if Text.startsWith s "[" then v else .texts ((Text.split s ',').map Text.strip))
  | .list _ => .ok v
  | v => .error (.badValue v.plain)

end SheetMill.Gateway
