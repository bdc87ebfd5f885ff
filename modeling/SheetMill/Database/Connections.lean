import SheetMill.Database.State

/-!
# Connections

The service keeps one connection to the cache, one to the tasks and one to the schemas. Each is
asked whether it is healthy when it is needed, and replaced if it is not.
-/

namespace SheetMill.Database

/-- Where the cache and the collections are. -/
structure Addresses where
  cacheHost : Value := .text "redis"
  cachePort : Value := .int 6379
  cacheDb : Value := .int 0
  cachePassword : Value := .text "pw"
  tasks : String := "tasks"
  schemas : String := "schemas"

def freshLink : Work Nat := do
  let s ← get
  set { s with nextLink := s.nextLink + 1 }
  return s.nextLink

def openCache (addresses : Addresses := {}) (host port db password : Value := .null) :
    Work CacheLink := do
  let pick (given : Value) (default : Value) := if given.truthy then given else default
  let host := pick host addresses.cacheHost
  let port := pick port addresses.cachePort
  let db := pick db addresses.cacheDb
  let password := pick password addresses.cachePassword
  modify fun s => { s with
    cacheTraffic := { s.cacheTraffic with opened := s.cacheTraffic.opened + 1 } }
  match ← (announce "redis" "connect").attempt with
  | .ok () => return { id := ← freshLink, host, port, db, password }
  | .error (.cache .connection detail) =>
    throw (.other "ConnectionError" ("Could not connect to Redis at " ++ host.plain ++ ":" ++
      port.plain ++ " - " ++ detail))
  | .error f => throw f

def openStore (collection : String) : Work StoreLink := do
  modify fun s => { s with
    storeTraffic := { s.storeTraffic with opened := s.storeTraffic.opened + 1 } }
  announce "mongo" "connect"
  return { id := ← freshLink, collection }

def closeCache : Work Unit := do
  modify fun s => { s with
    cacheTraffic := { s.cacheTraffic with closed := s.cacheTraffic.closed + 1 } }
  announce "redis" "close"

def closeStore : Work Unit := do
  modify fun s => { s with
    storeTraffic := { s.storeTraffic with closed := s.storeTraffic.closed + 1 } }
  announce "mongo" "close"

def isCacheDown : Fault → Bool
  | .cache .connection _ | .cache .timeout _ => true
  | _ => false

def isStoreDown : Fault → Bool
  | .store .connection _ | .store .reconnect _ | .store .selection _ => true
  | _ => false

def isCacheTrouble : Fault → Bool
  | .cache .response _ => true
  | f => isCacheDown f

def cacheHealthy : Work Bool := do
  match ← Cache.ping.attempt with
  | .ok pong => return pong
  | .error f => if isCacheDown f then return false else throw f

def storeHealthy : Work Bool := do
  match ← (announce "mongo" "ping").attempt with
  | .ok () => return true
  | .error f => if isStoreDown f then return false else throw f

/-- A link that is kept open and opened anew if it is not healthy. -/
structure Kept (κ : Type) where
  label : String
  current : State → Option κ
  keep : κ → State → State
  opening : Work κ
  healthy : Work Bool
  closing : Work Unit

def keptCache : Kept CacheLink where
  label := "Redis"
  current := State.cacheLink
  keep link s := { s with cacheLink := some link }
  opening := openCache
  healthy := cacheHealthy
  closing := closeCache

def keptTasks : Kept StoreLink where
  label := "MongoDB tasks"
  current := State.tasksLink
  keep link s := { s with tasksLink := some link }
  opening := openStore ({} : Addresses).tasks
  healthy := storeHealthy
  closing := closeStore

def keptSchemas : Kept StoreLink where
  label := "MongoDB schemas"
  current := State.schemasLink
  keep link s := { s with schemasLink := some link }
  opening := openStore ({} : Addresses).schemas
  healthy := storeHealthy
  closing := closeStore

namespace Kept

variable {κ : Type}

def renew (kept : Kept κ) : Work κ := do
  let link ← kept.opening
  modify (kept.keep link)
  return link

def obtain (kept : Kept κ) (force : Bool := false) : Work κ := do
  match kept.current (← get), force with
  | some link, false =>
    if ← kept.healthy then return link
    say .warning (kept.label ++ " connection unhealthy, reconnecting...")
    kept.closing.handle fun f =>
      say .error ("Error closing " ++ kept.label ++ " connection: " ++ f.message)
    let link ← kept.renew
    say .info (kept.label ++ " reconnection successful")
    return link
  | _, _ =>
    say .info ("Creating new " ++ kept.label ++ " connection")
    kept.renew

def close (kept : Kept κ) : Work Unit := do
  if (kept.current (← get)).isSome then
    let work : Work Unit := do
      kept.closing
      say .info (kept.label ++ " connection closed")
    work.handle fun f => say .error ("Error closing " ++ kept.label ++ ": " ++ f.message)

def engage {α : Type} (kept : Kept κ) (isTrouble : Fault → Bool) (use : κ → Work α) :
    Work α := do
  let link ← kept.obtain
  match ← (use link).attempt with
  | .ok a => return a
  | .error f =>
    if isTrouble f then
      say .error (kept.label ++ " operation failed: " ++ f.message ++
        ", attempting reconnection")
    throw f

end Kept

def closeAll : Work Unit := do
  say .info "Closing all database connections"
  keptCache.close
  keptTasks.close
  keptSchemas.close

end SheetMill.Database
