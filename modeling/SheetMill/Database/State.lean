import SheetMill.Journal
import SheetMill.Value.Order

/-!
# The state of the database service

The service works on a cache and on a document store, through connections that it opens, keeps and
reopens. Every call to the two stores may be struck by an outage.
-/

namespace SheetMill.Text

/-! ## Glob patterns

In a pattern a star stands for any characters and a question mark for any one character; every other
character stands for itself. -/

def tails : List Char → List (List Char)
  | [] => [[]]
  | c :: cs => (c :: cs) :: tails cs

def globMatches : List Char → List Char → Bool
  | [], cs => cs.isEmpty
  | p :: ps, cs =>
    if p = '*' then (tails cs).any (globMatches ps)
    else
      match cs with
      | [] => false
      | c :: cs => (p == '?' || p == c) && globMatches ps cs

def matchesGlob (pattern s : String) : Bool := globMatches pattern.toList s.toList

end SheetMill.Text

namespace SheetMill.Database

/-- An entry of the cache. -/
structure Entry where
  key : Value
  kind : Value
  content : Value
  ttl : Value := .null
  deriving Inhabited

abbrev Cache := List Entry

namespace Cache

def textKind : String := "string"

def hashKind : String := "hash"

def setKind : String := "set"

def wrongType : Fault :=
  .cache .response "WRONGTYPE Operation against a key holding the wrong kind of value"

def stored (v : Value) : Outcome Value :=
  match v with
  | .text s => .ok (.text s)
  | .int _ | .float _ => .ok (.text v.plain)
  | v => .error (.cache .data ("Invalid input of type: '" ++ v.kindName ++
      "'. Convert to a bytes, string, int or float first."))

def find? (cache : Cache) (key : Value) : Outcome (Option Entry) :=
  if key.isKey then .ok (List.find? (·.key.sameScalar key) cache) else .error key.keyFault

def put (entry : Entry) : Cache → Cache
  | [] => [entry]
  | e :: rest =>
    if e.key.sameScalar entry.key then { entry with key := e.key } :: rest else e :: put entry rest

def keys (cache : Cache) (pattern : Value) : Outcome (List Value) :=
  match pattern with
  | .text pattern =>
    (cache.map (·.key)).filterM fun key =>
      match key with
      | .text s => .ok (Text.matchesGlob pattern s)
      | key => .error (.wrongKind ("expected string or bytes-like object, got '" ++ key.kindName ++ "'"))
  | v => .error v.iterationFault

def contentOf (cache : Cache) (kind : String) (key : Value) : Outcome (Option Value) := do
  match ← cache.find? key with
  | none => return none
  | some e => if e.kind.same (.text kind) then return some e.content else throw wrongType

def putText (cache : Cache) (key s ttl : Value) : Outcome Cache :=
  if key.isKey then .ok (put ⟨key, .text textKind, s, ttl⟩ cache) else .error key.keyFault

def alter (cache : Cache) (kind : String) (empty : Value) (change : Value → Outcome Value)
    (key : Value) : Outcome Cache := do
  let content ← change ((← cache.contentOf kind key).getD empty)
  let ttl := ((← cache.find? key).map (·.ttl)).getD .null
  return put ⟨key, .text kind, content, ttl⟩ cache

def setFields (cache : Cache) (key : Value) (fields : List (Value × Value)) : Outcome Cache :=
  cache.alter hashKind (.map []) (fun content =>
    match content with
    | .map old => .ok (.map (fields.foldl (fun acc (f, s) => Value.setEntry f s acc) old))
    | v => .error (v.memberFault "update")) key

def fields (cache : Cache) (key : Value) : Outcome (List (Value × Value)) := do
  match ← cache.contentOf hashKind key with
  | none => return []
  | some v => v.entriesAs "items"

def addMember (cache : Cache) (key member : Value) : Outcome Cache :=
  cache.alter setKind (.list []) (fun content =>
    match content with
    | .list old => .ok (.list (if old.any member.same then old else old ++ [member]))
    | v => .error (v.memberFault "append")) key

def members (cache : Cache) (key : Value) : Outcome (List Value) := do
  match ← cache.contentOf setKind key with
  | none => return []
  | some v => v.items

def expire (cache : Cache) (key ttl : Value) : Cache :=
  cache.map fun e => if e.key.sameScalar key then { e with ttl } else e

def ordered (cache : Cache) : Outcome (List Entry) := do
  let keys ← Value.sorted (cache.map (·.key))
  return keys.filterMap fun key => List.find? (·.key.sameScalar key) cache

end Cache

/-! ## Collections of documents -/

abbrev Documents := List Value

/-- How many documents an update matched and modified. -/
structure UpdateReport where
  matched : Nat
  modified : Nat

def UpdateReport.raw (r : UpdateReport) : Value :=
  .record [("n", .int r.matched), ("nModified", .int r.modified), ("ok", .float 1.0),
    ("updatedExisting", .bool (r.matched != 0))]

def UpdateReport.toValue (r : UpdateReport) : Value :=
  .record [("matched_count", .int r.matched), ("modified_count", .int r.modified),
    ("raw_result", r.raw)]

def removalReport (removed : Nat) : Value := .record [("n", .int removed), ("ok", .float 1.0)]

namespace Documents

def selects (filter doc : Value) : Outcome Bool := do
  (← filter.entriesAs "items").allM fun (k, v) => do
    if ← doc.holds k then return (← doc.under k).same v else return false

def place? (filter : Value) : Documents → Outcome (Option Nat)
  | [] => .ok none
  | doc :: rest => do
    if ← selects filter doc then return some 0 else return (← place? filter rest).map (· + 1)

def count (docs : Documents) (filter : Value) : Outcome Nat :=
  return (← docs.filterM (selects filter)).length

def first? (docs : Documents) (filter : Value) : Outcome (Option Value) :=
  return (← place? filter docs).bind (docs[·]?)

def all (docs : Documents) (filter : Value) : Outcome (List Value) := docs.filterM (selects filter)

def identified (doc : Value) (id : Nat) : Value :=
  match doc.field? "_id" with
  | some _ => doc
  | none => doc.withField "_id" (.objectId id)

/-! ## Updates -/

def assignmentFault (v : Value) : Fault :=
  match v with
  | .list _ => v.partFault (.text "")
  | v => .wrongKind ("'" ++ v.kindName ++ "' object does not support item assignment")

def setAt : List String → Value → Value → Outcome Value
  | [], new, _ => .ok new
  | [name], new, v =>
    match v with
    | .map entries => .ok (.map (Value.setEntry (.text name) new entries))
    | v => .error (assignmentFault v)
  | name :: path, new, v =>
    match v with
    | .map entries => do
      let inner := (Value.findEntry (.text name) entries).getD (.map [])
      return .map (Value.setEntry (.text name) (← setAt path new inner) entries)
    | v => .error (v.memberFault "setdefault")

def namesOf (path : Value) : Outcome (List String) :=
  match path with
  | .text s => .ok (Text.split s '.')
  | .bytes _ => .error (.wrongKind "a bytes-like object is required, not 'str'")
  | v => .error (v.memberFault "split")

def push (key new doc : Value) : Outcome Value := do
  let entries ← doc.entriesAs "setdefault"
  match (Value.findEntry key entries).getD (.list []) with
  | .list items => return .map (Value.setEntry key (.list (items ++ [new])) entries)
  | v => throw (v.memberFault "append")

def pop (key doc : Value) : Outcome Value := do
  let entries ← doc.entriesAs "get"
  match Value.findEntry key entries with
  | none => return doc
  | some (.list items) => return .map (Value.setEntry key (.list items.dropLast) entries)
  | some v =>
    if !v.truthy then return doc
    match v with
    | .map _ => throw (.wrongKind "pop expected at least 1 argument, got 0")
    | v => throw (v.memberFault "pop")

def amend (update : Value) : Act Value Unit := do
  let each (operator : String) (change : Value → Value → Value → Outcome Value) :
      Act Value Unit := do
    for (k, v) in ← (← update.getD operator (.map [])).entriesAs "items" do
      set (← change k v (← get))
  each "$set" fun path v doc => do setAt (← namesOf path) v doc
  each "$push" push
  each "$pop" fun k _ doc => pop k doc

mutual

/-- The value with a mark in the place of each undefined number, by which it is equal to itself. -/
def marked : Value → Value
  | .float x => if x.isNaN then .handle "nan" else .float x
  | .list items => .list (markedItems items)
  | .map entries => .map (markedEntries entries)
  | v => v

def markedItems : List Value → List Value
  | [] => []
  | v :: rest => marked v :: markedItems rest

def markedEntries : List (Value × Value) → List (Value × Value)
  | [] => []
  | (k, v) :: rest => (k, marked v) :: markedEntries rest

end

/-- Whether an update leaves a document as it was. -/
def keeps (update doc : Value) : Bool :=
  let before := marked doc
  ((amend update).outcome before).2.same before

def update (filter u : Value) : Act Documents UpdateReport := do
  let docs ← get
  match ← place? filter docs with
  | none => return ⟨0, 0⟩
  | some i =>
    let doc := docs.getD i .null
    let (r, new) := (amend u).outcome doc
    set (docs.set i new)
    r
    return ⟨1, if keeps u doc then 0 else 1⟩

def remove (filter : Value) : Act Documents Nat := do
  let docs ← get
  match ← place? filter docs with
  | none => return 0
  | some i =>
    set (docs.eraseIdx i)
    return 1

/-- Replaces the first document that a filter selects, which keeps its identity; if there is none,
the new document is added at the end with the given identity. -/
def replace (filter new : Value) (id : Nat) : Act Documents Bool := do
  let docs ← get
  match ← place? filter docs with
  | none =>
    set (docs ++ [new.withField "_id" (.objectId id)])
    return false
  | some i =>
    let old := docs.getD i .null
    set (docs.set i (new.withField "_id" ((old.field? "_id").getD .null)))
    return true

end Documents

/-! ## The state of the database service -/

/-- What an outage does to a call. -/
inductive Disturbance where
  | fails (fault : Fault)
  | vanishes

/-- A link to the cache. -/
structure CacheLink where
  id : Nat
  host : Value
  port : Value
  db : Value
  password : Value

/-- A link to a collection. -/
structure StoreLink where
  id : Nat
  collection : String

/-- How many links were opened and closed. -/
structure Traffic where
  opened : Nat := 0
  closed : Nat := 0

/-- The cache, the collections and the links to them. -/
structure State where
  cache : Cache := []
  collections : List (String × Documents) := [("schemas", []), ("tasks", [])]
  nextDocument : Nat := 1
  outages : List (Outage Disturbance) := []
  nextLink : Nat := 0
  cacheTraffic : Traffic := {}
  storeTraffic : Traffic := {}
  cacheLink : Option CacheLink := none
  tasksLink : Option StoreLink := none
  schemasLink : Option StoreLink := none
  sleeps : List Value := []
  journal : Journal := []

instance : Journaled State := ⟨fun line s => { s with journal := s.journal ++ [line] }⟩

abbrev Work := Act State

def source : String := "Messaging Server"

def say (severity : Severity) (text : String) : Work Unit := note source severity text

def sleep (seconds : Value) : Work Unit :=
  modify fun s => { s with sleeps := s.sleeps ++ [seconds] }

def State.documents (s : State) (collection : String) : Documents :=
  (s.collections.lookup collection).getD []

def State.withDocuments (s : State) (collection : String) (docs : Documents) : State :=
  { s with collections := putDocuments s.collections }
where
  putDocuments : List (String × Documents) → List (String × Documents)
    | [] => [(collection, docs)]
    | (name, old) :: rest =>
      if name == collection then (name, docs) :: rest else (name, old) :: putDocuments rest

def announce (target method : String) : Work Unit := do
  let s ← get
  let (effect, outages) := Outage.strike target method s.outages
  set { s with outages }
  match effect with
  | none => pure ()
  | some (.fails fault) => throw fault
  | some .vanishes => modify fun s => s.withDocuments target []

def State.snapshot (s : State) : Outcome Value := do
  let entries ← s.cache.ordered
  return .record [
    ("redis", .list (entries.map fun e => .list [e.key, e.kind, e.content, e.ttl])),
    ("mongo", .record (s.collections.map fun (name, docs) => (name, .list docs))),
    ("connections", .record [("redis", .int s.cacheTraffic.opened),
      ("mongo", .int s.storeTraffic.opened)]),
    ("closed", .record [("redis", .int s.cacheTraffic.closed),
      ("mongo", .int s.storeTraffic.closed)])]

/-! ## Calls to the cache -/

namespace Cache

def write (cache : Cache) : Work Unit := modify fun s => { s with cache }

def ping : Work Bool := do
  announce "redis" "ping"
  return true

def findKeys (pattern : Value) : Work (List Value) := do
  announce "redis" "keys"
  (← get).cache.keys pattern

def store (key v ttl : Value) : Work Unit := do
  announce "redis" "set"
  let s ← stored v
  write (← (← get).cache.putText key s ttl)

def read (key : Value) : Work Value := do
  announce "redis" "get"
  return (← (← get).cache.contentOf textKind key).getD .null

def removeKey (key : Value) : Work Bool := do
  let cache := (← get).cache
  match ← cache.find? key with
  | none => return false
  | some e =>
    write (cache.filter fun other => !other.key.sameScalar e.key)
    return true

def removeKeys (keys : List Value) : Work Nat := do
  announce "redis" "delete"
  if keys.isEmpty then
    throw (.cache .response "wrong number of arguments for 'del' command")
  return ((← keys.mapM removeKey).filter id).length

def storeFields (key : Value) (fields : List (Value × Value)) : Work Unit := do
  announce "redis" "hset"
  for (f, _) in fields do
    if !f.isKey then throw f.keyFault
  let texts ← fields.mapM fun (f, v) => return (f, ← stored v)
  write (← (← get).cache.setFields key texts)

def readFields (key : Value) : Work (List (Value × Value)) := do
  announce "redis" "hgetall"
  (← get).cache.fields key

/-- Adds a member to a set; the set is there before the member is converted. -/
def insertMember (key v : Value) : Work Unit := do
  announce "redis" "sadd"
  write (← (← get).cache.alter setKind (.list []) .ok key)
  let s ← stored v
  write (← (← get).cache.addMember key s)

def readMembers (key : Value) : Work (List Value) := do
  announce "redis" "smembers"
  (← get).cache.members key

def setTtl (key ttl : Value) : Work Unit := do
  announce "redis" "expire"
  write ((← get).cache.expire key ttl)

def flush : Work Bool := do
  announce "redis" "flushdb"
  write []
  return true

end Cache

/-! ## Calls to the document store -/

namespace Documents

def within {α : Type} (collection method : String) (work : Act Documents α) : Work α := do
  announce collection method
  Act.within (·.documents collection) (fun docs s => s.withDocuments collection docs) work

def insert (collection : String) (doc : Value) : Work Value := do
  announce collection "insert_one"
  let s ← get
  match doc with
  | .map _ =>
    let isNew := (doc.field? "_id").isNone
    let doc := identified doc s.nextDocument
    set { s.withDocuments collection (s.documents collection ++ [doc]) with
      nextDocument := if isNew then s.nextDocument + 1 else s.nextDocument }
    return (doc.field? "_id").getD .null
  | v => throw (assignmentFault v)

def countOf (collection : String) (filter : Value) : Work Nat :=
  within collection "count_documents" do (← get).count filter

def findOne (collection : String) (filter : Value) : Work (Option Value) :=
  within collection "find_one" do (← get).first? filter

def findAll (collection : String) (filter : Value) : Work (List Value) :=
  within collection "find" do (← get).all filter

def updateOne (collection : String) (filter u : Value) : Work UpdateReport :=
  within collection "update_one" (update filter u)

def removeOne (collection : String) (filter : Value) : Work Nat :=
  within collection "delete_one" (remove filter)

def replaceOne (collection : String) (filter new : Value) : Work Unit := do
  let id := (← get).nextDocument
  if !(← within collection "replace_one" (replace filter new id)) then
    modify fun s => { s with nextDocument := s.nextDocument + 1 }

end Documents

end SheetMill.Database
