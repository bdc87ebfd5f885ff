import SheetMill.Database.Connections
import SheetMill.Text.Casing

/-!
# Schemas

For every import there is at most one document. It holds the active schema, the time of its
creation, and the earlier releases, the latest last.
-/

namespace SheetMill.Database.Schemas

def collection : String := ({} : Addresses).schemas

def compare (a b : Value) : Bool := a.same b

/-- Whether a constraint consists of digits only. -/
def isDigits (v : Value) : Outcome Bool :=
  match v with
  | .text s => .ok (!s.isEmpty && s.toList.all Text.isDigit)
  | .bytes b => .ok (!b.isEmpty && b.all fun octet => 48 ≤ octet && octet ≤ 57)
  | v => .error (v.memberFault "isdigit")

/-- What the text of a constraint denotes: digits are an integer, other numbers are floating, and
`true` and `false` in any case are truth values. Any other text stands for itself. -/
def constraintOf (v : Value) : Outcome Value := do
  if ← isDigits v then return .int (← v.toInt)
  match v.toFloat, v with
  | .ok x, _ => return .float x
  | .error _, .text s =>
    if Text.lower s == "true" then return .bool true
    if Text.lower s == "false" then return .bool false
    return v
  | .error _, v => return v

def parseProperty (property : Value) : Outcome Value := do
  let type ← property.item "type"
  let extra ← (← property.getD "extra" (.map [])).entriesAs "items"
  let constraints ← extra.mapM fun (k, v) => return (k, ← constraintOf v)
  return .map (constraints.foldl (fun acc (k, v) => Value.setEntry k v acc) [(.text "type", type)])

def parseProperties (properties : Value) : Outcome Value := do
  let entries ← properties.entriesAs "items"
  return .map (← entries.mapM fun (name, property) => return (name, ← parseProperty property))

def ofImport (importName : Value) : Value := .record [("import_name", importName)]

def change (status : String) (details : List (String × Value)) : Value :=
  .record [("status", .text status), ("result", .record details)]

def removal (success : Bool) (message status : String) (extra : Value) : Value :=
  .record [("success", .bool success), ("message", .text message), ("status", .text status),
    ("extra", extra)]

def updated (report : UpdateReport) : List (String × Value) :=
  [("message", .text "Schema successfully updated"),
    ("modified_count", .text (toString report.modified)),
    ("matched_count", .text (toString report.matched))]

def assign (v : Value) (name : String) (new : Value) : Outcome Value :=
  match v with
  | .map entries => .ok (.map (Value.setEntry (.text name) new entries))
  | v => .error (.wrongKind ("'" ++ v.kindName ++ "' object does not support item assignment"))

/-! ## Requests -/

def ping (_ : Value) : Work Value := do
  return .record [("pong", .bool (← storeHealthy))]

def countAll (_ : Value) : Work Value := do
  let work : Work Int := do return (← Documents.countOf collection (.map []) : Nat)
  return .record [("amount", .int (← work.handle fun _ => return -1))]

def find (request : Value) : Work Value := do
  let answer (status : String) (extra schema : Value) : Value :=
    .record [("status", .text status), ("extra", extra), ("schema", schema)]
  let work : Work Value := do
    let filter := ofImport (← request.item "import_name")
    match ← Documents.findOne collection filter with
    | some doc =>
      let isFound ← if doc.truthy then doc.holds (.text "active_schema") else pure false
      return if isFound then answer "found" (.map []) doc else answer "not_found" (.map []) .null
    | none => return answer "not_found" (.map []) .null
  work.handle fun f => return answer "error" (.record [("error", .text f.message)]) .null

def insertFirst (doc : Value) : Work Value := do
  let work : Work Value := do
    let id ← Documents.insert collection doc
    return change "inserted" [("acknowledged", .bool true), ("inserted_id", .text id.plain)]
  work.handle fun f => return change "error" [("message", .text f.message)]

/-- An update that makes a schema the active one and adds a release. -/
def pushing (schema createdAt release : Value) : Value :=
  .record [
    ("$set", .record [("active_schema", schema), ("created_at", createdAt)]),
    ("$push", .record [("schemas_releases", release)])]

/-- The import of a request and the update that makes its schema the active one; the one that was
active so far becomes a release together with the time of its creation. -/
def releasing (request document : Value) : Outcome (Value × Value) := do
  let schema ← (← request.item "active_schema").copied
  let createdAt ← request.item "created_at"
  let released ← (← document.item "active_schema").copied
  let releasedAt ← document.item "created_at"
  return (← request.item "import_name", pushing schema createdAt
    (.record [("schema", released), ("created_at", releasedAt)]))

def pushRelease (request document : Value) : Work Value := do
  let work : Work Value := do
    let (importName, u) ← releasing request document
    let report ← Documents.updateOne collection (ofImport importName) u
    return change "updated" (updated report)
  work.handle fun f => return change "error" [("message", .text f.message)]

/-- The document that a request becomes and its schema, the constraints being read. -/
def prepare (request : Value) : Outcome (Value × Value) := do
  let active ← request.item "active_schema"
  let active ← assign active "properties" (← parseProperties (← active.item "properties"))
  let request ← assign request "active_schema" active
  let releases ← (← request.item "schemas_releases").items
  let releases ← releases.mapM fun release => release.item "properties"
  let request ← assign request "schemas_releases" (.list releases)
  return (request, active)

/-- The document of the import of a request, if it has an active schema. -/
def look (request : Value) : Work (Option Value) := do
  let total ← (← countAll .null).item "amount"
  let found ← find (ofImport (← request.item "import_name"))
  let document ← found.item "schema"
  return if (total.asInt?.getD 0) ≤ 0 || document.same .null then none else some document

/-- What a request writes, given the document that it has seen. -/
def write (request active : Value) : Option Value → Work Value
  | none => insertFirst request
  | some document => do
    if compare (← document.item "active_schema") active then
      return change "no_change" [("message", .text "Schema is identical to the existing one.")]
    else pushRelease request document

def file (request active : Value) : Work Value := do write request active (← look request)

def insert (request : Value) : Work Value := do
  let (prepared, active) ← prepare request
  file prepared active

/-- The work of a replacement once the active schema has been found. -/
def exchange (importName request active : Value) : Work Value := do
  if compare active (← request.item "schema") then
    return change "no_change"
      [("message", .text "New schema is identical to the current active schema")]
  let work : Work Value := do
    let schema ← request.item "schema"
    let createdAt ← request.item "created_at"
    let report ← Documents.updateOne collection (ofImport importName) <|
      pushing schema createdAt active
    if 0 < report.modified then return change "updated" (updated report)
    return change "error"
      [("message", .text "No documents were modified during update operation")]
  work.handle fun f =>
    return change "error" [("message", .text ("Failed to update schema: " ++ f.message))]

def update (request : Value) : Work Value := do
  let importName ← request.item "import_name"
  let found ← find (ofImport importName)
  let document ← found.item "schema"
  if !(← found.item "status").same (.text "found") || document.same .null then
    return change "error" [("message",
      .text ("Schema with import_name '" ++ importName.plain ++ "' not found"))]
  exchange importName request (← document.item "active_schema")

/-- The schema that a removal brings back and the time of its creation, if there is one. -/
def previous (document : Value) : Outcome (Option (Value × Value)) := do
  let releases ← document.getD "schemas_releases" (.list [])
  if !releases.truthy then return none
  let last ← releases.at_ (-1)
  let schema ← (← last.item "schema").copied
  let createdAt ← last.getD "created_at" (← document.item "created_at")
  return some (schema, createdAt)

/-- The work of a removal once the document has been found. -/
def revert (importName document : Value) : Work Value := do
  let named := "Schema with import_name '" ++ importName.plain ++ "' "
  match ← previous document with
  | none =>
    let n ← Documents.removeOne collection (ofImport importName)
    return removal true (named ++ "deleted") "deleted" (removalReport n)
  | some (schema, createdAt) =>
    let report ← Documents.updateOne collection (ofImport importName) <|
      .record [
        ("$set", .record [("active_schema", schema), ("created_at", createdAt)]),
        ("$pop", .record [("schemas_releases", .int 1)])]
    return removal true (named ++ "reverted to previous release") "reverted" report.raw

def delete (request : Value) : Work Value := do
  let importName ← request.item "import_name"
  let found ← find (ofImport importName)
  let document ← found.item "schema"
  if !(← found.item "status").same (.text "found") || document.same .null then
    return removal false ("Schema with import_name '" ++ importName.plain ++ "' not found") "error"
      (.map [])
  revert importName document

def deleteImport (request : Value) : Work Value := do
  let work : Work Value := do
    let importName ← request.item "import_name"
    let n ← Documents.removeOne collection (ofImport importName)
    if 0 < n then
      return removal true ("All schemas with import_name '" ++ importName.plain ++ "' deleted")
        "deleted" (removalReport n)
    return removal false ("No schemas found with import_name '" ++ importName.plain ++ "'") "error"
      (.map [])
  work.handle fun f =>
    return removal false ("Failed to delete schemas: " ++ f.message) "error" (.map [])

end SheetMill.Database.Schemas
