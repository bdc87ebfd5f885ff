import SheetMill.Journal
import SheetMill.Message.Catalogue
import SheetMill.Schema.Form

/-!
# Schemas of imports

Each import has an active schema, which the database keeps.
-/

namespace SheetMill.Checking

open Message

abbrev Database (σ : Type) := Call → Value → Act σ Value

variable {σ : Type}

def activeSchema (database : Database σ) (importName : Value) : Act σ Value := do
  let found ← database .findSchema (.record [("import_name", importName)])
  if (← found.item "status").same (.text "found") then found.item "schema" else return .null

/-- Makes a schema: a raw one is taken as it is if it is a schema at all, otherwise the properties
of the rows are given. -/
def createSchema (raw : Value) (given : Value) : Outcome Value := do
  if raw.truthy then
    Schema.check .seventh given
    return given
  let entries ← given.entriesAs "keys"
  return .record [
    ("type", .text "object"), ("properties", given), ("required", .list (entries.map (·.1))),
    ("additionalProperties", .bool false)]

def defaultDialect : Value := .text "http://json-schema.org/draft-07/schema#"

def storedProperty (property : Value) : Outcome Value := do
  let type ← property.item "type"
  let entries ← property.entriesAs "items"
  let others ← (entries.filter fun (k, _) => !k.same (.text "type")).mapM fun (k, v) =>
    return (k, Value.text (← v.toText))
  return .record [("type", type), ("extra", .map others)]

def storedSchema (schema : Value) : Outcome Value := do
  match schema with
  | .map _ => pure ()
  | .list _ => throw (.wrongKind "pop expected at most 1 argument, got 2")
  | v => throw (v.memberFault "pop")
  let dialect := (schema.field? "$schema").getD defaultDialect
  let schema := (schema.withoutField "$schema").withField "schema" dialect
  let properties ← (← schema.item "properties").entriesAs "items"
  let stored ← properties.mapM fun (k, property) => return (k, ← storedProperty property)
  return schema.withField "properties" (.map stored)

def saveSchema (database : Database σ) (now : Act σ String) (schema importName : Value) :
    Act σ Value := do
  let stored ← storedSchema schema
  database .insertSchema (.record [
    ("import_name", importName), ("created_at", .text (← now)), ("active_schema", stored),
    ("schemas_releases", .list [])])

def removeSchema (database : Database σ) (importName : Value) : Act σ Value :=
  database .deleteSchema (.record [("import_name", importName)])

/-! ## Health -/

variable {σ : Type} [Journaled σ]

def httpSource : String := "Typechecking.http-server"

def healthWord (healthy : Bool) : Value := .text (if healthy then "healthy" else "unhealthy")

def brokerHealth (connect : Act σ Unit) : Act σ Value :=
  Act.handle (do
    connect
    return .record [("status", healthWord true), ("response_time_ms", .text "< 5000")])
    fun f =>
      match f with
      | .other "TimeoutError" _ =>
        return .record [
          ("status", healthWord false), ("error", .text "Connection timeout"),
          ("response_time_ms", .text "> 5000")]
      | f => return .record [("status", healthWord false), ("error", .text f.message)]

def pong (database : Database σ) (call : Message.Call) : Act σ Value :=
  Act.handle (do (← database call .null).item "pong") fun _ => return .bool false

def storesHealth (database : Database σ) : Act σ Value := do
  let cache ← pong database .pingCache
  let store ← pong database .pingStore
  return .record [
    ("status", healthWord (store.truthy && cache.truthy)), ("mongodb", store), ("redis", cache)]

def health (database : Database σ) (connect : Act σ Unit) : Act σ Value := do
  let broker ← brokerHealth connect
  let stores ← storesHealth database
  let good (v : Value) : Bool := ((v.field? "status").getD .null).same (healthWord true)
  return .record [
    ("status", healthWord (good stores && good broker)), ("database", stores), ("rabbitmq", broker)]

def answerRoot : Act σ Value := do
  note httpSource .debug "Root endpoint accessed"
  return .record [("message", .text "Minimal Typechecking Server is running.")]

def answerHealth (database : Database σ) (connect : Act σ Unit) : Act σ Value := do
  note httpSource .debug "Health check endpoint accessed"
  let report ← health database connect
  if ((report.field? "status").getD .null).same (healthWord true) then
    note httpSource .debug "Health check passed: all systems healthy"
  else note httpSource .warning ("Health check failed: " ++ report.literal)
  return report

end SheetMill.Checking
