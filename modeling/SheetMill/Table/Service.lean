import SheetMill.Journal
import SheetMill.Message.Sql
import SheetMill.Table.Plan
import SheetMill.Value.Json

/-!
# The table service

Answers a request for the statements that build a table.
-/

namespace SheetMill.Table

open Message

/-- How the table service is run. -/
structure Settings where
  address : String := "localhost:50054"
  debug : Bool := false

namespace Service

def source : String := "SQLBuilderServer"

variable {σ : Type} [Journaled σ]

def say (severity : Severity) (text : String) : Act σ Unit := note source severity text

def introduce (settings : Settings) : Act σ Unit :=
  say .info ("[INIT] Initializing SQLBuilderServicer - SQL Channel: " ++ settings.address ++
    ", Debug Mode: " ++ (Value.bool settings.debug).plain)

def summary (request : BuildRequest) : String :=
  "Table: " ++ request.tableName ++ ", Columns: " ++ toString request.cols.length

def answerPlan (settings : Settings) (request : BuildRequest) : Act σ BuildResponse := do
  say .info ("[HANDLER] Processing SQL request - " ++ summary request)
  say .debug "[HANDLER] Deserializing DDL responses..."
  let columns ← request.cols.mapM fun (name, tree) => return (name, ← tree.toValue)
  let types := request.dtypes.map fun (name, info) => (name, info.toValue)
  if settings.debug then
    say .debug ("[HANDLER] Column types: " ++ (Value.texts (types.map (·.1))).plain)
  say .debug "[HANDLER] Invoking core SQL building service..."
  let output ← build (.record columns) (.record types) request.tableName
  let error := (output.field? "error").getD .null
  if error.truthy then
    say .warning ("[HANDLER] SQL building failed: " ++ error.plain)
  else
    let levels ← ((output.field? "content").getD (.map [])).size
    say .info ("[HANDLER] SQL building successful - Levels: " ++ toString levels)
  say .debug "[HANDLER] Serializing response..."
  say .debug (← output.toJsonIndented 2)
  let response ← BuildResponse.ofValue output
  say .info "[HANDLER] Request processed successfully"
  return response

/-- Answers a request for the statements of a table. -/
def answer (settings : Settings) (peer : String) (request : BuildRequest) :
    Act σ BuildResponse := do
  say .info ("[SQL_BUILD] Request from client " ++ peer ++ " - " ++ summary request)
  let work : Act σ BuildResponse := do
    let response ← (answerPlan settings request).handle fun f => do
      say .error ("[HANDLER] SQL building handler failed: " ++ f.message)
      say .error ("[HANDLER] Request details - " ++ summary request)
      throw f
    say .info ("[SQL_BUILD] SQL building completed - Content Levels: " ++
      toString response.content.length ++ ", Error: " ++
      (Value.bool ((response.error.getD "") != "")).plain)
    return response
  work.handle fun f => do
    say .error ("[SQL_BUILD] Operation failed: " ++ f.message)
    throw f

def answerOctets (settings : Settings) (peer : String) (octets : Wire.Octets) :
    Act σ BuildResponse := do
  answer settings peer (← BuildRequest.decode octets)

end Service

end SheetMill.Table
