import SheetMill.Formula.Sql
import SheetMill.Journal
import SheetMill.Message.Sql

/-!
# The formula service

Answers a request for the SQL of a formula: the tree of the request is turned into a tree that
carries its SQL, and the answer is that tree as a message.
-/

namespace SheetMill.Formula

open Message

/-- How the formula service is run. -/
structure Settings where
  address : String := "localhost:50053"
  debug : Bool := false

namespace Service

def source : String := "DDLGeneratorServer"

variable {σ : Type} [Journaled σ]

def say (severity : Severity) (text : String) : Act σ Unit := note source severity text

def introduce (settings : Settings) : Act σ Unit :=
  say .info ("[INIT] Initializing DDLGeneratorServicer - DDL Channel: " ++ settings.address ++
    ", Debug Mode: " ++ (Value.bool settings.debug).plain)

def answerTree (settings : Settings) (request : SqlRequest) : Act σ SqlTree := do
  say .info ("[HANDLER] Processing request - AST: " ++ (Value.bool request.tree.isSome).plain ++
    ", Columns: " ++ toString request.columns.length)
  let tree ← (request.tree.getD {}).toValue
  let output ← toSql (textMapValue request.columns) tree
  if settings.debug then say .debug ("[HANDLER] Generated DDL output: " ++ output.plain)
  let response ← SqlTree.ofValue output
  say .info "[HANDLER] Request processed successfully"
  return response

/-- Answers a request for the SQL of a formula. -/
def answer (settings : Settings) (peer : String) (request : SqlRequest) : Act σ SqlTree := do
  let kind := (request.tree.map fun t => toString t.kind).getD "NO_AST"
  say .info ("[DDL_GENERATE] Request from client " ++ peer ++ " - AST Type: " ++ kind ++
    ", Column Count: " ++ toString request.columns.length)
  let work : Act σ SqlTree := do
    let response ← (answerTree settings request).handle fun f => do
      say .error ("[HANDLER] DDL generation failed: " ++ f.message)
      throw f
    say .info ("[DDL_GENERATE] DDL generation completed - Response Type: " ++
      toString response.kind ++ ", SQL Length: " ++ toString response.sql.length ++ " chars")
    return response
  work.handle fun f => do
    say .error ("[DDL_GENERATE] Operation failed: " ++ f.message)
    throw f

def answerOctets (settings : Settings) (peer : String) (octets : Wire.Octets) : Act σ SqlTree := do
  answer settings peer (← SqlRequest.decode octets)

end Service

end SheetMill.Formula
