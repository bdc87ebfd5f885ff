import SheetMill.Database.Service
import SheetMill.Deployment.Stage
import SheetMill.Formula.Service
import SheetMill.Message.Readable
import SheetMill.Table.Service

/-!
# Programs that ask

Small programs that ask the formula service and the table service for an example, or plan the
example themselves, and print what comes of it.
-/

namespace SheetMill.Deployment

/-! ## Programs that listen -/

/-- A program that serves calls. -/
structure Listener where
  source : String
  title : String
  service : String
  methods : List String
  address : String
  debug : Bool
  introduce : Program Unit

def formulaSettings (c : Configuration) : Formula.Settings :=
  { address := c.text "DDL_GENERATOR_CHANNEL", debug := c.flag "DDL_GENERATOR_DEBUG" }

def tableSettings (c : Configuration) : Table.Settings :=
  { address := c.text "SQL_BUILDER_CHANNEL", debug := c.flag "SQL_BUILDER_DEBUG" }

def formulaListener (c : Configuration) : Listener :=
  let settings := formulaSettings c
  { source := Formula.Service.source, title := "DDL Generator"
    service := "ddl_generator.DDLGenerator", methods := ["GenerateDDL"]
    address := settings.address, debug := settings.debug
    introduce := Formula.Service.introduce settings }

def tableListener (c : Configuration) : Listener :=
  let settings := tableSettings c
  { source := Table.Service.source, title := "SQL Builder"
    service := "sql_builder.SQLBuilder", methods := ["BuildSQL"]
    address := settings.address, debug := settings.debug
    introduce := Table.Service.introduce settings }

/-- Ends a program in order: the user may end it, and any other fault is told and passed on. -/
def ended (say : Severity → String → Program Unit) (farewell : Program Unit)
    (work : Program Unit) : Program Unit := do
  match ← work.attempt with
  | .ok () => pure ()
  | .error .interrupted =>
    say .info "[MAIN] Application terminated by user"
    farewell
  | .error f =>
    if f.isOrdinary then say .error ("[MAIN] Fatal error: " ++ f.message)
    throw f

namespace Listener

def say (l : Listener) (severity : Severity) (text : String) : Program Unit :=
  note l.source severity text

def listen (l : Listener) : Program Unit := do
  l.introduce
  record (.serve l.service l.methods)
  record (.port l.address)
  l.say .info ("[SERVER] Starting gRPC " ++ l.title ++ " server...")
  record .start
  meet (← get).listening.start
  l.say .info ("[SERVER] " ++ l.title ++ " server ready on " ++ l.address)
  l.say .info ("[SERVER] Debug mode: " ++ (Value.bool l.debug).plain)
  record (.handle "SIGINT")
  record (.handle "SIGTERM")
  l.say .info "[SERVER] Shutdown signal received"
  l.say .info "[SERVER] Stopping server..."
  record (.stop 5)
  meet (← get).listening.stop
  l.say .info "[SERVER] Server stopped"

def program (l : Listener) : Program Unit := do
  l.say .info ("[MAIN] Initializing " ++ l.title ++ " Server...")
  ended l.say (pure ()) l.listen

end Listener

def sayDatabase (severity : Severity) (text : String) : Program Unit :=
  note Database.source severity text

def databaseMethods : List String :=
  (Message.calls.map (·.name)).mergeSort fun a b => decide (a ≤ b)

def listenDatabase (c : Configuration) : Program Unit := do
  let address := c.text "DATABASE_CONNECTION_CHANNEL"
  let debug := c.flag "DATABASE_CONNECTION_DEBUG"
  onDatabase (Database.Service.introduce address debug)
  record (.serve "database_service.DatabaseService" databaseMethods)
  record (.port address)
  sayDatabase .info "[SERVER] Starting gRPC Database server..."
  sayDatabase .debug ("[SERVER] Configuration - Channel: " ++ address)
  sayDatabase .debug ("[SERVER] Debug Mode: " ++ (Value.bool debug).plain)
  record .start
  meet (← get).listening.start
  sayDatabase .info ("[SERVER] Database server ready and listening on " ++ address)
  record .wait
  let fault := (← get).listening.wait
  if let some .interrupted := fault then
    sayDatabase .info "[SERVER] Shutdown signal received, stopping server..."
  sayDatabase .info "[SERVER] Database server stopped"
  match fault with
  | some .interrupted => pure ()
  | fault => meet fault

def databaseProgram (c : Configuration) : Program Unit := do
  sayDatabase .info "[MAIN] Initializing gRPC Database Server..."
  ended sayDatabase (onDatabase Database.closeAll) (listenDatabase c)

/-! ## Programs that ask -/

open Message

/-! ## Services that answer within the process -/

def servedBy (work : Wire.Octets → Act Journal Wire.Octets) : Reply :=
  .served fun request => (work request).outcome []

def formulaReply (c : Configuration) : Reply :=
  servedBy fun request => do
    Formula.Service.introduce (formulaSettings c)
    return (← Formula.Service.answerOctets (formulaSettings c) "test" request).encode .asInserted

def tableReply (c : Configuration) : Reply :=
  servedBy fun request => do
    Table.Service.introduce (tableSettings c)
    return BuildResponse.codec.encode .asInserted
      (← Table.Service.answerOctets (tableSettings c) "test" request)

/-! ## Asking for the SQL of a text -/

def exampleText : SqlRequest :=
  { tree := some { kind := 7, value := some (.text "\"Alice\"") }, columns := [("A", "COL1")] }

def askFormulas (c : Configuration) : Program Unit := do
  let _ ← onRemote (Remote.connect (formulaSettings c).address)
  let octets ← onRemote (Remote.send "/ddl_generator.DDLGenerator/GenerateDDL"
    (exampleText.encode .asInserted))
  let tree ← SqlTree.decode octets
  print (String.join (tree.readable.map (· ++ "\n")))

/-! ## Asking for the statements of a table -/

def exampleTable : String := "test_table"

def node (kind sql : String) (more : List (String × Value) := []) : Value :=
  .record ([("type", .text kind), ("sql", .text sql)] ++ more)

def cellNode (cell column : String) : Value :=
  node "cell" column
    [("cell", .text cell), ("refType", .text "relative"), ("column", .text column)]

def exampleColumns (number : String → Float → Value) : Value :=
  let text (s : String) := node "text" ("'" ++ s ++ "'") [("text_value", .text s)]
  .record [
    ("col1", number "10" 10.0),
    ("col2", node "function" "CASE WHEN (col1) > (18) THEN 'Adult' ELSE 'Minor' END" [
      ("name", .text "IF"),
      ("arguments", .list [
        node "binary-expression" "(col1) > (18)" [
          ("operator", .text ">"), ("left", cellNode "A1" "col1"), ("right", number "18" 18.0)],
        text "Adult", text "Minor"])]),
    ("col3", cellNode "B1" "col2"),
    ("col4", number "10" 10.0)]

def exampleTypes : Value :=
  let info (type : String) : Value := .record [("type", .text type), ("extra", .text "")]
  .record [("col1", info "INTEGER"), ("col2", info "TEXT"), ("col3", info "TEXT"),
    ("col4", info "INTEGER")]

def exampleRequest : Value :=
  let number (sql : String) (x : Float) := node "number" sql [("number_value", .float x)]
  .record [("table_name", .text exampleTable), ("cols", exampleColumns number),
    ("dtypes", exampleTypes)]

def printLevels (levels : List (Value × Value)) : Program Unit :=
  levels.forM fun (number, level) => do
    print ("\nLevel " ++ number.plain ++ ":")
    (← (← level.item "sql_content").items).forM fun statement => do
      print ("  SQL: " ++ (← statement.item "sql").plain)
      print ("  Columns: " ++ (← statement.item "columns").plain)

def askStatements : Program Unit := do
  let request ← BuildRequest.ofValue exampleRequest
  print "Sending SQL build request..."
  print ("Table name: " ++ exampleTable)
  print ("Columns: " ++ (Value.texts (request.cols.map (·.1))).plain)
  let octets ← onRemote (Remote.send "/sql_builder.SQLBuilder/BuildSQL"
    (request.encode .asInserted))
  let answer := (← BuildResponse.codec.decode octets).toValue
  print "\nReceived response:"
  print (← answer.toJsonIndented 2)
  let error ← answer.item "error"
  if error.truthy then
    print ("\nError: " ++ error.plain)
  else
    print "\nGenerated SQL expressions:"
    printLevels (← (← answer.item "content").entriesAs "items")

def askTables (c : Configuration) : Program Unit := do
  let channel ← onRemote (Remote.connect (tableSettings c).address)
  Act.andThen
    (askStatements.handle fun f => print ("Error calling SQL builder service: " ++ f.message))
    (onRemote (Remote.disconnect channel))

/-! ## Planning a table -/

/-- Plans the example table and prints the plan. The statements of a level are then looked for among
the names of its fields, where they are not found. -/
def planExample : Program Unit := do
  let number (_ : String) (x : Float) : Value :=
    .record [("type", .text "number"), ("value", .float x)]
  let plan ← Table.build (exampleColumns number) exampleTypes exampleTable
  print (← plan.toJsonIndented 2)
  let levels ← (← plan.item "content").entriesAs "items"
  let lines ← levels.flatMapM fun (_, level) => do
    (← level.items).mapM fun (item : Value) => (item.item "sql" : Program Value)
  print (String.join (lines.map fun sql => "\n" ++ sql.plain))

end SheetMill.Deployment
