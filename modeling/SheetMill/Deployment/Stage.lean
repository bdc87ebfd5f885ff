import SheetMill.Accounts.Directory
import SheetMill.Broker.Connections
import SheetMill.Database.State
import SheetMill.Deployment.Component
import SheetMill.Remote

/-!
# The stage of a program

A program runs on a stage that holds everything it can touch. A line is written to the journal if
its severity reaches the level of its source, which is `WARNING` by default.
-/

namespace SheetMill.Deployment

/-- What a program does to its surroundings. -/
inductive Event where
  | serve (service : String) (methods : List String)
  | port (address : String)
  | start
  | wait
  | stop (grace : Int)
  | handle (signal : String)
  | thread (name : String)
  | threadExit (name : String) (code : Int)
  | web (component : Component) (options : List (String × Value))
  | session (deed : Accounts.Deed)
  | journalFile (name : String)
  | engine (configuration : Value)
  | configure (options : List (String × Value))
  | migrate
  | transaction (fault : Option Fault)
  | disconnect (fault : Option Fault)
  | createTable (name : String) (items : List Value) (options : List (String × Value))
  | dropTable (name : String)

/-- The faults of a server. -/
structure ListenPlan where
  start : Option Fault := none
  wait : Option Fault := none
  stop : Option Fault := none

/-- The surroundings of a program. -/
structure Stage where
  levels : List (String × Severity) := []
  journal : Journal := []
  printed : String := ""
  events : List Event := []
  sleeps : List Value := []
  remote : Remote := {}
  broker : Broker.State := {}
  database : Database.State := {}
  swarm : Swarm.State := {}
  session : Accounts.Session := {}
  listening : ListenPlan := {}
  ticks : Nat := 0
  deliver : Option String := none
  directory : String := "."

abbrev Program := Act Stage

namespace Stage

def level (s : Stage) (source : String) : Severity := (s.levels.lookup source).getD .warning

def addLines (s : Stage) (lines : Journal) : Stage :=
  { s with journal := s.journal ++ lines.filter fun l => (s.level l.source).rank ≤ l.severity.rank }

instance : Journaled Stage := ⟨fun line s => s.addLines [line]⟩

def withLevel (s : Stage) (source : String) (level : Severity) : Stage :=
  { s with levels := (source, level) :: s.levels }

end Stage

variable {α : Type}

def record (event : Event) : Program Unit :=
  modify fun s => { s with events := s.events ++ [event] }

def print (text : String) : Program Unit :=
  modify fun s => { s with printed := s.printed ++ text ++ "\n" }

def rest (seconds : Value) : Program Unit :=
  modify fun s => { s with sleeps := s.sleeps ++ [seconds] }

def meet (fault : Option Fault) : Program Unit :=
  match fault with
  | none => pure ()
  | some f => throw f

def onRemote (work : Act Remote α) : Program α :=
  Act.within Stage.remote (fun remote s =>
    { s.addLines remote.journal with
      sleeps := s.sleeps ++ remote.sleeps
      remote := { remote with journal := [], sleeps := [] } }) work

def onBroker (work : Broker.Work α) : Program α :=
  Act.within Stage.broker (fun broker s =>
    { s.addLines broker.journal with
      sleeps := s.sleeps ++ broker.sleeps
      broker := { broker with journal := [], sleeps := [] } }) work

def onDatabase (work : Database.Work α) : Program α :=
  Act.within Stage.database (fun database s =>
    { s.addLines database.journal with
      sleeps := s.sleeps ++ database.sleeps
      database := { database with journal := [], sleeps := [] } }) work

def onSwarm (work : Swarm.Work α) : Program α :=
  Act.within Stage.swarm (fun swarm s =>
    { s.addLines swarm.journal with
      sleeps := s.sleeps ++ swarm.sleeps
      swarm := { swarm with journal := [], sleeps := [] } }) work

def onSession (work : Accounts.Work α) : Program α :=
  Act.within Stage.session (fun session s =>
    { s with
      events := s.events ++ session.deeds.map .session
      session := { session with deeds := [] } }) work

/-! ## Columns and constraints -/

/-- The types of columns. -/
inductive ColumnType where
  | text (length : Option Int)
  | integer
  | boolean
  | date

/-- The parts of a table. -/
inductive TableItem where
  | column (name : String) (type : ColumnType) (counted optional : Bool)
  | primaryKey (column name : String)
  | unique (columns : List String) (name : String)
  | foreignKey (column target name : String)

/-- A table that is created. -/
structure TableLayout where
  name : String
  items : List TableItem
  options : List (String × Value) := []

def profileLayout : TableLayout where
  name := "user_info"
  items := [
    .column "username" (.text none) false false,
    .column "name" (.text none) false true,
    .column "surname" (.text none) false true,
    .column "sex" (.text (some 1)) false true,
    .column "phone" (.text none) false true,
    .column "email" (.text none) false true,
    .primaryKey "username" "user_info_pkey",
    .unique ["email"] "user_info_email_key",
    .unique ["phone"] "user_info_phone_key"]
  options := [("postgresql_ignore_search_path", .bool false)]

def accountLayout : TableLayout where
  name := "user_roles"
  items := [
    .column "id" .integer true false,
    .column "username" (.text none) false false,
    .column "rol" (.text none) false false,
    .column "password" (.text none) false false,
    .column "is_active" .boolean false false,
    .column "inactivity" .date false true,
    .foreignKey "username" "user_info.username" "user_roles_username_fkey",
    .primaryKey "id" "user_roles_pkey",
    .unique ["username", "rol"] "unique_user_rol"]

/-! ## As values -/

def itemValue (kind : String) (arguments : List Value) (options : List (String × Value)) : Value :=
  .record [("sa", .text kind), ("args", .list arguments), ("kw", .record options)]

def ColumnType.toValue : ColumnType → Value
  | text length => itemValue "VARCHAR" [] (length.toList.map fun n => ("length", .int n))
  | integer => itemValue "INTEGER" [] []
  | boolean => itemValue "BOOLEAN" [] []
  | date => itemValue "DATE" [] []

def TableItem.toValue : TableItem → Value
  | column name type counted optional =>
    itemValue "Column" [.text name, type.toValue]
      [("autoincrement", .bool counted), ("nullable", .bool optional)]
  | primaryKey key name => itemValue "PrimaryKeyConstraint" [.text key] [("name", .text name)]
  | unique columns name =>
    itemValue "UniqueConstraint" (columns.map .text)
      [("name", .text name), ("postgresql_include", .list []),
        ("postgresql_nulls_not_distinct", .bool false)]
  | foreignKey referring target name =>
    itemValue "ForeignKeyConstraint" [.texts [referring], .texts [target]] [("name", .text name)]

/-! ## The migration -/

def revision : String := "7dbcdd48ec01"

def createTables : Program Unit :=
  [profileLayout, accountLayout].forM fun t =>
    record (.createTable t.name (t.items.map TableItem.toValue) t.options)

def dropTables : Program Unit :=
  [accountLayout, profileLayout].forM fun t => record (.dropTable t.name)

/-! ## Running migrations -/

/-- How a migration is run. -/
structure MigrationPlan where
  offline : Bool := true
  journalFile : Option String := none
  configuration : Option Value := none
  fault : Option Fault := none

def closing (event : Option Fault → Event) (work : Program Unit) : Program Unit := do
  match ← work.attempt with
  | .ok () => record (event none)
  | .error f =>
    record (event (some f))
    throw f

def migrate (plan : MigrationPlan) : Program Unit :=
  closing .transaction do
    record .migrate
    meet plan.fault

def migrationProgram (plan : MigrationPlan) (c : Configuration) : Program Unit := do
  if let some file := plan.journalFile then record (.journalFile file)
  let url := c.value "POSTGRES_URI"
  let metadata : String × Value := ("target_metadata", .text "metadata")
  if plan.offline then
    record (.configure [("url", url), metadata, ("literal_binds", .bool true),
      ("dialect_opts", .record [("paramstyle", .text "named")])])
    migrate plan
  else
    match plan.configuration with
    | none => throw (.wrongKind "'NoneType' object does not support item assignment")
    | some configuration =>
      record (.engine (configuration.withField "sqlalchemy.url" url))
      closing .disconnect do
        record (.configure [("connection", .text "connection"), metadata])
        migrate plan

end SheetMill.Deployment
