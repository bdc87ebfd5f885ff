import SheetMill.Accounts.Changes
import SheetMill.Broker.Publisher
import SheetMill.Checking.Consumer
import SheetMill.Client
import SheetMill.Deployment.Clients
import SheetMill.Deployment.Web
import SheetMill.Swarm.Monitor

/-!
# All programs

The programs of the components, with the levels of their journals.
-/

namespace SheetMill.Deployment

/-! ## Resources of a request -/

/-- What a program holds open. -/
inductive Resource where
  | channel (service : String)
  | session
  | publisher

variable {α : Type}

def withChannel (address : String) (work : Program α) : Program α := do
  let channel ← onRemote (Remote.connect address)
  work.andThen (onRemote (Remote.disconnect channel))

def withSession (work : Program α) : Program α := work.andThen (onSession Accounts.closeSession)

def withPublisher (work : Program α) : Program α := do
  let settings : Broker.Settings := {}
  let publisher : Broker.Publisher := { exchange := settings.exchangeValue, source := "publisher" }
  let channel ← onBroker (publisher.open_ settings.paramsValue)
  work.andThen (onBroker fun s =>
    match Broker.Publisher.close ⟨s, channel⟩ with
    | .ok () post => .ok () post.broker
    | .error f post => .error f post.broker)

def withResource (c : Configuration) (resource : Resource) (work : Program α) : Program α :=
  match resource with
  | .channel service => withChannel (c.text (service ++ "_CHANNEL")) work
  | .session => withSession work
  | .publisher => withPublisher work

/-! ## Programs that prepare, and the scaler

Before the gateway can run, its tables have to be reached and the first administrator has to be
there. The scaler waits until there is enough to measure and then watches the swarm. -/

def sayMain (severity : Severity) (text : String) : Program Unit := note "__main__" severity text

def provideAdministrator (c : Configuration) : Program Unit :=
  onSession (Accounts.provideAdministrator (c.value "FIRST_SUPERUSER")
    (c.value "FIRST_SUPERUSER_PASSWORD"))

def initialDataProgram (c : Configuration) : Program Unit := do
  sayMain .info "Creating initial information"
  Act.andThen (provideAdministrator c) (onSession Accounts.closeSession)
  sayMain .info "Initial information created"

def reachTables : Program Unit :=
  Act.handle (onSession (Accounts.commit.andThen Accounts.closeSession)) fun f => do
    sayMain .error f.message
    throw f

def reachTablesFrom (attempt : Nat) : Nat → Program Unit
  | 0 => throw .attemptsExhausted
  | n + 1 => do
    sayMain .info ("before " ++ toString attempt)
    match ← reachTables.attempt with
    | .ok () => pure ()
    | .error f =>
      if !f.isOrdinary then throw f
      sayMain .warning ("after " ++ toString attempt)
      if 0 < n then rest (.float 1.0)
      reachTablesFrom (attempt + 1) n

def tablesProgram : Program Unit := do
  sayMain .info "Initializing service"
  reachTablesFrom 1 300
  sayMain .info "Service finished initializing"

def scalerProgram (c : Configuration) : Program Unit := do
  let settings := Swarm.Settings.ofConfiguration c
  let debug := c.value "DEBUG"
  if debug.truthy then onSwarm (Swarm.tell .info ("Debug Mode: " ++ debug.plain))
  let window ← settings.window
  onSwarm (Swarm.tell .info ("waiting " ++ window.plain ++ "s before starting monitoring"))
  onSwarm (Swarm.sleep window)
  modify (·.withLevel "scaler" (if debug.truthy then .debug else .info))
  onSwarm (Swarm.monitor settings)

/-!
## The workers of the checking service

One program runs two workers, each on a thread of its own: one checks files, the other one takes
care of schemas.
-/

def sayWorkers (severity : Severity) (text : String) : Program Unit :=
  note "Typechecking.main" severity text

def workerPolicy (c : Configuration) : RetryPolicy where
  attempts := c.value "RABBITMQ_MAX_RETRIES"
  delay := c.value "RABBITMQ_RETRY_DELAY_SECONDS"
  backoff := c.value "RABBITMQ_BACKOFF_MULTIPLIER"

def consume (consumer : Checking.Consumer) : Program Unit := fun s =>
  let start : Checking.Consuming := { broker := s.broker, remote := s.remote }
  let (r, held) := consumer.run.outcome start
  let work : Program Unit := do
    onBroker (set held.broker)
    onRemote (set held.remote)
    r
  work s

/-- Runs work on a thread. -/
def onThread (name : String) (work : Program Unit) : Program Unit := do
  record (.thread name)
  match ← work.attempt with
  | .error (.exit code) => record (.threadExit name code)
  | .error f => throw f
  | .ok () => pure ()

def runWorker (name title : String) (consumer : Checking.Consumer) : Program Unit :=
  onThread name ((consume consumer).handle fun f =>
    sayWorkers .error (title ++ " worker error: " ++ f.message))

def signalNumber (name : String) : Int := if name == "SIGINT" then 2 else 15

def restUntilEnd : Program Unit := do
  let s ← get
  (List.replicate (s.ticks + 1) (Value.float 0.5)).forM rest
  match s.deliver with
  | none => throw .interrupted
  | some signal =>
    sayWorkers .info ("Received signal " ++ toString (signalNumber signal))
    throw (.exit 0)

def startWorkers (c : Configuration) (files schemas : Nat) : Program Unit := do
  let policy := workerPolicy c
  let threshold := c.value "RABBITMQ_THRESHOLD_SECONDS"
  runWorker "ValidationWorker" "Validation"
    { Checking.validationConsumer policy threshold with database := files }
  runWorker "SchemaWorker" "Schema"
    { Checking.schemaConsumer policy threshold with database := schemas }
  sayWorkers .info "All workers started successfully"
  restUntilEnd

def workersProgram (c : Configuration) : Program Unit := do
  record (.handle "SIGINT")
  record (.handle "SIGTERM")
  sayWorkers .info "Starting Worker Manager..."
  onBroker (Broker.configure ({} : Broker.Settings).all)
  sayWorkers .info "Connection Factory configured"
  let address := c.text "DATABASE_CONNECTION_CHANNEL"
  let files ← onRemote (Remote.connect address)
  let schemas ← onRemote (Remote.connect address)
  match ← (startWorkers c files schemas).attempt with
  | .error .interrupted =>
    sayWorkers .info "Shutting down workers..."
    sayWorkers .info "Workers stopped"
  | .error f => throw f
  | .ok () => pure ()

/-! ## Components -/

def settingsProgram (component : Component) : Program Unit := do
  print (← (Value.record component.settings).toJsonIndented 4)

def rootProgram : Program Unit := do print (← get).directory

def checkingParts : List String := ["main", "validation", "schemas", "http-server"]

def standardLevels : List (String × Severity) :=
  let setups := checkingParts.map checkingSetup ++
    [.formulas, .tables, .reader, .database, .scaler].map fun component =>
      LogSetup.of component "" component.settings
  ("__main__", .info) :: setups.map fun s => (s.name, s.level)

def programs (component : Component) (c : Configuration) (plan : MigrationPlan) :
    List (String × Program Unit) :=
  match component with
  | .formulas => [
    ("serve", (formulaListener c).program), ("ask", askFormulas c),
    ("settings", settingsProgram component), ("root", rootProgram)]
  | .tables => [
    ("serve", (tableListener c).program), ("ask", askTables c),
    ("settings", settingsProgram component), ("example", planExample)]
  | .reader => [("serve", readerProgram c)]
  | .checking => [("work", workersProgram c), ("serve", healthProgram c)]
  | .database => [("serve", databaseProgram c), ("settings", settingsProgram component)]
  | .gateway => [
    ("serve", gatewayProgram c), ("prepare", initialDataProgram c),
    ("administrator", provideAdministrator c), ("await", tablesProgram),
    ("migrate", migrationProgram plan c)]
  | .scaler => [("scale", scalerProgram c), ("root", rootProgram)]
  | .messaging => []

end SheetMill.Deployment
