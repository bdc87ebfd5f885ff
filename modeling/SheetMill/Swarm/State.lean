import SheetMill.Arguments
import SheetMill.Calendar
import SheetMill.Journal
import SheetMill.Text.Casing
import SheetMill.Value.Order

/-!
# The swarm

The services of a swarm, the commands that were given to it, and the metrics service.
-/

namespace SheetMill.Swarm

/-! ## Scaling policies -/

def configuration : Configuration := [
  ("DEBUG", .bool false),
  ("NODE_ENV", .text "development"),
  ("PROMETHEUS_URL", .text "http://prometheus:9090/"),
  ("STACK_NAME", .text "Ellipsis"),
  ("CHECK_INTERVAL", .int 30),
  ("COOLDOWN_PERIOD", .int 180),
  ("METRIC_WINDOW_MULTIPLIER", .int 4),
  ("DEFAULT_MIN_REPLICAS", .int 1),
  ("DEFAULT_MAX_REPLICAS", .int 10)]

/-- How the scaler is set up. -/
structure Settings where
  debug : Bool
  metricsUrl : Value
  /-- The stack whose services are scaled; all of them if it is empty. -/
  stack : Value
  interval : Value
  /-- The seconds for which a service is left alone after a change. -/
  cooldown : Value
  windowRounds : Value
  least : Value
  most : Value

def Settings.window (settings : Settings) : Outcome Value :=
  settings.interval.mul settings.windowRounds

def Settings.ofConfiguration (c : Configuration) : Settings where
  debug := c.flag "DEBUG"
  metricsUrl := c.value "PROMETHEUS_URL"
  stack := c.value "STACK_NAME"
  interval := c.value "CHECK_INTERVAL"
  cooldown := c.value "COOLDOWN_PERIOD"
  windowRounds := c.value "METRIC_WINDOW_MULTIPLIER"
  least := c.value "DEFAULT_MIN_REPLICAS"
  most := c.value "DEFAULT_MAX_REPLICAS"

/-- How much a service matters. -/
inductive Priority where
  | low | medium | high
  | other
  deriving Repr, DecidableEq

def Priority.ofValue : Value → Priority
  | .text "low" => .low
  | .text "medium" => .medium
  | .text "high" => .high
  | _ => .other

/-- How a service is scaled. -/
structure Policy where
  service : Value
  enabled : Value := .bool true
  priority : Value := .text "medium"
  least : Value
  /-- The largest number of replicas; minus one if there is no limit. -/
  most : Value
  metric : Value
  upAbove : Value
  downBelow : Value
  query : Value := .null

namespace Policy

def isUnlimited (p : Policy) : Bool := p.most.same (.int (-1))

def rank (p : Policy) : Priority := .ofValue p.priority

def serviceName (p : Policy) : String := p.service.plain

def fields (p : Policy) : List (String × Value) := [
  ("service_name", p.service),
  ("enabled", p.enabled),
  ("min_replicas", p.least),
  ("max_replicas", p.most),
  ("metric", p.metric),
  ("threshold_up", p.upAbove),
  ("threshold_down", p.downBelow),
  ("priority", p.priority),
  ("custom_query", p.query)]

def ofFields (args : Arguments) : Outcome Policy := do
  let bound ← args.bind {
    required := ["service_name", "enabled", "min_replicas", "max_replicas", "metric",
      "threshold_up", "threshold_down"]
    optional := [("priority", .text "medium"), ("custom_query", .null)] }
  return {
    service := bound.value "service_name"
    enabled := bound.value "enabled"
    least := bound.value "min_replicas"
    most := bound.value "max_replicas"
    metric := bound.value "metric"
    upAbove := bound.value "threshold_up"
    downBelow := bound.value "threshold_down"
    priority := bound.value "priority"
    query := bound.value "custom_query" }

/-- A label in small letters. -/
def lowered (label : Value) : Outcome String :=
  match label with
  | .text s => .ok (Text.lower s)
  | .bytes _ => .ok ""
  | v => .error (v.memberFault "lower")

def mostOf (label : Value) : Outcome Int := do
  if ["on-demand", "unlimited", "-1"].contains (← lowered label) then return -1
  label.toInt

def ofLabels? (settings : Settings) (service labels : Value) : Outcome (Option Policy) := do
  let enabled ← labels.getD "scaler.enabled" (.text "false")
  if (← lowered enabled) ≠ "true" then return none
  if settings.stack.truthy then
    let stack ← labels.getD "com.docker.stack.namespace" (.text "")
    if !stack.same settings.stack then return none
  let most ← mostOf (← labels.getD "scaler.max" (.text settings.most.plain))
  let least ← (← labels.getD "scaler.min" settings.least).toInt
  let up ← (← labels.getD "scaler.up" (.text "75")).toFloat
  let down ← (← labels.getD "scaler.down" (.text "25")).toFloat
  return some {
    service := .text service.plain
    least := .int least
    most := .int most
    priority := ← labels.getD "scaler.priority" (.text "medium")
    metric := ← labels.getD "scaler.metric" (.text "cpu")
    upAbove := .float up
    downBelow := .float down }

def ofAttributes? (settings : Settings) (service attributes : Value) :
    Outcome (Option Policy) := do
  let specification ← attributes.getD "Spec" (.map [])
  ofLabels? settings service (← specification.getD "Labels" (.map []))

end Policy

def percent (load : Float) : String := Decimal.fixedText 1 load ++ "%"

/-- Why a service is scaled. -/
inductive Reason where
  /-- Replicas of a service that matters are down, and its load is high. -/
  | emergency (down : Value) (load : Float)
  /-- The load is above the band of the policy, perhaps so urgently that nothing is waited for. -/
  | highLoad (p : Policy) (load : Float) (isUrgent : Bool)
  | lowLoad (p : Policy) (load : Float)
  | told (text : String)

def Reason.text : Reason → String
  | emergency down load =>
    "high priority emergency scale-up (" ++ down.plain ++ " down, load=" ++ percent load ++ ")"
  | highLoad p load isUrgent =>
    p.metric.plain ++ "=" ++ percent load ++ " > " ++ p.upAbove.plain ++ "%" ++
      if isUrgent then " | priority: " ++ p.priority.plain ++ " [ignored]" else ""
  | lowLoad p load => p.metric.plain ++ "=" ++ percent load ++ " < " ++ p.downBelow.plain ++ "%"
  | told text => text

/-! ## The swarm -/

/-- A service as the swarm reports it, and the faults of its calls. -/
structure Service where
  name : Value
  attributes : Value
  tasks : Value := .list []
  tasksFault : Option Fault := none
  updateFault : Option Fault := none

/-- A change of the number of replicas. -/
structure Update where
  service : Value
  replicas : Value
  reason : Reason
  moment : Outcome Moment

abbrev WebReply := Outcome (Value × Value)

/-- The swarm, the replies to its queries and what the scaler keeps. -/
structure State where
  services : List Service := []
  listed : Option (List Service) := none
  listFailures : Int := 0
  commands : List Value := []
  targets : List (Value × Value) := []
  updates : List Update := []
  troubles : List (Option Fault) := []
  /-- Whether there is no container any more with an identifier. -/
  isGone : Value → Bool := fun _ => false
  replies : List WebReply := []
  requests : List Value := []
  changes : List (Value × Moment) := []
  origin : Moment := ⟨0⟩
  clock : Value := .int 0
  passed : Nat := 0
  /-- The microseconds that pass before the coming looks at the clock. -/
  pauses : List Nat := []
  sleeps : List Value := []
  patience : Nat := 0
  journal : Journal := []

instance : Journaled State := ⟨fun line s => { s with journal := s.journal ++ [line] }⟩

abbrev Work := Act State

def tell (severity : Severity) (text : String) : Work Unit := note "scaler" severity text

/-- Reports trouble and gives an answer all the same. -/
def complain {α : Type} (text : String) (answer : α) : Work α := do
  tell .error text
  return answer

def failure (text : String) : Fault := .other "Exception" text

def sleep (seconds : Value) : Work Unit := do
  let s ← get
  set { s with sleeps := s.sleeps ++ [seconds], patience := s.patience - 1 }
  if s.patience = 0 then throw .interrupted

def State.now (s : State) : Outcome Moment := do
  s.origin.plus ((← Moment.spanOf 1000000 s.clock) + s.passed)

def State.tick (s : State) : State :=
  { s with passed := s.passed + s.pauses.headD 0, pauses := s.pauses.tail }

def readClock : Work Moment := do
  modify State.tick
  (← get).now

def reach : Work Unit := do
  let trouble := (← get).troubles.head?.join
  modify fun s => { s with troubles := s.troubles.tail }
  if let some fault := trouble then throw fault

def command (words : List Value) : Work Unit :=
  modify fun s => { s with commands := s.commands ++ [.list words] }

def allServices : Work (List Service) := do
  let s ← get
  if let some services := s.listed then return services
  command [.text "list"]
  if 0 < s.listFailures then
    modify fun s => { s with listFailures := s.listFailures - 1 }
    throw (failure "docker unavailable")
  modify fun s => { s with listed := some s.services }
  return s.services

def service (name : Value) : Work Service := do
  reach
  if !name.isKey then throw name.keyFault
  match (← get).services.find? (·.name.same name) with
  | some service => return service
  | none => throw (failure ("service not found: " ++ name.plain))

def addService (service : Service) : List Service → List Service
  | [] => [service]
  | x :: rest =>
    if x.name.same service.name then service :: rest else x :: addService service rest

def State.withService (s : State) (service : Service) : State :=
  { s with services := addService service s.services }

def Service.allTasks (service : Service) : Work Value := do
  reach
  match service.tasksFault with
  | some fault => throw fault
  | none => return service.tasks

def wantedOf (tasks : Value) : Outcome (List Value) := do
  (← tasks.items).filterM fun task => do
    return (← task.getD "DesiredState" (.text "running")).same (.text "running")

def stateOf (task : Value) : Outcome Value := do
  (← task.getD "Status" (.map [])).getD "State" .null

def Service.replicas (service : Service) : Outcome Value := do
  (← (← (← service.attributes.item "Spec").item "Mode").item "Replicated").item "Replicas"

def Service.update (service : Service) (replicas : Value) : Work Unit := do
  modify fun s => { s with targets := s.targets ++ [(service.name, replicas)] }
  reach
  if let some fault := service.updateFault then throw fault
  command [.text "update", service.name, replicas]
  let mode := Value.record [("Replicated", .record [("Replicas", replicas)])]
  let spec ← service.attributes.item "Spec"
  modify (·.withService { service with
    attributes := service.attributes.withField "Spec" (spec.withField "Mode" mode) })

def kill (task : Value) : Work Unit := do
  command [.text "kill", task]
  reach
  if task == .null || (← get).isGone task then throw (failure "no such container")

def request (url : String) (params : Value) (timeout : Int) : Work Value := do
  modify fun s => { s with requests := s.requests ++ [.list [.text url, params, .int timeout]] }
  match (← get).replies with
  | [] => throw (.badIndex "pop from empty list")
  | reply :: replies =>
    modify fun s => { s with replies }
    let (status, content) ← (reply : Outcome (Value × Value))
    if ← status.atLeast (.int 400) then throw (.web ("status " ++ status.plain))
    return content

end SheetMill.Swarm
