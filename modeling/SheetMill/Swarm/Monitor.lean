import SheetMill.Swarm.State

/-!
# The monitor

Round after round the monitor looks at all services of the swarm. A service whose load leaves the
band of its policy gets one replica more or one less, unless it was changed a short while ago.
-/

namespace SheetMill.Swarm

/-!
## The load of a service

The metrics service is asked for the load of a service by a query that depends on the metric.
-/

def Policy.loadQuery (settings : Settings) (p : Policy) : Outcome Value := do
  if p.query.truthy then return p.query
  let window := (← settings.window).plain ++ "s"
  if !p.metric.isKey then throw p.metric.keyFault
  let labels := "\x7bjob=\"cadvisor\",container_label_com_docker_swarm_service_name=\"" ++
    p.serviceName
  match p.metric with
  | .text "cpu" => return .text ("avg(rate(container_cpu_usage_seconds_total" ++ labels ++
      "\",cpu=\"total\"\x7d[" ++ window ++ "])) * 100")
  | .text "memory" => return .text ("avg(container_memory_usage_bytes" ++ labels ++
      "\"\x7d / container_spec_memory_limit_bytes * 100)")
  | _ => return .null

def firstNumber? (answer : Value) : Outcome (Option Float) := do
  let results ← (← answer.item "data").item "result"
  if !results.truthy then return none
  let sample ← (← results.at_ 0).item "value"
  return some (← (← sample.at_ 1).toFloat)

def Policy.load? (settings : Settings) (p : Policy) : Work (Option Float) := do
  let query ← p.loadQuery settings
  if !query.truthy then
    tell .warning ("unknown metric: " ++ p.metric.plain)
    return none
  let ask : Work (Option Float) := do
    let answer ← request (settings.metricsUrl.plain ++ "/api/v1/query") (.record [("query", query)]) 5
    firstNumber? answer
  ask.handle fun fault => do
    let name := "service name: " ++ p.serviceName
    match fault with
    | .web detail => tell .warning ("(prometheus) " ++ name ++ " | http exception: " ++ detail)
    | fault => tell .warning (name ++ " | Error: " ++ fault.message)
    return none

/-!
## Replicas

How many replicas a service has and is meant to have, and how their number is changed.
-/

def meantReplicas (name : Value) : Work Value :=
  Act.handle (do (← service name).replicas) fun fault =>
    complain ("error getting current replicas for " ++ name.plain ++ ": " ++ fault.message) .null

def runningReplicas (name : Value) : Work (Option Nat) :=
  Act.handle
    (do
      let tasks ← wantedOf (← (← service name).allTasks)
      let states ← (tasks.mapM stateOf : Outcome (List Value))
      return some (states.filter (·.same (.text "running"))).length)
    fun fault =>
      complain ("error getting running replicas for " ++ name.plain ++ ": " ++ fault.message) none

def bothReplicas (name : Value) : Work (Option (Nat × Value)) := do
  let failed (what : String) : Work (Option (Nat × Value)) :=
    complain ("error getting replicas for " ++ name.plain ++ ": could not get " ++ what ++
      " replicas for " ++ name.plain) none
  match ← runningReplicas name with
  | none => failed "running"
  | some running =>
    match ← meantReplicas name with
    | .null => failed "current"
    | meant => return some (running, meant)

def mayChange (settings : Settings) (name : Value) : Work Bool := do
  if !name.isKey then throw name.keyFault
  match (← get).changes.find? (·.1.same name) with
  | none => return true
  | some (_, moment) =>
    let now ← readClock
    (Value.float (Moment.secondsOf (now.micros - moment.micros))).atLeast settings.cooldown

def State.updated (s : State) (service replicas : Value) (reason : Reason) : State :=
  { s.tick with updates := s.updates ++ [{ service, replicas, reason, moment := s.tick.now }] }

def State.changedAt (s : State) (service : Value) (moment : Moment) : State :=
  { s with changes := (service, moment) :: s.changes.filter (!·.1.same service) }

/-- Asks for a number of replicas and remembers when. -/
def scale (name target : Value) (reason : Reason) : Work Bool :=
  Act.handle
    (do
      let service ← service name
      let current ← meantReplicas name
      if !current.truthy then
        return ← complain ("could not scale " ++ name.plain ++ ", failed to get current replicas") false
      service.update target
      modify (·.updated name target reason)
      let direction := if ← target.greater current then "UP" else "DOWN"
      tell .info (direction ++ " " ++ name.plain ++ ": " ++ current.plain ++ " -> " ++
        target.plain ++ " (reason: " ++ reason.text ++ ")")
      let now ← readClock
      modify (·.changedAt name now)
      return true)
    fun fault => complain ("error scaling " ++ name.plain ++ ": " ++ fault.message) false

/-! ## Rounds -/

variable (settings : Settings)

def Policy.isUrgent (p : Policy) (load : Float) : Outcome Bool :=
  if p.rank = .high then (Value.float load).greater p.upAbove else .ok false

def Policy.mayGrow (p : Policy) (current : Value) : Outcome Bool :=
  if p.isUnlimited then .ok true else current.less p.most

def Policy.mayShrink (p : Policy) (current : Value) (isLow : Bool) : Outcome Bool :=
  if isLow then current.greater p.least else .ok false

/-- Scales a service whose load is outside its band. -/
def adjust (p : Policy) (current : Value) (load : Float) : Work Unit := do
  let isUrgent ← p.isUrgent load
  let mayChange ← mayChange settings p.service
  if !mayChange && !isUrgent then return
  let isHigh ← (Value.float load).greater p.upAbove
  let isLow ← (Value.float load).less p.downBelow
  if isHigh then
    if ← p.mayGrow current then
      let _ ← scale p.service (← current.add (.int 1)) (.highLoad p load isUrgent)
    else tell .warning (p.serviceName ++ " in max replicas (" ++ p.most.plain ++ ")")
  else if ← p.mayShrink current isLow then
    let _ ← scale p.service (← current.sub (.int 1)) (.lowLoad p load)
  else tell .info ("no actions required for " ++ p.serviceName)

def stopFailedTasks (name : Value) : Work Unit := do
  for task in ← (← (← service name).allTasks).items do
    let state ← stateOf task
    if !(state.same (.text "running") || state.same (.text "starting")) then
      let id ← task.getD "ID" .null
      let what := "(" ++ id.plain ++ ") (state: " ++ state.plain ++ ") (service: " ++ name.plain ++ ")"
      tell .info ("terminating failed task " ++ what)
      Act.handle (kill id) fun fault =>
        tell .error ("failed to terminate task " ++ what ++ ": " ++ fault.message)

/-- What is done about replicas that are down. -/
def recover (p : Policy) (down current : Value) (load : Float) : Work Unit := do
  let report := p.serviceName ++ ": " ++ down.plain ++ " replicas down, "
  match p.rank with
  | .high =>
    if ← (Value.float load).greater p.upAbove then
      tell .warning (report ++ "bypassing cooldown due to high priority and high load")
      let room ← p.most.sub current
      let _ ← scale p.service (← current.add (← down.smaller room)) (.emergency down load)
  | .medium =>
    tell .info (report ++ "terminating for swarm to recover")
    stopFailedTasks p.service
  | .low => tell .info (report ++ "low priority, no action taken (waiting for swarm)")
  | .other => pure ()

/-- Measures the load of a service and scales it if need be. -/
def evaluate (p : Policy) : Work Unit := do
  match ← p.load? settings with
  | none => tell .debug ("no valid metrics for " ++ p.serviceName ++ " (value: None)")
  | some load =>
    match ← bothReplicas p.service with
    | none => pure ()
    | some (running, current) =>
      let down ← current.sub (.int running)
      if ← down.greater (.int 0) then recover p down current load
      adjust settings p current load

/-- Looks at a service; trouble with it is only noted. -/
def look (service : Service) : Work Unit := do
  tell .debug ("processing service " ++ service.name.plain)
  let look : Work Unit := do
    tell .debug ("checking service " ++ service.name.plain)
    if let some policy ← Policy.ofAttributes? settings service.name service.attributes then
      tell .debug ("config found for " ++ policy.serviceName)
      evaluate settings policy
  look.handle fun fault =>
    tell .error ("error processing " ++ service.name.plain ++ ": " ++ fault.message)

/-- Looks at every service, and waits. -/
def round : Work Unit := do
  tell .debug "checking..."
  let services ← allServices
  tell .debug ("found " ++ toString services.length ++ " services")
  services.forM (look settings)
  sleep settings.interval

/-- At most the given number of rounds. A user who interrupts a round stops the monitor; after any
other trouble it waits and goes on. -/
def rounds : Nat → Work Unit
  | 0 => pure ()
  | n + 1 => do
    match ← (round settings).attempt with
    | .ok () => rounds n
    | .error .interrupted => tell .info "autoscaler stopped by user"
    | .error fault =>
      if !fault.isOrdinary then throw fault
      tell .error ("error in main loop: " ++ fault.message)
      sleep settings.interval
      rounds n

/-- Watches the swarm until the user interrupts. Every round waits once, so there is at most one
round more than there are waits that are not interrupted. -/
def monitor : Work Unit := do
  tell .info "autoscaler init"
  rounds settings ((← get).patience + 1)

end SheetMill.Swarm
