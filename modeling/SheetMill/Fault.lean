import SheetMill.Value

/-!
# Faults

Why a computation stopped. Each fault has a label, the name under which logs and callers know it,
and a message.
-/

namespace SheetMill

/-- The status codes of remote calls. -/
inductive RpcStatus where
  | cancelled | unknown | invalidArgument | deadlineExceeded | notFound | alreadyExists
  | permissionDenied | internal | unavailable | unauthenticated
  deriving Repr, DecidableEq

def RpcStatus.name : RpcStatus → String
  | cancelled => "CANCELLED"
  | unknown => "UNKNOWN"
  | invalidArgument => "INVALID_ARGUMENT"
  | deadlineExceeded => "DEADLINE_EXCEEDED"
  | notFound => "NOT_FOUND"
  | alreadyExists => "ALREADY_EXISTS"
  | permissionDenied => "PERMISSION_DENIED"
  | internal => "INTERNAL"
  | unavailable => "UNAVAILABLE"
  | unauthenticated => "UNAUTHENTICATED"

def RpcStatus.all : List RpcStatus :=
  [.cancelled, .unknown, .invalidArgument, .deadlineExceeded, .notFound, .alreadyExists,
    .permissionDenied, .internal, .unavailable, .unauthenticated]

def RpcStatus.ofName? (name : String) : Option RpcStatus := all.find? (·.name == name)

/-- The faults of the cache. -/
inductive CacheFault where
  | general
  | connection
  | timeout
  | response
  | data
  deriving Repr, DecidableEq

def CacheFault.label : CacheFault → String
  | general => "RedisError"
  | connection => "ConnectionError"
  | timeout => "TimeoutError"
  | response => "ResponseError"
  | data => "DataError"

def CacheFault.ofLabel? (label : String) : Option CacheFault :=
  [general, connection, timeout, response, data].find? (·.label == label)

/-- The faults of the store. -/
inductive StoreFault where
  | general
  | connection
  | reconnect
  | selection
  | operation
  deriving Repr, DecidableEq

def StoreFault.label : StoreFault → String
  | general => "PyMongoError"
  | connection => "ConnectionFailure"
  | reconnect => "AutoReconnect"
  | selection => "ServerSelectionTimeoutError"
  | operation => "OperationFailure"

def StoreFault.ofLabel? (label : String) : Option StoreFault :=
  [general, connection, reconnect, selection, operation].find? (·.label == label)

/-- The faults of the broker. -/
inductive BrokerFault where
  | general
  | connection
  | streamLost
  | channel
  | channelClosed
  deriving Repr, DecidableEq

def BrokerFault.label : BrokerFault → String
  | general => "AMQPError"
  | connection => "AMQPConnectionError"
  | streamLost => "StreamLostError"
  | channel => "AMQPChannelError"
  | channelClosed => "ChannelClosedByBroker"

def BrokerFault.ofLabel? (label : String) : Option BrokerFault :=
  [general, connection, streamLost, channel, channelClosed].find? (·.label == label)

/-- The faults with which a call can end. -/
inductive Fault where
  | missingKey (key : Value)
  | wrongKind (detail : String)
  | noMember (detail : String)
  | badValue (detail : String)
  | badIndex (detail : String)
  | zeroDivision (detail : String)
  | overflow (detail : String)
  | badMessage
  | badJson (detail : String)
  | badEncoding (detail : String)
  | unassigned (detail : String)
  | unsupported (detail : String)
  | noFile (detail : String)
  | badArchive (detail : String)
  | badSchema (detail : String)
  | refusal (status : Int) (detail : Value)
  | rpc (status : RpcStatus) (details : String)
  | cache (fault : CacheFault) (detail : String)
  | store (fault : StoreFault) (detail : String)
  | broker (fault : BrokerFault) (detail : String)
  | integrity (detail : String)
  | web (detail : String)
  | badFields (detail : String)
  | badToken (detail : String)
  | attemptsExhausted
  | interrupted
  | exit (code : Int)
  | other (label : String) (detail : String)
  deriving Repr

instance : Inhabited Fault := ⟨.noMember ""⟩

namespace Fault

/-- The fault of a recursion that does not end. -/
def tooDeep : Fault := .other "RecursionError" "maximum recursion depth exceeded"

def label : Fault → String
  | missingKey _ => "KeyError"
  | wrongKind _ => "TypeError"
  | noMember _ => "AttributeError"
  | badValue _ => "ValueError"
  | badIndex _ => "IndexError"
  | zeroDivision _ => "ZeroDivisionError"
  | overflow _ => "OverflowError"
  | badMessage => "DecodeError"
  | badJson _ => "JSONDecodeError"
  | badEncoding _ => "UnicodeDecodeError"
  | unassigned _ => "UnboundLocalError"
  | unsupported _ => "NotImplementedError"
  | noFile _ => "FileNotFoundError"
  | badArchive _ => "BadZipFile"
  | badSchema _ => "SchemaError"
  | refusal _ _ => "HTTPException"
  | rpc _ _ => "RpcError"
  | cache fault _ => fault.label
  | store fault _ => fault.label
  | broker fault _ => fault.label
  | integrity _ => "IntegrityError"
  | web _ => "HTTPError"
  | badFields _ => "ValidationError"
  | badToken _ => "InvalidTokenError"
  | attemptsExhausted => "RetryError"
  | interrupted => "KeyboardInterrupt"
  | exit _ => "SystemExit"
  | other label _ => label

def named (name detail : String) : Fault :=
  match name with
  | "KeyError" => .missingKey (.text detail)
  | "KeyboardInterrupt" => .interrupted
  | "SystemExit" => .exit (detail.toInt?.getD 0)
  | name =>
    ([wrongKind detail, noMember detail, badValue detail, badIndex detail, zeroDivision detail,
      overflow detail, badEncoding detail, unsupported detail, noFile detail].find?
        (·.label == name)).getD (.other name detail)

def message : Fault → String
  | missingKey key => key.literal
  | wrongKind d | noMember d | badValue d | badIndex d | zeroDivision d | overflow d | badJson d
  | badEncoding d | unassigned d | unsupported d | noFile d | badArchive d | badSchema d
  | cache _ d | store _ d | broker _ d | integrity d | web d | badFields d | badToken d => d
  | refusal status detail => toString status ++ ": " ++ detail.plain
  | rpc _ details => details
  | badMessage => "Error parsing message"
  | attemptsExhausted => "RetryError"
  | interrupted => ""
  | exit code => toString code
  | other _ d => d

def literal (fault : Fault) : String :=
  match fault with
  | missingKey key => "KeyError(" ++ key.literal ++ ")"
  | exit code => "SystemExit(" ++ toString code ++ ")"
  | interrupted => "KeyboardInterrupt()"
  | _ => fault.label ++ "(" ++ Text.quote fault.message ++ ")"

/-- Whether the fault is one that a program may handle, in contrast to a request to stop. -/
def isOrdinary : Fault → Bool
  | interrupted | exit _ => false
  | other label _ => label != "GeneratorExit" && label != "BaseException"
  | _ => true

end Fault

abbrev Outcome := Except Fault

abbrev Act (σ : Type) := EStateM Fault σ

/-! ## Outages -/

/-- An effect on some calls of a target: after the first `skip` of them, `times` of them. -/
structure Outage (ε : Type) where
  target : String
  method : Option String := none
  effect : ε
  skip : Int := 0
  times : Int := 1

namespace Outage

variable {ε : Type}

def concerns (o : Outage ε) (target method : String) : Bool :=
  o.target == target && (o.method == none || o.method == some method)

/-- The effect on a call, and the outages as the call leaves them. -/
def strike (target method : String) : List (Outage ε) → Option ε × List (Outage ε)
  | [] => (none, [])
  | o :: rest =>
    if o.concerns target method then
      if 0 < o.skip then
        let (effect, rest) := strike target method rest
        (effect, { o with skip := o.skip - 1 } :: rest)
      else if 0 < o.times then (some o.effect, { o with times := o.times - 1 } :: rest)
      else
        let (effect, rest) := strike target method rest
        (effect, o :: rest)
    else
      let (effect, rest) := strike target method rest
      (effect, o :: rest)

/-- How many calls can still be struck. -/
def total (outages : List (Outage ε)) : Nat := outages.foldr (fun o n => o.times.toNat + n) 0

end Outage

end SheetMill
