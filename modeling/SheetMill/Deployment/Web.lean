import SheetMill.Deployment.Stage

/-!
# Web servers

The reader, the checking service and the gateway answer web requests.
-/

namespace SheetMill.Deployment

/-! ## Where the lines of the journal go -/

/-- Where lines are logged. -/
inductive LogTarget where
  | rotating (file : String)
  | daily (file : String)
  | growing (file : String)
  | console

def LogTarget.file? : LogTarget → Option String
  | rotating file | daily file | growing file => some file
  | console => none

def maxNameSize : Nat := 255

/-- Why a file cannot be opened, if it cannot: all files stand in one directory, which has no
directories in it. -/
def fileTrouble? (name : String) : Option Fault :=
  if name.contains (Char.ofNat 0) then some (.badValue "embedded null byte")
  else if name.contains '/' then some (.noFile ("No such file or directory: '" ++ name ++ "'"))
  else if maxNameSize < name.utf8ByteSize then some (.other "OSError" "File name too long")
  else none

def fullSize : Int := 10 * 1024 * 1024

def keptFull : Int := 5

def keptDays : Int := 30

/-- Which lines are logged where, and in which form. -/
structure LogHandler where
  target : LogTarget
  level : Option Severity
  form : String

/-- The handlers of a logger. -/
structure LogSetup where
  name : String
  level : Severity
  handlers : List LogHandler

def consoleForm (tag : String) : String := "[%(levelname)s] " ++ tag ++ " %(message)s"

def fileForm (tag : String) : String := "[%(asctime)s] " ++ consoleForm tag

def fileHandlers (stem form : String) : List LogHandler := [
  ⟨.rotating (stem ++ ".log"), some .debug, form⟩,
  ⟨.daily (stem ++ "_daily.log"), some .info, form⟩,
  ⟨.growing (stem ++ "_errors.log"), some .error, form⟩]

def allHandlers (stem tag : String) (console : Option Severity := some .info) : List LogHandler :=
  fileHandlers stem (fileForm tag) ++ [⟨.console, console, consoleForm tag⟩]

def checkingSetup (part : String) : LogSetup :=
  let tag := "[server] [Typechecking] [" ++ part ++ "]"
  { name := "Typechecking." ++ part
    level := .debug
    handlers := allHandlers ("typechecking_" ++ part) tag ++
      fileHandlers "typechecking_server" (fileForm tag) }

def LogSetup.of (component : Component) (part : String) (c : Configuration) : LogSetup :=
  let verbose (flag : String) (otherwise : Severity) := if c.flag flag then .debug else otherwise
  match component with
  | .formulas =>
    { name := "DDLGeneratorServer", level := verbose "DDL_GENERATOR_DEBUG" .info
      handlers := allHandlers "ddlgenerator_server" "[server] [ddl-generator]" }
  | .tables =>
    { name := "SQLBuilderServer", level := verbose "SQL_BUILDER_DEBUG" .info
      handlers := allHandlers "sqlbuilder_server" "[server] [SQLBuilder]" }
  | .reader =>
    { name := "ExcelReaderServer", level := verbose "EXCEL_READER_DEBUG" .info
      handlers := allHandlers "excelreader_server" "[server] [excel-reader]" }
  | .database =>
    { name := "Messaging Server", level := verbose "DATABASE_CONNECTION_DEBUG" .error
      handlers := allHandlers "messaging_server" "[server] [Messaging]" none }
  | .scaler => { name := "scaler", level := .info, handlers := allHandlers "scaler" "[scaler]" }
  | .checking | .gateway | .messaging => checkingSetup part

def LogSetup.opened (s : LogSetup) : Outcome LogSetup :=
  match s.handlers.findSome? fun h => h.target.file?.bind fileTrouble? with
  | some fault => .error fault
  | none => .ok s

/-! ## As values -/

def LogHandler.toValue (h : LogHandler) : Value :=
  let (kind, file, size, time, kept) : String × Value × Value × Value × Value :=
    match h.target with
    | .rotating file => ("RotatingFileHandler", .text file, .int fullSize, .null, .int keptFull)
    | .daily file => ("TimedRotatingFileHandler", .text file, .null, .text "MIDNIGHT", .int keptDays)
    | .growing file => ("FileHandler", .text file, .null, .null, .null)
    | .console => ("StreamHandler", .null, .null, .null, .null)
  .record [("class", .text kind), ("level", .text ((h.level.map Severity.name).getD "NOTSET")),
    ("format", .text h.form), ("file", file), ("max_bytes", size), ("when", time),
    ("backups", kept), ("encoding", if file.truthy then .text "utf-8" else .null)]

def LogSetup.toValue (s : LogSetup) : Value :=
  .record [("name", .text s.name), ("level", .text s.level.name), ("propagate", .bool false),
    ("handlers", .list (s.handlers.map LogHandler.toValue))]

/-! ## Routes -/

/-- A route of a site. -/
structure Route where
  method : String
  path : String
  operation : String
  deriving Repr, DecidableEq

def Route.under (path : String) (r : Route) : Route := { r with path := path ++ r.path }

/-- What a site serves. -/
structure Site where
  routes : List Route
  origins : Option Value := none
  handlers : List (String × String) := []
  options : List (String × Value) := []

def gatewayGroups : List (String × List Route) := [
  ("/login", [
    ⟨"POST", "/access-token", "login_access_token"⟩,
    ⟨"GET", "/test-token", "test_token"⟩]),
  ("/cache", [
    ⟨"GET", "/", "get_cache"⟩,
    ⟨"DELETE", "/clear", "clear_cache"⟩]),
  ("/users", [
    ⟨"GET", "/info", "get_user_info"⟩,
    ⟨"GET", "/search/\x7busername\x7d", "get_user"⟩,
    ⟨"GET", "/search", "get_all_users"⟩,
    ⟨"POST", "/create", "create_user"⟩,
    ⟨"PATCH", "/update/\x7busername\x7d", "update_user"⟩,
    ⟨"DELETE", "/delete/\x7busername\x7d", "delete_user"⟩]),
  ("/schemas", [
    ⟨"POST", "/upload/\x7bimport_name\x7d", "upload_schema"⟩,
    ⟨"GET", "/status", "get_schema_task"⟩,
    ⟨"DELETE", "/remove/\x7bimport_name\x7d", "remove_schema"⟩]),
  ("/validation", [
    ⟨"POST", "/upload/\x7bimport_name\x7d", "validate"⟩,
    ⟨"GET", "/status", "get_validation_status"⟩])]

def gatewaySite (c : Configuration) : Site :=
  let version := c.text "API_V1_STR"
  let origins := c.value "CORS_ORIGINS"
  { routes := gatewayGroups.flatMap fun (path, routes) => routes.map (·.under (version ++ path))
    origins := if origins.truthy then some origins else none
    handlers := [("RpcError", "grpc_exception_handler"), ("AMQPError", "rabbitmq_exception_handler"),
      ("Exception", "general_exception_handler")]
    options := [("title", .text "ETL Design API"), ("openapi_url", .text (version ++ "/openapi.json"))] }

def siteOf (component : Component) (c : Configuration) : Site :=
  match component with
  | .reader =>
    { routes := [⟨"POST", "/excel-parser", "read_excel"⟩], origins := some (.texts ["*"]) }
  | .gateway => gatewaySite c
  | _ => { routes := [⟨"GET", "/", "root"⟩, ⟨"GET", "/health", "health_check"⟩] }

def Site.toValue (s : Site) : Value :=
  let sharing (origins : Value) : Value := .list [.text "CORSMiddleware", .record [
    ("allow_origins", origins), ("allow_credentials", .bool true),
    ("allow_methods", .texts ["*"]), ("allow_headers", .texts ["*"])]]
  .record [
    ("routes", .list (s.routes.map fun r => .texts [r.method, r.path, r.operation])),
    ("middleware", .list (s.origins.toList.map sharing)),
    ("exception_handlers", .list (s.handlers.map fun (kind, handler) => .texts [kind, handler])),
    ("options", .record s.options)]

/-! ## Where the lines of a web server go -/

def LogTarget.configuration (form : String) (target : LogTarget) (console : String) : Value :=
  let path (file : String) : String × Value := ("filename", .text ("logs/" ++ file))
  let more : List (String × Value) :=
    match target with
    | .rotating file => [("class", .text "logging.handlers.RotatingFileHandler"), path file,
        ("maxBytes", .int fullSize), ("backupCount", .int keptFull), ("encoding", .text "utf-8")]
    | .daily file => [("class", .text "logging.handlers.TimedRotatingFileHandler"), path file,
        ("when", .text "midnight"), ("interval", .int 1), ("backupCount", .int keptDays),
        ("encoding", .text "utf-8")]
    | .growing file => [("class", .text "logging.FileHandler"), path file,
        ("encoding", .text "utf-8"), ("level", .text "ERROR")]
    | .console => [("class", .text "logging.StreamHandler"), ("stream", .text ("ext://sys." ++ console))]
  .record (("formatter", .text form) :: more)

def fileTargets (start stem : String) : List (String × Value) := [
  (start ++ "file", LogTarget.configuration "file" (.rotating (stem ++ ".log")) ""),
  (start ++ "daily", LogTarget.configuration "file" (.daily (stem ++ "_daily.log")) ""),
  (start ++ "error", LogTarget.configuration "file" (.growing (stem ++ "_errors.log")) "")]

def consoleTargets : List (String × Value) := [
  ("default", LogTarget.configuration "default" .console "stderr"),
  ("access", LogTarget.configuration "access" .console "stdout")]

def lineSource (targets : List String) (level : String := "INFO") : Value :=
  .record [("handlers", .texts targets), ("level", .text level), ("propagate", .bool false)]

def lineConfiguration (forms targets sources : List (String × Value)) (others : List String) :
    Value :=
  .record [("version", .int 1), ("disable_existing_loggers", .bool false),
    ("formatters", .record forms), ("handlers", .record targets), ("loggers", .record sources),
    ("root", .record [("level", .text "INFO"), ("handlers", .texts others)])]

def taggedForms (tag : String) : List (String × Value) :=
  let form (s : String) : Value := .record [("format", .text s)]
  [("default", form (consoleForm tag)), ("access", form (consoleForm tag)),
    ("file", form (fileForm tag))]

def generalTargets : List String := ["default", "file", "daily", "error"]

def commonTargets : List String := ["consolidated_file", "consolidated_daily", "consolidated_error"]

def readerLines : Value :=
  lineConfiguration (taggedForms "[server] [excel-reader]")
    (consoleTargets ++ fileTargets "" "excelreader_server")
    [("uvicorn", lineSource generalTargets), ("uvicorn.error", lineSource generalTargets),
      ("uvicorn.access", lineSource ["access"])]
    ["default", "access", "file", "daily", "error"]

def checkingLines : Value :=
  let all := lineSource (generalTargets ++ commonTargets)
  lineConfiguration (taggedForms "[server] [Typechecking] [http-server]")
    (consoleTargets ++ fileTargets "" "typechecking_http-server" ++
      fileTargets "consolidated_" "typechecking_server")
    [("uvicorn", all), ("uvicorn.error", all),
      ("uvicorn.access",
        lineSource ["access", "file", "daily", "consolidated_file", "consolidated_daily"]),
      ("src.minimal_server", all)]
    (["default", "access", "file", "daily", "error"] ++ commonTargets)

def gatewayLines : Value :=
  let request := "%(client_addr)s - \"%(request_line)s\" %(status_code)s"
  let dates : String × Value := ("datefmt", .text "%Y-%m-%d %H:%M:%S")
  let coloured (kind form : String) (more : List (String × Value)) : Value :=
    .record ([("()", .text ("uvicorn.logging." ++ kind ++ "Formatter")), ("fmt", .text form)] ++ more)
  lineConfiguration [
    ("default", coloured "Default" "%(levelprefix)s %(message)s" [("use_colors", .null)]),
    ("access", coloured "Access" ("%(levelprefix)s " ++ request) []),
    ("file", .record [
      ("format", .text "[%(asctime)s] [%(levelname)s] [server] [API] %(name)s - %(message)s"), dates]),
    ("access_file",
      coloured "Access" ("[%(asctime)s] [%(levelname)s] [server] [API] [access] " ++ request) [dates])]
    (consoleTargets ++ fileTargets "" "api_server" ++
      [("access_file", LogTarget.configuration "access_file" (.rotating "api_access.log") "")])
    [("uvicorn", lineSource generalTargets), ("uvicorn.error", lineSource generalTargets),
      ("uvicorn.access", lineSource ["access", "access_file"]), ("API", lineSource generalTargets),
      ("sqlalchemy.engine", lineSource ["file", "error"] "WARNING"),
      ("sqlalchemy.pool", lineSource ["file", "error"] "WARNING")]
    generalTargets

/-! ## Programs -/

def listenOptions (c : Configuration) (service : String) : List (String × Value) := [
  ("host", c.value (service ++ "_HOST")), ("port", c.value (service ++ "_PORT")),
  ("reload", c.value (service ++ "_DEBUG"))]

def watchOptions (watched : Bool) (directory : String) : List (String × Value) :=
  let given (v : Value) : Value := if watched then v else .null
  [("reload_dirs", given (.texts [directory])), ("reload_includes", given (.texts ["*.py"]))]

def readerProgram (c : Configuration) : Program Unit :=
  record (.web .reader (listenOptions c "EXCEL_READER" ++ [("log_config", readerLines)]))

def healthProgram (c : Configuration) : Program Unit := do
  note "Typechecking.http-server" .info ("Starting minimal HTTP server on " ++
    c.text "MINIMAL_SERVER_HOST" ++ ":" ++ c.text "MINIMAL_SERVER_PORT")
  record (.web .checking (listenOptions c "MINIMAL_SERVER" ++
    watchOptions (c.flag "MINIMAL_SERVER_DEBUG") "src/" ++
    [("log_config", checkingLines), ("log_level", .text "info"), ("use_colors", .bool true),
      ("access_log", .bool true)]))

def gatewayProgram (c : Configuration) : Program Unit :=
  record (.web .gateway (listenOptions c "SERVER" ++
    watchOptions (c.flag "SERVER_DEBUG") "src" ++
    [("log_config", gatewayLines), ("log_level", .text "debug"), ("use_colors", .bool true)]))

end SheetMill.Deployment
