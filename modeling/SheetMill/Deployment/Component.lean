import SheetMill.Swarm.State

/-!
# Components

The programs of the pipeline, each with its settings.
-/

namespace SheetMill

/-- The components that are deployed. -/
inductive Component where
  | formulas
  | tables
  | reader
  | checking
  | database
  | gateway
  | scaler
  | messaging
  deriving Repr, DecidableEq, Inhabited

namespace Component

def named : List (String × Component) := [
  ("formulas", formulas), ("tables", tables), ("reader", reader), ("checking", checking),
  ("database", database), ("gateway", gateway), ("scaler", scaler), ("messaging", messaging)]

def retrySettings (service delay backoff : String) (seconds : Float) : Configuration := [
  (service ++ "_MAX_RETRIES", .int 5), (service ++ delay, .float seconds),
  (service ++ backoff, .float 2.0)]

def databaseSettings : Configuration :=
  [("DATABASE_CONNECTION_HOST", .text "db"), ("DATABASE_CONNECTION_PORT", .int 50050)]

def brokerSettings : Configuration := [
  ("RABBITMQ_HOST", .text "mq"), ("RABBITMQ_PORT", .int 5672), ("RABBITMQ_VHOST", .text "/"),
  ("RABBITMQ_USER", .text "guest"), ("RABBITMQ_PASSWORD", .text "secret")]

def declared : Component → Configuration
  | formulas => [
    ("DDL_GENERATOR_HOST", .text "localhost"), ("DDL_GENERATOR_PORT", .text "50053"),
    ("DDL_GENERATOR_DEBUG", .bool false)]
  | tables => [
    ("SQL_BUILDER_HOST", .text "localhost"), ("SQL_BUILDER_PORT", .text "50054"),
    ("SQL_BUILDER_DEBUG", .bool false)]
  | reader => [
    ("FORMULA_PARSER_HOST", .text "localhost"), ("FORMULA_PARSER_PORT", .text "50052"),
    ("DDL_GENERATOR_HOST", .text "localhost"), ("DDL_GENERATOR_PORT", .text "50053"),
    ("SQL_BUILDER_HOST", .text "localhost"), ("SQL_BUILDER_PORT", .text "50054"),
    ("EXCEL_READER_HOST", .text "localhost"), ("EXCEL_READER_PORT", .int 8001),
    ("EXCEL_READER_DEBUG", .bool false)]
  | checking => [
    ("MINIMAL_SERVER_HOST", .text "0.0.0.0"), ("MINIMAL_SERVER_PORT", .int 8080),
    ("MINIMAL_SERVER_DEBUG", .bool false)] ++
    retrySettings "RABBITMQ" "_RETRY_DELAY_SECONDS" "_BACKOFF_MULTIPLIER" 1.0 ++ [
    ("RABBITMQ_THRESHOLD_SECONDS", .float 60.0), ("MAX_WORKERS", .int 1),
    ("WORKER_PREFETCH_COUNT", .int 1)] ++ databaseSettings ++
    retrySettings "DATABASE" "_RETRY_DELAY_SECONDS" "_BACKOFF_MULTIPLIER" 1.0
  | database => [
    ("MONGO_HOST", .text "mongo"), ("MONGO_PORT", .int 27017),
    ("MONGO_INITDB_ROOT_USERNAME", .null), ("MONGO_INITDB_ROOT_PASSWORD", .null),
    ("MONGO_DB", .text "etl"), ("MONGO_SCHEMAS_COLLECTION", .text "schemas"),
    ("MONGO_TASKS_COLLECTION", .text "tasks")] ++
    retrySettings "MONGO" "_RETRY_DELAY_SECONDS" "_RETRY_BACKOFF_FACTOR" 0.5 ++ [
    ("REDIS_HOST", .text "redis"), ("REDIS_PORT", .int 6379), ("REDIS_DB", .int 0),
    ("REDIS_PASSWORD", .text "pw"), ("REDIS_EXPIRE_SECONDS", .int 300)] ++
    retrySettings "REDIS" "_RETRY_DELAY_SECONDS" "_RETRY_BACKOFF_FACTOR" 0.5 ++
    databaseSettings ++ [
    ("DATABASE_CONNECTION_DEBUG", .bool false),
    ("TASK_TTL_PENDING_SECONDS", .int 1800), ("TASK_TTL_PROCESSING_SECONDS", .int 3600),
    ("TASK_TTL_COMPLETED_SECONDS", .int 86400), ("TASK_TTL_PUBLISHED_SECONDS", .int 43200),
    ("TASK_TTL_FAILED_SECONDS", .int 43200), ("USER_CACHE_TTL_SECONDS", .int 900),
    ("USER_LIST_CACHE_TTL_SECONDS", .int 300), ("SCHEMA_CACHE_TTL_SECONDS", .int 21600),
    ("DEFAULT_TTL_SECONDS", .int 1800)]
  | gateway => [
    ("API_V1_STR", .text "/api/v1"), ("CORS_ORIGINS", .texts ["*"]),
    ("SERVER_HOST", .text "0.0.0.0"), ("SERVER_PORT", .int 8000), ("SERVER_DEBUG", .bool false),
    ("FIRST_SUPERUSER", .text "root"), ("FIRST_SUPERUSER_PASSWORD", .text "rootpw")] ++
    brokerSettings ++
    retrySettings "RABBITMQ" "_RETRY_DELAY_SECONDS" "_BACKOFF_MULTIPLIER" 1.0 ++ [
    ("POSTGRES_HOST", .text "pg"), ("POSTGRES_PORT", .int 5432), ("POSTGRES_USER", .text "u"),
    ("POSTGRES_PASSWORD", .text "p"), ("POSTGRES_DB", .text "d")] ++ databaseSettings ++
    retrySettings "DATABASE" "_RETRY_DELAY_SECONDS" "_BACKOFF_MULTIPLIER" 1.0
  | scaler => Swarm.configuration
  | messaging => brokerSettings ++ [
    ("RABBITMQ_EXCHANGE", .text "typechecking.exchange"), ("RABBITMQ_EXCHANGE_TYPE", .text "topic"),
    ("RABBITMQ_QUEUE_SCHEMAS", .text "typechecking.schemas.queue"),
    ("RABBITMQ_QUEUE_VALIDATIONS", .text "typechecking.validations.queue"),
    ("RABBITMQ_QUEUE_RESULTS_SCHEMAS", .text "typechecking.schemas.results.queue"),
    ("RABBITMQ_QUEUE_RESULTS_VALIDATIONS", .text "typechecking.validation.results.queue"),
    ("RABBITMQ_ROUTING_KEY_SCHEMAS", .text "schemas.*"),
    ("RABBITMQ_ROUTING_KEY_VALIDATIONS", .text "validation.*"),
    ("RABBITMQ_ROUTING_KEY_RESULTS_SCHEMAS", .text "schemas.results.*"),
    ("RABBITMQ_ROUTING_KEY_RESULTS_VALIDATIONS", .text "validation.results.*"),
    ("RABBITMQ_PUBLISHERS_ROUTING_KEY_SCHEMAS", .text "schemas.request"),
    ("RABBITMQ_PUBLISHERS_ROUTING_KEY_VALIDATIONS", .text "validation.request"),
    ("RABBITMQ_PUBLISHERS_ROUTING_KEY_RESULTS_SCHEMAS", .text "schemas.results.publish"),
    ("RABBITMQ_PUBLISHERS_ROUTING_KEY_RESULTS_VALIDATIONS", .text "validation.results.publish")]

end Component

namespace Configuration

def channel (c : Configuration) (service : String) : String × Value :=
  (service ++ "_CHANNEL", .text (c.text (service ++ "_HOST") ++ ":" ++ c.text (service ++ "_PORT")))

def locator (scheme : String) (user password host port : Value) (path : Value) : Value :=
  let name := if user.truthy then user.plain else ""
  let secret := if password.truthy then ":" ++ password.plain else ""
  let credentials := if name.isEmpty && secret.isEmpty then "" else name ++ secret ++ "@"
  .text (scheme ++ "://" ++ credentials ++ host.plain ++ ":" ++ port.plain ++
    (if path.same .null then "" else "/" ++ path.plain))

def brokerLocator (c : Configuration) (path : Value) : String × Value :=
  ("RABBITMQ_URI", locator "amqp" (c.value "RABBITMQ_USER") (c.value "RABBITMQ_PASSWORD")
    (c.value "RABBITMQ_HOST") (c.value "RABBITMQ_PORT") path)

end Configuration

namespace Component

def derived (component : Component) (c : Configuration) : Configuration :=
  match component with
  | formulas => [c.channel "DDL_GENERATOR"]
  | tables => [c.channel "SQL_BUILDER"]
  | reader => [c.channel "FORMULA_PARSER", c.channel "DDL_GENERATOR", c.channel "SQL_BUILDER"]
  | checking => [c.channel "DATABASE_CONNECTION"]
  | database => [
    ("MONGO_URI", Configuration.locator "mongodb" (c.value "MONGO_INITDB_ROOT_USERNAME")
      (c.value "MONGO_INITDB_ROOT_PASSWORD") (c.value "MONGO_HOST") (c.value "MONGO_PORT") .null),
    ("REDIS_URI", Configuration.locator "redis" .null (c.value "REDIS_PASSWORD") (c.value "REDIS_HOST")
      (c.value "REDIS_PORT") .null),
    c.channel "DATABASE_CONNECTION"]
  | gateway => [
    c.brokerLocator (c.value "RABBITMQ_VHOST"),
    ("POSTGRES_URI", Configuration.locator "postgresql+psycopg2" (c.value "POSTGRES_USER")
      (c.value "POSTGRES_PASSWORD") (c.value "POSTGRES_HOST") (c.value "POSTGRES_PORT")
      (c.value "POSTGRES_DB")),
    c.channel "DATABASE_CONNECTION"]
  | scaler => []
  | messaging => [c.brokerLocator .null]

def settings (component : Component) (changes : Configuration := []) : Configuration :=
  let c := component.declared.with_ changes
  c ++ component.derived c

end Component

end SheetMill
