import SheetMill.Message.Cache
import SheetMill.Message.Schemas
import SheetMill.Message.Sql
import SheetMill.Message.Tasks

/-!
# The catalogue of messages

The remote calls of the database service and the other messages, with their transcoders.
-/

namespace SheetMill.Message

/-- The families of calls. -/
inductive Family where
  | cache
  | schemas
  | tasks
  deriving Repr, DecidableEq

/-- A call of the database service. -/
structure Call where
  name : String
  family : Family
  topic : String
  request : Transcoder
  response : Transcoder

namespace Call

def keys : Call :=
  ⟨"RedisGetKeys", .cache, "get_keys", keysRequest.transcoder, keysResponse.transcoder⟩

def set : Call :=
  ⟨"RedisSet", .cache, "set", SetRequest.transcoder, setResponse.transcoder⟩

def get : Call :=
  ⟨"RedisGet", .cache, "get", getRequest.transcoder, GetResponse.transcoder⟩

def delete : Call :=
  ⟨"RedisDelete", .cache, "delete", deleteRequest.transcoder, deleteResponse.transcoder⟩

def pingCache : Call :=
  ⟨"RedisPing", .cache, "ping", .constant (.kind "RedisPingRequest"), pingResponse.transcoder⟩

def dumpCache : Call :=
  ⟨"RedisGetCache", .cache, "get_cache", .constant (.map []), cacheResponse.transcoder⟩

def clearCache : Call :=
  ⟨"RedisClearCache", .cache, "clear_cache", .constant (.map []), clearResponse.transcoder⟩

def pingStore : Call :=
  ⟨"MongoPing", .schemas, "ping", .constant (.map []), pingResponse.transcoder⟩

def insertSchema : Call :=
  ⟨"MongoInsertOneSchema", .schemas, "insert_one_schema", InsertSchemaRequest.transcoder,
    SchemaChange.transcoder⟩

def countSchemas : Call :=
  ⟨"MongoCountAllDocuments", .schemas, "count_all_documents", .constant (.map []),
    countResponse.transcoder⟩

def findSchema : Call :=
  ⟨"MongoFindJsonSchema", .schemas, "find_jsonschema", ImportRequest.transcoder,
    FindSchemaResponse.transcoder⟩

def updateSchema : Call :=
  ⟨"MongoUpdateOneJsonSchema", .schemas, "update_one_jsonschema", UpdateSchemaRequest.transcoder,
    SchemaChange.transcoder⟩

def deleteSchema : Call :=
  ⟨"MongoDeleteOneJsonSchema", .schemas, "delete_one_jsonschema", ImportRequest.transcoder,
    SchemaRemoval.transcoder⟩

def deleteImport : Call :=
  ⟨"MongoDeleteImportName", .schemas, "delete_import_name", ImportRequest.transcoder,
    SchemaRemoval.transcoder⟩

def updateTask : Call :=
  ⟨"UpdateTaskId", .tasks, "update_task_id", UpdateTaskRequest.transcoder, TaskChange.transcoder⟩

def setTask : Call :=
  ⟨"SetTaskId", .tasks, "set_task_id", SetTaskRequest.transcoder, TaskChange.transcoder⟩

def getTask : Call :=
  ⟨"GetTaskId", .tasks, "get_task_id", GetTaskRequest.transcoder, GetTaskResponse.transcoder⟩

def tasksOfImport : Call :=
  ⟨"GetTasksByImportName", .tasks, "get_tasks_by_import_name", ImportTasksRequest.transcoder,
    importTasksResponse.transcoder⟩

end Call

def calls : List Call := [
  .keys, .set, .get, .delete, .pingCache, .dumpCache, .clearCache, .pingStore, .insertSchema,
  .countSchemas, .findSchema, .updateSchema, .deleteSchema, .deleteImport, .updateTask,
  .setTask, .getTask, .tasksOfImport]

def parts : List (String × Transcoder) := [
  ("ddl_request", SqlRequest.transcoder), ("ddl_response", SqlTree.transcoder),
  ("ast", FormulaTree.transcoder), ("token", Token.transcoder), ("tokens", tokens.transcoder),
  ("formula_parser_request", formulaRequest.transcoder),
  ("formula_parser_response", FormulaResponse.transcoder),
  ("request_column_info", ColumnInfo.transcoder), ("build_sql_request", BuildRequest.transcoder),
  ("sql_response_sql_content", Statement.transcoder),
  ("build_sql_response_content", Level.transcoder), ("build_sql_response", BuildResponse.transcoder),
  ("api_response", ApiResponse.transcoder), ("properties", Property.transcoder),
  ("jsonschema", SchemaRecord.transcoder)]

def enumerations : List (String × Names) :=
  [("ast_type", nodeKinds), ("ref_type", referenceKinds), ("property_type", propertyTypes)]

def transcoderIn? (family : Family) (name : String) : Option Transcoder :=
  calls.findSome? fun c =>
    if c.family != family then none
    else if name == c.topic ++ "_request" then some c.request
    else if name == c.topic ++ "_response" then some c.response
    else none

end SheetMill.Message
