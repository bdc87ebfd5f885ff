import SheetMill.Message.Transcoder

/-!
# Messages about schemas

Requests to the store of schemas and its answers.
-/

namespace SheetMill.Message

open Wire

def propertyTypes : Names := [("string", 0), ("integer", 1), ("number", 2), ("boolean", 3)]

/-- A property of a schema. -/
structure Property where
  type : Int := 0
  extra : List (String × String) := []

namespace Property

def codec : Codec Property := ⟨{}, [
  .int 1 (·.type) fun x m => { m with type := x },
  .textMap 2 (·.extra) fun x m => { m with extra := x }]⟩

def ofValue (v : Value) : Outcome Property := do
  let type ← propertyTypes.number (← v.item "type")
  let extra ← v.getD "extra" (.map [])
  return { type, extra := ← Slot.textMap extra }

def toValue (m : Property) : Outcome Value := do
  return .record [("type", ← propertyTypes.name m.type), ("extra", textMapValue m.extra)]

def transcoder : Transcoder := .of codec ofValue toValue

end Property

/-- A schema. -/
structure SchemaRecord where
  schema : String := ""
  type : String := ""
  required : List String := []
  properties : List (String × Property) := []

namespace SchemaRecord

def codec : Codec SchemaRecord := ⟨{}, [
  .text 1 (·.schema) fun x m => { m with schema := x },
  .text 2 (·.type) fun x m => { m with type := x },
  .texts 3 (·.required) fun x m => { m with required := x },
  .messageMap 4 Property.codec (·.properties) fun x m => { m with properties := x }]⟩

def ofValue (v : Value) : Outcome SchemaRecord := do
  let schema ← v.item "schema"
  let type ← v.item "type"
  let required ← v.item "required"
  let properties ← (← (← v.item "properties").entriesAs "items").mapM fun (k, w) => do
    return (k, ← Property.ofValue w)
  return {
    schema := ← Slot.text schema
    type := ← Slot.text type
    required := ← Slot.texts required
    properties := ← properties.foldlM
      (fun acc (k, p) => return putEntry acc (← Slot.textOf k) p) [] }

def toValue (m : SchemaRecord) : Outcome Value := do
  let properties ← m.properties.mapM fun (k, p) => return (k, ← p.toValue)
  return .record [("schema", .text m.schema), ("type", .text m.type),
    ("required", .texts m.required), ("properties", .record properties)]

def transcoder : Transcoder := .of codec ofValue toValue

end SchemaRecord

/-- Stores a schema. -/
structure InsertSchemaRequest where
  importName : String := ""
  createdAt : String := ""
  activeSchema : Option SchemaRecord := none
  schemasReleases : List SchemaRecord := []

namespace InsertSchemaRequest

def codec : Codec InsertSchemaRequest := ⟨{}, [
  .text 1 (·.importName) fun x m => { m with importName := x },
  .text 2 (·.createdAt) fun x m => { m with createdAt := x },
  .message 3 SchemaRecord.codec (·.activeSchema) fun x m => { m with activeSchema := x },
  .messages 4 SchemaRecord.codec (·.schemasReleases) fun x m => { m with schemasReleases := x }]⟩

def ofValue (v : Value) : Outcome InsertSchemaRequest := do
  let importName ← v.item "import_name"
  let createdAt ← v.item "created_at"
  let activeSchema ← SchemaRecord.ofValue (← v.item "active_schema")
  let schemasReleases ← (← (← v.item "schemas_releases").items).mapM SchemaRecord.ofValue
  return {
    importName := ← Slot.text importName
    createdAt := ← Slot.text createdAt
    activeSchema := some activeSchema
    schemasReleases }

def toValue (m : InsertSchemaRequest) : Outcome Value := do
  let activeSchema ← (m.activeSchema.getD {}).toValue
  let schemasReleases ← m.schemasReleases.mapM SchemaRecord.toValue
  return .record [("import_name", .text m.importName), ("created_at", .text m.createdAt),
    ("active_schema", activeSchema), ("schemas_releases", .list schemasReleases)]

def transcoder : Transcoder := .of codec ofValue toValue

end InsertSchemaRequest

/-- What became of a schema. -/
structure SchemaChange where
  status : String := ""
  result : List (String × String) := []

namespace SchemaChange

def codec : Codec SchemaChange := ⟨{}, [
  .text 1 (·.status) fun x m => { m with status := x },
  .textMap 2 (·.result) fun x m => { m with result := x }]⟩

def ofValue (v : Value) : Outcome SchemaChange := do
  let status ← v.item "status"
  let result ← v.item "result"
  return { status := ← Slot.text status, result := ← Slot.textMap result }

def toValue (m : SchemaChange) : Value :=
  .record [("status", .text m.status), ("result", textMapValue m.result)]

def transcoder : Transcoder := .of codec ofValue fun m => .ok m.toValue

end SchemaChange

def countResponse : Single Int := .int "amount"

/-- Names an import. -/
structure ImportRequest where
  importName : String := ""

namespace ImportRequest

def codec : Codec ImportRequest := ⟨{}, [
  .text 1 (·.importName) fun x m => { m with importName := x }]⟩

def ofValue (v : Value) : Outcome ImportRequest := do
  let importName ← v.item "import_name"
  return { importName := ← Slot.text importName }

def toValue (m : ImportRequest) : Value :=
  .record [("import_name", .text m.importName)]

def transcoder : Transcoder := .of codec ofValue fun m => .ok m.toValue

end ImportRequest

/-- A schema that was looked for. -/
structure FindSchemaResponse where
  status : String := ""
  extra : List (String × String) := []
  schema : Option SchemaRecord := none

namespace FindSchemaResponse

def codec : Codec FindSchemaResponse := ⟨{}, [
  .text 1 (·.status) fun x m => { m with status := x },
  .textMap 2 (·.extra) fun x m => { m with extra := x },
  .message 3 SchemaRecord.codec (·.schema) fun x m => { m with schema := x }]⟩

def ofValue (v : Value) : Outcome FindSchemaResponse := do
  let schema ←
    match ← v.item "schema" with
    | .null => pure none
    | w => some <$> SchemaRecord.ofValue w
  let status ← v.item "status"
  let extra ← v.item "extra"
  return { status := ← Slot.text status, extra := ← Slot.textMap extra, schema }

def toValue (m : FindSchemaResponse) : Outcome Value := do
  let schema ← (m.schema.getD {}).toValue
  return .record [("status", .text m.status), ("extra", textMapValue m.extra), ("schema", schema)]

def transcoder : Transcoder := .of codec ofValue toValue

end FindSchemaResponse

/-- Replaces a schema. -/
structure UpdateSchemaRequest where
  importName : String := ""
  schema : Option SchemaRecord := none
  createdAt : String := ""

namespace UpdateSchemaRequest

def codec : Codec UpdateSchemaRequest := ⟨{}, [
  .text 1 (·.importName) fun x m => { m with importName := x },
  .message 2 SchemaRecord.codec (·.schema) fun x m => { m with schema := x },
  .text 3 (·.createdAt) fun x m => { m with createdAt := x }]⟩

def ofValue (v : Value) : Outcome UpdateSchemaRequest := do
  let importName ← v.item "import_name"
  let schema ← SchemaRecord.ofValue (← v.item "schema")
  let createdAt ← v.item "created_at"
  return {
    importName := ← Slot.text importName
    schema := some schema
    createdAt := ← Slot.text createdAt }

def toValue (m : UpdateSchemaRequest) : Outcome Value := do
  let schema ← (m.schema.getD {}).toValue
  return .record [("import_name", .text m.importName), ("schema", schema),
    ("created_at", .text m.createdAt)]

def transcoder : Transcoder := .of codec ofValue toValue

end UpdateSchemaRequest

/-- Whether a schema was removed. -/
structure SchemaRemoval where
  success : Bool := false
  message : String := ""
  status : String := ""
  extra : List (String × String) := []

namespace SchemaRemoval

def codec : Codec SchemaRemoval := ⟨{}, [
  .bool 1 (·.success) fun x m => { m with success := x },
  .text 2 (·.message) fun x m => { m with message := x },
  .text 3 (·.status) fun x m => { m with status := x },
  .textMap 4 (·.extra) fun x m => { m with extra := x }]⟩

def ofValue (v : Value) : Outcome SchemaRemoval := do
  let success ← v.item "success"
  let message ← v.item "message"
  let status ← v.item "status"
  let extra ← v.item "extra"
  return {
    success := ← Slot.bool success
    message := ← Slot.text message
    status := ← Slot.text status
    extra := ← Slot.textMap extra }

def toValue (m : SchemaRemoval) : Value :=
  .record [("success", .bool m.success), ("message", .text m.message), ("status", .text m.status),
    ("extra", textMapValue m.extra)]

def transcoder : Transcoder := .of codec ofValue fun m => .ok m.toValue

end SchemaRemoval

end SheetMill.Message
