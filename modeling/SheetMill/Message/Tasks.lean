import SheetMill.Message.Transcoder

/-!
# Messages about tasks

Requests to the store of tasks and its answers.
-/

namespace SheetMill.Message

open Wire

/-- The state of a task. -/
structure ApiResponse where
  status : String := ""
  code : Int := 0
  message : String := ""
  data : List (String × String) := []

namespace ApiResponse

def codec : Codec ApiResponse := ⟨{}, [
  .text 1 (·.status) fun x m => { m with status := x },
  .int 2 (·.code) fun x m => { m with code := x },
  .text 3 (·.message) fun x m => { m with message := x },
  .textMap 4 (·.data) fun x m => { m with data := x }]⟩

def ofValue (v : Value) : Outcome ApiResponse := do
  let status ← v.item "status"
  let code ← v.item "code"
  let message ← v.item "message"
  let data ← v.item "data"
  return {
    status := ← Slot.text status
    code := ← Slot.int code
    message := ← Slot.text message
    data := ← Slot.textMap data }

def toValue (m : ApiResponse) : Value :=
  .record [("status", .text m.status), ("code", .int m.code), ("message", .text m.message),
    ("data", textMapValue m.data)]

def transcoder : Transcoder := .of codec ofValue fun m => .ok m.toValue

end ApiResponse

/-- Changes a field of a task. -/
structure UpdateTaskRequest where
  taskId : String := ""
  field : String := ""
  value : String := ""
  task : String := ""
  message : Option String := none
  data : List (String × String) := []
  resetData : Option Bool := none

namespace UpdateTaskRequest

def codec : Codec UpdateTaskRequest := ⟨{}, [
  .text 1 (·.taskId) fun x m => { m with taskId := x },
  .text 2 (·.field) fun x m => { m with field := x },
  .text 3 (·.value) fun x m => { m with value := x },
  .text 4 (·.task) fun x m => { m with task := x },
  .text? 5 (·.message) fun x m => { m with message := x },
  .textMap 6 (·.data) fun x m => { m with data := x },
  .bool? 7 (·.resetData) fun x m => { m with resetData := x }]⟩

def ofValue (v : Value) : Outcome UpdateTaskRequest := do
  let taskId ← v.item "task_id"
  let field ← v.item "field"
  let value ← v.item "value"
  let task ← v.item "task"
  let message ← v.item "message"
  let data ← v.item "data"
  let resetData ← v.item "reset_data"
  return {
    taskId := ← Slot.text taskId
    field := ← Slot.text field
    value := ← Slot.text value
    task := ← Slot.text task
    message := ← Slot.text? message
    data := ← Slot.textMap data
    resetData := ← Slot.bool? resetData }

def toValue (m : UpdateTaskRequest) : Value :=
  .record [("task_id", .text m.taskId), ("field", .text m.field), ("value", .text m.value),
    ("task", .text m.task), ("message", .text (m.message.getD "")), ("data", textMapValue m.data),
    ("reset_data", .bool (m.resetData.getD false))]

def transcoder : Transcoder := .of codec ofValue fun m => .ok m.toValue

end UpdateTaskRequest

/-- Whether a task was changed. -/
structure TaskChange where
  success : Bool := false
  message : String := ""

namespace TaskChange

def codec : Codec TaskChange := ⟨{}, [
  .bool 1 (·.success) fun x m => { m with success := x },
  .text 2 (·.message) fun x m => { m with message := x }]⟩

def ofValue (v : Value) : Outcome TaskChange := do
  let success ← v.item "success"
  let message ← v.item "message"
  return { success := ← Slot.bool success, message := ← Slot.text message }

def toValue (m : TaskChange) : Value :=
  .record [("success", .bool m.success), ("message", .text m.message)]

def transcoder : Transcoder := .of codec ofValue fun m => .ok m.toValue

end TaskChange

/-- Sets a task. -/
structure SetTaskRequest where
  taskId : String := ""
  value : Option ApiResponse := none
  task : String := ""

namespace SetTaskRequest

def codec : Codec SetTaskRequest := ⟨{}, [
  .text 1 (·.taskId) fun x m => { m with taskId := x },
  .message 2 ApiResponse.codec (·.value) fun x m => { m with value := x },
  .text 3 (·.task) fun x m => { m with task := x }]⟩

def ofValue (v : Value) : Outcome SetTaskRequest := do
  let taskId ← v.item "task_id"
  let value ← ApiResponse.ofValue (← v.item "value")
  let task ← v.item "task"
  return { taskId := ← Slot.text taskId, value := some value, task := ← Slot.text task }

def toValue (m : SetTaskRequest) : Value :=
  .record [("task_id", .text m.taskId), ("value", (m.value.getD {}).toValue), ("task", .text m.task)]

def transcoder : Transcoder := .of codec ofValue fun m => .ok m.toValue

end SetTaskRequest

/-- Asks for a task. -/
structure GetTaskRequest where
  taskId : String := ""
  task : String := ""

namespace GetTaskRequest

def codec : Codec GetTaskRequest := ⟨{}, [
  .text 1 (·.taskId) fun x m => { m with taskId := x },
  .text 2 (·.task) fun x m => { m with task := x }]⟩

def ofValue (v : Value) : Outcome GetTaskRequest := do
  let taskId ← v.item "task_id"
  let task ← v.item "task"
  return { taskId := ← Slot.text taskId, task := ← Slot.text task }

def toValue (m : GetTaskRequest) : Value :=
  .record [("task_id", .text m.taskId), ("task", .text m.task)]

def transcoder : Transcoder := .of codec ofValue fun m => .ok m.toValue

end GetTaskRequest

/-- A task that was asked for. -/
structure GetTaskResponse where
  value : Option ApiResponse := none
  found : Bool := false

namespace GetTaskResponse

def codec : Codec GetTaskResponse := ⟨{}, [
  .message 1 ApiResponse.codec (·.value) fun x m => { m with value := x },
  .bool 2 (·.found) fun x m => { m with found := x }]⟩

def ofValue (v : Value) : Outcome GetTaskResponse := do
  let value ←
    match ← v.item "value" with
    | .null => pure none
    | w => some <$> ApiResponse.ofValue w
  let found ← v.item "found"
  return { value, found := ← Slot.bool found }

def toValue (m : GetTaskResponse) : Value :=
  .record [("value", (m.value.map ApiResponse.toValue).getD .null), ("found", .bool m.found)]

def transcoder : Transcoder := .of codec ofValue fun m => .ok m.toValue

end GetTaskResponse

/-- Asks for the tasks of an import. -/
structure ImportTasksRequest where
  importName : String := ""
  task : String := ""

namespace ImportTasksRequest

def codec : Codec ImportTasksRequest := ⟨{}, [
  .text 1 (·.importName) fun x m => { m with importName := x },
  .text 2 (·.task) fun x m => { m with task := x }]⟩

def ofValue (v : Value) : Outcome ImportTasksRequest := do
  let importName ← v.item "import_name"
  let task ← v.item "task"
  return { importName := ← Slot.text importName, task := ← Slot.text task }

def toValue (m : ImportTasksRequest) : Value :=
  .record [("import_name", .text m.importName), ("task", .text m.task)]

def transcoder : Transcoder := .of codec ofValue fun m => .ok m.toValue

end ImportTasksRequest

def importTasksResponse : Single (List ApiResponse) :=
  .messages "tasks" ApiResponse.codec ApiResponse.ofValue ApiResponse.toValue

end SheetMill.Message
