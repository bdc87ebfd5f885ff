import SheetMill.Journal
import SheetMill.Message.Sql
import SheetMill.Value.Json
import SheetMill.Workbook.Content

/-!
# The statements of a spreadsheet

The first data cell of a column says how the column is computed. For each sheet the statements that
build its table are planned and put together into one text.
-/

namespace SheetMill.Reader

open Message Workbook

/-- What the reader calls. -/
structure Surroundings (σ : Type) where
  parse : String → Act σ FormulaResponse
  toSql : SqlRequest → Act σ SqlTree
  plan : BuildRequest → Act σ BuildResponse

/-- A cell with the tree of its formula. -/
structure Parsed where
  listed : Listed
  tree : FormulaTree

/-- A cell with its tree and its SQL. -/
structure Worked where
  listed : Listed
  tree : Value
  sql : SqlTree

def Worked.toValue (w : Worked) : Value :=
  (w.listed.toValue.withField "ast" w.tree).withField "sql" (.message (w.sql.encode .byKey))

/-- What the reader makes of a spreadsheet. -/
structure Result where
  cells : Columns Worked
  names : Columns String

def Result.toValue (r : Result) : Value :=
  .record [("result", r.cells.toValue fun w => .list [w.toValue]),
    ("columns", r.names.toValue .text)]

def firstCells (data : Columns (List Listed)) : Columns Listed :=
  (data.map fun (title, columns) =>
    (title, columns.filterMap fun (k, cells) => cells.head?.map fun cell => (k, cell))).filter
      fun (_, columns) => !columns.isEmpty

def quoted (l : Listed) : Listed :=
  if l.cell.isText then
    { l with cell.value := .text ("\"" ++ l.cell.value.plain ++ "\"") }
  else l

variable {σ : Type}

def eachColumn {α β : Type} (columns : Columns α) (f : Value → α → Act σ β) :
    Act σ (Columns β) :=
  columns.mapM fun (title, sheet) => do
    return (title, ← sheet.mapM fun (k, a) => return (k, ← f title a))

def parseCells (services : Surroundings σ) (content : Content) : Act σ (Columns Parsed) :=
  eachColumn (firstCells content.data) fun _ l => do
    let l := quoted l
    let response ← services.parse l.cell.value.plain
    return ⟨l, response.tree.getD {}⟩

def read (services : Surroundings σ) (file : File) (limit filling : Value) :
    Act σ Result := do
  let content ← file.content limit filling
  let parsed ← parseCells services content
  let cells ← eachColumn parsed fun title p => do
    let columns := (content.names.sheet? title).getD []
    let sql ← services.toSql { tree := some p.tree, columns }
    return ⟨p.listed, ← p.tree.toValue, sql⟩
  return ⟨cells, content.names⟩

def columnTypes (description : Value) : Outcome (List (String × ColumnInfo)) := do
  let infos ← (← description.items).mapM fun key => do
    let v ← description.under key
    let type ← v.item "type"
    let extra ← v.getD "extra" (.text "")
    return (key, { type := ← Wire.Slot.text type, extra := ← Wire.Slot.text extra : ColumnInfo })
  BuildRequest.textKeys infos

def statementText (response : BuildResponse) : Outcome String := do
  let content ← response.toValue.item "content"
  let levels := (← content.entriesAs "keys").mergeSort fun a b =>
    decide (a.1.asInt?.getD 0 ≤ b.1.asInt?.getD 0)
  levels.foldlM (fun text (number, level) => do
    (← level.items).foldlM (fun text item => do
      let lead := if number.asInt? == some 0 then "" else "\n"
      return text ++ lead ++ (← item.item "sql").plain) text) ""

def tableText (services : Surroundings σ) (columns : List (String × SqlTree))
    (description table : Value) : Act σ String := do
  let dtypes ← columnTypes description
  let response ← services.plan { cols := columns, dtypes, tableName := ← Wire.Slot.text table }
  statementText response

def namedTrees (cells : Columns Worked) (title : Value) (names : List (String × String)) :
    Outcome (List (String × SqlTree)) :=
  names.foldlM (fun acc (letters, name) => do
    match cells.sheet? title with
    | none => throw (.missingKey title)
    | some columns =>
      match columns.lookup letters with
      | none => throw (.missingKey (.text letters))
      | some w => return Wire.putEntry acc name w.sql) []

/-- Answers the upload of a spreadsheet with the text of the statements for each sheet. -/
def upload (services : Surroundings σ) (file : File) (types table limit filling : Value) :
    Act σ (List (Value × String)) := do
  if !file.octets.truthy then throw (.refusal 400 (.text "File content is empty"))
  if !file.name.truthy then throw (.refusal 400 (.text "Filename is required"))
  let types ←
    match types.parsed with
    | .ok types => pure types
    | .error (.badJson detail) => throw (.refusal 400 (.text ("Invalid dtypes JSON: " ++ detail)))
    | .error f => throw f
  let table := if table.truthy then table.plain else ""
  let result ← read services file limit filling
  let trees ← result.names.mapM fun (title, names) =>
    return (title, ← namedTrees result.cells title names)
  trees.mapM fun (title, columns) => do
    let description ← types.under title
    return (title, ← tableText services columns description (.text (table ++ "_" ++ title.plain)))

end SheetMill.Reader
