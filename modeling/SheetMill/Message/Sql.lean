import SheetMill.Message.Formula

/-!
# Messages about SQL

The request for the SQL of a formula and the tree that answers it, and the request for the
statements that build a table with their answer.
-/

namespace SheetMill.Message

open Wire

/-- A formula to be put into SQL, and the names of the columns. -/
structure SqlRequest where
  tree : Option FormulaTree := none
  columns : List (String × String) := []

namespace SqlRequest

def codecUpTo (height : Nat) : Codec SqlRequest := ⟨{}, [
  .message 1 (FormulaTree.codecUpTo height) (·.tree) fun t m => { m with tree := t },
  .textMap 2 (·.columns) fun es m => { m with columns := es }]⟩

def ofValue (v : Value) : Outcome SqlRequest := do
  let tree ← FormulaTree.ofValue (← v.item "ast")
  let columns ← v.item "columns"
  return { tree := some tree, columns := ← Slot.textMap columns }

def toValue (m : SqlRequest) : Outcome Value := do
  let tree ← (m.tree.getD {}).toValue
  return .record [("ast", tree), ("columns", textMapValue m.columns)]

def encode (order : MapOrder) (m : SqlRequest) : Octets :=
  (codecUpTo (FormulaTree.heightOption m.tree)).encode order m

def decode (octets : Octets) : Outcome SqlRequest := (codecUpTo octets.length).decode octets

def transcoder : Transcoder where
  write order v := encode order <$> ofValue v
  read octets := do (← decode octets).toValue

end SqlRequest

/-- The tree of a formula with its SQL. -/
structure SqlTree where
  kind : Int := 0
  sql : String := ""
  value : Option Literal := none
  cell : Option String := none
  refType : Option Int := none
  column : Option String := none
  cellError : Option String := none
  start : Option String := none
  stop : Option String := none
  cells : List String := []
  columns : List String := []
  rangeError : Option String := none
  operator : Option String := none
  left : Option SqlTree := none
  right : Option SqlTree := none
  name : Option String := none
  arguments : List SqlTree := []
  operand : Option SqlTree := none

namespace SqlTree

mutual

def height : SqlTree → Nat
  | ⟨_, _, _, _, _, _, _, _, _, _, _, _, _, left, right, _, arguments, operand⟩ =>
    max (max (heightOption left) (heightOption right))
      (max (heightList arguments) (heightOption operand)) + 1

def heightOption : Option SqlTree → Nat
  | none => 0
  | some t => t.height

def heightList : List SqlTree → Nat
  | [] => 0
  | t :: rest => max t.height (heightList rest)

end

def codecUpTo : Nat → Codec SqlTree
  | 0 => ⟨{}, []⟩
  | height + 1 =>
    let sub := codecUpTo height
    ⟨{}, [
      .int 1 (·.kind) fun i m => { m with kind := i },
      .text 2 (·.sql) fun s m => { m with sql := s }] ++
      literalFields 3 (·.value) (fun l m => { m with value := l }) ++ [
      .text? 6 (·.cell) fun s m => { m with cell := s },
      .int? 7 (·.refType) fun i m => { m with refType := i },
      .text? 8 (·.column) fun s m => { m with column := s },
      .text? 9 (·.cellError) fun s m => { m with cellError := s },
      .text? 10 (·.start) fun s m => { m with start := s },
      .text? 11 (·.stop) fun s m => { m with stop := s },
      .texts 12 (·.cells) fun ss m => { m with cells := ss },
      .texts 13 (·.columns) fun ss m => { m with columns := ss },
      .text? 14 (·.rangeError) fun s m => { m with rangeError := s },
      .text? 15 (·.operator) fun s m => { m with operator := s },
      .message 16 sub (·.left) fun t m => { m with left := t },
      .message 17 sub (·.right) fun t m => { m with right := t },
      .text? 18 (·.name) fun s m => { m with name := s },
      .messages 19 sub (·.arguments) fun ts m => { m with arguments := ts },
      .message 20 sub (·.operand) fun t m => { m with operand := t }]⟩

/-- The literal of a value: a number of any size becomes one of single precision, and what is
neither a floating-point number, a text nor a truth value gives none. -/
def literalOf : Value → Option Literal
  | .float x => some (.number (Decimal.toSingle x))
  | .text s => some (.text s)
  | .bool b => some (.logical b)
  | _ => none

def ofNode (sub : Value → Outcome SqlTree) (v : Value) : Outcome SqlTree := do
  let kind ← nodeKinds.number (← v.item "type")
  let sql ← v.item "sql"
  let refType ← ifTruthy (optional v "refType") referenceKinds.number
  let cells ← ifTruthy (optional v "cells") Value.items
  let columns ← ifTruthy (optional v "columns") Value.items
  let left ← ifTruthy (optional v "left") sub
  let right ← ifTruthy (optional v "right") sub
  let arguments ← ifTruthy (optional v "arguments") fun xs => do (← xs.items).mapM sub
  let operand ← ifTruthy (optional v "operand") sub
  return {
    kind
    sql := ← Slot.text sql
    cell := ← Slot.text? (optional v "cell")
    refType
    column := ← Slot.text? (optional v "column")
    cellError := ← Slot.text? (optional v "error_cell")
    start := ← Slot.text? (optional v "start")
    stop := ← Slot.text? (optional v "end")
    cells := ← (cells.getD []).mapM Slot.textOf
    columns := ← (columns.getD []).mapM Slot.textOf
    rangeError := ← Slot.text? (optional v "error_cell_range")
    operator := ← Slot.text? (optional v "operator")
    left
    right
    name := ← Slot.text? (optional v "name")
    arguments := arguments.getD []
    operand
    value := literalOf (optional v "value") }

def ofValueUpTo : Nat → Value → Outcome SqlTree
  | 0, _ => .error .tooDeep
  | height + 1, v => ofNode (ofValueUpTo height) v

def ofValue (v : Value) : Outcome SqlTree := ofValueUpTo (v.height + 1) v

def nodeValue (t : SqlTree) (kind refType left right arguments operand : Value) : Value :=
  .record [("type", kind), ("sql", .text t.sql), ("cell", .ofText? t.cell), ("refType", refType),
    ("column", .ofText? t.column), ("error_cell", .ofText? t.cellError),
    ("start", .ofText? t.start), ("end", .ofText? t.stop), ("cells", .texts t.cells),
    ("columns", .texts t.columns), ("error_cell_range", .ofText? t.rangeError),
    ("operator", .ofText? t.operator), ("left", left), ("right", right),
    ("name", .ofText? t.name), ("arguments", arguments), ("operand", operand),
    ("value", Literal.toValue t.value)]

mutual

def toValue : SqlTree → Outcome Value
  | t@⟨kind, _, _, _, refType, _, _, _, _, _, _, _, _, left, right, _, arguments, operand⟩ => do
    let kind ← nodeKinds.name kind
    let refType ← FormulaTree.referenceKindValue refType
    let left ← toValueOption left
    let right ← toValueOption right
    let arguments ← toValueList arguments
    let operand ← toValueOption operand
    return t.nodeValue kind refType left right (.list arguments) operand

def toValueOption : Option SqlTree → Outcome Value
  | none => .ok .null
  | some t => t.toValue

def toValueList : List SqlTree → Outcome (List Value)
  | [] => .ok []
  | t :: rest => do
    let v ← t.toValue
    let vs ← toValueList rest
    return v :: vs

end

def encode (order : MapOrder) (t : SqlTree) : Octets := (codecUpTo t.height).encode order t

def decode (octets : Octets) : Outcome SqlTree := (codecUpTo (octets.length + 1)).decode octets

def transcoder : Transcoder where
  write order v := encode order <$> ofValue v
  read octets := do (← decode octets).toValue

end SqlTree

/-- The type of a column. -/
structure ColumnInfo where
  type : String := ""
  extra : String := ""

namespace ColumnInfo

def codec : Codec ColumnInfo := ⟨{}, [
  .text 1 (·.type) fun s m => { m with type := s },
  .text 2 (·.extra) fun s m => { m with extra := s }]⟩

def ofValue (v : Value) : Outcome ColumnInfo := do
  let type ← v.item "type"
  let extra ← v.item "extra"
  return { type := ← Slot.text type, extra := ← Slot.text extra }

def toValue (m : ColumnInfo) : Value := .record [("type", .text m.type), ("extra", .text m.extra)]

def transcoder : Transcoder := .of codec ofValue fun m => .ok m.toValue

end ColumnInfo

/-- A table to be built. -/
structure BuildRequest where
  cols : List (String × SqlTree) := []
  dtypes : List (String × ColumnInfo) := []
  tableName : String := ""

namespace BuildRequest

def codecUpTo (height : Nat) : Codec BuildRequest := ⟨{}, [
  .messageMap 1 (SqlTree.codecUpTo height) (·.cols) fun es m => { m with cols := es },
  .messageMap 2 ColumnInfo.codec (·.dtypes) fun es m => { m with dtypes := es },
  .text 3 (·.tableName) fun s m => { m with tableName := s }]⟩

def mapValues {α : Type} (v : Value) (make : Value → Outcome α) : Outcome (List (Value × α)) := do
  (← v.entriesAs "items").mapM fun (k, w) => return (k, ← make w)

def textKeys {α : Type} (entries : List (Value × α)) : Outcome (List (String × α)) :=
  entries.foldlM (fun acc (k, x) => return putEntry acc (← Slot.textOf k) x) []

def ofValue (v : Value) : Outcome BuildRequest := do
  let tableName ← v.item "table_name"
  let cols ← mapValues (← v.item "cols") SqlTree.ofValue
  let dtypes ← mapValues (← v.item "dtypes") ColumnInfo.ofValue
  return { tableName := ← Slot.text tableName, cols := ← textKeys cols, dtypes := ← textKeys dtypes }

def toValue (m : BuildRequest) : Outcome Value := do
  let cols ← m.cols.mapM fun (k, t) => return (k, ← t.toValue)
  return .record [("table_name", .text m.tableName), ("cols", .record cols),
    ("dtypes", .record (m.dtypes.map fun (k, i) => (k, i.toValue)))]

def encode (order : MapOrder) (m : BuildRequest) : Octets :=
  (codecUpTo (SqlTree.heightList (m.cols.map (·.2)))).encode order m

def decode (octets : Octets) : Outcome BuildRequest := (codecUpTo octets.length).decode octets

def transcoder : Transcoder where
  write order v := encode order <$> ofValue v
  read octets := do (← decode octets).toValue

end BuildRequest

/-- A statement and the columns that it needs. -/
structure Statement where
  sql : String := ""
  columns : List String := []

namespace Statement

def codec : Codec Statement := ⟨{}, [
  .text 1 (·.sql) fun s m => { m with sql := s },
  .texts 2 (·.columns) fun ss m => { m with columns := ss }]⟩

def ofValue (v : Value) : Outcome Statement := do
  let sql ← v.item "sql"
  let columns ← (← v.item "columns").items
  return { sql := ← Slot.text sql, columns := ← columns.mapM Slot.textOf }

def toValue (m : Statement) : Value :=
  .record [("sql", .text m.sql), ("columns", .texts m.columns)]

def transcoder : Transcoder := .of codec ofValue fun m => .ok m.toValue

end Statement

/-- The statements of a level. -/
structure Level where
  statements : List Statement := []

namespace Level

def codec : Codec Level := ⟨{}, [
  .messages 1 Statement.codec (·.statements) fun ss m => { m with statements := ss }]⟩

def ofValue (v : Value) : Outcome Level := do
  return ⟨← (← (← v.item "sql_content").items).mapM Statement.ofValue⟩

def toValue (m : Level) : Value :=
  .record [("sql_content", .list (m.statements.map Statement.toValue))]

def transcoder : Transcoder := .of codec ofValue fun m => .ok m.toValue

end Level

/-- The statements that build a table, level by level. -/
structure BuildResponse where
  content : List (Int × Level) := []
  error : Option String := none

namespace BuildResponse

def codec : Codec BuildResponse := ⟨{}, [
  .intMessageMap 1 Level.codec (·.content) fun es m => { m with content := es },
  .text? 2 (·.error) fun s m => { m with error := s }]⟩

def intKeys (entries : List (Value × Level)) : Outcome (List (Int × Level)) :=
  entries.foldlM
    (fun acc (k, x) => do
      match ← Slot.int? k with
      | some i => return putEntry acc i x
      | none => throw (Slot.refuse k)) []

def ofValue (v : Value) : Outcome BuildResponse := do
  let content ← BuildRequest.mapValues (← v.item "content") Level.ofValue
  let error ← v.item "error"
  return { content := ← intKeys content, error := ← Slot.text? error }

def toValue (m : BuildResponse) : Value :=
  .record [("content", .map (m.content.map fun (k, l) => (.int k, l.toValue))),
    ("error", .text (m.error.getD ""))]

def transcoder : Transcoder := .of codec ofValue fun m => .ok m.toValue

end BuildResponse

end SheetMill.Message
