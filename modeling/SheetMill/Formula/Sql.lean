import SheetMill.Formula.Node
import SheetMill.Sheet.Reference

/-!
# SQL of formulas

A formula tree becomes a tree of the same shape in which every node carries its SQL under `sql`. A
rectangle of cells has columns and no SQL, so it can only be an argument of a function that asks for
columns.
-/

namespace SheetMill.Formula

open Text

def joinTexts (separator : String) (items : Value) : Outcome String := do
  let items ←
    match items with
    | .list xs => pure xs
    | v =>
      match v.items with
      | .ok xs => pure xs
      | .error _ => throw (.wrongKind "can only join an iterable")
  let texts ← items.mapM fun item =>
    match item with
    | .text s => pure s
    | v => throw (.wrongKind ("sequence item: expected str instance, " ++ v.kindName ++ " found"))
  return join separator texts

/-- The name of a function in upper case. -/
def calledName (name : Value) : Outcome String :=
  match name with
  | .text s => .ok (upper s)
  | .bytes _ => .ok name.literal
  | v => .error (v.memberFault "upper")

def functionSql (name arguments : Value) : Outcome String := do
  match ← calledName name with
  | "SUM" => joinTexts " + " (← (← arguments.at_ 0).item "columns")
  | "IF" =>
    let condition ← (← arguments.at_ 0).item "sql"
    let positive ← (← arguments.at_ 1).item "sql"
    let negative ← (← arguments.at_ 2).item "sql"
    return "CASE WHEN " ++ condition.plain ++ " THEN " ++ positive.plain ++ " ELSE " ++
      negative.plain ++ " END"
  | "AND" =>
    let parts ← (← arguments.items).mapM (·.item "sql")
    joinTexts " AND " (.list parts)
  | _ => return "UNSUPPORTED_FUNCTION(" ++ name.plain ++ ")"

def eraseIn (v : Value) (part by_ : String) : Outcome String :=
  match v with
  | .text s => .ok (replace s part by_)
  | .bytes _ => .error (.wrongKind "a bytes-like object is required, not 'str'")
  | v => .error (v.memberFault "replace")

/-- A lookup whose missing key is an answer and not a fault: the found value, or the text that
reports the missing key. -/
def lookUp (columns : Value) (key : String) : Outcome (Except String Value) :=
  match columns.item key with
  | .ok v => .ok (.ok v)
  | .error (.missingKey k) => .ok (.error (Fault.missingKey k).literal)
  | .error fault => .error fault

def cellNode (columns node : Value) : Outcome Value := do
  expect .cell node
  let cell ← eraseIn (← node.item "key") "$" ""
  let found ← lookUp columns (Sheet.columnOf cell)
  let (column, error) : Value × Value :=
    match found with
    | .ok column => (column, .null)
    | .error report => (.text "", .text report)
  let refType ← node.getD "refType" (.text "")
  return .record [("type", .text NodeKind.cell.name), ("cell", .text cell), ("refType", refType),
    ("column", column), ("error", error), ("sql", column)]

def lookUpAll (columns : Value) : List String → Outcome (Except String (List Value))
  | [] => .ok (.ok [])
  | key :: rest => do
    match ← lookUp columns key with
    | .error report => return .error report
    | .ok v =>
      match ← lookUpAll columns rest with
      | .error report => return .error report
      | .ok vs => return .ok (v :: vs)

def cornerCell (columns node : Value) : Outcome String := do
  (← (← cellNode columns node).item "cell").textAs "filter"

def cellRangeNode (columns node : Value) : Outcome Value := do
  expect .cellRange node
  let start ← cornerCell columns (← node.item "left")
  let stop ← cornerCell columns (← node.item "right")
  let cells ← Sheet.columnRange (Sheet.columnOf start) (Sheet.columnOf stop)
  let found ← lookUpAll columns cells
  let (named, error) : List Value × Value :=
    match found with
    | .ok named => (named, .null)
    | .error report => ([], .text report)
  return .record [("type", .text NodeKind.cellRange.name), ("start", .text start),
    ("end", .text stop), ("cells", .texts cells), ("columns", .list named), ("error", error)]

def numberNode (node : Value) : Outcome Value := do
  expect .number node
  let value ← node.item "value"
  let number ← value.toFloat
  return .record [("type", .text NodeKind.number.name), ("value", .float number), ("sql", value)]

/-- A truth value: only the word `true`, in any case, is true. -/
def logicalNode (node : Value) : Outcome Value := do
  expect .logical node
  let isTrue := lower (← node.item "value").plain == "true"
  return .record [("type", .text NodeKind.logical.name), ("value", .bool isTrue),
    ("sql", .text (if isTrue then "TRUE" else "FALSE"))]

/-- The SQL of a text: single quotes around it, and every double quote in it made a single one. -/
def textSql (value : Value) : Outcome String := do
  return "'" ++ (← eraseIn value "\"" "'") ++ "'"

def textNode (node : Value) : Outcome Value := do
  expect .text node
  let value ← node.item "value"
  return .record [("type", .text NodeKind.text.name), ("value", value),
    ("sql", .text (← textSql value))]

def binaryNode (sub : Value → Outcome Value) (node : Value) : Outcome Value := do
  expect .binary node
  let left ← sub (← node.item "left")
  let right ← sub (← node.item "right")
  let operator ← node.item "operator"
  let leftSql ← left.item "sql"
  let rightSql ← right.item "sql"
  return .record [("type", .text NodeKind.binary.name), ("operator", operator), ("left", left),
    ("right", right),
    ("sql", .text ("(" ++ leftSql.plain ++ ") " ++ operator.plain ++ " (" ++ rightSql.plain ++ ")"))]

/-- An operand with a minus sign before it, whatever the operator. -/
def unaryNode (sub : Value → Outcome Value) (node : Value) : Outcome Value := do
  expect .unary node
  let operand ← sub (← node.item "operand")
  let operator ← node.item "operator"
  let sql ← operand.item "sql"
  return .record [("type", .text NodeKind.unary.name), ("operator", operator),
    ("operand", operand), ("sql", .text ("-(" ++ sql.plain ++ ")"))]

def functionNode (sub : Value → Outcome Value) (node : Value) : Outcome Value := do
  expect .function node
  let name ← node.item "name"
  let arguments ← (← (← node.getD "arguments" (.list [])).items).mapM sub
  let sql ← functionSql name (.list arguments)
  return .record [("type", .text NodeKind.function.name), ("arguments", .list arguments),
    ("name", name), ("sql", .text sql)]

def nodeSql (sub : Value → Outcome Value) (columns : Value) (kind : NodeKind) (node : Value) :
    Outcome Value :=
  match kind with
  | .binary => binaryNode sub node
  | .cellRange => cellRangeNode columns node
  | .function => functionNode sub node
  | .cell => cellNode columns node
  | .number => numberNode node
  | .logical => logicalNode node
  | .text => textNode node
  | .unary => unaryNode sub node

def treeSql (columns : Value) : Nat → Value → Outcome Value
  | 0, _ => .error .tooDeep
  | height + 1, node => do
    let kind ← kindOf node
    nodeSql (treeSql columns height) columns kind node

def toSql (columns node : Value) : Outcome Value := treeSql columns (node.height + 1) node

def toSqlAs (kind : NodeKind) (columns node : Value) : Outcome Value :=
  nodeSql (toSql columns) columns kind node

end SheetMill.Formula
