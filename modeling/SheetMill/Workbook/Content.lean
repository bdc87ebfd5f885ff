import SheetMill.Sheet.Reference
import SheetMill.Value.Order
import SheetMill.Wire.Codec

/-!
# Workbooks

A workbook is a list of sheets, and a sheet is a grid in which some cells are filled. The sheet
extends as far to the right and to the bottom as its filled cells do; the cells in between that are
not filled are blank.
-/

namespace SheetMill.Text

/-!
## Lines of a text

A text falls into lines at every character that ends one; a carriage return and the line feed that
follows it end one line together.
-/

def linesOf : List Char → List (List Char)
  | [] => []
  | '\r' :: '\n' :: cs => [] :: linesOf cs
  | c :: cs =>
    if isLineEnd c then [] :: linesOf cs
    else
      match linesOf cs with
      | [] => [[c]]
      | line :: rest => (c :: line) :: rest

end SheetMill.Text

namespace SheetMill.Workbook

/-- Where in a field of a line the reader is. -/
inductive Place where
  | start
  | bare
  | quoted
  /-- After a mark between quotation marks, which closes them unless another one follows. -/
  | closing
  deriving Repr, DecidableEq

/-- The fields of a line, the last of which may be open. -/
structure Scan where
  fields : List String
  openField : Option (List Char)
  deriving Repr, DecidableEq

def Scan.after (field : List Char) (scan : Scan) : Scan :=
  { scan with fields := String.ofList field :: scan.fields }

def scanLine (place : Place) (field : List Char) : List Char → Scan
  | [] =>
    match place with
    | .quoted => ⟨[], some field⟩
    | _ => ⟨[String.ofList field], none⟩
  | c :: cs =>
    match place with
    | .start =>
      if c = '"' then scanLine .quoted field cs
      else if c = ',' then (scanLine .start [] cs).after field
      else scanLine .bare (field ++ [c]) cs
    | .bare =>
      if c = ',' then (scanLine .start [] cs).after field
      else scanLine .bare (field ++ [c]) cs
    | .quoted =>
      if c = '"' then scanLine .closing field cs
      else scanLine .quoted (field ++ [c]) cs
    | .closing =>
      if c = '"' then scanLine .quoted (field ++ [c]) cs
      else if c = ',' then (scanLine .start [] cs).after field
      else scanLine .bare (field ++ [c]) cs

/-- The rows of lines; `begun` is the row that earlier lines have left open. -/
def rowsOfLines (begun : Option (List String × List Char)) : List (List Char) → List (List String)
  | [] =>
    match begun with
    | none => []
    | some (fields, field) => [fields ++ [String.ofList field]]
  | line :: lines =>
    match begun, line with
    | none, [] => [] :: rowsOfLines none lines
    | begun, line =>
      let scan :=
        match begun with
        | none => scanLine .start [] line
        | some (_, field) => scanLine .quoted field line
      let fields := (begun.map (·.1)).getD [] ++ scan.fields
      match scan.openField with
      | none => fields :: rowsOfLines none lines
      | some field => rowsOfLines (some (fields, field)) lines

def fieldLimit : Nat := 131072

def rowsOfText (text : String) : Outcome (List (List String)) :=
  let rows := rowsOfLines none (Text.linesOf text.toList)
  if rows.all fun row => row.all fun field => field.length ≤ fieldLimit then .ok rows
  else .error (.other "Error" ("field larger than field limit (" ++ toString fieldLimit ++ ")"))

/-! ## Workbooks -/

/-- A cell with its value and what it says of its type, a letter as a rule: `s` for a text, `n` for a
number, `b` for a truth value, `e` for an error and `f` for a formula. -/
structure Cell where
  value : Value
  type : Value
  deriving Repr, Inhabited

def Cell.blank : Cell := ⟨.null, .text "n"⟩

def Cell.isFormula (cell : Cell) : Bool := cell.type.same (.text "f")

def Cell.isText (cell : Cell) : Bool := cell.type.same (.text "s")

def errorTexts : List String :=
  ["#NULL!", "#DIV/0!", "#VALUE!", "#REF!", "#NAME?", "#NUM!", "#N/A"]

def Cell.ofText (s : String) : Cell :=
  let type :=
    if Text.startsWith s "=" && 1 < s.length then "f"
    else if errorTexts.contains s then "e"
    else "s"
  ⟨.text s, .text type⟩

/-- A sheet of a workbook. -/
structure Sheet where
  title : Value
  rows : List (List (Option Cell))
  deriving Repr, Inhabited

namespace Sheet

def filledLength (row : List (Option Cell)) : Nat := (row.reverse.dropWhile Option.isNone).length

def width (s : Sheet) : Nat := (s.rows.map filledLength).foldl max 0

def height (s : Sheet) : Nat := (s.rows.reverse.dropWhile fun row => filledLength row == 0).length

def cell (s : Sheet) (row column : Nat) : Cell :=
  ((s.rows.getD row []).getD column none).getD .blank

def column (s : Sheet) (column : Nat) : List Cell :=
  (List.range s.height).map fun row => s.cell row column

end Sheet

end SheetMill.Workbook

abbrev SheetMill.Workbook := List SheetMill.Workbook.Sheet

namespace SheetMill.Workbook

/-- The number of rows that a sheet has room for. -/
def maxRows : Nat := 1048576

/-- The fault when a cell is put into a row that no sheet has. -/
def rowFault (row : Nat) : Fault :=
  .badValue ("Row numbers must be between 1 and " ++ toString maxRows ++
    ". Row number supplied was " ++ toString row)

/-- The workbook with one sheet whose rows are those of a separated text. -/
def ofSeparated (octets : List UInt8) : Outcome Workbook :=
  match Wire.octetsText? octets with
  | none => .error (.badEncoding "the octets are no text")
  | some text => do
    let rows ← rowsOfText text
    match (rows.drop maxRows).findIdx? (!·.isEmpty) with
    | some i => throw (rowFault (maxRows + i + 1))
    | none =>
      return [⟨.text "Sheet1", rows.map fun row => row.map fun field => some (Cell.ofText field)⟩]

/-! ## Listings of workbooks

A listing gives for each sheet the columns that have a heading, that is a value in their first cell,
and of each such column the cells from the top. As many rows are listed as a limit says, but not
more than the sheet has columns. -/

/-- A cell with its reference. -/
structure Listed where
  reference : String
  cell : Cell
  deriving Repr, Inhabited

def Listed.toValue (l : Listed) : Value :=
  .record [("cell", .text l.reference), ("value", l.cell.value), ("data_type", l.cell.type),
    ("is_formula", .bool l.cell.isFormula)]

abbrev Columns (α : Type) := List (Value × List (String × α))

def Columns.toValue {α : Type} (columns : Columns α) (f : α → Value) : Value :=
  .map (columns.map fun (title, sheet) => (title, .record (sheet.map fun (k, a) => (k, f a))))

def Columns.sheet? {α : Type} (columns : Columns α) (title : Value) : Option (List (String × α)) :=
  (columns.find? fun (other, _) => other.sameScalar title).map (·.2)

def Columns.put {α : Type} (columns : Columns α) (title : Value) (sheet : List (String × α)) :
    Columns α :=
  match columns with
  | [] => [(title, sheet)]
  | (other, held) :: rest =>
    if other.sameScalar title then (other, sheet) :: rest
    else (other, held) :: Columns.put rest title sheet

namespace Sheet

def letters (column : Nat) : String := String.ofList (SheetMill.Sheet.columnChars (column + 1))

def rowBound (s : Sheet) (limit : Value) : Outcome Value := do
  let width : Value := .int (max 1 s.width)
  if ← limit.atMost (.int 0) then return width
  if ← width.less limit then return width
  return limit

def listedColumn (s : Sheet) (bound : Value) (column : Nat) : Outcome (List Listed) :=
  match bound.asInt? with
  | some rows => .ok (((s.column column).zipIdx.map fun (cell, row) =>
      (⟨letters column ++ toString (row + 1), cell⟩ : Listed)).take rows.toNat)
  | none => .error (.wrongKind
      ("'" ++ bound.kindName ++ "' object cannot be interpreted as an integer"))

def hasHeading (s : Sheet) (column : Nat) : Bool :=
  match (s.cell 0 column).value with
  | .null => false
  | _ => true

def listing (s : Sheet) (limit : Value) : Outcome (List (String × List Listed)) := do
  let bound ← s.rowBound limit
  ((List.range s.width).filter s.hasHeading).mapM fun column =>
    return (letters column, ← s.listedColumn bound column)

end Sheet

def listing (workbook : Workbook) (limit : Value) : Outcome (Columns (List Listed)) :=
  workbook.foldlM (fun acc s => do
    if s.title.isKey then return acc.put s.title (← s.listing limit)
    else throw (.wrongKind ("unhashable type: '" ++ s.title.kindName ++ "'"))) []

/-! ## The content of a spreadsheet

The first listed cell of a column is its name, in which spaces can be filled; the cells below are
its data. -/

/-- The listed cells of a spreadsheet, with the names of the columns and the data below. -/
structure Content where
  cells : Columns (List Listed)
  names : Columns String
  data : Columns (List Listed)

def Content.toValue (c : Content) : Value :=
  let listed (cells : List Listed) : Value := .list (cells.map Listed.toValue)
  .record [("raw_data", c.cells.toValue listed), ("columns", c.names.toValue .text),
    ("data", c.data.toValue listed)]

def filled (filling heading : Value) : Outcome String :=
  match heading, filling with
  | .text s, .text filling => .ok (Text.replace s " " filling)
  | .text _, v =>
    .error (.wrongKind ("replace() argument 2 must be str, not " ++ v.kindName))
  | .bytes _, _ => .error (.wrongKind "a bytes-like object is required, not 'str'")
  | v, _ => .error (v.memberFault "replace")

def nameOf (filling : Value) (cells : List Listed) : Outcome String :=
  match cells with
  | [] => .error (.badIndex "list index out of range")
  | first :: _ => filled filling first.cell.value

/-- The content of a workbook. -/
def contentOf (workbook : Workbook) (limit filling : Value) : Outcome Content := do
  let filling := if filling.truthy then filling else .text " "
  let cells ← workbook.listing limit
  let names ← cells.mapM fun (title, columns) => do
    return (title, ← columns.mapM fun (k, column) => return (k, ← nameOf filling column))
  let data := cells.map fun (title, columns) =>
    (title, columns.map fun (k, column) => (k, column.drop 1))
  return { cells, names, data }

/-- The formats of spreadsheets. -/
inductive Format where
  | workbook
  | separated
  deriving Repr, DecidableEq

def Format.ofName? (name : Value) : Outcome (Option Format) :=
  match name with
  | .text s => .ok <|
    if Text.endsWith s ".xlsx" || Text.endsWith s ".xls" then some .workbook
    else if Text.endsWith s ".csv" then some .separated
    else none
  | .bytes _ => .error (.wrongKind "the name of a file has to be a text")
  | v => .error (v.memberFault "endswith")

/-- A file, and what opening it as a workbook gives. -/
structure File where
  name : Value
  octets : Value
  workbook : Outcome Workbook

def File.opened (file : File) : Outcome Workbook :=
  match file.octets with
  | .bytes _ | .null => file.workbook
  | v => .error (.wrongKind ("a bytes-like object is required, not '" ++ v.kindName ++ "'"))

def File.separated (file : File) : Outcome Workbook :=
  match file.octets with
  | .bytes octets => ofSeparated octets
  | v => .error (v.memberFault "decode")

def File.content (file : File) (limit filling : Value) : Outcome Content := do
  let workbook ←
    match ← Format.ofName? file.name with
    | some .workbook => file.opened
    | some .separated => file.separated
    | none => .error (.unsupported
        "Unsupported file format. Only .xlsx, .xls, and .csv are supported.")
  contentOf workbook limit filling

end SheetMill.Workbook
