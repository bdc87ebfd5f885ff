import SheetMill.Checking.Rows
import SheetMill.Journal
import SheetMill.Text.Casing
import SheetMill.Wire.Codec

/-!
# Checking a file

The columns of a file have to be the properties of the active schema of its import, and its rows
have to conform to it after their cells were converted to the types that it declares; a cell that
cannot be converted stays as it is, so that the check reports it.
-/

namespace SheetMill.Checking

/-! ## Uploaded files -/

/-- The kinds of files that can be checked. -/
inductive FileKind where
  | separated
  | workbook
  deriving Repr, DecidableEq

def fileEndings : List (String × FileKind) :=
  [(".csv", .separated), (".xls", .workbook), (".xlsx", .workbook)]

def FileKind.ofName (name : Value) : Outcome (Option FileKind) :=
  if !name.truthy then .ok none
  else
    match name with
    | .text s => .ok ((fileEndings.find? fun e => Text.endsWith (Text.lower s) e.1).map (·.2))
    | .bytes _ => .error (.wrongKind "endswith first arg must be bytes or a tuple of bytes, not str")
    | v => .error (v.memberFault "lower")

def isAccepted (name : Value) : Outcome Bool := Option.isSome <$> FileKind.ofName name

/-- What is known of an uploaded file. -/
structure Upload where
  name : Value
  size : Value := .null
  contentType : Value := .null

def Upload.describe (u : Upload) : Outcome Value := do
  return .record [
    ("filename", u.name), ("content_type", u.contentType), ("size", u.size),
    ("is_supported", .bool (← isAccepted u.name))]

/-! ## Encodings -/

/-- The encodings that are tried. -/
inductive Encoding where
  | utf8
  | latin1
  | windows
  deriving Repr, DecidableEq

/-- The code points of the octets from 128 to 159 in the Windows encoding; zero where there is
none. -/
def windowsCodes : List Nat := [
  8364, 0, 8218, 402, 8222, 8230, 8224, 8225, 710, 8240, 352, 8249, 338, 0, 381, 0,
  0, 8216, 8217, 8220, 8221, 8226, 8211, 8212, 732, 8482, 353, 8250, 339, 0, 382, 376]

def windowsChar? (o : UInt8) : Option Char :=
  let n := o.toNat
  if 128 ≤ n ∧ n < 160 then
    match windowsCodes.getD (n - 128) 0 with
    | 0 => none
    | code => some (Char.ofNat code)
  else some (Char.ofNat n)

def Encoding.decode? (octets : List UInt8) : Encoding → Option String
  | utf8 => Wire.octetsText? octets
  | latin1 => some (String.ofList (octets.map fun o => Char.ofNat o.toNat))
  | windows => (octets.mapM windowsChar?).map String.ofList

def Encoding.all : List Encoding := [.utf8, .latin1, .windows]

/-! ## Reading tables -/

/-- How the rows of a file are read. -/
structure TableReader (σ : Type) where
  separated : String → Act σ (List Value)
  workbook : List UInt8 → Act σ (List Value)

/-- What came of reading a file. -/
structure Processed where
  ok : Value
  rows : Value
  message : Value

def Processed.toValue (p : Processed) : Value := .list [p.ok, p.rows, p.message]

def Processed.read (rows : List Value) : Processed := ⟨.bool true, .list rows, .text ""⟩

def Processed.failed (message : String) : Processed := ⟨.bool false, .list [], .text message⟩

variable {σ : Type}

def readSeparated (reader : TableReader σ) (octets : List UInt8) : List Encoding → Act σ Processed
  | [] => return .failed "Unable to decode CSV file with supported encodings"
  | encoding :: rest => do
    match encoding.decode? octets with
    | none => readSeparated reader octets rest
    | some text =>
      match ← (reader.separated text).attempt with
      | .ok rows => return .read rows
      | .error (.badEncoding _) => readSeparated reader octets rest
      | .error f => throw f

def processSeparated (reader : TableReader σ) (content : Value) : Act σ Processed :=
  let read : Act σ Processed :=
    match content with
    | .bytes octets => readSeparated reader octets Encoding.all
    | v => throw (v.memberFault "decode")
  read.handle fun f => return .failed ("Error processing CSV file: " ++ f.message)

def processWorkbook (reader : TableReader σ) (content : Value) : Act σ Processed :=
  let read : Act σ (List Value) :=
    match content with
    | .bytes octets => reader.workbook octets
    | .null => reader.workbook []
    | v => throw (.wrongKind ("a bytes-like object is required, not '" ++ v.kindName ++ "'"))
  Act.handle (Processed.read <$> read) fun f =>
    return .failed ("Error processing Excel file: " ++ f.message)

/-- Reads an uploaded file, whose content is fetched only if the name tells a kind that is
accepted. -/
def processFile (reader : TableReader σ) (upload : Upload) (content : Act σ Value) :
    Act σ Processed :=
  let read : Act σ Processed := do
    match ← FileKind.ofName upload.name with
    | none =>
      return .failed ("Unsupported file type. Supported types: " ++
        Text.join ", " (fileEndings.map (·.1)))
    | some .separated => processSeparated reader (← content)
    | some .workbook => processWorkbook reader (← content)
  read.handle fun f => return .failed ("Error processing file: " ++ f.message)

/-! ## Converting cells -/

def trueWords : List String := ["true", "1", "yes", "y"]

def falseWords : List String := ["false", "0", "no", "n"]

def toFlag : Value → Value
  | .text s =>
    let word := Text.lower s
    if trueWords.contains word then .bool true
    else if falseWords.contains word then .bool false
    else .text s
  | v => .bool v.truthy

def isEmptyCell : Value → Bool
  | .null => true
  | .text s => s.isEmpty
  | _ => false

def convertTo (type cell : Value) : Outcome Value :=
  match type with
  | .text "boolean" => .ok (toFlag cell)
  | .text "integer" =>
    if isEmptyCell cell then .ok .null
    else do
      let x ← (Value.text (← cell.toText)).toFloat
      return .int (← (Value.float x).toInt)
  | .text "number" =>
    if isEmptyCell cell then .ok .null else Value.float <$> cell.toFloat
  | .text "string" =>
    match cell with
    | .null => .ok .null
    | v => Value.text <$> v.toText
  | _ => .ok cell

/-- A cell converted to a type if it can be. -/
def convertCell (type cell : Value) : Outcome Value :=
  match convertTo type cell with
  | .error (.badValue _) | .error (.wrongKind _) => .ok cell
  | r => r

def convertEntries (properties : Value) : List (Value × Value) → Outcome (List (Value × Value))
  | [] => .ok []
  | (key, cell) :: rest => do
    let converted ←
      if ← properties.holds key then
        convertCell (← (← properties.under key).getD "type" .null) cell
      else pure cell
    return (key, converted) :: (← convertEntries properties rest)

def convertRow (properties row : Value) : Outcome Value := do
  return .map (← convertEntries properties (← row.entriesAs "items"))

def convertRows (rows schema : Value) : Outcome Value := do
  if !rows.truthy then return rows
  let properties ← schema.getD "properties" .null
  if !properties.truthy then return rows
  return .list (← (← rows.items).mapM (convertRow properties))

/-! ## The check -/

variable {σ : Type}

/-- The lookup of the active schema when no database was named to look it up in. -/
def noLookup (_ : Value) : Act σ Value :=
  throw (.wrongKind
    "get_active_schema() missing 1 required positional argument: 'database_client'")

def refused (error : Value) : Value :=
  .record [("success", .bool false), ("error", error), ("validation_results", .null)]

def sameKeys (keys others : List Value) : Bool :=
  keys.all (fun k => others.any k.same) && others.all fun k => keys.any k.same

/-- Checks a file by the schema that is found for its import, with the given number of workers, but
not more than a limit. -/
def checkFile (validator : Validator) (lookup : Value → Act σ Value) (process : Act σ Processed)
    (now : Act σ String) (upload : Upload) (importName workers limit : Value) : Act σ Value := do
  let workers ← workers.smaller limit
  let schema ← lookup importName
  if !schema.truthy then
    return refused (.text ("No active schema found for import name: " ++ importName.plain))
  let file ← process
  if !file.ok.truthy then return refused file.message
  if !file.rows.truthy then
    return .record [
      ("success", .bool false), ("error", .null),
      ("validation_results", .record [
        ("is_valid", .bool false), ("total_items", .int 0), ("valid_items", .int 0),
        ("invalid_items", .int 0), ("errors", .list []), ("message", .text "File is empty but valid")])]
  let properties ← (← schema.getD "properties" (.map [])).entriesAs "keys"
  let columns ← (← file.rows.at_ 0).entriesAs "keys"
  let properties := properties.map (·.1)
  let columns := columns.map (·.1)
  if !sameKeys columns properties then
    return refused (.text ("Columns do not match schema properties. File columns: " ++
      (Value.list (← Value.sorted columns)).literal ++ ". Schema properties: " ++
      (Value.list (← Value.sorted properties)).literal ++ "."))
  let rows ← convertRows file.rows schema
  let report ← checkRows validator rows schema workers
  let _ ← upload.describe
  let results := [
    ("file_name", upload.name), ("file_size", upload.size), ("content_type", upload.contentType),
    ("import_name", importName), ("validated_at", .text (← now))].foldl
      (fun v (name, w) => v.withField name w) report.toValue
  return .record [("success", .bool true), ("error", .null), ("validation_results", results)]

end SheetMill.Checking
