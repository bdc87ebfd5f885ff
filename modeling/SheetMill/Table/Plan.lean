import SheetMill.Formula.Node
import SheetMill.Text.Casing

/-!
# Building a table

The statements that build a table, by level. Level zero creates the table with all columns that
depend on no other; each other column is added by a statement of its own at its level in the graph
of dependencies.
-/

namespace SheetMill.Table

/-! ## Graphs with named vertices -/

/-- A directed graph; an edge joins the places of two names. -/
structure Graph (ν : Type) where
  names : List ν := []
  edges : List (Nat × Nat) := []
  deriving Repr

namespace Graph

variable {ν : Type} [BEq ν]

def size (g : Graph ν) : Nat := g.names.length

def position? (g : Graph ν) (name : ν) : Option Nat := g.names.findIdx? (· == name)

def connect (g : Graph ν) (source target : ν) : Outcome (Graph ν) :=
  match g.position? source, g.position? target with
  | some i, some j => .ok { g with edges := g.edges ++ [(i, j)] }
  | _, _ => .error (.badValue "no such vertex")

def ofNames (names : List ν) (edges : List (ν × ν)) : Outcome (Graph ν) :=
  edges.foldlM (fun g (source, target) => g.connect source target) { names }

def hasEdge (g : Graph ν) (i j : Nat) : Bool := g.edges.contains (i, j)

def successors (g : Graph ν) (i : Nat) : List Nat := (List.range g.size).filter (g.hasEdge i)

def outgoing (g : Graph ν) (name : ν) : Nat :=
  match g.position? name with
  | none => 0
  | some i => g.edges.countP fun e => e.1 == i

def incoming (g : Graph ν) (name : ν) : Nat :=
  match g.position? name with
  | none => 0
  | some i => g.edges.countP fun e => e.2 == i

def withSuccessorIn (g : Graph ν) (alive : List Nat) : List Nat :=
  alive.filter fun i => alive.any (g.hasEdge i)

def walkStarts (g : Graph ν) : Nat → List Nat
  | 0 => List.range g.size
  | n + 1 => g.withSuccessorIn (g.walkStarts n)

/-- Whether the graph has a cycle: a walk with as many edges as there are vertices visits one of
them twice. -/
def isCyclic (g : Graph ν) : Bool := !(g.walkStarts g.size).isEmpty

/-- The names of the successors of a vertex. -/
def successorNames (g : Graph ν) (i : Nat) : List ν :=
  (g.successors i).filterMap fun j => g.names[j]?

/-- The level of a name, from the levels of the names of the successors; the first number bounds how
deep the search goes. -/
def levelUpTo (g : Graph ν) : Nat → ν → Outcome Nat
  | 0, _ => .error .tooDeep
  | n + 1, name =>
    match g.position? name with
    | none => .ok 0
    | some i => do
      let levels ← (g.successorNames i).mapM (g.levelUpTo n)
      return levels.foldr (fun level total => 1 + level + total) 0

/-- The level of a name, which is zero for an unknown one. A graph with a cycle has no levels. A
search that goes deeper than there are vertices comes back to a vertex, and does not end. -/
def level (g : Graph ν) (name : ν) : Outcome Nat :=
  if g.isCyclic then
    .error (.badValue ("The graph is not a directed acyclic graph (DAG). " ++
      "This function is only designed for DAGs."))
  else g.levelUpTo (g.size + 1) name

end Graph

/-! ## References between columns -/

/-- An order in which the sets of columns at the nodes of formulas are listed. -/
structure Enumeration where
  list : Value → List Value → List Value
  perm (node : Value) (columns : List Value) : (list node columns).Perm columns

def Enumeration.asFound : Enumeration := ⟨fun _ columns => columns, fun _ => .refl⟩

/-- The columns to which a formula refers. -/
structure References where
  columns : Value := .list []
  error : Option String := none
  constant : Bool := false

namespace References

def toValue (r : References) : Value :=
  .record [("columns", r.columns), ("error", .ofText? r.error), ("constants", .bool r.constant)]

def mismatch (kind : String) : References :=
  { error := some ("Invalid " ++ kind ++ " mapping type") }

def distinct (items : List Value) : Outcome (List Value) := do
  let kept ← items.foldlM (fun acc v =>
    if v.isKey then .ok (if acc.any (Value.sameScalar v) then acc else v :: acc)
    else .error (.wrongKind ("unhashable type: '" ++ v.kindName ++ "'"))) []
  return kept.reverse

/-- How a node is searched for columns. -/
inductive Search where
  | cell | cellRange | literal | function | binary | unary
  deriving Repr, DecidableEq

def Search.ofKind? : String → Option Search
  | "cell" => some .cell
  | "cell_range" => some .cellRange
  | "logical" | "text" | "number" => some .literal
  | "function" => some .function
  | "binary-expression" => some .binary
  | "unary-expression" => some .unary
  | _ => none

def Search.label : Search → String
  | .cell => "cell"
  | .cellRange => "cell range"
  | .literal => "logical"
  | .function => "function"
  | .binary => "binary expression"
  | .unary => "unary expression"

def searchOf (formula : Value) : Outcome Search := do
  let key ← formula.item "type"
  match key with
  | .text name =>
    match Search.ofKind? name with
    | some search => .ok search
    | none => .error (.missingKey key)
  | key => .error (Formula.lookupFault key)

def Search.suits (search : Search) (formula : Value) : Outcome Bool := do
  let key ← formula.item "type"
  if search = .literal ∧ ¬ key.isKey then throw (Formula.lookupFault key)
  match key with
  | .text name => return Search.ofKind? name = some search
  | _ => return false

/-- The columns that a node refers to, given those of its parts. -/
def foundBy (order : Enumeration) (sub : Value → Outcome References) (search : Search)
    (formula : Value) : Outcome References :=
  match search with
  | .cell => do return { columns := .list [← formula.item "column"] }
  | .cellRange => do return { columns := ← formula.item "columns" }
  | .literal => .ok { constant := true }
  | .function => do
    let arguments ← (← formula.item "arguments").items
    let columns ← arguments.mapM fun part => do (← sub part).columns.items
    return { columns := .list (order.list formula (← distinct columns.flatten)) }
  | .binary => do
    let left ← sub (← formula.item "left")
    let right ← sub (← formula.item "right")
    let leftColumns ← distinct (← left.columns.items)
    let rightColumns ← distinct (← right.columns.items)
    return { columns := .list (order.list formula (← distinct (leftColumns ++ rightColumns))) }
  | .unary => do return { columns := (← sub (← formula.item "operand")).columns }

def byWith (order : Enumeration) (sub : Value → Outcome References) (search : Search)
    (formula : Value) : Outcome References := do
  if ¬ (← search.suits formula) then return mismatch search.label
  foundBy order sub search formula

def ofFormulaUpTo (order : Enumeration) : Nat → Value → Outcome References
  | 0, _ => .error .tooDeep
  | height + 1, formula => do
    byWith order (ofFormulaUpTo order height) (← searchOf formula) formula

def ofFormula (order : Enumeration) (formula : Value) : Outcome References :=
  ofFormulaUpTo order (formula.height + 1) formula

def byKind (search : Search) (formula : Value) : Outcome References :=
  byWith .asFound (ofFormulaUpTo .asFound formula.height) search formula

/-- Whether references, given as a map, make their column independent of the given columns: they
could not be found, the formula is a literal, or there is none but perhaps a single one to a column
outside. -/
def independent (references columns : Value) : Outcome Value := do
  let error ← references.item "error"
  if error.truthy then return error
  let constant ← references.item "constants"
  if constant.truthy then return constant
  let found ← references.item "columns"
  if !found.truthy then return .bool true
  if (← found.size) != 1 then return .bool false
  return .bool (!(← columns.holds (← found.at_ 0)))

end References

def dependenciesIn (order : Enumeration) (columns : Value) : Outcome (Graph Value) := do
  let entries ← columns.entriesAs "keys"
  let names := entries.map (·.1)
  entries.foldlM (fun g (name, formula) => do
    let references ← References.ofFormula order formula
    if (← References.independent references.toValue (.list names)).truthy then return g
    (← references.columns.items).foldlM (fun g target => g.connect name target) g) { names }

abbrev dependencies : Value → Outcome (Graph Value) := dependenciesIn .asFound

/-! ## Building a table -/

/-- The SQL of a column and the columns to which it refers. -/
structure Definition where
  sql : String
  columns : List Value

def Definition.toValue (d : Definition) : Value :=
  .record [("sql", .text d.sql), ("columns", .list d.columns)]

abbrev Plan := List (Nat × List Definition)

namespace Plan

def marksKey (type : Value) : Outcome Bool := do
  match ← type.getD "extra" (.text "") with
  | .text extra => return Text.contains (Text.lower extra) "primary key"
  | .bytes _ => throw (.wrongKind "a bytes-like object is required, not 'str'")
  | v => throw (v.memberFault "lower")

def anyMarksKey : List (Value × Value) → Outcome Bool
  | [] => .ok false
  | (_, type) :: rest => do if ← marksKey type then return true else anyMarksKey rest

def hasPrimaryKey (types : Value) : Outcome Bool := do
  anyMarksKey (← types.entriesAs "values")

def columnDefinition (types name : Value) : Outcome String := do
  let type ← types.under name
  let kind ← type.item "type"
  let extra ← type.getD "extra" (.text "")
  return Text.strip (name.plain ++ " " ++ kind.plain ++ " " ++ extra.plain)

def creation (types : Value) (keyed : Bool) (table : String) (names : List Value) :
    Outcome Definition := do
  let definitions ← names.mapM (columnDefinition types)
  let start := "CREATE TABLE IF NOT EXISTS " ++ table ++ " (" ++
    (if keyed then "" else "id SERIAL PRIMARY KEY, ")
  return {
    sql := start ++ (if definitions.isEmpty then "" else Text.join ", " definitions ++ ");")
    columns := (if keyed then [] else [.text "id"]) ++ names }

def addition (columns types : Value) (table : String) (name : Value) : Outcome Definition := do
  let type ← types.under name
  let kind ← type.item "type"
  let formula ← (← columns.under name).item "sql"
  let extra ← type.getD "extra" (.text "")
  return {
    sql := "ALTER TABLE " ++ table ++ " ADD COLUMN " ++ name.plain ++ " " ++ kind.plain ++ " " ++
      "GENERATED ALWAYS AS (" ++ formula.plain ++ ") STORED " ++ extra.plain ++ ";"
    columns := [name] }

def addAt (level : Nat) (d : Definition) : Plan → Outcome Plan
  | [] => .error (.missingKey (.int level))
  | (l, ds) :: rest =>
    if l = level then .ok ((l, ds ++ [d]) :: rest) else return (l, ds) :: (← addAt level d rest)

def addAll (columns types : Value) (table : String) :
    List (Value × Nat) → Plan → Outcome Plan
  | [], plan => .ok plan
  | (name, level) :: rest, plan => do
    let d ← addition columns types table name
    addAll columns types table rest (← addAt level d plan)

def levelsOf (graph : Graph Value) (names : List Value) : Outcome (List (Value × Nat)) := do
  let levels ← names.mapM fun name => do
    let level ← graph.level name
    if name.isKey then pure (name, level) else throw (Formula.lookupFault name)
  return levels.foldl (fun kept (name, level) =>
    if kept.any fun (other, _) => other.sameScalar name then kept else kept ++ [(name, level)]) []

/-- The statements that build a table with the given columns, dependencies and types. -/
def ofGraph (columns : Value) (graph : Graph Value) (types : Value) (table : String) :
    Outcome Plan := do
  let keyed ← hasPrimaryKey types
  let levels ← levelsOf graph (← columns.items)
  let first ← creation types keyed table ((levels.filter (·.2 = 0)).map (·.1))
  let distinctLevels := (levels.map (·.2)).eraseDups
  let empty : Plan := (List.range distinctLevels.length).map fun i => (i + 1, [])
  let later := (levels.filter (·.2 ≠ 0)).mergeSort fun a b => a.2 ≤ b.2
  let plan ← addAll columns types table later ((0, [first]) :: empty)
  return plan.filter fun (_, ds) => !ds.isEmpty

def toValue (plan : Plan) : Value :=
  .map (plan.map fun (level, ds) => (.int level, .list (ds.map Definition.toValue)))

end Plan

/-- The statements that build a table, level by level. -/
def buildIn (order : Enumeration) (columns types : Value) (table : String) : Outcome Value := do
  let graph ← dependenciesIn order columns
  if graph.isCyclic then
    return .record [("content", .map []),
      ("error", .text "The AST contains cyclic dependencies.")]
  let plan ← Plan.ofGraph columns graph types table
  let content := plan.map fun (level, ds) =>
    (Value.int level, Value.record [("sql_content", .list (ds.map Definition.toValue))])
  return .record [("content", .map content), ("error", .null)]

abbrev build : Value → Value → String → Outcome Value := buildIn .asFound

end SheetMill.Table
