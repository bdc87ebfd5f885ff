import SheetMill.Formula.Service
import SheetMill.Proofs.Messages
import SheetMill.Proofs.Work

/-!
# Answers of the formula service

A request passes three recursions: its tree becomes a map, the map becomes one that carries SQL, and
that one becomes the answer. A call is stopped in the second, because the map does not have its
arguments, and a number in the third, because its SQL is not a text.
-/

namespace SheetMill.Message.FormulaTree

structure Bears (t : FormulaTree) (left right operand : Option FormulaTree)
    (arguments : List FormulaTree) : Prop where
  left : t.left = left
  right : t.right = right
  operand : t.operand = operand
  arguments : t.arguments = arguments

def columnOf (columns : List (String × String)) (key : String) : Option String :=
  columns.lookup (Sheet.columnOf (Text.replace key "$" ""))

structure IsCell (columns : List (String × String)) (t : FormulaTree) (key column : String) :
    Prop where
  kind : t.kind = 4
  bears : t.Bears none none none []
  at_key : t.key = some key
  in_column : columnOf columns key = some column

/-- A rectangle between two cells, where all columns are known. -/
inductive IsRange (columns : List (String × String)) : FormulaTree → Prop where
  | between {t a b : FormulaTree} {key key' first last : String} {letters : List String}
      (kind : t.kind = 2) (bears : t.Bears (some a) (some b) none [])
      (left : IsCell columns a key first) (right : IsCell columns b key' last)
      (range : Sheet.columnRange (Sheet.columnOf (Text.replace key "$" ""))
        (Sheet.columnOf (Text.replace key' "$" "")) = .ok letters)
      (covered : ∀ l ∈ letters, (columns.lookup l).isSome) : IsRange columns t

/-- Trees that are well-formed and of kinds that have SQL, where all columns are known. -/
inductive Supported (columns : List (String × String)) : FormulaTree → Prop where
  | cell {t : FormulaTree} {key column : String} (cell : IsCell columns t key column) :
      Supported columns t
  | number {t : FormulaTree} {x : Float32} (kind : t.kind = 5) (bears : t.Bears none none none [])
      (value : t.value = some (.number x)) : Supported columns t
  | logical {t : FormulaTree} {b : Bool} (kind : t.kind = 6) (bears : t.Bears none none none [])
      (value : t.value = some (.logical b)) : Supported columns t
  | text {t : FormulaTree} {s : String} (kind : t.kind = 7) (bears : t.Bears none none none [])
      (value : t.value = some (.text s)) : Supported columns t
  | unary {t u : FormulaTree} {sign : String} (kind : t.kind = 8)
      (bears : t.Bears none none (some u) []) (operator : t.operator = some sign)
      (operand : Supported columns u) : Supported columns t
  | binary {t l r : FormulaTree} {sign : String} (kind : t.kind = 1)
      (bears : t.Bears (some l) (some r) none []) (operator : t.operator = some sign)
      (left : Supported columns l) (right : Supported columns r) : Supported columns t
  | condition {t a b c : FormulaTree} {name : String} (kind : t.kind = 3)
      (bears : t.Bears none none none [a, b, c]) (named : t.name = some name)
      (called : Text.upper name = "IF") (first : Supported columns a)
      (second : Supported columns b) (third : Supported columns c) : Supported columns t
  | conjunction {t : FormulaTree} {us : List FormulaTree} {name : String} (kind : t.kind = 3)
      (bears : t.Bears none none none us) (named : t.name = some name)
      (called : Text.upper name = "AND") (nonempty : us ≠ [])
      (arguments : ∀ u ∈ us, Supported columns u) : Supported columns t
  | sum {t u : FormulaTree} {name : String} (kind : t.kind = 3)
      (bears : t.Bears none none none [u]) (named : t.name = some name)
      (called : Text.upper name = "SUM") (range : IsRange columns u) : Supported columns t

def isNumberOrCall (t : FormulaTree) : Bool := t.kind == 5 || t.kind == 3

variable {columns : List (String × String)} {t : FormulaTree} {v : Value}

theorem Bears.any_eq {left right operand : Option FormulaTree} {arguments : List FormulaTree}
    (h : t.Bears left right operand arguments) (p : FormulaTree → Bool) :
    t.any p = (p t || left.any (any p) || right.any (any p) || operand.any (any p)) := by
  rw [FormulaTree.any_eq, h.left, h.right, h.operand]

end SheetMill.Message.FormulaTree

namespace SheetMill.Formula

open Message Value Wire FormulaTree Outcome List

variable {r : Outcome SqlTree} {broken : Bool} {sign : String} {value output : Value}
  {t : FormulaTree} {sql : String}

/-! ## Operands -/

inductive Side where
  | left
  | right
  | operand

def sideOf (t : FormulaTree) : Side → Option FormulaTree
  | .left => t.left
  | .right => t.right
  | .operand => t.operand

def answerOf (t : SqlTree) : Side → Option SqlTree
  | .left => t.left
  | .right => t.right
  | .operand => t.operand

def fieldOf (v : Value) : Side → Option Value
  | .left => v.field? "left"
  | .right => v.field? "right"
  | .operand => v.field? "operand"

theorem known_side {u : FormulaTree} (h : t.Known) {side : Side} (hu : sideOf t side = some u) :
    u.Known := by
  cases h with
  | node _ _ hleft hright _ hopnd =>
    cases side with
    | left => exact hleft u hu
    | right => exact hright u hu
    | operand => exact hopnd u hu

theorem sideOf_leaf {us : List FormulaTree} (h : t.Bears none none none us) (side : Side) :
    sideOf t side = none := by
  cases side with
  | left => exact h.left
  | right => exact h.right
  | operand => exact h.operand

/-! ## Nodes -/

theorem ofName?_name (kind : NodeKind) : NodeKind.ofName? kind.name = some kind := by
  cases kind <;> decide

variable {columns v : Value} {kind : NodeKind}

theorem expect_of_type (htype : v.field? "type" = some (.text kind.name)) :
    expect kind v = .ok () := by
  simp [expect, item_of_field? htype]

/-- A node comes out as its kind says, given enough steps for every part. -/
theorem returns_treeSql {r : Outcome Value} (htype : v.field? "type" = some (.text kind.name))
    (h : ∀ n, (∀ {s w}, v.field? s = some w → w.height < n) →
      nodeSql (treeSql columns n) columns kind v = r) :
    Returns (treeSql columns) v r := by
  have hkind : kindOf v = .ok kind := by
    simp [kindOf, item_of_field? htype, ofName?_name]
  refine .of_succ htype fun n hn => ?_
  rw [treeSql, hkind, ok_bind, h n hn]

theorem lookUp_map (hmap : ∃ es, columns = .map es) (key : String) :
    lookUp columns key = .ok ((columns.field? key).elim
      (.error (Fault.missingKey (.text key)).literal) .ok) := by
  obtain ⟨es, rfl⟩ := hmap
  cases h : (Value.map es).field? key with
  | none => simp [lookUp, item, h, partFault]
  | some v => simp [lookUp, item, h]

theorem field?_textMapValue (columns : List (String × String)) (key : String) :
    (textMapValue columns).field? key = (columns.lookup key).map .text := by
  rw [textMapValue, record, map_map]
  exact findEntry_named Value.text columns key

def cellOutput (cell : String) (refType column error : Value) : Value :=
  .record [("type", .text NodeKind.cell.name), ("cell", .text cell), ("refType", refType),
    ("column", column), ("error", error), ("sql", column)]

def literalOutput (kind : NodeKind) (value sql : Value) : Value :=
  .record [("type", .text kind.name), ("value", value), ("sql", sql)]

def unaryOutput (sign : String) (operand : Value) (sql : String) : Value :=
  .record [("type", .text "unary-expression"), ("operator", .text sign), ("operand", operand),
    ("sql", .text sql)]

def binaryOutput (sign : String) (left right : Value) (sql : String) : Value :=
  .record [("type", .text "binary-expression"), ("operator", .text sign), ("left", left),
    ("right", right), ("sql", .text sql)]

section Parts

variable {node left right : Value} {key sign : String}

/-- A cell without a column gets a report in place of it. -/
theorem cellNode_eq {cell : String} {refType : Value} (hmap : ∃ es, columns = .map es)
    (htype : node.field? "type" = some (.text NodeKind.cell.name))
    (hkey : node.field? "key" = some (.text key))
    (hrefType : node.getD "refType" (.text "") = .ok refType)
    (hcell : Text.replace key "$" "" = cell) :
    cellNode columns node = .ok ((columns.field? (Sheet.columnOf cell)).elim
      (cellOutput cell refType (.text "")
        (.text (Fault.missingKey (.text (Sheet.columnOf cell))).literal))
      fun column => cellOutput cell refType column .null) := by
  rw [cellNode, expect_of_type htype, item_of_field? hkey, hrefType]
  simp only [ok_bind, eraseIn, hcell, lookUp_map hmap]
  cases columns.field? (Sheet.columnOf cell) <;> rfl

theorem numberNode_eq (htype : node.field? "type" = some (.text NodeKind.number.name))
    (hval : node.field? "value" = some value) : numberNode node =
      value.toFloat >>= fun number => .ok (literalOutput .number (.float number) value) := by
  rw [numberNode, expect_of_type htype, item_of_field? hval]
  rfl

theorem logicalNode_eq {isTrue : Bool}
    (htype : node.field? "type" = some (.text NodeKind.logical.name))
    (hval : node.field? "value" = some value)
    (hword : (Text.lower value.plain == "true") = isTrue) : logicalNode node =
      .ok (literalOutput .logical (.bool isTrue) (.text (if isTrue then "TRUE" else "FALSE"))) := by
  rw [logicalNode, expect_of_type htype, item_of_field? hval, ← hword]
  rfl

theorem textNode_eq {s : String} (htype : node.field? "type" = some (.text NodeKind.text.name))
    (hval : node.field? "value" = some (.text s)) : textNode node =
      .ok (literalOutput .text (.text s) (.text ("'" ++ Text.replace s "\"" "'" ++ "'"))) := by
  rw [textNode, expect_of_type htype, item_of_field? hval]
  rfl

theorem returns_unary {r : Outcome Value}
    (htype : node.field? "type" = some (.text NodeKind.unary.name))
    (hsign : node.field? "operator" = some (.text sign))
    (hpart : node.field? "operand" = some left) (h : Returns (treeSql columns) left r) :
    Returns (treeSql columns) node (do
      let output ← r
      let sql ← output.item "sql"
      return unaryOutput sign output ("-(" ++ sql.plain ++ ")")) := by
  refine returns_treeSql htype fun n hn => ?_
  rw [nodeSql, unaryNode, expect_of_type htype, item_of_field? hpart, item_of_field? hsign,
    ← h.back n (hn hpart)]
  rfl

theorem returns_binary {r r' : Outcome Value}
    (htype : node.field? "type" = some (.text NodeKind.binary.name))
    (hsign : node.field? "operator" = some (.text sign))
    (hleft : node.field? "left" = some left) (hright : node.field? "right" = some right)
    (h : Returns (treeSql columns) left r) (h' : Returns (treeSql columns) right r') :
    Returns (treeSql columns) node (do
      let output ← r
      let output' ← r'
      let sql ← output.item "sql"
      let sql' ← output'.item "sql"
      return binaryOutput sign output output'
        ("(" ++ sql.plain ++ ") " ++ sign ++ " (" ++ sql'.plain ++ ")")) := by
  refine returns_treeSql htype fun n hn => ?_
  rw [nodeSql, binaryNode, expect_of_type htype, item_of_field? hleft, item_of_field? hright,
    item_of_field? hsign, ← h.back n (hn hleft), ← h'.back n (hn hright)]
  rfl

end Parts

/-! ## What becomes of a tree -/

/-- The answer reports no error, though the node of every cell without a column has one. -/
structure Hides (columns : List (String × String)) (t : FormulaTree) (output : Value)
    (response : SqlTree) : Prop where
  quiet : ∀ (path : List Side) part, path.foldlM answerOf response = some part →
    part.cellError = none ∧ part.rangeError = none
  found : ∀ (path : List Side) cell key, path.foldlM sideOf t = some cell → cell.kind = 4 →
    cell.key = some key → columnOf columns key = none → ∃ node part report,
      path.foldlM fieldOf output = some node ∧ node.field? "error" = some (.text report) ∧
      path.foldlM answerOf response = some part ∧ part.sql = ""

/-- One step of every path: the sides of the three go together. -/
theorem Hides.of_sides {columns : List (String × String)} {response : SqlTree}
    (hquiet : response.cellError = none ∧ response.rangeError = none)
    (hhere : ∀ key, t.kind = 4 → t.key = some key → columnOf columns key = none →
      ∃ report, output.field? "error" = some (.text report) ∧ response.sql = "")
    (hsides : ∀ side, (sideOf t side = none ∧ answerOf response side = none) ∨
      ∃ u v r, sideOf t side = some u ∧ fieldOf output side = some v ∧
        answerOf response side = some r ∧ Hides columns u v r) :
    Hides columns t output response where
  quiet path part hpart := by
    cases path with
    | nil =>
      cases hpart
      exact hquiet
    | cons side path =>
      obtain ⟨r, hr, hpart⟩ := Option.bind_eq_some_iff.mp hpart
      rcases hsides side with ⟨-, hnone⟩ | ⟨u, v, r', -, -, hr', h⟩
      · rw [hnone] at hr
        cases hr
      · rw [hr'] at hr
        cases hr
        exact h.quiet path part hpart
  found path cell key hcell hkind hkey hmissing := by
    cases path with
    | nil =>
      cases hcell
      obtain ⟨report, herr, hsql⟩ := hhere key hkind hkey hmissing
      exact ⟨output, response, report, rfl, herr, rfl, hsql⟩
    | cons side path =>
      obtain ⟨u, hu, hcell⟩ := Option.bind_eq_some_iff.mp hcell
      simp only [foldlM_cons]
      rcases hsides side with ⟨hnone, -⟩ | ⟨u', v, r, hu', hv, hr, h⟩
      · rw [hnone] at hu
        cases hu
      · rw [hu'] at hu
        cases hu
        rw [hv, hr]
        exact h.found path cell key hcell hkind hkey hmissing

/-- The message of a node either has the SQL of the node, or is refused. -/
inductive Fits (P : SqlTree → Prop) : Value → Outcome SqlTree → Bool → Prop where
  | sent {sql : Value} {response : SqlTree} (text : sql = .text response.sql)
      (holds : P response) : Fits P sql (.ok response) false
  | refused {sql : Value} {message : String} : Fits P sql (.error (.wrongKind message)) true

theorem Fits.bind {P P' : SqlTree → Prop} {sql sql' : Value} {f : SqlTree → Outcome SqlTree}
    {broken' : Bool} (h : Fits P sql r broken) (hf : ∀ u, P u → Fits P' sql' (f u) broken') :
    Fits P' sql' (r >>= f) (broken || broken') := by
  cases h with
  | sent _ holds => exact hf _ holds
  | refused => exact .refused

/-- What becomes of the map of a tree: a map with SQL and a message of it, or nothing, because the
map cannot be gone through. -/
inductive Fate (columns : List (String × String)) (t : FormulaTree) (v : Value) : Bool → Prop where
  | written {output sql : Value} {r : Outcome SqlTree} {broken : Bool}
      (draft : Returns (treeSql (textMapValue columns)) v (.ok output))
      (text : output.field? "sql" = some sql) (message : Returns SqlTree.ofValueUpTo output r)
      (fits : Fits (Hides columns t output) sql r broken) : Fate columns t v broken
  | stopped {message : String}
      (draft : Returns (treeSql (textMapValue columns)) v (.error (.wrongKind message))) :
      Fate columns t v true

section Nodes

variable {columns : List (String × String)} {t : FormulaTree}

theorem Fate.answered (h : Fate columns t v false) :
    ∃ output response, toSql (textMapValue columns) v = .ok output ∧
      output.item "sql" = .ok (.text response.sql) ∧ SqlTree.ofValue output = .ok response ∧
      Hides columns t output response := by
  cases h with
  | written draft text msg fits =>
    cases fits with
    | sent hsql hides =>
      rw [hsql] at text
      exact ⟨_, _, draft.back _ (Nat.lt_succ_self _), item_of_field? text,
        msg.back _ (Nat.lt_succ_self _), hides⟩

theorem Fate.failed (h : Fate columns t v true) :
    ∃ msg, (toSql (textMapValue columns) v >>= SqlTree.ofValue) =
      .error (.wrongKind msg) := by
  cases h with
  | written draft _ msg fits =>
    cases fits with
    | refused =>
      have hdraft : toSql (textMapValue columns) v = .ok _ := draft.back _ (Nat.lt_succ_self _)
      have hmsg : SqlTree.ofValue _ = .error _ := msg.back _ (Nat.lt_succ_self _)
      exact ⟨_, by rw [hdraft, ok_bind, hmsg]⟩
  | stopped draft =>
    have hdraft : toSql (textMapValue columns) v = .error _ := draft.back _ (Nat.lt_succ_self _)
    exact ⟨_, by rw [hdraft, error_bind]⟩

theorem Fate.drafted (h : Fate columns t v broken) :
    ∃ r, Returns (treeSql (textMapValue columns)) v r := by
  cases h with
  | written draft _ _ _ => exact ⟨_, draft⟩
  | stopped draft => exact ⟨_, draft⟩

theorem fate_leaf {sql : Value} (htype : v.field? "type" = some (.text kind.name))
    (hdraft : ∀ sub, nodeSql sub (textMapValue columns) kind v = .ok output)
    (htext : output.field? "sql" = some sql) (hmsg : ∀ sub, SqlTree.ofNode sub output = r)
    (hfits : Fits (Hides columns t output) sql r broken) : Fate columns t v broken :=
  .written (returns_treeSql htype fun _ _ => hdraft _) htext
    (.of_succ htext fun _ _ => hmsg _) hfits

variable {left right operand refType : Value}

theorem fate_cell {key : String} (hbears : t.Bears none none none []) (hkey : t.key = some key)
    (hrefType : ifTruthy refType referenceKinds.number = .ok t.refType)
    (htype : v.field? "type" = some (.text NodeKind.cell.name))
    (hfld : v.field? "key" = some (.text key))
    (hdefault : v.getD "refType" (.text "") = .ok refType) : Fate columns t v false := by
  let cell := Text.replace key "$" ""
  have hmap : ∃ entries, textMapValue columns = .map entries := ⟨_, rfl⟩
  obtain ⟨column, error, hdraft, hmissing⟩ : ∃ column error,
      cellNode (textMapValue columns) v = .ok (cellOutput cell refType (.text column) error) ∧
      (columnOf columns key = none → column = "" ∧ ∃ report, error = .text report) := by
    rw [cellNode_eq hmap htype hfld hdefault rfl, field?_textMapValue]
    cases hcol : columns.lookup (Sheet.columnOf cell) with
    | none => exact ⟨"", _, rfl, fun _ => ⟨rfl, _, rfl⟩⟩
    | some column =>
      exact ⟨column, _, rfl, fun hnone => absurd (hcol.symm.trans hnone) (Option.some_ne_none _)⟩
  have hmsg : ∀ sub, SqlTree.ofNode sub (cellOutput cell refType (.text column) error) =
      .ok { kind := 4, sql := column, cell := some cell, refType := t.refType,
            column := some column } := by
    have hkind : nodeKinds.number (.text "cell") = .ok 4 := rfl
    simp [cellOutput, SqlTree.ofNode, Message.optional, item, lookup, hkind, hrefType,
      SqlTree.literalOf, NodeKind.name]
  refine fate_leaf htype (fun _ => hdraft) (field?_record _ _) hmsg
    (.sent rfl (.of_sides ⟨rfl, rfl⟩ ?_ ?_))
  · intro key' _ hkey' hnone
    rw [hkey] at hkey'
    cases hkey'
    obtain ⟨rfl, report, rfl⟩ := hmissing hnone
    exact ⟨report, field?_record _ _, rfl⟩
  · intro side
    cases side <;> exact .inl ⟨sideOf_leaf hbears _, rfl⟩

theorem ofNode_literal {number : Int} {sql : Value}
    (hkind : nodeKinds.number (.text kind.name) = .ok number) (sub : Value → Outcome SqlTree) :
    SqlTree.ofNode sub (literalOutput kind value sql) = (do
      return { kind := number, sql := ← Slot.text sql, value := SqlTree.literalOf value }) := by
  simp [literalOutput, SqlTree.ofNode, Message.optional, item, lookup, hkind]

theorem fate_number {x : Float} (htype : v.field? "type" = some (.text NodeKind.number.name))
    (hval : v.field? "value" = some (.float x)) : Fate columns t v true :=
  fate_leaf htype (fun _ => numberNode_eq htype hval) (field?_record _ _) (ofNode_literal rfl)
    .refused

theorem fate_literal {number : Int} (hbears : t.Bears none none none []) (hkind : t.kind ≠ 4)
    (hnum : nodeKinds.number (.text kind.name) = .ok number)
    (htype : v.field? "type" = some (.text kind.name))
    (hdraft : ∀ sub, nodeSql sub (textMapValue columns) kind v =
      .ok (literalOutput kind value (.text sql))) : Fate columns t v false := by
  refine fate_leaf htype hdraft (field?_record _ _) (ofNode_literal hnum)
    (.sent rfl (.of_sides ⟨rfl, rfl⟩ (fun _ h => absurd h hkind) fun side => ?_))
  cases side <;> exact .inl ⟨sideOf_leaf hbears _, rfl⟩

/-- The arguments of a call are not in its map, so they cannot be gone through. -/
theorem fate_call {name : Value} (htype : v.field? "type" = some (.text NodeKind.function.name))
    (hname : v.field? "name" = some name)
    (hargs : v.getD "arguments" (.list []) = .ok .null) : Fate columns t v true := by
  have hdraft : ∀ sub, functionNode sub v = .error (Value.iterationFault .null) := by
    intro sub
    rw [functionNode, expect_of_type htype, item_of_field? hname, hargs]
    rfl
  exact .stopped (returns_treeSql htype fun _ _ => hdraft _)

theorem returns_unaryOutput (h : Returns SqlTree.ofValueUpTo output r) :
    Returns SqlTree.ofValueUpTo (unaryOutput sign output sql)
      (r >>= fun u => .ok { kind := 8, sql, operator := some sign, operand := some u }) := by
  refine .of_succ (field?_record _ "type") fun n hn => ?_
  have hkind : nodeKinds.number (.text "unary-expression") = .ok 8 := rfl
  have hsub := h.ifTruthy (hn (field?_record _ "operand"))
  simp [unaryOutput, SqlTree.ofValueUpTo, SqlTree.ofNode, Message.optional, item, lookup,
    hkind, hsub, SqlTree.literalOf]

/-- The right part is made into a message only after the left one, so the left fault comes first. -/
theorem returns_binaryOutput {output' : Value} {r' : Outcome SqlTree}
    (h : Returns SqlTree.ofValueUpTo output r) (h' : Returns SqlTree.ofValueUpTo output' r') :
    Returns SqlTree.ofValueUpTo (binaryOutput sign output output' sql) (do
      let left ← r
      let right ← r'
      .ok { kind := 1, sql, operator := some sign, left := some left, right := some right }) := by
  refine .of_succ (field?_record _ "type") fun n hn => ?_
  have hkind : nodeKinds.number (.text "binary-expression") = .ok 1 := rfl
  have hsub := h.ifTruthy (hn (field?_record _ "left"))
  have hsub' := h'.ifTruthy (hn (field?_record _ "right"))
  simp [binaryOutput, SqlTree.ofValueUpTo, SqlTree.ofNode, Message.optional, item, lookup,
    hkind, hsub, hsub', SqlTree.literalOf]

theorem operator_nodeValue {kind : Value} (h : t.operator = some sign) :
    (t.nodeValue kind left right refType operand).field? "operator" = some (.text sign) := by
  rw [nodeValue, h]
  rfl

theorem fate_unary {u : FormulaTree} (hkind : t.kind = 8) (hbears : t.Bears none none (some u) [])
    (htype : v.field? "type" = some (.text NodeKind.unary.name))
    (hsign : v.field? "operator" = some (.text sign)) (hpart : v.field? "operand" = some operand)
    (h : Fate columns u operand broken) : Fate columns t v broken := by
  cases h with
  | stopped draft => exact .stopped (returns_unary htype hsign hpart draft)
  | @written output sql _ _ draft text msg fits =>
    have hdraft := returns_unary htype hsign hpart draft
    rw [ok_bind, item_of_field? text] at hdraft
    rw [← Bool.or_false broken]
    refine .written hdraft (field?_record _ _) (returns_unaryOutput msg)
      (fits.bind fun r hides => .sent rfl (.of_sides ⟨rfl, rfl⟩ (by omega) fun side => ?_))
    cases side with
    | left => exact .inl ⟨hbears.left, rfl⟩
    | right => exact .inl ⟨hbears.right, rfl⟩
    | operand => exact .inr ⟨u, output, r, hbears.operand, field?_record _ _, rfl, hides⟩

theorem fate_binary {l r : FormulaTree} {broken' : Bool} (hkind : t.kind = 1)
    (hbears : t.Bears (some l) (some r) none [])
    (htype : v.field? "type" = some (.text NodeKind.binary.name))
    (hsign : v.field? "operator" = some (.text sign)) (hleft : v.field? "left" = some left)
    (hright : v.field? "right" = some right) (h : Fate columns l left broken)
    (h' : Fate columns r right broken') : Fate columns t v (broken || broken') := by
  cases h with
  | stopped draft =>
    obtain ⟨_, draft'⟩ := h'.drafted
    exact .stopped (returns_binary htype hsign hleft hright draft draft')
  | @written output sql _ _ draft text msg fits =>
    cases h' with
    | stopped draft' =>
      rw [Bool.or_true]
      exact .stopped (returns_binary htype hsign hleft hright draft draft')
    | @written output' sql' _ _ draft' text' message' fits' =>
      have hdraft := returns_binary htype hsign hleft hright draft draft'
      simp only [ok_bind, item_of_field? text, item_of_field? text'] at hdraft
      rw [← Bool.or_false broken']
      refine .written hdraft (field?_record _ _) (returns_binaryOutput msg message')
        (fits.bind fun a hides => fits'.bind fun b hides' =>
          .sent rfl (.of_sides ⟨rfl, rfl⟩ (by omega) fun side => ?_))
      cases side with
      | left => exact .inr ⟨l, output, a, hbears.left, field?_record _ _, rfl, hides⟩
      | right => exact .inr ⟨r, output', b, hbears.right, field?_record _ _, rfl, hides'⟩
      | operand => exact .inl ⟨hbears.operand, rfl⟩

end Nodes

end SheetMill.Formula

namespace SheetMill.Message.FormulaTree

open Formula
open Value (field?_record)

variable {known : List (String × String)} {t : FormulaTree}

theorem Supported.any_hasArguments (h : Supported known t)
    (hplain : t.any isNumberOrCall = false) : t.any hasArguments = false := by
  have hroot : ∀ {t}, t.arguments = [] → hasArguments t = false := by
    intro t ht
    simp [hasArguments, ht]
  have hcall : ∀ {t : FormulaTree}, t.kind = 3 → t.any isNumberOrCall ≠ false := by
    intro t ht
    simp [FormulaTree.any_eq, isNumberOrCall, ht]
  induction h with
  | cell hcell => simp [hcell.bears.any_eq, hroot hcell.bears.arguments]
  | number _ hbears _ => simp [hbears.any_eq, hroot hbears.arguments]
  | logical _ hbears _ => simp [hbears.any_eq, hroot hbears.arguments]
  | text _ hbears _ => simp [hbears.any_eq, hroot hbears.arguments]
  | unary _ hbears _ _ ih =>
    simp only [hbears.any_eq, Bool.or_eq_false_iff] at hplain
    simpa [hbears.any_eq, hroot hbears.arguments] using ih hplain.2
  | binary _ hbears _ _ _ ihleft ihright =>
    simp only [hbears.any_eq, Bool.or_eq_false_iff] at hplain
    simpa [hbears.any_eq, hroot hbears.arguments] using
      And.intro (ihleft hplain.1.1.2) (ihright hplain.1.2)
  | condition hkind _ _ _ _ _ _ => exact absurd hplain (hcall hkind)
  | conjunction hkind _ _ _ _ _ => exact absurd hplain (hcall hkind)
  | sum hkind _ _ _ _ => exact absurd hplain (hcall hkind)

/-- The map of a tree with known kinds is made of the maps of its operands, so what becomes of it is
what becomes of such maps. -/
theorem Bears.fate {left right operand : Option FormulaTree} {arguments : List FormulaTree}
    {number : Int} {columns : List (String × String)} (h : t.Bears left right operand arguments)
    (hknown : t.Known) (kind : NodeKind) (hnum : t.kind = number)
    (hname : nodeKinds.name number = .ok (.text kind.name))
    (hfate : ∀ l r o refType, left.elim (.ok .null) toValue = .ok l →
      right.elim (.ok .null) toValue = .ok r → operand.elim (.ok .null) toValue = .ok o →
      ifTruthy refType referenceKinds.number = .ok t.refType →
      Fate columns t (t.nodeValue (.text kind.name) l r refType o) (number == 5 || number == 3 ||
        left.any (any isNumberOrCall) || right.any (any isNumberOrCall) ||
        operand.any (any isNumberOrCall))) :
    ∃ v, t.toValue = .ok v ∧ Fate columns t v (t.any isNumberOrCall) := by
  have hoption : ∀ u : Option FormulaTree, (∀ x ∈ u, x.Known) →
      ∃ w, u.elim (.ok .null) toValue = .ok w := by
    intro u hu
    cases u with
    | none => exact ⟨.null, rfl⟩
    | some x =>
      obtain ⟨w, hw, -⟩ := (hu x rfl).exists_value
      exact ⟨w, hw⟩
  cases hknown with
  | node _ hrefType hleft hright _ hopnd =>
    rw [h.left] at hleft
    rw [h.right] at hright
    rw [h.operand] at hopnd
    obtain ⟨l, hl⟩ := hoption left hleft
    obtain ⟨r, hr⟩ := hoption right hright
    obtain ⟨o, ho⟩ := hoption operand hopnd
    obtain ⟨refType, hrefType, hrefType'⟩ := exists_refType hrefType
    refine ⟨t.nodeValue (.text kind.name) l r refType o, ?_, ?_⟩
    · rw [FormulaTree.toValue_eq, h.left, h.right, h.operand, hnum, hname, hl, hr, hrefType, ho]
      rfl
    · rw [h.any_eq, isNumberOrCall, hnum]
      exact hfate l r o refType hl hr ho hrefType'

/-- Every supported tree becomes a map, and the map has SQL and a message exactly if no number and
no call is reached through operands, whatever columns there are. -/
theorem Supported.fate (h : Supported known t) (hknown : t.Known)
    (columns : List (String × String)) :
    ∃ v, t.toValue = .ok v ∧ Fate columns t v (t.any isNumberOrCall) := by
  have hcall : ∀ {t} {us}, t.kind = 3 →
      t.Bears none none none us → t.Known →
      ∃ v, t.toValue = .ok v ∧ Fate columns t v (t.any isNumberOrCall) :=
    fun hkind hbears hknown => hbears.fate hknown .function hkind rfl fun _ _ _ _ _ _ _ _ =>
      fate_call (field?_record _ _) (field?_record _ _) rfl
  -- The map of an operand, whose fate the induction gives, is the one that stands in the node's map.
  induction h with
  | cell hcell =>
    refine hcell.bears.fate hknown .cell hcell.kind rfl fun _ _ _ _ _ _ _ hrefType => ?_
    exact fate_cell hcell.bears hcell.at_key hrefType (field?_record _ _)
      (by rw [nodeValue, hcell.at_key]; rfl) rfl
  | number hkind hbears hval =>
    exact hbears.fate hknown .number hkind rfl fun _ _ _ _ _ _ _ _ =>
      fate_number (field?_record _ _) (by rw [nodeValue, hval]; rfl)
  | logical hkind hbears _ =>
    exact hbears.fate hknown .logical hkind rfl fun _ _ _ _ _ _ _ _ =>
      fate_literal hbears (by omega) rfl (field?_record _ _) fun _ =>
        logicalNode_eq (field?_record _ _) (field?_record _ _) rfl
  | text hkind hbears hval =>
    exact hbears.fate hknown .text hkind rfl fun _ _ _ _ _ _ _ _ =>
      fate_literal hbears (by omega) rfl (field?_record _ _) fun _ =>
        textNode_eq (field?_record _ _) (by rw [nodeValue, hval]; rfl)
  | unary hkind hbears hoperator _ ih =>
    obtain ⟨w, hw, hfate⟩ := ih (@known_side _ _ hknown .operand hbears.operand)
    refine hbears.fate hknown .unary hkind rfl fun _ _ o _ _ _ ho _ => ?_
    obtain rfl : w = o := Except.ok.inj (hw.symm.trans ho)
    exact fate_unary hkind hbears (field?_record _ _) (operator_nodeValue hoperator)
      (field?_record _ _) hfate
  | binary hkind hbears hoperator _ _ ihleft ihright =>
    obtain ⟨w, hw, hfate⟩ := ihleft (@known_side _ _ hknown .left hbears.left)
    obtain ⟨w', hw', hfate'⟩ := ihright (@known_side _ _ hknown .right hbears.right)
    refine hbears.fate hknown .binary hkind rfl fun l r _ _ hl hr _ _ => ?_
    obtain rfl : w = l := Except.ok.inj (hw.symm.trans hl)
    obtain rfl : w' = r := Except.ok.inj (hw'.symm.trans hr)
    simpa using fate_binary hkind hbears (field?_record _ _) (operator_nodeValue hoperator)
      (field?_record _ _) (field?_record _ _) hfate hfate'
  | condition hkind hbears _ _ _ _ _ => exact hcall hkind hbears hknown
  | conjunction hkind hbears _ _ _ _ => exact hcall hkind hbears hknown
  | sum hkind hbears _ _ _ => exact hcall hkind hbears hknown

end SheetMill.Message.FormulaTree

namespace SheetMill.Formula.Service

open Message Act Outcome

variable {σ : Type} [Journaled σ]

/-! ## The service -/

theorem gives_say (severity : Severity) (text : String) :
    (say severity text : Act σ Unit).Gives (.ok ()) := fun _ => rfl

/-- The answer to a request without what the service tells about its work. -/
def serve (req : SqlRequest) : Outcome SqlTree := do
  let tree ← (req.tree.getD {}).toValue
  let output ← toSql (textMapValue req.columns) tree
  SqlTree.ofValue output

theorem gives_answer (settings : Settings) (peer : String) (req : SqlRequest) :
    (answer settings peer req : Act σ SqlTree).Gives (serve req) := by
  have htree : (answerTree settings req : Act σ SqlTree).Gives (serve req) :=
    (gives_say _ _).after <| (gives_lift _).bind fun _ => (gives_lift _).bind fun _ =>
      .told (gives_say _ _) ((gives_lift _).then fun _ => gives_say _ _)
  have hpassed : ∀ text f,
      (do say .error text; throw f : Act σ SqlTree).Gives (.error f) := fun _ f =>
    (gives_say _ _).after (gives_throw f)
  exact (gives_say _ _).after <| .handle
    (.then (htree.handle fun f => hpassed _ f) fun _ => gives_say _ _) fun f => hpassed _ f

theorem serve_of_toValue {t : FormulaTree} {tree : Value} (h : t.toValue = .ok tree)
    (columns : List (String × String)) : serve { tree := some t, columns } =
      toSql (textMapValue columns) tree >>= SqlTree.ofValue := by
  rw [serve, Option.getD_some, h, ok_bind]

/-- A request for the SQL of a supported tree is answered exactly if no number and no call is
reached through operands. The answer then has the SQL that the tree has, and the map of the tree
leaves no arguments out. Otherwise a value of the wrong kind is reported. -/
theorem formula_answered_iff_plain (t : FormulaTree) (columns : List (String × String))
    (hknown : t.Known) (h : t.Supported columns) (settings : Settings) (peer : String) (s : σ) :
    (t.any FormulaTree.isNumberOrCall = false →
      t.any FormulaTree.hasArguments = false ∧
      ∃ tree output response, t.toValue = .ok tree ∧
        toSql (textMapValue columns) tree = .ok output ∧
        output.item "sql" = .ok (.text response.sql) ∧
        ((answer settings peer { tree := some t, columns }).outcome s).1 = .ok response) ∧
    (t.any FormulaTree.isNumberOrCall = true →
      ∃ message, ((answer settings peer { tree := some t, columns }).outcome s).1 =
        .error (.wrongKind message)) := by
  obtain ⟨tree, htree, hfate⟩ := h.fate hknown columns
  rw [(gives_answer settings peer _).outcome, serve_of_toValue htree]
  constructor
  · intro hplain
    rw [hplain] at hfate
    obtain ⟨output, response, houtput, hsql, hresponse, -⟩ := hfate.answered
    refine ⟨h.any_hasArguments hplain, tree, output, response, htree, houtput, hsql, ?_⟩
    rw [houtput, ok_bind, hresponse]
  · intro hbroken
    rw [hbroken] at hfate
    exact hfate.failed

/-- A cell with a minus sign joined with a text is answered, a condition with a number is not. -/
theorem formula_answered_iff_plain_cases :
    let columns := [("A", "amount")]
    let cell : FormulaTree := { kind := 4, refType := some 2, key := some "$A$1" }
    let text : FormulaTree := { kind := 7, value := some (.text "x") }
    let minus : FormulaTree := { kind := 8, operator := some "-", operand := some cell }
    let plain : FormulaTree :=
      { kind := 1, operator := some "&", left := some minus, right := some text }
    let five : FormulaTree := { kind := 5, value := some (.number 5) }
    let call : FormulaTree := { kind := 3, name := some "if", arguments := [cell, text, five] }
    (plain.Known ∧ plain.Supported columns ∧ ∃ tree output response, plain.toValue = .ok tree ∧
      toSql (textMapValue columns) tree = .ok output ∧
      output.item "sql" = .ok (.text response.sql) ∧
      ((answer {} "client" { tree := some plain, columns }).outcome ([] : Journal)).1 =
        .ok response) ∧
    (call.Known ∧ call.Supported columns ∧ ∃ message,
      ((answer {} "client" { tree := some call, columns }).outcome ([] : Journal)).1 =
        .error (.wrongKind message)) := by
  intro columns cell text minus plain five call
  have hcell : cell.IsCell columns "$A$1" "amount" :=
    ⟨rfl, ⟨rfl, rfl, rfl, rfl⟩, rfl, by decide +kernel⟩
  have hcellKnown : cell.Known := .of_parts (by decide) (by decide) (by simp [cell])
  have htext : text.Supported columns := .text rfl ⟨rfl, rfl, rfl, rfl⟩ rfl
  have htextKnown : text.Known := .of_parts (by decide) (by decide) (by simp [text])
  have hfive : five.Supported columns := .number rfl ⟨rfl, rfl, rfl, rfl⟩ rfl
  have hfiveKnown : five.Known := .of_parts (by decide) (by decide) (by simp [five])
  have hminus : minus.Supported columns := .unary rfl ⟨rfl, rfl, rfl, rfl⟩ rfl (.cell hcell)
  have hminusKnown : minus.Known := .of_parts (by decide) (by decide) (by simp [minus, hcellKnown])
  have hplain : plain.Supported columns := .binary rfl ⟨rfl, rfl, rfl, rfl⟩ rfl hminus htext
  have hplainKnown : plain.Known :=
    .of_parts (by decide) (by decide) (by simp [plain, hminusKnown, htextKnown])
  have hcall : call.Supported columns :=
    .condition rfl ⟨rfl, rfl, rfl, rfl⟩ rfl (by decide +kernel) (.cell hcell) htext hfive
  have hcallKnown : call.Known :=
    .of_parts (by decide) (by decide) (by simp [call, hcellKnown, htextKnown, hfiveKnown])
  have hanswer := (formula_answered_iff_plain plain columns hplainKnown hplain {} "client"
    ([] : Journal)).1 rfl
  have hfault := (formula_answered_iff_plain call columns hcallKnown hcall {} "client"
    ([] : Journal)).2 rfl
  exact ⟨⟨hplainKnown, hplain, hanswer.2⟩, hcallKnown, hcall, hfault⟩

/-- A formula without numbers and calls is answered whether or not the request has its columns. The
SQL has a gap in the place of a column that is missing, and nothing in the answer tells of it. -/
theorem missing_columns_unreported (t : FormulaTree) (known columns : List (String × String))
    (hknown : t.Known) (h : t.Supported known) (hplain : t.any FormulaTree.isNumberOrCall = false)
    (settings : Settings) (peer : String) (s : σ) :
    ∃ tree output response, t.toValue = .ok tree ∧
      toSql (textMapValue columns) tree = .ok output ∧
      ((answer settings peer { tree := some t, columns }).outcome s).1 = .ok response ∧
      Hides columns t output response := by
  obtain ⟨tree, htree, hfate⟩ := h.fate hknown columns
  rw [hplain] at hfate
  obtain ⟨output, response, houtput, -, hresponse, hides⟩ := hfate.answered
  refine ⟨tree, output, response, htree, houtput, ?_, hides⟩
  rw [(gives_answer settings peer _).outcome, serve_of_toValue htree, houtput, ok_bind, hresponse]

theorem missing_columns_unreported_operand :
    let cell : FormulaTree := { kind := 4, refType := some 1, key := some "B1" }
    let minus : FormulaTree := { kind := 8, operator := some "-", operand := some cell }
    minus.Known ∧ minus.Supported [("B", "price")] ∧ ∃ response part,
      ((answer {} "client" { tree := some minus, columns := [("A", "amount")] }).outcome
        ([] : Journal)).1 = .ok response ∧
      response.operand = some part ∧ part.sql = "" ∧ part.cellError = none := by
  intro cell minus
  have hcell : cell.Known := .of_parts (by decide) (by decide) (by simp [cell])
  have hminus : minus.Known := .of_parts (by decide) (by decide) (by simp [minus, hcell])
  have hprice : cell.IsCell [("B", "price")] "B1" "price" :=
    ⟨rfl, ⟨rfl, rfl, rfl, rfl⟩, rfl, by decide +kernel⟩
  have hsupported : minus.Supported [("B", "price")] :=
    .unary rfl ⟨rfl, rfl, rfl, rfl⟩ rfl (.cell hprice)
  obtain ⟨_, output, response, -, -, hanswer, hides⟩ := missing_columns_unreported minus
    [("B", "price")] [("A", "amount")] hminus hsupported rfl {} "client" ([] : Journal)
  obtain ⟨_, part, _, -, -, hpart, hsql⟩ :=
    hides.found [.operand] cell "B1" rfl rfl rfl (by decide +kernel)
  exact ⟨hminus, hsupported, response, part, hanswer, by simpa [answerOf] using hpart, hsql,
    (hides.quiet _ _ hpart).1⟩

end SheetMill.Formula.Service
