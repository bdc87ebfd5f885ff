import SheetMill.Message.Transcoder

/-!
# Messages about formulas

The tree of a formula, its tokens, and the request to parse a formula with its answer.
-/

namespace SheetMill.Message

open Wire

def nodeKinds : Names :=
  [("unknown", 0), ("binary-expression", 1), ("cell-range", 2), ("function", 3), ("cell", 4),
    ("number", 5), ("logical", 6), ("text", 7), ("unary-expression", 8)]

def referenceKinds : Names := [("unknown", 0), ("relative", 1), ("absolute", 2), ("mixed", 3)]

/-- A literal of a formula. -/
inductive Literal where
  | number (x : Float32)
  | text (s : String)
  | logical (b : Bool)
  deriving Repr, Inhabited

def Literal.number? : Option Literal → Option Float32
  | some (.number x) => some x
  | _ => none

def Literal.text? : Option Literal → Option String
  | some (.text s) => some s
  | _ => none

def Literal.logical? : Option Literal → Option Bool
  | some (.logical b) => some b
  | _ => none

def Literal.toValue : Option Literal → Value
  | some (.number x) => .float (Decimal.widened x)
  | some (.text s) => .text s
  | some (.logical b) => .bool b
  | none => .null

def literalFields {μ : Type} (first : Nat) (get : μ → Option Literal)
    (set : Option Literal → μ → μ) : List (FieldCodec μ) :=
  [.single? first (fun m => Literal.number? (get m)) fun x m => set (x.map .number) m,
    .text? (first + 1) (fun m => Literal.text? (get m)) fun s m => set (s.map .text) m,
    .bool? (first + 2) (fun m => Literal.logical? (get m)) fun b m => set (b.map .logical) m]

/-- The tree of a formula. -/
structure FormulaTree where
  kind : Int := 0
  operator : Option String := none
  left : Option FormulaTree := none
  right : Option FormulaTree := none
  arguments : List FormulaTree := []
  name : Option String := none
  refType : Option Int := none
  key : Option String := none
  operand : Option FormulaTree := none
  value : Option Literal := none

namespace FormulaTree

mutual

def height : FormulaTree → Nat
  | ⟨_, _, left, right, arguments, _, _, _, operand, _⟩ =>
    max (max (heightOption left) (heightOption right))
      (max (heightList arguments) (heightOption operand)) + 1

def heightOption : Option FormulaTree → Nat
  | none => 0
  | some t => t.height

def heightList : List FormulaTree → Nat
  | [] => 0
  | t :: rest => max t.height (heightList rest)

end

def codecUpTo : Nat → Codec FormulaTree
  | 0 => ⟨{}, []⟩
  | height + 1 =>
    let sub := codecUpTo height
    ⟨{}, [
      .int 1 (·.kind) fun i m => { m with kind := i },
      .text? 2 (·.operator) fun s m => { m with operator := s },
      .message 3 sub (·.left) fun t m => { m with left := t },
      .message 4 sub (·.right) fun t m => { m with right := t },
      .messages 5 sub (·.arguments) fun ts m => { m with arguments := ts },
      .text? 6 (·.name) fun s m => { m with name := s },
      .int? 7 (·.refType) fun i m => { m with refType := i },
      .text? 8 (·.key) fun s m => { m with key := s },
      .message 9 sub (·.operand) fun t m => { m with operand := t }] ++
      literalFields 10 (·.value) fun l m => { m with value := l }⟩

/-- A tree made from a map, the maps below it being handled by `sub`. A literal cannot be given this
way. -/
def ofNode (sub : Value → Outcome FormulaTree) (v : Value) : Outcome FormulaTree := do
  let kind ← nodeKinds.number (← v.item "type")
  let operator ← v.item "operator"
  let left ← ifTruthy (← v.item "left") sub
  let right ← ifTruthy (← v.item "right") sub
  let arguments ← ifTruthy (← v.item "arguments") fun xs => do (← xs.items).mapM sub
  let name ← v.item "name"
  let refType ← ifTruthy (← v.item "refType") referenceKinds.number
  let key ← v.item "key"
  let operand ← ifTruthy (← v.item "operand") sub
  let tree : FormulaTree :=
    { kind, operator := ← Slot.text? operator, left, right, arguments := arguments.getD [],
      name := ← Slot.text? name, refType, key := ← Slot.text? key, operand }
  match ← v.item "value" with
  | .float _ | .text _ | .bool _ => throw (.noMember "'AST' object has no attribute 'value'")
  | _ => return tree

def ofValueUpTo : Nat → Value → Outcome FormulaTree
  | 0, _ => .error .tooDeep
  | height + 1, v => ofNode (ofValueUpTo height) v

def ofValue (v : Value) : Outcome FormulaTree := ofValueUpTo (v.height + 1) v

/-- The map of a root whose kind and parts are known. -/
def nodeValue (t : FormulaTree) (kind left right refType operand : Value) : Value :=
  .record [("type", kind), ("operator", .ofText? t.operator), ("left", left), ("right", right),
    ("arguments", .null), ("name", .ofText? t.name), ("refType", refType), ("key", .ofText? t.key),
    ("operand", operand), ("value", Literal.toValue t.value)]

def referenceKindValue : Option Int → Outcome Value
  | none => .ok .null
  | some n => referenceKinds.name n

mutual

def toValue : FormulaTree → Outcome Value
  | t@⟨kind, _, left, right, _, _, refType, _, operand, _⟩ => do
    let kind ← nodeKinds.name kind
    let left ← toValueOption left
    let right ← toValueOption right
    let refType ← referenceKindValue refType
    let operand ← toValueOption operand
    return t.nodeValue kind left right refType operand

def toValueOption : Option FormulaTree → Outcome Value
  | none => .ok .null
  | some t => t.toValue

end

def encode (order : MapOrder) (t : FormulaTree) : Octets := (codecUpTo t.height).encode order t

def decode (octets : Octets) : Outcome FormulaTree := (codecUpTo (octets.length + 1)).decode octets

def transcoder : Transcoder where
  write order v := encode order <$> ofValue v
  read octets := do (← decode octets).toValue

end FormulaTree

/-- A token of a formula. -/
structure Token where
  value : String := ""
  type : String := ""
  subtype : String := ""

namespace Token

def codec : Codec Token := ⟨{}, [
  .text 1 (·.value) fun s m => { m with value := s },
  .text 2 (·.type) fun s m => { m with type := s },
  .text 3 (·.subtype) fun s m => { m with subtype := s }]⟩

def ofValue (v : Value) : Outcome Token := do
  let value ← v.item "value"
  let type ← v.item "type"
  let subtype ← v.item "subtype"
  return { value := ← Slot.text value, type := ← Slot.text type, subtype := ← Slot.text subtype }

def toValue (m : Token) : Value :=
  .record [("value", .text m.value), ("type", .text m.type), ("subtype", .text m.subtype)]

def transcoder : Transcoder := .of codec ofValue fun m => .ok m.toValue

end Token

def tokens : Single (List Token) := .messages "tokens" Token.codec Token.ofValue Token.toValue

def formulaRequest : Single String := .text "formula"

/-- A parsed formula. -/
structure FormulaResponse where
  formula : String := ""
  tokens : Option (List Token) := none
  tree : Option FormulaTree := none
  error : String := ""

namespace FormulaResponse

def codecUpTo (height : Nat) : Codec FormulaResponse := ⟨{}, [
  .text 1 (·.formula) fun s m => { m with formula := s },
  .message 2 Message.tokens.codec (·.tokens) fun t m => { m with tokens := t },
  .message 3 (FormulaTree.codecUpTo height) (·.tree) fun t m => { m with tree := t },
  .text 4 (·.error) fun s m => { m with error := s }]⟩

def ofValue (v : Value) : Outcome FormulaResponse := do
  let formula ← v.item "formula"
  let tokens ← ifTruthy (← v.item "tokens") Message.tokens.ofValue
  let tree ← ifTruthy (← v.item "ast") FormulaTree.ofValue
  let error ← v.item "error"
  return { formula := ← Slot.text formula, tokens, tree, error := ← Slot.text error }

def toValue (m : FormulaResponse) : Outcome Value := do
  let tree ←
    match m.tree with
    | none => pure .null
    | some t => t.toValue
  return .record [("formula", .text m.formula),
    ("tokens", (m.tokens.map Message.tokens.toValue).getD .null), ("ast", tree), ("error", .text m.error)]

def decode (octets : Octets) : Outcome FormulaResponse :=
  (codecUpTo octets.length).decode octets

def transcoder : Transcoder where
  write order v := do
    let m ← ofValue v
    return (codecUpTo (FormulaTree.heightOption m.tree)).encode order m
  read octets := do (← decode octets).toValue

end FormulaResponse

end SheetMill.Message
