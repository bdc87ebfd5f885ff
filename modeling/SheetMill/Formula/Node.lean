import SheetMill.Value.Access

/-!
# Nodes of formula trees

A formula travels as a tree of maps. The kind of a node stands under `type`; the kind decides which
other fields the node has.
-/

namespace SheetMill.Formula

/-- The kinds of nodes of a formula. -/
inductive NodeKind where
  | binary
  | cellRange
  | function
  | cell
  | number
  | logical
  | text
  | unary
  deriving Repr, DecidableEq

def NodeKind.name : NodeKind → String
  | binary => "binary-expression"
  | cellRange => "cell-range"
  | function => "function"
  | cell => "cell"
  | number => "number"
  | logical => "logical"
  | text => "text"
  | unary => "unary-expression"

def NodeKind.all : List NodeKind :=
  [.binary, .cellRange, .function, .cell, .number, .logical, .text, .unary]

def NodeKind.ofName? (name : String) : Option NodeKind := all.find? (·.name == name)

def lookupFault (key : Value) : Fault :=
  if key.isKey then .missingKey key
  else .wrongKind ("unhashable type: '" ++ key.kindName ++ "'")

def kindOf (node : Value) : Outcome NodeKind := do
  let key ← node.item "type"
  match key with
  | .text name =>
    match NodeKind.ofName? name with
    | some kind => .ok kind
    | none => .error (lookupFault key)
  | key => .error (lookupFault key)

def expect (kind : NodeKind) (node : Value) : Outcome Unit := do
  let key ← node.item "type"
  if key.same (.text kind.name) then .ok ()
  else .error (.badValue ("AST must be of type '" ++ kind.name ++ "'"))

end SheetMill.Formula
