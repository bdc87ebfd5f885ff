import SheetMill.Message.Sql
import SheetMill.Proofs.Precision
import SheetMill.Proofs.Value

/-!
# Fields of messages, there and back

What a field of a message becomes in a map, and what the map gives back: the number of a kind
through its name, a text that may be absent, texts in a row, parts that are messages themselves, and
entries under keys.
-/

namespace SheetMill.Message

open Wire Value List

/-! ## Names -/

def Names.Knows (names : Names) (number : Int) : Prop := ∃ name, (name, number) ∈ names

instance (names : Names) (number : Int) : Decidable (names.Knows number) :=
  decidable_of_iff (∃ e ∈ names, e.2 = number)
    ⟨fun ⟨e, he, h⟩ => ⟨e.1, h ▸ he⟩, fun ⟨_, h⟩ => ⟨_, h, rfl⟩⟩

structure Names.Proper (names : Names) : Prop where
  nodup : (names.map Prod.fst).Nodup
  nonempty : ∀ e ∈ names, e.1 ≠ ""

theorem proper_nodeKinds : nodeKinds.Proper := ⟨by decide, by decide⟩

theorem proper_referenceKinds : referenceKinds.Proper := ⟨by decide, by decide⟩

theorem lookup_of_mem_nodup {names : Names} (h : (names.map Prod.fst).Nodup) {name : String}
    {number : Int} (hmem : (name, number) ∈ names) : names.lookup name = some number := by
  induction names with
  | nil => cases hmem
  | cons e names ih =>
    rw [map_cons, nodup_cons] at h
    rcases mem_cons.mp hmem with rfl | hmem
    · simp [lookup]
    · have hne : name ≠ e.1 := by
        rintro rfl
        exact h.1 (mem_map.mpr ⟨_, hmem, rfl⟩)
      rw [lookup_cons_of_ne hne, ih h.2 hmem]

theorem Names.Proper.exists_name {names : Names} (h : names.Proper) {number : Int}
    (hknows : names.Knows number) :
    ∃ name, names.name number = .ok (.text name) ∧ names.number (.text name) = .ok number ∧
      name ≠ "" := by
  obtain ⟨name, hmem⟩ := hknows
  have hsome : (names.find? (·.2 == number)).isSome := by
    rw [find?_isSome]
    exact ⟨_, hmem, by simp⟩
  obtain ⟨⟨first, number'⟩, hfind⟩ := Option.isSome_iff_exists.mp hsome
  have hmem' := mem_of_find?_eq_some hfind
  have hnum : number' = number := by simpa using find?_some hfind
  subst hnum
  refine ⟨first, ?_, ?_, h.nonempty _ hmem'⟩
  · simp [Names.name, hfind]
  · simp [Names.number, lookup_of_mem_nodup h.nodup hmem']

theorem exists_refType {o : Option Int} (h : ∀ n ∈ o, referenceKinds.Knows n) :
    ∃ w, FormulaTree.referenceKindValue o = .ok w ∧ ifTruthy w referenceKinds.number = .ok o := by
  cases o with
  | none => exact ⟨.null, rfl, rfl⟩
  | some n =>
    obtain ⟨name, hname, hnum, hne⟩ := proper_referenceKinds.exists_name (h n rfl)
    have htruthy : (text name).truthy = true := by simp [truthy, hne]
    refine ⟨.text name, hname, ?_⟩
    rw [ifTruthy, if_pos htruthy, hnum]
    rfl

/-! ## Texts -/

@[simp] theorem text?_ofText? (s : Option String) : Slot.text? (.ofText? s) = .ok s := by
  cases s <;> rfl

@[simp] theorem text?_text (s : String) : Slot.text? (.text s) = .ok (some s) := rfl

@[simp] theorem text?_null : Slot.text? .null = .ok none := rfl

@[simp] theorem text_text (s : String) : Slot.text (.text s) = .ok s := rfl

theorem mapM_textOf (texts : List String) :
    (texts.map text).mapM Slot.textOf = .ok texts := by
  rw [Outcome.mapM_eq_ok, forall₂_map_left_iff, forall₂_same]
  exact fun _ _ => rfl

theorem exists_texts (texts : List String) :
    ∃ items, ifTruthy (.texts texts) Value.items = .ok items ∧
      (items.getD []).mapM Slot.textOf = .ok texts := by
  cases texts with
  | nil => exact ⟨none, rfl, rfl⟩
  | cons s texts => exact ⟨some ((s :: texts).map .text), rfl, mapM_textOf (s :: texts)⟩

/-! ## Parts -/

@[simp] theorem ifTruthy_null {α : Type} (make : Value → Outcome α) :
    ifTruthy .null make = .ok none := rfl

section Parts

variable {α : Type} {toValue : α → Outcome Value} {sub : Nat → Value → Outcome α}

/-- The value is not empty and comes out as `r`, given more steps than it is high. -/
structure Returns {β : Type} (sub : Nat → Value → Outcome β) (v : Value) (r : Outcome β) :
    Prop where
  truthy : v.truthy = true
  back : ∀ n, v.height < n → sub n v = r

/-- One step suffices, if the steps that are left are enough for every part. -/
theorem Returns.of_succ {β : Type} {sub : Nat → Value → Outcome β} {v w : Value} {s : String}
    {r : Outcome β} (hfld : v.field? s = some w)
    (h : ∀ n, (∀ {s w}, v.field? s = some w → w.height < n) → sub (n + 1) v = r) :
    Returns sub v r := by
  refine ⟨truthy_of_field? hfld, fun n hn => ?_⟩
  cases n with
  | zero => omega
  | succ n =>
    refine h n fun hs => ?_
    have := height_lt_of_field? hs
    omega

theorem Returns.ifTruthy {β : Type} {sub : Nat → Value → Outcome β} {v : Value} {r : Outcome β}
    {n : Nat} (h : Returns sub v r) (hn : v.height < n) :
    Message.ifTruthy v (sub n) = some <$> r := by
  rw [Message.ifTruthy, if_pos h.truthy, h.back n hn]

theorem exists_part {o : Option α} {result : α → Outcome α}
    (h : ∀ t ∈ o, ∃ v, toValue t = .ok v ∧ Returns sub v (result t)) :
    ∃ w, o.elim (.ok .null) toValue = .ok w ∧
      ∀ n, w.height < n → ifTruthy w (sub n) = o.mapM result := by
  cases o with
  | none => exact ⟨.null, rfl, fun _ _ => rfl⟩
  | some t =>
    obtain ⟨v, hv, hret⟩ := h t rfl
    exact ⟨v, hv, fun n hn => hret.ifTruthy hn⟩

theorem mapM_ok (o : Option α) : o.mapM (Except.ok : α → Outcome α) = .ok o := by
  cases o <;> rfl

theorem mapM_of_returns {ts : List α} {vs : List Value} {n : Nat}
    (h : Forall₂ (fun t v => Returns sub v (.ok t)) ts vs) (hn : ∀ v ∈ vs, v.height < n) :
    vs.mapM (sub n) = .ok ts := by
  induction h with
  | nil => rfl
  | cons hret _ ih =>
    rw [forall_mem_cons] at hn
    simp [mapM_cons, hret.back n hn.1, ih hn.2]

theorem exists_parts {ts : List α}
    (h : ∀ t ∈ ts, ∃ v, toValue t = .ok v ∧ Returns sub v (.ok t)) :
    ∃ vs, ts.mapM toValue = .ok vs ∧
      ∀ n, (list vs).height ≤ n →
        ∃ items, (ifTruthy (.list vs) fun xs => do (← xs.items).mapM (sub n)) = .ok items ∧
          items.getD [] = ts := by
  obtain ⟨vs, hvs, hret⟩ := Outcome.exists_mapM_eq_ok h
  refine ⟨vs, hvs, fun n hn => ?_⟩
  have hback : vs.mapM (sub n) = .ok ts :=
    mapM_of_returns hret fun v hv => (height_lt_of_mem_items hv).trans_le hn
  cases vs with
  | nil =>
    cases hret
    exact ⟨none, rfl, rfl⟩
  | cons v vs =>
    have htruthy : (list (v :: vs)).truthy = true := rfl
    refine ⟨some ts, ?_, rfl⟩
    rw [ifTruthy, items_list, Outcome.ok_bind, hback]
    rfl

end Parts

/-! ## Entries -/

section Entries

variable {α β : Type} {entries : List (String × α)}

theorem putEntry_of_not_mem {key : String} (h : key ∉ entries.map Prod.fst) (value : α) :
    Wire.putEntry entries key value = entries ++ [(key, value)] := by
  induction entries with
  | nil => rfl
  | cons e rest ih =>
    rw [map_cons, mem_cons, not_or] at h
    have hne : (e.1 == key) = false := beq_eq_false_iff_ne.mpr (Ne.symm h.1)
    simp [Wire.putEntry, hne, ih h.2]

theorem foldlM_putEntry {step : List (String × α) → β → Outcome (List (String × α))}
    {make : String × α → β} (hstep : ∀ acc e, step acc (make e) = .ok (Wire.putEntry acc e.1 e.2))
    (h : (entries.map Prod.fst).Nodup) : (entries.map make).foldlM step [] = .ok entries := by
  suffices hfold : ∀ front, ((front ++ entries).map Prod.fst).Nodup →
      (entries.map make).foldlM step front = .ok (front ++ entries) from hfold [] h
  clear h
  induction entries with
  | nil => simp
  | cons e entries ih =>
    intro front hfront
    have hnew : e.1 ∉ front.map Prod.fst := by
      rw [map_append] at hfront
      intro hmem
      exact (nodup_append.mp hfront).2.2 _ hmem _ mem_cons_self rfl
    rw [append_cons] at hfront ⊢
    rw [map_cons, foldlM_cons, hstep, putEntry_of_not_mem hnew]
    exact ih _ hfront

theorem textKeys_of_nodup (h : (entries.map Prod.fst).Nodup) :
    BuildRequest.textKeys (entries.map fun e => (.text e.1, e.2)) = .ok entries :=
  foldlM_putEntry (fun _ _ => rfl) h

theorem mapValues_record {fs : List (String × Value)} {make : Value → Outcome α}
    (h : Forall₂ (fun e f => f.1 = e.1 ∧ make f.2 = .ok e.2) entries fs) :
    BuildRequest.mapValues (.record fs) make =
      .ok (entries.map fun e => (.text e.1, e.2)) := by
  rw [BuildRequest.mapValues, record, entriesAs, Outcome.ok_bind, Outcome.mapM_eq_ok,
    forall₂_map_left_iff, forall₂_map_right_iff]
  refine h.flip.imp fun f e hent => ?_
  simp [hent.1, hent.2]

end Entries

end SheetMill.Message

namespace SheetMill.Message.FormulaTree

/-! ## Messages about formulas, there and back -/

open Wire Value

variable {t : FormulaTree}

/-- All kinds of nodes and of references in the tree have names. -/
inductive Known : FormulaTree → Prop where
  | node {t : FormulaTree} (kind : nodeKinds.Knows t.kind)
      (refType : ∀ n ∈ t.refType, referenceKinds.Knows n) (left : ∀ u ∈ t.left, Known u)
      (right : ∀ u ∈ t.right, Known u) (arguments : ∀ u ∈ t.arguments, Known u)
      (operand : ∀ u ∈ t.operand, Known u) : Known t

theorem Known.of_parts (hkind : nodeKinds.Knows t.kind)
    (hrefType : ∀ n ∈ t.refType, referenceKinds.Knows n)
    (hparts : ∀ u ∈ t.left.toList ++ t.right.toList ++ t.arguments ++ t.operand.toList, u.Known) :
    t.Known := by
  simp only [List.mem_append, Option.mem_toList] at hparts
  exact .node hkind hrefType (fun u hu => hparts u (.inl (.inl (.inl hu))))
    (fun u hu => hparts u (.inl (.inl (.inr hu)))) (fun u hu => hparts u (.inl (.inr hu)))
    fun u hu => hparts u (.inr hu)

mutual

/-- Whether the root or a node that is reached from it through operands satisfies `p`. -/
def any (p : FormulaTree → Bool) : FormulaTree → Bool
  | t@⟨_, _, left, right, _, _, _, _, operand, _⟩ =>
    p t || anyOption p left || anyOption p right || anyOption p operand

def anyOption (p : FormulaTree → Bool) : Option FormulaTree → Bool
  | none => false
  | some t => t.any p

end

mutual

/-- The tree without the arguments of functions. -/
def pruned : FormulaTree → FormulaTree
  | ⟨kind, operator, left, right, _, name, refType, key, operand, value⟩ =>
    ⟨kind, operator, prunedOption left, prunedOption right, [], name, refType, key,
      prunedOption operand, value⟩

def prunedOption : Option FormulaTree → Option FormulaTree
  | none => none
  | some t => some t.pruned

end

def hasLiteral (t : FormulaTree) : Bool := t.value.isSome

def hasArguments (t : FormulaTree) : Bool := !t.arguments.isEmpty

/-! ## Recursion over operands -/

theorem any_eq (p : FormulaTree → Bool) (t : FormulaTree) :
    t.any p = (p t || t.left.any (any p) || t.right.any (any p) || t.operand.any (any p)) := by
  have hoption : ∀ o, anyOption p o = o.any (any p) := by
    intro o
    cases o <;> rfl
  cases t
  rw [any, hoption, hoption, hoption]

theorem pruned_eq (t : FormulaTree) :
    t.pruned = { t with left := t.left.map pruned, right := t.right.map pruned, arguments := [],
                        operand := t.operand.map pruned } := by
  have hoption : ∀ o, prunedOption o = o.map pruned := by
    intro o
    cases o <;> rfl
  cases t
  rw [pruned, hoption, hoption, hoption]

theorem toValue_eq (t : FormulaTree) : t.toValue = (do
    let kind ← nodeKinds.name t.kind
    let left ← t.left.elim (.ok .null) toValue
    let right ← t.right.elim (.ok .null) toValue
    let refType ← referenceKindValue t.refType
    let operand ← t.operand.elim (.ok .null) toValue
    return t.nodeValue kind left right refType operand) := by
  have hoption : ∀ o, toValueOption o = o.elim (.ok .null) toValue := by
    intro o
    cases o <;> simp [toValueOption]
  cases t
  rw [toValue, hoption, hoption, hoption]

/-- Nothing is lost without arguments exactly if there are none. -/
theorem Known.pruned_eq_self_iff (h : t.Known) : t.pruned = t ↔ t.any hasArguments = false := by
  have hoption : ∀ o : Option FormulaTree,
      (∀ u ∈ o, u.pruned = u ↔ u.any hasArguments = false) →
      (o.map pruned = o ↔ o.any (any hasArguments) = false) := by
    intro o ho
    cases o with
    | none => simp
    | some u => simpa using ho u rfl
  induction h with
  | @node t _ _ _ _ _ _ ihleft ihright _ ihoperand =>
    have hroot : t.pruned = t ↔ t.left.map pruned = t.left ∧ t.right.map pruned = t.right ∧
        t.arguments = [] ∧ t.operand.map pruned = t.operand := by
      rw [pruned_eq]
      cases t
      simp [eq_comm]
    have hhere : hasArguments t = false ↔ t.arguments = [] := by simp [hasArguments]
    rw [hroot, any_eq, hoption _ ihleft, hoption _ ihright, hoption _ ihoperand]
    simp only [Bool.or_eq_false_iff, hhere]
    tauto

/-! ## What the map gives back -/

def readBack (t : FormulaTree) : Outcome FormulaTree :=
  if t.any hasLiteral then .error (.noMember "'AST' object has no attribute 'value'")
  else .ok t.pruned

theorem mapM_readBack (o : Option FormulaTree) :
    o.mapM readBack = if o.any (any hasLiteral) then
      .error (.noMember "'AST' object has no attribute 'value'") else .ok (o.map pruned) := by
  cases o with
  | none => rfl
  | some t =>
    rw [Option.any_some, Option.mapM_some, readBack]
    split <;> rfl

/-- The root of a tree is made from its map, with what its operands give back. -/
theorem ofNode_nodeValue {sub : Value → Outcome FormulaTree} {name : String}
    {left right refType operand : Value} (hkind : nodeKinds.number (.text name) = .ok t.kind)
    (hleft : ifTruthy left sub = t.left.mapM readBack)
    (hright : ifTruthy right sub = t.right.mapM readBack)
    (hrefType : ifTruthy refType referenceKinds.number = .ok t.refType)
    (hopnd : ifTruthy operand sub = t.operand.mapM readBack) :
    ofNode sub (t.nodeValue (.text name) left right refType operand) = t.readBack := by
  rw [mapM_readBack] at hleft hright hopnd
  unfold ofNode nodeValue
  simp only [item, field?_record, List.lookup, String.reduceBEq, BEq.rfl, hkind, hleft, hright,
    ifTruthy_null, hrefType, hopnd, Outcome.ok_bind, text?_ofText?]
  rw [readBack, any_eq, pruned_eq]
  -- Whichever part has a literal first, the fault is the same.
  cases t.left.any (any hasLiteral)
  · cases t.right.any (any hasLiteral)
    · cases t.operand.any (any hasLiteral)
      · cases hval : t.value with
        | none => simp [hasLiteral, hval, Literal.toValue]
        | some l => cases l <;> simp [hasLiteral, hval, Literal.toValue]
      · simp
    · simp
  · simp

theorem Known.exists_value (h : t.Known) :
    ∃ v, t.toValue = .ok v ∧ Returns ofValueUpTo v t.readBack := by
  induction h with
  | @node t hkind hrefType _ _ _ _ ihleft ihright _ ihoperand =>
    obtain ⟨name, hname, hnum, -⟩ := proper_nodeKinds.exists_name hkind
    obtain ⟨left, hleft, hleft'⟩ := exists_part ihleft
    obtain ⟨right, hright, hright'⟩ := exists_part ihright
    obtain ⟨refType, hrefType, hrefType'⟩ := exists_refType hrefType
    obtain ⟨operand, hopnd, hopnd'⟩ := exists_part ihoperand
    let v := t.nodeValue (.text name) left right refType operand
    refine ⟨v, ?_, .of_succ (field?_record _ "type") fun n hn => ?_⟩
    · rw [toValue_eq, hname, hleft, hright, hrefType, hopnd]
      rfl
    · exact ofNode_nodeValue hnum (hleft' n (hn (field?_record _ "left")))
        (hright' n (hn (field?_record _ "right"))) hrefType'
        (hopnd' n (hn (field?_record _ "operand")))

/-- Every tree with known kinds becomes a map. What is made from the map is refused if a node that
is reached through operands has a literal, and is the tree without the arguments of its functions
otherwise. So the tree comes back exactly if none of these nodes has a literal or arguments. -/
theorem formula_returns_iff_bare (t : FormulaTree) (h : t.Known) :
    ∃ v, t.toValue = .ok v ∧
      (t.any hasLiteral = true →
        ofValue v = .error (.noMember "'AST' object has no attribute 'value'")) ∧
      (t.any hasLiteral = false → ofValue v = .ok t.pruned) ∧
      (ofValue v = .ok t ↔ t.any hasLiteral = false ∧ t.any hasArguments = false) := by
  obtain ⟨v, hv, hreturns⟩ := h.exists_value
  have hback : ofValue v = t.readBack := hreturns.back _ (Nat.lt_succ_self _)
  refine ⟨v, hv, ?_, ?_, ?_⟩
  · intro hliteral
    rw [hback, readBack, if_pos hliteral]
  · intro hliteral
    rw [hback, readBack, if_neg (by simp [hliteral])]
  · rw [hback, readBack, ← h.pruned_eq_self_iff]
    cases t.any hasLiteral <;> simp

/-- A number is refused, a call comes back without its arguments, and a cell with a minus sign comes
back. -/
theorem formula_returns_iff_bare_cases :
    let five : FormulaTree := { kind := 5, value := some (.number 5) }
    let cell : FormulaTree := { kind := 4, refType := some 1, key := some "A1" }
    let call : FormulaTree := { kind := 3, name := some "SUM", arguments := [cell, five] }
    let minus : FormulaTree := { kind := 8, operator := some "-", operand := some cell }
    (five.Known ∧ ∃ v, five.toValue = .ok v ∧
      ofValue v = .error (.noMember "'AST' object has no attribute 'value'")) ∧
    (call.Known ∧ ∃ v, call.toValue = .ok v ∧ ofValue v = .ok { call with arguments := [] }) ∧
    (minus.Known ∧ ∃ v, minus.toValue = .ok v ∧ ofValue v = .ok minus) := by
  intro five cell call minus
  have hfive : five.Known := .of_parts (by decide) (by decide) (by simp [five])
  have hcell : cell.Known := .of_parts (by decide) (by decide) (by simp [cell])
  have hcall : call.Known := .of_parts (by decide) (by decide) (by simp [call, hcell, hfive])
  have hminus : minus.Known := .of_parts (by decide) (by decide) (by simp [minus, hcell])
  obtain ⟨v, hv, hrefused, -⟩ := formula_returns_iff_bare five hfive
  obtain ⟨w, hw, -, hpruned, -⟩ := formula_returns_iff_bare call hcall
  obtain ⟨u, hu, -, -, hback⟩ := formula_returns_iff_bare minus hminus
  exact ⟨⟨hfive, v, hv, hrefused rfl⟩, ⟨hcall, w, hw, hpruned rfl⟩,
    hminus, u, hu, hback.mpr ⟨rfl, rfl⟩⟩

end SheetMill.Message.FormulaTree

namespace SheetMill.Message

/-! ## Messages about SQL, there and back -/

open Wire Value

variable {t : SqlTree}

namespace SqlTree

inductive Known : SqlTree → Prop where
  | node {t : SqlTree} (kind : nodeKinds.Knows t.kind)
      (refType : ∀ n ∈ t.refType, referenceKinds.Knows n) (left : ∀ u ∈ t.left, Known u)
      (right : ∀ u ∈ t.right, Known u) (arguments : ∀ u ∈ t.arguments, Known u)
      (operand : ∀ u ∈ t.operand, Known u) : Known t

theorem toValueOption_eq (o : Option SqlTree) :
    toValueOption o = o.elim (.ok .null) toValue := by
  cases o <;> simp [toValueOption]

theorem toValueList_eq (ts : List SqlTree) : toValueList ts = ts.mapM toValue := by
  induction ts with
  | nil => rfl
  | cons t ts ih => rw [toValueList, ih, List.mapM_cons]

theorem toValue_eq (t : SqlTree) : t.toValue = (do
    let kind ← nodeKinds.name t.kind
    let refType ← FormulaTree.referenceKindValue t.refType
    let left ← t.left.elim (.ok .null) toValue
    let right ← t.right.elim (.ok .null) toValue
    let arguments ← t.arguments.mapM toValue
    let operand ← t.operand.elim (.ok .null) toValue
    return t.nodeValue kind refType left right (.list arguments) operand) := by
  cases t
  rw [toValue]
  simp only [toValueOption_eq, toValueList_eq]

theorem literalOf_toValue (l : Option Literal) : literalOf (Literal.toValue l) = l := by
  rcases l with - | x | s | b
  · rfl
  · simp [Literal.toValue, literalOf, Decimal.toSingle_widened]
  · rfl
  · rfl

/-- The root of a tree is made from its map, if its parts are. -/
theorem ofNode_nodeValue {sub : Value → Outcome SqlTree} {name : String}
    {refType left right operand : Value} {arguments : List Value} {items : Option (List SqlTree)}
    (hkind : nodeKinds.number (.text name) = .ok t.kind)
    (hrefType : ifTruthy refType referenceKinds.number = .ok t.refType)
    (hleft : ifTruthy left sub = t.left.mapM .ok) (hright : ifTruthy right sub = t.right.mapM .ok)
    (hargs : (ifTruthy (.list arguments) fun xs => do (← xs.items).mapM sub) = .ok items)
    (hitems : items.getD [] = t.arguments) (hopnd : ifTruthy operand sub = t.operand.mapM .ok) :
    ofNode sub (t.nodeValue (.text name) refType left right (.list arguments) operand) = .ok t := by
  obtain ⟨cells, hcells, hcells'⟩ := exists_texts t.cells
  obtain ⟨cols, hcols, hcols'⟩ := exists_texts t.columns
  unfold ofNode nodeValue
  simp only [optional, item, field?_record, List.lookup, String.reduceBEq, BEq.rfl,
    Option.getD_some, hkind, hrefType, hleft, hright, hargs, hitems, hopnd, hcells, hcells',
    hcols, hcols', literalOf_toValue, mapM_ok, Outcome.ok_bind, text?_ofText?, text_text]
  cases t
  rfl

theorem Known.exists_value (h : t.Known) :
    ∃ v, t.toValue = .ok v ∧ Returns ofValueUpTo v (.ok t) := by
  induction h with
  | @node t hkind hrefType _ _ _ _ ihleft ihright iharguments ihoperand =>
    obtain ⟨name, hname, hnum, -⟩ := proper_nodeKinds.exists_name hkind
    obtain ⟨refType, hrefType, hrefType'⟩ := exists_refType hrefType
    obtain ⟨left, hleft, hleft'⟩ := exists_part ihleft
    obtain ⟨right, hright, hright'⟩ := exists_part ihright
    obtain ⟨arguments, hargs, hargs'⟩ := exists_parts iharguments
    obtain ⟨operand, hopnd, hopnd'⟩ := exists_part ihoperand
    let v := t.nodeValue (.text name) refType left right (.list arguments) operand
    refine ⟨v, ?_, .of_succ (field?_record _ "type") fun n hn => ?_⟩
    · rw [toValue_eq, hname, hrefType, hleft, hright, hargs, hopnd]
      rfl
    · obtain ⟨items, hitems, hitems'⟩ := hargs' n (hn (field?_record _ "arguments")).le
      exact ofNode_nodeValue hnum hrefType' (hleft' n (hn (field?_record _ "left")))
        (hright' n (hn (field?_record _ "right"))) hitems hitems'
        (hopnd' n (hn (field?_record _ "operand")))

theorem Known.of_parts (hkind : nodeKinds.Knows t.kind)
    (hrefType : ∀ n ∈ t.refType, referenceKinds.Knows n)
    (hparts : ∀ u ∈ t.left.toList ++ t.right.toList ++ t.arguments ++ t.operand.toList, u.Known) :
    t.Known := by
  simp only [List.mem_append, Option.mem_toList] at hparts
  exact .node hkind hrefType (fun u hu => hparts u (.inl (.inl (.inl hu))))
    (fun u hu => hparts u (.inl (.inl (.inr hu)))) (fun u hu => hparts u (.inl (.inr hu)))
    fun u hu => hparts u (.inr hu)

theorem Known.exists_ofValue (h : t.Known) : ∃ v, t.toValue = .ok v ∧ ofValue v = .ok t := by
  obtain ⟨v, hv, hret⟩ := h.exists_value
  exact ⟨v, hv, hret.back _ (Nat.lt_succ_self _)⟩

end SqlTree

namespace BuildRequest

structure Known (m : BuildRequest) : Prop where
  trees : ∀ e ∈ m.cols, e.2.Known
  cols : (m.cols.map Prod.fst).Nodup
  dtypes : (m.dtypes.map Prod.fst).Nodup

theorem Known.exists_cols {m : BuildRequest} (h : m.Known) :
    ∃ fields, (m.cols.mapM fun (k, t) => return (k, ← t.toValue)) = .ok fields ∧
      List.Forall₂ (fun e f => f.1 = e.1 ∧ SqlTree.ofValue f.2 = .ok e.2) m.cols fields := by
  apply Outcome.exists_mapM_eq_ok
  intro e he
  obtain ⟨v, hv, hback⟩ := (h.trees e he).exists_ofValue
  exact ⟨(e.1, v), by simp [hv], rfl, hback⟩

theorem forall₂_dtypes (dtypes : List (String × ColumnInfo)) :
    List.Forall₂ (fun e f => f.1 = e.1 ∧ ColumnInfo.ofValue f.2 = .ok e.2) dtypes
      (dtypes.map fun (k, i) => (k, i.toValue)) := by
  rw [List.forall₂_map_right_iff, List.forall₂_same]
  intro e _
  exact ⟨rfl, rfl⟩

theorem Known.exists_ofValue {m : BuildRequest} (h : m.Known) :
    ∃ v, m.toValue = .ok v ∧ ofValue v = .ok m := by
  obtain ⟨fs, hflds, hcols⟩ := h.exists_cols
  let v : Value := .record [("table_name", .text m.tableName), ("cols", .record fs),
    ("dtypes", .record (m.dtypes.map fun (k, i) => (k, i.toValue)))]
  refine ⟨v, by rw [toValue, hflds]; rfl, ?_⟩
  have htable : v.item "table_name" = .ok (.text m.tableName) := item_of_field? (field?_record _ _)
  have hcols' : v.item "cols" = .ok (.record fs) := item_of_field? (field?_record _ _)
  have hdtypes : v.item "dtypes" = .ok (.record _) := item_of_field? (field?_record _ _)
  rw [ofValue, htable, hcols', hdtypes]
  simp only [Outcome.ok_bind, mapValues_record hcols, mapValues_record (forall₂_dtypes m.dtypes),
    textKeys_of_nodup h.cols, textKeys_of_nodup h.dtypes, text_text]
  rfl

end BuildRequest

/-- Every message about SQL with known kinds becomes a map and is made from the map again, and what
is made from the map becomes the same map. -/
theorem sql_messages_return :
    (∀ t : SqlTree, t.Known → ∃ v, t.toValue = .ok v ∧ SqlTree.ofValue v = .ok t ∧
      (SqlTree.ofValue v >>= SqlTree.toValue) = .ok v) ∧
    (∀ m : BuildRequest, m.Known → ∃ v, m.toValue = .ok v ∧ BuildRequest.ofValue v = .ok m ∧
      (BuildRequest.ofValue v >>= BuildRequest.toValue) = .ok v) := by
  constructor
  · intro t ht
    obtain ⟨v, hv, hback⟩ := ht.exists_ofValue
    exact ⟨v, hv, hback, by rw [hback, Outcome.ok_bind, hv]⟩
  · intro m hm
    obtain ⟨v, hv, hback⟩ := hm.exists_ofValue
    exact ⟨v, hv, hback, by rw [hback, Outcome.ok_bind, hv]⟩

/-- An addition of a number and a call with an argument and an empty part, all with texts that are
present and empty, and a request that nests it. -/
theorem sql_messages_return_nested :
    let call : SqlTree := { kind := 3, name := some "", arguments := [{}], left := some {} }
    let tree : SqlTree := { kind := 1, operator := some "+", operand := some call,
                            right := some { kind := 5, value := some (.number (-0.0)) } }
    let request : BuildRequest := { cols := [("a", tree), ("", call)], dtypes := [("a", {})] }
    (tree.Known ∧ ∃ v, tree.toValue = .ok v ∧ SqlTree.ofValue v = .ok tree ∧
      (SqlTree.ofValue v >>= SqlTree.toValue) = .ok v) ∧
    (request.Known ∧ ∃ v, request.toValue = .ok v ∧ BuildRequest.ofValue v = .ok request ∧
      (BuildRequest.ofValue v >>= BuildRequest.toValue) = .ok v) := by
  intro call tree request
  have hempty : ({} : SqlTree).Known := .of_parts (by decide) (by decide) (by simp)
  have hcall : call.Known := .of_parts (by decide) (by decide) (by simp [call, hempty])
  have hnumber : ({ kind := 5, value := some (.number (-0.0)) } : SqlTree).Known :=
    .of_parts (by decide) (by decide) (by simp)
  have htree : tree.Known := .of_parts (by decide) (by decide) (by simp [tree, hnumber, hcall])
  have hrequest : request.Known := by
    refine ⟨?_, by simp [request], by simp [request]⟩
    intro e he
    simp only [request, List.mem_cons, List.not_mem_nil, or_false] at he
    rcases he with rfl | rfl
    · exact htree
    · exact hcall
  exact ⟨⟨htree, sql_messages_return.1 tree htree⟩, hrequest,
    sql_messages_return.2 request hrequest⟩

end SheetMill.Message
