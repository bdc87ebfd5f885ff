import SheetMill.Checking.ActiveSchema
import SheetMill.Proofs.Payloads
import SheetMill.Proofs.SchemaCalls

/-!
# Constraints of stored schemas

The constraints of a schema are stored as texts and what they are is read off the texts again. A
negative number comes back as a floating-point one, and a text only if it does not look like a
number or a truth value; digits that make no number, such as a superscript two, are refused, and
with them the whole schema.
-/

namespace SheetMill.Text

open List

variable {c : Char}

theorem isNumberMargin_of_isDigit (h : isDigit c = true) : isNumberMargin c = false := by
  have hblank : isBlank c = false := Spans.covers_eq_false (by decide) h
  simp [isNumberMargin, hblank]

theorem not_mem_of_isDigit {cs : List Char} (h : ∀ c ∈ cs, isDigit c = true) :
    ∀ mark ∈ ['_', '-', '+'], mark ∉ cs := by
  have hmarks : ['_', '-', '+'].all (fun mark => !isDigit mark) = true := by decide +kernel
  intro mark hmark hmem
  have hnot := all_eq_true.mp hmarks mark hmark
  rw [h mark hmem] at hnot
  cases hnot

end SheetMill.Text

namespace SheetMill.Decimal

open Text List

def placeValue (c : Char) : Nat := (decimalValue? c).getD 0

theorem takeDigitsFrom_of_not_mem {cs : List Char} (h : '_' ∉ cs) (flag : Bool) :
    takeDigitsFrom flag cs = ((cs.takeWhile isDecimal).map placeValue, cs.dropWhile isDecimal) := by
  induction cs generalizing flag with
  | nil => rfl
  | cons c cs ih =>
    rw [mem_cons, not_or] at h
    rw [takeDigitsFrom]
    cases hc : decimalValue? c with
    | some d => simp [ih h.2, isDecimal, placeValue, hc]
    | none => simp [isDecimal, hc, Ne.symm h.1]

theorem takeSign_of_not_mem {cs : List Char} (hminus : '-' ∉ cs) (hplus : '+' ∉ cs) :
    takeSign cs = (false, cs) := by
  unfold takeSign
  split <;> simp_all

/-- The digits all have a place value, and there are not too many of them. -/
def IsNumeral (s : String) : Prop :=
  (∀ c ∈ s.toList, isDecimal c = true) ∧ s.toList.length ≤ maxIntegerDigits

theorem readInt_of_isDigit {s : String} (hne : s.toList ≠ [])
    (h : ∀ c ∈ s.toList, isDigit c = true) :
    (IsNumeral s → readInt s = .number (ofDigits (s.toList.map placeValue))) ∧
      (¬ IsNumeral s → ∀ i, readInt s ≠ .number i) := by
  have hmarks := not_mem_of_isDigit h
  have hrest : (s.toList.dropWhile isDecimal).head? ≠ some '_' := fun hhead =>
    hmarks '_' (by simp) (dropWhile_subset _ (mem_of_mem_head? hhead))
  rw [readInt_of_takeDigits (fun c hc => isNumberMargin_of_isDigit (h c hc))
    (takeSign_of_not_mem (hmarks '-' (by simp)) (hmarks '+' (by simp)))
    (takeDigitsFrom_of_not_mem (hmarks '_' (by simp)) false) hrest]
  simp only [Bool.false_eq_true, if_false]
  constructor
  · rintro ⟨hall, hlen⟩
    rw [takeWhile_eq_self_iff.mpr hall, dropWhile_eq_nil_iff.mpr hall]
    simp [hne, hlen]
  · intro hnot i hread
    split_ifs at hread with hnone hlong hall
    refine hnot ⟨dropWhile_eq_nil_iff.mp hall, ?_⟩
    rw [takeWhile_eq_self_iff.mpr (dropWhile_eq_nil_iff.mp hall)] at hlong
    simpa using hlong

theorem readUnsigned?_toDigits (n : Nat) :
    readUnsigned? (Nat.toDigits 10 n) = some (nearestFloat n 0) := by
  simp [readUnsigned?, takeDigits_toDigits, ofDigits_toDigits]

/-- A negative integer is read as a floating-point number. -/
theorem readFloat?_of_neg {i : Int} (h : i < 0) :
    readFloat? (toString i) = some (-nearestFloat i.natAbs 0) := by
  have hsmall : (Nat.toDigits 10 i.natAbs).map Char.toLower = Nat.toDigits 10 i.natAbs := by
    refine (map_congr_left fun c hc => ?_).trans (map_id _)
    obtain ⟨d, hd, rfl⟩ := exists_digit (isDigit_toDigits hc)
    exact (by decide : ∀ d < 10, (Char.ofNat (48 + d)).toLower = Char.ofNat (48 + d)) d hd
  have hword : ∀ word : String, ¬ word.toList.all Char.isDigit = true →
      String.ofList (Nat.toDigits 10 i.natAbs) ≠ word := by
    rintro _ hnot rfl
    refine hnot (all_eq_true.mpr fun c hc => ?_)
    rw [String.toList_ofList] at hc
    exact isDigit_toDigits hc
  unfold readFloat?
  rw [stripChars_of_all (isNumberMargin_toString i), takeSign_toString]
  simp only [hsmall, decide_eq_true h, readUnsigned?_toDigits]
  simp [hword "inf" (by decide), hword "infinity" (by decide), hword "nan" (by decide)]

end SheetMill.Decimal

namespace SheetMill.Database.Schemas

open Act Value Message Outcome List

/-! ## One constraint -/

def IsBadValue (f : Fault) : Prop := ∃ d, f = .badValue d

def areDigits (s : String) : Bool := !s.isEmpty && s.toList.all Text.isDigit

theorem areDigits_toString (i : Int) : areDigits (toString i) = decide (0 ≤ i) := by
  cases i with
  | ofNat n =>
    have hall : ∀ c ∈ Nat.toDigits 10 n, Text.isDigit c = true := by
      intro c hc
      obtain ⟨d, hd, rfl⟩ := Decimal.exists_digit (Decimal.isDigit_toDigits hc)
      exact (by decide : ∀ d < 10, Text.isDigit (Char.ofNat (48 + d)) = true) d hd
    have hne : (toString (Int.ofNat n)).isEmpty = false := by
      rw [String.isEmpty_eq_false_iff, Ne, ← String.toList_inj, Decimal.toList_toString_ofNat]
      exact Nat.toDigits_ne_nil
    rw [areDigits, hne, Decimal.toList_toString_ofNat, all_eq_true.mpr hall]
    simp
  | negSucc n =>
    have hminus : Text.isDigit '-' = false := by decide
    rw [areDigits, Decimal.toList_toString_negSucc, all_cons, hminus]
    simp

inductive Scalar where
  | text (s : String)
  | int (i : Int)
  | bool (b : Bool)

namespace Scalar

def value : Scalar → Value
  | text s => .text s
  | int i => .int i
  | bool b => .bool b

def TooLong : Scalar → Prop
  | int i => 10 ^ Decimal.maxIntegerDigits ≤ i.natAbs
  | _ => False

def Illegible : Scalar → Prop
  | text s => areDigits s = true ∧ ¬ Decimal.IsNumeral s
  | _ => False

/-- What a constraint has become after it was written and read. -/
def recalled : Scalar → Value
  | text s =>
    if areDigits s then .int (Decimal.ofDigits (s.toList.map Decimal.placeValue))
    else
      match Decimal.readFloat? s with
      | some x => .float x
      | none =>
        if Text.lower s = "true" then .bool true
        else if Text.lower s = "false" then .bool false
        else .text s
  | int i => if i < 0 then .float (-Decimal.nearestFloat i.natAbs 0) else .int i
  | bool b => .bool b

/-- A constraint that comes back as it was: no negative number, and no text that looks like a
number or a truth value. -/
def Kept : Scalar → Prop
  | text s => areDigits s = false ∧ Decimal.readFloat? s = none ∧
      Text.lower s ≠ "true" ∧ Text.lower s ≠ "false"
  | int i => 0 ≤ i
  | bool _ => True

variable {k : Scalar}

theorem recalled_eq_iff : k.recalled = k.value ↔ k.Kept := by
  cases k with
  | text s =>
    simp only [recalled, value, Kept]
    cases areDigits s with
    | true => simp
    | false =>
      cases Decimal.readFloat? s with
      | some x => simp
      | none => split_ifs <;> simp_all
  | int i =>
    simp only [recalled, value, Kept]
    split_ifs with h
    · simpa using h
    · simpa using h
  | bool b => simp [recalled, value, Kept]

theorem toText_value (k : Scalar) :
    FailsIf IsBadValue k.TooLong k.value.toText (· = k.value.plain) := by
  cases k with
  | int i =>
    simp only [value, toText, Nat.pow_eq]
    by_cases h : i.natAbs < 10 ^ Decimal.maxIntegerDigits
    · rw [if_pos h]
      exact .inr ⟨Nat.not_le.mpr h, _, rfl, rfl⟩
    · rw [if_neg h]
      exact .inl ⟨Nat.not_lt.mp h, _, rfl, _, rfl⟩
  | text s => exact .inr ⟨id, _, rfl, rfl⟩
  | bool b => exact .inr ⟨id, _, rfl, rfl⟩

theorem constraintOf_of_digits {s : String} (h : areDigits s = true) :
    constraintOf (.text s) = Value.int <$> (Value.text s).toInt := by
  have hdig : isDigits (.text s) = .ok true := h ▸ rfl
  unfold constraintOf
  rw [hdig]
  cases (Value.text s).toInt <;> rfl

theorem constraintOf_of_not_digits {s : String} (h : areDigits s = false) :
    constraintOf (.text s) = .ok (text s).recalled := by
  have hdig : isDigits (.text s) = .ok false := h ▸ rfl
  unfold constraintOf
  rw [hdig]
  cases hread : Decimal.readFloat? s with
  | some x =>
    have hfloat : (Value.text s).toFloat = .ok x := by simp [toFloat, hread]
    simp [hfloat, recalled, h, hread]
  | none =>
    have hfloat : ∃ f, (Value.text s).toFloat = .error f := by simp [toFloat, hread]
    obtain ⟨f, hfloat⟩ := hfloat
    simp only [recalled]
    split_ifs <;> simp_all

theorem constraintOf_text (s : String) :
    FailsIf IsBadValue (text s).Illegible (constraintOf (.text s))
      (· = (text s).recalled) := by
  cases hs : areDigits s with
  | false => exact .inr ⟨by simp [Illegible, hs], _, constraintOf_of_not_digits hs, rfl⟩
  | true =>
    obtain ⟨hne, hall⟩ : ¬ s.isEmpty = true ∧ ∀ c ∈ s.toList, Text.isDigit c = true := by
      simpa [areDigits] using hs
    obtain ⟨hnumeral, hother⟩ := Decimal.readInt_of_isDigit (by simpa using hne) hall
    rw [constraintOf_of_digits hs, toInt, readAsInt]
    by_cases h : Decimal.IsNumeral s
    · rw [hnumeral h]
      exact .inr ⟨fun hillegible => hillegible.2 h, _, rfl, by simp [recalled, hs]⟩
    · refine .inl ⟨⟨hs, h⟩, ?_⟩
      cases hread : Decimal.readInt s with
      | number i => exact absurd hread (hother h i)
      | tooLong | malformed => exact ⟨_, rfl, _, rfl⟩

/-- A constraint that was written is read again, unless its digits are no numeral. -/
theorem constraintOf_plain (hshort : ¬ k.TooLong) :
    FailsIf IsBadValue k.Illegible (constraintOf (.text k.value.plain))
      (· = k.recalled) := by
  cases k with
  | text s => exact constraintOf_text s
  | bool b =>
    refine .inr ⟨id, .bool b, ?_, rfl⟩
    cases b <;> rfl
  | int i =>
    have hplain : (int i).value.plain = toString i := rfl
    refine .inr ⟨id, _, ?_, rfl⟩
    rw [hplain]
    by_cases hneg : i < 0
    · have hdig : areDigits (toString i) = false := by
        rw [areDigits_toString, decide_eq_false (Int.not_le.mpr hneg)]
      rw [constraintOf_of_not_digits hdig]
      simp only [recalled, hdig, Decimal.readFloat?_of_neg hneg, hneg, if_true,
        Bool.false_eq_true, if_false]
    · have hdig : areDigits (toString i) = true := by
        rw [areDigits_toString, decide_eq_true (Int.not_lt.mp hneg)]
      have hread : (Value.text (toString i)).toInt = .ok i := by
        rw [toInt, readAsInt, Decimal.readInt_toString (Nat.not_le.mp hshort)]
      rw [constraintOf_of_digits hdig, hread]
      simp [recalled, hneg]

end Scalar

/-! ## Columns -/

/-- A column of a schema: its type stands among its constraints. -/
structure Column where
  name : String
  type : String
  before : List (String × Scalar)
  after : List (String × Scalar)
  known : type ∈ propertyTypes.map Prod.fst
  distinct : ("type" :: (before ++ after).map Prod.fst).Nodup

namespace Column

def constraints (c : Column) : List (String × Scalar) := c.before ++ c.after

def given (c : Column) : Value :=
  .map (c.before.map (named Scalar.value) ++ (.text "type", .text c.type) ::
    c.after.map (named Scalar.value))

def texts (c : Column) : List (String × String) := c.constraints.map fun k => (k.1, k.2.value.plain)

def written (c : Column) : Value :=
  .record [("type", .text c.type), ("extra", textMapValue c.texts)]

def recalled (c : Column) : Value :=
  .map ((.text "type", .text c.type) :: c.constraints.map (named Scalar.recalled))

def message (c : Column) : Property where
  type := (propertyTypes.lookup c.type).getD 0
  extra := c.texts

variable (c : Column)

theorem findEntry_behind {before : List (String × Scalar)} (h : "type" ∉ before.map Prod.fst)
    (v : Value) (rest : List (Value × Value)) :
    findEntry (.text "type") (before.map (named Scalar.value) ++ (.text "type", v) :: rest) =
      some v := by
  induction before with
  | nil => exact findEntry_cons_of_eq v rest
  | cons k before ih =>
    rw [map_cons, mem_cons, not_or] at h
    have hne : text k.1 ≠ .text "type" := by simpa using Ne.symm h.1
    rw [map_cons, cons_append, named, findEntry_cons_of_ne hne, ih h.2]

theorem not_same_type {side : List (String × Scalar)} (h : "type" ∉ side.map Prod.fst) :
    ∀ e ∈ side.map (named Scalar.value), (!e.1.same (.text "type")) = true := by
  intro e he
  obtain ⟨k, hk, rfl⟩ := mem_map.mp he
  have hne : k.1 ≠ "type" := fun heq => h (heq ▸ mem_map_of_mem hk)
  simpa [named] using hne

theorem storedProperty_given :
    FailsIf IsBadValue (∃ k ∈ c.constraints, k.2.TooLong) (Checking.storedProperty c.given)
      (· = c.written) := by
  obtain ⟨hbefore, hafter⟩ : "type" ∉ c.before.map Prod.fst ∧ "type" ∉ c.after.map Prod.fst := by
    have h := (nodup_cons.mp c.distinct).1
    rwa [map_append, mem_append, not_or] at h
  have htype : c.given.item "type" = .ok (.text c.type) := by
    refine item_of_field? ?_
    exact findEntry_behind hbefore _ _
  have hents : c.given.entriesAs "items" = .ok (c.before.map (named Scalar.value) ++
    (.text "type", .text c.type) :: c.after.map (named Scalar.value)) := rfl
  rw [Checking.storedProperty, htype, ok_bind, hents, ok_bind,
    filter_append, filter_cons_of_neg (by simp),
    filter_eq_self.mpr (not_same_type hbefore),
    filter_eq_self.mpr (not_same_type hafter), ← map_append, mapM_map]
  refine (FailsIf.mapM_eq fun k _ => k.2.toText_value.bind_eq rfl).bind_eq ?_
  rw [written, textMapValue_eq, texts, map_map]
  rfl

theorem ofValue_written : Property.ofValue c.written = .ok c.message := by
  have hnum : propertyTypes.number (.text c.type) = .ok c.message.type := by
    obtain ⟨n, hn⟩ := lookup_of_mem c.known
    simp [Names.number, message, hn]
  have hextra : (c.texts.map Prod.fst).Nodup := by
    simpa [texts, constraints, Function.comp_def] using (nodup_cons.mp c.distinct).2
  exact Property.ofValue_record hnum hextra

theorem toValue_message : c.message.toValue = .ok c.written := by
  have hname : propertyTypes.name c.message.type = .ok (.text c.type) := by
    have hall : ∀ t ∈ propertyTypes.map Prod.fst,
        propertyTypes.name ((propertyTypes.lookup t).getD 0) = .ok (.text t) := by
      simp [propertyTypes, Names.name, List.lookup]
    exact hall c.type c.known
  rw [Property.toValue, hname]
  rfl

theorem parseProperty_written (hshort : ∀ k ∈ c.constraints, ¬ k.2.TooLong) :
    FailsIf IsBadValue (∃ k ∈ c.constraints, k.2.Illegible) (parseProperty c.written)
      (· = c.recalled) := by
  have htype : c.written.item "type" = .ok (.text c.type) := item_of_field? (field?_record _ _)
  have hextra : c.written.getD "extra" (.map []) = .ok (textMapValue c.texts) :=
    getD_of_field? (field?_record _ _) _
  have hents : (textMapValue c.texts).entriesAs "items" =
      .ok (c.texts.map (named Value.text)) := by
    rw [textMapValue_eq]
    rfl
  rw [parseProperty, htype, ok_bind, hextra, ok_bind, hents, ok_bind,
    mapM_map, texts, mapM_map]
  refine FailsIf.bind_eq (a := c.constraints.map (named Scalar.recalled))
    (FailsIf.mapM_eq fun k hk => ?_) ?_
  · exact (Scalar.constraintOf_plain (hshort k hk)).bind_eq rfl
  · have hrecalled : c.constraints.map (named Scalar.recalled) =
        (c.constraints.map fun k => (k.1, k.2.recalled)).map (named id) := by
      rw [map_map]
      rfl
    have hmerged := foldl_setEntry_named id [("type", Value.text c.type)]
      (c.constraints.map fun k => (k.1, k.2.recalled))
    rw [merged_of_distinct (by simpa [constraints, Function.comp_def] using c.distinct)] at hmerged
    rw [recalled, hrecalled]
    exact congrArg (fun es => Except.ok (Value.map es)) hmerged

end Column

/-! ## Schemas -/

/-- The store behind the messages of its service. -/
def throughMessages : Checking.Database State := fun _ v => do
  (Call.insert (← InsertSchemaRequest.ofValue v)).service

structure Plan where
  dialect : String
  type : String
  required : List String
  columns : List Column
  distinct : (columns.map Column.name).Nodup

namespace Plan

def columnsAs (p : Plan) (form : Column → Value) : Value :=
  .record (p.columns.map fun c => (c.name, form c))

/-- The schema is the one that the plan describes; a dialect need not be named. -/
structure Describes (p : Plan) (schema : Value) : Prop where
  dialect : (schema.field? "$schema").getD Checking.defaultDialect = .text p.dialect
  type : schema.field? "type" = some (.text p.type)
  required : schema.field? "required" = some (.texts p.required)
  properties : schema.field? "properties" = some (p.columnsAs Column.given)

def TooLong (p : Plan) : Prop := ∃ c ∈ p.columns, ∃ k ∈ c.constraints, k.2.TooLong

def Illegible (p : Plan) : Prop := ∃ c ∈ p.columns, ∃ k ∈ c.constraints, k.2.Illegible

variable {p : Plan} {schema : Value}

/-- The fields of the schema as it is sent and stored, the columns being in some form. -/
def fields (p : Plan) (form : Column → Value) : List (String × Value) :=
  [("schema", .text p.dialect), ("type", .text p.type), ("required", .texts p.required),
    ("properties", p.columnsAs form)]

def schemaOf (p : Plan) (form : Column → Value) : List (Value × Value) :=
  (p.fields form).map (named id)

theorem storedSchema_describes (h : p.Describes schema) :
    FailsIf IsBadValue p.TooLong (Checking.storedSchema schema)
      (Value.Holds · (p.fields Column.written)) := by
  obtain ⟨entries, rfl, hprops⟩ := eq_map_of_field? h.properties
  have hfld : ∀ field, field ≠ "$schema" → field ≠ "schema" →
      (((Value.map entries).withoutField "$schema").withField "schema" (.text p.dialect)).field?
        field = findEntry (.text field) entries := by
    intro field hne hne'
    rw [field?_withField_of_ne hne', field?_withoutField_of_ne hne, field?_map]
  unfold Checking.storedSchema
  rw [h.dialect]
  simp only [item_of_field? ((hfld "properties" (by decide) (by decide)).trans hprops), ok_bind,
    entriesAs, columnsAs, record, mapM_map]
  refine FailsIf.bind
    (FailsIf.mapM_eq fun c _ => c.storedProperty_given.bind_eq rfl) ?_
  rintro stored rfl
  refine ⟨_, rfl, ?_⟩
  simp only [Value.Holds, fields, forall_mem_cons]
  refine ⟨item_of_field? ?_, item_of_field? ?_, item_of_field? ?_, item_of_field? ?_,
    forall_mem_nil _⟩
  · simp [withField, withoutField, findEntry_setEntry]
  · rw [field?_withField_of_ne (by decide), hfld _ (by decide) (by decide)]
    exact h.type
  · rw [field?_withField_of_ne (by decide), hfld _ (by decide) (by decide)]
    exact h.required
  · simp [withField, withoutField, findEntry_setEntry, columnsAs, record]

def message (p : Plan) : SchemaRecord where
  schema := p.dialect
  type := p.type
  required := p.required
  properties := p.columns.map fun c => (c.name, c.message)

theorem ofValue_of_holds {stored : Value} (h : stored.Holds (p.fields Column.written)) :
    SchemaRecord.ofValue stored = .ok p.message := by
  refine SchemaRecord.ofValue_of_holds (r := p.message) h ?_
    (by simpa [message, Function.comp_def] using p.distinct)
  rw [message, forall₂_map_left_iff, forall₂_map_right_iff, forall₂_same]
  exact fun c _ => ⟨rfl, c.ofValue_written⟩

theorem toValue_message : p.message.toValue = .ok (.map (p.schemaOf Column.written)) := by
  have hcols : p.message.properties.mapM (fun e => return (e.1, ← e.2.toValue)) =
      Except.ok (p.columns.map fun c => (c.name, c.written)) := by
    unfold message
    rw [mapM_eq_ok, forall₂_map_left_iff, forall₂_map_right_iff,
      forall₂_same]
    intro c _
    simp only [c.toValue_message, ok_bind, pure_eq_ok]
  exact bind_eq_ok.mpr ⟨_, hcols, rfl⟩

theorem parseProperties_written (hshort : ¬ p.TooLong) :
    FailsIf IsBadValue p.Illegible (parseProperties (p.columnsAs Column.written))
      (· = p.columnsAs Column.recalled) := by
  have hents : (p.columnsAs Column.written).entriesAs "items" =
      .ok ((p.columns.map fun c => (c.name, c.written)).map (named id)) := rfl
  rw [parseProperties, hents, ok_bind, mapM_map, mapM_map, columnsAs, record,
    map_map]
  refine (FailsIf.mapM_eq fun c hc => ?_).bind_eq rfl
  exact (c.parseProperty_written fun k hk hlong => hshort ⟨c, hc, k, hk, hlong⟩).bind_eq rfl

def insertion (p : Plan) (name createdAt : String) : Value :=
  .record [("import_name", .text name), ("created_at", .text createdAt),
    ("active_schema", .map (p.schemaOf Column.written)), ("schemas_releases", .list [])]

/-- A schema that can be sent reaches the service as it is. -/
theorem saveSchema_of_holds {stored : Value} (h : stored.Holds (p.fields Column.written))
    (hstored : Checking.storedSchema schema = .ok stored) (name createdAt : String) (s : State) :
    Checking.saveSchema throughMessages (pure createdAt) schema (.text name) s =
      insert (p.insertion name createdAt) s := by
  have hreq : InsertSchemaRequest.ofValue (.record [("import_name", .text name),
      ("created_at", .text createdAt), ("active_schema", stored), ("schemas_releases", .list [])]) =
        .ok { importName := name, createdAt, activeSchema := some p.message } := by
    simp [InsertSchemaRequest.ofValue, item, List.lookup, ofValue_of_holds h]
  have hval : InsertSchemaRequest.toValue
      { importName := name, createdAt, activeSchema := some p.message } =
        .ok (p.insertion name createdAt) := by
    simp [InsertSchemaRequest.toValue, toValue_message, insertion]
  unfold Checking.saveSchema
  rw [bind_known hstored, bind_of_ok (pure_run createdAt s), throughMessages,
    bind_known hreq]
  exact bind_known hval

theorem isInsertion (name createdAt : String)
    (hparsed : parseProperties (p.columnsAs Column.written) = .ok (p.columnsAs Column.recalled)) :
    IsInsertion (p.insertion name createdAt) name
      ⟨p.schemaOf Column.recalled, .text createdAt⟩ where
  importName := field?_record _ _
  createdAt := field?_record _ _
  releases := field?_record _ _
  schema := ⟨p.schemaOf Column.written, _, _, field?_record _ _, rfl, hparsed, rfl⟩

theorem prepare_error {f : Fault} (name createdAt : String)
    (hparsed : parseProperties (p.columnsAs Column.written) = .error f) :
    prepare (p.insertion name createdAt) = .error f := by
  have hact : (p.insertion name createdAt).item "active_schema" =
      .ok (.map (p.schemaOf Column.written)) := item_of_field? (field?_record _ _)
  have hprops : (map (p.schemaOf Column.written)).item "properties" =
      .ok (p.columnsAs Column.written) := rfl
  rw [prepare, hact, ok_bind, hprops, ok_bind, hparsed]
  rfl

end Plan

/-- A schema is refused, and nothing is changed, if one of its constraints is an integer that is too
long or a text of digits that are no numeral. Any other becomes the active schema of its import,
with each constraint as it was recalled, and that is the constraint itself only if it was kept. -/
theorem constraints_recalled_iff_kept (s : State) (hs : s.Calm) (histories : Stacks)
    (h : Represents (s.documents collection) histories) (name createdAt : String) (p : Plan)
    (schema : Value) (hschema : p.Describes schema) :
    (p.TooLong ∨ p.Illegible → ∃ d,
      Checking.saveSchema throughMessages (pure createdAt) schema (.text name) s =
        .error (.badValue d) s) ∧
    (¬ p.TooLong → ¬ p.Illegible → ∃ answer s',
      Checking.saveSchema throughMessages (pure createdAt) schema (.text name) s = .ok answer s' ∧
      Answered s histories (.push name ⟨p.schemaOf Column.recalled, .text createdAt⟩) answer s') ∧
    (∀ k : Scalar, k.recalled = k.value ↔ k.Kept) ∧
    ∀ t : String, (∃ f, constraintOf (.text t) = .error f) ↔ (Scalar.text t).Illegible := by
  rw [← and_assoc]
  refine ⟨?_, fun k => Scalar.recalled_eq_iff, fun t => ?_⟩
  · rcases Plan.storedSchema_describes hschema with
      ⟨hlong, _, hf, d, rfl⟩ | ⟨hshort, stored, hstored, hholds⟩
    · refine ⟨fun _ => ⟨d, ?_⟩, fun hshort => absurd hlong hshort⟩
      unfold Checking.saveSchema
      rw [bind_of_error (lift_of_error hf s)]
    rw [Plan.saveSchema_of_holds hholds hstored]
    rcases Plan.parseProperties_written hshort with
      ⟨hillegible, _, hf, d, rfl⟩ | ⟨hlegible, _, hparsed, rfl⟩
    · refine ⟨fun _ => ⟨d, ?_⟩, fun _ hlegible => absurd hillegible hlegible⟩
      rw [Schemas.insert, bind_of_error (lift_of_error (Plan.prepare_error name createdAt hf) s)]
    · refine ⟨fun hfails => absurd hfails (not_or.mpr ⟨hshort, hlegible⟩), fun _ _ => ?_⟩
      exact insert_step hs h (Plan.isInsertion name createdAt hparsed)
  · rcases Scalar.constraintOf_text t with ⟨hillegible, f, hf, -⟩ | ⟨hlegible, v, hv, -⟩
    · exact iff_of_true ⟨f, hf⟩ hillegible
    · refine iff_of_false ?_ hlegible
      rintro ⟨f, hf⟩
      rw [hv] at hf
      cases hf

/-- A superscript two, which is a digit and no numeral. -/
def squareColumn : Column where
  name := "unit"
  type := "string"
  before := [("const", .text "²")]
  after := []
  known := by decide
  distinct := by decide

def squarePlan : Plan where
  dialect := "http://json-schema.org/draft-07/schema#"
  type := "object"
  required := ["unit"]
  columns := [squareColumn]
  distinct := by decide

def squareSchema : Value :=
  .record [("type", .text "object"), ("required", .texts ["unit"]),
    ("properties", .record [("unit", .record [("const", .text "²"), ("type", .text "string")])])]

theorem constraints_recalled_iff_kept_square :
    ∃ d, Checking.saveSchema throughMessages (pure "2025-01-01") squareSchema (.text "units") {} =
      .error (.badValue d) {} := by
  refine (constraints_recalled_iff_kept {} rfl (fun _ => []) ⟨forall_mem_nil _, fun _ => rfl⟩
    "units" "2025-01-01" squarePlan squareSchema ⟨rfl, rfl, rfl, rfl⟩).1 (.inr ?_)
  refine ⟨squareColumn, mem_cons_self, ("const", .text "²"), mem_cons_self, by decide, ?_⟩
  intro hnumeral
  exact absurd (hnumeral.1 '²' (by simp)) (by decide)

end SheetMill.Database.Schemas
