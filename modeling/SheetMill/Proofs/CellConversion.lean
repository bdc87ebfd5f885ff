import SheetMill.Checking.FileCheck
import SheetMill.Proofs.Precision
import SheetMill.Proofs.Value

/-!
# Conversion of cells

A cell becomes the value of its declared type that it stands for, and one that stands for none stays
as it is. A number that its type cannot hold is neither: the whole table fails with it.
-/

namespace SheetMill.Checking

open Value Outcome

variable {cell : Value} {f : Fault}

/-! ## What a cell stands for -/

/-- How large the number is that the text of a cell says, if it says one. -/
def magnitude? (cell : Value) : Option Decimal.Magnitude :=
  cell.toText.toOption.bind fun s => (Decimal.readFloat? s).map .ofFloat

/-- The cell stands for the value of the type. -/
def Denotes (type cell v : Value) : Prop :=
  match type with
  | .text "boolean" =>
    match cell with
    | .text s =>
      v = .bool true ∧ Text.lower s ∈ trueWords ∨ v = .bool false ∧ Text.lower s ∈ falseWords
    | cell => v = .bool cell.truthy
  | .text "integer" =>
    if isEmptyCell cell then v = .null
    else ∃ b, magnitude? cell = some (.finite b) ∧ v = .int b.truncate
  | .text "number" =>
    if isEmptyCell cell then v = .null else ∃ x, cell.toFloat = .ok x ∧ v = .float x
  | .text "string" =>
    cell = .null ∧ v = .null ∨ cell ≠ .null ∧ ∃ s, cell.toText = .ok s ∧ v = .text s
  | _ => False

/-- The cell is a number that its type cannot hold: an integer that is infinite, or a number beyond
the limit of floating-point numbers. -/
def TooLarge (type cell : Value) : Prop :=
  match type with
  | .text "integer" =>
    isEmptyCell cell = false ∧ ∃ negative, magnitude? cell = some (.infinite negative)
  | .text "number" => ∃ i : Int, cell = .int i ∧ Decimal.floatLimit ≤ i.natAbs
  | _ => False

/-- The cell became what it stands for, or stayed if it stands for nothing. -/
def Settled (type cell cell' : Value) : Prop :=
  Denotes type cell cell' ∨ cell' = cell ∧ ∀ v, ¬ Denotes type cell v

def Refusal (f : Fault) : Prop := ∃ d, f = .badValue d ∨ f = .wrongKind d

def IsOverflow (f : Fault) : Prop := ∃ d, f = .overflow d

/-- A cell fails if it is too large for its type, and is settled otherwise. -/
def Converts (type cell : Value) : Prop :=
  FailsIf IsOverflow (TooLarge type cell) (convertCell type cell) (Settled type cell)

section Cases

variable {type cell : Value}

theorem Converts.of_ok {v : Value} (h : convertTo type cell = .ok v) (hfits : ¬ TooLarge type cell)
    (hv : Settled type cell v) : Converts type cell :=
  .inr ⟨hfits, v, by rw [convertCell, h], hv⟩

theorem Converts.of_refused (h : convertTo type cell = .error f) (hf : Refusal f)
    (hfits : ¬ TooLarge type cell) (hnone : ∀ v, ¬ Denotes type cell v) : Converts type cell := by
  obtain ⟨d, rfl | rfl⟩ := hf <;>
    exact .inr ⟨hfits, cell, by rw [convertCell, h], .inr ⟨rfl, hnone⟩⟩

theorem Converts.of_overflow {d : String} (h : convertTo type cell = .error (.overflow d))
    (hlarge : TooLarge type cell) : Converts type cell :=
  .inl ⟨hlarge, _, by rw [convertCell, h], d, rfl⟩

end Cases

theorem refusal_of_toText (h : cell.toText = .error f) : Refusal f := by
  unfold toText at h
  split at h
  · split_ifs at h
    cases h
    exact ⟨_, .inl rfl⟩
  · cases h

theorem toFloat_error (h : cell.toFloat = .error f) :
    Refusal f ∨ ∃ i d, cell = .int i ∧ Decimal.floatLimit ≤ i.natAbs ∧ f = .overflow d := by
  cases cell with
  | int i =>
    by_cases hlarge : Decimal.floatLimit ≤ i.natAbs
    · rw [toFloat_int_of_le hlarge] at h
      cases h
      exact .inr ⟨i, _, rfl, hlarge, rfl⟩
    · obtain ⟨x, hx⟩ := toFloat_int_of_lt (Nat.not_le.mp hlarge)
      rw [hx] at h
      cases h
  | float | bool => cases h
  | text | bytes =>
    simp only [toFloat] at h
    split at h
    · cases h
    · cases h
      exact .inl ⟨_, .inl rfl⟩
  | _ =>
    cases h
    exact .inl ⟨_, .inr rfl⟩

theorem converts_boolean (cell : Value) : Converts (.text "boolean") cell := by
  refine .of_ok rfl (fun h => h) ?_
  cases cell with
  | text s =>
    simp only [toFlag, List.contains_iff_mem]
    split_ifs with htrue hfalse
    · exact .inl (.inl ⟨rfl, htrue⟩)
    · exact .inl (.inr ⟨rfl, hfalse⟩)
    · refine .inr ⟨rfl, ?_⟩
      rintro v (⟨-, h⟩ | ⟨-, h⟩)
      · exact htrue h
      · exact hfalse h
  | _ => exact .inl rfl

theorem converts_string (cell : Value) : Converts (.text "string") cell := by
  by_cases hnull : cell = .null
  · subst hnull
    exact .of_ok rfl (fun h => h) (.inl (.inl ⟨rfl, rfl⟩))
  · have hconv : convertTo (.text "string") cell = text <$> cell.toText := by
      cases cell <;> first | rfl | exact absurd rfl hnull
    cases htext : cell.toText with
    | ok s =>
      rw [htext] at hconv
      exact .of_ok hconv (fun h => h) (.inl (.inr ⟨hnull, s, htext, rfl⟩))
    | error f =>
      rw [htext] at hconv
      refine .of_refused hconv (refusal_of_toText htext) (fun h => h) ?_
      rintro v (⟨rfl, -⟩ | ⟨-, s, hs, -⟩)
      · exact hnull rfl
      · rw [htext] at hs
        cases hs

theorem converts_number (cell : Value) : Converts (.text "number") cell := by
  cases hnil : isEmptyCell cell with
  | true =>
    refine .of_ok (v := .null) (by simp [convertTo, hnil]) ?_ (.inl (by simp [Denotes, hnil]))
    rintro ⟨i, rfl, -⟩
    cases hnil
  | false =>
    have hconv : convertTo (.text "number") cell = float <$> cell.toFloat := by
      simp [convertTo, hnil]
    have hdenotes : ∀ v, Denotes (.text "number") cell v ↔
        ∃ x, cell.toFloat = .ok x ∧ v = .float x := by
      simp [Denotes, hnil]
    cases hfloat : cell.toFloat with
    | ok x =>
      rw [hfloat] at hconv
      refine .of_ok hconv ?_ (.inl ((hdenotes _).mpr ⟨x, hfloat, rfl⟩))
      rintro ⟨i, rfl, hi⟩
      rw [toFloat_int_of_le hi] at hfloat
      cases hfloat
    | error f =>
      rw [hfloat] at hconv
      rcases toFloat_error hfloat with hf | ⟨i, d, rfl, hi, rfl⟩
      · refine .of_refused hconv hf ?_ ?_
        · rintro ⟨i, rfl, hi⟩
          rw [toFloat_int_of_le hi] at hfloat
          cases hfloat
          obtain ⟨d, h | h⟩ := hf <;> cases h
        · intro v hv
          obtain ⟨x, hx, -⟩ := (hdenotes v).mp hv
          rw [hfloat] at hx
          cases hx
      · exact .of_overflow hconv ⟨i, rfl, hi⟩

theorem convertTo_integer (h : isEmptyCell cell = false) :
    match magnitude? cell with
    | some (.finite b) => convertTo (.text "integer") cell = .ok (.int b.truncate)
    | some (.infinite _) => ∃ d, convertTo (.text "integer") cell = .error (.overflow d)
    | _ => ∃ f, convertTo (.text "integer") cell = .error f ∧ Refusal f := by
  have hconv : convertTo (.text "integer") cell = (do
      let x ← (text (← cell.toText)).toFloat
      return .int (← (float x).toInt)) := by
    simp [convertTo, h]
  rw [hconv]
  cases htext : cell.toText with
  | error f => simpa [magnitude?, htext, Except.toOption] using refusal_of_toText htext
  | ok s =>
    cases hread : Decimal.readFloat? s with
    | none => simp [magnitude?, htext, Except.toOption, hread, toFloat, Refusal]
    | some x =>
      cases hx : Decimal.Magnitude.ofFloat x <;>
        simp [magnitude?, htext, Except.toOption, hread, toFloat, toInt, hx, Refusal]

theorem converts_integer (cell : Value) : Converts (.text "integer") cell := by
  cases hnil : isEmptyCell cell with
  | true =>
    refine .of_ok (v := .null) (by simp [convertTo, hnil]) ?_ (.inl (by simp [Denotes, hnil]))
    simp [TooLarge, hnil]
  | false =>
    have hconv := convertTo_integer hnil
    split at hconv
    · rename_i b hb
      refine .of_ok hconv ?_ (.inl ?_)
      · simp [TooLarge, hb]
      · simp [Denotes, hnil, hb]
    · rename_i negative hinfinite
      obtain ⟨d, hd⟩ := hconv
      exact .of_overflow hd ⟨hnil, negative, hinfinite⟩
    · rename_i hfinite hinfinite
      obtain ⟨f, hf, hrefusal⟩ := hconv
      refine .of_refused hf hrefusal ?_ ?_
      · rintro ⟨-, negative, h⟩
        exact hinfinite negative h
      · intro v hv
        obtain ⟨b, hb, -⟩ : ∃ b, magnitude? cell = some (.finite b) ∧ v = .int b.truncate := by
          simpa [Denotes, hnil] using hv
        exact hfinite b hb

theorem converts (type cell : Value) : Converts type cell := by
  by_cases hboolean : type = .text "boolean"
  · exact hboolean ▸ converts_boolean cell
  by_cases hinteger : type = .text "integer"
  · exact hinteger ▸ converts_integer cell
  by_cases hnum : type = .text "number"
  · exact hnum ▸ converts_number cell
  by_cases hstring : type = .text "string"
  · exact hstring ▸ converts_string cell
  refine .of_ok ?_ ?_ (.inr ⟨rfl, fun v => ?_⟩)
  · unfold convertTo
    split <;> simp_all
  · unfold TooLarge
    split <;> simp_all
  · unfold Denotes
    split <;> simp_all

/-! ## Tables -/

/-- The type that the properties of a schema declare for a column, if they do. -/
def declared (properties : List (Value × Value)) (key : Value) : Value :=
  ((findEntry key properties).bind (·.field? "type")).getD .null

/-- What becomes of an entry of a row: the key stays and the cell is settled. -/
def Kept (properties : List (Value × Value)) (e e' : Value × Value) : Prop :=
  e'.1 = e.1 ∧ Settled (declared properties e.1) e.2 e'.2

def HasNames (es : List (Value × Value)) : Prop := ∀ e ∈ es, ∃ name, e.1 = .text name

def HasMaps (es : List (Value × Value)) : Prop := ∀ e ∈ es, ∃ inner, e.2 = .map inner

variable {properties row : List (Value × Value)} {rows : List (List (Value × Value))}

theorem convertEntries_eq (hprops : HasMaps properties) (hkeys : HasNames row) :
    convertEntries (.map properties) row =
      row.mapM fun e => do return (e.1, ← convertCell (declared properties e.1) e.2) := by
  induction row with
  | nil => rfl
  | cons e row ih =>
    obtain ⟨key, cell⟩ := e
    obtain ⟨name, rfl⟩ : ∃ name, key = .text name := hkeys _ List.mem_cons_self
    have hholds : (map properties).holds (.text name) =
      .ok (findEntry (.text name) properties).isSome := rfl
    rw [convertEntries, hholds, ih fun e he => hkeys e (List.mem_cons_of_mem _ he), List.mapM_cons,
      declared]
    cases hent : findEntry (.text name) properties with
    | none => rfl
    | some property =>
      obtain ⟨inner, rfl⟩ : ∃ inner, property = .map inner :=
        hprops _ (mem_of_findEntry hent)
      have hunder := under_of_field? (v := .map properties) hent
      simp only [ok_bind, Option.isSome_some, if_true, hunder, getD, Option.bind_some,
        field?_map, bind_assoc, pure_eq_ok]

theorem convertEntries_failsIf (hprops : HasMaps properties) (hkeys : HasNames row) :
    FailsIf IsOverflow (∃ e ∈ row, TooLarge (declared properties e.1) e.2)
      (convertEntries (.map properties) row) (List.Forall₂ (Kept properties) row) := by
  rw [convertEntries_eq hprops hkeys]
  refine FailsIf.mapM fun e _ => ?_
  exact (converts (declared properties e.1) e.2).bind fun v hv => ⟨_, rfl, rfl, hv⟩

theorem mapM_convertRow (properties : Value) (rows : List (List (Value × Value))) :
    (rows.map map).mapM (convertRow properties) =
      List.map map <$> rows.mapM (convertEntries properties) := by
  induction rows with
  | nil => rfl
  | cons row rows ih =>
    have hrow : convertRow properties (.map row) =
      map <$> convertEntries properties row := rfl
    rw [List.map_cons, List.mapM_cons, List.mapM_cons, ih, hrow]
    cases convertEntries properties row with
    | error e => rfl
    | ok row' => cases rows.mapM (convertEntries properties) <;> rfl

theorem convertEntries_nil (hkeys : HasNames row) : convertEntries (.map []) row = .ok row := by
  rw [convertEntries_eq (List.forall_mem_nil _) hkeys]
  exact mapM_eq_ok.mpr (List.forall₂_same.mpr fun e _ => rfl)

/-- Without properties the table is returned at once, which is what the conversion of its rows would
give. -/
theorem convertRows_eq {schema : Value}
    (hsch : schema.field? "properties" = some (.map properties))
    (hkeys : ∀ row ∈ rows, HasNames row) :
    convertRows (.list (rows.map .map)) schema =
      (fun rows' => .list (rows'.map .map)) <$> rows.mapM (convertEntries (.map properties)) := by
  have hgetD := getD_of_field? hsch .null
  have hitems : (list (rows.map .map)).items = .ok (rows.map .map) := rfl
  rw [convertRows, hgetD, ok_bind]
  cases rows with
  | nil => rfl
  | cons row rows =>
    cases properties with
    | nil =>
      have hkept : (row :: rows).mapM (convertEntries (.map [])) = .ok (row :: rows) :=
        mapM_eq_ok.mpr (List.forall₂_same.mpr fun row hrow =>
          convertEntries_nil (hkeys row hrow))
      rw [hkept]
      rfl
    | cons e properties =>
      rw [hitems, ok_bind, mapM_convertRow]
      cases (row :: rows).mapM (convertEntries (.map (e :: properties))) <;> rfl

/-- A table whose rows have names for keys is converted, row by row and cell by cell, if no cell is
too large for its type: the keys stay, each cell becomes the value that it stands for, and it stays
as it is if it stands for none. If one is too large, all of the table fails. -/
theorem tables_convert_unless_too_large (rows : List (List (Value × Value))) (schema : Value)
    (properties : List (Value × Value))
    (hschema : schema.field? "properties" = some (.map properties))
    (hproperties : HasMaps properties) (hkeys : ∀ row ∈ rows, HasNames row) :
    ((∀ row ∈ rows, ∀ e ∈ row, ¬ TooLarge (declared properties e.1) e.2) →
      ∃ rows', convertRows (.list (rows.map .map)) schema = .ok (.list (rows'.map .map)) ∧
        List.Forall₂ (List.Forall₂ (Kept properties)) rows rows') ∧
    ((∃ row ∈ rows, ∃ e ∈ row, TooLarge (declared properties e.1) e.2) →
      ∃ d, convertRows (.list (rows.map .map)) schema = .error (.overflow d)) := by
  rw [convertRows_eq hschema hkeys]
  rcases FailsIf.mapM fun row hrow =>
    convertEntries_failsIf hproperties (hkeys row hrow) with
    ⟨hlarge, _, hf, d, rfl⟩ | ⟨hfits, rows', hok, hkept⟩
  · refine ⟨fun hall => ?_, fun _ => ⟨d, by rw [hf]; rfl⟩⟩
    obtain ⟨row, hrow, e, he, hlarge⟩ := hlarge
    exact absurd hlarge (hall row hrow e he)
  · exact ⟨fun _ => ⟨rows', by rw [hok]; rfl, hkept⟩, fun hlarge => absurd hlarge hfits⟩

/-- An infinite integer, and its table is lost. -/
theorem tables_convert_unless_too_large_infinite :
    ∃ d, convertRows (.list [.map [(.text "n", .text "inf")]])
      (.map [(.text "properties", .map [(.text "n", .map [(.text "type", .text "integer")])])]) =
        .error (.overflow d) := by
  refine (tables_convert_unless_too_large [[(.text "n", .text "inf")]] _
    [(.text "n", .map [(.text "type", .text "integer")])] rfl ?_ ?_).2 ?_
  · simp [HasMaps]
  · simp [HasNames]
  · exact ⟨_, List.mem_cons_self, _, List.mem_cons_self, rfl, false, by decide⟩

end SheetMill.Checking
