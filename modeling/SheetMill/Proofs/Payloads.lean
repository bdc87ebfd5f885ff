import SheetMill.Message.Cache
import SheetMill.Message.Schemas
import SheetMill.Proofs.TaskReading

/-!
# Optional parts of messages

A cached value, the time after which it expires and the state of a task come back from their
messages as they are, and an absent one comes back as absent. A schema that was not found comes back
as the empty schema, and the error of a build without one as the empty text.
-/

namespace SheetMill

open Outcome List

variable {fields : List (String × Value)} {m : FindSchemaResponse}

def Value.Holds (v : Value) (fields : List (String × Value)) : Prop :=
  ∀ e ∈ fields, v.item e.1 = .ok e.2

theorem Value.holds_record (h : (fields.map Prod.fst).Nodup) : (record fields).Holds fields :=
  fun _ he => item_of_field? (field?_record_of_mem h he)

namespace Message

open Wire Value Database.Tasks

variable {v : Value}

/-- What stands under a name when the map has become a message and the message a map again. -/
def returned {μ : Type} (ofValue : Value → Outcome μ) (toValue : μ → Outcome Value) (name : String)
    (v : Value) : Outcome Value := do
  (← toValue (← ofValue v)).item name

theorem int?_intValue? {x : Option Int} (h : ∀ i ∈ x, IsInt32 i) :
    Slot.int? (intValue? x) = .ok x := by
  cases x with
  | none => rfl
  | some i =>
    have hrange : -0x80000000 ≤ i ∧ i < 0x80000000 := h i rfl
    simp only [intValue?, Slot.int?, asInt?, if_pos hrange]

theorem bool_bool (b : Bool) : Slot.bool (.bool b) = .ok b := by
  cases b <;> rfl

/-! ## Schemas -/

theorem proper_propertyTypes : propertyTypes.Proper := ⟨by decide, by decide⟩

/-- A schema as messages carry it: all types have names, and no name stands twice. -/
structure SchemaRecord.Proper (r : SchemaRecord) : Prop where
  types : ∀ e ∈ r.properties, propertyTypes.Knows e.2.type
  extras : ∀ e ∈ r.properties, (e.2.extra.map Prod.fst).Nodup
  names : (r.properties.map Prod.fst).Nodup

theorem Property.ofValue_record {name : String} {n : Int} {extra : List (String × String)}
    (hnum : propertyTypes.number (.text name) = .ok n) (hextra : (extra.map Prod.fst).Nodup) :
    ofValue (.record [("type", .text name), ("extra", textMapValue extra)]) = .ok ⟨n, extra⟩ := by
  let w : Value := .record [("type", .text name), ("extra", textMapValue extra)]
  have htype : w.item "type" = .ok (.text name) := item_of_field? (field?_record _ _)
  have hextra' : w.getD "extra" (.map []) = .ok (textMapValue extra) :=
    getD_of_field? (field?_record _ _) _
  rw [ofValue, htype, hextra', ok_bind, hnum]
  simp only [ok_bind, Slot.textMap_textMapValue hextra]
  rfl

theorem Property.exists_ofValue {p : Property} (htype : propertyTypes.Knows p.type)
    (hextra : (p.extra.map Prod.fst).Nodup) : ∃ w, p.toValue = .ok w ∧ ofValue w = .ok p := by
  obtain ⟨name, hname, hnum, -⟩ := proper_propertyTypes.exists_name htype
  exact ⟨_, by rw [toValue, hname]; rfl, ofValue_record hnum hextra⟩

theorem SchemaRecord.ofValue_of_holds {r : SchemaRecord}
    (h : v.Holds [("schema", .text r.schema), ("type", .text r.type),
      ("required", .texts r.required), ("properties", .record fields)])
    (hflds : Forall₂ (fun e f => f.1 = e.1 ∧ Property.ofValue f.2 = .ok e.2)
      r.properties fields) (hnames : (r.properties.map Prod.fst).Nodup) : ofValue v = .ok r := by
  simp only [Holds, forall_mem_cons] at h
  obtain ⟨hsch, htype, hrequired, hprops, -⟩ := h
  have htexts : Slot.texts (.texts r.required) = .ok r.required := mapM_textOf r.required
  rw [ofValue, hsch, htype, hrequired, hprops]
  -- what is left reads the properties as the parts of a build are read
  show (do
    let properties ← BuildRequest.mapValues (.record fields) Property.ofValue
    let required ← Slot.texts (.texts r.required)
    let properties ← BuildRequest.textKeys properties
    return ({ r with required, properties } : SchemaRecord)) = .ok r
  rw [mapValues_record hflds, htexts, ok_bind, textKeys_of_nodup hnames]
  rfl

/-- A schema becomes a map and is made from the map again. -/
theorem SchemaRecord.Proper.exists_ofValue {r : SchemaRecord} (h : r.Proper) :
    ∃ es, r.toValue = .ok (.map es) ∧ ofValue (.map es) = .ok r := by
  obtain ⟨fields, hflds, hback⟩ : ∃ fields,
      (r.properties.mapM fun e => return (e.1, ← e.2.toValue)) = .ok fields ∧
      Forall₂ (fun e f => f.1 = e.1 ∧ Property.ofValue f.2 = .ok e.2) r.properties fields := by
    apply exists_mapM_eq_ok
    intro e he
    obtain ⟨w, hw, hback⟩ := Property.exists_ofValue (h.types e he) (h.extras e he)
    exact ⟨(e.1, w), by simp [hw], rfl, hback⟩
  have hval : r.toValue = .ok (.record [("schema", .text r.schema), ("type", .text r.type),
      ("required", .texts r.required), ("properties", .record fields)]) :=
    (congrArg (· >>= _) hflds).trans rfl
  exact ⟨_, hval, ofValue_of_holds (holds_record (by simp)) hback h.names⟩

def schemaValue (x : Option SchemaRecord) : Outcome Value := x.elim (.ok .null) SchemaRecord.toValue

/-! ## Messages with parts that may be absent -/

theorem GetResponse.ofValue_of_holds {m : GetResponse}
    (h : v.Holds [("value", .ofText? m.value), ("found", .bool m.found)]) : ofValue v = .ok m := by
  simp only [Holds, forall_mem_cons] at h
  obtain ⟨hval, hfound, -⟩ := h
  rw [ofValue, hval, hfound]
  simp only [ok_bind, text?_ofText?, bool_bool]
  rfl

theorem SetRequest.ofValue_of_holds {m : SetRequest} (hm : ∀ i ∈ m.expiration, IsInt32 i)
    (h : v.Holds [("key", .text m.key), ("value", .text m.value),
      ("expiration", intValue? m.expiration)]) : ofValue v = .ok m := by
  simp only [Holds, forall_mem_cons] at h
  obtain ⟨hkey, hval, hexpiration, -⟩ := h
  rw [ofValue, hkey, hval, hexpiration]
  simp only [ok_bind, text_text, int?_intValue? hm]
  rfl

def stateValue (x : Option ApiResponse) : Value := (x.map ApiResponse.toValue).getD .null

theorem GetTaskResponse.ofValue_of_holds {m : GetTaskResponse} (hm : ∀ r ∈ m.value, r.Proper)
    (h : v.Holds [("value", stateValue m.value), ("found", .bool m.found)]) : ofValue v = .ok m := by
  simp only [Holds, forall_mem_cons] at h
  obtain ⟨hval, hfound, -⟩ := h
  rw [ofValue, hval, hfound]
  obtain ⟨value, found⟩ := m
  cases value with
  | none =>
    simp only [stateValue, Option.map_none, Option.getD_none, ok_bind, pure_bind, bool_bool]
    rfl
  | some r =>
    have hr := state_of_shows (show Shows r.toValue r from ⟨rfl, rfl, rfl, rfl⟩)
      (hm r rfl)
    show (some <$> ApiResponse.ofValue r.toValue >>= fun value => _) = _
    rw [hr, map_ok, ok_bind, ok_bind, bool_bool]
    rfl

/-- The parts of a found schema but for the schema are read, and the schema if it is there. -/
theorem FindSchemaResponse.ofValue_of_holds {w : Value} (hm : ∀ r ∈ m.schema, r.Proper)
    (hextra : (m.extra.map Prod.fst).Nodup) (hw : schemaValue m.schema = .ok w)
    (h : v.Holds [("status", .text m.status), ("extra", textMapValue m.extra), ("schema", w)]) :
    ofValue v = .ok m := by
  simp only [Holds, forall_mem_cons] at h
  obtain ⟨hstat, hextra', hsch, -⟩ := h
  rw [ofValue, hstat, hextra', hsch]
  obtain ⟨status, extra, schema⟩ := m
  cases schema with
  | none =>
    cases hw
    simp only [ok_bind, pure_bind, text_text, Slot.textMap_textMapValue hextra]
    rfl
  | some r =>
    obtain ⟨es, hents, hback⟩ := (hm r rfl).exists_ofValue
    obtain rfl : Value.map es = w := Except.ok.inj (hents.symm.trans hw)
    simp only [ok_bind, hback, map_ok, text_text, Slot.textMap_textMapValue hextra]
    rfl

theorem FindSchemaResponse.returned_schema {w : Value} (hm : ∀ r ∈ m.schema, r.Proper)
    (hextra : (m.extra.map Prod.fst).Nodup) (hw : schemaValue m.schema = .ok w)
    (h : v.Holds [("status", .text m.status), ("extra", textMapValue m.extra), ("schema", w)]) :
    returned ofValue toValue "schema" v = schemaValue (some (m.schema.getD {})) := by
  have hproper : (m.schema.getD {}).Proper := by
    rcases hsch : m.schema with - | r
    · exact ⟨nofun, nofun, .nil⟩
    · exact hm r hsch
  obtain ⟨es, hents, -⟩ := hproper.exists_ofValue
  rw [returned, ofValue_of_holds hm hextra hw h, ok_bind, toValue, hents, schemaValue,
    Option.elim_some, hents]
  rfl

theorem BuildResponse.ofValue_of_holds {m : BuildResponse} {content : Value}
    (hcont : (BuildRequest.mapValues content Level.ofValue >>= intKeys) = .ok m.content)
    (h : v.Holds [("content", content), ("error", .ofText? m.error)]) : ofValue v = .ok m := by
  simp only [Holds, forall_mem_cons] at h
  obtain ⟨hcont', herr, -⟩ := h
  obtain ⟨es, hents, hkeys⟩ := bind_eq_ok.mp hcont
  rw [ofValue, hcont', herr]
  simp only [ok_bind, hents, hkeys, text?_ofText?]
  rfl

/-- A cached value, an expiration and the state of a task come back from their messages, whether
they are there or not. A schema and an error come back just if they are there: the absent schema
comes back as the empty one, and the absent error as the empty text. -/
theorem payloads_return_unless_merged (v : Value) :
    (∀ m : GetResponse,
      v.Holds [("value", .ofText? m.value), ("found", .bool m.found)] →
      returned GetResponse.ofValue (fun m => .ok m.toValue) "value" v = .ok (.ofText? m.value)) ∧
    (∀ m : SetRequest, (∀ i ∈ m.expiration, IsInt32 i) →
      v.Holds [("key", .text m.key), ("value", .text m.value),
        ("expiration", intValue? m.expiration)] →
      returned SetRequest.ofValue (fun m => .ok m.toValue) "expiration" v =
        .ok (intValue? m.expiration)) ∧
    (∀ m : GetTaskResponse, (∀ r ∈ m.value, r.Proper) →
      v.Holds [("value", stateValue m.value), ("found", .bool m.found)] →
      returned GetTaskResponse.ofValue (fun m => .ok m.toValue) "value" v =
        .ok (stateValue m.value)) ∧
    (∀ (w : Value) (m : FindSchemaResponse), (∀ r ∈ m.schema, r.Proper) →
      (m.extra.map Prod.fst).Nodup → schemaValue m.schema = .ok w →
      v.Holds [("status", .text m.status), ("extra", textMapValue m.extra), ("schema", w)] →
      returned FindSchemaResponse.ofValue FindSchemaResponse.toValue "schema" v =
        schemaValue (some (m.schema.getD {})) ∧
      (returned FindSchemaResponse.ofValue FindSchemaResponse.toValue "schema" v = .ok w ↔
        m.schema ≠ none)) ∧
    (∀ (content : Value) (m : BuildResponse),
      (BuildRequest.mapValues content Level.ofValue >>= BuildResponse.intKeys) = .ok m.content →
      v.Holds [("content", content), ("error", .ofText? m.error)] →
      returned BuildResponse.ofValue (fun m => .ok m.toValue) "error" v =
        .ok (.text (m.error.getD "")) ∧
      (returned BuildResponse.ofValue (fun m => .ok m.toValue) "error" v =
        .ok (.ofText? m.error) ↔ m.error ≠ none)) := by
  refine ⟨?_, ?_, ?_, ?_, ?_⟩
  · intro m h
    rw [returned, GetResponse.ofValue_of_holds h]
    rfl
  · intro m hm h
    rw [returned, SetRequest.ofValue_of_holds hm h]
    rfl
  · intro m hm h
    rw [returned, GetTaskResponse.ofValue_of_holds hm h]
    rfl
  · intro w m hm hextra hw h
    have hreturned := FindSchemaResponse.returned_schema hm hextra hw h
    refine ⟨hreturned, ?_⟩
    rw [hreturned]
    rcases hschema : m.schema with - | r
    · rw [hschema] at hw
      cases hw
      -- the empty schema is a map, so it is told apart from the absent one
      simp [schemaValue, SchemaRecord.toValue, record]
    · rw [hschema] at hw
      simp [hw]
  · intro content m hcontent h
    have hreturned : returned BuildResponse.ofValue (fun m => .ok m.toValue) "error" v =
        .ok (.text (m.error.getD "")) := by
      rw [returned, BuildResponse.ofValue_of_holds hcontent h]
      rfl
    refine ⟨hreturned, ?_⟩
    rw [hreturned]
    cases m.error <;> simp [ofText?]

/-- A schema that was not found and a build without an error. -/
theorem payloads_return_unless_merged_absent :
    let missing : Value := .record [("status", .text "not_found"), ("extra", .record []),
      ("schema", .null)]
    let built : Value := .record [("content", .record []), ("error", .null)]
    returned FindSchemaResponse.ofValue FindSchemaResponse.toValue "schema" missing ≠ .ok .null ∧
    returned BuildResponse.ofValue (fun m => .ok m.toValue) "error" built = .ok (.text "") := by
  intro missing built
  have hmissing : missing.Holds [("status", .text "not_found"), ("extra", textMapValue []),
      ("schema", .null)] := holds_record (by decide)
  have hbuilt : built.Holds [("content", .record []), ("error", .ofText? none)] :=
    holds_record (by decide)
  constructor
  · rw [ne_eq, ((payloads_return_unless_merged missing).2.2.2.1 .null ⟨"not_found", [], none⟩ nofun
      .nil rfl hmissing).2]
    simp
  · exact ((payloads_return_unless_merged built).2.2.2.2 (.record []) ⟨[], none⟩ rfl hbuilt).1

end Message

end SheetMill
