import SheetMill.Proofs.Messages
import SheetMill.Proofs.TaskChanges

/-!
# Hashes and documents that can be read

A hash can be read if its code, where it has one, is the text of a number and its data, where it has
some, is the JSON of a map from texts to texts. Requests that set neither the code nor the data,
other than by giving new data, leave both so.
-/

namespace SheetMill.Message

/-- The field is neither the code nor the data nor a part of them, and no name of the new data stands
twice. -/
structure UpdateTaskRequest.Harmless (u : UpdateTaskRequest) : Prop where
  code : (Text.split u.field '.').head? ≠ some "code"
  data : (Text.split u.field '.').head? ≠ some "data"
  names : (u.data.map Prod.fst).Nodup

variable {u : UpdateTaskRequest}

theorem UpdateTaskRequest.Proper.harmless (hu : u.Proper) : u.Harmless := by
  rcases hu.field with hfld | hfld
  · exact ⟨by rw [hfld]; decide, by rw [hfld]; decide, hu.names⟩
  · exact ⟨by rw [hfld]; decide, by rw [hfld]; decide, hu.names⟩

theorem UpdateTaskRequest.Harmless.field_ne_code (hu : u.Harmless) : u.field ≠ "code" := by
  intro hfld
  exact hu.code (by rw [hfld]; decide)

theorem UpdateTaskRequest.Harmless.field_ne_data (hu : u.Harmless) : u.field ≠ "data" := by
  intro hfld
  exact hu.data (by rw [hfld]; decide)

end SheetMill.Message

namespace SheetMill.Database.TaskCache

open Act Value Message Outcome List

variable {fs old new : List (String × String)} {u : UpdateTaskRequest} {m : ApiResponse}

/-- The code is the text of a number of 32 bits and the data that of a map from texts to texts, if
they are there. -/
structure Legible (fields : List (String × String)) : Prop where
  code : ∀ t, ("code", t) ∈ fields → ∃ i, IsInt32 i ∧ t = toString i
  data : ∀ t, ("data", t) ∈ fields →
    ∃ entries : List (String × String), (entries.map Prod.fst).Nodup ∧ t = mapText entries

theorem legible_nil : Legible [] := ⟨by simp, by simp⟩

theorem Legible.append (hold : Legible old) (hnew : Legible new) : Legible (old ++ new) :=
  ⟨fun t ht => (mem_append.mp ht).elim (hold.code t) (hnew.code t),
    fun t ht => (mem_append.mp ht).elim (hold.data t) (hnew.data t)⟩

theorem Legible.merged (hold : Legible old) (hnew : Legible new) : Legible (merged old new) :=
  ⟨fun t ht => (mem_merged ht).elim (hold.code t) (hnew.code t),
    fun t ht => (mem_merged ht).elim (hold.data t) (hnew.data t)⟩

theorem legible_fieldsOf (hm : m.Proper) : Legible (fieldsOf m) := by
  refine ⟨fun t ht => ⟨m.code, hm.code, ?_⟩, fun t ht => ⟨m.data, hm.names, ?_⟩⟩
  · simpa [fieldsOf] using ht
  · simpa [fieldsOf] using ht

theorem names_of_spoken {name : String} (h : name ∈ (spoken u).map Prod.fst) :
    name = u.field ∨ name = "message" := by
  rw [spoken, map_cons, mem_cons] at h
  refine h.imp_right fun h => ?_
  unfold messageIn at h
  split_ifs at h
  · cases h
  · simpa using h

theorem merged_spoken_ne_nil (old : List (String × String)) (u : UpdateTaskRequest) :
    merged old (spoken u) ≠ [] := by
  intro hnil
  have hmem : u.field ∈ (merged old (spoken u)).map Prod.fst :=
    mem_keys_merged.mpr (.inr (by simp [spoken]))
  rw [hnil] at hmem
  cases hmem

theorem legible_spoken (hu : u.Harmless) : Legible (spoken u) := by
  refine ⟨fun t ht => ?_, fun t ht => ?_⟩
  · rcases names_of_spoken (mem_map_of_mem ht) with hfld | hmsg
    · exact absurd hfld.symm hu.field_ne_code
    · simp at hmsg
  · rcases names_of_spoken (mem_map_of_mem ht) with hfld | hmsg
    · exact absurd hfld.symm hu.field_ne_data
    · simp at hmsg

/-! ## The state in a hash -/

theorem findEntry_textEntry (fs : List (String × String)) (name : String) :
    findEntry (.text name) (fs.map textEntry) = (fs.lookup name).map .text :=
  findEntry_named Value.text fs name

/-- A text in a map is read and what it is read as put in its place; all else stays as it is. -/
theorem readField_text {name : String} (read : Value → Outcome Value) (R : Value → Prop)
    {entries : List (Value × Value)} {text : Option String}
    (hent : findEntry (.text name) entries = text.map .text)
    (hread : ∀ t, text = some t → ∃ w, R w ∧ read (.text t) = .ok w) :
    ∃ entries', readField name read (.map entries) = .ok (.map entries') ∧
      (∀ other, other ≠ name →
        findEntry (.text other) entries' = findEntry (.text other) entries) ∧
      (text = none ∧ findEntry (.text name) entries' = none ∨
        text ≠ none ∧ ∃ w, R w ∧ findEntry (.text name) entries' = some w) := by
  cases text with
  | none =>
    refine ⟨entries, ?_, fun _ _ => rfl, .inl ⟨rfl, hent⟩⟩
    simp only [readField, field?_map, hent, Option.map_none]
  | some t =>
    obtain ⟨w, hR, hw⟩ := hread t rfl
    refine ⟨setEntry (.text name) w entries, readField_of_field? hent hw, ?_, ?_⟩
    · intro other hother
      rw [findEntry_setEntry, if_neg hother]
    · exact .inr ⟨by simp, w, hR, by rw [findEntry_setEntry, if_pos rfl]⟩

/-- The state that is found in a hash has the fields of the hash. -/
theorem stateIn_of_legible (h : Legible fs) (hne : fs ≠ []) :
    ∃ entries, stateIn (fs.map textEntry) = .ok (some (.map entries)) ∧
      (∀ name, name ≠ "code" → name ≠ "data" →
        findEntry (.text name) entries = (fs.lookup name).map .text) ∧
      (fs.lookup "code" = none ∨
        ∃ i, IsInt32 i ∧ findEntry (.text "code") entries = some (.int i)) ∧
      (fs.lookup "data" = none ∧ findEntry (.text "data") entries = none ∨
        fs.lookup "data" ≠ none ∧ ∃ data, (data.map Prod.fst).Nodup ∧
          findEntry (.text "data") entries = some (textMapValue data)) := by
  obtain ⟨entries1, hread1, hother1, hdata⟩ := readField_text parsed
    (fun w => ∃ entries, (entries.map Prod.fst).Nodup ∧ w = textMapValue entries)
    (findEntry_textEntry fs "data") fun t ht => by
      obtain ⟨entries, hnodup, rfl⟩ := h.data t (mem_of_lookup ht)
      exact ⟨_, ⟨entries, hnodup, rfl⟩, parsed_mapText hnodup⟩
  obtain ⟨entries2, hread2, hother2, hcode⟩ := readField_text (fun c => .int <$> c.toInt)
    (fun w => ∃ i, IsInt32 i ∧ w = .int i)
    ((hother1 "code" (by decide)).trans (findEntry_textEntry fs "code")) fun t ht => by
      obtain ⟨i, hi, rfl⟩ := h.code t (mem_of_lookup ht)
      exact ⟨_, ⟨i, hi, rfl⟩, by rw [toInt_text hi, map_ok]⟩
  have hnil : (fs.map textEntry).isEmpty = false := by simpa using hne
  have hnames : areNames (fs.map textEntry) = true := by simp [areNames, named, isText]
  refine ⟨entries2, ?_, fun name hcode hdata => ?_, ?_, ?_⟩
  · simp only [stateIn, hnil, Bool.false_eq_true, if_false, hread1, hread2, ok_bind, hnames,
      if_true, pure_eq_ok]
  · rw [hother2 name hcode, hother1 name hdata, findEntry_textEntry]
  · rcases hcode with ⟨hnone, -⟩ | ⟨-, w, ⟨i, hi, rfl⟩, hfound⟩
    · exact .inl hnone
    · exact .inr ⟨i, hi, hfound⟩
  · have hsame := hother2 "data" (by decide)
    rcases hdata with ⟨hnone, hnone'⟩ | ⟨hsome, w, ⟨data, hnodup, rfl⟩, hfound⟩
    · exact .inl ⟨hnone, hsame.trans hnone'⟩
    · exact .inr ⟨hsome, data, hnodup, hsame.trans hfound⟩

theorem startIn_of_legible (h : Legible fs) (hne : fs ≠ []) (u : UpdateTaskRequest) :
    (u.resetData.getD false = true ∨ fs.lookup "data" ≠ none) ∧
        (∃ old, (old.map Prod.fst).Nodup ∧ startIn u fs = .ok (textMapValue old)) ∨
      (u.resetData.getD false = false ∧ fs.lookup "data" = none) ∧
        startIn u fs = .error (.missingKey (.text "data")) := by
  unfold startIn
  cases hreset : u.resetData.getD false with
  | true => exact .inl ⟨.inl rfl, [], by simp, rfl⟩
  | false =>
    obtain ⟨entries, hst, -, -, hdata⟩ := stateIn_of_legible h hne
    rw [hst]
    rcases hdata with ⟨hnone, hfound⟩ | ⟨hsome, data, hnodup, hfound⟩
    · refine .inr ⟨⟨rfl, hnone⟩, ?_⟩
      simp [item, hfound, partFault]
    · refine .inl ⟨.inr hsome, data, hnodup, ?_⟩
      simp [item, hfound]

theorem dataIn_of_start {start : List (String × String)} (hnodup : (start.map Prod.fst).Nodup)
    (hstart : startIn u fs = .ok (textMapValue start)) :
    ∃ texts, dataIn u fs = .ok texts ∧ Legible texts := by
  by_cases hdata : u.data = []
  · exact ⟨[], by rw [dataIn, if_pos hdata], legible_nil⟩
  · refine ⟨[("data", mapText (merged start u.data))], ?_, ⟨by simp, fun t ht => ?_⟩⟩
    · simp only [dataIn, if_neg hdata, hstart, ok_bind, merge_textMapValue,
        toJson_textMapValue, pure_eq_ok]
    · exact ⟨merged start u.data, nodup_merged hnodup _, by simpa using ht⟩

/-- New data is put into that of the hash, or it is asked for in vain. -/
theorem dataIn_of_legible (h : Legible fs) (hne : fs ≠ []) (u : UpdateTaskRequest) :
    (u.data = [] ∨ u.resetData.getD false = true ∨ fs.lookup "data" ≠ none) ∧
        (∃ texts, dataIn u fs = .ok texts ∧ Legible texts) ∨
      (u.data ≠ [] ∧ u.resetData.getD false = false ∧ fs.lookup "data" = none) ∧
        dataIn u fs = .error (.missingKey (.text "data")) := by
  by_cases hdata : u.data = []
  · exact .inl ⟨.inl hdata, [], by rw [dataIn, if_pos hdata], legible_nil⟩
  · rcases startIn_of_legible h hne u with ⟨hwhy, start, hnodup, hstart⟩ | ⟨hwhy, hstart⟩
    · exact .inl ⟨.inr hwhy, dataIn_of_start hnodup hstart⟩
    · refine .inr ⟨⟨hdata, hwhy⟩, ?_⟩
      rw [dataIn, if_neg hdata, hstart]
      rfl

end SheetMill.Database.TaskCache

namespace SheetMill.Wire.Slot

open Value

theorem textMap_textMapValue {entries : List (String × String)}
    (h : (entries.map Prod.fst).Nodup) :
    textMap (Message.textMapValue entries) = .ok entries := by
  rw [textMapValue_eq]
  exact Message.foldlM_putEntry (fun _ _ => rfl) h

end SheetMill.Wire.Slot

namespace SheetMill.Database.Tasks

open Act Value Message Documents TaskCache Outcome

variable {fs : List (String × String)} {m : ApiResponse} {u : UpdateTaskRequest} {v doc : Value}
  {docs : Documents} {sets : List (String × Value)} {entries : List (Value × Value)}

/-! ## States in messages -/

def stateNames : List String := ["status", "code", "message", "data"]

def Complete (fs : List (String × String)) : Prop :=
  ∀ name ∈ stateNames, name ∈ fs.map Prod.fst

theorem Complete.lookup (h : Complete fs) (name : String) (hname : name ∈ stateNames) :
    ∃ t, fs.lookup name = some t := lookup_of_mem (h name hname)

theorem stateIn_shows (h : Legible fs) (hall : Complete fs) :
    ∃ v m, stateIn (fs.map textEntry) = .ok (some v) ∧ m.Proper ∧ Shows v m := by
  obtain ⟨status, hstat⟩ := hall.lookup "status" (by simp [stateNames])
  obtain ⟨msg, hmsg⟩ := hall.lookup "message" (by simp [stateNames])
  obtain ⟨code, hcode⟩ := hall.lookup "code" (by simp [stateNames])
  obtain ⟨data, hdata⟩ := hall.lookup "data" (by simp [stateNames])
  have hne : fs ≠ [] := by
    rintro rfl
    cases hstat
  obtain ⟨entries, hst, htexts, hnum, hmap⟩ := stateIn_of_legible h hne
  obtain ⟨i, hi, hnum⟩ := hnum.resolve_left (by rw [hcode]; simp)
  obtain ⟨-, map, hnodup, hmap⟩ := hmap.resolve_left (by rw [hdata]; simp)
  refine ⟨.map entries, ⟨status, i, msg, map⟩, hst, ⟨hi, hnodup⟩, ⟨?_, hnum, ?_, hmap⟩⟩
  · exact (htexts "status" (by decide) (by decide)).trans (by rw [hstat]; rfl)
  · exact (htexts "message" (by decide) (by decide)).trans (by rw [hmsg]; rfl)

theorem state_of_shows (h : Shows v m) (hm : m.Proper) : ApiResponse.ofValue v = .ok m := by
  have hcode : Wire.Slot.int (.int m.code) = .ok m.code := by
    have hrange : -0x80000000 ≤ m.code ∧ m.code < 0x80000000 := hm.code
    simp only [Wire.Slot.int, Wire.Slot.int?, asInt?, if_pos hrange, map_ok, Option.getD_some]
  have hdata := Wire.Slot.textMap_textMapValue hm.names
  simp only [ApiResponse.ofValue, item_of_field? h.status, item_of_field? h.code,
    item_of_field? h.message, item_of_field? h.data, ok_bind, hcode, hdata]
  rfl

/-- A state that is shown goes into a message. -/
theorem ofValue_of_shows (h : Shows v m) (hm : m.Proper) :
    GetTaskResponse.ofValue (foundState (some v)) = .ok ⟨some m, true⟩ := by
  have hst := state_of_shows h hm
  obtain ⟨entries, rfl, -⟩ := eq_map_of_field? h.status
  have hval : (foundState (some (.map entries))).item "value" = .ok (.map entries) := rfl
  simp only [GetTaskResponse.ofValue, hval, ok_bind, hst, map_ok]
  rfl

/-! ## Documents that show a state -/

def Readable (doc : Value) : Prop := ∃ m, m.Proper ∧ Shows doc m

theorem Readable.eq_map (h : Readable doc) : ∃ entries, doc = .map entries := by
  obtain ⟨m, -, hshows⟩ := h
  obtain ⟨entries, rfl, -⟩ := eq_map_of_field? hshows.status
  exact ⟨entries, rfl⟩

theorem readable_documentOf (owner : String × String) (hm : m.Proper) (id : Value) :
    Readable ((documentOf owner m).withField "_id" id) :=
  ⟨m, hm, (shows_documentOf owner m id).2⟩

theorem Readable.state (h : Readable doc)
    (hv : stateOf (fun c => .int <$> c.toInt) doc = .ok v ∨ stateOf .ok doc = .ok v) :
    ∃ m : ApiResponse, m.Proper ∧ v = m.toValue := by
  obtain ⟨m, hm, hshows⟩ := h
  refine ⟨m, hm, ?_⟩
  rcases hv with hv | hv
  · rw [stateOf_shows hshows] at hv
    exact (Except.ok.inj hv).symm
  · rw [stateOf_ok_shows hshows] at hv
    exact (Except.ok.inj hv).symm

/-- The value may be put under the name: it is not the code, and if it is one of the other fields of
a state, it is of their kind. -/
def Suits (name : String) (w : Value) : Prop :=
  name ≠ "code" ∧ (name = "status" ∨ name = "message" → ∃ t, w = .text t) ∧
    (name = "data" → ∃ data : List (String × String), (data.map Prod.fst).Nodup ∧ w = textMapValue data)

theorem Readable.put {name : String} {w : Value} (h : Readable (.map entries))
    (hw : Suits name w) : Readable (.map (setEntry (.text name) w entries)) := by
  obtain ⟨m, hm, hshows⟩ := h
  obtain ⟨hcode, htext, hmap⟩ := hw
  have hother : ∀ other, other ≠ name →
      (Value.map (setEntry (.text name) w entries)).field? other =
        (Value.map entries).field? other := by
    intro other hne
    rw [field?_map, findEntry_setEntry, if_neg hne, field?_map]
  have hself : (Value.map (setEntry (.text name) w entries)).field? name = some w := by
    rw [field?_map, findEntry_setEntry, if_pos rfl]
  have hnum := (hother "code" hcode.symm).trans hshows.code
  -- The state that is shown afterwards has the new value in the field of that name, if it has one.
  by_cases hstat : name = "status"
  · obtain ⟨t, rfl⟩ := htext (.inl hstat)
    subst hstat
    exact ⟨{ m with status := t }, ⟨hm.code, hm.names⟩, hself, hnum,
      (hother _ (by decide)).trans hshows.message, (hother _ (by decide)).trans hshows.data⟩
  · by_cases hmsg : name = "message"
    · obtain ⟨t, rfl⟩ := htext (.inr hmsg)
      subst hmsg
      exact ⟨{ m with message := t }, ⟨hm.code, hm.names⟩, (hother _ (by decide)).trans hshows.status,
        hnum, hself, (hother _ (by decide)).trans hshows.data⟩
    · by_cases hdata : name = "data"
      · obtain ⟨data, hnodup, rfl⟩ := hmap hdata
        subst hdata
        exact ⟨{ m with data }, ⟨hm.code, hnodup⟩, (hother _ (by decide)).trans hshows.status, hnum,
          (hother _ (by decide)).trans hshows.message, hself⟩
      · exact ⟨m, hm, (hother _ (Ne.symm hstat)).trans hshows.status, hnum,
          (hother _ (Ne.symm hmsg)).trans hshows.message,
          (hother _ (Ne.symm hdata)).trans hshows.data⟩

theorem setAt_text {path : List String} {new w : Value} {t : String}
    (h : setAt path new (.text t) = .ok w) : w = new := by
  match path, h with
  | [], h => exact (Except.ok.inj h).symm
  | [_], h => cases h
  | _ :: _ :: _, h => cases h

theorem Readable.putAt {first t : String} {path : List String} {inner : Value}
    (h : Readable (.map entries)) (hcode : first ≠ "code") (hdata : first ≠ "data")
    (hset : setAt path (.text t) ((findEntry (.text first) entries).getD (.map [])) = .ok inner) :
    Readable (.map (setEntry (.text first) inner entries)) := by
  refine h.put ⟨hcode, fun hname => ⟨t, ?_⟩, fun hname => absurd hname hdata⟩
  obtain ⟨m, -, hshows⟩ := h
  have hfld : ∃ old, findEntry (.text first) entries = some (.text old) := by
    rcases hname with rfl | rfl
    · exact ⟨_, hshows.status⟩
    · exact ⟨_, hshows.message⟩
  obtain ⟨old, hold⟩ := hfld
  rw [hold] at hset
  exact setAt_text hset

theorem Readable.putAll {rest : List (String × Value)} (h : Readable (.map entries))
    (hrest : ∀ e ∈ rest, Suits e.1 e.2) :
    Readable (.map ((rest.map (named id)).foldl (fun acc (k, v) => setEntry k v acc) entries)) := by
  induction rest generalizing entries with
  | nil => exact h
  | cons e rest ih =>
    rw [List.forall_mem_cons] at hrest
    exact ih (h.put hrest.1) hrest.2

theorem OldData.textMap (h : OldData docs v) (hdocs : ∀ doc ∈ docs, Readable doc) :
    ∃ data : List (String × String), (data.map Prod.fst).Nodup ∧ v = textMapValue data := by
  rcases h with rfl | ⟨doc, hdoc, hfld⟩
  · exact ⟨[], by simp, rfl⟩
  · obtain ⟨m, hm, hshows⟩ := hdocs doc hdoc
    rw [hshows.data] at hfld
    exact ⟨m.data, hm.names, (Option.some.inj hfld).symm⟩

theorem NewData.suits (h : NewData docs u v) (hu : u.Harmless)
    (hdocs : ∀ doc ∈ docs, Readable doc) : Suits "data" v := by
  refine ⟨by decide, by simp, fun _ => ?_⟩
  rcases h with rfl | ⟨old, hold, hmerge⟩
  · exact ⟨u.data, hu.names, rfl⟩
  · obtain ⟨data, hnodup, rfl⟩ := hold.textMap hdocs
    rw [merge_textMapValue] at hmerge
    exact ⟨merged data u.data, nodup_merged hnodup _, (Except.ok.inj hmerge).symm⟩

theorem mem_told {e : String × Value} (h : e ∈ told u) :
    (e.1 = u.field ∨ e.1 = "message") ∧ ∃ t, e.2 = .text t := by
  unfold told at h
  split_ifs at h
  · rw [List.mem_singleton] at h
    subst h
    exact ⟨.inl rfl, u.value, rfl⟩
  · rcases mem_putEntry h with rfl | h
    · exact ⟨.inr rfl, _, rfl⟩
    · rw [List.mem_singleton] at h
      subst h
      exact ⟨.inl rfl, u.value, rfl⟩

/-- A change that sets neither the code nor the data by name leaves a document readable. -/
theorem Readable.amended {doc' : Value} (h : Readable doc) (hu : u.Harmless)
    (hdocs : ∀ doc ∈ docs, Readable doc) (hsets : Sets docs u sets)
    (hamend : amend (.record [("$set", .record sets)]) doc = .ok () doc') : Readable doc' := by
  obtain ⟨entries, rfl⟩ := h.eq_map
  have hvals : ∀ e ∈ sets, ((e.1 = u.field ∨ e.1 = "message") ∧ ∃ t, e.2 = .text t) ∨
      e.1 = "data" ∧ Suits "data" e.2 := by
    intro e he
    rcases hsets with rfl | ⟨data, hdata, rfl⟩
    · exact .inl (mem_told he)
    · rcases mem_putEntry he with rfl | he
      · exact .inr ⟨rfl, hdata.suits hu hdocs⟩
      · exact .inl (mem_told he)
  obtain ⟨w, rest, rfl, hrest⟩ := hsets.headed
  rw [List.forall_mem_cons] at hvals
  obtain ⟨t, rfl⟩ : ∃ t, w = .text t := by
    rcases hvals.1 with ⟨-, ht⟩ | ⟨hfld, -⟩
    · exact ht
    · exact absurd hfld hu.field_ne_data
  have hsuits : ∀ e ∈ rest, Suits e.1 e.2 := by
    intro e he
    rcases hvals.2 e he with ⟨hname, t, ht⟩ | ⟨hname, hsuits⟩
    · refine ⟨?_, fun _ => ⟨t, ht⟩, ?_⟩
      · rcases hrest e he with hname | hname <;> simp [hname]
      · intro hdata
        rcases hname with hname | hname
        · exact absurd (hname.symm.trans hdata) hu.field_ne_data
        · rw [hname] at hdata
          simp at hdata
    · rw [hname]
      exact hsuits
  rcases amend_set_cons u.field (.text t) (split_of_rest hrest) entries with
    ⟨f, hrun⟩ | ⟨first, path, inner, hpath, hinner, hrun⟩
  · rw [hrun] at hamend
    cases hamend
  · rw [hrun] at hamend
    cases hamend
    have hcode : first ≠ "code" := fun heq => hu.code (by rw [hpath, heq]; rfl)
    have hdata : first ≠ "data" := fun heq => hu.data (by rw [hpath, heq]; rfl)
    exact (h.putAt hcode hdata hinner).putAll hsuits

end SheetMill.Database.Tasks
