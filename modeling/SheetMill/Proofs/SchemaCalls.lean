import SheetMill.Proofs.SchemaHistory
import SheetMill.Proofs.ServiceCalls

/-!
# Calls about schemas

Three answers of the service do not fit into a message: that to a first schema, whose details have a
truth value, and those to a removal and to a return to an earlier release, whose details have
numbers. Such a call fails after the schemas have been changed. The schema of an import is not found
either: its whole document is taken for it.
-/

namespace SheetMill.Database.Schemas

open Act Value Message Documents Outcome
open Service (Ready Tries Serves Ending)

variable {s s₀ : State} {name : String} {es : List (Value × Value)}
  {req active prepared : Value}

/-! ## Calls -/

inductive Call where
  | insert (request : InsertSchemaRequest)
  | find (request : ImportRequest)
  | update (request : UpdateSchemaRequest)
  | delete (request : ImportRequest)
  | deleteImport (request : ImportRequest)

namespace Call

def Answer : Call → Type
  | insert _ | update _ => SchemaChange
  | find _ => FindSchemaResponse
  | delete _ | deleteImport _ => SchemaRemoval

def service : Call → Work Value
  | insert req => do Schemas.insert (← req.toValue)
  | find req => Schemas.find req.toValue
  | update req => do Schemas.update (← req.toValue)
  | delete req => Schemas.delete req.toValue
  | deleteImport req => Schemas.deleteImport req.toValue

def read : (c : Call) → Value → Outcome c.Answer
  | insert _ | update _ => SchemaChange.ofValue
  | find _ => FindSchemaResponse.ofValue
  | delete _ | deleteImport _ => SchemaRemoval.ofValue

def run (pols : Policies) (peer : String) : (c : Call) → Work c.Answer
  | insert req => Service.insertSchema pols peer req
  | find req => Service.findSchema pols peer req
  | update req => Service.updateSchema pols peer req
  | delete req => Service.deleteSchema pols peer req
  | deleteImport req => Service.deleteImport pols peer req

/-- The call gives the answer of the service, or it fails and leaves the schemas as they were. -/
def Honest (pols : Policies) (peer : String) (s : State) (c : Call) : Prop :=
  (∃ s₀ v s₁ a s', Ready s s₀ ∧ c.service s₀ = .ok v s₁ ∧ c.read v = .ok a ∧
    c.run pols peer s = .ok a s' ∧ s'.documents collection = s₁.documents collection) ∨
  ∃ f s', c.run pols peer s = .error f s' ∧ s'.documents collection = s.documents collection

/-- The service changes the schemas and gives an answer that does not fit into a message. -/
def Loses (s : State) (c : Call) : Prop :=
  Serves s c.service
    (fun v docs => (∃ f, c.read v = .error f) ∧ docs ≠ s.documents collection) False

/-- The service gives an answer that fits unless nothing was changed, or it fails and has changed
nothing. -/
def Keeps (s : State) (c : Call) : Prop :=
  Serves s c.service (fun v docs => (∃ a, c.read v = .ok a) ∨ docs = s.documents collection) True

variable {c : Call}

theorem ending {Q : Value → Documents → Prop} {C : Prop} (hs : s.Calm) (h : Serves s c.service Q C)
    (pols : Policies) (peer : String) :
    Ending pols s Q C c.read (c.run pols peer) := by
  cases c with
  | find req => exact Service.ending_tell hs h pols _ _ _ _ _
  | delete req => exact Service.ending_tell hs h pols _ _ _ _ _
  | deleteImport req => exact Service.ending_tell hs h pols _ _ _ _ _
  | insert req => exact Service.ending_request hs h pols _ _ _ _ _
  | update req => exact Service.ending_request hs h pols _ _ _ _ _

theorem Loses.fails {pols : Policies} (h : c.Loses s) (hs : s.Calm) (htries : Tries pols)
    (peer : String) :
    ∃ f s', c.run pols peer s = .error f s' ∧
      s'.documents collection ≠ s.documents collection := by
  rcases (ending hs h pols peer).cases with
    ⟨a, s', -, v, hread, ⟨f, hunread⟩, -⟩ | ⟨f, s', hrun, ⟨v, -, -, hchanged⟩ | ⟨hcause, -⟩⟩
  · cases hread.symm.trans hunread
  · exact ⟨f, s', hrun, hchanged⟩
  · exact (hcause.resolve_left (not_not.mpr htries)).elim

theorem Keeps.honest (h : c.Keeps s) (hs : s.Calm) (pols : Policies) (peer : String) :
    c.Honest pols peer s := by
  rcases (ending hs (Serves.answered h) pols peer).cases with
    ⟨a, s', hrun, v, hread, -, s₀, s₁, hs0, hans, hdocs⟩ |
    ⟨f, s', hrun, ⟨v, hunread, hfits, -⟩ | ⟨-, hdocs⟩⟩
  · exact .inl ⟨s₀, v, s₁, a, s', hs0, hans, hread, hrun, hdocs⟩
  · rcases hfits with ⟨a, hread⟩ | hsame
    · cases hread.symm.trans hunread
    · exact .inr ⟨f, s', hrun, hsame⟩
  · exact .inr ⟨f, s', hrun, hdocs⟩

end Call

/-- The documents are maps, and where the releases of one are a map, its keys are names. -/
def Shelved (docs : Documents) : Prop :=
  ∀ doc ∈ docs, ∃ es, doc = .map es ∧
    ∀ inner, findEntry (.text "schemas_releases") es = some (.map inner) →
      ∃ fs, map inner = .record fs

theorem Shelved.allMaps {docs : Documents} (h : Shelved docs) : AllMaps docs := by
  intro doc hdoc
  obtain ⟨es, rfl, -⟩ := h doc hdoc
  exact ⟨es, rfl⟩

theorem ready_reread (h : Ready s s₀) : Ready s (reread s₀) :=
  ⟨h.calm, (documents_reread s₀).trans h.documents⟩

/-! ## Replacing -/

def Fits (v : Value) : Prop := ∃ a, SchemaChange.ofValue v = .ok a

theorem fits_message (status text : String) : Fits (change status [("message", .text text)]) :=
  ⟨_, rfl⟩

theorem fits_updated (report : UpdateReport) : Fits (change "updated" (updated report)) := ⟨_, rfl⟩

/-- The work gives an answer that fits, or it fails and has changed nothing. -/
def Settles (s : State) (work : Work Value) (s₀ : State) : Prop :=
  work.Ends s₀ (fun v _ => Fits v) fun _ s₁ => Ready s s₁

theorem settles_handle {work : Work Value} {text : Fault → String}
    (h : work.Ends s₀ (fun v _ => Fits v) fun f s₁ => f.isOrdinary = true ∨ Ready s s₁) :
    Settles s (work.handle fun f => return change "error" [("message", .text (text f))]) s₀ :=
  .handle (h.mono (fun _ _ hv => hv) fun _ _ hf =>
    -- A req to stop is not handled, so it must not have come after a change.
    ⟨fun _ => fits_message _ _, fun hstop => hf.resolve_left (by simp [hstop])⟩)

theorem Call.keeps_of_settles {c : Call} (hread : ∀ v, Fits v → ∃ a, c.read v = .ok a)
    (h : ∀ s₀, Ready s s₀ → Settles s c.service s₀) : c.Keeps s :=
  fun s₀ hs0 => (h s₀ hs0).mono (fun v _ hv => .inl (hread v hv)) fun _ _ hs1 => ⟨trivial, hs1⟩

theorem update_eq_exchange (hreq : IsOf req name)
    (hactive : (map es).field? "active_schema" = some active)
    (hfind : find (ofImport (.text name)) s = .ok (findAnswer "found" (.map es)) (reread s)) :
    update req s = exchange (.text name) req active (reread s) := by
  refine (bind_found hreq hfind _).trans ?_
  exact bind_known (item_of_field? hactive)

theorem update_absent (hreq : IsOf req name)
    (hfind : find (ofImport (.text name)) s = .ok (findAnswer "not_found" .null) (reread s)) :
    update req s = .ok (change "error" [("message",
      .text ("Schema with import_name '" ++ name ++ "' not found"))]) (reread s) := by
  exact bind_found hreq hfind _

/-! ## Storing -/

theorem releasing_eq_ok {document importName u : Value}
    (h : releasing req document = .ok (importName, u)) :
    req.field? "import_name" = some importName ∧
      ∃ schema createdAt release, u = pushing schema createdAt release := by
  simp only [releasing, Outcome.bind_eq_ok] at h
  obtain ⟨_, -, schema, -, createdAt, -, _, -, released, -, releasedAt, -, name, hname, h⟩ := h
  cases h
  exact ⟨item_eq_ok.mp hname, schema, createdAt, _, rfl⟩

theorem assign_eq_ok {v w new : Value} {field : String} (h : assign v field new = .ok w) :
    ∃ es, v = .map es ∧ w = .map (setEntry (.text field) new es) := by
  unfold assign at h
  split at h
  · cases h
    exact ⟨_, rfl, rfl⟩
  · cases h

theorem prepare_eq_ok (h : prepare req = .ok (prepared, active)) :
    ∃ es, prepared = .map es ∧
      prepared.field? "import_name" = req.field? "import_name" := by
  simp only [prepare, Outcome.bind_eq_ok] at h
  obtain ⟨_, -, _, -, _, -, _, -, _, hactive, _, -, _, -, _, -, _, hrels, h⟩ := h
  cases h
  obtain ⟨fs, rfl, rfl⟩ := assign_eq_ok hactive
  obtain ⟨fields', hflds, rfl⟩ := assign_eq_ok hrels
  cases hflds
  exact ⟨_, rfl, by simp [findEntry_setEntry]⟩

/-- What is stored for a request, and its schema. -/
def storedBy (req : InsertSchemaRequest) : Outcome (Value × Value) := do
  prepare (← req.toValue)

theorem service_insert (req : InsertSchemaRequest) :
    (Call.insert req).service = (do
      let (prepared, active) ← storedBy req
      file prepared active : Work Value) := by
  simp only [Call.service, Schemas.insert, storedBy, lift_bind, bind_assoc]

theorem storedBy_eq_ok {req : InsertSchemaRequest}
    (h : storedBy req = .ok (prepared, active)) :
    ∃ es, prepared = .map es ∧
      IsOf prepared req.importName := by
  obtain ⟨v, hval, hprep⟩ := bind_eq_ok.mp h
  obtain ⟨es, hents, hname⟩ := prepare_eq_ok hprep
  obtain ⟨_, -, hval⟩ := bind_eq_ok.mp hval
  obtain ⟨_, -, hval⟩ := bind_eq_ok.mp hval
  cases hval
  exact ⟨es, hents, hname⟩

/-! ## Removing -/

theorem removal_unread (msg status : String) (n : Nat) :
    ∃ f, SchemaRemoval.ofValue (removal true msg status (removalReport n)) = .error f := ⟨_, rfl⟩

theorem at_record (fs : List (String × Value)) (i : Int) :
    (record fs).at_ i = .error (.missingKey (.int i)) := by
  have hnone : findEntry (.int i) (fs.map (named id)) = none := by
    induction fs with
    | nil => rfl
    | cons entry fs ih =>
      have hne : sameScalar (.text entry.1) (.int i) = false := by simp [sameScalar, asInt?]
      simpa [findEntry, named, hne] using ih
  have hrec : record fs = .map (fs.map (named id)) := rfl
  simp only [hrec, at_, hnone]

/-- Only a list has a last item with a schema, since a map by names has no item at a number. -/
theorem eq_append_of_last {releases last w : Value}
    (hinner : ∀ inner, releases = .map inner → ∃ fs, map inner = .record fs)
    (hlast : releases.at_ (-1) = .ok last) (hsch : last.item "schema" = .ok w) :
    ∃ items, releases = .list (items ++ [last]) := by
  cases releases with
  | list xs =>
    rcases List.eq_nil_or_concat xs with rfl | ⟨items, v, rfl⟩
    · simp [at_, position?] at hlast
    · rw [List.concat_eq_append, at_last] at hlast
      cases hlast
      exact ⟨items, by rw [List.concat_eq_append]⟩
  | text t =>
    simp only [at_] at hlast
    split at hlast
    · cases hlast
      cases hsch
    · cases hlast
  | bytes octets =>
    simp only [at_] at hlast
    split at hlast
    · cases hlast
      cases hsch
    · cases hlast
  | map inner =>
    obtain ⟨fs, hflds⟩ := hinner inner rfl
    rw [hflds, at_record] at hlast
    cases hlast
  | _ => cases hlast

/-- Only a list of releases has a schema to bring back. -/
theorem previous_eq_some {schema createdAt : Value}
    (hinner : ∀ inner, findEntry (.text "schemas_releases") es = some (.map inner) →
      ∃ fs, map inner = .record fs)
    (h : previous (.map es) = .ok (some (schema, createdAt))) :
    ∃ items last, findEntry (.text "schemas_releases") es = some (.list (items ++ [last])) := by
  obtain ⟨releases, hrels, h⟩ := bind_eq_ok.mp h
  cases hfound : findEntry (.text "schemas_releases") es with
  | none =>
    simp only [getD, hfound] at hrels
    cases hrels
    cases h
  | some found =>
    simp only [getD, hfound, Option.getD_some] at hrels
    cases hrels
    cases htruthy : releases.truthy with
    | false =>
      simp only [htruthy, Bool.not_false, if_true] at h
      cases h
    | true =>
      simp only [htruthy, Bool.not_true, Bool.false_eq_true, if_false] at h
      obtain ⟨last, hlast, h⟩ := bind_eq_ok.mp h
      obtain ⟨w, hsch, -⟩ := bind_eq_ok.mp h
      obtain ⟨items, rfl⟩ := eq_append_of_last
        (fun inner hmap => hinner inner (by rw [hfound, hmap])) hlast hsch
      exact ⟨items, last, rfl⟩

/-- A document with one release less is another one. -/
theorem popped_ne {before after : Documents} {items : List Value} {last schema createdAt : Value}
    (hrels : findEntry (.text "schemas_releases") es = some (.list (items ++ [last]))) :
    before ++ .map (reissued schema createdAt (items ++ [last]).dropLast es) :: after ≠
      before ++ .map es :: after := by
  intro hsame
  have hents := List.head_eq_of_cons_eq (List.append_cancel_left hsame)
  have hfound := congrArg (fun doc => doc.field? "schemas_releases") hents
  simp only [field?_map, findEntry_setEntry, if_true, hrels, List.dropLast_concat,
    Option.some.injEq, list.injEq] at hfound
  simpa using congrArg List.length hfound

/-! ## Calls whose change is lost -/

/-- The change that a call asks for is made and lost: a first schema that can be stored, a schema
that can be removed or replaced by its predecessor, or the schemas of an import that has a
document. -/
def Call.Doomed (docs : Documents) : Call → Prop
  | .insert req =>
    (∃ stored, storedBy req = .ok stored) ∧
      ¬ ∃ es, Active docs req.importName es
  | .find _ | .update _ => False
  | .delete req =>
    ∃ es release, Active docs req.importName es ∧
      previous (.map es) = .ok release
  | .deleteImport req => ∃ doc ∈ docs, meets [("import_name", .text req.importName)] doc

/-- Whether the change that a call asks for is lost is known beforehand. -/
def Call.Foreseen (s : State) (c : Call) : Prop :=
  (c.Doomed (s.documents collection) ∧ c.Loses s) ∨
    (¬ c.Doomed (s.documents collection) ∧ c.Keeps s)

/-! ## The service -/

section Service

variable (hmaps : AllMaps (s.documents collection))

include hmaps

section Ready

variable (hs0 : Ready s s₀)

include hs0

theorem find_missing
    (hnone : ¬ ∃ es, Active (s.documents collection) name es) :
    find (ofImport (.text name)) s₀ = .ok (findAnswer "not_found" .null) (reread s₀) :=
  find_inactive hs0.calm (hs0.documents.symm ▸ hmaps) (hs0.documents.symm ▸ hnone)

theorem file_first (hname : IsOf (.map es) name)
    (hnone : ¬ ∃ es, Active (s.documents collection) name es) :
    ∃ id s1 doc, file (.map es) active s₀ =
        .ok (change "inserted" [("acknowledged", .bool true), ("inserted_id", .text id)]) s1 ∧
      s1.documents collection = s.documents collection ++ [doc] := by
  have hread := ready_reread hs0
  obtain ⟨id, s1, hfst, -, hdocs⟩ := insertFirst_run hread.calm es
  rw [hread.documents] at hdocs
  refine ⟨id, s1, _, ?_, hdocs⟩
  rw [file_inactive hs0.calm (hs0.documents.symm ▸ hmaps) hname active
    (hs0.documents.symm ▸ hnone)]
  exact hfst

theorem removeOne_first {before after : Documents} {doc : Value}
    (hdoc : Located (meets [("import_name", .text name)]) (s.documents collection) before doc
      after) :
    removeOne collection (ofImport (.text name)) s₀ =
      .ok 1 (s₀.withDocuments collection (before ++ after)) := by
  refine within_calm hs0.calm ?_
  rw [hs0.documents]
  exact remove_split hmaps hdoc

variable (hactive : Active (s.documents collection) name es)

include hactive

theorem Active.find :
    find (ofImport (.text name)) s₀ = .ok (findAnswer "found" (.map es)) (reread s₀) :=
  find_active hs0.calm (hs0.documents.symm ▸ hmaps) (hs0.documents.symm ▸ hactive)

/-- A refused push has made the new schema active already, but its fault is an ordinary one. -/
theorem Active.push (schema createdAt release : Value) :
    (updateOne collection (ofImport (.text name)) (pushing schema createdAt release)).Ends s₀
      (fun _ _ => True) fun f _ => f.isOrdinary = true := by
  obtain ⟨before, after, hfst⟩ := hactive.split
  rw [← hs0.documents] at hmaps hfst
  by_cases hrels : ∃ items,
      (findEntry (.text "schemas_releases") es).getD (.list []) = .list items
  · obtain ⟨items, hitems⟩ := hrels
    obtain ⟨report, hreport⟩ := updateOne_split hs0.calm hmaps hfst
      (amend_push hitems schema createdAt release)
    exact ends_of_ok hreport trivial
  · exact ends_of_error (updateOne_of_error hs0.calm hmaps hfst
      (amend_unpushed hrels schema createdAt release)) rfl

theorem exchange_settles {schema createdAt : Value}
    (hsch : req.field? "schema" = some schema)
    (hmade : req.field? "created_at" = some createdAt) (active : Value) :
    Settles s (exchange (.text name) req active) s₀ := by
  refine .known (item_of_field? hsch) ?_
  split
  · exact ends_pure (fits_message _ _)
  · refine settles_handle (.known (item_of_field? hsch) (.known (item_of_field? hmade) ?_))
    refine .bind ((hactive.push hmaps hs0 schema createdAt active).mono (fun report s1 _ => ?_)
      fun _ _ hord => .inl hord)
    split
    · exact ends_pure (fits_updated report)
    · exact ends_pure (fits_message _ _)

theorem pushRelease_settles (hname : IsOf req name) :
    Settles s (pushRelease req (.map es)) s₀ := by
  refine settles_handle (.given (fun update hreleasing => ?_) fun _ _ => .inr hs0)
  obtain ⟨importName, u⟩ := update
  obtain ⟨himport, schema, createdAt, release, rfl⟩ := releasing_eq_ok hreleasing
  cases hname.symm.trans himport
  exact .bind ((hactive.push hmaps hs0 schema createdAt release).mono
    (fun report s1 _ => fits_updated report) fun _ _ hord => .inl hord)

theorem file_settles (hname : IsOf prepared name) (schema : Value) :
    Settles s (file prepared schema) s₀ := by
  obtain ⟨active, hw⟩ := hactive.schema
  have hrun := file_active hs0.calm (hs0.documents.symm ▸ hmaps) hname schema
    (hs0.documents.symm ▸ hactive) hw
  refine Ends.of_eq ?_ hrun
  cases compare active schema with
  | true => exact ends_pure (fits_message _ _)
  | false => exact pushRelease_settles hmaps (ready_reread hs0) hactive hname

end Ready

theorem find_keeps (req : ImportRequest) :
    (Call.find req).Keeps s := by
  intro s₀ hs0
  by_cases hactive : ∃ es, Active (s.documents collection) req.importName es
  · obtain ⟨es, hactive⟩ := hactive
    exact ends_of_ok (hactive.find hmaps hs0) (.inr (ready_reread hs0).documents)
  · exact ends_of_ok (find_missing hmaps hs0 hactive) (.inr (ready_reread hs0).documents)

theorem update_keeps (req : UpdateSchemaRequest) :
    (Call.update req).Keeps s := by
  refine Call.keeps_of_settles (fun v hv => hv) fun s₀ hs0 => ?_
  refine .given (fun v hval => ?_) fun _ _ => hs0
  obtain ⟨schema, -, hrec⟩ := bind_eq_ok.mp hval
  cases hrec
  by_cases hactive : ∃ es, Active (s.documents collection) req.importName es
  · obtain ⟨es, hactive⟩ := hactive
    obtain ⟨active, hsch⟩ := hactive.schema
    exact (exchange_settles hmaps (ready_reread hs0) hactive rfl rfl active).of_eq
      (update_eq_exchange rfl hsch (hactive.find hmaps hs0))
  · exact ends_of_ok (update_absent rfl (find_missing hmaps hs0 hactive)) (fits_message _ _)

theorem insert_foreseen (req : InsertSchemaRequest) :
    (Call.insert req).Foreseen s := by
  cases hstored : storedBy req with
  | error f =>
    refine .inr ⟨?_, Call.keeps_of_settles (fun v hv => hv) fun s₀ hs0 => ?_⟩
    · rintro ⟨⟨stored, hok⟩, -⟩
      cases hok.symm.trans hstored
    · rw [service_insert]
      exact ends_of_error (bind_of_error (lift_of_error hstored s₀)) hs0
  | ok stored =>
    obtain ⟨prepared, active⟩ := stored
    have hsvc : ∀ s₀, (Call.insert req).service s₀ = file prepared active s₀ := by
      intro s₀
      rw [service_insert]
      exact bind_known hstored
    obtain ⟨es, rfl, hname⟩ := storedBy_eq_ok hstored
    by_cases hactive : ∃ es, Active (s.documents collection) req.importName es
    · refine .inr ⟨fun hdoomed => hdoomed.2 hactive, ?_⟩
      obtain ⟨doc, hactive⟩ := hactive
      refine Call.keeps_of_settles (fun v hv => hv) fun s₀ hs0 => ?_
      exact (file_settles hmaps hs0 hactive hname active).of_eq (hsvc s₀)
    · refine .inl ⟨⟨⟨_, hstored⟩, hactive⟩, fun s₀ hs0 => ?_⟩
      obtain ⟨id, s1, doc, hfile, hdocs⟩ := file_first hmaps hs0 hname hactive
      refine ends_of_ok ((hsvc s₀).trans hfile) ⟨⟨_, rfl⟩, ?_⟩
      rw [hdocs]
      simp

theorem deleteImport_foreseen (req : ImportRequest) :
    (Call.deleteImport req).Foreseen s := by
  rcases located_or_none (meets [("import_name", .text req.importName)])
    (s.documents collection) with hnone | ⟨before, doc, after, hdoc⟩
  · refine .inr ⟨?_, fun s₀ hs0 => ?_⟩
    · rintro ⟨doc, hdoc, hown⟩
      rw [hnone doc hdoc] at hown
      cases hown
    · have hremove : removeOne collection (ofImport (.text req.importName)) s₀ =
          .ok 0 (reread s₀) := by
        refine within_calm hs0.calm (remove_none ?_ ?_)
        · exact hs0.documents.symm ▸ hmaps
        · exact hs0.documents.symm ▸ hnone
      have hrun : (Call.deleteImport req).service s₀ = .ok (removal false
          ("No schemas found with import_name '" ++ req.importName ++ "'") "error" (.map []))
          (reread s₀) :=
        handle_of_ok ((bind_of_ok (lift_ok _ _)).trans (bind_of_ok hremove))
      exact ends_of_ok hrun (.inr (ready_reread hs0).documents)
  · refine .inl ⟨⟨doc, hdoc.mem, hdoc.found⟩, fun s₀ hs0 => ?_⟩
    have hremove := removeOne_first hmaps hs0 hdoc
    have hrun : (Call.deleteImport req).service s₀ = .ok (removal true
        ("All schemas with import_name '" ++ req.importName ++ "' deleted") "deleted"
        (removalReport 1)) (s₀.withDocuments collection (before ++ after)) :=
      handle_of_ok ((bind_of_ok (lift_ok _ _)).trans (bind_of_ok hremove))
    refine ends_of_ok hrun ⟨removal_unread _ _ 1, ?_⟩
    rw [documents_withDocuments, hdoc.eq]
    simp

end Service

/-- A schema that is taken back is removed or exchanged, and neither report fits. -/
theorem revert_loses {release : Option (Value × Value)}
    (hshelved : Shelved (s.documents collection))
    (hactive : Active (s.documents collection) name es)
    (hprev : previous (.map es) = .ok release) (hs0 : Ready s s₀) :
    (revert (.text name) (.map es)).Ends s₀ (fun v s1 =>
      (∃ f, SchemaRemoval.ofValue v = .error f) ∧
        s1.documents collection ≠ s.documents collection) fun _ s1 => False ∧ Ready s s1 := by
  have hmaps := hshelved.allMaps
  obtain ⟨before, after, hfst⟩ := hactive.split
  refine .known hprev ?_
  cases release with
  | none =>
    have hremove := removeOne_first hmaps hs0 hfst
    refine ends_of_ok (bind_of_ok hremove) ⟨removal_unread _ _ 1, ?_⟩
    rw [hfst.eq]
    simp
  | some version =>
    obtain ⟨schema, createdAt⟩ := version
    obtain ⟨_, hents, hinner⟩ := hshelved (.map es) hfst.mem
    cases hents
    obtain ⟨items, last, hrels⟩ := previous_eq_some hinner hprev
    obtain ⟨report, hreport⟩ := updateOne_split hs0.calm (hs0.documents.symm ▸ hmaps)
      (hs0.documents.symm ▸ hfst) (amend_pop hrels schema createdAt)
    refine ends_of_ok (bind_of_ok hreport) ⟨⟨_, rfl⟩, ?_⟩
    rw [documents_withDocuments, hfst.eq]
    exact popped_ne hrels

theorem delete_foreseen (hshelved : Shelved (s.documents collection)) (req : ImportRequest) :
    (Call.delete req).Foreseen s := by
  have hmaps := hshelved.allMaps
  by_cases hactive : ∃ es, Active (s.documents collection) req.importName es
  · obtain ⟨es, hactive⟩ := hactive
    have hdelete : ∀ s₀, Ready s s₀ → (Call.delete req).service s₀ =
        revert (.text req.importName) (.map es) (reread s₀) := fun s₀ hs0 =>
      delete_eq_revert rfl (hactive.find hmaps hs0)
    cases hprev : previous (.map es) with
    | error f =>
      refine .inr ⟨?_, fun s₀ hs0 => ends_of_error (e := f) ?_ ⟨trivial, ready_reread hs0⟩⟩
      · rintro ⟨entries', release, hactive', hrelease⟩
        cases hactive.first.symm.trans hactive'.first
        cases hprev.symm.trans hrelease
      · rw [hdelete s₀ hs0, revert]
        exact bind_of_error (lift_of_error hprev _)
    | ok release =>
      refine .inl ⟨⟨es, release, hactive, hprev⟩, fun s₀ hs0 => ?_⟩
      exact (revert_loses hshelved hactive hprev (ready_reread hs0)).of_eq (hdelete s₀ hs0)
  · refine .inr ⟨?_,
    fun s₀ hs0 => ends_of_ok (delete_of_missing rfl (find_missing hmaps hs0 hactive))
      (.inr (ready_reread hs0).documents)⟩
    rintro ⟨es, -, hents, -⟩
    exact hactive ⟨es, hents⟩

theorem Call.foreseen (hshelved : Shelved (s.documents collection)) (c : Call) : c.Foreseen s := by
  cases c with
  | insert req => exact insert_foreseen hshelved.allMaps req
  | find req => exact .inr ⟨id, find_keeps hshelved.allMaps req⟩
  | update req => exact .inr ⟨id, update_keeps hshelved.allMaps req⟩
  | delete req => exact delete_foreseen hshelved req
  | deleteImport req => exact deleteImport_foreseen hshelved.allMaps req

/-! ## What is found -/

theorem read_found (es : List (Value × Value)) :
    FindSchemaResponse.ofValue (findAnswer "found" (.map es)) = (do
      let schema ← SchemaRecord.ofValue (.map es)
      return { status := "found", extra := [], schema := some schema }) := by
  have hread : FindSchemaResponse.ofValue (findAnswer "found" (.map es)) = (do
      let schema ← some <$> SchemaRecord.ofValue (.map es)
      return { status := "found", extra := [], schema }) := rfl
  rw [hread]
  cases SchemaRecord.ofValue (.map es) <;> rfl

theorem record_of_missing (h : (map es).field? "schema" = none) :
    SchemaRecord.ofValue (.map es) = .error (.missingKey (.text "schema")) := by
  have hitem : (map es).item "schema" = .error (.missingKey (.text "schema")) := by
    simp only [item, h, partFault]
  unfold SchemaRecord.ofValue
  rw [hitem]
  rfl

section Found

variable {pols : Policies} {req : ImportRequest} {es : List (Value × Value)}
  (hs : s.Calm) (hmaps : AllMaps (s.documents collection)) (htries : Tries pols)
  (hactive : Active (s.documents collection) req.importName es)

include hs hmaps htries hactive

theorem findSchema_run (peer : String) :
    ∃ s', s'.documents collection = s.documents collection ∧
      Service.findSchema pols peer req s =
        match SchemaRecord.ofValue (.map es) with
        | .ok schema => .ok { status := "found", extra := [], schema := some schema } s'
        | .error f => .error f s' := by
  have hserves : Serves s (Call.find req).service (fun v docs =>
      v = findAnswer "found" (.map es) ∧ docs = s.documents collection) False :=
    fun s₀ hs0 => ends_of_ok (hactive.find hmaps hs0) ⟨rfl, (ready_reread hs0).documents⟩
  rcases (Call.ending hs hserves pols peer).cases with
    ⟨a, s', hrun, _, hread, rfl, hdocs⟩ |
    ⟨f, s', hrun, ⟨_, hunread, rfl, hdocs⟩ | ⟨hcause, -⟩⟩
  · obtain ⟨schema, hsch, hread⟩ := bind_eq_ok.mp ((read_found es).symm.trans hread)
    cases hread
    rw [hsch]
    exact ⟨s', hdocs, hrun⟩
  · have hunread := (read_found es).symm.trans hunread
    cases hsch : SchemaRecord.ofValue (.map es) with
    | ok schema =>
      rw [hsch] at hunread
      cases hunread
    | error f =>
      rw [hsch] at hunread
      cases hunread
      exact ⟨s', hdocs, hrun⟩
  · exact (hcause.resolve_left (not_not.mpr htries)).elim

end Found

/-- A call gives the answer of the service, or it fails and leaves the schemas as they were, unless
it stores a first schema or removes something: then the change is made and the call fails. An import
with an active schema is found if and only if its whole document can be read as a schema. -/
theorem calls_honest_unless_doomed (policies : Policies) (htries : Tries policies) (hs : s.Calm)
    (hshelved : Shelved (s.documents collection)) (peer : String) :
    (∀ c : Call, ¬ c.Doomed (s.documents collection) → c.Honest policies peer s) ∧
    (∀ c : Call, c.Doomed (s.documents collection) → ∃ f s', c.run policies peer s = .error f s' ∧
      s'.documents collection ≠ s.documents collection) ∧
    ∀ (request : ImportRequest) (entries : List (Value × Value)),
      Active (s.documents collection) request.importName entries →
        (∀ schema, (∃ s', Service.findSchema policies peer request s =
            .ok { status := "found", extra := [], schema := some schema } s') ↔
          SchemaRecord.ofValue (.map entries) = .ok schema) ∧
        ((Value.map entries).field? "schema" = none →
          ∃ s', Service.findSchema policies peer request s =
              .error (.missingKey (.text "schema")) s' ∧
            s'.documents collection = s.documents collection) := by
  refine ⟨fun c hc => ?_, fun c hc => ?_, fun request entries hactive => ?_⟩
  · rcases c.foreseen hshelved with ⟨hdoomed, -⟩ | ⟨-, hkeeps⟩
    · exact absurd hdoomed hc
    · exact hkeeps.honest hs policies peer
  · rcases c.foreseen hshelved with ⟨-, hloses⟩ | ⟨hdoomed, -⟩
    · exact hloses.fails hs htries peer
    · exact absurd hc hdoomed
  · obtain ⟨s', hdocs, hrun⟩ := findSchema_run hs hshelved.allMaps htries hactive peer
    rw [hrun]
    refine ⟨fun schema => ?_, fun hmissing => ?_⟩
    · cases hschema : SchemaRecord.ofValue (.map entries) with
      | ok found => simp
      | error f => simp
    · rw [record_of_missing hmissing]
      exact ⟨s', rfl, hdocs⟩

def ordersDocument : List (Value × Value) :=
  [(.text "import_name", .text "orders"), (.text "created_at", .text "2024-01-01"),
    (.text "active_schema", .record [("schema", .text "draft"), ("type", .text "object"),
      ("required", .list [.text "amount"]),
      ("properties", .record [("amount", .record [("type", .text "integer")])])]),
    (.text "schemas_releases", .list [])]

def ordersStored : State := ({} : State).withDocuments collection [.map ordersDocument]

theorem calls_honest_unless_doomed_orders :
    (∃ f s', (Call.deleteImport { importName := "orders" }).run {} "" ordersStored = .error f s' ∧
      s'.documents collection ≠ ordersStored.documents collection) ∧
    (∃ s', Service.findSchema {} "" { importName := "orders" } ordersStored =
      .error (.missingKey (.text "schema")) s' ∧
      s'.documents collection = ordersStored.documents collection) ∧
    ∃ active schema, (Value.map ordersDocument).field? "active_schema" = some active ∧
      SchemaRecord.ofValue active = .ok schema := by
  have hshelved : Shelved (ordersStored.documents collection) := by
    intro doc hdoc
    cases List.mem_singleton.mp hdoc
    exact ⟨_, rfl, fun inner hinner => by cases hinner⟩
  have hs : ordersStored.Calm := rfl
  obtain ⟨-, hdoomed, hfound⟩ := calls_honest_unless_doomed {} ⟨4, rfl⟩ hs hshelved ""
  refine ⟨hdoomed (.deleteImport { importName := "orders" }) ⟨_, List.mem_singleton.mpr rfl, rfl⟩,
    (hfound { importName := "orders" } ordersDocument ⟨rfl, _, rfl⟩).2 rfl, _, _, rfl, rfl⟩

end SheetMill.Database.Schemas
