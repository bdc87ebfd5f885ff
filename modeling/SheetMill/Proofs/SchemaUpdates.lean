import SheetMill.Proofs.SchemaCalls

/-!
# Taking an update back

An update keeps the schema that it replaces as a release, bare and without the time of its creation.
Taking a release back looks for a schema within it. So no update is ever undone: the removal fails,
or a part of the earlier schema becomes the active one.
-/

namespace SheetMill.Database.Schemas

open Act Value Documents List

variable {s s' : State} {name : String} {entries : List (Value × Value)} {before after : Documents}
  {items : List Value} {req answer createdAt last : Value} {hist : Stacks} {active : Value}
  {schema : List (Value × Value)}

theorem represents_nil : Represents [] fun _ => [] := ⟨by simp, fun _ => rfl⟩

/-- A schema is higher than what is taken for the schema within it. -/
theorem inner_ne {w : Value} (h : inner schema = .ok w) : w ≠ .map schema := by
  obtain ⟨v, hitem, hcopied⟩ := Outcome.bind_eq_ok.mp h
  have hcopy : w = v := by
    unfold copied at hcopied
    split at hcopied <;> cases hcopied <;> rfl
  have hlower := height_lt_of_field? (item_eq_ok.mp hitem)
  rintro rfl
  rw [hcopy] at hlower
  exact lt_irrefl _ hlower

theorem lift_eq_ok {α σ : Type} {r : Outcome α} {a : α} {s s' : σ}
    (h : (liftM r : Act σ α) s = .ok a s') : r = .ok a ∧ s = s' := by
  cases r <;> cases h
  exact ⟨rfl, rfl⟩

theorem handle_eq_ok {α σ : Type} {act : Act σ α} {handler : Fault → α} {a : α} {s s' : σ}
    (h : (act.handle fun f => return handler f) s = .ok a s') :
    act s = .ok a s' ∨ ∃ f, a = handler f := by
  cases hrun : act s with
  | ok b s1 => exact .inl ((handle_of_ok hrun).symm.trans h)
  | error f s1 =>
    cases hf : f.isOrdinary with
    | true =>
      rw [handle_of_error hrun hf] at h
      cases h
      exact .inr ⟨f, rfl⟩
    | false =>
      rw [handle_of_stop hrun hf] at h
      cases h

theorem length_of_sameItems : ∀ {xs ys : List Value}, sameItems xs ys = true → xs.length = ys.length
  | [], [], _ => rfl
  | x :: xs, y :: ys, h => by
    rw [sameItems, Bool.and_eq_true] at h
    simp [length_of_sameItems h.2]

theorem findEntry_marked (k : Value) (entries : List (Value × Value)) :
    findEntry k (markedEntries entries) = (findEntry k entries).map marked := by
  induction entries with
  | nil => rfl
  | cons e rest ih =>
    simp only [markedEntries, findEntry]
    grind

theorem same_of_sameEntries {k v : Value} {fs : List (Value × Value)} :
    ∀ {es : List (Value × Value)}, sameEntries es fs = true → (k, v) ∈ es →
      ∃ w, findEntry k fs = some w ∧ v.same w = true
  | (k', v') :: rest, h, hmem => by
    rw [sameEntries, Bool.and_eq_true] at h
    rcases mem_cons.mp hmem with heq | hmem
    · cases heq
      cases hfound : findEntry k fs with
      | none => simp [hfound] at h
      | some w => exact ⟨w, rfl, by simpa [hfound] using h.1⟩
    · exact same_of_sameEntries h.2 hmem

/-- A release that is pushed changes the document, whatever the new schema is. -/
theorem keeps_pushing
    (hrels : (Value.map entries).field? "schemas_releases" = some (.list items))
    (schema createdAt release : Value) :
    keeps (pushing schema createdAt release) (.map entries) = false := by
  have hmarked : findEntry (.text "schemas_releases") (markedEntries entries) =
      some (.list (markedItems items)) := by
    rw [findEntry_marked, ← field?_map, hrels]
    rfl
  have hamend := amend_push (congrArg (·.getD (.list [])) hmarked) schema createdAt release
  rw [keeps, marked, outcome_of_ok hamend, ← Bool.not_eq_true, same, Bool.and_eq_true]
  rintro ⟨-, hsame⟩
  obtain ⟨w, hw, hlist⟩ := same_of_sameEntries hsame
    (mem_of_findEntry ((findEntry_setEntry _ _ _ _).trans (if_pos rfl)))
  cases hmarked.symm.trans hw
  simpa using length_of_sameItems hlist

theorem updateOne_pushing (hs : s.Calm) (hmaps : AllMaps (s.documents collection))
    (hfst : First name (s.documents collection) before entries after)
    (hrels : (Value.map entries).field? "schemas_releases" = some (.list items))
    (schema createdAt release : Value) :
    updateOne collection (ofImport (.text name)) (pushing schema createdAt release) s =
      .ok ⟨1, 1⟩ (s.withDocuments collection
        (before ++ .map (reissued schema createdAt (items ++ [release]) entries) :: after)) := by
  refine within_calm hs ((update_eq_amend hmaps hfst _).trans ?_)
  rw [amend_push (congrArg (·.getD (.list [])) hrels), keeps_pushing hrels]
  rfl

theorem exchange_other {schema : Value} (hsch : req.field? "schema" = some schema)
    (hmade : req.field? "created_at" = some createdAt)
    (hother : compare active schema = false)
    (hwrite : updateOne collection (ofImport (.text name)) (pushing schema createdAt active) s =
      .ok ⟨1, 1⟩ s') :
    exchange (.text name) req active s = .ok (change "updated" (updated ⟨1, 1⟩)) s' := by
  refine (bind_known (item_of_field? hsch)).trans ?_
  rw [hother]
  refine handle_of_ok ((bind_known (item_of_field? hsch)).trans ?_)
  exact (bind_known (item_of_field? hmade)).trans (bind_of_ok hwrite)

theorem exchange_run (hs : s.Calm) (hmaps : AllMaps (s.documents collection))
    (hfst : First name (s.documents collection) before entries after)
    (hrels : (Value.map entries).field? "schemas_releases" = some (.list items))
    (hexch : exchange (.text name) req active s = .ok answer s')
    (hstat : answer.field? "status" = some (.text "updated")) :
    ∃ schema createdAt, req.field? "created_at" = some createdAt ∧
      s' = s.withDocuments collection
        (before ++ .map (reissued schema createdAt (items ++ [active]) entries) :: after) := by
  unfold exchange at hexch
  obtain ⟨schema, s1, hsch, hexch⟩ := bind_eq_ok hexch
  obtain ⟨-, rfl⟩ := lift_eq_ok hsch
  split at hexch
  · cases hexch
    simp [change, lookup] at hstat
  · rcases handle_eq_ok hexch with hwork | ⟨f, rfl⟩
    · obtain ⟨schema, s1, hsch, hwork⟩ := bind_eq_ok hwork
      obtain ⟨-, rfl⟩ := lift_eq_ok hsch
      obtain ⟨createdAt, s1, hmade, hwork⟩ := bind_eq_ok hwork
      obtain ⟨hitem, rfl⟩ := lift_eq_ok hmade
      have hwrite := updateOne_pushing hs hmaps hfst hrels schema createdAt active
      cases (bind_of_ok hwrite).symm.trans hwork
      exact ⟨schema, createdAt, item_eq_ok.mp hitem, rfl⟩
    · simp [change, lookup] at hstat

section Undoing

variable (hs : s.Calm) (h : Represents (s.documents collection) hist)
  (hname : IsOf req name)

include hs h hname

theorem update_run (hupd : update req s = .ok answer s')
    (hstat : answer.field? "status" = some (.text "updated")) :
    ∃ top earlier before entries after schema createdAt,
      First name (s.documents collection) before entries after ∧ Holds (.map entries) top earlier ∧
      documentsOf name (before ++ after) = [] ∧ req.field? "created_at" = some createdAt ∧
      s'.Calm ∧ s'.documents collection = before ++ .map (reissued schema createdAt
        (earlier.reverse.map Version.release ++ [.map top.schema]) entries) :: after := by
  cases hstack : hist name with
  | nil =>
    have hshows := h.shows name
    rw [hstack] at hshows
    rw [update_absent hname (find_inactive hs h.allMaps (not_active_of_none hshows))] at hupd
    cases hupd
    simp [change, lookup] at hstat
  | cons top earlier =>
    obtain ⟨before, entries, after, hfst, hholds, hnone, hact⟩ := h.active hstack
    have hread : (reread s).Calm := hs
    have hdocs := documents_reread s
    rw [update_eq_exchange hname hholds.schema (find_active hs h.allMaps hact)] at hupd
    obtain ⟨schema, createdAt, hmade, rfl⟩ := exchange_run hread (hdocs.symm ▸ h.allMaps)
      (hdocs.symm ▸ hfst) hholds.releases hupd hstat
    exact ⟨top, earlier, before, entries, after, schema, createdAt, hfst, hholds, hnone, hmade,
      hread, documents_withDocuments _ _ _⟩

/-- A schema that is not the same as the active one replaces it. -/
theorem update_step {schema : Value} {top : Version} {earlier : List Version}
    (hsch : req.field? "schema" = some schema)
    (hmade : req.field? "created_at" = some createdAt)
    (hstack : hist name = top :: earlier) (hother : compare (.map top.schema) schema = false) :
    ∃ s', update req s = .ok (change "updated" (updated ⟨1, 1⟩)) s' := by
  obtain ⟨before, entries, after, hfst, hholds, -, hact⟩ := h.active hstack
  have hread : (reread s).Calm := hs
  have hdocs := documents_reread s
  have hwrite := updateOne_pushing hread (hdocs.symm ▸ h.allMaps) (hdocs.symm ▸ hfst)
    hholds.releases schema createdAt (.map top.schema)
  exact ⟨_, (update_eq_exchange hname hholds.schema (find_active hs h.allMaps hact)).trans
    (exchange_other hsch hmade hother hwrite)⟩

end Undoing

/-- A removal whose last release is a bare schema. -/
theorem delete_bare (hs : s.Calm) (hmaps : AllMaps (s.documents collection))
    (hfst : First name (s.documents collection) before
      (reissued active createdAt (items ++ [.map schema]) entries) after)
    (hname : IsOf req name) :
    match inner schema with
    | .error f => delete req s = .error f (reread s)
    | .ok w => ∃ reply s' new, delete req s = .ok reply s' ∧
        reply.field? "status" = some (.text "reverted") ∧
        s'.documents collection = before ++ new :: after ∧
        IsOf new name ∧ new.field? "active_schema" = some w ∧
        new.field? "created_at" =
          some (((Value.map schema).field? "created_at").getD createdAt) := by
  have hread : (reread s).Calm := hs
  have hdocs := documents_reread s
  have hrels : (Value.map (reissued active createdAt (items ++ [.map schema]) entries)).field?
      "schemas_releases" =
        some (.list (items ++ [.map schema])) := by
    simp [findEntry_setEntry]
  have hprev := previous_last hrels
    (by simp [activated, findEntry_setEntry] : _ = some createdAt)
  rw [delete_eq_revert hname (find_active hs hmaps
    ⟨hfst.find?, active, by simp [activated, findEntry_setEntry]⟩)]
  cases hinner : inner schema with
  | error f =>
    rw [hinner] at hprev
    exact bind_of_error (lift_of_error hprev _)
  | ok w =>
    rw [hinner] at hprev
    obtain ⟨report, hreport⟩ := revert_some hread (hdocs.symm ▸ hmaps) (hdocs.symm ▸ hfst)
      hrels hprev
    refine ⟨_, _, _, hreport, rfl, documents_withDocuments _ _ _,
      importName_activated hfst.importName, ?_, ?_⟩
    · simp [activated, findEntry_setEntry]
    · simp [activated, findEntry_setEntry]

/-- From an empty collection and after any requests, a removal that follows an update does not bring
the schema back that was active: it fails with the schemas as the update left them, or it makes a
part of that schema the active one, with the time of the update unless the schema has a time. -/
theorem update_never_undone {rs : List Request} {cs : List Change} {answers : List Value}
    {s0 s s' : State} {request request' answer : Value} {name : String} (hs : s0.Calm)
    (hempty : s0.documents collection = []) (hasks : List.Forall₂ Asks rs cs)
    (hruns : rs.mapM Request.run s0 = .ok answers s)
    (hname : request.field? "import_name" = some (.text name))
    (hupdate : update request s = .ok answer s')
    (hstatus : answer.field? "status" = some (.text "updated"))
    (hname' : request'.field? "import_name" = some (.text name)) :
    ∃ old schema createdAt, documentsOf name (s.documents collection) = [old] ∧
      old.field? "active_schema" = some (.map schema) ∧
      request.field? "created_at" = some createdAt ∧
      match inner schema with
      | .error f => ∃ s'', delete request' s' = .error f s'' ∧
          s''.documents collection = s'.documents collection
      | .ok w => w ≠ .map schema ∧ ∃ reply s'' new, delete request' s' = .ok reply s'' ∧
          reply.field? "status" = some (.text "reverted") ∧
          documentsOf name (s''.documents collection) = [new] ∧
          new.field? "active_schema" = some w ∧
          new.field? "created_at" =
            some (((Value.map schema).field? "created_at").getD createdAt) := by
  obtain ⟨_, _, hruns', hs, hrepresents, -⟩ := run_all hs (hempty ▸ represents_nil) hasks
  cases hruns.symm.trans hruns'
  obtain ⟨top, earlier, before, entries, after, schema, createdAt, hfirst, hholds, hnone, hcreated,
    hs', hdocs⟩ := update_run hs hrepresents hname hupdate hstatus
  have hmaps : AllMaps (s'.documents collection) := by
    have hold := hrepresents.allMaps
    rw [hfirst.eq] at hold
    rw [hdocs]
    exact forall_mem_split.mpr ⟨⟨_, rfl⟩, (forall_mem_split.mp hold).2⟩
  have hfirst' : First name (s'.documents collection) before _ after :=
    ⟨hdocs, meets_named.mpr (importName_activated hfirst.importName), hfirst.first⟩
  have hbare := delete_bare hs' hmaps hfirst' hname'
  refine ⟨.map entries, top.schema, createdAt, ?_, hholds.schema, hcreated, ?_⟩
  · rw [hfirst.eq, documentsOf_split hnone hfirst.importName]
  cases hinner : inner top.schema with
  | error f =>
    rw [hinner] at hbare
    exact ⟨_, hbare, documents_reread s'⟩
  | ok w =>
    rw [hinner] at hbare
    obtain ⟨reply, s'', new, hdelete, hreverted, hdocs', hnew, hactive, hcreatedAt⟩ := hbare
    refine ⟨inner_ne hinner, reply, s'', new, hdelete, hreverted, ?_, hactive, hcreatedAt⟩
    rw [hdocs', documentsOf_split hnone hnew]

/-- A request to replace the schema of the orders. -/
def renewOrder : Value :=
  .record [("import_name", .text "orders"), ("created_at", .text "July"),
    ("schema", .record [("type", .text "object")])]

theorem update_never_undone_order :
    ∃ answers s answer s' s'',
      [Request.insert (storeOrder "3" "May")].mapM Request.run {} = .ok answers s ∧
      update renewOrder s = .ok answer s' ∧ answer.field? "status" = some (.text "updated") ∧
      delete takeOrderBack s' = .error (.missingKey (.text "schema")) s'' ∧
      s''.documents collection = s'.documents collection := by
  have hthree : parseProperties (orderProperties "3") = .ok (orderParsed 3) := by cbv
  have hasks : List.Forall₂ Asks [.insert (storeOrder "3" "May")]
      [.push "orders" (orderVersion 3 "May")] :=
    .cons (.insert (isInsertion_storeOrder hthree "May")) .nil
  have hstart : Represents (({} : State).documents collection) fun _ => [] := represents_nil
  have hcalm : ({} : State).Calm := rfl
  have hback : takeOrderBack.field? "import_name" = some (.text "orders") := rfl
  obtain ⟨answers, s, hruns, hs, hrepresents, -⟩ := run_all hcalm hstart hasks
  have hname : renewOrder.field? "import_name" = some (.text "orders") := rfl
  have hschema : renewOrder.field? "schema" = some (.record [("type", .text "object")]) := rfl
  have hstack : applyAll (fun _ => []) [.push "orders" (orderVersion 3 "May")] "orders" =
      [orderVersion 3 "May"] := by cbv
  obtain ⟨s', hupdate⟩ := update_step hs hrepresents hname hschema rfl hstack (by cbv)
  obtain ⟨old, schema, createdAt, hold, hschema, -, hundone⟩ :=
    update_never_undone hcalm rfl hasks hruns hname hupdate rfl hback
  obtain ⟨doc, hdoc, hholds⟩ := hrepresents.shows "orders"
  cases hold.symm.trans hdoc
  cases hschema.symm.trans hholds.schema
  obtain ⟨s'', hdelete, hsame⟩ := hundone
  exact ⟨answers, s, _, s', s'', hruns, hupdate, rfl, hdelete, hsame⟩

end SheetMill.Database.Schemas
