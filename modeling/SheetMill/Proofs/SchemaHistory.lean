import SheetMill.Database.Schemas
import SheetMill.Proofs.Documents

/-!
# The history of schemas

The collection of the schemas represents, for every import, a stack of versions: its document holds
the top as the active schema with the time of its creation, and all that is below as releases, the
latest last; an import with an empty stack has no document.
-/

namespace SheetMill.Database.Schemas

open Act Value Documents List

structure Version where
  schema : List (Value × Value)
  createdAt : Value

def Version.release (v : Version) : Value :=
  .record [("schema", .map v.schema), ("created_at", v.createdAt)]

abbrev Stacks := String → List Version

def documentsOf (name : String) (docs : Documents) : Documents :=
  docs.filter (meets [("import_name", .text name)])

structure Holds (doc : Value) (top : Version) (earlier : List Version) : Prop where
  schema : doc.field? "active_schema" = some (.map top.schema)
  createdAt : doc.field? "created_at" = some top.createdAt
  releases : doc.field? "schemas_releases" = some (.list (earlier.reverse.map Version.release))

/-- What the documents of one import are, by its stack. -/
def Shows (docs : Documents) : List Version → Prop
  | [] => docs = []
  | top :: earlier => ∃ doc, docs = [doc] ∧ Holds doc top earlier

structure Represents (docs : Documents) (histories : Stacks) : Prop where
  named : ∀ doc ∈ docs, ∃ name, doc.field? "import_name" = some (.text name)
  shows : ∀ name, Shows (documentsOf name docs) (histories name)

/-! ## Requests and what they mean -/

inductive Request where
  | insert (request : Value)
  | delete (request : Value)

def Request.run : Request → Work Value
  | insert req => Schemas.insert req
  | delete req => Schemas.delete req

inductive Change where
  | push (name : String) (version : Version)
  | pop (name : String)

def Change.name : Change → String
  | push name _ => name
  | pop name => name

inductive Reply where
  | inserted | unchanged | updated | reverted | deleted | absent
  deriving DecidableEq

def Reply.status : Reply → String
  | inserted => "inserted"
  | unchanged => "no_change"
  | updated => "updated"
  | reverted => "reverted"
  | deleted => "deleted"
  | absent => "error"

/-- Whether the answer says that nothing was changed. -/
def Reply.isIdle : Reply → Bool
  | unchanged | absent => true
  | _ => false

/-- The answer to a change of a stack, and the stack that it leaves. -/
def Change.act : Change → List Version → Reply × List Version
  | push _ version, [] => (.inserted, [version])
  | push _ version, top :: earlier =>
    if compare (.map top.schema) (.map version.schema) then (.unchanged, top :: earlier)
    else (.updated, version :: top :: earlier)
  | pop _, [] => (.absent, [])
  | pop _, [_] => (.deleted, [])
  | pop _, _ :: previous :: earlier => (.reverted, previous :: earlier)

def Change.reply (c : Change) (histories : Stacks) : Reply := (c.act (histories c.name)).1

def Change.apply (c : Change) (histories : Stacks) : Stacks :=
  Function.update histories c.name (c.act (histories c.name)).2

/-- The request is to store a version whose constraints can be read, without releases of its own. -/
structure IsInsertion (request : Value) (name : String) (version : Version) : Prop where
  importName : request.field? "import_name" = some (.text name)
  createdAt : request.field? "created_at" = some version.createdAt
  releases : request.field? "schemas_releases" = some (.list [])
  schema : ∃ entries properties parsed, request.field? "active_schema" = some (.map entries) ∧
    (map entries).field? "properties" = some properties ∧
    parseProperties properties = .ok parsed ∧
    version.schema = setEntry (.text "properties") parsed entries

inductive Asks : Request → Change → Prop where
  | insert {request : Value} {name : String} {version : Version}
      (h : IsInsertion request name version) : Asks (.insert request) (.push name version)
  | delete {request : Value} {name : String}
      (h : request.field? "import_name" = some (.text name)) : Asks (.delete request) (.pop name)

/-! ## The documents of an import -/

variable {docs docs' : Documents} {histories : Stacks} {name : String} {s : State}
  {entries : List (Value × Value)} {req : Value} {earlier : List Version}
  {before after : Documents} {items : List Value} {doc document createdAt : Value}
  {version : Version}

/-- A request or a document is about the import. -/
abbrev IsOf (v : Value) (name : String) : Prop := v.field? "import_name" = some (.text name)

theorem meets_named : meets [("import_name", .text name)] doc = true ↔ IsOf doc name := by
  simp [meets_cons_text]

theorem Represents.allMaps (h : Represents docs histories) : AllMaps docs := by
  intro doc hdoc
  obtain ⟨name, hname⟩ := h.named doc hdoc
  obtain ⟨entries, rfl, -⟩ := eq_map_of_field? hname
  exact ⟨entries, rfl⟩

/-- Documents that changed for one import represent the stacks with that of the import changed. -/
theorem Represents.update (h : Represents docs histories) {stack : List Version}
    (hnamed : ∀ doc ∈ docs', ∃ name, IsOf doc name)
    (hothers : ∀ other, other ≠ name → documentsOf other docs' = documentsOf other docs)
    (hshows : Shows (documentsOf name docs') stack) :
    Represents docs' (Function.update histories name stack) := by
  refine ⟨hnamed, fun other => ?_⟩
  by_cases hother : other = name
  · subst hother
    rw [Function.update_self]
    exact hshows
  · rw [Function.update_of_ne hother, hothers other hother]
    exact h.shows other

/-- A document is seen by no other import than its own. -/
theorem documentsOf_other {other : String} (hne : other ≠ name) (hdoc : IsOf doc name) :
    documentsOf other (before ++ doc :: after) = documentsOf other (before ++ after) := by
  have hfalse : meets [("import_name", .text other)] doc = false := by
    rw [← Bool.not_eq_true, meets_named, IsOf, hdoc]
    simpa using Ne.symm hne
  exact filter_split_of_false hfalse

theorem documentsOf_split (hnone : documentsOf name (before ++ after) = []) (hdoc : IsOf doc name) :
    documentsOf name (before ++ doc :: after) = [doc] :=
  filter_split_of_none hnone (meets_named.mpr hdoc)

/-- The first document of an import stands between others. -/
abbrev First (name : String) (docs before : Documents) (entries : List (Value × Value))
    (after : Documents) : Prop :=
  Located (meets [("import_name", .text name)]) docs before (.map entries) after

theorem First.importName (h : First name docs before entries after) : IsOf (.map entries) name :=
  meets_named.mp h.found

/-! ## Finding the document of an import -/

def findAnswer (status : String) (schema : Value) : Value :=
  .record [("status", .text status), ("extra", .map []), ("schema", schema)]

def reread (s : State) : State := s.reread collection

@[simp] theorem documents_reread (s : State) :
    (reread s).documents collection = s.documents collection := documents_withDocuments s _ _

@[simp] theorem reread_reread (s : State) : reread (reread s) = reread s := by
  simp [reread]

/-- The first document of the import has an active schema. -/
structure Active (docs : Documents) (name : String) (entries : List (Value × Value)) : Prop where
  first : docs.find? (meets [("import_name", .text name)]) = some (.map entries)
  schema : ∃ w, (map entries).field? "active_schema" = some w

theorem Active.split (h : Active docs name entries) :
    ∃ before after, First name docs before entries after := exists_located h.first

theorem not_active_of_none (hnone : documentsOf name docs = []) :
    ¬ ∃ entries, Active docs name entries := by
  rintro ⟨entries, hactive⟩
  have hmem : map entries ∈ documentsOf name docs :=
    mem_filter.mpr ⟨mem_of_find?_eq_some hactive.first, find?_some hactive.first⟩
  rw [hnone] at hmem
  cases hmem

section Finding

variable (hs : s.Calm) (hmaps : AllMaps (s.documents collection))

include hs hmaps

theorem find_first {b : Bool}
    (hfst : First name (s.documents collection) before entries after)
    (hholds : (map entries).holds (.text "active_schema") = .ok b) :
    find (ofImport (.text name)) s =
      .ok (if b then findAnswer "found" (.map entries) else findAnswer "not_found" .null)
        (reread s) := by
  have htruthy : (map entries).truthy = true := truthy_of_field? hfst.importName
  refine handle_of_ok ((bind_of_ok (lift_ok _ _)).trans ?_)
  refine (bind_of_ok (findOne_split hs hmaps hfst)).trans ?_
  simp only [htruthy]
  refine (bind_known hholds).trans ?_
  cases b <;> rfl

theorem find_active (h : Active (s.documents collection) name entries) :
    find (ofImport (.text name)) s = .ok (findAnswer "found" (.map entries)) (reread s) := by
  obtain ⟨before, after, hfst⟩ := h.split
  obtain ⟨w, hw⟩ := h.schema
  rw [field?_map] at hw
  exact find_first hs hmaps (b := true) hfst (by simp [holds, isKey, hw])

theorem find_inactive (hnone : ¬ ∃ entries, Active (s.documents collection) name entries) :
    find (ofImport (.text name)) s = .ok (findAnswer "not_found" .null) (reread s) := by
  rcases located_or_none (meets [("import_name", .text name)]) (s.documents collection) with
    hothers | ⟨before, doc, after, hloc⟩
  · have hfst : (s.documents collection).first? (ofImport (.text name)) = .ok none :=
      first?_none hmaps hothers
    refine handle_of_ok ((bind_of_ok (lift_ok _ _)).trans ?_)
    exact bind_of_ok (findOne_calm hs hfst)
  · obtain ⟨entries, rfl⟩ := hmaps doc hloc.mem
    refine find_first hs hmaps (b := false) hloc ?_
    cases hw : findEntry (.text "active_schema") entries with
    | some w => exact absurd ⟨entries, hloc.find?, w, hw⟩ hnone
    | none => simp [holds, isKey, hw]

theorem countAll_calm :
    countAll .null s = .ok (.record [("amount", .int (s.documents collection).length)])
      (reread s) := by
  have hcnt : (s.documents collection).count (.record []) =
      .ok (s.documents collection).length := by
    have hall : (s.documents collection).filter (meets []) = s.documents collection :=
      filter_eq_self.mpr fun _ _ => rfl
    rw [count_record hmaps, hall]
  have hwork : (do return (← Documents.countOf collection (.map []) : Nat) : Work Int) s =
      .ok ((s.documents collection).length : Int)
        (s.reread collection) :=
    (bind_of_ok (countOf_calm hs hcnt)).trans (pure_run _ _)
  exact (bind_of_ok (handle_of_ok hwork)).trans (pure_run _ _)

end Finding

/-! ## Storing a schema -/

section Looking

variable (hs : s.Calm) (hmaps : AllMaps (s.documents collection))
  (hname : IsOf req name)

include hs hmaps hname

theorem look_run {status : String}
    (hfind : find (ofImport (.text name)) (reread s) =
      .ok (findAnswer status document) (reread (reread s))) :
    look req s = .ok (if ((s.documents collection).length : Int) ≤ 0 || document.same .null
      then none else some document) (reread s) := by
  rw [reread_reread] at hfind
  refine (bind_of_ok (countAll_calm hs hmaps)).trans ?_
  refine (bind_known (item_of_field? hname)).trans ?_
  refine (bind_of_ok hfind).trans ?_
  exact bind_of_ok (lift_ok _ _)

theorem look_active (h : Active (s.documents collection) name entries) :
    look req s = .ok (some (.map entries)) (reread s) := by
  have hlen : ¬ ((s.documents collection).length : Int) ≤ 0 := by
    -- The document that was found is counted.
    obtain ⟨before, after, hfst⟩ := h.split
    rw [hfst.eq, length_append, length_cons]
    omega
  have hnull : (map entries).same .null = false := by simp [same, sameScalar, asInt?]
  have hread : (reread s).Calm := hs
  rw [look_run hs hmaps hname (find_active hread (by simpa using hmaps) (by simpa using h))]
  simp only [hlen, hnull, decide_false, Bool.or_false, Bool.false_eq_true, if_false]

theorem look_inactive (hnone : ¬ ∃ entries, Active (s.documents collection) name entries) :
    look req s = .ok none (reread s) := by
  have hread : (reread s).Calm := hs
  rw [look_run hs hmaps hname
    (find_inactive hread (by simpa using hmaps) (by simpa using hnone))]
  simp [same, sameScalar]

theorem file_active {active : Value} (schema : Value)
    (h : Active (s.documents collection) name entries)
    (hactive : (map entries).field? "active_schema" = some active) :
    file req schema s = (if compare active schema then
        return change "no_change" [("message", .text "Schema is identical to the existing one.")]
      else pushRelease req (.map entries) : Work Value) (reread s) := by
  refine (bind_of_ok (look_active hs hmaps hname h)).trans ?_
  exact bind_known (item_of_field? hactive)

theorem file_inactive (schema : Value)
    (hnone : ¬ ∃ entries, Active (s.documents collection) name entries) :
    file req schema s = insertFirst req (reread s) :=
  bind_of_ok (look_inactive hs hmaps hname hnone)

end Looking

/-- A request whose constraints have been read is the first document of its import. -/
structure Prepared (request : Value) (name : String) (version : Version) : Prop where
  importName : request.field? "import_name" = some (.text name)
  holds : Holds request version []

theorem IsInsertion.prepare_eq (h : IsInsertion req name version) :
    ∃ prepared, prepare req = .ok (prepared, .map version.schema) ∧
      Prepared prepared name version := by
  obtain ⟨entries, properties, parsed, hactive, hprops, hparsed, hsch⟩ := h.schema
  obtain ⟨fs, rfl, -⟩ := eq_map_of_field? hactive
  have hrels : (map (setEntry (.text "active_schema") (.map version.schema)
      fs)).field? "schemas_releases" = some (.list []) := by
    simpa [findEntry_setEntry] using h.releases
  refine ⟨.map (setEntry (.text "schemas_releases") (.list [])
    (setEntry (.text "active_schema") (.map version.schema) fs)), ?_, ?_, ?_, ?_, ?_⟩
  · simp only [prepare, item_of_field? hactive, item_of_field? hprops, hparsed, assign,
      ← hsch, item_of_field? hrels, Outcome.ok_bind]
    rfl
  · simpa [findEntry_setEntry] using h.importName
  · simp [findEntry_setEntry]
  · simpa [findEntry_setEntry] using h.createdAt
  · simp [findEntry_setEntry]

theorem insert_eq_file (h : IsInsertion req name version) (s : State) :
    ∃ prepared, Prepared prepared name version ∧
      insert req s = file prepared (.map version.schema) s := by
  obtain ⟨prepared, hprepare, hprep⟩ := h.prepare_eq
  exact ⟨prepared, hprep, bind_known hprepare⟩

/-- The document that a request becomes is told from the request by its identity only. -/
theorem field?_identified {field : String} (hfld : field ≠ "_id") (id : Nat) :
    (identified doc id).field? field = doc.field? field := by
  unfold identified
  cases h : doc.field? "_id" with
  | some _ => rfl
  | none => exact field?_withField_of_ne hfld doc _

theorem insertFirst_run (hs : s.Calm) (entries : List (Value × Value)) :
    ∃ id s', insertFirst (.map entries) s =
        .ok (change "inserted" [("acknowledged", .bool true), ("inserted_id", .text id)]) s' ∧
      s'.Calm ∧ s'.documents collection =
        s.documents collection ++ [identified (.map entries) s.nextDocument] := by
  obtain ⟨id, s', hid, hs', hdocs⟩ := insert_calm hs collection entries
  exact ⟨id.plain, s', handle_of_ok ((bind_of_ok hid).trans (pure_run _ _)), hs', hdocs⟩

def activated (schema createdAt : Value) (entries : List (Value × Value)) : List (Value × Value) :=
  setEntry (.text "created_at") createdAt (setEntry (.text "active_schema") schema entries)

/-- The entries with another active schema and other releases. -/
abbrev reissued (schema createdAt : Value) (items : List Value) (entries : List (Value × Value)) :
    List (Value × Value) :=
  setEntry (.text "schemas_releases") (.list items) (activated schema createdAt entries)

theorem set_activated {u : Value} (schema createdAt : Value) (entries : List (Value × Value))
    (hu : u.getD "$set" (.map []) =
      .ok (.record [("active_schema", schema), ("created_at", createdAt)])) :
    changeEach u "$set" (fun path v doc => do setAt (← namesOf path) v doc) (.map entries) =
      .ok () (.map (activated schema createdAt entries)) := by
  refine changeEach_set hu ?_ entries
  simp only [forall_mem_cons]
  exact ⟨by decide, by decide, by simp⟩

/-- A new active schema, the one so far becoming a release. -/
theorem amend_push
    (hrels : (findEntry (.text "schemas_releases") entries).getD (.list []) = .list items)
    (schema createdAt release : Value) :
    amend (pushing schema createdAt release) (.map entries) =
      .ok () (.map (reissued schema createdAt (items ++ [release]) entries)) := by
  have hpush : push (.text "schemas_releases") release (.map (activated schema createdAt entries)) =
      .ok (.map (reissued schema createdAt (items ++ [release]) entries)) := by
    simp [push, entriesAs, reissued, activated, findEntry_setEntry, hrels]
  rw [amend_eq]
  refine (bind_of_ok (set_activated schema createdAt entries rfl)).trans ?_
  refine (bind_of_ok (changeEach_of_ok rfl ?_)).trans (changeEach_of_ok rfl rfl)
  simp only [map_cons, map_nil, foldlM_cons, foldlM_nil, hpush]
  rfl

/-- A release that cannot be pushed, the new schema being active already. -/
theorem amend_unpushed (hrels : ¬ ∃ items,
      (findEntry (.text "schemas_releases") entries).getD (.list []) = .list items)
    (schema createdAt release : Value) :
    amend (pushing schema createdAt release) (.map entries) =
      .error (((findEntry (.text "schemas_releases") entries).getD (.list [])).memberFault "append")
        (.map (activated schema createdAt entries)) := by
  have hpush : push (.text "schemas_releases") release (.map (activated schema createdAt entries)) =
      .error (((findEntry (.text "schemas_releases") entries).getD (.list [])).memberFault
        "append") := by
    cases hval : (findEntry (.text "schemas_releases") entries).getD (.list []) with
    | list items => exact absurd ⟨items, hval⟩ hrels
    | _ => simp [push, entriesAs, activated, findEntry_setEntry, hval]
  rw [amend_eq]
  refine (bind_of_ok (set_activated schema createdAt entries rfl)).trans (bind_of_error ?_)
  exact changeEach_of_error rfl hpush

/-- The latest release becoming the active schema. -/
theorem amend_pop (hrels : findEntry (.text "schemas_releases") entries = some (.list items))
    (schema createdAt : Value) :
    amend (.record [
        ("$set", .record [("active_schema", schema), ("created_at", createdAt)]),
        ("$pop", .record [("schemas_releases", .int 1)])]) (.map entries) =
      .ok () (.map (reissued schema createdAt items.dropLast entries)) := by
  have hpop : pop (.text "schemas_releases") (.map (activated schema createdAt entries)) =
      .ok (.map (reissued schema createdAt items.dropLast entries)) := by
    simp [pop, entriesAs, reissued, activated, findEntry_setEntry, hrels]
  rw [amend_eq]
  refine (bind_of_ok (set_activated schema createdAt entries rfl)).trans ?_
  refine (bind_of_ok (changeEach_of_ok rfl rfl)).trans (changeEach_of_ok rfl ?_)
  simp only [map_cons, foldlM_cons, hpop]
  rfl

/-- A document with another active schema and other releases. -/
theorem holds_activated (top : Version) (earlier : List Version)
    (hitems : items = earlier.reverse.map Version.release) :
    Holds (.map (reissued (.map top.schema) top.createdAt items entries)) top earlier := by
  refine ⟨?_, ?_, ?_⟩
  · simp [activated, findEntry_setEntry]
  · simp [activated, findEntry_setEntry]
  · simp [findEntry_setEntry, hitems]

theorem importName_activated {schema : Value} (hname : IsOf (.map entries) name) :
    IsOf (.map (reissued schema createdAt items entries)) name := by
  simpa [IsOf, activated, findEntry_setEntry] using hname

/-! ## One request -/

/-- A request for a change was answered as the stacks say, the documents represent the stacks after
the change, and those of other imports are what they were; an answer that nothing was changed means
just that. -/
structure Answered (s : State) (histories : Stacks) (c : Change) (answer : Value) (s' : State) :
    Prop where
  calm : s'.Calm
  status : answer.field? "status" = some (.text (c.reply histories).status)
  represents : Represents (s'.documents collection) (c.apply histories)
  others : ∀ other, other ≠ c.name →
    documentsOf other (s'.documents collection) = documentsOf other (s.documents collection)
  idle : (c.reply histories).isIdle = true → s'.documents collection = s.documents collection

def Answers (work : Work Value) (s : State) (histories : Stacks) (c : Change) : Prop :=
  ∃ answer s', work s = .ok answer s' ∧ Answered s histories c answer s'

section Answered

variable {s' : State} {c : Change} {answer doc : Value} {top : Version} {reply : Reply}
  {stack : List Version} (hs' : s'.Calm) (h : Represents (s.documents collection) histories)
  (hstatus : answer.field? "status" = some (.text reply.status))

include hs' h hstatus

theorem Answered.of_idle (hact : c.act (histories c.name) = (reply, histories c.name))
    (hdocs : s'.documents collection = s.documents collection) :
    Answered s histories c answer s' := by
  have happly : c.apply histories = histories := by
    rw [Change.apply, hact, Function.update_eq_self]
  refine ⟨hs', ?_, ?_, fun other _ => by rw [hdocs], fun _ => hdocs⟩
  · rw [Change.reply, hact, hstatus]
  · rw [happly, hdocs]
    exact h

variable (hact : c.act (histories c.name) = (reply, stack)) (hbusy : reply.isIdle = false)

include hact hbusy

theorem Answered.of_change
    (hnamed : ∀ doc ∈ s'.documents collection, ∃ name, IsOf doc name)
    (hothers : ∀ other, other ≠ c.name →
      documentsOf other (s'.documents collection) = documentsOf other (s.documents collection))
    (hshows : Shows (documentsOf c.name (s'.documents collection)) stack) :
    Answered s histories c answer s' := by
  have hreply : c.reply histories = reply := by rw [Change.reply, hact]
  refine ⟨hs', hreply ▸ hstatus, ?_, hothers, fun hidle => ?_⟩
  · rw [Change.apply, hact]
    exact h.update hnamed hothers hshows
  · rw [hreply, hbusy] at hidle
    cases hidle

variable (hnone : documentsOf c.name (before ++ after) = [])
  (hdocs : s'.documents collection = before ++ doc :: after) (hname : IsOf doc c.name)
  (hshows : Shows [doc] stack)

include hnone hdocs hname hshows

theorem Answered.of_put
    (hothers : ∀ other, other ≠ c.name →
      documentsOf other (s.documents collection) = documentsOf other (before ++ after))
    (hsub : ∀ d ∈ before ++ after, d ∈ s.documents collection) :
    Answered s histories c answer s' := by
  refine .of_change hs' h hstatus hact hbusy ?_ (fun other hne => ?_) ?_
  · rw [hdocs]
    exact forall_mem_split.mpr ⟨⟨c.name, hname⟩, fun d hd => h.named d (hsub d hd)⟩
  · rw [hothers other hne, hdocs, documentsOf_other hne hname]
  · rw [hdocs, documentsOf_split hnone hname]
    exact hshows

theorem Answered.of_replace (hold : First c.name (s.documents collection) before entries after) :
    Answered s histories c answer s' := by
  refine .of_put hs' h hstatus hact hbusy hnone hdocs hname hshows ?_ ?_
  · intro other hne
    rw [hold.eq, documentsOf_other hne hold.importName]
  · rw [hold.eq]
    exact (forall_mem_split.mp fun _ hd => hd).2

end Answered

/-- The document of an import that has a version is its first one, and has an active schema. -/
theorem Represents.active (h : Represents docs histories) {top : Version}
    (hstack : histories name = top :: earlier) :
    ∃ before entries after, First name docs before entries after ∧
      Holds (.map entries) top earlier ∧ documentsOf name (before ++ after) = [] ∧
      Active docs name entries := by
  have hshows := h.shows name
  rw [hstack] at hshows
  obtain ⟨doc, hdocs, hholds⟩ := hshows
  obtain ⟨before, after, hfst, hnone⟩ := split_of_filter hdocs
  obtain ⟨entries, rfl, -⟩ := eq_map_of_field? hholds.schema
  exact ⟨before, entries, after, hfst, hholds, hnone, hfst.find?, _, hholds.schema⟩

theorem releasing_of_fields {importName : Value} {old : Version}
    (hsch : req.field? "active_schema" = some (.map version.schema))
    (hmade : req.field? "created_at" = some version.createdAt)
    (hname : req.field? "import_name" = some importName)
    (hold : document.field? "active_schema" = some (.map old.schema))
    (holdAt : document.field? "created_at" = some old.createdAt) :
    releasing req document =
      .ok (importName, pushing (.map version.schema) version.createdAt old.release) := by
  unfold releasing
  simp only [item_of_field? hsch, item_of_field? hmade, item_of_field? hold,
    item_of_field? holdAt, item_of_field? hname]
  rfl

theorem pushRelease_run {prepared : Value} {top : Version} (hs : s.Calm)
    (hmaps : AllMaps (s.documents collection))
    (hfst : First name (s.documents collection) before entries after)
    (hholds : Holds (.map entries) top earlier) (hprep : Prepared prepared name version) :
    ∃ report, pushRelease prepared (.map entries) s =
      .ok (change "updated" (updated report)) (s.withDocuments collection (before ++
        .map (reissued (.map version.schema) version.createdAt
          (earlier.reverse.map Version.release ++ [top.release]) entries) :: after)) := by
  have hrels : (findEntry (.text "schemas_releases") entries).getD (.list []) =
      .list (earlier.reverse.map Version.release) := congrArg (·.getD (.list [])) hholds.releases
  obtain ⟨report, hreport⟩ := updateOne_split hs hmaps hfst
    (amend_push hrels (.map version.schema) version.createdAt top.release)
  rw [pushRelease, releasing_of_fields hprep.holds.schema hprep.holds.createdAt
    hprep.importName hholds.schema hholds.createdAt]
  exact ⟨report, handle_of_ok ((bind_of_ok (lift_ok _ _)).trans (bind_of_ok hreport))⟩

section Inserting

variable {version top : Version} (hs : s.Calm) (h : Represents (s.documents collection) histories)
  (hrequest : IsInsertion req name version)

include hs h hrequest

theorem insert_first (hstack : histories name = []) :
    Answers (insert req) s histories (.push name version) := by
  obtain ⟨prepared, hprep, hinsert⟩ := insert_eq_file hrequest s
  have hnone : documentsOf name (s.documents collection) = [] := by
    have hshows := h.shows name
    rwa [hstack] at hshows
  have hread : (reread s).Calm := hs
  obtain ⟨entries, rfl, -⟩ := eq_map_of_field? hprep.importName
  obtain ⟨id, s', hfst, hs', hdocs'⟩ := insertFirst_run hread entries
  rw [documents_reread] at hdocs'
  have hrun := hinsert.trans ((file_inactive hs h.allMaps hprep.importName _
    (not_active_of_none hnone)).trans hfst)
  have hholds : Holds (identified (.map entries) (reread s).nextDocument) version [] := by
    refine ⟨?_, ?_, ?_⟩
    · rw [field?_identified (by decide), hprep.holds.schema]
    · rw [field?_identified (by decide), hprep.holds.createdAt]
    · rw [field?_identified (by decide), hprep.holds.releases]
  have hact : (Change.push name version).act (histories name) = (.inserted, [version]) := by
    rw [hstack, Change.act]
  refine ⟨_, s', hrun, .of_put hs' h rfl hact rfl ?_ hdocs' ?_ ⟨_, rfl, hholds⟩ ?_ ?_⟩
  · simpa [Change.name] using hnone
  · rw [IsOf, field?_identified (by decide)]
    exact hprep.importName
  · intro other _
    rw [append_nil]
  · simp

theorem insert_other (hstack : histories name = top :: earlier) :
    Answers (insert req) s histories (.push name version) := by
  obtain ⟨prepared, hprep, hinsert⟩ := insert_eq_file hrequest s
  obtain ⟨before, entries, after, hfst, hholds, hnone, hactive⟩ := h.active hstack
  have hrun := hinsert.trans (file_active hs h.allMaps hprep.importName (.map version.schema)
    hactive hholds.schema)
  cases hcmp : compare (.map top.schema) (.map version.schema) with
  | true =>
    rw [hcmp] at hrun
    have hact : (Change.push name version).act (histories name) = (.unchanged, histories name) := by
      rw [hstack, Change.act, if_pos hcmp]
    exact ⟨_, reread s, hrun, .of_idle hs h rfl hact (documents_reread s)⟩
  | false =>
    rw [hcmp] at hrun
    have hread : (reread s).Calm := hs
    have hdocs := documents_reread s
    obtain ⟨report, hreport⟩ := pushRelease_run hread (hdocs.symm ▸ h.allMaps)
      (hdocs.symm ▸ hfst) hholds hprep
    have hact : (Change.push name version).act (histories name) =
        (.updated, version :: top :: earlier) := by
      rw [hstack, Change.act, hcmp]
      rfl
    exact ⟨_, _, hrun.trans hreport, .of_replace hread h rfl hact rfl hnone
      (documents_withDocuments _ _ _) (importName_activated hfst.importName)
      ⟨_, rfl, holds_activated version (top :: earlier) (by simp)⟩ hfst⟩

theorem insert_step : Answers (insert req) s histories (.push name version) := by
  cases hstack : histories name with
  | nil => exact insert_first hs h hrequest hstack
  | cons top earlier => exact insert_other hs h hrequest hstack

end Inserting

/-! ## Taking a schema back -/

/-- A request about an import looks for its document first. -/
theorem bind_found {status : String} (hrequest : IsOf req name)
    (hfind : find (ofImport (.text name)) s = .ok (findAnswer status document) (reread s))
    (next : Value → Value → Value → Work Value) :
    (do
      let importName ← req.item "import_name"
      let found ← find (ofImport importName)
      let document ← found.item "schema"
      next importName document (← found.item "status") : Work Value) s =
        next (.text name) document (.text status) (reread s) := by
  refine (bind_known (item_of_field? hrequest)).trans ?_
  refine (bind_of_ok hfind).trans ?_
  exact bind_of_ok (lift_ok _ _)

theorem delete_of_missing (hrequest : IsOf req name)
    (hfind : find (ofImport (.text name)) s = .ok (findAnswer "not_found" .null) (reread s)) :
    delete req s = .ok (removal false ("Schema with import_name '" ++ name ++ "' not found")
      "error" (.map [])) (reread s) := by
  exact bind_found hrequest hfind _

theorem delete_eq_revert (hrequest : IsOf req name)
    (hfind : find (ofImport (.text name)) s = .ok (findAnswer "found" (.map entries)) (reread s)) :
    delete req s = revert (.text name) (.map entries) (reread s) :=
  bind_found hrequest hfind _

theorem at_last (items : List Value) (v : Value) :
    (list (items ++ [v])).at_ (-1) = .ok v := by
  have hposn : position? (items ++ [v]).length (-1) = some items.length := by
    simp only [position?, length_append, length_singleton]
    rw [if_pos (by omega)]
    congr 1
    omega
  simp only [at_, hposn]
  simp

/-- What is taken for the schema of a release. -/
def inner (release : List (Value × Value)) : Outcome Value := do
  (← (map release).item "schema").copied

theorem previous_last {release : List (Value × Value)}
    (hrels : (map entries).field? "schemas_releases" =
      some (.list (items ++ [.map release])))
    (hmade : (map entries).field? "created_at" = some createdAt) :
    previous (.map entries) = (do
      return some (← inner release, ((map release).field? "created_at").getD createdAt)) := by
  rw [previous, getD_of_field? hrels, Outcome.ok_bind, if_neg (by simp [truthy]), at_last,
    item_of_field? hmade, inner, bind_assoc]
  rfl

theorem revert_some {schema : Value} (hs : s.Calm) (hmaps : AllMaps (s.documents collection))
    (hfst : First name (s.documents collection) before entries after)
    (hrels : (map entries).field? "schemas_releases" = some (.list items))
    (hprev : previous (.map entries) = .ok (some (schema, createdAt))) :
    ∃ report : UpdateReport, revert (.text name) (.map entries) s =
      .ok (removal true ("Schema with import_name '" ++ name ++ "' " ++
          "reverted to previous release") "reverted" report.raw)
        (s.withDocuments collection
          (before ++ .map (reissued schema createdAt items.dropLast entries) :: after)) := by
  obtain ⟨report, hreport⟩ := updateOne_split hs hmaps hfst (amend_pop hrels schema createdAt)
  exact ⟨report, (bind_known hprev).trans (bind_of_ok hreport)⟩

section Deleting

variable {top previous : Version} (hs : s.Calm)
  (h : Represents (s.documents collection) histories)
  (hrequest : IsOf req name)

include hs h hrequest

theorem delete_absent (hstack : histories name = []) : Answers (delete req) s histories (.pop name) := by
  have hnone : documentsOf name (s.documents collection) = [] := by
    have hshows := h.shows name
    rwa [hstack] at hshows
  have hrun := delete_of_missing hrequest
    (find_inactive hs h.allMaps (not_active_of_none hnone))
  have hact : (Change.pop name).act (histories name) = (.absent, histories name) := by
    rw [hstack, Change.act]
  exact ⟨_, reread s, hrun, .of_idle hs h rfl hact (documents_reread s)⟩

theorem delete_last (hstack : histories name = [top]) : Answers (delete req) s histories (.pop name) := by
  obtain ⟨before, entries, after, hfst, hholds, hnone, hactive⟩ := h.active hstack
  have hread : (reread s).Calm := hs
  have hremove : remove (ofImport (.text name)) ((reread s).documents collection) =
      .ok 1 (before ++ after) := by
    rw [documents_reread]
    exact remove_split h.allMaps hfst
  have hprev : Schemas.previous (.map entries) = .ok none := by
    rw [Schemas.previous, getD_of_field? hholds.releases]
    rfl
  have hrun : delete req s = .ok (removal true ("Schema with import_name '" ++ name ++ "' " ++
      "deleted") "deleted" (removalReport 1))
      ((reread s).withDocuments collection (before ++ after)) := by
    rw [delete_eq_revert hrequest (find_active hs h.allMaps hactive), revert,
      bind_known hprev]
    exact bind_of_ok (within_calm hread hremove)
  have hact : (Change.pop name).act (histories name) = (.deleted, []) := by
    rw [hstack, Change.act]
  have hnamed := h.named
  rw [hfst.eq] at hnamed
  refine ⟨_, _, hrun, .of_change hread h rfl hact rfl ?_ (fun other hne => ?_) ?_⟩
  · rw [documents_withDocuments]
    exact (forall_mem_split.mp hnamed).2
  · rw [documents_withDocuments, hfst.eq, documentsOf_other hne hfst.importName]
  · rw [documents_withDocuments]
    exact hnone

theorem delete_reverts (hstack : histories name = top :: previous :: earlier) :
    Answers (delete req) s histories (.pop name) := by
  obtain ⟨before, entries, after, hfst, hholds, hnone, hactive⟩ := h.active hstack
  have hread : (reread s).Calm := hs
  have hdocs := documents_reread s
  have hrels : (map entries).field? "schemas_releases" =
      some (.list (earlier.reverse.map Version.release ++ [previous.release])) := by
    simpa using hholds.releases
  obtain ⟨report, hreport⟩ := revert_some hread (hdocs.symm ▸ h.allMaps) (hdocs.symm ▸ hfst)
    hrels ((previous_last hrels hholds.createdAt).trans rfl)
  have hrun := (delete_eq_revert hrequest (find_active hs h.allMaps hactive)).trans hreport
  have hact : (Change.pop name).act (histories name) = (.reverted, previous :: earlier) := by
    rw [hstack, Change.act]
  exact ⟨_, _, hrun, .of_replace hread h rfl hact rfl hnone (documents_withDocuments _ _ _)
    (importName_activated hfst.importName) ⟨_, rfl, holds_activated previous earlier (by simp)⟩
    hfst⟩

theorem delete_step : Answers (delete req) s histories (.pop name) := by
  cases hstack : histories name with
  | nil => exact delete_absent hs h hrequest hstack
  | cons top earlier =>
    cases earlier with
    | nil => exact delete_last hs h hrequest hstack
    | cons previous earlier => exact delete_reverts hs h hrequest hstack

end Deleting

/-- Every request is answered as the stacks say. -/
theorem Request.step {r : Request} {c : Change} (hs : s.Calm)
    (h : Represents (s.documents collection) histories) (hasks : Asks r c) :
    Answers r.run s histories c := by
  cases hasks with
  | insert hrequest => exact insert_step hs h hrequest
  | delete hrequest => exact delete_step hs h hrequest

/-! ## Any number of requests -/

def applyAll (histories : Stacks) (cs : List Change) : Stacks :=
  cs.foldl (fun st c => c.apply st) histories

def replies (histories : Stacks) : List Change → List Reply
  | [] => []
  | c :: cs => c.reply histories :: replies (c.apply histories) cs

theorem run_all {rs : List Request} {cs : List Change} (hs : s.Calm)
    (h : Represents (s.documents collection) histories) (hasks : Forall₂ Asks rs cs) :
    ∃ answers s', rs.mapM Request.run s = .ok answers s' ∧ s'.Calm ∧
      Represents (s'.documents collection) (applyAll histories cs) ∧
      answers.map (·.field? "status") =
        (replies histories cs).map fun reply => some (.text reply.status) := by
  induction hasks generalizing s histories with
  | nil => exact ⟨[], s, rfl, hs, h, rfl⟩
  | cons hask _ ih =>
    obtain ⟨answer, s1, hrun, hans⟩ := Request.step hs h hask
    obtain ⟨answers, s', hruns, hs', hrep, hstatuses⟩ :=
      ih hans.calm hans.represents
    refine ⟨answer :: answers, s', ?_, hs', hrep, ?_⟩
    · rw [mapM_cons]
      exact (bind_of_ok hrun).trans (bind_of_ok hruns)
    · rw [map_cons, hstatuses, hans.status]
      rfl

/-- From an empty collection, and with all calls to the store succeeding, the collection represents
the stacks of versions after any number of requests, and the next request is answered as the stacks
say and touches no other import. -/
theorem history_refines_stacks (s : State) (hs : s.Calm) (hempty : s.documents collection = [])
    (rs : List Request) (cs : List Change) (hasks : List.Forall₂ Asks rs cs) :
    ∃ answers s', rs.mapM Request.run s = .ok answers s' ∧
      Represents (s'.documents collection) (applyAll (fun _ => []) cs) ∧
      answers.map (·.field? "status") =
        (replies (fun _ => []) cs).map (fun reply => some (.text reply.status)) ∧
      ∀ r c, Asks r c → ∃ answer s'', r.run s' = .ok answer s'' ∧
        Answered s' (applyAll (fun _ => []) cs) c answer s'' := by
  have hstart : Represents (s.documents collection) fun _ => [] := by
    rw [hempty]
    exact ⟨by simp, fun _ => rfl⟩
  obtain ⟨answers, s', hrun, hs', hrepresents, hstatuses⟩ := run_all hs hstart hasks
  refine ⟨answers, s', hrun, hrepresents, hstatuses, fun r c hask => ?_⟩
  exact Request.step hs' hrepresents hask

def orderProperties (bound : String) : Value :=
  .record [("amount", .record [("type", .text "integer"),
    ("extra", .record [("minimum", .text bound)])])]

def orderParsed (bound : Int) : Value :=
  .record [("amount", .record [("type", .text "integer"), ("minimum", .int bound)])]

def orderVersion (bound : Int) (createdAt : String) : Version where
  schema := [(.text "type", .text "object"), (.text "properties", orderParsed bound)]
  createdAt := .text createdAt

def storeOrder (bound createdAt : String) : Value :=
  .record [("import_name", .text "orders"), ("created_at", .text createdAt),
    ("schemas_releases", .list []), ("active_schema",
      .record [("type", .text "object"), ("properties", orderProperties bound)])]

theorem isInsertion_storeOrder {bound : String} {n : Int}
    (h : parseProperties (orderProperties bound) = .ok (orderParsed n)) (createdAt : String) :
    IsInsertion (storeOrder bound createdAt) "orders" (orderVersion n createdAt) :=
  ⟨rfl, rfl, rfl, _, _, _, rfl, rfl, h, rfl⟩

def takeOrderBack : Value := .record [("import_name", .text "orders")]

theorem history_refines_stacks_orders :
    ∃ answers s', [Request.insert (storeOrder "3" "May"), .insert (storeOrder "03" "June"),
        .insert (storeOrder "5" "July"), .delete takeOrderBack, .delete takeOrderBack,
        .delete takeOrderBack].mapM Request.run {} = .ok answers s' ∧
      answers.map (·.field? "status") =
        ["inserted", "no_change", "updated", "reverted", "deleted", "error"].map (some <| .text ·) ∧
      documentsOf "orders" (s'.documents collection) = [] := by
  have hthree : parseProperties (orderProperties "3") = .ok (orderParsed 3) := by cbv
  have hthree' : parseProperties (orderProperties "03") = .ok (orderParsed 3) := by cbv
  have hfive : parseProperties (orderProperties "5") = .ok (orderParsed 5) := by cbv
  have hback : Asks (.delete takeOrderBack) (.pop "orders") := .delete rfl
  have hasks : Forall₂ Asks _ [.push "orders" (orderVersion 3 "May"),
      .push "orders" (orderVersion 3 "June"), .push "orders" (orderVersion 5 "July"),
      .pop "orders", .pop "orders", .pop "orders"] :=
    .cons (.insert (isInsertion_storeOrder hthree "May")) <|
    .cons (.insert (isInsertion_storeOrder hthree' "June")) <|
    .cons (.insert (isInsertion_storeOrder hfive "July")) <|
    .cons hback <| .cons hback <| .cons hback .nil
  obtain ⟨answers, s', hrun, hrepresents, hstatuses, -⟩ :=
    history_refines_stacks {} rfl rfl _ _ hasks
  exact ⟨answers, s', hrun, hstatuses.trans (by cbv), hrepresents.shows "orders"⟩

end SheetMill.Database.Schemas
