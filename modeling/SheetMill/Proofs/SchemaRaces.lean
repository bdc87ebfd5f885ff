import SheetMill.Proofs.SchemaCalls

/-!
# Requests that overlap

A request to store a schema looks at the collection first and writes afterwards, by what it has
seen; in between, other requests may write. Of two requests for one import, the later one forgets
what the earlier one wrote exactly if they overlap and both have something to write.
-/

namespace SheetMill.Database.Schemas

open Act Value Documents List
open Service (Ready)

variable {s : State} {name : String} {ι : Type}

/-! ## The two halves of a request -/

inductive Phase (Seen Answer : Type) where
  | waiting
  | looked (seen : Seen)
  | done (answer : Answer)

/-- A request that has looked knows its document, its schema and the document of its import. -/
abbrev Progress := Phase (Value × Value × Option Value) Value

variable [DecidableEq ι]

/-- One of the requests does its next half. -/
def turn (requests : ι → Value) (phases : ι → Progress) (i : ι) : Work (ι → Progress) :=
  match phases i with
  | .waiting => do
    let (prepared, active) ← prepare (requests i)
    return Function.update phases i (.looked (prepared, active, ← look prepared))
  | .looked (prepared, active, document) => do
    return Function.update phases i (.done (← write prepared active document))
  | .done _ => return phases

def play (requests : ι → Value) (order : List ι) : Work (ι → Progress) :=
  order.foldlM (turn requests) fun _ => .waiting

theorem turn_twice (requests : ι → Value) {phases : ι → Progress} {i : ι}
    (h : phases i = .waiting) :
    [i, i].foldlM (turn requests) phases = (do
      return Function.update phases i (.done (← insert (requests i))) : Work (ι → Progress)) := by
  simp only [foldlM_cons, foldlM_nil, insert, file, turn, h,
    bind_assoc, pure_bind, Function.update_self, Function.update_idem]

/-! ## Pages -/

/-- What a document of an import says: its active version and its releases. -/
structure Page where
  active : Version
  releases : List Value

def Page.schema (page : Page) : Value := .map page.active.schema

/-- The document says what the page says. -/
structure Bears (doc : Value) (page : Page) : Prop where
  schema : doc.field? "active_schema" = some page.schema
  createdAt : doc.field? "created_at" = some page.active.createdAt
  releases : (doc.field? "schemas_releases").getD (.list []) = .list page.releases

/-- A document without an active schema has no page. -/
def Reads (doc : Value) : Option Page → Prop
  | none => doc.field? "active_schema" = none
  | some page => Bears doc page

/-- The pages of the documents of an import, in their order. -/
abbrev Shelf := List (Option Page)

def Shelf.front (shelf : Shelf) : Option Page := shelf.head?.join

def Page.turned (cur page old : Page) : Page :=
  ⟨page.active, cur.releases ++ [old.active.release]⟩

@[simp] theorem Page.schema_turned (cur page old : Page) :
    (cur.turned page old).schema = page.schema := rfl

/-- The shelf after a request has written its page, given the page that it has seen. -/
def Page.put (page : Page) (seen : Option Page) (shelf : Shelf) : Shelf :=
  match seen, shelf with
  | none, shelf => shelf ++ [some page]
  | some old, some cur :: rest =>
    if compare old.schema page.schema then some cur :: rest
    else some (cur.turned page old) :: rest
  | some _, shelf => shelf

@[simp] theorem Shelf.front_nil : Shelf.front [] = none := rfl

@[simp] theorem Shelf.front_cons (page : Option Page) (rest : Shelf) :
    Shelf.front (page :: rest) = page := rfl

@[simp] theorem Page.put_none (page : Page) (shelf : Shelf) :
    page.put none shelf = shelf ++ [some page] := rfl

@[simp] theorem Page.put_some (page old cur : Page) (rest : Shelf) :
    page.put (some old) (some cur :: rest) =
      if compare old.schema page.schema then some cur :: rest
      else some (cur.turned page old) :: rest := rfl

structure Table (ι : Type) where
  shelf : Shelf
  phases : ι → Phase (Option Page) Unit

def Table.turn (pages : ι → Page) (table : Table ι) (i : ι) : Table ι :=
  match table.phases i with
  | .waiting => { table with phases := Function.update table.phases i (.looked table.shelf.front) }
  | .looked seen =>
    ⟨(pages i).put seen table.shelf, Function.update table.phases i (.done ())⟩
  | .done _ => table

/-- The request is to store the page: with its constraints read, it is a document of the import that
says what the page says. -/
def Stores (req : Value) (name : String) (page : Page) : Prop :=
  ∃ document, prepare req = .ok (document, page.schema) ∧
    document.field? "import_name" = some (.text name) ∧ Bears document page

/-! ## One turn -/

/-- What a request has seen is the page that it has seen on the shelf. -/
inductive Tracks (document : Value) (page : Page) :
    Progress → Phase (Option Page) Unit → Prop where
  | waiting : Tracks document page .waiting .waiting
  | looked {found : Option Value} {seen : Option Page} (h : Option.Rel Bears found seen) :
      Tracks document page (.looked (document, page.schema, found)) (.looked seen)
  | done (answer : Value) : Tracks document page (.done answer) (.done ())

/-- The documents of an import are those of the shelf, those of other imports are as they were, and
the requests have come as far as the table says. -/
structure Follows (docs : Documents) (name : String) (documents : ι → Value) (pages : ι → Page)
    (s : State) (phases : ι → Progress) (table : Table ι) : Prop where
  calm : s.Calm
  maps : AllMaps (s.documents collection)
  others : ∀ other, other ≠ name →
    documentsOf other (s.documents collection) = documentsOf other docs
  shelf : Forall₂ Reads (documentsOf name (s.documents collection)) table.shelf
  phases : ∀ i, Tracks (documents i) (pages i) (phases i) (table.phases i)
  /-- A page that was seen has not been taken away since. -/
  seen : ∀ i page, table.phases i = .looked (some page) →
    ∃ current rest, table.shelf = some current :: rest

theorem forall₂_front {docs : Documents} {shelf : Shelf} (h : Forall₂ Reads docs shelf) :
    (∃ doc page, docs.head? = some doc ∧ Bears doc page ∧ shelf.front = some page) ∨
      shelf.front = none ∧ ∀ doc, docs.head? = some doc → doc.field? "active_schema" = none := by
  cases h with
  | nil => exact .inr ⟨rfl, by simp⟩
  | @cons doc page docs pages hreads =>
    cases page with
    | none =>
      refine .inr ⟨rfl, ?_⟩
      rintro _ ⟨⟩
      exact hreads
    | some page => exact .inl ⟨doc, page, rfl, hreads, rfl⟩

theorem look_shelf {req : Value} {shelf : Shelf} (hs : s.Calm)
    (hmaps : AllMaps (s.documents collection)) (hname : IsOf req name)
    (hshelf : Forall₂ Reads (documentsOf name (s.documents collection)) shelf) :
    ∃ found, look req s = .ok found (reread s) ∧ Option.Rel Bears found shelf.front := by
  have hfst : (documentsOf name (s.documents collection)).head? =
      (s.documents collection).find? (meets [("import_name", .text name)]) := head?_filter
  rcases forall₂_front hshelf with ⟨doc, page, hdoc, hbears, hfront⟩ | ⟨hfront, hblank⟩
  · obtain ⟨entries, rfl, -⟩ := eq_map_of_field? hbears.schema
    have hact : Active (s.documents collection) name entries :=
      ⟨hfst.symm.trans hdoc, _, hbears.schema⟩
    refine ⟨some (.map entries), look_active hs hmaps hname hact, ?_⟩
    rw [hfront]
    exact .some hbears
  · have hnone : ¬ ∃ entries, Active (s.documents collection) name entries := by
      rintro ⟨entries, hact⟩
      obtain ⟨w, hw⟩ := hact.schema
      rw [hblank _ (hfst.trans hact.first)] at hw
      cases hw
    refine ⟨none, look_inactive hs hmaps hname hnone, ?_⟩
    rw [hfront]
    exact .none

/-- The documents after a change stand for a shelf, and no other import is touched. -/
structure Leaves (s : State) (name : String) (s' : State) (shelf : Shelf) : Prop where
  calm : s'.Calm
  maps : AllMaps (s'.documents collection)
  others : ∀ other, other ≠ name →
    documentsOf other (s'.documents collection) = documentsOf other (s.documents collection)
  shelf : Forall₂ Reads (documentsOf name (s'.documents collection)) shelf

theorem Leaves.of_documents {s' : State} {shelf : Shelf} (hs : s'.Calm)
    (hmaps : AllMaps (s.documents collection))
    (hdocs : s'.documents collection = s.documents collection)
    (hshelf : Forall₂ Reads (documentsOf name (s.documents collection)) shelf) :
    Leaves s name s' shelf := by
  refine ⟨hs, ?_, fun other _ => ?_, ?_⟩ <;> rw [hdocs]
  · exact hmaps
  · exact hshelf

section Writing

variable {document found active : Value} {page old : Page} (hs : s.Calm)
  (hmaps : AllMaps (s.documents collection))
  (hname : IsOf document name) (hbears : Bears document page)

include hs hmaps hname hbears

/-- The first document that is seen is a new page of the shelf. -/
theorem insertFirst_bears :
    ∃ answer s' doc, insertFirst document s = .ok answer s' ∧ s'.Calm ∧
      AllMaps (s'.documents collection) ∧
      s'.documents collection = s.documents collection ++ [doc] ∧
      IsOf doc name ∧ Bears doc page := by
  obtain ⟨es, rfl, -⟩ := eq_map_of_field? hname
  obtain ⟨id, s', hrun, hs', hdocs⟩ := insertFirst_run hs es
  have hname' : (identified (.map es) s.nextDocument).field? "import_name" =
      some (.text name) := by
    rw [field?_identified (by decide), hname]
  refine ⟨_, s', _, hrun, hs', ?_, hdocs, hname', ?_, ?_, ?_⟩
  · intro doc hdoc
    rw [hdocs, mem_append, mem_singleton] at hdoc
    rcases hdoc with hdoc | rfl
    · exact hmaps doc hdoc
    · obtain ⟨entries', heq, -⟩ := eq_map_of_field? hname'
      exact ⟨entries', heq⟩
  · rw [field?_identified (by decide), hbears.schema]
  · rw [field?_identified (by decide), hbears.createdAt]
  · rw [field?_identified (by decide), hbears.releases]

theorem pushRelease_split {cur : Page} {before after : Documents}
    {es : List (Value × Value)} (hfound : Bears found old)
    (hfst : First name (s.documents collection) before es after)
    (hcur : Bears (.map es) cur) :
    ∃ answer new, pushRelease document found s =
        .ok answer (s.withDocuments collection (before ++ .map new :: after)) ∧
      IsOf (.map new) name ∧
      Bears (.map new) (cur.turned page old) := by
  have hreleasing : releasing document found =
      .ok (.text name, pushing page.schema page.active.createdAt old.active.release) :=
    releasing_of_fields hbears.schema hbears.createdAt hname hfound.schema hfound.createdAt
  obtain ⟨report, hreport⟩ := updateOne_split hs hmaps hfst
    (amend_push hcur.releases page.schema page.active.createdAt old.active.release)
  rw [pushRelease, hreleasing]
  refine ⟨_, _, handle_of_ok ((bind_of_ok (lift_ok _ _)).trans (bind_of_ok hreport)),
    importName_activated hfst.importName, ?_, ?_, ?_⟩
  · simp [activated, findEntry_setEntry]
  · simp [activated, findEntry_setEntry, Page.turned]
  · simp [findEntry_setEntry, Page.turned]

theorem write_none {shelf : Shelf}
    (hshelf : Forall₂ Reads (documentsOf name (s.documents collection)) shelf) :
    ∃ answer s', write document active none s = .ok answer s' ∧
      Leaves s name s' (page.put none shelf) := by
  obtain ⟨answer, s', doc, hrun, hs', hmaps', hdocs, hown, hdoc⟩ :=
    insertFirst_bears hs hmaps hname hbears
  refine ⟨answer, s', hrun, hs', hmaps', fun other hne => ?_, ?_⟩
  · rw [hdocs, documentsOf_other hne hown, append_nil]
  · have hfilter : documentsOf name (s.documents collection ++ [doc]) =
        documentsOf name (s.documents collection) ++ [doc] := by
      simp [documentsOf, meets_named.mpr hown]
    rw [hdocs, hfilter]
    exact rel_append hshelf (.cons hdoc .nil)

/-- A request that has seen a page changes the first page, unless the schemas are the same. -/
theorem write_some {cur : Page} {rest : Shelf} (hfound : Bears found old)
    (hshelf : Forall₂ Reads (documentsOf name (s.documents collection))
      (some cur :: rest)) :
    ∃ answer s', write document page.schema (some found) s = .ok answer s' ∧
      Leaves s name s' (page.put (some old) (some cur :: rest)) := by
  have hwrite : write document page.schema (some found) s = (if compare old.schema page.schema then
      return change "no_change" [("message", .text "Schema is identical to the existing one.")]
      else pushRelease document found : Work Value) s := by
    exact bind_known (item_of_field? hfound.schema)
  rw [hwrite]
  rw [Page.put_some]
  by_cases hcmp : compare old.schema page.schema = true
  · simp only [hcmp]
    exact ⟨_, s, rfl, Leaves.of_documents hs hmaps rfl hshelf⟩
  · simp only [hcmp]
    -- The page that is changed is the first of the shelf now, not the one that was seen.
    cases hown : documentsOf name (s.documents collection) with
    | nil => rw [hown] at hshelf; cases hshelf
    | cons doc docs =>
      rw [hown] at hshelf
      obtain ⟨hcur, hrest⟩ := forall₂_cons.mp hshelf
      obtain ⟨before, after, hdocs, hbefore, hmeets, hafter⟩ := filter_eq_cons_iff.mp hown
      have hdoc := meets_named.mp hmeets
      obtain ⟨es, rfl, -⟩ := eq_map_of_field? hdoc
      obtain ⟨answer, new, hrun, hnew, hpage⟩ := pushRelease_split hs hmaps hname hbears hfound
        ⟨hdocs, hmeets, by simpa using hbefore⟩ hcur
      refine ⟨answer, _, hrun, hs, ?_, fun other hne => ?_, ?_⟩ <;> rw [documents_withDocuments]
      · rw [hdocs] at hmaps
        exact forall_mem_split.mpr ⟨⟨new, rfl⟩, (forall_mem_split.mp hmaps).2⟩
      · rw [hdocs, documentsOf_other hne hnew, documentsOf_other hne hdoc]
      · have hfilter : documentsOf name (before ++ .map new :: after) = .map new :: docs := by
          rw [← hafter]
          simp only [documentsOf, filter_append, filter_cons, meets_named.mpr hnew,
            if_true, filter_eq_nil_iff.mpr hbefore, nil_append]
        rw [hfilter]
        exact .cons hpage hrest

end Writing

theorem Shelf.front_eq_some {shelf : Shelf} {page : Page} (h : shelf.front = some page) :
    ∃ rest, shelf = some page :: rest := by
  rcases shelf with - | ⟨first, rest⟩
  · cases h
  · exact ⟨rest, congrArg (· :: rest) h⟩

theorem Page.put_cons (page cur : Page) (seen : Option Page) (rest : Shelf) :
    ∃ current' rest', page.put seen (some cur :: rest) = some current' :: rest' := by
  cases seen with
  | none => exact ⟨cur, rest ++ [some page], rfl⟩
  | some old =>
    rw [Page.put_some]
    split_ifs
    · exact ⟨cur, rest, rfl⟩
    · exact ⟨_, rest, rfl⟩

section Turns

variable {docs : Documents} {requests documents : ι → Value} {pages : ι → Page}
  {phases : ι → Progress} {table : Table ι}

omit [DecidableEq ι] in
theorem Follows.write {found : Option Value} {seen : Option Page} {i : ι}
    (h : Follows docs name documents pages s phases table) (hname : IsOf (documents i) name)
    (hbears : Bears (documents i) (pages i)) (hseen : Option.Rel Bears found seen)
    (hi : table.phases i = .looked seen) :
    ∃ answer s', write (documents i) (pages i).schema found s = .ok answer s' ∧
      Leaves s name s' ((pages i).put seen table.shelf) := by
  cases hseen with
  | none => exact write_none h.calm h.maps hname hbears h.shelf
  | some hfound =>
    obtain ⟨cur, rest, hshelf⟩ := h.seen i _ hi
    have hreads := h.shelf
    rw [hshelf] at hreads ⊢
    exact write_some h.calm h.maps hname hbears hfound hreads

theorem Follows.update {s' : State} {shelf : Shelf} {i : ι} {progress : Progress}
    {phase : Phase (Option Page) Unit} (h : Follows docs name documents pages s phases table)
    (hleaves : Leaves s name s' shelf) (htrack : Tracks (documents i) (pages i) progress phase)
    (hphase : ∀ page, phase = .looked (some page) → ∃ cur rest, shelf = some cur :: rest)
    (hshelf : ∀ cur rest, table.shelf = some cur :: rest →
      ∃ current' rest', shelf = some current' :: rest') :
    Follows docs name documents pages s' (Function.update phases i progress)
      ⟨shelf, Function.update table.phases i phase⟩ := by
  refine ⟨hleaves.calm, hleaves.maps, fun other hne => ?_, hleaves.shelf, fun j => ?_,
    fun j page hj => ?_⟩
  · rw [hleaves.others other hne, h.others other hne]
  · by_cases hij : j = i
    · subst hij
      simpa using htrack
    · simpa [hij] using h.phases j
  · by_cases hij : j = i
    · subst hij
      exact hphase page (by simpa using hj)
    · obtain ⟨cur, rest, heq⟩ := h.seen j page (by simpa [hij] using hj)
      exact hshelf cur rest heq

variable (hprepare : ∀ i, prepare (requests i) = .ok (documents i, (pages i).schema))
  (hname : ∀ i, IsOf (documents i) name)
  (hbears : ∀ i, Bears (documents i) (pages i))

include hprepare hname hbears

/-- A turn changes the documents and the phases as it changes the table. -/
theorem Follows.turn (h : Follows docs name documents pages s phases table) (i : ι) :
    ∃ phases' s', Schemas.turn requests phases i s = .ok phases' s' ∧
      Follows docs name documents pages s' phases' (table.turn pages i) := by
  have htrack := h.phases i
  unfold Schemas.turn Table.turn
  generalize hphase : phases i = progress at htrack
  generalize hphase' : table.phases i = phase at htrack
  cases htrack with
  | waiting =>
    obtain ⟨found, hlook, hfound⟩ := look_shelf h.calm h.maps (hname i) h.shelf
    refine ⟨_, reread s, (bind_known (hprepare i)).trans (bind_of_ok hlook), ?_⟩
    refine h.update (.of_documents h.calm h.maps (documents_reread s) h.shelf) (.looked hfound)
      ?_ fun cur rest heq => ⟨cur, rest, heq⟩
    intro page hpage
    obtain ⟨rest, heq⟩ := Shelf.front_eq_some (Phase.looked.inj hpage)
    exact ⟨page, rest, heq⟩
  | looked hseen =>
    obtain ⟨answer, s', hwrite, hleaves⟩ := h.write (hname i) (hbears i) hseen hphase'
    refine ⟨_, s', bind_of_ok hwrite, h.update hleaves (.done answer) nofun ?_⟩
    intro cur rest heq
    rw [heq]
    exact Page.put_cons _ _ _ _
  | done answer => exact ⟨phases, s, rfl, h⟩

/-- Any turns change the documents and the phases as they change the table. -/
theorem Follows.foldlM (h : Follows docs name documents pages s phases table) (order : List ι) :
    ∃ phases' s', order.foldlM (Schemas.turn requests) phases s = .ok phases' s' ∧
      Follows docs name documents pages s' phases' (order.foldl (Table.turn pages) table) := by
  induction order generalizing s phases table with
  | nil => exact ⟨phases, s, rfl, h⟩
  | cons i order ih =>
    obtain ⟨phases1, s1, hturn, h1⟩ := h.turn hprepare hname hbears i
    obtain ⟨phases', s', hrun, h'⟩ := ih h1
    refine ⟨phases', s', ?_, h'⟩
    exact (bind_of_ok hturn).trans hrun

end Turns

/-! ## Whole runs and the schemas that they account for -/

def Table.after (pages : ι → Page) (shelf : Shelf) (order : List ι) : Table ι :=
  order.foldl (turn pages) ⟨shelf, fun _ => .waiting⟩

def released (release : Value) : Value := (release.field? "schema").getD release

/-- Whether a schema is the active one of a page or has exactly one release. -/
def Page.accounts (page : Page) (schema : Value) : Bool :=
  compare page.schema schema ||
    page.releases.countP (fun release => compare (released release) schema) == 1

/-- The schema was active in a document of the import at some moment of the run. -/
def WasActive (requests : ι → Value) (order : List ι) (name : String) (s : State)
    (schema : Value) : Prop :=
  ∃ moment phases s', moment <+: order ∧ play requests moment s = .ok phases s' ∧
    ∃ doc ∈ documentsOf name (s'.documents collection), doc.field? "active_schema" = some schema

/-- The import has exactly one document, and it accounts for every schema that was active. -/
def Accounted (requests : ι → Value) (order : List ι) (name : String) (s s' : State) : Prop :=
  ∃ doc page, documentsOf name (s'.documents collection) = [doc] ∧ Bears doc page ∧
    ∀ schema, WasActive requests order name s schema → page.accounts schema = true

/-- A shelf of one page that accounts for all pages of other shelves. -/
def Shelf.Keeps (final : Shelf) (moments : List Shelf) : Prop :=
  ∃ page, final = [some page] ∧ ∀ shelf ∈ moments, ∀ p, some p ∈ shelf → page.accounts p.schema

theorem Bears.unique {doc : Value} {p q : Page} (hp : Bears doc p) (hq : Bears doc q) : p = q := by
  obtain ⟨⟨schema', createdAt'⟩, releases'⟩ := q
  have hsch := hp.schema.symm.trans hq.schema
  have hcreatedAt := hp.createdAt.symm.trans hq.createdAt
  have hrels := hp.releases.symm.trans hq.releases
  simp only [Page.schema, Option.some.injEq, Value.map.injEq, Value.list.injEq] at *
  subst hsch hcreatedAt hrels
  rfl

theorem active_eq {docs : Documents} {shelf : Shelf} (h : Forall₂ Reads docs shelf) :
    docs.map (·.field? "active_schema") = shelf.map (·.map Page.schema) := by
  induction h with
  | nil => rfl
  | @cons doc page _ _ hreads _ ih =>
    rw [map_cons, ih]
    cases page with
    | none => exact congrArg (· :: _) hreads
    | some page => exact congrArg (· :: _) hreads.schema

section Runs

variable {requests : ι → Value} {pages : ι → Page} {shelf : Shelf}
  (hstores : ∀ i, Stores (requests i) name (pages i)) (hs : s.Calm)
  (hmaps : AllMaps (s.documents collection))
  (hshelf : Forall₂ Reads (documentsOf name (s.documents collection)) shelf)

include hstores hs hmaps hshelf

/-- Requests that take turns are all answered, and what they leave is what the table says. -/
theorem play_run (order : List ι) :
    ∃ phases s', play requests order s = .ok phases s' ∧
      (∀ i, (Table.after pages shelf order).phases i = .done () → ∃ a, phases i = .done a) ∧
      Leaves s name s' (Table.after pages shelf order).shelf := by
  choose documents hprepare hname hbears using hstores
  have hstart : Follows (s.documents collection) name documents pages s (fun _ => .waiting)
      ⟨shelf, fun _ => .waiting⟩ :=
    ⟨hs, hmaps, fun _ _ => rfl, hshelf, fun _ => .waiting, nofun⟩
  obtain ⟨phases, s', hrun, hfollows⟩ := hstart.foldlM hprepare hname hbears order
  refine ⟨phases, s', hrun, fun i hi => ?_, hfollows.calm, hfollows.maps, hfollows.others,
    hfollows.shelf⟩
  have htrack := hfollows.phases i
  unfold Table.after at hi
  rw [hi] at htrack
  generalize phases i = progress at htrack
  cases htrack with
  | done answer => exact ⟨answer, rfl⟩

theorem wasActive_iff (order : List ι) (schema : Value) :
    WasActive requests order name s schema ↔
      ∃ moment, moment <+: order ∧
        ∃ p, some p ∈ (Table.after pages shelf moment).shelf ∧ p.schema = schema := by
  constructor
  · rintro ⟨moment, phases, s', hmoment, hrun, hdoc⟩
    obtain ⟨phases1, s1, hrun1, -, hleaves⟩ := play_run hstores hs hmaps hshelf moment
    cases hrun.symm.trans hrun1
    have hmem := mem_map.mpr hdoc
    rw [active_eq hleaves.shelf, mem_map] at hmem
    obtain ⟨page, hpage, heq⟩ := hmem
    obtain ⟨p, rfl, hp⟩ := Option.map_eq_some_iff.mp heq
    exact ⟨moment, hmoment, p, hpage, hp⟩
  · rintro ⟨moment, hmoment, p, hp, rfl⟩
    obtain ⟨phases, s', hrun, -, hleaves⟩ := play_run hstores hs hmaps hshelf moment
    have hmem : some p.schema ∈ (Table.after pages shelf moment).shelf.map (·.map Page.schema) :=
      mem_map_of_mem hp
    rw [← active_eq hleaves.shelf, mem_map] at hmem
    exact ⟨moment, phases, s', hmoment, hrun, hmem⟩

theorem accounted_iff {s' : State} {order : List ι}
    (hleaves : Leaves s name s' (Table.after pages shelf order).shelf) :
    Accounted requests order name s s' ↔
      (Table.after pages shelf order).shelf.Keeps
        (order.inits.map fun moment => (Table.after pages shelf moment).shelf) := by
  have hact := wasActive_iff hstores hs hmaps hshelf order
  have hreads := hleaves.shelf
  constructor
  · rintro ⟨doc, page, hdocs, hbears, haccs⟩
    rw [hdocs] at hreads
    obtain ⟨read, rest, hread, hrest, hfinal⟩ := forall₂_cons_left_iff.mp hreads
    cases hrest
    cases read with
    | none =>
      have hblank : doc.field? "active_schema" = none := hread
      rw [hbears.schema] at hblank
      cases hblank
    | some page' =>
      cases hbears.unique hread
      refine ⟨page, hfinal, fun moment hmoment p hp => ?_⟩
      obtain ⟨prior, hprior, rfl⟩ := mem_map.mp hmoment
      exact haccs _ ((hact _).mpr ⟨prior, (mem_inits _ _).mp hprior, p, hp, rfl⟩)
  · rintro ⟨page, hfinal, haccs⟩
    rw [hfinal] at hreads
    obtain ⟨doc, rest, hread, hrest, hdocs⟩ := forall₂_cons_right_iff.mp hreads
    cases hrest
    refine ⟨doc, page, hdocs, hread, fun schema hsch => ?_⟩
    obtain ⟨moment, hmoment, p, hp, rfl⟩ := (hact schema).mp hsch
    exact haccs _ (mem_map_of_mem ((mem_inits _ _).mpr hmoment)) p hp

end Runs

/-! ## Two requests -/

def IsSerial (order : List Bool) : Prop := ∃ first, order = [first, first, !first, !first]

/-- The request that writes first, and where its turns stand. -/
theorem interleaved {order : List Bool} (h : order.Perm [false, false, true, true]) :
    ∃ first, order = [first, first, !first, !first] ∨ order = [first, !first, first, !first] ∨
      order = [!first, first, first, !first] := by
  have hlen := h.length_eq
  match order, hlen with
  | [a, b, c, d], _ =>
    revert a b c d
    decide

section Two

variable (pages : Bool → Page) (shelf : Shelf) (first : Bool)

def half : Shelf := (pages first).put shelf.front shelf

def course (order : List Bool) : Shelf × List Shelf :=
  ((Table.after pages shelf order).shelf,
    order.inits.map fun moment => (Table.after pages shelf moment).shelf)

theorem course_serial :
    course pages shelf [first, first, !first, !first] =
      ((pages !first).put (half pages shelf first).front (half pages shelf first),
        [shelf, shelf, half pages shelf first, half pages shelf first,
          (pages !first).put (half pages shelf first).front (half pages shelf first)]) := by
  cases first <;> simp [course, Table.after, Table.turn, half]

theorem course_overlap {order : List Bool}
    (h : order = [first, !first, first, !first] ∨ order = [!first, first, first, !first]) :
    course pages shelf order =
      ((pages !first).put shelf.front (half pages shelf first),
        [shelf, shelf, shelf, half pages shelf first,
          (pages !first).put shelf.front (half pages shelf first)]) := by
  rcases h with rfl | rfl <;> cases first <;> simp [course, Table.after, Table.turn, half]

end Two

def Involved (shelf : Shelf) (pages : Bool → Page) (page : Page) : Prop :=
  some page ∈ shelf ∨ ∃ i, pages i = page

/-- Schemas can be told from each other, and none of them has a release yet. -/
structure Fresh (shelf : Shelf) (pages : Bool → Page) : Prop where
  refl : ∀ p, Involved shelf pages p → compare p.schema p.schema = true
  symm : ∀ p q, Involved shelf pages p → Involved shelf pages q →
    compare p.schema q.schema = compare q.schema p.schema
  unreleased : ∀ p q, Involved shelf pages p → Involved shelf pages q →
    ∀ release ∈ p.releases, compare (released release) q.schema = false
  differ : compare (pages false).schema (pages true).schema = false

section Law

variable {pages : Bool → Page} {shelf : Shelf} (h : Fresh shelf pages)

include h

theorem Fresh.differ_not (i : Bool) : compare (pages i).schema (pages !i).schema = false := by
  cases i with
  | false => exact h.differ
  | true => exact (h.symm _ _ (.inr ⟨true, rfl⟩) (.inr ⟨false, rfl⟩)).trans h.differ

variable {p q : Page} (hp : Involved shelf pages p) (hq : Involved shelf pages q)

include hp hq

theorem Fresh.countP_releases (added : List Page) :
    (p.releases ++ added.map (·.active.release)).countP
        (fun release => compare (released release) q.schema) =
      added.countP (fun page => compare page.schema q.schema) := by
  have hnone : p.releases.countP (fun release => compare (released release) q.schema) = 0 := by
    rw [countP_eq_zero]
    intro release hrelease
    simp [h.unreleased p q hp hq release hrelease]
  rw [countP_append, hnone, Nat.zero_add, countP_map]
  rfl

/-- A page that was turned once has one release that counts. -/
theorem Fresh.accounts_turned (a b : Page) :
    (p.turned a b).accounts q.schema =
      (compare a.schema q.schema || compare b.schema q.schema) := by
  have hcnt : (p.turned a b).releases.countP (fun r => compare (released r) q.schema) =
      [b].countP (fun page => compare page.schema q.schema) := h.countP_releases hp hq [b]
  rw [Page.accounts, hcnt, Page.schema_turned]
  cases hb : compare b.schema q.schema <;> simp [hb]

/-- A page that was turned twice has two releases that count. -/
theorem Fresh.accounts_turned_turned (a b c d : Page) :
    ((p.turned a b).turned c d).accounts q.schema =
      (compare c.schema q.schema || (compare b.schema q.schema != compare d.schema q.schema)) := by
  have hcnt : ((p.turned a b).turned c d).releases.countP
      (fun r => compare (released r) q.schema) =
        [b, d].countP (fun page => compare page.schema q.schema) := by
    rw [← h.countP_releases hp hq [b, d]]
    simp [Page.turned]
  rw [Page.accounts, hcnt, Page.schema_turned]
  cases hb : compare b.schema q.schema <;> cases hd : compare d.schema q.schema <;> simp [hb, hd]

omit hp hq

variable (hone : shelf.length ≤ 1) (first : Bool)

include hone

/-- One after the other, the requests lose nothing, unless a document without a page stands before
what they write. -/
theorem keeps_serial :
    Shelf.Keeps ((pages !first).put (half pages shelf first).front (half pages shelf first))
      [shelf, shelf, half pages shelf first, half pages shelf first,
        (pages !first).put (half pages shelf first).front (half pages shelf first)] ↔
      shelf ≠ [none] := by
  have hdiffer := h.differ_not first
  have hfst : Involved shelf pages (pages first) := .inr ⟨first, rfl⟩
  have hlast : Involved shelf pages (pages !first) := .inr ⟨!first, rfl⟩
  have hsame := h.refl _ hfst
  have hsame' := h.refl _ hlast
  rcases shelf with - | ⟨- | page, - | ⟨_, _⟩⟩
  · simp [Shelf.Keeps, half, hdiffer, h.accounts_turned hfst, hfst, hlast, hsame, hsame']
  · simp [Shelf.Keeps, half]
  · simp at hone
  · have hpage : Involved [some page] pages page := .inl mem_cons_self
    have hsame'' := h.refl _ hpage
    have hsymm := h.symm _ _ hfst hpage
    by_cases hrepeat : compare page.schema (pages first).schema = true
    · by_cases hrepeat' : compare page.schema (pages !first).schema = true
      · simp [Shelf.Keeps, half, hrepeat, hrepeat', Page.accounts, hsame'']
      · simp [Shelf.Keeps, half, hrepeat, hrepeat', h.accounts_turned hpage, hpage, hlast, hsame',
          hsame'']
    · simp [Shelf.Keeps, half, hdiffer, hrepeat, h.accounts_turned_turned hpage, hpage, hfst,
        hlast, hsame, hsame', hsame'', hsymm]
  · simp at hone

/-- Both having seen the same shelf, the requests lose nothing exactly if one of them has nothing to
write. -/
theorem keeps_overlap :
    Shelf.Keeps ((pages !first).put shelf.front (half pages shelf first))
      [shelf, shelf, shelf, half pages shelf first,
        (pages !first).put shelf.front (half pages shelf first)] ↔
      ∃ page, shelf = [some page] ∧ ∃ i, compare page.schema (pages i).schema = true := by
  have hfst : Involved shelf pages (pages first) := .inr ⟨first, rfl⟩
  have hlast : Involved shelf pages (pages !first) := .inr ⟨!first, rfl⟩
  have hsame := h.refl _ hfst
  rcases shelf with - | ⟨- | page, - | ⟨_, _⟩⟩
  · simp [Shelf.Keeps, half]
  · simp [Shelf.Keeps, half]
  · simp at hone
  · have hpage : Involved [some page] pages page := .inl mem_cons_self
    have hsame'' := h.refl _ hpage
    have hsymm := h.symm _ _ hlast hpage
    have hright : (∃ p, ([some page] : Shelf) = [some p] ∧
        ∃ i, compare p.schema (pages i).schema = true) ↔
          compare page.schema (pages first).schema = true ∨
            compare page.schema (pages !first).schema = true := by
      cases first <;> simp [or_comm]
    rw [hright]
    by_cases hrepeat : compare page.schema (pages first).schema = true
    · have hhalf : half pages [some page] first = [some page] := by simp [half, hrepeat]
      have hserial := keeps_serial h hone first
      rw [hhalf] at hserial ⊢
      simpa [hrepeat] using hserial
    · by_cases hrepeat' : compare page.schema (pages !first).schema = true
      · simp [Shelf.Keeps, half, hrepeat, hrepeat', h.accounts_turned hpage, hpage, hfst, hsame,
          hsame'']
      · simp [Shelf.Keeps, half, hrepeat, hrepeat', h.accounts_turned_turned hpage, hpage, hsymm]
  · simp at hone

end Law

theorem play_serial (requests : Bool → Value) (first : Bool) :
    play requests [first, first, !first, !first] = (do
      let answer ← insert (requests first)
      let answer' ← insert (requests !first)
      return fun i => .done (if i = first then answer else answer') : Work (Bool → Progress)) := by
  have hsplit : play requests [first, first, !first, !first] =
      [first, first].foldlM (turn requests) (fun _ => .waiting) >>=
        fun phases => [!first, !first].foldlM (turn requests) phases := by
    simp only [play, foldlM_cons, foldlM_nil, bind_assoc, pure_bind]
  rw [hsplit, turn_twice requests rfl, bind_assoc]
  congr 1
  funext answer
  rw [pure_bind, turn_twice requests (by simp)]
  congr 1
  funext answer'
  congr 1
  funext i
  cases first <;> cases i <;> rfl

/-- Two requests for one import that take turns in any order are both answered, and what they leave
is what the shelf says. With schemas that can be told from each other, one document accounts for all
that were active exactly if one request came after the other or one of them had nothing to write. -/
theorem accounted_iff_serial_or_idle (hs : s.Calm) (hmaps : AllMaps (s.documents collection))
    (requests : Bool → Value) (pages : Bool → Page)
    (hstores : ∀ i, Stores (requests i) name (pages i)) (shelf : Shelf)
    (hshelf : List.Forall₂ Reads (documentsOf name (s.documents collection)) shelf)
    (hone : shelf.length ≤ 1) (order : List Bool) (horder : order.Perm [false, false, true, true]) :
    ∃ phases s', play requests order s = .ok phases s' ∧ (∀ i, ∃ a, phases i = .done a) ∧
      (∀ first, order = [first, first, !first, !first] → play requests order = (do
        let answer ← insert (requests first)
        let answer' ← insert (requests !first)
        return fun i => .done (if i = first then answer else answer') : Work (Bool → Progress))) ∧
      Leaves s name s' (Table.after pages shelf order).shelf ∧
      (Fresh shelf pages → (Accounted requests order name s s' ↔
        shelf ≠ [none] ∧ (IsSerial order ∨
          ∃ page, shelf = [some page] ∧ ∃ i, compare page.schema (pages i).schema = true))) := by
  obtain ⟨phases, s', hrun, hdone, hleaves⟩ := play_run hstores hs hmaps hshelf order
  refine ⟨phases, s', hrun, fun i => hdone i ?_, ?_, hleaves, fun hfresh => ?_⟩
  · obtain ⟨first, rfl | rfl | rfl⟩ := interleaved horder <;> cases first <;> cases i <;>
      simp [Table.after, Table.turn]
  · rintro first rfl
    exact play_serial requests first
  have hkeeps : Accounted requests order name s s' ↔
      (course pages shelf order).1.Keeps (course pages shelf order).2 :=
    accounted_iff hstores hs hmaps hshelf hleaves
  rw [hkeeps]
  obtain ⟨first, rfl | horder⟩ := interleaved horder
  · have hserial : IsSerial [first, first, !first, !first] := ⟨first, rfl⟩
    rw [course_serial, keeps_serial hfresh hone first]
    exact (and_iff_left (.inl hserial)).symm
  · have hserial : ¬ IsSerial order := by
      rintro ⟨first', rfl⟩
      revert horder
      cases first <;> cases first' <;> decide
    rw [course_overlap pages shelf first horder, keeps_overlap hfresh hone first]
    constructor
    · rintro ⟨page, rfl, hrepeat⟩
      exact ⟨by simp, .inr ⟨page, rfl, hrepeat⟩⟩
    · rintro ⟨-, hserial' | hidle⟩
      · exact absurd hserial' hserial
      · exact hidle

theorem IsInsertion.stores {req : Value} {version : Version}
    (h : IsInsertion req name version) : Stores req name ⟨version, []⟩ := by
  obtain ⟨prepared, hprepare, hprep⟩ := h.prepare_eq
  refine ⟨prepared, hprepare, hprep.importName, hprep.holds.schema,
    hprep.holds.createdAt, ?_⟩
  rw [hprep.holds.releases]
  rfl

def rivalOrders (i : Bool) : Value := if i then storeOrder "5" "June" else storeOrder "3" "May"

def rivalPages (i : Bool) : Page := ⟨if i then orderVersion 5 "June" else orderVersion 3 "May", []⟩

def ordersPage : Page where
  active.schema := [(.text "schema", .text "draft"), (.text "type", .text "object"),
    (.text "required", .list [.text "amount"]),
    (.text "properties", .record [("amount", .record [("type", .text "integer")])])]
  active.createdAt := .text "2024-01-01"
  releases := []

theorem fresh_rivals : Fresh [some ordersPage] rivalPages := by
  have hinvolved : ∀ p, Involved [some ordersPage] rivalPages p →
      p = ordersPage ∨ p = rivalPages false ∨ p = rivalPages true := by
    rintro p (hp | ⟨i, rfl⟩)
    · exact .inl (by simpa using hp)
    · cases i <;> simp
  refine ⟨fun p hp => ?_, fun p q hp hq => ?_, fun p q hp hq => ?_, ?_⟩
  · rcases hinvolved p hp with rfl | rfl | rfl <;> cbv
  · rcases hinvolved p hp with rfl | rfl | rfl <;> rcases hinvolved q hq with rfl | rfl | rfl <;>
      cbv
  · rcases hinvolved p hp with rfl | rfl | rfl <;> simp [ordersPage, rivalPages]
  · cbv

theorem accounted_iff_serial_or_idle_orders :
    (∃ phases s', play rivalOrders [false, true, false, true] ordersStored = .ok phases s' ∧
      ¬ Accounted rivalOrders [false, true, false, true] "orders" ordersStored s') ∧
    ∃ phases s', play rivalOrders [false, false, true, true] ordersStored = .ok phases s' ∧
      Accounted rivalOrders [false, false, true, true] "orders" ordersStored s' := by
  have hthree : parseProperties (orderProperties "3") = .ok (orderParsed 3) := by cbv
  have hfive : parseProperties (orderProperties "5") = .ok (orderParsed 5) := by cbv
  have hstores : ∀ i, Stores (rivalOrders i) "orders" (rivalPages i) := by
    intro i
    cases i with
    | false => exact (isInsertion_storeOrder hthree "May").stores
    | true => exact (isInsertion_storeOrder hfive "June").stores
  have hmaps : AllMaps (ordersStored.documents collection) := by
    intro doc hdoc
    cases mem_singleton.mp hdoc
    exact ⟨_, rfl⟩
  have hshelf : Forall₂ Reads (documentsOf "orders" (ordersStored.documents collection))
      [some ordersPage] := .cons ⟨rfl, rfl, rfl⟩ .nil
  have hs : ordersStored.Calm := rfl
  have hnew : ∀ i, compare ordersPage.schema (rivalPages i).schema = false := by
    intro i
    cases i <;> cbv
  constructor
  · obtain ⟨phases, s', hrun, -, -, -, hlaw⟩ := accounted_iff_serial_or_idle hs hmaps rivalOrders
      rivalPages hstores _ hshelf (by simp) [false, true, false, true] (by decide)
    refine ⟨phases, s', hrun, fun haccounted => ?_⟩
    obtain ⟨-, ⟨first, hserial⟩ | ⟨page, hpage, i, hi⟩⟩ := (hlaw fresh_rivals).mp haccounted
    · cases first <;> cases hserial
    · cases hpage
      rw [hnew] at hi
      cases hi
  · obtain ⟨phases, s', hrun, -, -, -, hlaw⟩ := accounted_iff_serial_or_idle hs hmaps rivalOrders
      rivalPages hstores _ hshelf (by simp) [false, false, true, true] (by decide)
    exact ⟨phases, s', hrun, (hlaw fresh_rivals).mpr ⟨by simp, .inl ⟨false, rfl⟩⟩⟩

end SheetMill.Database.Schemas
