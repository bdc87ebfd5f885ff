import SheetMill.Proofs.Value
import SheetMill.Proofs.Work

/-!
# Documents selected by their fields

Where it selects a document with others before and behind it that it does not select, an update
changes this document, a removal takes it away, and a replacement puts another one in its place; all
other documents stay as they are.
-/

namespace SheetMill.Database.Documents

open Act Value List

/-- Whether a document has all the given fields with equal values. -/
def meets (fs : List (String × Value)) (doc : Value) : Bool :=
  fs.all fun (name, v) =>
    match doc.field? name with
    | some w => w.same v
    | none => false

def AllMaps (docs : Documents) : Prop := ∀ doc ∈ docs, ∃ es, doc = .map es

variable {fs : List (String × Value)} {docs : Documents} {sets : List (String × Value)}
  {u doc : Value} {f : Fault} {change : Value → Value → Value → Outcome Value}
  {es : List (Value × Value)}

@[simp] theorem meets_nil (doc : Value) : meets [] doc = true := rfl

theorem meets_cons_text {name t : String} :
    meets ((name, .text t) :: fs) doc = true ↔
      doc.field? name = some (.text t) ∧ meets fs doc = true := by
  cases h : doc.field? name with
  | none => simp [meets, h]
  | some v => simp [meets, h, same_text_right]

theorem selects_map (fs : List (String × Value)) (es : List (Value × Value)) :
    selects (.record fs) (.map es) = .ok (meets fs (.map es)) := by
  have htest : ∀ name v, (do
      if ← (Value.map es).holds (.text name) then
        return (← (Value.map es).under (.text name)).same v
      else return false) = (.ok (meets [(name, v)] (.map es)) : Outcome Bool) := by
    intro name v
    cases hent : findEntry (.text name) es with
    | none => simp [holds, isKey, meets, hent]
    | some w => simp [holds, isKey, meets, hent, under_of_field? (v := .map es) hent]
  unfold selects record entriesAs
  rw [Outcome.ok_bind, Outcome.allM_of_ok (p := fun e => meets [(e.1.plain, e.2)] (.map es))]
  · simp [meets, plain, Function.comp_def]
  · intro field hfld
    obtain ⟨⟨name, v⟩, -, rfl⟩ := mem_map.mp hfld
    exact htest name v

theorem selects_record (h : AllMaps docs) (hdoc : doc ∈ docs) :
    selects (.record fs) doc = .ok (meets fs doc) := by
  obtain ⟨es, rfl⟩ := h doc hdoc
  exact selects_map fs es

theorem place?_record (h : AllMaps docs) :
    place? (.record fs) docs = .ok (docs.findIdx? (meets fs)) := by
  induction docs with
  | nil => rfl
  | cons doc docs ih =>
    have hrest : AllMaps docs := fun d hd => h d (mem_cons_of_mem _ hd)
    rw [place?, selects_record h mem_cons_self, findIdx?_cons]
    cases meets fs doc with
    | true => rfl
    | false =>
      rw [ih hrest]
      rfl

theorem count_record (h : AllMaps docs) :
    docs.count (.record fs) = .ok (docs.filter (meets fs)).length := by
  unfold count
  rw [Outcome.filterM_of_ok fun doc hdoc => selects_record h hdoc]
  rfl

/-! ## Updates -/

/-- The changes of one operator of an update, one after the other. -/
def changeEach (u : Value) (operator : String) (change : Value → Value → Value → Outcome Value) :
    Act Value Unit := do
  for (k, v) in ← (← u.getD operator (.map [])).entriesAs "items" do
    set (← change k v (← get))

theorem amend_eq (u : Value) : amend u = (do
    changeEach u "$set" fun path v doc => do setAt (← namesOf path) v doc
    changeEach u "$push" push
    changeEach u "$pop" fun k _ doc => pop k doc) := rfl

theorem changeEach_of_ok {doc' : Value} {operator : String}
    (hents : u.getD operator (.map []) = .ok (.map es))
    (h : es.foldlM (fun doc (k, v) => change k v doc) doc = .ok doc') :
    changeEach u operator change doc = .ok () doc' := by
  unfold changeEach
  rw [bind_known hents]
  refine (bind_of_ok (lift_ok es _)).trans (bind_of_ok (forIn_of_foldlM ?_ h))
  rintro ⟨k, v⟩ doc next hnext
  exact (bind_of_ok (get_run _)).trans (bind_known hnext)

theorem changeEach_of_error {k v : Value} {operator : String}
    (hents : u.getD operator (.map []) = .ok (.map ((k, v) :: es)))
    (h : change k v doc = .error f) : changeEach u operator change doc = .error f doc := by
  unfold changeEach
  rw [bind_known hents]
  refine (bind_of_ok (lift_ok ((k, v) :: es) _)).trans (bind_of_error ?_)
  refine bind_of_error ?_
  exact (bind_of_ok (get_run _)).trans (bind_of_error (lift_of_error h _))

theorem setAt_map (name : String) (path : List String) (v : Value)
    (es : List (Value × Value)) :
    setAt (name :: path) v (.map es) = (do
      let inner := (findEntry (.text name) es).getD (.map [])
      return .map (setEntry (.text name) (← setAt path v inner) es)) := by
  cases path <;> rfl

theorem splitChars_ne_nil (sep : Char) (cs : List Char) : Text.splitChars sep cs ≠ [] := by
  cases cs with
  | nil => simp [Text.splitChars]
  | cons c cs =>
    unfold Text.splitChars
    split_ifs
    · simp
    · split <;> simp

theorem setAt_split_map (name : String) (v : Value) (es : List (Value × Value)) :
    (∃ f, setAt (Text.split name '.') v (.map es) = .error f) ∨
      ∃ first path inner, Text.split name '.' = first :: path ∧
        setAt path v ((findEntry (.text first) es).getD (.map [])) = .ok inner ∧
        setAt (Text.split name '.') v (.map es) =
          .ok (.map (setEntry (.text first) inner es)) := by
  cases hpath : Text.split name '.' with
  | nil => exact absurd (map_eq_nil_iff.mp hpath) (splitChars_ne_nil '.' name.toList)
  | cons first path =>
    rw [setAt_map]
    cases hinner : setAt path v ((findEntry (.text first) es).getD (.map [])) with
    | error f =>
      left
      exact ⟨f, by simp [hinner]⟩
    | ok inner =>
      right
      exact ⟨first, path, inner, rfl, hinner, by simp [hinner]⟩

theorem setAt_field {name : String} (hname : Text.split name '.' = [name]) (v : Value)
    (es : List (Value × Value)) :
    (do setAt (← namesOf (.text name)) v (.map es)) =
      (.ok (.map (setEntry (.text name) v es)) : Outcome Value) := by
  simp [namesOf, hname, setAt]

theorem foldlM_setAt (hnames : ∀ e ∈ sets, Text.split e.1 '.' = [e.1])
    (es : List (Value × Value)) :
    (sets.map (named id)).foldlM (fun doc (k, v) => do setAt (← namesOf k) v doc) (.map es) =
      (.ok (.map ((sets.map (named id)).foldl (fun acc (k, v) => setEntry k v acc) es)) :
        Outcome Value) := by
  induction sets generalizing es with
  | nil => rfl
  | cons e sets ih =>
    obtain ⟨name, v⟩ := e
    have hname : Text.split name '.' = [name] := hnames (name, v) mem_cons_self
    rw [map_cons, foldlM_cons]
    simp only [named, id_eq]
    rw [setAt_field hname]
    exact ih (fun e he => hnames e (mem_cons_of_mem _ he)) _

theorem changeEach_set (hu : u.getD "$set" (.map []) = .ok (.record sets))
    (hnames : ∀ e ∈ sets, Text.split e.1 '.' = [e.1]) (es : List (Value × Value)) :
    changeEach u "$set" (fun path v doc => do setAt (← namesOf path) v doc) (.map es) =
      .ok () (.map ((sets.map (named id)).foldl (fun acc (k, v) => setEntry k v acc) es)) :=
  changeEach_of_ok hu (foldlM_setAt hnames es)

theorem amend_of_foldlM {doc' : Value}
    (h : (sets.map (named id)).foldlM (fun doc (k, v) => do setAt (← namesOf k) v doc) doc =
      .ok doc') : amend (.record [("$set", .record sets)]) doc = .ok () doc' := by
  rw [amend_eq]
  refine (bind_of_ok (changeEach_of_ok rfl h)).trans ?_
  exact (bind_of_ok (changeEach_of_ok rfl rfl)).trans (changeEach_of_ok rfl rfl)

theorem amend_set (hnames : ∀ e ∈ sets, Text.split e.1 '.' = [e.1])
    (es : List (Value × Value)) :
    amend (.record [("$set", .record sets)]) (.map es) =
      .ok () (.map ((sets.map (named id)).foldl (fun acc (k, v) => setEntry k v acc) es)) :=
  amend_of_foldlM (foldlM_setAt hnames es)

/-- Where only the first path may have dots, a document is updated as a whole or stays as it is. -/
theorem amend_set_cons (name : String) (v : Value) {rest : List (String × Value)}
    (hnames : ∀ e ∈ rest, Text.split e.1 '.' = [e.1]) (es : List (Value × Value)) :
    (∃ f, amend (.record [("$set", .record ((name, v) :: rest))]) (.map es) =
        .error f (.map es)) ∨
      ∃ first path inner, Text.split name '.' = first :: path ∧
        setAt path v ((findEntry (.text first) es).getD (.map [])) = .ok inner ∧
        amend (.record [("$set", .record ((name, v) :: rest))]) (.map es) =
          .ok () (.map ((rest.map (named id)).foldl (fun acc (k, v) => setEntry k v acc)
            (setEntry (.text first) inner es))) := by
  rcases setAt_split_map name v es with ⟨f, hset⟩ | ⟨first, path, inner, hpath, hinner, hset⟩
  · left
    refine ⟨f, ?_⟩
    rw [amend_eq]
    exact bind_of_error (changeEach_of_error rfl hset)
  · right
    refine ⟨first, path, inner, hpath, hinner, amend_of_foldlM ?_⟩
    rw [map_cons, foldlM_cons]
    have hfst : (do setAt (← namesOf (.text name)) v (.map es)) =
        (.ok (.map (setEntry (.text first) inner es)) : Outcome Value) := hset
    simp only [named, id_eq, hfst, Outcome.ok_bind]
    exact foldlM_setAt hnames _

/-! ## A document and its neighbours -/

section Split

variable {before after : Documents} {doc doc' : Value}

section Selected

variable (h : AllMaps docs) (hdoc : Located (meets fs) docs before doc after)

include h hdoc

theorem place?_split : place? (.record fs) docs = .ok (some before.length) := by
  have hnone : before.findIdx? (meets fs) = none := findIdx?_eq_none_iff.mpr hdoc.first
  rw [place?_record h, hdoc.eq, findIdx?_append, hnone, findIdx?_cons, hdoc.found]
  simp

theorem first?_split : first? docs (.record fs) = .ok (some doc) := by
  rw [first?, place?_split h hdoc]
  simp [hdoc.eq]

/-- The document is amended in its place, also where an operator of the update is refused. -/
theorem update_eq_amend (u : Value) :
    update (.record fs) u docs =
      match amend u doc with
      | .ok _ doc' => .ok ⟨1, if keeps u doc then 0 else 1⟩ (before ++ doc' :: after)
      | .error f doc' => .error f (before ++ doc' :: after) := by
  unfold update
  rw [bind_of_ok (get_run _), bind_known (place?_split h hdoc)]
  cases hamend : amend u doc with
  | ok _ doc' =>
    simp only [hdoc.getD, outcome_of_ok hamend, hdoc.set]
    rfl
  | error f doc' =>
    simp only [hdoc.getD, outcome_of_error hamend, hdoc.set]
    rfl

theorem update_split (hamend : amend u doc = .ok () doc') :
    ∃ report, update (.record fs) u docs = .ok report (before ++ doc' :: after) := by
  rw [update_eq_amend h hdoc, hamend]
  exact ⟨_, rfl⟩

theorem update_split_of_error (hamend : amend u doc = .error f doc') :
    update (.record fs) u docs = .error f (before ++ doc' :: after) := by
  rw [update_eq_amend h hdoc, hamend]

theorem remove_split : remove (.record fs) docs = .ok 1 (before ++ after) := by
  unfold remove
  rw [bind_of_ok (get_run _), bind_known (place?_split h hdoc)]
  have herase : docs.eraseIdx before.length = before ++ after := by
    simp [hdoc.eq, eraseIdx_append_of_length_le]
  simp only [herase]
  rfl

theorem replace_split (new : Value) (id : Nat) :
    replace (.record fs) new id docs = .ok true
      (before ++ new.withField "_id" ((doc.field? "_id").getD .null) :: after) := by
  unfold replace
  rw [bind_of_ok (get_run _), bind_known (place?_split h hdoc)]
  simp only [hdoc.getD, hdoc.set]
  rfl

end Selected

section Unselected

variable (h : AllMaps docs) (hnone : ∀ x ∈ docs, meets fs x = false)

include h hnone

theorem place?_none : place? (.record fs) docs = .ok none := by
  rw [place?_record h, findIdx?_eq_none_iff.mpr hnone]

theorem first?_none : docs.first? (.record fs) = .ok none := by
  simp [first?, place?_none h hnone]

theorem update_none : update (.record fs) u docs = .ok ⟨0, 0⟩ docs := by
  unfold update
  rw [bind_of_ok (get_run _), bind_known (place?_none h hnone)]
  rfl

theorem remove_none : remove (.record fs) docs = .ok 0 docs := by
  unfold remove
  rw [bind_of_ok (get_run _), bind_known (place?_none h hnone)]
  rfl

theorem replace_none (new : Value) (id : Nat) :
    replace (.record fs) new id docs =
      .ok false (docs ++ [new.withField "_id" (.objectId id)]) := by
  unfold replace
  rw [bind_of_ok (get_run _), bind_known (place?_none h hnone)]
  rfl

end Unselected

theorem first?_record (h : AllMaps docs) (fs : List (String × Value)) :
    docs.first? (.record fs) = .ok (docs.find? (meets fs)) := by
  rcases located_or_none (meets fs) docs with hnone | ⟨before, doc, after, hdoc⟩
  · rw [first?_none h hnone, find?_eq_none.mpr (by simpa using hnone)]
  · rw [first?_split h hdoc, hdoc.find?]

/-! ## Documents of a class

Each class of documents that the service works on has one document at most. -/

section Class

variable {p : Value → Bool}

theorem eq_false_of_filter_eq_nil (h : docs.filter p = []) : ∀ x ∈ docs, p x = false := by
  simpa using h

/-- A document that is the only one of its class stands between documents of other classes. -/
theorem split_of_filter (h : docs.filter p = [doc]) :
    ∃ before after, Located p docs before doc after ∧ (before ++ after).filter p = [] := by
  obtain ⟨before, after, rfl, hbefore, hdoc, hafter⟩ := filter_eq_cons_iff.mp h
  have hnone : ∀ x ∈ before, p x = false := by simpa using hbefore
  refine ⟨before, after, ⟨rfl, hdoc, hnone⟩, ?_⟩
  rw [filter_append, hafter]
  simpa using hnone

theorem filter_split_of_false (h : p doc = false) :
    (before ++ doc :: after).filter p = (before ++ after).filter p := by
  simp [h]

theorem filter_split_of_none (hnone : (before ++ after).filter p = []) (h : p doc = true) :
    (before ++ doc :: after).filter p = [doc] := by
  rw [filter_append, append_eq_nil_iff] at hnone
  rw [filter_append, filter_cons, hnone.1, hnone.2, h]
  rfl

end Class

end Split

/-! ## Calls on a calm state -/

section Calm

variable {s : State} {coll : String} {filter : Value}

theorem findOne_calm (hs : s.Calm) {found : Option Value}
    (h : (s.documents coll).first? filter = .ok found) :
    findOne coll filter s = .ok found (s.reread coll) :=
  within_calm hs ((bind_of_ok (get_run _)).trans (lift_of_ok h _))

theorem findOne_record (hs : s.Calm) (hmaps : AllMaps (s.documents coll))
    (fs : List (String × Value)) :
    findOne coll (.record fs) s = .ok ((s.documents coll).find? (meets fs))
      (s.reread coll) :=
  findOne_calm hs (first?_record hmaps fs)

theorem findAll_calm (hs : s.Calm) (hmaps : AllMaps (s.documents coll))
    (fs : List (String × Value)) :
    findAll coll (.record fs) s = .ok ((s.documents coll).filter (meets fs))
      (s.reread coll) := by
  refine within_calm hs ((bind_of_ok (get_run _)).trans (lift_of_ok ?_ _))
  exact Outcome.filterM_of_ok fun doc hdoc => selects_record hmaps hdoc

theorem countOf_calm (hs : s.Calm) {n : Nat} (h : (s.documents coll).count filter = .ok n) :
    countOf coll filter s = .ok n (s.reread coll) :=
  within_calm hs ((bind_of_ok (get_run _)).trans (lift_of_ok h _))

section Selected

variable {before after : Documents} {doc doc' u : Value} (hs : s.Calm)
  (hmaps : AllMaps (s.documents coll))
  (hdoc : Located (meets fs) (s.documents coll) before doc after)

include hs hmaps hdoc

theorem findOne_split :
    findOne coll (.record fs) s =
      .ok (some doc) (s.reread coll) :=
  findOne_calm hs (first?_split hmaps hdoc)

theorem updateOne_split (hamend : amend u doc = .ok () doc') :
    ∃ report, updateOne coll (.record fs) u s =
      .ok report (s.withDocuments coll (before ++ doc' :: after)) := by
  obtain ⟨report, hreport⟩ := update_split hmaps hdoc hamend
  exact ⟨report, within_calm hs hreport⟩

theorem updateOne_of_error (hamend : amend u doc = .error f doc') :
    updateOne coll (.record fs) u s =
      .error f (s.withDocuments coll (before ++ doc' :: after)) :=
  within_refused hs (update_split_of_error hmaps hdoc hamend)

theorem replaceOne_split (new : Value) :
    ∃ id, replaceOne coll (.record fs) new s =
      .ok () (s.withDocuments coll (before ++ new.withField "_id" id :: after)) := by
  have hreplace := replace_split hmaps hdoc new s.nextDocument
  refine ⟨(doc.field? "_id").getD .null, (bind_of_ok (get_run s)).trans ?_⟩
  exact (bind_of_ok (within_calm hs hreplace)).trans rfl

end Selected

theorem updateOne_none (hs : s.Calm) (hmaps : AllMaps (s.documents coll))
    (hnone : ∀ x ∈ s.documents coll, meets fs x = false) (u : Value) :
    updateOne coll (.record fs) u s =
      .ok ⟨0, 0⟩ (s.reread coll) :=
  within_calm hs (update_none hmaps hnone)

theorem replaceOne_none (hs : s.Calm) (hmaps : AllMaps (s.documents coll))
    (hnone : ∀ x ∈ s.documents coll, meets fs x = false) (new : Value) :
    ∃ id s', replaceOne coll (.record fs) new s = .ok () s' ∧ s'.Calm ∧
      s'.cache = s.cache ∧
      s'.documents coll = s.documents coll ++ [new.withField "_id" id] := by
  have hreplace := replace_none hmaps hnone new s.nextDocument
  refine ⟨.objectId s.nextDocument, { s.withDocuments coll (s.documents coll ++
    [new.withField "_id" (.objectId s.nextDocument)]) with nextDocument := s.nextDocument + 1 },
    ?_, hs, rfl, documents_withDocuments s coll _⟩
  exact (bind_of_ok (get_run s)).trans ((bind_of_ok (within_calm hs hreplace)).trans rfl)

theorem insert_calm (hs : s.Calm) (coll : String) (es : List (Value × Value)) :
    ∃ id s', insert coll (.map es) s = .ok id s' ∧ s'.Calm ∧
      s'.documents coll =
        s.documents coll ++ [identified (.map es) s.nextDocument] := by
  refine ⟨_, _, (bind_of_ok (announce_calm hs _ _)).trans rfl, ?_, ?_⟩
  · exact hs
  · exact documents_withDocuments s coll _

end Calm

end SheetMill.Database.Documents
