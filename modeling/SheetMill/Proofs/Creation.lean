import SheetMill.Proofs.Build

/-!
# The statement that creates the table

The first level of a plan is one statement. It creates the table with the columns that cite no
column of the table, which are those of rank zero.
-/

namespace SheetMill.Table

open Value Outcome List

variable {cols : List (String × Value)} {types : Value} {table : String} {g : Graph Value}
  {keyed : Bool} {order : Enumeration}

/-! ## Primary keys -/

/-- What is said of a column beside its type speaks of a primary key. -/
def SpeaksOfKey (types : Value) : Prop :=
  ∃ es name type extra, types = .map es ∧ (name, type) ∈ es ∧
    type.getD "extra" (.text "") = .ok (.text extra) ∧
    Text.contains (Text.lower extra) "primary key" = true

theorem marksKey_eq_true {type : Value} : Plan.marksKey type = .ok true ↔
    ∃ extra, type.getD "extra" (.text "") = .ok (.text extra) ∧
      Text.contains (Text.lower extra) "primary key" = true := by
  unfold Plan.marksKey
  cases type.getD "extra" (.text "") with
  | error e => simp
  | ok extra => cases extra <;> simp

theorem anyMarksKey_iff {es : List (Value × Value)} (h : Plan.anyMarksKey es = .ok keyed) :
    keyed = true ↔ ∃ entry ∈ es, Plan.marksKey entry.2 = .ok true := by
  induction es with
  | nil =>
    cases h
    simp
  | cons entry es ih =>
    obtain ⟨marks, hmarks, h⟩ := bind_eq_ok.mp h
    cases marks with
    | true =>
      cases h
      exact iff_of_true rfl ⟨entry, mem_cons_self, hmarks⟩
    | false => simp [ih h, hmarks]

theorem hasPrimaryKey_iff (h : Plan.hasPrimaryKey types = .ok keyed) :
    keyed = true ↔ SpeaksOfKey types := by
  obtain ⟨entries, hents, h⟩ := bind_eq_ok.mp h
  obtain rfl : types = .map entries := by cases types <;> cases hents; rfl
  rw [anyMarksKey_iff h]
  constructor
  · rintro ⟨⟨name, type⟩, hmem, hmarks⟩
    obtain ⟨extra, hextra⟩ := marksKey_eq_true.mp hmarks
    exact ⟨entries, name, type, extra, rfl, hmem, hextra⟩
  · rintro ⟨_, name, type, extra, heq, hmem, hextra⟩
    cases heq
    exact ⟨(name, type), hmem, marksKey_eq_true.mpr ⟨extra, hextra⟩⟩

/-! ## Columns of rank zero -/

theorem rank_eq_zero_iff (hkeys : (keysOf cols).Nodup) (h : dependenciesIn order (.record cols) = .ok g)
    (hg : g.isCyclic = false) {c : String} {formula : Value} (hmem : (c, formula) ∈ cols) :
    rank g c = 0 ↔ ∀ d ∈ keysOf cols, ¬ Cites d formula := by
  obtain ⟨refs, -, hrefs, hsum⟩ := rank_eq_sum hkeys h hg hmem
  have hzero : rank g c = 0 ↔ refs = [] := by
    cases refs with
    | nil => simpa using hsum
    | cons d refs =>
      simp [hsum]
  rw [hzero, eq_nil_iff_forall_not_mem]
  simp [hrefs]

/-- Some column cites no other: one of the lowest rank. -/
theorem exists_rank_eq_zero (hkeys : (keysOf cols).Nodup)
    (h : dependenciesIn order (.record cols) = .ok g) (hg : g.isCyclic = false) (hne : cols ≠ []) :
    ∃ c ∈ keysOf cols, rank g c = 0 := by
  have hnonempty : (keysOf cols).toFinset.Nonempty := by simpa using hne
  obtain ⟨c, hc, hlowest⟩ := (keysOf cols).toFinset.exists_min_image (rank g) hnonempty
  simp only [mem_toFinset] at hc hlowest
  obtain ⟨⟨c, formula⟩, hmem, rfl⟩ := mem_map.mp hc
  refine ⟨c, hc, (rank_eq_zero_iff hkeys h hg hmem).mpr fun d hd hcites => ?_⟩
  exact Nat.not_lt_of_le (hlowest d hd) (rank_lt_of_cites hkeys h hg hmem hd hcites)

theorem atStart_ranked (g : Graph Value) (cols : List (String × Value)) :
    Plan.atStart (ranked g cols) = ((keysOf cols).filter (rank g · = 0)).map .text := by
  unfold Plan.atStart ranked keysOf
  rw [filter_map, filter_map, List.map_map, List.map_map]
  rfl

/-! ## The statement -/

theorem creation_eq_ok {names : List Value} {d : Definition}
    (h : Plan.creation types keyed table names = .ok d) (hne : names ≠ []) :
    ∃ definitions, definitions ≠ [] ∧
      Forall₂ (fun name definition => Plan.columnDefinition types name = .ok definition) names
        definitions ∧
      d = { sql := "CREATE TABLE IF NOT EXISTS " ++ table ++ " (" ++
              (if keyed then "" else "id SERIAL PRIMARY KEY, ") ++
              (Text.join ", " definitions ++ ");")
            columns := (if keyed then [] else [.text "id"]) ++ names } := by
  obtain ⟨definitions, hdefinitions, h⟩ := bind_eq_ok.mp h
  have hall := mapM_eq_ok.mp hdefinitions
  cases h
  cases hall with
  | nil => exact absurd rfl hne
  | cons hfst hrest => exact ⟨_, cons_ne_nil _ _, .cons hfst hrest, rfl⟩

/-- Whenever a table of some columns is built, the first level is the one statement that creates
it. The statement defines the columns that cite no column of the table, in order, behind an
identity column if no type speaks of a primary key. -/
theorem table_created_first (order : Enumeration) (cols : List (String × Value))
    (hkeys : (keysOf cols).Nodup) (hne : cols ≠ []) (types : Value) (table : String)
    (answer : Value)
    (h : buildIn order (.record cols) types table = .ok answer)
    (herror : answer.field? "error" = some .null) :
    ∃ (keyed : Bool) (names definitions : List String) (content : Value),
      (keyed = true ↔ SpeaksOfKey types) ∧ names.Sublist (keysOf cols) ∧
      (∀ c formula, (c, formula) ∈ cols → (c ∈ names ↔ ∀ d ∈ keysOf cols, ¬ Cites d formula)) ∧
      definitions ≠ [] ∧
      Forall₂ (fun c definition => Plan.columnDefinition types (.text c) = .ok definition) names
        definitions ∧
      answer.field? "content" = some content ∧
      content.under (.int 0) = .ok (.record [("sql_content", .list [.record [
        ("sql", .text ("CREATE TABLE IF NOT EXISTS " ++ table ++ " (" ++
          (if keyed then "" else "id SERIAL PRIMARY KEY, ") ++
          (Text.join ", " definitions ++ ");"))),
        ("columns", .list ((if keyed then [] else [.text "id"]) ++ names.map .text))]])]) := by
  obtain ⟨g, plan, hg, hcyclic, hplan, rfl⟩ := build_eq_ok h herror
  obtain ⟨keyed, first, made, hkeyed, hfirst, hmade, -, rfl⟩ :=
    ofGraph_eq_ok hkeys (names_of_dependencies hg) hcyclic hplan
  let names := (keysOf cols).filter (rank g · = 0)
  obtain ⟨c, hc, hzero⟩ := exists_rank_eq_zero hkeys hg hcyclic hne
  have hnames : names ≠ [] := ne_nil_of_mem (mem_filter.mpr ⟨hc, by simpa using hzero⟩)
  rw [atStart_ranked] at hfirst
  obtain ⟨definitions, hsome, hall, rfl⟩ := creation_eq_ok hfirst fun hnil =>
    hnames (map_eq_nil_iff.mp hnil)
  refine ⟨keyed, names, definitions, _, hasPrimaryKey_iff hkeyed, filter_sublist, ?_, hsome,
    forall₂_map_left_iff.mp hall, rfl, ?_⟩
  · intro c formula hmem
    have hkey : c ∈ keysOf cols := mem_map_of_mem hmem
    rw [← rank_eq_zero_iff hkeys hg hcyclic hmem, mem_filter, and_iff_right hkey, decide_eq_true_iff]
  · rw [Plan.appended_start hmade]
    rfl

/-- Of three columns only `a` is computed from none. -/
theorem table_created_first_shared :
    let types := wholeNumbers ["a", "b", "c"]
    build (.record sharedColumns) types "t" = .ok sharedPlan.answer ∧
      ∃ (keyed : Bool) (names definitions : List String), (keyed = true ↔ SpeaksOfKey types) ∧
        names.Sublist ["c", "b", "a"] ∧ "a" ∈ names ∧ "b" ∉ names ∧ "c" ∉ names ∧
        Forall₂ (fun c definition => Plan.columnDefinition types (.text c) = .ok definition) names
          definitions := by
  intro types
  have hbuild : build (.record sharedColumns) types "t" = .ok sharedPlan.answer := by cbv
  obtain ⟨keyed, names, definitions, content, hkeyed, hsublist, hnames, -, hall, -⟩ :=
    table_created_first _ sharedColumns (by decide) (by simp [sharedColumns]) types "t" _ hbuild rfl
  have ha : ("a", numberNode "1") ∈ sharedColumns := by simp [sharedColumns]
  have hb : ("b", oppositeNode (cellNode "a") "-a") ∈ sharedColumns := by simp [sharedColumns]
  have hc : ("c", sumNode (cellNode "a") (cellNode "b") "a + b") ∈ sharedColumns := by
    simp [sharedColumns]
  have hcites : Cites "a" (cellNode "a") := .cell rfl rfl
  refine ⟨hbuild, keyed, names, definitions, hkeyed, hsublist, ?_, fun hmem => ?_, fun hmem => ?_,
    hall⟩
  · exact (hnames "a" _ ha).mpr fun d _ => not_cites_literal rfl (by decide)
  · exact (hnames "b" _ hb).mp hmem "a" (by decide) (.operand rfl rfl hcites)
  · exact (hnames "c" _ hc).mp hmem "a" (by decide) (.left rfl rfl hcites)

/-! ## Graphs with the same edges -/

namespace Graph

variable {ν : Type} {g g' : Graph ν}

/-- The same vertices and the same set of edges. -/
structure Alike (g g' : Graph ν) : Prop where
  names : g.names = g'.names
  edges (i j : Nat) : (i, j) ∈ g.edges ↔ (i, j) ∈ g'.edges

namespace Alike

theorem size_eq (h : Alike g g') : g.size = g'.size := congrArg length h.names

theorem hasEdge_eq (h : Alike g g') (i : Nat) : g.hasEdge i = g'.hasEdge i := by
  funext j
  rw [Bool.eq_iff_iff, hasEdge_iff, hasEdge_iff, h.edges]

theorem walkStarts_eq (h : Alike g g') (n : Nat) : g.walkStarts n = g'.walkStarts n := by
  induction n with
  | zero => rw [walkStarts, walkStarts, h.size_eq]
  | succ n ih => simp [walkStarts, withSuccessorIn, ih, h.hasEdge_eq]

theorem isCyclic_eq (h : Alike g g') : g.isCyclic = g'.isCyclic := by
  rw [isCyclic, isCyclic, h.size_eq, h.walkStarts_eq]

theorem levelUpTo_eq [BEq ν] (h : Alike g g') (n : Nat) : g.levelUpTo n = g'.levelUpTo n := by
  induction n with
  | zero => rfl
  | succ n ih =>
    funext name
    simp only [levelUpTo, position?, successorNames, successors, ih, h.names, h.size_eq,
      h.hasEdge_eq]

theorem level_eq [BEq ν] (h : Alike g g') : g.level = g'.level := by
  funext name
  rw [level, level, h.isCyclic_eq, h.size_eq, h.levelUpTo_eq]

end Alike

end Graph

/-! ## Formulas over the same columns -/

variable {cols cols' : List (String × Value)} {order order' : Enumeration} {g g' : Graph Value}
  {name : String}

/-- Two formulas with the same statement and over the same columns, however they are built and
however often they repeat a column. -/
structure Interchange (names : List String) (formula formula' : Value) : Prop where
  sql : formula.item "sql" = formula'.item "sql"
  trees : IsTree names formula ↔ IsTree names formula'
  mentions (name : String) : Mentions name formula ↔ Mentions name formula'

/-- The same columns in the same order, the formulas of each over the same columns. -/
def Interchanged (cols cols' : List (String × Value)) : Prop :=
  Forall₂ (fun a b => a.1 = b.1 ∧ Interchange (keysOf cols) a.2 b.2) cols cols'

namespace Interchanged

theorem keysOf_eq (h : Interchanged cols cols') : keysOf cols = keysOf cols' :=
  forall₂_eq_eq_eq ▸ forall₂_map_left_iff.mpr (forall₂_map_right_iff.mpr (h.imp fun _ _ => And.left))

theorem namesOf_eq (h : Interchanged cols cols') : namesOf cols = namesOf cols' := by
  simpa [namesOf, Function.comp_def] using congrArg (map Value.text) h.keysOf_eq

theorem symm (h : Interchanged cols cols') : Interchanged cols' cols := by
  unfold Interchanged
  rw [← h.keysOf_eq]
  exact h.flip.imp fun _ _ ⟨hname, hf⟩ => ⟨hname.symm, hf.sql.symm, hf.trees.symm, fun name =>
    (hf.mentions name).symm⟩

theorem exists_mem (h : Interchanged cols cols') {c : String} {formula : Value}
    (hmem : (c, formula) ∈ cols) :
    ∃ formula', (c, formula') ∈ cols' ∧ Interchange (keysOf cols) formula formula' := by
  unfold Interchanged at h
  generalize keysOf cols = names at h
  induction h with
  | nil => cases hmem
  | @cons a b _ _ hab _ ih =>
    rcases mem_cons.mp hmem with rfl | hmem
    · exact ⟨b.2, mem_cons.mpr (.inl (Prod.ext hab.1 rfl)), hab.2⟩
    · obtain ⟨formula', hmem', hf⟩ := ih hmem
      exact ⟨formula', mem_cons_of_mem b hmem', hf⟩

theorem allTrees (h : Interchanged cols cols') (htrees : AllTrees cols) : AllTrees cols' := by
  intro c formula hmem
  obtain ⟨formula', hmem', hf⟩ := h.symm.exists_mem hmem
  exact hf.trees.mpr (h.keysOf_eq ▸ htrees c formula' hmem')

theorem refers (h : Interchanged cols cols') {c d : String} (hrefers : Refers cols c d) :
    Refers cols' c d := by
  obtain ⟨formula, hmem, hd, hm⟩ := hrefers
  obtain ⟨formula', hmem', hf⟩ := h.exists_mem hmem
  exact ⟨formula', hmem', h.keysOf_eq ▸ hd, (hf.mentions d).mp hm⟩

theorem sql_eq (h : Interchanged cols cols') (name : Value) :
    ((record cols).under name >>= (·.item "sql")) =
      ((record cols').under name >>= (·.item "sql")) := by
  unfold Interchanged at h
  generalize keysOf cols = names at h
  induction h with
  | nil => rfl
  | @cons a b cols cols' hab _ ih =>
    simp only [record, under, map_cons, findEntry, hab.1] at ih ⊢
    split
    · cases (Value.text b.1).sameScalar name with
      | true => exact hab.2.sql
      | false => simpa [*] using ih
    · rfl

theorem addition_eq (h : Interchanged cols cols') (types : Value) (table : String) :
    Plan.addition (.record cols) types table = Plan.addition (.record cols') types table := by
  funext name
  have hsql := h.sql_eq name
  simp [Plan.addition, ← bind_assoc, hsql]

end Interchanged

/-! ## The graph and the table -/

theorem mem_edges_iff_refers (hkeys : (keysOf cols).Nodup) (htrees : AllTrees cols)
    (h : dependenciesIn order (.record cols) = .ok g) {i j : Nat} :
    (i, j) ∈ g.edges ↔ ∃ c d, (keysOf cols)[i]? = some c ∧ (keysOf cols)[j]? = some d ∧
      Refers cols c d := by
  have hnames := names_of_dependencies h
  have hsize : g.size = (keysOf cols).length := by simp [Graph.size, hnames]
  constructor
  · intro he
    obtain ⟨_, _, _, _, -, -, -, hi, hj⟩ := (mem_edges_of_dependencies h).mp he
    have hi := Graph.lt_size_of_position hi
    have hj := Graph.lt_size_of_position hj
    have hc := getElem?_eq_getElem (hsize ▸ hi)
    have hd := getElem?_eq_getElem (hsize ▸ hj)
    refine ⟨_, _, hc, hd, ?_⟩
    exact (edge_iff_refers hkeys htrees h ((position?_eq_some_iff hnames hkeys).mpr hc)
      ((position?_eq_some_iff hnames hkeys).mpr hd)).mp ⟨hi, hj, he⟩
  · rintro ⟨c, d, hc, hd, hrefers⟩
    exact ((edge_iff_refers hkeys htrees h ((position?_eq_some_iff hnames hkeys).mpr hc)
      ((position?_eq_some_iff hnames hkeys).mpr hd)).mpr hrefers).2.2

theorem Interchanged.alike (hsame : Interchanged cols cols') (hkeys : (keysOf cols).Nodup)
    (htrees : AllTrees cols) (h : dependenciesIn order (.record cols) = .ok g)
    (h' : dependenciesIn order' (.record cols') = .ok g') : g.Alike g' where
  names := by rw [names_of_dependencies h, names_of_dependencies h', hsame.namesOf_eq]
  edges i j := by
    rw [mem_edges_iff_refers hkeys htrees h,
      mem_edges_iff_refers (hsame.keysOf_eq ▸ hkeys) (hsame.allTrees htrees) h', hsame.keysOf_eq]
    have hrefers : ∀ c d, Refers cols c d ↔ Refers cols' c d := fun c d =>
      ⟨hsame.refers, hsame.symm.refers⟩
    simp [hrefers]

theorem Interchanged.addAll_eq (h : Interchanged cols cols') (types : Value) (table : String)
    (later : List (Value × Nat)) (plan : Plan) :
    Plan.addAll (.record cols) types table later plan =
      Plan.addAll (.record cols') types table later plan := by
  induction later generalizing plan with
  | nil => rfl
  | cons column later ih => simp [Plan.addAll, h.addition_eq, ih]

theorem Interchanged.ofGraph_eq (h : Interchanged cols cols') (hg : g.Alike g') (types : Value)
    (table : String) :
    Plan.ofGraph (.record cols) g types table = Plan.ofGraph (.record cols') g' types table := by
  simp [Plan.ofGraph, Plan.levelsOf, h.namesOf_eq, hg.level_eq, h.addAll_eq]

/-- The same table is built, or the same fault reported, in whatever order the columns that a node
refers to are listed and however often a formula repeats a column. -/
theorem built_alike_in_any_order (cols cols' : List (String × Value))
    (hkeys : (keysOf cols).Nodup) (h : AllFormulas cols) (h' : AllFormulas cols')
    (hsame : Interchanged cols cols') (order order' : Enumeration) (types : Value)
    (table : String) :
    buildIn order (.record cols) types table = buildIn order' (.record cols') types table := by
  unfold buildIn
  rcases failsIf_dependencies order hkeys h with
    ⟨hranges, f, hf, rfl⟩ | ⟨htrees, g, hg, -⟩
  · rcases failsIf_dependencies order' (hsame.keysOf_eq ▸ hkeys) h' with
      ⟨-, f, hf', rfl⟩ | ⟨htrees, -⟩
    · rw [hf, hf', error_bind, error_bind]
    · exact absurd (hsame.symm.allTrees (not_not.mp htrees)) hranges
  · rw [not_not] at htrees
    rcases failsIf_dependencies order' (hsame.keysOf_eq ▸ hkeys) h' with
      ⟨hranges, -⟩ | ⟨-, g', hg', -⟩
    · exact absurd (hsame.allTrees htrees) hranges
    · have halike := hsame.alike hkeys htrees hg hg'
      rw [hg, hg']
      simp only [ok_bind, halike.isCyclic_eq, hsame.ofGraph_eq halike]

def Enumeration.reversed : Enumeration :=
  ⟨fun _ cols => cols.reverse, fun _ cols => reverse_perm cols⟩

/-- The column `c` is the sum of the given cells. -/
def summedColumns (cells : List String) : List (String × Value) :=
  [("a", numberNode "1"), ("b", numberNode "2"), ("c", functionNode (cells.map cellNode) "a + b")]

theorem allTrees_summedColumns {cells : List String} (h : ∀ name ∈ cells, name ∈ ["a", "b"]) :
    AllTrees (summedColumns cells) := by
  intro c formula hmem
  simp only [summedColumns, mem_cons, Prod.mk.injEq, not_mem_nil, or_false] at hmem
  rcases hmem with ⟨-, rfl⟩ | ⟨-, rfl⟩ | ⟨-, rfl⟩
  · exact .literal rfl (by decide)
  · exact .literal rfl (by decide)
  · refine .function rfl rfl fun part hpart => ?_
    obtain ⟨name, hname, rfl⟩ := mem_map.mp hpart
    exact .cell rfl rfl (mem_append_left ["c"] (h name hname))

/-- Listed in another order, and with a repeated cell, the edges are others and the table is the
same. -/
theorem built_alike_in_any_order_reversed :
    let once := Value.record (summedColumns ["a", "b"])
    let twice := Value.record (summedColumns ["a", "b", "a"])
    let types := wholeNumbers ["a", "b", "c"]
    (Graph.edges <$> dependencies once) = .ok [(2, 0), (2, 1)] ∧
      (Graph.edges <$> dependenciesIn .reversed twice) = .ok [(2, 1), (2, 0)] ∧
      ∃ answer, build once types "t" = .ok answer ∧
        buildIn .reversed twice types "t" = .ok answer := by
  intro once twice types
  have htrees : AllTrees (summedColumns ["a", "b"]) := allTrees_summedColumns (by decide)
  have htwice : AllTrees (summedColumns ["a", "b", "a"]) := allTrees_summedColumns (by decide)
  have hsame : Interchanged (summedColumns ["a", "b"]) (summedColumns ["a", "b", "a"]) := by
    have hrest : ∀ column : String × Value, column.1 = column.1 ∧
        Interchange ["a", "b", "c"] column.2 column.2 := fun column =>
      ⟨rfl, rfl, .rfl, fun _ => .rfl⟩
    refine .cons (hrest _) (.cons (hrest _) (.cons ⟨rfl, rfl, ?_, fun name => ?_⟩ .nil))
    · exact iff_of_true (htrees "c" _ (by simp [summedColumns]))
        (htwice "c" _ (by simp [summedColumns]))
    · simp only [mentions_functionNode, map_cons, map_nil]
      grind
  obtain ⟨answer, hanswer⟩ : ∃ answer, build once types "t" = .ok answer := ⟨_, by cbv⟩
  refine ⟨by cbv, by cbv, answer, hanswer, ?_⟩
  rw [← hanswer]
  exact (built_alike_in_any_order _ _ (by decide) (fun c formula hmem => .tree (htrees c formula hmem))
    (fun c formula hmem => .tree (htwice c formula hmem)) hsame .asFound .reversed types "t").symm

end SheetMill.Table
