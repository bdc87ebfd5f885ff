import SheetMill.Proofs.Dependencies
import SheetMill.Proofs.Plan

/-!
# Building a table from formulas

The rank of a column is its level in the graph of dependencies: the sum, over the columns of the
table that its formula mentions, of one plus the rank of the column. A column is defined at the
level of its rank, so after all columns that it is computed from.
-/

namespace SheetMill.Table

open Relation Value Outcome List

variable {cols : List (String × Value)} {types : Value} {table : String} {g : Graph Value}
  {name : String} {formula : Value} {c : String} {plan : Plan} {names : List String}
  {order : Enumeration}

/-! ## Ranks -/

def rank (g : Graph Value) (name : String) : Nat :=
  match g.position? (.text name) with
  | some i => g.levelAt i
  | none => 0

theorem rank_of_position {i : Nat} (h : g.position? (.text name) = some i) :
    rank g name = g.levelAt i := by
  simp [rank, h]

def nameAt (cols : List (String × Value)) (i : Nat) : String := (keysOf cols).getD i ""

theorem position?_eq_some_iff_nameAt (hnames : g.names = namesOf cols) (hkeys : (keysOf cols).Nodup)
    {i : Nat} : g.position? (.text name) = some i ↔ i < g.size ∧ nameAt cols i = name := by
  have hsize : g.size = (keysOf cols).length := by simp [Graph.size, hnames]
  have hnameAt : ∀ hi, nameAt cols i = (keysOf cols)[i] := by
    intro hi
    rw [nameAt, getD_eq_getElem?_getD, getElem?_eq_getElem hi, Option.getD_some]
  rw [position?_eq_some_iff hnames hkeys, getElem?_eq_some_iff, hsize]
  constructor
  · rintro ⟨hi, hget⟩
    exact ⟨hi, (hnameAt hi).trans hget⟩
  · rintro ⟨hi, hname⟩
    exact ⟨hi, (hnameAt hi).symm.trans hname⟩

theorem acyclic_of_refers (hkeys : (keysOf cols).Nodup) (htrees : AllTrees cols)
    (h : dependenciesIn order (.record cols) = .ok g) (hacyclic : ∀ c, ¬ TransGen (Refers cols) c c) :
    g.Acyclic := by
  have hnames := names_of_dependencies h
  have hposn : ∀ {i}, i < g.size → g.position? (.text (nameAt cols i)) = some i := fun hi =>
    (position?_eq_some_iff_nameAt hnames hkeys).mpr ⟨hi, rfl⟩
  have hstep : ∀ i j, g.Edge i j → Refers cols (nameAt cols i) (nameAt cols j) := fun i j he =>
    (edge_iff_refers hkeys htrees h (hposn he.1) (hposn he.2.1)).mp he
  intro i hcycle
  exact hacyclic _ (hcycle.lift (nameAt cols) hstep)

theorem rank_lt_of_cites (hkeys : (keysOf cols).Nodup) (h : dependenciesIn order (.record cols) = .ok g)
    (hg : g.isCyclic = false) {d : String} (hmem : (c, formula) ∈ cols) (hd : d ∈ keysOf cols)
    (hcites : Cites d formula) : rank g d < rank g c := by
  have hnames := names_of_dependencies h
  obtain ⟨i, -, hi⟩ := exists_position hnames hkeys (mem_map_of_mem hmem)
  obtain ⟨j, -, hj⟩ := exists_position hnames hkeys hd
  rw [rank_of_position hi, rank_of_position hj]
  exact Graph.levelAt_lt_of_edge hg ((edge_iff_cites hkeys h hmem hi hj).mpr hcites)

theorem rank_eq_sum (hkeys : (keysOf cols).Nodup) (h : dependenciesIn order (.record cols) = .ok g)
    (hg : g.isCyclic = false) (hmem : (c, formula) ∈ cols) :
    ∃ refs : List String, refs.Nodup ∧ (∀ d, d ∈ refs ↔ d ∈ keysOf cols ∧ Cites d formula) ∧
      rank g c = (refs.map fun d => 1 + rank g d).sum := by
  have hnames := names_of_dependencies h
  obtain ⟨i, hisize, hi⟩ := exists_position hnames hkeys (mem_map_of_mem hmem)
  have hposn : ∀ j ∈ g.successors i, g.position? (.text (nameAt cols j)) = some j := by
    intro j hj
    exact (position?_eq_some_iff_nameAt hnames hkeys).mpr ⟨(Graph.mem_successors.mp hj).1, rfl⟩
  refine ⟨(g.successors i).map (nameAt cols), ?_, fun d => ?_, ?_⟩
  · refine (Graph.nodup_successors i).map_on fun j hj k hk heq => ?_
    have hjk := (hposn j hj).symm.trans (heq ▸ hposn k hk)
    exact Option.some.inj hjk
  · constructor
    · intro hd
      obtain ⟨j, hj, rfl⟩ := mem_map.mp hd
      obtain ⟨hjsize, he⟩ := Graph.mem_successors.mp hj
      have hname := (position?_eq_some_iff hnames hkeys).mp (hposn j hj)
      exact ⟨mem_of_getElem? hname,
        (edge_iff_cites hkeys h hmem hi (hposn j hj)).mp ⟨hisize, hjsize, he⟩⟩
    · rintro ⟨hd, hcites⟩
      obtain ⟨j, hjsize, hj⟩ := exists_position hnames hkeys hd
      obtain ⟨-, -, he⟩ := (edge_iff_cites hkeys h hmem hi hj).mpr hcites
      have hname := ((position?_eq_some_iff_nameAt hnames hkeys).mp hj).2
      exact mem_map.mpr ⟨j, Graph.mem_successors.mpr ⟨hjsize, he⟩, hname⟩
  · rw [rank_of_position hi, Graph.levelAt_eq_sum hg hisize, List.map_map]
    congr 1
    apply map_congr_left
    intro j hj
    simp [rank_of_position (hposn j hj)]

/-! ## The levels of the columns -/

def ranked (g : Graph Value) (cols : List (String × Value)) : List (Value × Nat) :=
  cols.map fun (c, _) => (.text c, rank g c)

theorem foldl_distinct {levels kept : List (Value × Nat)}
    (h : (kept ++ levels).Pairwise fun a b => a.1.sameScalar b.1 = false) :
    levels.foldl (fun kept (name, level) =>
      if kept.any fun (other, _) => other.sameScalar name then kept
      else kept ++ [(name, level)]) kept = kept ++ levels := by
  induction levels generalizing kept with
  | nil => simp
  | cons column levels ih =>
    have hnew : (kept.any fun other => other.1.sameScalar column.1) = false := by
      rw [any_eq_false]
      intro other hother
      rw [(pairwise_append.mp h).2.2 other hother column mem_cons_self]
      simp
    rw [append_cons] at h
    simp [hnew, ih h]

theorem levelsOf_record (hkeys : (keysOf cols).Nodup) (hnames : g.names = namesOf cols)
    (hg : g.isCyclic = false) :
    Plan.levelsOf g (namesOf cols) = .ok (ranked g cols) := by
  have hmap : (namesOf cols).mapM (fun name => do
      let level ← g.level name
      if name.isKey then pure (name, level) else throw (Formula.lookupFault name)) =
      .ok (ranked g cols) := by
    rw [ranked, mapM_eq_ok, forall₂_map_left_iff, forall₂_map_right_iff,
      forall₂_same]
    rintro ⟨c, formula⟩ hmem
    obtain ⟨i, -, hi⟩ := exists_position hnames hkeys (mem_map_of_mem hmem)
    simp [Graph.level_of_position hg (named_of_keys hnames hkeys) hi, rank_of_position hi, isKey]
  have hdist : ([] ++ ranked g cols).Pairwise
      fun a b : Value × Nat => a.1.sameScalar b.1 = false := by
    rw [nil_append, ranked, pairwise_map]
    refine (pairwise_map.mp hkeys).imp ?_
    intro a b hab
    simpa using hab
  unfold Plan.levelsOf
  rw [hmap]
  exact congrArg Except.ok ((foldl_distinct hdist).trans (nil_append _))

theorem length_eraseDups (levels : List Nat) : levels.eraseDups.length = levels.toFinset.card := by
  induction hlen : levels.length using Nat.strong_induction_on generalizing levels with
  | _ n ih =>
    cases levels with
    | nil => rfl
    | cons l levels =>
      subst hlen
      have hle := length_filter_le (fun k => !k == l) levels
      have hrest := ih _ (Nat.lt_succ_of_le hle) _ rfl
      have hinsert : (l :: levels).toFinset =
          insert l (levels.filter fun k => !k == l).toFinset := by
        ext k
        by_cases hk : k = l <;> simp [hk]
      rw [eraseDups_cons, length_cons, hrest, hinsert]
      simp

/-! ## The types of the columns -/

/-- The types of the columns are maps, what they say beside the type is text, and each of the given
columns has a type. -/
def Typed (types : Value) (names : List String) : Prop :=
  ∃ es, types = .map es ∧
    (∀ name type, (name, type) ∈ es →
      ∃ extra, type.getD "extra" (.text "") = .ok (.text extra)) ∧
    ∀ name ∈ names, ∃ type kind, types.field? name = some type ∧ type.field? "type" = some kind

theorem Typed.exists_hasPrimaryKey (h : Typed types names) :
    ∃ keyed, Plan.hasPrimaryKey types = .ok keyed := by
  obtain ⟨es, rfl, hextra, -⟩ := h
  suffices hany : ∃ keyed, Plan.anyMarksKey es = .ok keyed by
    simpa [Plan.hasPrimaryKey, entriesAs] using hany
  induction es with
  | nil => exact ⟨false, rfl⟩
  | cons entry es ih =>
    obtain ⟨name, type⟩ := entry
    obtain ⟨extra, hget⟩ := hextra name type mem_cons_self
    obtain ⟨keyed, hkeyed⟩ := ih fun name type hmem =>
      hextra name type (mem_cons_of_mem _ hmem)
    have hmarks : Plan.marksKey type =
        .ok (Text.contains (Text.lower extra) "primary key") := by
      simp [Plan.marksKey, hget]
    cases hkey : Text.contains (Text.lower extra) "primary key" with
    | true => exact ⟨true, by simp [Plan.anyMarksKey, hmarks, hkey]⟩
    | false => exact ⟨keyed, by simp [Plan.anyMarksKey, hmarks, hkey, hkeyed]⟩

theorem Typed.column (h : Typed types names) (hname : name ∈ names) :
    ∃ type kind extra, types.under (.text name) = .ok type ∧
      type.item "type" = .ok kind ∧ type.getD "extra" (.text "") = .ok (.text extra) := by
  obtain ⟨es, rfl, hextra, htypes⟩ := h
  obtain ⟨type, kind, htype, hkind⟩ := htypes name hname
  obtain ⟨extra, hget⟩ := hextra (.text name) type (mem_of_findEntry htype)
  exact ⟨type, kind, extra, under_of_field? htype, item_of_field? hkind, hget⟩

theorem Typed.exists_creation (h : Typed types (keysOf cols)) (keyed : Bool) (table : String)
    {names : List Value} (hnames : ∀ name ∈ names, ∃ c ∈ keysOf cols, name = .text c) :
    ∃ d, Plan.creation types keyed table names = .ok d := by
  have hdefinitions : ∀ name ∈ names, ∃ s, Plan.columnDefinition types name = .ok s ∧ True := by
    intro name hname
    obtain ⟨c, hc, rfl⟩ := hnames name hname
    obtain ⟨type, kind, extra, htype, hkind, hget⟩ := h.column hc
    simp [Plan.columnDefinition, htype, hkind, hget]
  obtain ⟨definitions, hall, -⟩ := exists_mapM_eq_ok hdefinitions
  unfold Plan.creation
  rw [hall]
  exact ⟨_, rfl⟩

theorem Typed.exists_addition (hkeys : (keysOf cols).Nodup) (h : Typed types (keysOf cols))
    {sql : Value} (hmem : (c, formula) ∈ cols) (hsql : formula.field? "sql" = some sql) :
    ∃ d, Plan.addition (.record cols) types table (.text c) = .ok d := by
  obtain ⟨type, kind, extra, htype, hkind, hget⟩ := h.column (mem_map_of_mem hmem)
  have hform := under_of_field? (field?_record_of_mem hkeys hmem)
  unfold Plan.addition
  rw [htype, ok_bind, hkind, ok_bind, hform, ok_bind, item_of_field? hsql, hget]
  exact ⟨_, rfl⟩

/-! ## The plan of the columns -/

def rankCount (rank : String → Nat) (cols : List (String × Value)) : Nat :=
  ((keysOf cols).map rank).toFinset.card

theorem levelCount_ranked (g : Graph Value) (cols : List (String × Value)) :
    Plan.levelCount (ranked g cols) = rankCount (rank g) cols := by
  rw [Plan.levelCount, length_eraseDups, rankCount, ranked, List.map_map, List.map_map]
  rfl

theorem mem_ranked {name : Value} {level : Nat} :
    (name, level) ∈ ranked g cols ↔ ∃ c ∈ keysOf cols, name = .text c ∧ level = rank g c := by
  simp only [ranked, mem_map, Prod.mk.injEq]
  constructor
  · rintro ⟨column, hmem, hname, hlevel⟩
    exact ⟨column.1, ⟨column, hmem, rfl⟩, hname.symm, hlevel.symm⟩
  · rintro ⟨_, ⟨column, hmem, rfl⟩, hname, hlevel⟩
    exact ⟨column, hmem, hname.symm, hlevel.symm⟩

theorem mem_levels {first : Definition} {count level : Nat} (hlevel : level ≠ 0) :
    level ∈ (((0, [first]) :: Plan.emptyLevels count).map (·.1)) ↔ level ≤ count := by
  rw [map_cons, Plan.levels_emptyLevels, mem_cons, mem_map]
  constructor
  · rintro (hzero | ⟨i, hi, rfl⟩)
    · exact absurd hzero hlevel
    · exact mem_range.mp hi
  · intro hle
    exact Or.inr ⟨level - 1, mem_range.mpr (by omega), by omega⟩

theorem ofGraph_eq_ok (hkeys : (keysOf cols).Nodup) (hnames : g.names = namesOf cols)
    (hg : g.isCyclic = false) (h : Plan.ofGraph (.record cols) g types table = .ok plan) :
    ∃ keyed first made, Plan.hasPrimaryKey types = .ok keyed ∧
      Plan.creation types keyed table (Plan.atStart (ranked g cols)) = .ok first ∧
      Plan.Made (.record cols) types table (Plan.afterStart (ranked g cols)) made ∧
      (∀ column ∈ Plan.afterStart (ranked g cols),
        column.2 ∈ (Plan.emptyLevels (Plan.levelCount (ranked g cols))).map (·.1)) ∧
      plan = (Plan.appended made ((0, [first]) ::
        Plan.emptyLevels (Plan.levelCount (ranked g cols)))).filter fun (_, ds) => !ds.isEmpty := by
  rw [Plan.ofGraph_eq (items_record cols) (levelsOf_record hkeys hnames hg)] at h
  obtain ⟨keyed, hkeyed, h⟩ := bind_eq_ok.mp h
  obtain ⟨first, hfst, h⟩ := bind_eq_ok.mp h
  obtain ⟨full, hfull, h⟩ := bind_eq_ok.mp h
  obtain ⟨made, hmade, hfits, rfl⟩ :=
    Plan.addAll_eq_ok (Plan.nodup_of_ascending (Plan.ascending_start first _)) hfull
  refine ⟨keyed, first, made, hkeyed, hfst, hmade, fun column hcol => ?_,
    (Except.ok.inj h).symm⟩
  rcases mem_cons.mp (hfits column hcol) with hzero | hmem
  · exact absurd hzero (Plan.mem_afterStart.mp hcol).2
  · exact hmem

/-- A plan that was made is written in order and defines every column at its rank. -/
theorem ofGraph_spec (hkeys : (keysOf cols).Nodup) (hnames : g.names = namesOf cols)
    (hg : g.isCyclic = false) (h : Plan.ofGraph (.record cols) g types table = .ok plan) :
    ∃ keyed, Plan.hasPrimaryKey types = .ok keyed ∧
      Plan.Written (.record cols) types table keyed plan ∧
      plan.defined.Perm (Plan.automatic keyed ++ cols.map fun (c, _) => (rank g c, .text c)) := by
  obtain ⟨keyed, first, made, hkeyed, hfst, hmade, hfits, hplan⟩ :=
    ofGraph_eq_ok hkeys hnames hg h
  obtain ⟨hwritten, hdefined⟩ := Plan.appended_spec hfst hmade hfits hplan
  refine ⟨keyed, hkeyed, hwritten, ?_⟩
  simpa [ranked, Function.comp_def] using hdefined

/-- With typed columns the plan is made, unless a rank is higher than the number of ranks. -/
theorem ofGraph_of_typed (hkeys : (keysOf cols).Nodup) (hnames : g.names = namesOf cols)
    (hg : g.isCyclic = false) (htyped : Typed types (keysOf cols))
    (hsql : ∀ c formula, (c, formula) ∈ cols → (formula.field? "sql").isSome) (table : String) :
    ((∀ c ∈ keysOf cols, rank g c ≤ rankCount (rank g) cols) ∧
      ∃ plan, Plan.ofGraph (.record cols) g types table = .ok plan) ∨
    ∃ c ∈ keysOf cols, rankCount (rank g) cols < rank g c ∧
      Plan.ofGraph (.record cols) g types table = .error (.missingKey (.int (rank g c))) := by
  obtain ⟨keyed, hkeyed⟩ := htyped.exists_hasPrimaryKey
  have hstart : ∀ name ∈ Plan.atStart (ranked g cols), ∃ c ∈ keysOf cols, name = .text c := by
    intro name hname
    obtain ⟨⟨name, level⟩, hcol, rfl⟩ := mem_map.mp hname
    obtain ⟨c, hc, rfl, -⟩ := mem_ranked.mp (mem_filter.mp hcol).1
    exact ⟨c, hc, rfl⟩
  obtain ⟨first, hfst⟩ := htyped.exists_creation keyed table hstart
  have hadditions : ∀ column ∈ Plan.afterStart (ranked g cols),
      ∃ d, Plan.addition (.record cols) types table column.1 = .ok d := by
    rintro ⟨name, level⟩ hcol
    obtain ⟨c, hc, rfl, -⟩ := mem_ranked.mp (Plan.mem_afterStart.mp hcol).1
    obtain ⟨⟨c, formula⟩, hmem, rfl⟩ := mem_map.mp hc
    obtain ⟨sql, hsql⟩ := Option.isSome_iff_exists.mp (hsql c formula hmem)
    exact htyped.exists_addition hkeys hmem hsql
  obtain ⟨made, hmade⟩ := Plan.exists_made hadditions
  have hnodup := Plan.nodup_of_ascending (Plan.ascending_start first (rankCount (rank g) cols))
  rw [Plan.ofGraph_eq (items_record cols) (levelsOf_record hkeys hnames hg), hkeyed,
    ok_bind, hfst, ok_bind, levelCount_ranked]
  -- all statements can be written, so the only thing that can go wrong is a missing level
  rcases Plan.addAll_of_made hnodup hmade with ⟨hfits, hok⟩ | ⟨⟨name, level⟩, hcol, hnot, herr⟩
  · refine Or.inl ⟨fun c hc => ?_, by rw [hok]; exact ⟨_, rfl⟩⟩
    by_cases hzero : rank g c = 0
    · rw [hzero]
      exact Nat.zero_le _
    · have hcol : (Value.text c, rank g c) ∈ ranked g cols := mem_ranked.mpr ⟨c, hc, rfl, rfl⟩
      exact (mem_levels hzero).mp (hfits _ (Plan.mem_afterStart.mpr ⟨hcol, hzero⟩))
  · obtain ⟨hcol, hzero⟩ := Plan.mem_afterStart.mp hcol
    obtain ⟨c, hc, rfl, rfl⟩ := mem_ranked.mp hcol
    rw [mem_levels hzero] at hnot
    exact Or.inr ⟨c, hc, Nat.lt_of_not_le hnot, by rw [herr]; rfl⟩

/-! ## The answer -/

def Plan.answer (plan : Plan) : Value :=
  .record [
    ("content", .map (plan.map fun (level, ds) =>
      (.int level, .record [("sql_content", .list (ds.map Definition.toValue))]))),
    ("error", .null)]

theorem build_of_acyclic (h : dependenciesIn order (.record cols) = .ok g) (hg : g.isCyclic = false) :
    buildIn order (.record cols) types table =
      (Plan.ofGraph (.record cols) g types table >>= fun plan => .ok plan.answer) := by
  unfold buildIn
  rw [h, ok_bind, hg]
  rfl

/-- An answer without an error holds the statements of a plan. -/
theorem build_eq_ok {answer : Value} (h : buildIn order (.record cols) types table = .ok answer)
    (herr : answer.field? "error" = some .null) :
    ∃ g plan, dependenciesIn order (.record cols) = .ok g ∧ g.isCyclic = false ∧
      Plan.ofGraph (.record cols) g types table = .ok plan ∧ answer = plan.answer := by
  obtain ⟨g, hg, -⟩ := bind_eq_ok.mp h
  cases hcyclic : g.isCyclic with
  | true =>
    unfold buildIn at h
    rw [hg, ok_bind, hcyclic] at h
    cases h
    simp [lookup] at herr
  | false =>
    rw [build_of_acyclic hg hcyclic] at h
    obtain ⟨plan, hplan, h⟩ := bind_eq_ok.mp h
    exact ⟨g, plan, hg, hcyclic, hplan, (Except.ok.inj h).symm⟩

/-- Whenever a table is built, running its statements in ascending order defines every column once,
and defines it after all columns that its formula mentions. -/
theorem columns_defined_before_use (order : Enumeration) (cols : List (String × Value))
    (hkeys : (keysOf cols).Nodup) (types : Value) (table : String) (answer : Value)
    (h : buildIn order (.record cols) types table = .ok answer)
    (herror : answer.field? "error" = some .null) :
    ∃ plan keyed, answer = Plan.answer plan ∧ Plan.hasPrimaryKey types = .ok keyed ∧
      Plan.Written (.record cols) types table keyed plan ∧
      ∃ level : String → Nat,
        plan.defined.Perm (Plan.automatic keyed ++ cols.map fun (c, _) => (level c, .text c)) ∧
        ∀ c formula d, (c, formula) ∈ cols → d ∈ keysOf cols → Mentions d formula →
          level d < level c := by
  obtain ⟨g, plan, hg, hcyclic, hplan, hanswer⟩ := build_eq_ok h herror
  obtain ⟨keyed, hkeyed, hwritten, hdefined⟩ :=
    ofGraph_spec hkeys (names_of_dependencies hg) hcyclic hplan
  refine ⟨plan, keyed, hanswer, hkeyed, hwritten, rank g, hdefined, ?_⟩
  intro c formula d hmem hd hm
  exact rank_lt_of_cites hkeys hg hcyclic hmem hd (cites_of_mentions hm)

def numberNode (sql : String) : Value :=
  .record [("type", .text "number"), ("value", .int 1), ("sql", .text sql)]

def cellNode (column : String) : Value :=
  .record [("type", .text "cell"), ("column", .text column), ("sql", .text column)]

def sumNode (left right : Value) (sql : String) : Value :=
  .record [("type", .text "binary-expression"), ("operator", .text "+"), ("left", left),
    ("right", right), ("sql", .text sql)]

def oppositeNode (operand : Value) (sql : String) : Value :=
  .record [("type", .text "unary-expression"), ("operator", .text "-"), ("operand", operand),
    ("sql", .text sql)]

/-- The column `c` is computed from `a` and from `b`, which is computed from `a` too. -/
def sharedColumns : List (String × Value) :=
  [("c", sumNode (cellNode "a") (cellNode "b") "a + b"), ("b", oppositeNode (cellNode "a") "-a"),
    ("a", numberNode "1")]

def wholeNumbers (names : List String) : Value :=
  .record (names.map fun name => (name, .record [("type", .text "INTEGER")]))

/-- The plan of these columns; no column is of rank two. -/
def sharedPlan : Plan := [
  (0, [{
    sql := "CREATE TABLE IF NOT EXISTS t (id SERIAL PRIMARY KEY, a INTEGER);"
    columns := [.text "id", .text "a"] }]),
  (1, [{
    sql := "ALTER TABLE t ADD COLUMN b INTEGER GENERATED ALWAYS AS (-a) STORED ;"
    columns := [.text "b"] }]),
  (3, [{
    sql := "ALTER TABLE t ADD COLUMN c INTEGER GENERATED ALWAYS AS (a + b) STORED ;"
    columns := [.text "c"] }])]

theorem columns_defined_before_use_shared :
    build (.record sharedColumns) (wholeNumbers ["a", "b", "c"]) "t" = .ok sharedPlan.answer ∧
      ∃ plan keyed, sharedPlan.answer = Plan.answer plan ∧
        Plan.hasPrimaryKey (wholeNumbers ["a", "b", "c"]) = .ok keyed ∧
        Plan.Written (.record sharedColumns) (wholeNumbers ["a", "b", "c"]) "t" keyed plan ∧
        ∃ level : String → Nat,
          plan.defined.Perm
            (Plan.automatic keyed ++ sharedColumns.map fun (c, _) => (level c, .text c)) ∧
          level "a" < level "b" ∧ level "a" < level "c" ∧ level "b" < level "c" := by
  have hbuild : build (.record sharedColumns) (wholeNumbers ["a", "b", "c"]) "t" =
      .ok sharedPlan.answer := by cbv
  obtain ⟨plan, keyed, hanswer, hkeyed, hwritten, level, hdefined, hlevel⟩ :=
    columns_defined_before_use _ sharedColumns (by decide) _ "t" _ hbuild rfl
  have hcell : ∀ name, Mentions name (cellNode name) := fun name => Mentions.cell rfl rfl
  have hb : ("b", oppositeNode (cellNode "a") "-a") ∈ sharedColumns := by simp [sharedColumns]
  have hc : ("c", sumNode (cellNode "a") (cellNode "b") "a + b") ∈ sharedColumns := by
    simp [sharedColumns]
  refine ⟨hbuild, plan, keyed, hanswer, hkeyed, hwritten, level, hdefined, ?_, ?_, ?_⟩
  · exact hlevel "b" _ "a" hb (by decide) (Mentions.operand rfl rfl (hcell "a"))
  · exact hlevel "c" _ "a" hc (by decide) (Mentions.left rfl rfl (hcell "a"))
  · exact hlevel "c" _ "b" hc (by decide) (Mentions.right rfl rfl (hcell "b"))

/-! ## When a table is built -/

/-- Exactly one of the definitions in the plan is of the column of the given name, and it stands at
the given level. -/
def Plan.DefinesOnce (plan : Plan) (level : Nat) (name : String) : Prop :=
  plan.defined.filter (fun definition => definition.2.sameScalar (.text name)) =
    [(level, .text name)]

theorem filter_columns (hkeys : (keysOf cols).Nodup) (level : String → Nat)
    (hname : name ∈ keysOf cols) :
    (cols.map fun (c, _) => (level c, Value.text c)).filter
      (fun definition => definition.2.sameScalar (.text name)) = [(level name, .text name)] := by
  have hfilter : (keysOf cols).filter (· == name) = [name] := by
    rw [filter_beq, count_eq_one_of_mem hkeys hname, replicate_one]
  have hmap : (cols.map fun (c, _) => (level c, Value.text c)) =
      (keysOf cols).map fun c => (level c, .text c) := by
    simp
  rw [hmap, filter_map]
  simp only [Function.comp_def, sameScalar_text_text, hfilter, map_cons, map_nil]

/-- The columns of the table are defined once, but for one that is called as the identity column of
a table without a primary key. -/
theorem definesOnce_iff (hkeys : (keysOf cols).Nodup) {keyed : Bool} {level : String → Nat}
    (h : plan.defined.Perm (Plan.automatic keyed ++ cols.map fun (c, _) => (level c, .text c)))
    (hname : name ∈ keysOf cols) :
    plan.DefinesOnce (level name) name ↔ keyed = true ∨ name ≠ "id" := by
  have hperm := h.filter fun definition => definition.2.sameScalar (.text name)
  rw [filter_append, filter_columns hkeys level hname] at hperm
  by_cases hid : keyed = true ∨ name ≠ "id"
  · have hnone : (Plan.automatic keyed).filter
        (fun definition => definition.2.sameScalar (.text name)) = [] := by
      rcases hid with rfl | hne
      · rfl
      · cases keyed with
        | true => rfl
        | false => simp [Plan.automatic, Ne.symm hne]
    rw [hnone, nil_append, perm_singleton] at hperm
    exact iff_of_true hperm hid
  · obtain ⟨hkeyed, hid'⟩ := not_or.mp hid
    rw [not_not] at hid'
    subst hid'
    have htwo := hperm.length_eq
    refine iff_of_false (fun hone => ?_) hid
    rw [hone] at htwo
    simp [Plan.automatic, hkeyed] at htwo

/-- A table whose formulas are trees that refer to one another without a cycle, and whose columns
have types, is built exactly if no column has a higher rank than there are distinct ranks. -/
theorem build_of_trees (order : Enumeration) (cols : List (String × Value))
    (hkeys : (keysOf cols).Nodup) (htrees : AllTrees cols)
    (hsql : ∀ c formula, (c, formula) ∈ cols → (formula.field? "sql").isSome)
    (hacyclic : ∀ c, ¬ TransGen (Refers cols) c c) (types : Value)
    (htyped : Typed types (keysOf cols)) (table : String) :
    ∃ (rank : String → Nat) (keyed : Bool), Plan.hasPrimaryKey types = .ok keyed ∧
      (∀ c formula, (c, formula) ∈ cols → ∃ refs : List String, refs.Nodup ∧
        (∀ d, d ∈ refs ↔ d ∈ keysOf cols ∧ Mentions d formula) ∧
        rank c = (refs.map fun d => 1 + rank d).sum) ∧
      ((∀ c ∈ keysOf cols, rank c ≤ rankCount rank cols) →
        ∃ plan, buildIn order (.record cols) types table = .ok (Plan.answer plan) ∧
          Plan.Written (.record cols) types table keyed plan ∧
          ∀ c ∈ keysOf cols, plan.DefinesOnce (rank c) c ↔ keyed = true ∨ c ≠ "id") ∧
      ((∃ c ∈ keysOf cols, rankCount rank cols < rank c) →
        ∃ c ∈ keysOf cols, rankCount rank cols < rank c ∧
          buildIn order (.record cols) types table = .error (.missingKey (.int (rank c)))) := by
  obtain ⟨g, hg⟩ := exists_dependencies hkeys htrees
  have hcyclic := (acyclic_of_refers hkeys htrees hg hacyclic).isCyclic_eq_false
  have hnames := names_of_dependencies hg
  obtain ⟨keyed, hkeyed⟩ := htyped.exists_hasPrimaryKey
  refine ⟨rank g, keyed, hkeyed, ?_, ?_⟩
  · intro c formula hmem
    simpa only [(htrees c formula hmem).cites_iff] using rank_eq_sum hkeys hg hcyclic hmem
  · rw [build_of_acyclic hg hcyclic]
    rcases ofGraph_of_typed hkeys hnames hcyclic htyped hsql table with
      ⟨hfits, plan, hplan⟩ | ⟨c, hc, hlt, herror⟩
    · refine ⟨fun _ => ⟨plan, by rw [hplan]; rfl, ?_⟩, fun ⟨c, hc, hlt⟩ => ?_⟩
      · obtain ⟨keyed', hkeyed', hwritten, hdefined⟩ := ofGraph_spec hkeys hnames hcyclic hplan
        rw [hkeyed] at hkeyed'
        cases hkeyed'
        exact ⟨hwritten, fun c hc => definesOnce_iff hkeys hdefined hc⟩
      · exact absurd (hfits c hc) (Nat.not_le_of_lt hlt)
    · refine ⟨fun hfits => absurd (hfits c hc) (Nat.not_le_of_lt hlt), fun _ => ?_⟩
      exact ⟨c, hc, hlt, by rw [herror]; rfl⟩

def functionNode (parts : List Value) (sql : String) : Value :=
  .record [("type", .text "function"), ("name", .text "SUM"), ("arguments", .list parts),
    ("sql", .text sql)]

theorem not_mentions_numberNode {sql : String} : ¬ Mentions name (numberNode sql) := by
  intro h
  cases h <;> simp_all [numberNode]

theorem mentions_cellNode {column : String} : Mentions name (cellNode column) ↔ name = column := by
  constructor
  · intro h
    cases h <;> simp_all [cellNode, lookup]
  · rintro rfl
    exact Mentions.cell rfl rfl

theorem mentions_functionNode {sql : String} {parts : List Value} :
    Mentions name (functionNode parts sql) ↔ ∃ part ∈ parts, Mentions name part := by
  constructor
  · intro h
    cases h with
    | @argument _ part parts' _ arguments mem inside =>
      have hparts : parts = parts' := by simpa [functionNode, lookup] using arguments
      exact ⟨part, hparts ▸ mem, inside⟩
    | cell type _ | left type _ _ | right type _ _ | operand type _ _ =>
      simp [functionNode, lookup] at type
  · rintro ⟨part, hpart, hm⟩
    exact Mentions.argument rfl rfl hpart hm

def spreadFormula : Value := functionNode [cellNode "a", cellNode "b", cellNode "c"] "a + b + c"

theorem mentions_spreadFormula : Mentions name spreadFormula ↔ name ∈ ["a", "b", "c"] := by
  simp [spreadFormula, mentions_functionNode, mentions_cellNode]

def spreadColumns : List (String × Value) :=
  [("a", numberNode "1"), ("b", numberNode "2"), ("c", numberNode "3"), ("d", spreadFormula)]

theorem mem_spreadColumns (h : (c, formula) ∈ spreadColumns) :
    (∃ sql, formula = numberNode sql) ∨ (c = "d" ∧ formula = spreadFormula) := by
  simp only [spreadColumns, mem_cons, not_mem_nil, or_false] at h
  rcases h with ⟨-, rfl⟩ | ⟨-, rfl⟩ | ⟨-, rfl⟩ | ⟨rfl, rfl⟩
  · exact Or.inl ⟨_, rfl⟩
  · exact Or.inl ⟨_, rfl⟩
  · exact Or.inl ⟨_, rfl⟩
  · exact Or.inr ⟨rfl, rfl⟩

theorem allTrees_spreadColumns : AllTrees spreadColumns := by
  intro c formula hmem
  rcases mem_spreadColumns hmem with ⟨sql, rfl⟩ | ⟨-, rfl⟩
  · exact IsTree.literal rfl (by decide)
  · refine IsTree.function rfl rfl fun part hpart => ?_
    simp only [mem_cons, not_mem_nil, or_false] at hpart
    rcases hpart with rfl | rfl | rfl <;> exact IsTree.cell rfl rfl (by decide)

theorem acyclic_spreadColumns (c : String) : ¬ TransGen (Refers spreadColumns) c c := by
  have hrefers : ∀ c d, Refers spreadColumns c d → c = "d" ∧ d ≠ "d" := by
    rintro c d ⟨formula, hmem, -, hm⟩
    rcases mem_spreadColumns hmem with ⟨sql, rfl⟩ | ⟨rfl, rfl⟩
    · exact absurd hm not_mentions_numberNode
    · refine ⟨rfl, fun heq => ?_⟩
      rw [heq] at hm
      exact absurd (mentions_spreadFormula.mp hm) (by decide)
  intro hcycle
  obtain ⟨d, hfst, -⟩ := TransGen.head'_iff.mp hcycle
  obtain ⟨e, -, hlast⟩ := TransGen.tail'_iff.mp hcycle
  exact (hrefers _ _ hlast).2 (hrefers _ _ hfst).1

theorem typed_spreadColumns : Typed (wholeNumbers ["a", "b", "c", "d"]) (keysOf spreadColumns) := by
  refine ⟨_, rfl, ?_, ?_⟩
  · intro name type hmem
    simp only [map_cons, map_nil, mem_cons, Prod.mk.injEq, not_mem_nil,
      or_false] at hmem
    rcases hmem with ⟨-, rfl⟩ | ⟨-, rfl⟩ | ⟨-, rfl⟩ | ⟨-, rfl⟩ <;> exact ⟨"", rfl⟩
  · intro name hname
    simp only [spreadColumns, keysOf, map_cons, map_nil, mem_cons,
      not_mem_nil, or_false] at hname
    rcases hname with rfl | rfl | rfl | rfl <;> exact ⟨_, _, rfl, rfl⟩

/-- The rank of `d` is three and all other ranks are zero, so there is no level for `d`. -/
theorem build_of_trees_spread :
    build (.record spreadColumns) (wholeNumbers ["a", "b", "c", "d"]) "t" =
      .error (.missingKey (.int 3)) := by
  have hsql : ∀ c formula, (c, formula) ∈ spreadColumns → (formula.field? "sql").isSome := by
    intro c formula hmem
    rcases mem_spreadColumns hmem with ⟨sql, rfl⟩ | ⟨-, rfl⟩ <;> rfl
  obtain ⟨rank, keyed, -, hrank, -, hfails⟩ :=
    build_of_trees .asFound spreadColumns (by decide) allTrees_spreadColumns hsql acyclic_spreadColumns _
      typed_spreadColumns "t"
  have hzero : ∀ c sql, (c, numberNode sql) ∈ spreadColumns → rank c = 0 := by
    intro c sql hmem
    obtain ⟨refs, -, hrefs, heq⟩ := hrank c _ hmem
    have hnil : refs = [] := by
      refine eq_nil_iff_forall_not_mem.mpr fun d hd => ?_
      exact not_mentions_numberNode ((hrefs d).mp hd).2
    simpa [hnil] using heq
  have ha : rank "a" = 0 := hzero "a" "1" (by simp [spreadColumns])
  have hb : rank "b" = 0 := hzero "b" "2" (by simp [spreadColumns])
  have hc : rank "c" = 0 := hzero "c" "3" (by simp [spreadColumns])
  have hd : rank "d" = 3 := by
    obtain ⟨refs, hnodup, hrefs, heq⟩ := hrank "d" spreadFormula (by simp [spreadColumns])
    have hperm : refs.Perm ["a", "b", "c"] := by
      rw [perm_ext_iff_of_nodup hnodup (by decide)]
      intro name
      rw [hrefs, mentions_spreadFormula, and_iff_right_iff_imp]
      intro hname
      exact mem_append_left ["d"] hname
    rw [heq, (hperm.map _).sum_eq]
    simp [ha, hb, hc]
  have hcount : rankCount rank spreadColumns = 2 := by
    simp [rankCount, spreadColumns, ha, hb, hc, hd]
  obtain ⟨c, hmem, hlt, herror⟩ := hfails ⟨"d", by decide, by omega⟩
  have hrank3 : rank c = 3 := by
    simp only [spreadColumns, keysOf, map_cons, map_nil, mem_cons,
      not_mem_nil, or_false] at hmem
    rcases hmem with rfl | rfl | rfl | rfl <;> omega
  rw [hrank3] at herror
  exact herror

end SheetMill.Table
