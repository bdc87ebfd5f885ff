import SheetMill.Proofs.Value
import SheetMill.Table.Plan

/-!
# The statements of a plan

A plan is made by sorting the statements that add a column into the levels that are there.
-/

namespace SheetMill.Table.Plan

open Value Outcome List

variable {cols types : Value} {table : String} {later : List (Value × Nat)}
  {made : List (Nat × Definition)} {levels : List (Value × Nat)} {plan : Plan} {d : Definition}

/-- The columns that the statements of a plan define, each with the level of its statement. -/
def defined (plan : Plan) : List (Nat × Value) :=
  plan.flatMap fun (level, ds) => ds.flatMap fun d => d.columns.map fun name => (level, name)

/-- The identity column that a table without a primary key gets, with its level. -/
def automatic (keyed : Bool) : List (Nat × Value) := if keyed then [] else [(0, .text "id")]

/-- The first level of the plan is the statement that creates the table, and all that follows adds
columns, at higher levels in ascending order. -/
def Written (cols types : Value) (table : String) (keyed : Bool) (plan : Plan) : Prop :=
  (plan.map (·.1)).Pairwise (· < ·) ∧
  ∃ names first rest, plan = (0, [first]) :: rest ∧ creation types keyed table names = .ok first ∧
    ∀ level ds, (level, ds) ∈ rest → 0 < level ∧
      ∀ d ∈ ds, ∃ name, addition cols types table name = .ok d

/-! ## Statements -/

theorem columns_of_creation {keyed : Bool} {names : List Value}
    (h : creation types keyed table names = .ok d) :
    d.columns.map (fun name => (0, name)) =
      automatic keyed ++ names.map fun name => (0, name) := by
  obtain ⟨definitions, -, h⟩ := bind_eq_ok.mp h
  cases h
  cases keyed <;> rfl

def opening (table : String) (name kind : Value) : String :=
  "ALTER TABLE " ++ table ++ " ADD COLUMN " ++ name.plain ++ " " ++ kind.plain ++ " " ++
    "GENERATED ALWAYS AS ("

theorem addition_eq_ok {name : Value} (h : addition cols types table name = .ok d) :
    ∃ kind column formula extra : Value, cols.under name = .ok column ∧
      column.item "sql" = .ok formula ∧ d.columns = [name] ∧
      d.sql = opening table name kind ++ formula.plain ++ ") STORED " ++ extra.plain ++ ";" := by
  simp only [addition, bind_eq_ok] at h
  obtain ⟨_, -, kind, -, column, hcol, formula, hform, extra, -, h⟩ := h
  cases h
  exact ⟨kind, column, formula, extra, hcol, hform, rfl, rfl⟩

theorem columns_of_addition {name : Value} (h : addition cols types table name = .ok d) :
    d.columns = [name] := by
  obtain ⟨_, _, _, _, -, -, hcols, -⟩ := addition_eq_ok h
  exact hcols

/-! ## Adding statements at their levels -/

def appended (made : List (Nat × Definition)) (plan : Plan) : Plan :=
  plan.map fun (level, ds) => (level, ds ++ (made.filter (·.1 = level)).map (·.2))

@[simp] theorem levels_appended (made : List (Nat × Definition)) (plan : Plan) :
    (appended made plan).map (·.1) = plan.map (·.1) := by
  simp [appended]

theorem appended_nil (plan : Plan) : appended [] plan = plan := by
  simp [appended]

theorem appended_appended (made made' : List (Nat × Definition)) (plan : Plan) :
    appended made' (appended made plan) = appended (made ++ made') plan := by
  simp [appended, filter_append]

theorem addAt_of_mem {level : Nat} (d : Definition) (hlevels : (plan.map (·.1)).Nodup)
    (h : level ∈ plan.map (·.1)) : addAt level d plan = .ok (appended [(level, d)] plan) := by
  induction plan with
  | nil => cases h
  | cons entry plan ih =>
    obtain ⟨l, ds⟩ := entry
    rw [map_cons, nodup_cons] at hlevels
    by_cases hl : l = level
    · subst hl
      have hrest : appended [(l, d)] plan = plan := by
        refine (map_congr_left fun e he => ?_).trans (map_id' plan)
        obtain ⟨l', ds'⟩ := e
        have hne : l ≠ l' := fun heq => hlevels.1 (mem_map.mpr ⟨_, he, heq.symm⟩)
        simp [hne]
      simp only [appended, map_cons] at hrest ⊢
      rw [hrest]
      simp [addAt]
    · have hmem : level ∈ plan.map (·.1) := by
        rcases mem_cons.mp h with h | h
        · exact absurd h.symm hl
        · exact h
      simp [addAt, hl, ih hlevels.2 hmem, appended, Ne.symm hl]

theorem addAt_of_not_mem {level : Nat} (d : Definition) (h : level ∉ plan.map (·.1)) :
    addAt level d plan = .error (.missingKey (.int level)) := by
  induction plan with
  | nil => rfl
  | cons entry plan ih =>
    rw [map_cons, mem_cons, not_or] at h
    simp [addAt, Ne.symm h.1, ih h.2]

/-- The statements that add columns, each with its level. -/
def Made (cols types : Value) (table : String) (later : List (Value × Nat))
    (made : List (Nat × Definition)) : Prop :=
  Forall₂ (fun column m => m.1 = column.2 ∧
    addition cols types table column.1 = .ok m.2) later made

theorem addAll_eq_ok {plan' : Plan} (hlevels : (plan.map (·.1)).Nodup)
    (h : addAll cols types table later plan = .ok plan') :
    ∃ made, Made cols types table later made ∧ (∀ column ∈ later, column.2 ∈ plan.map (·.1)) ∧
      plan' = appended made plan := by
  induction later generalizing plan with
  | nil =>
    cases h
    exact ⟨[], Forall₂.nil, by simp, (appended_nil _).symm⟩
  | cons column later ih =>
    obtain ⟨name, level⟩ := column
    obtain ⟨d, hd, h⟩ := bind_eq_ok.mp h
    obtain ⟨next, hnext, h⟩ := bind_eq_ok.mp h
    by_cases hmem : level ∈ plan.map (·.1)
    · rw [addAt_of_mem d hlevels hmem] at hnext
      cases hnext
      obtain ⟨made, hmade, hall, rfl⟩ := ih (by rwa [levels_appended]) h
      refine ⟨(level, d) :: made, Forall₂.cons ⟨rfl, hd⟩ hmade, ?_, ?_⟩
      · intro c hc
        rcases mem_cons.mp hc with rfl | hc
        · exact hmem
        · simpa using hall c hc
      · rw [appended_appended, singleton_append]
    · rw [addAt_of_not_mem d hmem] at hnext
      cases hnext

theorem exists_made (h : ∀ column ∈ later, ∃ d, addition cols types table column.1 = .ok d) :
    ∃ made, Made cols types table later made := by
  induction later with
  | nil => exact ⟨[], Forall₂.nil⟩
  | cons column later ih =>
    obtain ⟨d, hd⟩ := h column mem_cons_self
    obtain ⟨made, hmade⟩ := ih fun c hc => h c (mem_cons_of_mem _ hc)
    exact ⟨(column.2, d) :: made, Forall₂.cons ⟨rfl, hd⟩ hmade⟩

/-- If every statement can be made, then all of them are added, or one has no level. -/
theorem addAll_of_made (hlevels : (plan.map (·.1)).Nodup) (h : Made cols types table later made) :
    ((∀ column ∈ later, column.2 ∈ plan.map (·.1)) ∧
      addAll cols types table later plan = .ok (appended made plan)) ∨
    ∃ column ∈ later, column.2 ∉ plan.map (·.1) ∧
      addAll cols types table later plan = .error (.missingKey (.int column.2)) := by
  induction h generalizing plan with
  | nil => exact Or.inl ⟨by simp, by rw [appended_nil]; rfl⟩
  | @cons column m later made hm hmade ih =>
    obtain ⟨name, level⟩ := column
    obtain ⟨l, d⟩ := m
    obtain ⟨hl, hd⟩ := hm
    subst hl
    by_cases hmem : l ∈ plan.map (·.1)
    · have hstep : addAll cols types table ((name, l) :: later) plan =
          addAll cols types table later (appended [(l, d)] plan) := by
        simp only [addAll, hd, addAt_of_mem d hlevels hmem, ok_bind]
      have hlevels' : ((appended [(l, d)] plan).map (·.1)).Nodup := by rwa [levels_appended]
      rw [hstep]
      rcases ih hlevels' with ⟨hall, hok⟩ | ⟨c, hc, hnot, herr⟩
      · refine Or.inl ⟨fun c hc => ?_, ?_⟩
        · rcases mem_cons.mp hc with rfl | hc
          · exact hmem
          · simpa using hall c hc
        · rw [hok, appended_appended, singleton_append]
      · exact Or.inr ⟨c, mem_cons_of_mem _ hc, by simpa using hnot, herr⟩
    · refine Or.inr ⟨(name, l), mem_cons_self, hmem, ?_⟩
      simp only [addAll, hd, addAt_of_not_mem d hmem, ok_bind]
      rfl

/-! ## What a plan defines -/

theorem flatMap_filter_perm {α : Type} (key : α → Nat) {keys : List Nat} (hkeys : keys.Nodup)
    {items : List α} (h : ∀ x ∈ items, key x ∈ keys) :
    (keys.flatMap fun k => items.filter (key · = k)).Perm items := by
  induction keys generalizing items with
  | nil =>
    cases items with
    | nil => exact Perm.refl []
    | cons x items => exact absurd (h x mem_cons_self) (by simp)
  | cons k keys ih =>
    obtain ⟨hk, hkeys⟩ := nodup_cons.mp hkeys
    -- the classes of the other keys do not change when the items of this key are taken away
    have hrest : ∀ k' ∈ keys,
        items.filter (key · = k') = (items.filter (key · ≠ k)).filter (key · = k') := by
      intro k' hk'
      have hne : k' ≠ k := fun heq => hk (heq ▸ hk')
      rw [filter_filter]
      apply filter_congr
      intro x _
      by_cases hx : key x = k' <;> simp [hx, hne]
    have hothers : ∀ x ∈ items.filter (key · ≠ k), key x ∈ keys := by
      intro x hx
      obtain ⟨hx, hne⟩ := mem_filter.mp hx
      rcases mem_cons.mp (h x hx) with heq | hmem
      · exact absurd heq (by simpa using hne)
      · exact hmem
    rw [flatMap_cons, flatMap_congr hrest]
    refine (Perm.append_left _ (ih hkeys hothers)).trans ?_
    have hpart := filter_append_perm (fun x => decide (key x = k)) items
    simpa using hpart

theorem defined_filter (plan : Plan) :
    defined (plan.filter fun (_, ds) => !ds.isEmpty) = defined plan := by
  induction plan with
  | nil => rfl
  | cons entry plan ih =>
    obtain ⟨level, ds⟩ := entry
    unfold defined at ih ⊢
    cases ds with
    | nil => simpa using ih
    | cons d ds => simp [ih]

theorem defined_cons (level : Nat) (ds : List Definition) (plan : Plan) :
    defined ((level, ds) :: plan) =
      (ds.flatMap fun d => d.columns.map fun name => (level, name)) ++ defined plan := rfl

theorem columns_of_made (h : Made cols types table later made) :
    (made.flatMap fun m => m.2.columns.map fun name => (m.1, name)) =
      later.map fun column => (column.2, column.1) := by
  induction h with
  | nil => rfl
  | cons hm _ ih =>
    rw [flatMap_cons, map_cons, ih, columns_of_addition hm.2, hm.1]
    rfl

def emptyLevels (count : Nat) : Plan := (range count).map fun i => (i + 1, [])

theorem levels_emptyLevels (count : Nat) :
    (emptyLevels count).map (·.1) = (range count).map (· + 1) := by
  simp [emptyLevels]

theorem ascending_emptyLevels (count : Nat) :
    ((emptyLevels count).map (·.1)).Pairwise (· < ·) := by
  rw [levels_emptyLevels]
  exact Pairwise.map _ (fun _ _ hlt => Nat.succ_lt_succ hlt) pairwise_lt_range

theorem ascending_start (first : Definition) (count : Nat) :
    (((0, [first]) :: emptyLevels count).map (·.1)).Pairwise (· < ·) := by
  rw [map_cons, pairwise_cons]
  exact ⟨by simp [levels_emptyLevels], ascending_emptyLevels count⟩

theorem nodup_of_ascending {levels : List Nat} (h : levels.Pairwise (· < ·)) : levels.Nodup :=
  h.imp fun hlt => Nat.ne_of_lt hlt

theorem defined_appended_emptyLevels {count : Nat} (h : Made cols types table later made)
    (hlevels : ∀ m ∈ made, m.1 ∈ (emptyLevels count).map (·.1)) :
    (defined (appended made (emptyLevels count))).Perm
      (later.map fun column => (column.2, column.1)) := by
  have hdefined : defined (appended made (emptyLevels count)) =
      (((range count).map (· + 1)).flatMap fun level =>
        made.filter (·.1 = level)).flatMap fun m => m.2.columns.map fun name => (m.1, name) := by
    unfold defined appended emptyLevels
    rw [map_map, flatMap_map, flatMap_map, flatMap_assoc]
    apply flatMap_congr
    intro i _
    simp only [Function.comp, nil_append, flatMap_map]
    apply flatMap_congr
    intro m hm
    have hlevel : m.1 = i + 1 := by simpa using (mem_filter.mp hm).2
    rw [hlevel]
  rw [hdefined, ← columns_of_made h]
  have hnodup := nodup_of_ascending (ascending_emptyLevels count)
  rw [levels_emptyLevels] at hnodup hlevels
  exact (flatMap_filter_perm Prod.fst hnodup hlevels).flatMap_right _

/-! ## The plan of a graph -/

def atStart (levels : List (Value × Nat)) : List Value := (levels.filter (·.2 = 0)).map (·.1)

def afterStart (levels : List (Value × Nat)) : List (Value × Nat) :=
  (levels.filter (·.2 ≠ 0)).mergeSort fun a b => a.2 ≤ b.2

def levelCount (levels : List (Value × Nat)) : Nat := (levels.map (·.2)).eraseDups.length

theorem ofGraph_eq {graph : Graph Value} {names : List Value} (hnames : cols.items = .ok names)
    (hlevels : levelsOf graph names = .ok levels) :
    ofGraph cols graph types table = (do
      let keyed ← hasPrimaryKey types
      let first ← creation types keyed table (atStart levels)
      let plan ← addAll cols types table (afterStart levels)
        ((0, [first]) :: emptyLevels (levelCount levels))
      return plan.filter fun (_, ds) => !ds.isEmpty) := by
  unfold ofGraph
  rw [hnames]
  simp only [ok_bind, hlevels]
  rfl

theorem mem_afterStart {column : Value × Nat} :
    column ∈ afterStart levels ↔ column ∈ levels ∧ column.2 ≠ 0 := by
  unfold afterStart
  simp

theorem Made.level_mem (h : Made cols types table later made) {m : Nat × Definition}
    (hm : m ∈ made) :
    ∃ column ∈ later, m.1 = column.2 ∧ addition cols types table column.1 = .ok m.2 := by
  induction h with
  | nil => cases hm
  | @cons column m' later made hm' _ ih =>
    rcases mem_cons.mp hm with rfl | hm
    · exact ⟨column, mem_cons_self, hm'⟩
    · obtain ⟨c, hc, hpart⟩ := ih hm
      exact ⟨c, mem_cons_of_mem _ hc, hpart⟩

theorem levels_perm (levels : List (Value × Nat)) :
    ((atStart levels).map (fun name => ((0 : Nat), name)) ++
      (afterStart levels).map fun column => (column.2, column.1)).Perm
      (levels.map fun column => (column.2, column.1)) := by
  have hstart : (atStart levels).map (fun name => ((0 : Nat), name)) =
      (levels.filter (·.2 = 0)).map fun column => (column.2, column.1) := by
    unfold atStart
    rw [map_map]
    apply map_congr_left
    intro column hcol
    have hzero : column.2 = 0 := by simpa using (mem_filter.mp hcol).2
    simp [hzero]
  have hafter := (mergeSort_perm (levels.filter (·.2 ≠ 0)) fun a b => a.2 ≤ b.2).map
    fun column => (column.2, column.1)
  rw [hstart]
  refine (Perm.append_left _ hafter).trans ?_
  rw [← map_append]
  have hpart := filter_append_perm (fun column : Value × Nat => decide (column.2 = 0)) levels
  exact Perm.map _ (by simpa using hpart)

theorem appended_start (h : Made cols types table (afterStart levels) made) (first : Definition)
    (count : Nat) : appended made ((0, [first]) :: emptyLevels count) =
      (0, [first]) :: appended made (emptyLevels count) := by
  have hzero : made.filter (·.1 = 0) = [] := by
    rw [filter_eq_nil_iff]
    intro m hm heq
    obtain ⟨column, hcol, hlevel, -⟩ := h.level_mem hm
    have hne := (mem_afterStart.mp hcol).2
    rw [← hlevel] at hne
    exact hne (by simpa using heq)
  simp [appended, hzero]

/-- The plan with all statements at their levels is written in order, and defines every column at
its level besides the identity column. -/
theorem appended_spec {keyed : Bool} {first : Definition}
    (hfst : creation types keyed table (atStart levels) = .ok first)
    (hmade : Made cols types table (afterStart levels) made)
    (hfits : ∀ column ∈ afterStart levels, column.2 ∈ (emptyLevels (levelCount levels)).map (·.1))
    (hplan : plan = (appended made ((0, [first]) :: emptyLevels (levelCount levels))).filter
      fun (_, ds) => !ds.isEmpty) :
    Written cols types table keyed plan ∧
      plan.defined.Perm (automatic keyed ++ levels.map fun column => (column.2, column.1)) := by
  have hmem : ∀ m ∈ made, m.1 ∈ (emptyLevels (levelCount levels)).map (·.1) := by
    intro m hm
    obtain ⟨column, hcol, heq, -⟩ := hmade.level_mem hm
    rw [heq]
    exact hfits column hcol
  have hstart := appended_start hmade first (levelCount levels)
  subst hplan
  refine ⟨⟨?_, ?_⟩, ?_⟩
  · have hsub : ((appended made ((0, [first]) :: emptyLevels (levelCount levels))).filter
        fun (_, ds) => !ds.isEmpty).Sublist
        (appended made ((0, [first]) :: emptyLevels (levelCount levels))) := filter_sublist
    have hascending := ascending_start first (levelCount levels)
    rw [← levels_appended made] at hascending
    exact hascending.sublist (hsub.map _)
  · refine ⟨atStart levels, first, _, by rw [hstart]; rfl, hfst, ?_⟩
    intro level ds hent
    obtain ⟨hent, -⟩ := mem_filter.mp hent
    unfold appended emptyLevels at hent
    rw [map_map] at hent
    obtain ⟨i, -, heq⟩ := mem_map.mp hent
    cases heq
    refine ⟨Nat.succ_pos i, fun d hd => ?_⟩
    have hm : (i + 1, d) ∈ made := by simpa using hd
    obtain ⟨column, -, -, haddition⟩ := hmade.level_mem hm
    exact ⟨column.1, haddition⟩
  · rw [defined_filter, hstart, defined_cons]
    simp only [flatMap_cons, flatMap_nil, append_nil]
    rw [columns_of_creation hfst, append_assoc]
    refine Perm.append_left _ ?_
    refine (Perm.append_left _ (defined_appended_emptyLevels hmade hmem)).trans ?_
    exact levels_perm levels

end SheetMill.Table.Plan
