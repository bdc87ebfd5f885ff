import SheetMill.Proofs.References

/-!
# The graph of dependencies

The vertices of the graph are the columns of the table, in order. An edge leads from a column to
every column of the table that its formula mentions, and if all formulas are trees over the columns
of the table then there is no other edge.
-/

namespace SheetMill.Table.Graph

/-! ## Walks, cycles and levels -/

open Relation List

variable {ν : Type} {g : Graph ν} {i : Nat} {j n : Nat}

def Edge (g : Graph ν) (i j : Nat) : Prop := i < g.size ∧ j < g.size ∧ (i, j) ∈ g.edges

def Acyclic (g : Graph ν) : Prop := ∀ i, ¬ TransGen g.Edge i i

theorem hasEdge_iff : g.hasEdge i j = true ↔ (i, j) ∈ g.edges := by
  simp [hasEdge]

theorem mem_successors : j ∈ g.successors i ↔ j < g.size ∧ (i, j) ∈ g.edges := by
  simp [successors, hasEdge_iff]

theorem nodup_successors (i : Nat) : (g.successors i).Nodup := nodup_range.filter _

/-! ## Walks -/

theorem mem_walkStarts_zero : i ∈ g.walkStarts 0 ↔ i < g.size := by
  simp [walkStarts]

theorem mem_walkStarts_succ :
    i ∈ g.walkStarts (n + 1) ↔ i ∈ g.walkStarts n ∧ ∃ j ∈ g.walkStarts n, (i, j) ∈ g.edges := by
  simp [walkStarts, withSuccessorIn, hasEdge_iff]

theorem lt_size_of_mem_walkStarts (h : i ∈ g.walkStarts n) : i < g.size := by
  induction n with
  | zero => exact mem_walkStarts_zero.mp h
  | succ n ih => exact ih (mem_walkStarts_succ.mp h).1

theorem mem_walkStarts_of_edge (hi : i < g.size) (he : (i, j) ∈ g.edges) (hj : j ∈ g.walkStarts n) :
    i ∈ g.walkStarts (n + 1) := by
  induction n with
  | zero => exact mem_walkStarts_succ.mpr ⟨mem_walkStarts_zero.mpr hi, j, hj, he⟩
  | succ n ih =>
    have hj' : j ∈ g.walkStarts n := (mem_walkStarts_succ.mp hj).1
    exact mem_walkStarts_succ.mpr ⟨ih hj', j, hj, he⟩

theorem Acyclic.wellFounded (h : g.Acyclic) :
    WellFounded fun b a : Fin g.size => TransGen g.Edge a b := by
  let below (b a : Fin g.size) : Prop := TransGen g.Edge a b
  have hirrefl : Std.Irrefl below := ⟨fun v hv => h v hv⟩
  exact Finite.wellFounded_of_trans_of_irrefl below

/-- Among the starts of walks there is one from which no walk is longer. -/
theorem Acyclic.exists_last (h : g.Acyclic) (hne : g.walkStarts n ≠ []) :
    ∃ i ∈ g.walkStarts n, i ∉ g.walkStarts (n + 1) := by
  obtain ⟨i, hi⟩ := exists_mem_of_ne_nil _ hne
  have hstarts : {v : Fin g.size | v.val ∈ g.walkStarts n}.Nonempty :=
    ⟨⟨i, lt_size_of_mem_walkStarts hi⟩, hi⟩
  obtain ⟨m, hm, hmin⟩ := h.wellFounded.has_min _ hstarts
  refine ⟨m, hm, fun hm' => ?_⟩
  obtain ⟨-, j, hj, he⟩ := mem_walkStarts_succ.mp hm'
  have hlt : j < g.size := lt_size_of_mem_walkStarts hj
  exact hmin ⟨j, hlt⟩ hj (TransGen.single ⟨m.isLt, hlt, he⟩)

theorem Acyclic.length_walkStarts_le (h : g.Acyclic) (n : Nat) :
    (g.walkStarts n).length ≤ g.size - n := by
  induction n with
  | zero => simp [walkStarts]
  | succ n ih =>
    by_cases hne : g.walkStarts n = []
    · simp [walkStarts, withSuccessorIn, hne]
    · -- each further step loses at least the start of a longest walk
      obtain ⟨i, hi, hi'⟩ := h.exists_last hne
      have hlt : (g.walkStarts (n + 1)).length < (g.walkStarts n).length := by
        refine length_filter_lt_length_iff_exists.mpr ⟨i, hi, fun hp => hi' ?_⟩
        exact mem_filter.mpr ⟨hi, hp⟩
      omega

theorem Acyclic.isCyclic_eq_false (h : g.Acyclic) : g.isCyclic = false := by
  have hle := h.length_walkStarts_le g.size
  have hnil : g.walkStarts g.size = [] := length_eq_zero_iff.mp (by omega)
  simp [isCyclic, hnil]

/-! ## Levels -/

/-- The level that a vertex has by the walks of up to some length. -/
def levelWithin (g : Graph ν) : Nat → Nat → Nat
  | 0, _ => 0
  | n + 1, i => ((g.successors i).map fun j => 1 + g.levelWithin n j).sum

theorem levelWithin_succ_eq (hi : i < g.size) (h : i ∉ g.walkStarts n) :
    g.levelWithin (n + 1) i = g.levelWithin n i := by
  induction n generalizing i with
  | zero => exact absurd (mem_walkStarts_zero.mpr hi) h
  | succ n ih =>
    have hsucc : ∀ j ∈ g.successors i, 1 + g.levelWithin (n + 1) j = 1 + g.levelWithin n j := by
      intro j hj
      obtain ⟨hj, he⟩ := mem_successors.mp hj
      rw [ih hj fun hw => h (mem_walkStarts_of_edge hi he hw)]
    rw [levelWithin, levelWithin, map_congr_left hsucc]

/-- The level of a vertex. -/
def levelAt (g : Graph ν) (i : Nat) : Nat := g.levelWithin g.size i

theorem levelAt_eq_sum (h : g.isCyclic = false) (hi : i < g.size) :
    g.levelAt i = ((g.successors i).map fun j => 1 + g.levelAt j).sum := by
  have hnil : g.walkStarts g.size = [] := by simpa [isCyclic] using h
  calc g.levelAt i = g.levelWithin (g.size + 1) i :=
        (levelWithin_succ_eq hi (by simp [hnil])).symm
    _ = ((g.successors i).map fun j => 1 + g.levelAt j).sum := rfl

theorem levelAt_lt_of_edge (h : g.isCyclic = false) (he : g.Edge i j) :
    g.levelAt j < g.levelAt i := by
  obtain ⟨hi, hj, he⟩ := he
  have hmem : 1 + g.levelAt j ∈ (g.successors i).map fun j => 1 + g.levelAt j :=
    mem_map_of_mem (mem_successors.mpr ⟨hj, he⟩)
  have hle := single_le_sum (fun _ _ => Nat.zero_le _) _ hmem
  rw [levelAt_eq_sum h hi]
  omega

theorem acyclic_of_isCyclic_eq_false (h : g.isCyclic = false) : g.Acyclic := by
  have hlower : ∀ {i j}, TransGen g.Edge i j → g.levelAt j < g.levelAt i := by
    intro i j hpath
    induction hpath with
    | single he => exact levelAt_lt_of_edge h he
    | tail _ he ih => exact (levelAt_lt_of_edge h he).trans ih
  exact fun i hcycle => Nat.lt_irrefl _ (hlower hcycle)

theorem forall₂_successorNames {R : ν → Nat → Prop}
    (h : ∀ j ∈ g.successors i, ∃ name, g.names[j]? = some name ∧ R name j) :
    Forall₂ R (g.successorNames i) (g.successors i) := by
  unfold successorNames
  generalize g.successors i = js at h
  induction js with
  | nil => exact .nil
  | cons j rest ih =>
    obtain ⟨⟨name, hname, hR⟩, hrest⟩ := forall_mem_cons.mp h
    rw [filterMap_cons, hname]
    exact .cons hR (ih hrest)

section

variable [BEq ν] {name : ν}

/-- Every vertex that an edge leads to is the one that its name denotes. -/
def Named (g : Graph ν) : Prop :=
  ∀ i j, g.Edge i j → ∃ name, g.names[j]? = some name ∧ g.position? name = some j

theorem lt_size_of_position (h : g.position? name = some i) : i < g.size :=
  (findIdx?_eq_some_iff_getElem.mp h).1

theorem named_of_nodup [LawfulBEq ν] (h : g.names.Nodup) : g.Named := by
  intro i j he
  have hj : j < g.names.length := he.2.1
  refine ⟨g.names[j], getElem?_eq_getElem hj, findIdx?_eq_some_iff_getElem.mpr ⟨hj, by simp, ?_⟩⟩
  intro k hk heq
  exact hk.ne (h.getElem_inj_iff.mp (eq_of_beq heq))

/-- The search by names follows the edges, if these lead to vertices that their names denote. -/
theorem levelUpTo_eq (hnamed : g.Named) (hi : g.position? name = some i) (h : i ∉ g.walkStarts n) :
    g.levelUpTo n name = .ok (g.levelWithin n i) := by
  have hlt := lt_size_of_position hi
  induction n generalizing name i with
  | zero => exact absurd (mem_walkStarts_zero.mpr hlt) h
  | succ n ih =>
    have hnext : Forall₂ (fun name j => g.levelUpTo n name = .ok (g.levelWithin n j))
        (g.successorNames i) (g.successors i) := by
      refine forall₂_successorNames fun j hj => ?_
      obtain ⟨hj, he⟩ := mem_successors.mp hj
      obtain ⟨other, hother, hpos⟩ := hnamed i j ⟨hlt, hj, he⟩
      exact ⟨other, hother, ih hpos (fun hw => h (mem_walkStarts_of_edge hlt he hw)) hj⟩
    have hlevels : (g.successorNames i).mapM (g.levelUpTo n) =
        .ok ((g.successors i).map (g.levelWithin n)) :=
      Outcome.mapM_eq_ok.mpr (forall₂_map_right_iff.mpr hnext)
    simp only [levelUpTo, hi, hlevels, levelWithin]
    rw [Outcome.ok_bind, foldr_map, sum_eq_foldr, foldr_map]
    rfl

theorem level_of_position (h : g.isCyclic = false) (hnamed : g.Named)
    (hi : g.position? name = some i) : g.level name = .ok (g.levelAt i) := by
  have hnil : g.walkStarts g.size = [] := by simpa [isCyclic] using h
  have hend : i ∉ g.walkStarts g.size := by simp [hnil]
  have hend' : i ∉ g.walkStarts (g.size + 1) := fun hw => hend (mem_walkStarts_succ.mp hw).1
  rw [level, h, if_neg (by decide), levelUpTo_eq hnamed hi hend', levelAt,
    levelWithin_succ_eq (lt_size_of_position hi) hend]

end

/-! ## Longest paths -/

inductive Path (g : Graph ν) (last : Nat) : Nat → Nat → Prop where
  | stay : Path g last last 0
  | step {i j n : Nat} (edge : g.Edge i j) (rest : Path g last j n) : Path g last i (n + 1)

/-- A path from the vertex to a leaf has `n` edges, and no path from it has more. -/
structure LongestFrom (g : Graph ν) (i n : Nat) : Prop where
  path : ∃ leaf, g.successors leaf = [] ∧ g.Path leaf i n
  most : ∀ last m, g.Path last i m → m ≤ n

/-- No vertex that can be reached has two successors. -/
def Unbranched (g : Graph ν) (i : Nat) : Prop :=
  ∀ j, ReflTransGen g.Edge i j → (g.successors j).length ≤ 1

theorem edge_iff_mem_successors (hi : i < g.size) : g.Edge i j ↔ j ∈ g.successors i := by
  simp [Edge, mem_successors, hi]

theorem longestFrom_leaf (h : g.successors i = []) : g.LongestFrom i 0 := by
  refine ⟨⟨i, h, .stay⟩, fun last m hpath => ?_⟩
  cases hpath with
  | stay => exact le_rfl
  | step edge _ =>
    rw [edge_iff_mem_successors edge.1, h] at edge
    cases edge

theorem LongestFrom.step {i k : Nat} {longest : Nat → Nat} (hk : g.Edge i k)
    (hpath : g.LongestFrom k (longest k))
    (hmost : ∀ j, g.Edge i j → g.LongestFrom j (longest j) ∧ longest j ≤ longest k) :
    g.LongestFrom i (longest k + 1) := by
  obtain ⟨leaf, hleaf, hto⟩ := hpath.path
  refine ⟨⟨leaf, hleaf, .step hk hto⟩, fun last m hpath => ?_⟩
  cases hpath with
  | stay => exact Nat.zero_le _
  | @step _ j n edge rest =>
    obtain ⟨hj, hle⟩ := hmost j edge
    exact Nat.succ_le_succ ((hj.most last n rest).trans hle)

theorem unbranched_iff :
    g.Unbranched i ↔ (g.successors i).length ≤ 1 ∧ ∀ j, g.Edge i j → g.Unbranched j := by
  constructor
  · intro h
    exact ⟨h i .refl, fun j hj k hk => h k (.head hj hk)⟩
  · rintro ⟨hhere, hbelow⟩ k hk
    rcases hk.cases_head with rfl | ⟨j, hj, hk⟩
    · exact hhere
    · exact hbelow j hj k hk

/-- A level is at least as high as the longest path is long, and it is the same just if the paths
nowhere part. -/
theorem Acyclic.exists_longest (h : g.Acyclic) (i : Fin g.size) :
    ∃ longest, g.LongestFrom i longest ∧ longest ≤ g.levelAt i ∧
      (g.levelAt i = longest ↔ g.Unbranched i) := by
  -- The induction goes down the edges, from the successors to the vertex.
  induction i using h.wellFounded.induction with
  | _ i ih =>
    have hbelow : ∀ j : Nat, ∃ longest, g.Edge i j → g.LongestFrom j longest ∧
        longest ≤ g.levelAt j ∧ (g.levelAt j = longest ↔ g.Unbranched j) := by
      intro j
      by_cases hj : g.Edge i j
      · obtain ⟨longest, hlongest⟩ := ih ⟨j, hj.2.1⟩ (.single hj)
        exact ⟨longest, fun _ => hlongest⟩
      · exact ⟨0, fun hedge => absurd hedge hj⟩
    choose longest hlongest using hbelow
    have hmem : ∀ j, j ∈ g.successors i ↔ g.Edge i j := fun j =>
      (edge_iff_mem_successors i.isLt).symm
    have hsum := levelAt_eq_sum h.isCyclic_eq_false i.isLt
    rw [unbranched_iff]
    by_cases hleaf : g.successors i = []
    · have hnone : ∀ j, ¬ g.Edge i j := fun j hj => by
        rw [← hmem, hleaf] at hj
        cases hj
      exact ⟨0, longestFrom_leaf hleaf, Nat.zero_le _, by simp [hsum, hleaf, hnone]⟩
    · obtain ⟨k, hk, hmax⟩ := (g.successors i).toFinset.exists_max_image longest
        (toFinset_nonempty_iff _ |>.mpr hleaf)
      simp only [mem_toFinset] at hk hmax
      obtain ⟨hlongestK, hleK, hiffK⟩ := hlongest k ((hmem k).mp hk)
      -- What the other successors add to the level is nothing only if there are none.
      have hperm := perm_cons_erase hk
      have hlevel : g.levelAt i = 1 + g.levelAt k +
          (((g.successors i).erase k).map fun j => 1 + g.levelAt j).sum := by
        rw [hsum, (hperm.map _).sum_eq, map_cons, sum_cons]
      refine ⟨longest k + 1, .step ((hmem k).mp hk) hlongestK fun j hj => ?_, by omega, ?_⟩
      · exact ⟨(hlongest j hj).1, hmax j ((hmem j).mpr hj)⟩
      · rcases hothers : (g.successors i).erase k with - | ⟨j, others⟩
        · rw [hothers, perm_singleton] at hperm
          rw [hothers, map_nil, sum_nil] at hlevel
          have hiff : g.levelAt i = longest k + 1 ↔ g.levelAt k = longest k := by omega
          simp [hiff, hiffK, ← hmem, hperm]
        · rw [hothers] at hperm hlevel
          have hlong : ¬ (g.successors i).length ≤ 1 := by simp [hperm.length_eq]
          have hhigh : g.levelAt i ≠ longest k + 1 := by
            rw [map_cons, sum_cons] at hlevel
            omega
          simp [hlong, hhigh]

/-- Every vertex of a graph without cycles has a level, which is the sum, over its successors, of
one plus the level of the successor. It is the number of edges on the longest path from the vertex
to a leaf just if no two edges part on the way; otherwise it is higher. -/
theorem level_longest_iff_unbranched [BEq ν] (g : Graph ν) (hnamed : g.Named) (h : g.Acyclic) :
    ∃ level : Nat → Nat,
      (∀ name i, g.position? name = some i → g.level name = .ok (level i)) ∧
      ∀ i < g.size, level i = ((g.successors i).map fun j => 1 + level j).sum ∧
        ∃ longest, g.LongestFrom i longest ∧ longest ≤ level i ∧
          (level i = longest ↔ g.Unbranched i) :=
  ⟨g.levelAt, fun _ _ hi => level_of_position h.isCyclic_eq_false hnamed hi, fun i hi =>
    ⟨levelAt_eq_sum h.isCyclic_eq_false hi, h.exists_longest ⟨i, hi⟩⟩⟩

/-- Two edges lead away from the first vertex, and no path from it is longer than one of them. -/
theorem level_longest_iff_unbranched_fork :
    let g : Graph String := { names := ["sum", "a", "b"], edges := [(0, 1), (0, 2)] }
    g.Acyclic ∧ g.level "sum" = .ok 2 ∧ ∃ longest < 2, g.LongestFrom 0 longest := by
  intro g
  have hacyclic : g.Acyclic := acyclic_of_isCyclic_eq_false (by decide)
  obtain ⟨level, hlevel, hall⟩ :=
    level_longest_iff_unbranched g (named_of_nodup (by decide)) hacyclic
  obtain ⟨-, longest, hlongest, hle, hiff⟩ := hall 0 (by decide)
  have htwo : level 0 = 2 := Except.ok.inj ((hlevel "sum" 0 rfl).symm.trans rfl)
  have hfork : ¬ g.Unbranched 0 := fun h => absurd (h 0 .refl) (by decide)
  refine ⟨hacyclic, rfl, longest, ?_, hlongest⟩
  have hne : level 0 ≠ longest := fun heq => hfork (hiff.mp heq)
  omega

/-! ## Vertices by name -/

variable {g' : Graph ν} {name : ν} {edges : List (ν × ν)} [BEq ν]

/-- The vertices at the ends of an edge that is given by names. -/
def ends? (g : Graph ν) (e : ν × ν) : Option (Nat × Nat) := do
  return (← g.position? e.1, ← g.position? e.2)

theorem ends?_eq_some {e : ν × ν} :
    g.ends? e = some (i, j) ↔ g.position? e.1 = some i ∧ g.position? e.2 = some j := by
  simp [ends?, Option.bind_eq_some_iff]

theorem connect_eq (e : ν × ν) : g.connect e.1 e.2 = match g.ends? e with
    | some p => .ok { g with edges := g.edges ++ [p] }
    | none => .error (.badValue "no such vertex") := by
  unfold connect ends?
  cases g.position? e.1 <;> cases g.position? e.2 <;> rfl

/-- Edges can be added if there are vertices at their ends. -/
theorem foldlM_connect_eq_ok : edges.foldlM (fun g e => g.connect e.1 e.2) g = .ok g' ↔
    (∀ e ∈ edges, (g.ends? e).isSome) ∧
      g' = { g with edges := g.edges ++ edges.filterMap g.ends? } := by
  induction edges generalizing g with
  | nil => simpa using eq_comm
  | cons e edges ih =>
    rw [foldlM_cons, connect_eq]
    cases he : g.ends? e with
    | none => simp [he]
    | some p =>
      have hends : Graph.ends? { g with edges := g.edges ++ [p] } = g.ends? := rfl
      simp [ih, he, hends]

/-- The edges of a graph that is put together by names lead to vertices that their names denote, also
if some names are given twice. -/
theorem named_ofNames [LawfulBEq ν] {names : List ν} (h : ofNames names edges = .ok g) :
    g.Named := by
  obtain ⟨-, rfl⟩ := foldlM_connect_eq_ok.mp h
  rintro i j ⟨-, -, he⟩
  obtain ⟨e, -, hends⟩ := mem_filterMap.mp he
  have hpos := (ends?_eq_some.mp hends).2
  obtain ⟨hj, hname, -⟩ := findIdx?_eq_some_iff_getElem.mp hpos
  exact ⟨e.2, List.getElem?_eq_some_iff.mpr ⟨hj, eq_of_beq hname⟩, hpos⟩

/-- If the edges form a cycle, no name has a level. Otherwise the recursion from a vertex to its
successors comes to an end, with a level that is greater than theirs: it is zero just for the names
from which no edge leads. -/
theorem level_descends (g : Graph ν) :
    (¬ g.Acyclic → ∀ name, g.level name =
      .error (.badValue ("The graph is not a directed acyclic graph (DAG). " ++
        "This function is only designed for DAGs."))) ∧
    (g.Named → g.Acyclic → (WellFounded fun j i => g.Edge i j) ∧ ∃ level : Nat → Nat,
      (∀ i < g.size, level i = ((g.successors i).map fun j => 1 + level j).sum) ∧
      (∀ i j, g.Edge i j → level j < level i) ∧
      ∀ name, g.level name = .ok ((g.position? name).elim 0 level) ∧
        (g.level name = .ok 0 ↔ ∀ i, g.position? name = some i → ∀ j, ¬ g.Edge i j)) := by
  refine ⟨fun hg name => ?_, fun hnamed hg => ?_⟩
  · cases hcyclic : g.isCyclic with
    | true => rw [level, hcyclic]; rfl
    | false => exact absurd (acyclic_of_isCyclic_eq_false hcyclic) hg
  · have hcyclic := hg.isCyclic_eq_false
    have hless : ∀ {i j}, g.Edge i j → g.levelAt j < g.levelAt i := levelAt_lt_of_edge hcyclic
    refine ⟨Subrelation.wf hless (measure g.levelAt).wf, g.levelAt,
      fun i hi => levelAt_eq_sum hcyclic hi, fun _ _ => hless, fun name => ?_⟩
    cases hi : g.position? name with
    | none => simp [level, hcyclic, levelUpTo, hi]
    | some i =>
      have hlevel := level_of_position hcyclic hnamed hi
      refine ⟨hlevel, ?_⟩
      have hzero : g.levelAt i = 0 ↔ g.successors i = [] := by
        rw [levelAt_eq_sum hcyclic (lt_size_of_position hi)]
        cases g.successors i <;> simp
      simp [hlevel, hzero, eq_nil_iff_forall_not_mem,
        ← edge_iff_mem_successors (lt_size_of_position hi)]

/-- An edge from a name to itself leaves the other names without a level too. An edge between two
names leaves a level for the first. -/
theorem level_descends_loop :
    let loop : Graph String := { names := ["a", "b"], edges := [(1, 1)] }
    let line : Graph String := { names := ["a", "b"], edges := [(0, 1)] }
    (∀ name, ∃ text, loop.level name = .error (.badValue text)) ∧
      line.Named ∧ line.Acyclic ∧ ∃ n > 0, line.level "a" = .ok n := by
  intro loop line
  have hloop : loop.Edge 1 1 := ⟨by decide, by decide, mem_cons_self⟩
  have hnamed : line.Named := named_of_nodup (by decide)
  have hline : line.Acyclic := acyclic_of_isCyclic_eq_false (by decide)
  obtain ⟨-, level, -, hless, hlevel⟩ := (level_descends line).2 hnamed hline
  have hedge : line.Edge 0 1 := ⟨by decide, by decide, mem_cons_self⟩
  refine ⟨fun name => ⟨_, (level_descends loop).1 (fun hg => hg 1 (.single hloop)) name⟩, hnamed,
    hline, level 0, Nat.zero_lt_of_lt (hless 0 1 hedge), (hlevel "a").1⟩

end SheetMill.Table.Graph

namespace SheetMill.Table

/-! ## The graph of dependencies -/

open Value Outcome List

variable {order : Enumeration} {formula : Value} {name c d : String} {names ts : List Value}
  {g g' : Graph Value} {source : Value} {cols : List (String × Value)} {i j : Nat}

/-- The columns of the table that a formula makes its column depend on. -/
def targets (order : Enumeration) (names : List Value) (formula : Value) :
    Outcome (List Value) := do
  let references ← References.ofFormula order formula
  if (← References.independent references.toValue (.list names)).truthy then return []
  references.columns.items

abbrev namesOf (cols : List (String × Value)) : List Value := cols.map fun (name, _) => .text name

theorem toValue_items (r : References) : r.toValue.item "error" = .ok (.ofText? r.error) ∧
    r.toValue.item "constants" = .ok (.bool r.constant) ∧
    r.toValue.item "columns" = .ok r.columns := by
  refine ⟨?_, ?_, ?_⟩ <;> apply item_of_field? <;> simp [References.toValue, lookup]

theorem truthy_of_lists {v : Value} (h : References.Lists name v) : v.truthy = true := by
  obtain ⟨xs, hxs, hmem⟩ := h
  cases v with
  | list ys | map ys | bytes ys =>
    cases ys with
    | nil =>
      cases hxs
      cases hmem
    | cons => rfl
  | text s =>
    cases hxs
    by_cases hs : s = ""
    · simp [hs] at hmem
    · simpa [truthy] using hs
  | _ => cases hxs

/-- A single column that is found stands first, whatever it is listed in. -/
theorem first_of_lists {v first : Value} (h : References.Lists name v) (hsize : v.size = .ok 1)
    (hfst : v.at_ 0 = .ok first) : first = .text name := by
  obtain ⟨xs, hxs, hmem⟩ := h
  cases v with
  | list ys =>
    cases hxs
    obtain ⟨y, rfl⟩ := length_eq_one_iff.mp (Except.ok.inj hsize)
    cases hfst
    exact (mem_singleton.mp hmem).symm
  | map ys =>
    cases hxs
    obtain ⟨⟨key, w⟩, rfl⟩ := length_eq_one_iff.mp (Except.ok.inj hsize)
    obtain rfl : .text name = key := mem_singleton.mp hmem
    cases hfst
  | bytes ys =>
    cases hxs
    simp at hmem
  | text s =>
    cases hxs
    have hlen : s.length = 1 := Except.ok.inj hsize
    obtain ⟨c, hc⟩ := length_eq_one_iff.mp (s.length_toList.trans hlen)
    simp only [at_, hlen, hc] at hfst hmem
    cases hfst
    exact (mem_singleton.mp hmem).symm
  | _ => cases hxs

theorem not_independent_of_lists {r : References} {b : Value} (herr : r.error = none)
    (hconstant : r.constant = false) (hlists : References.Lists name r.columns)
    (hname : .text name ∈ names) (h : References.independent r.toValue (.list names) = .ok b) :
    b.truthy = false := by
  obtain ⟨h1, h2, h3⟩ := toValue_items r
  unfold References.independent at h
  rw [h1, h2, h3, herr, hconstant] at h
  simp only [ok_bind, truthy_of_lists hlists] at h
  obtain ⟨size, hsize, h⟩ := bind_eq_ok.mp h
  by_cases hone : size = 1
  · subst hone
    obtain ⟨first, hfst, h⟩ := bind_eq_ok.mp h
    obtain rfl := first_of_lists hlists hsize hfst
    have hany : names.any (fun n => same n (.text name)) = true :=
      any_eq_true.mpr ⟨_, hname, same_text_right.mpr rfl⟩
    rw [holds, hany] at h
    cases h
    rfl
  · simp only [bne_iff_ne, hone, ne_eq, not_false_eq_true, if_true] at h
    cases h
    rfl

theorem text_mem_targets (h : targets order names formula = .ok ts) (hname : .text name ∈ names) :
    .text name ∈ ts ↔ Cites name formula := by
  obtain ⟨r, hr, h⟩ := bind_eq_ok.mp h
  obtain ⟨b, hb, h⟩ := bind_eq_ok.mp h
  obtain ⟨herr, hconstant, hfound⟩ := References.found_spec hr
  rw [← hfound]
  cases hindependent : b.truthy with
  | false =>
    rw [hindependent] at h
    exact (References.lists_of_items h).symm
  | true =>
    rw [hindependent] at h
    cases h
    refine iff_of_false not_mem_nil fun hlists => ?_
    cases hc : r.constant with
    | true => simp [hconstant hc, References.lists_list] at hlists
    | false => simp [not_independent_of_lists herr hc hlists hname hb] at hindependent

/-- A tree has targets, all of which are columns of the table. -/
theorem exists_targets_of_isTree {keys : List String} (h : IsTree keys formula)
    (names : List Value) :
    ∃ ts, targets order names formula = .ok ts ∧ References.Known keys ts := by
  obtain ⟨r, xs, hr, hcols, hall⟩ :=
    References.exists_of_isTree h (Nat.lt_succ_self formula.height)
  have hr' : References.ofFormula order formula = .ok r := hr
  obtain ⟨h1, h2, h3⟩ := toValue_items r
  obtain ⟨b, hb⟩ : ∃ b, References.independent r.toValue (.list names) = .ok b := by
    unfold References.independent
    rw [h1, h2, h3, (References.found_spec hr).1, hcols]
    cases r.constant with
    | true => exact ⟨_, rfl⟩
    | false => rcases xs with _ | ⟨x, _ | ⟨y, zs⟩⟩ <;> exact ⟨_, rfl⟩
  rw [targets, hr', ok_bind, hb, ok_bind, hcols]
  cases b.truthy with
  | true => exact ⟨[], rfl, forall_mem_nil _⟩
  | false => exact ⟨xs, rfl, hall⟩

theorem failsIf_targets {keys : List String} (h : IsFormula keys formula) (names : List Value) :
    FailsIf (· = unknownRange) (¬ IsTree keys formula) (targets order names formula)
      (References.Known keys) := by
  by_cases htree : IsTree keys formula
  · exact .inr ⟨not_not.mpr htree, exists_targets_of_isTree htree names⟩
  · have hstops : References.ofFormula order formula = .error unknownRange :=
      (References.isTree_or_stops h (Nat.lt_succ_self _)).resolve_left htree
    exact .inl ⟨htree, _, by rw [targets, hstops]; rfl, rfl⟩

/-! ## Edges -/

/-- The edges from a column to those that its formula makes it depend on. -/
def links (order : Enumeration) (names : List Value) (column : String × Value) :
    Outcome (List (Value × Value)) := do
  return (← targets order names column.2).map (.text column.1, ·)

def depend (order : Enumeration) (names : List Value) (g : Graph Value) (column : String × Value) :
    Outcome (Graph Value) := do
  (← links order names column).foldlM (fun g e => g.connect e.1 e.2) g

theorem dependencies_record (cols : List (String × Value)) :
    dependenciesIn order (.record cols) =
      cols.foldlM (depend order (namesOf cols)) { names := namesOf cols } := by
  have hnames : (cols.map fun (name, value) => (Value.text name, value)).map Prod.fst =
      namesOf cols := by
    simp
  unfold dependenciesIn record entriesAs
  simp only [ok_bind, hnames, foldlM_map]
  congr 1
  funext g column
  unfold depend links targets
  cases References.ofFormula order column.2 with
  | error e => rfl
  | ok r =>
    simp only [ok_bind]
    cases References.independent r.toValue (.list (namesOf cols)) with
    | error e => rfl
    | ok b =>
      simp only [ok_bind]
      cases b.truthy <;> simp [foldlM_map]

/-- The edges of all columns are found one column after the other. -/
theorem foldlM_depend_eq_ok : cols.foldlM (depend order names) g = .ok g' ↔
    ∃ found, cols.mapM (links order names) = .ok found ∧
      found.flatten.foldlM (fun g e => g.connect e.1 e.2) g = .ok g' := by
  induction cols generalizing g with
  | nil => simp
  | cons column cols ih =>
    simp only [foldlM_cons, mapM_cons, depend, bind_eq_ok, ih, pure_eq_ok, Except.ok.injEq]
    constructor
    · rintro ⟨next, ⟨first, hfirst, hnext⟩, rest, hrest, h⟩
      refine ⟨first :: rest, ⟨first, hfirst, rest, hrest, rfl⟩, ?_⟩
      rw [flatten_cons, foldlM_append, hnext]
      exact h
    · rintro ⟨_, ⟨first, hfirst, rest, hrest, rfl⟩, h⟩
      rw [flatten_cons, foldlM_append] at h
      obtain ⟨next, hnext, h⟩ := bind_eq_ok.mp h
      exact ⟨next, ⟨first, hfirst, hnext⟩, rest, hrest, h⟩

/-- The first column whose targets are not found decides for all. -/
theorem failsIf_foldlM_depend {kind : Fault → Prop} (cause : Value → Prop)
    (h : ∀ c formula, (c, formula) ∈ cols → (g.position? (.text c)).isSome ∧
      FailsIf kind (cause formula) (targets order names formula) fun ts =>
        ∀ t ∈ ts, (g.position? t).isSome) :
    FailsIf kind (∃ column ∈ cols, cause column.2) (cols.foldlM (depend order names) g)
      fun _ => True := by
  induction cols generalizing g with
  | nil => exact .inr ⟨by simp, g, rfl, trivial⟩
  | cons column cols ih =>
    obtain ⟨c, formula⟩ := column
    simp only [foldlM_cons, depend, exists_mem_cons_iff]
    obtain ⟨hc, ⟨hcause, f, hf, hkind⟩ | ⟨hfine, ts, hts, hall⟩⟩ := h c formula mem_cons_self
    · exact .inl ⟨.inl hcause, f, by rw [links, hf]; rfl, hkind⟩
    · have hends : ∀ e ∈ ts.map (Value.text c, ·), (g.ends? e).isSome := by
        intro e he
        obtain ⟨t, ht, rfl⟩ := mem_map.mp he
        obtain ⟨i, hi⟩ := Option.isSome_iff_exists.mp hc
        obtain ⟨j, hj⟩ := Option.isSome_iff_exists.mp (hall t ht)
        exact Option.isSome_iff_exists.mpr ⟨(i, j), Graph.ends?_eq_some.mpr ⟨hi, hj⟩⟩
      rw [links, hts]
      simp only [ok_bind, pure_eq_ok, Graph.foldlM_connect_eq_ok.mpr ⟨hends, rfl⟩, hfine, false_or]
      exact ih fun c' f' hmem => h c' f' (mem_cons_of_mem _ hmem)

/-! ## Columns and positions -/

abbrev keysOf (cols : List (String × Value)) : List String := cols.map Prod.fst

section

variable {cols : List (String × Value)} {g : Graph Value}

theorem mem_namesOf : .text name ∈ namesOf cols ↔ name ∈ keysOf cols := by
  simp

theorem position?_text (hnames : g.names = namesOf cols) (name : String) :
    g.position? (.text name) = (keysOf cols).findIdx? (· == name) := by
  unfold Graph.position?
  rw [hnames, findIdx?_map, findIdx?_map]
  rfl

theorem position?_eq_some_iff (hnames : g.names = namesOf cols) (hkeys : (keysOf cols).Nodup) :
    g.position? (.text name) = some i ↔ (keysOf cols)[i]? = some name := by
  rw [position?_text hnames, findIdx?_eq_some_iff_getElem, getElem?_eq_some_iff]
  constructor
  · rintro ⟨hi, hname, -⟩
    exact ⟨hi, by simpa using hname⟩
  · rintro ⟨hi, hname⟩
    refine ⟨hi, by simpa using hname, fun j hj heq => ?_⟩
    have hij : (keysOf cols)[j] = (keysOf cols)[i] := by rw [hname]; simpa using heq
    exact absurd (hkeys.getElem_inj_iff.mp hij) (Nat.ne_of_lt hj)

/-- Columns with different names denote different vertices. -/
theorem named_of_keys (hnames : g.names = namesOf cols) (hkeys : (keysOf cols).Nodup) :
    g.Named := by
  rintro i j ⟨-, hj, -⟩
  have hlt : j < (keysOf cols).length := by simpa [Graph.size, hnames] using hj
  have htexts : g.names = (keysOf cols).map .text := by simp [hnames]
  refine ⟨.text (keysOf cols)[j], ?_,
    (position?_eq_some_iff hnames hkeys).mpr (getElem?_eq_getElem hlt)⟩
  rw [htexts, getElem?_map, getElem?_eq_getElem hlt]
  rfl

theorem exists_position (hnames : g.names = namesOf cols) (hkeys : (keysOf cols).Nodup)
    (hname : name ∈ keysOf cols) :
    ∃ i, i < g.size ∧ g.position? (.text name) = some i := by
  obtain ⟨i, hi, hget⟩ := mem_iff_getElem.mp hname
  refine ⟨i, ?_, (position?_eq_some_iff hnames hkeys).mpr
    (List.getElem?_eq_some_iff.mpr ⟨hi, hget⟩)⟩
  simpa [Graph.size, hnames] using hi

theorem found_of_dependencies (h : dependenciesIn order (.record cols) = .ok g) :
    ∃ found, Forall₂ (fun column new => links order (namesOf cols) column = .ok new) cols found ∧
      g = ⟨namesOf cols, found.flatten.filterMap g.ends?⟩ := by
  rw [dependencies_record, foldlM_depend_eq_ok] at h
  obtain ⟨found, hfound, h⟩ := h
  obtain ⟨-, rfl⟩ := Graph.foldlM_connect_eq_ok.mp h
  exact ⟨found, mapM_eq_ok.mp hfound, rfl⟩

theorem names_of_dependencies (h : dependenciesIn order (.record cols) = .ok g) :
    g.names = namesOf cols := by
  obtain ⟨found, -, hg⟩ := found_of_dependencies h
  rw [hg]

theorem mem_edges_of_dependencies (h : dependenciesIn order (.record cols) = .ok g) :
    (i, j) ∈ g.edges ↔ ∃ c formula ts t, (c, formula) ∈ cols ∧
      targets order (namesOf cols) formula = .ok ts ∧ t ∈ ts ∧ g.position? (.text c) = some i ∧
      g.position? t = some j := by
  obtain ⟨found, hfound, hg⟩ := found_of_dependencies h
  have hflat : ∀ e, e ∈ found.flatten ↔ ∃ column ∈ cols, ∃ ts t,
      targets order (namesOf cols) column.2 = .ok ts ∧ t ∈ ts ∧ e = (.text column.1, t) := fun e =>
    References.mem_flatten_of_forall₂ hfound fun hnew => by
      obtain ⟨ts, hts, hnew⟩ := bind_eq_ok.mp hnew
      cases hnew
      simp [hts, eq_comm]
  have hedges : g.edges = found.flatten.filterMap g.ends? := congrArg Graph.edges hg
  simp only [hedges, mem_filterMap, hflat, Graph.ends?_eq_some]
  grind

theorem exists_targets_of_dependencies (h : dependenciesIn order (.record cols) = .ok g)
    (hmem : (c, formula) ∈ cols) : ∃ ts, targets order (namesOf cols) formula = .ok ts := by
  obtain ⟨found, hfound, -⟩ := found_of_dependencies h
  obtain ⟨hlen, hget⟩ := forall₂_iff_get.mp hfound
  obtain ⟨k, hk, hcolumn⟩ := mem_iff_getElem.mp hmem
  have hlinks := hget k hk (hlen ▸ hk)
  rw [get_eq_getElem, hcolumn] at hlinks
  obtain ⟨ts, hts, -⟩ := bind_eq_ok.mp hlinks
  exact ⟨ts, hts⟩

theorem eq_text_of_position {t : Value} (ht : g.position? t = some j)
    (hd : g.position? (.text d) = some j) : t = .text d := by
  obtain ⟨_, htext, -⟩ := findIdx?_eq_some_iff_getElem.mp hd
  obtain ⟨_, hsame, -⟩ := findIdx?_eq_some_iff_getElem.mp ht
  rw [same_text_right.mp htext] at hsame
  have hsame : same (.text d) t = true := hsame
  cases t <;> simp_all [same, sameScalar, asInt?]

theorem edge_iff_cites (hkeys : (keysOf cols).Nodup)
    (h : dependenciesIn order (.record cols) = .ok g) (hmem : (c, formula) ∈ cols)
    (hi : g.position? (.text c) = some i) (hj : g.position? (.text d) = some j) :
    g.Edge i j ↔ Cites d formula := by
  have hnames := names_of_dependencies h
  have hd : .text d ∈ namesOf cols :=
    mem_namesOf.mpr (mem_of_getElem? ((position?_eq_some_iff hnames hkeys).mp hj))
  constructor
  · rintro ⟨-, -, he⟩
    obtain ⟨c', formula', ts, t, hmem', hts, ht, hi', hj'⟩ := (mem_edges_of_dependencies h).mp he
    obtain rfl := eq_text_of_position hj' hj
    obtain rfl : c' = c := Value.text.inj (eq_text_of_position hi' hi)
    obtain rfl : formula' = formula :=
      congrArg Prod.snd (inj_on_of_nodup_map hkeys hmem' hmem rfl)
    exact (text_mem_targets hts hd).mp ht
  · intro hcites
    obtain ⟨ts, hts⟩ := exists_targets_of_dependencies h hmem
    refine ⟨Graph.lt_size_of_position hi, Graph.lt_size_of_position hj, ?_⟩
    exact (mem_edges_of_dependencies h).mpr
      ⟨c, formula, ts, _, hmem, hts, (text_mem_targets hts hd).mpr hcites, hi, hj⟩

def AllTrees (cols : List (String × Value)) : Prop :=
  ∀ c formula, (c, formula) ∈ cols → IsTree (keysOf cols) formula

def AllFormulas (cols : List (String × Value)) : Prop :=
  ∀ c formula, (c, formula) ∈ cols → IsFormula (keysOf cols) formula

theorem failsIf_dependencies (order : Enumeration) (hkeys : (keysOf cols).Nodup)
    (h : AllFormulas cols) :
    FailsIf (· = unknownRange) (¬ AllTrees cols) (dependenciesIn order (.record cols))
      fun _ => True := by
  have hknown : ∀ name ∈ keysOf cols,
      (Graph.position? { names := namesOf cols } (Value.text name)).isSome := by
    intro name hname
    obtain ⟨i, -, hi⟩ := exists_position (g := { names := namesOf cols }) rfl hkeys hname
    exact Option.isSome_iff_exists.mpr ⟨i, hi⟩
  have hcause : ¬ AllTrees cols ↔ ∃ column ∈ cols, ¬ IsTree (keysOf cols) column.2 := by
    simp [AllTrees]
  rw [hcause, dependencies_record]
  refine failsIf_foldlM_depend (fun formula => ¬ IsTree (keysOf cols) formula) ?_
  intro c formula hmem
  refine ⟨hknown c (mem_map_of_mem hmem), ?_⟩
  rcases failsIf_targets (h c formula hmem) (namesOf cols) with hfails | ⟨htree, ts, hts, hall⟩
  · exact .inl hfails
  · refine .inr ⟨htree, ts, hts, fun t ht => ?_⟩
    obtain ⟨name, hname, rfl⟩ := hall t ht
    exact hknown name hname

theorem exists_dependencies (hkeys : (keysOf cols).Nodup) (htrees : AllTrees cols) :
    ∃ g, dependenciesIn order (.record cols) = .ok g := by
  rcases failsIf_dependencies order hkeys fun c formula hmem => .tree (htrees c formula hmem) with
    ⟨hranges, -⟩ | ⟨-, g, hg, -⟩
  · exact absurd htrees hranges
  · exact ⟨g, hg⟩

def Refers (cols : List (String × Value)) (c d : String) : Prop :=
  ∃ formula, (c, formula) ∈ cols ∧ d ∈ keysOf cols ∧ Mentions d formula

/-- Over trees, an edge leads from a column to exactly the columns that its formula mentions. -/
theorem edge_iff_refers (hkeys : (keysOf cols).Nodup) (htrees : AllTrees cols)
    (h : dependenciesIn order (.record cols) = .ok g) (hi : g.position? (.text c) = some i)
    (hj : g.position? (.text d) = some j) :
    g.Edge i j ↔ Refers cols c d := by
  have hnames := names_of_dependencies h
  have hkey : ∀ {name k}, g.position? (.text name) = some k → name ∈ keysOf cols := fun hk =>
    mem_of_getElem? ((position?_eq_some_iff hnames hkeys).mp hk)
  constructor
  · intro he
    obtain ⟨⟨c, formula⟩, hmem, rfl⟩ := mem_map.mp (hkey hi)
    have hcites := (edge_iff_cites hkeys h hmem hi hj).mp he
    exact ⟨formula, hmem, hkey hj, (htrees c formula hmem).cites_iff.mp hcites⟩
  · rintro ⟨formula, hmem, hd, hm⟩
    exact (edge_iff_cites hkeys h hmem hi hj).mpr (cites_of_mentions hm)

/-- The graph of dependencies has an edge for every reference and no other, if the formulas are trees.
A rectangle of cells anywhere in a formula is of an unknown kind. -/
theorem references_found_iff_trees (order : Enumeration) (cols : List (String × Value))
    (hkeys : (keysOf cols).Nodup) (h : AllFormulas cols) :
    (AllTrees cols → ∃ g, dependenciesIn order (.record cols) = .ok g ∧ g.names = namesOf cols ∧
      ∀ c ∈ keysOf cols, ∀ d ∈ keysOf cols, ∃ i j, g.position? (.text c) = some i ∧
        g.position? (.text d) = some j ∧ (g.Edge i j ↔ Refers cols c d)) ∧
    (¬ AllTrees cols →
      dependenciesIn order (.record cols) = .error (.missingKey (.text "cell-range"))) := by
  rcases failsIf_dependencies order hkeys h with ⟨hranges, f, hf, rfl⟩ | ⟨htrees, g, hg, -⟩
  · exact ⟨fun htrees => absurd htrees hranges, fun _ => hf⟩
  · rw [not_not] at htrees
    refine ⟨fun _ => ⟨g, hg, names_of_dependencies hg, fun c hc d hd => ?_⟩, absurd htrees⟩
    obtain ⟨i, -, hi⟩ := exists_position (names_of_dependencies hg) hkeys hc
    obtain ⟨j, -, hj⟩ := exists_position (names_of_dependencies hg) hkeys hd
    exact ⟨i, j, hi, hj, edge_iff_refers hkeys htrees hg hi hj⟩

/-- A rectangle is no tree. -/
theorem references_found_iff_trees_range :
    let range : Value := .record [("type", .text "cell-range"), ("columns", .texts ["a"])]
    let cols : List (String × Value) := [("a", .record [("type", .text "number")]), ("b", range)]
    AllFormulas cols ∧
      dependencies (.record cols) = .error (.missingKey (.text "cell-range")) := by
  intro range cols
  have hformulas : AllFormulas cols := by
    intro c formula hmem
    simp only [cols, mem_cons, Prod.mk.injEq, not_mem_nil, or_false] at hmem
    rcases hmem with ⟨-, rfl⟩ | ⟨-, rfl⟩
    · exact .tree (.literal rfl (by decide))
    · exact .range rfl rfl (by decide)
  refine ⟨hformulas, (references_found_iff_trees _ cols (by decide) hformulas).2 fun htrees => ?_⟩
  have hrange := htrees "b" range (by simp [cols])
  cases hrange with
  | @literal _ kind type known =>
    have hkind : "cell-range" = kind := by simpa [range, List.lookup] using type
    simp [← hkind] at known
  | cell type _ _ | function type _ _ | binary type _ _ _ _ | unary type _ _ =>
    simp [range, List.lookup] at type

end

end SheetMill.Table
