import SheetMill.Proofs.Value
import SheetMill.Table.Plan

/-!
# What a formula refers to

A formula mentions a column if, at any depth, one of its cells lies in the column. The search for
references finds every column that is mentioned, whatever else the formula holds; in a tree of
cells, literals, functions and operators it finds nothing else and never stops with a fault.
-/

namespace SheetMill.Table

open Value Outcome List

/-- A cell of the formula, at any depth, lies in the column of the given name. -/
inductive Mentions (name : String) : Value → Prop where
  | cell {v : Value} (type : v.field? "type" = some (.text "cell"))
      (column : v.field? "column" = some (.text name)) : Mentions name v
  | argument {v part : Value} {parts : List Value}
      (type : v.field? "type" = some (.text "function"))
      (arguments : v.field? "arguments" = some (.list parts)) (mem : part ∈ parts)
      (inside : Mentions name part) : Mentions name v
  | left {v part : Value} (type : v.field? "type" = some (.text "binary-expression"))
      (operand : v.field? "left" = some part) (inside : Mentions name part) : Mentions name v
  | right {v part : Value} (type : v.field? "type" = some (.text "binary-expression"))
      (operand : v.field? "right" = some part) (inside : Mentions name part) : Mentions name v
  | operand {v part : Value} (type : v.field? "type" = some (.text "unary-expression"))
      (operand : v.field? "operand" = some part) (inside : Mentions name part) : Mentions name v

/-- A cell or a rectangle of the formula, at any depth, is in the column of the given name. -/
inductive Cites (name : String) : Value → Prop where
  | cell {v : Value} (type : v.field? "type" = some (.text "cell"))
      (column : v.field? "column" = some (.text name)) : Cites name v
  | range {v covered : Value} {columns : List Value}
      (type : v.field? "type" = some (.text "cell_range"))
      (covers : v.field? "columns" = some covered) (items : covered.items = .ok columns)
      (mem : .text name ∈ columns) : Cites name v
  | argument {v arguments part : Value} {parts : List Value}
      (type : v.field? "type" = some (.text "function"))
      (takes : v.field? "arguments" = some arguments) (items : arguments.items = .ok parts)
      (mem : part ∈ parts) (inside : Cites name part) : Cites name v
  | left {v part : Value} (type : v.field? "type" = some (.text "binary-expression"))
      (operand : v.field? "left" = some part) (inside : Cites name part) : Cites name v
  | right {v part : Value} (type : v.field? "type" = some (.text "binary-expression"))
      (operand : v.field? "right" = some part) (inside : Cites name part) : Cites name v
  | operand {v part : Value} (type : v.field? "type" = some (.text "unary-expression"))
      (operand : v.field? "operand" = some part) (inside : Cites name part) : Cites name v

/-- A tree of cells, literals, functions and operators, all its cells lying in columns of the given
names. -/
inductive IsTree (names : List String) : Value → Prop where
  | cell {v : Value} {name : String} (type : v.field? "type" = some (.text "cell"))
      (column : v.field? "column" = some (.text name)) (known : name ∈ names) : IsTree names v
  | literal {v : Value} {kind : String} (type : v.field? "type" = some (.text kind))
      (known : kind ∈ ["number", "logical", "text"]) : IsTree names v
  | function {v : Value} {parts : List Value} (type : v.field? "type" = some (.text "function"))
      (arguments : v.field? "arguments" = some (.list parts))
      (trees : ∀ part ∈ parts, IsTree names part) : IsTree names v
  | binary {v left right : Value} (type : v.field? "type" = some (.text "binary-expression"))
      (leftOperand : v.field? "left" = some left) (rightOperand : v.field? "right" = some right)
      (leftTree : IsTree names left) (rightTree : IsTree names right) : IsTree names v
  | unary {v operand : Value} (type : v.field? "type" = some (.text "unary-expression"))
      (onlyOperand : v.field? "operand" = some operand) (tree : IsTree names operand) :
      IsTree names v

/-- What the formula of a column can be: a tree in which rectangles of cells stand too, all in
columns of the given names. -/
inductive IsFormula (names : List String) : Value → Prop where
  | tree {v : Value} (tree : IsTree names v) : IsFormula names v
  | range {v : Value} {columns : List String} (type : v.field? "type" = some (.text "cell-range"))
      (covered : v.field? "columns" = some (.texts columns))
      (known : ∀ name ∈ columns, name ∈ names) : IsFormula names v
  | function {v : Value} {parts : List Value} (type : v.field? "type" = some (.text "function"))
      (arguments : v.field? "arguments" = some (.list parts))
      (formulas : ∀ part ∈ parts, IsFormula names part) : IsFormula names v
  | binary {v left right : Value} (type : v.field? "type" = some (.text "binary-expression"))
      (leftOperand : v.field? "left" = some left) (rightOperand : v.field? "right" = some right)
      (leftFormula : IsFormula names left) (rightFormula : IsFormula names right) :
      IsFormula names v
  | unary {v operand : Value} (type : v.field? "type" = some (.text "unary-expression"))
      (onlyOperand : v.field? "operand" = some operand) (formula : IsFormula names operand) :
      IsFormula names v

/-- What is reported of a rectangle: there is no search under the name of its kind. -/
def unknownRange : Fault := .missingKey (.text "cell-range")

variable {name : String} {v : Value} {names : List String} {kind : String} {n : Nat}
  {items : List Value} {search : Search} {kept : List Value}

/-! ## Citing by kind -/

open References.Search in
/-- What it means for a formula of a kind to cite a column. -/
theorem cites_iff (htype : v.field? "type" = some (.text kind)) : Cites name v ↔
    match ofKind? kind with
    | some .cell => v.field? "column" = some (.text name)
    | some .cellRange => ∃ covered cols, v.field? "columns" = some covered ∧
      covered.items = .ok cols ∧ .text name ∈ cols
    | some .function => ∃ arguments parts, v.field? "arguments" = some arguments ∧
      arguments.items = .ok parts ∧ ∃ part ∈ parts, Cites name part
    | some .binary => (∃ part, v.field? "left" = some part ∧ Cites name part) ∨
      ∃ part, v.field? "right" = some part ∧ Cites name part
    | some .unary => ∃ part, v.field? "operand" = some part ∧ Cites name part
    | _ => False := by
  constructor
  · rintro (⟨type, column⟩ | ⟨type, covers, items, mem⟩ | ⟨type, takes, items, mem, inside⟩ |
      ⟨type, operand, inside⟩ | ⟨type, operand, inside⟩ | ⟨type, operand, inside⟩) <;>
      cases htype.symm.trans type
    · exact column
    · exact ⟨_, _, covers, items, mem⟩
    · exact ⟨_, _, takes, items, _, mem, inside⟩
    · exact .inl ⟨_, operand, inside⟩
    · exact .inr ⟨_, operand, inside⟩
    · exact ⟨_, operand, inside⟩
  · fun_cases ofKind? kind
    · exact .cell htype
    · exact fun ⟨_, _, covers, items, mem⟩ => .range htype covers items mem
    · nofun
    · nofun
    · nofun
    · exact fun ⟨_, _, takes, items, _, mem, inside⟩ => .argument htype takes items mem inside
    · rintro (⟨_, operand, inside⟩ | ⟨_, operand, inside⟩)
      · exact .left htype operand inside
      · exact .right htype operand inside
    · exact fun ⟨_, operand, inside⟩ => .operand htype operand inside
    · nofun

theorem ofKind?_literal (h : kind ∈ ["number", "logical", "text"]) :
    References.Search.ofKind? kind = some .literal := by
  simp only [mem_cons, not_mem_nil, or_false] at h
  rcases h with rfl | rfl | rfl <;> rfl

theorem not_cites_literal (htype : v.field? "type" = some (.text kind))
    (hkind : kind ∈ ["number", "logical", "text"]) : ¬ Cites name v := by
  simp [cites_iff htype, ofKind?_literal hkind]

theorem cites_of_mentions (h : Mentions name v) : Cites name v := by
  induction h with
  | cell type column => exact .cell type column
  | argument type arguments mem _ ih => exact .argument type arguments rfl mem ih
  | left type operand _ ih => exact .left type operand ih
  | right type operand _ ih => exact .right type operand ih
  | operand type operand _ ih => exact .operand type operand ih

/-- A tree cites the columns that it mentions. -/
theorem IsTree.cites_iff (h : IsTree names v) : Cites name v ↔ Mentions name v := by
  refine ⟨fun hc => ?_, cites_of_mentions⟩
  induction h with
  | cell type _ _ => exact .cell type ((Table.cites_iff type).mp hc)
  | literal type known => exact absurd hc (not_cites_literal type known)
  | function type arguments _ ih =>
    obtain ⟨_, _, takes, items, part, mem, hc⟩ := (Table.cites_iff type).mp hc
    cases arguments.symm.trans takes
    cases items
    exact .argument type arguments mem (ih part mem hc)
  | binary type left right _ _ ihl ihr =>
    rcases (Table.cites_iff type).mp hc with ⟨_, operand, hc⟩ | ⟨_, operand, hc⟩
    · cases left.symm.trans operand
      exact .left type left (ihl hc)
    · cases right.symm.trans operand
      exact .right type right (ihr hc)
  | unary type only _ ih =>
    obtain ⟨_, operand, hc⟩ := (Table.cites_iff type).mp hc
    cases only.symm.trans operand
    exact .operand type operand (ih hc)

namespace References

variable {order : Enumeration} {r : References} {kept' : List Value}

/-! ## Items, each once -/

/-- One item more: it is kept unless an equal one was kept before. -/
def keep (kept : List Value) (v : Value) : Outcome (List Value) :=
  if v.isKey then .ok (if kept.any (Value.sameScalar v) then kept else v :: kept)
  else .error (.wrongKind ("unhashable type: '" ++ v.kindName ++ "'"))

theorem distinct_eq (items : List Value) :
    distinct items = (items.foldlM keep [] >>= fun kept => .ok kept.reverse) := rfl

theorem mem_keep (h : keep kept v = .ok kept') (hmem : .text name ∈ kept ∨ v = .text name) :
    .text name ∈ kept' := by
  unfold keep at h
  split at h
  · cases h
    rcases hmem with hmem | rfl
    · split
      · exact hmem
      · exact mem_cons_of_mem _ hmem
    · split
      · rename_i hany
        obtain ⟨x, hx, hsame⟩ := any_eq_true.mp hany
        rw [sameScalar_text_left.mp hsame]
        exact hx
      · exact mem_cons_self
  · cases h

theorem mem_or_eq_of_mem_keep {x : Value} (h : keep kept v = .ok kept') (hmem : x ∈ kept') :
    x ∈ kept ∨ x = v := by
  unfold keep at h
  split at h
  · cases h
    split at hmem
    · exact Or.inl hmem
    · rcases mem_cons.mp hmem with rfl | hmem
      · exact Or.inr rfl
      · exact Or.inl hmem
  · cases h

theorem foldlM_keep_spec (h : items.foldlM keep kept = .ok kept') :
    (∀ name, .text name ∈ kept ∨ .text name ∈ items → .text name ∈ kept') ∧
      ∀ x ∈ kept', x ∈ kept ∨ x ∈ items := by
  induction items generalizing kept with
  | nil =>
    have hk : kept = kept' := by simpa using h
    subst hk
    exact ⟨fun name hn => by simpa using hn, fun x hx => Or.inl hx⟩
  | cons v items ih =>
    obtain ⟨next, hnext, h⟩ := bind_eq_ok.mp h
    obtain ⟨htexts, hall⟩ := ih h
    refine ⟨fun name hn => htexts name ?_, fun x hx => ?_⟩
    · rcases hn with hn | hn
      · exact Or.inl (mem_keep hnext (Or.inl hn))
      · rcases mem_cons.mp hn with hn | hn
        · exact Or.inl (mem_keep hnext (Or.inr hn.symm))
        · exact Or.inr hn
    · rcases hall x hx with hx | hx
      · rcases mem_or_eq_of_mem_keep hnext hx with hx | rfl
        · exact Or.inl hx
        · exact Or.inr mem_cons_self
      · exact Or.inr (mem_cons_of_mem _ hx)

/-- Of texts, exactly those that are there are kept. -/
theorem text_mem_distinct (h : distinct items = .ok kept) (name : String) :
    .text name ∈ kept ↔ .text name ∈ items := by
  obtain ⟨kept', hfold, hrev⟩ := bind_eq_ok.mp h
  cases hrev
  obtain ⟨htexts, hall⟩ := foldlM_keep_spec hfold
  rw [mem_reverse]
  constructor
  · intro hx
    simpa using hall _ hx
  · intro hx
    exact htexts name (Or.inr hx)

theorem mem_of_mem_distinct (h : distinct items = .ok kept) {x : Value} (hx : x ∈ kept) :
    x ∈ items := by
  obtain ⟨kept', hfold, hrev⟩ := bind_eq_ok.mp h
  cases hrev
  simpa using (foldlM_keep_spec hfold).2 x (mem_reverse.mp hx)

theorem distinct_of_isKey (h : ∀ x ∈ items, x.isKey = true) :
    ∃ kept, distinct items = .ok kept := by
  suffices hfold : ∀ kept, ∃ kept', items.foldlM keep kept = .ok kept' by
    obtain ⟨kept', hkept⟩ := hfold []
    exact ⟨kept'.reverse, by rw [distinct_eq, hkept]; rfl⟩
  induction items with
  | nil => exact fun kept => ⟨kept, rfl⟩
  | cons v items ih =>
    intro kept
    rw [foldlM_cons, keep, if_pos (h v mem_cons_self)]
    exact ih (fun x hx => h x (mem_cons_of_mem _ hx)) _

/-! ## The search for one node -/

theorem ofFormulaUpTo_succ (htype : v.field? "type" = some (.text kind))
    (hkind : Search.ofKind? kind = some search) (n : Nat) :
    ofFormulaUpTo order (n + 1) v = foundBy order (ofFormulaUpTo order n) search v := by
  have hitem := item_of_field? htype
  have hsearch : searchOf v = .ok search := by simp [searchOf, hitem, hkind]
  have hsuits : search.suits v = .ok true := by simp [Search.suits, hitem, hkind, isKey]
  rw [ofFormulaUpTo, hsearch]
  cases search <;> simp [byWith, hsuits, foundBy]

theorem foundBy_binary_eq_ok {sub : Value → Outcome References}
    (h : foundBy order sub .binary v = .ok r) :
    ∃ left right r1 r2 xs ys kept, v.field? "left" = some left ∧ v.field? "right" = some right ∧
      sub left = .ok r1 ∧ sub right = .ok r2 ∧ r1.columns.items = .ok xs ∧
      r2.columns.items = .ok ys ∧ r = { columns := .list kept } ∧
      ∀ name, .text name ∈ kept ↔ .text name ∈ xs ∨ .text name ∈ ys := by
  simp only [foundBy, bind_eq_ok] at h
  obtain ⟨left, hleft, r1, hr1, right, hright, r2, hr2, xs, hxs, ls, hls, ys, hys, rs, hrs, kept,
    hkept, h⟩ := h
  cases h
  refine ⟨left, right, r1, r2, xs, ys, _, item_eq_ok.mp hleft, item_eq_ok.mp hright, hr1, hr2, hxs,
    hys, rfl, fun name => ?_⟩
  rw [(order.perm v kept).mem_iff, text_mem_distinct hkept, mem_append, text_mem_distinct hls,
    text_mem_distinct hrs]

/-! ## The whole search -/

theorem exists_search (hr : ofFormulaUpTo order n v = .ok r) :
    ∃ m kind search, n = m + 1 ∧ v.field? "type" = some (.text kind) ∧
      Search.ofKind? kind = some search ∧
      foundBy order (ofFormulaUpTo order m) search v = .ok r := by
  cases n with
  | zero => cases hr
  | succ m =>
    obtain ⟨search, hsearch, -⟩ := bind_eq_ok.mp hr
    obtain ⟨key, hkey, hsearch⟩ := bind_eq_ok.mp hsearch
    have htype := item_eq_ok.mp hkey
    cases key with
    | text kind =>
      cases hkind : Search.ofKind? kind with
      | none => simp [hkind] at hsearch
      | some search' =>
        rw [ofFormulaUpTo_succ htype hkind] at hr
        exact ⟨m, kind, search', rfl, htype, hkind, hr⟩
    | _ => cases hsearch

/-- A text is among the items of the value. -/
def Lists (name : String) (v : Value) : Prop := ∃ xs, v.items = .ok xs ∧ .text name ∈ xs

theorem lists_of_items {xs : List Value} (h : v.items = .ok xs) :
    Lists name v ↔ .text name ∈ xs := by
  simp [Lists, h]

theorem lists_list (xs : List Value) : Lists name (.list xs) ↔ .text name ∈ xs :=
  lists_of_items (items_list xs)

theorem mem_flatten_of_forall₂ {α β : Type} {R : α → List β → Prop} {P : α → Prop} {b : β}
    {as : List α} {bss : List (List β)} (h : Forall₂ R as bss)
    (hR : ∀ {a bs}, R a bs → (b ∈ bs ↔ P a)) : b ∈ bss.flatten ↔ ∃ a ∈ as, P a := by
  induction h with
  | nil => simp
  | cons hab _ ih => simp [hR hab, ih]

/-- The columns that are found are those that the formula cites. -/
theorem found_spec (hr : ofFormulaUpTo order n v = .ok r) :
    r.error = none ∧ (r.constant = true → r.columns = .list []) ∧
      ∀ name, Lists name r.columns ↔ Cites name v := by
  induction n generalizing v r with
  | zero => cases hr
  | succ n ih =>
    obtain ⟨_, kind, search, hn, htype, hkind, hr⟩ := exists_search hr
    cases hn
    have hsub : ∀ {part r' xs}, ofFormulaUpTo order n part = .ok r' → r'.columns.items = .ok xs →
        ∀ name, .text name ∈ xs ↔ Cites name part := fun hr' hxs name =>
      (lists_of_items hxs).symm.trans ((ih hr').2.2 name)
    have hcites : ∀ name, Cites name v ↔ _ := fun name => cites_iff htype
    rw [hkind] at hcites
    cases search with
    | cell =>
      obtain ⟨column, hcol, hr⟩ := bind_eq_ok.mp hr
      cases hr
      refine ⟨rfl, nofun, fun name => ?_⟩
      rw [lists_list, mem_singleton, hcites, item_eq_ok.mp hcol, Option.some_inj, eq_comm]
    | cellRange =>
      obtain ⟨covered, hcovered, hr⟩ := bind_eq_ok.mp hr
      cases hr
      simp [hcites, item_eq_ok.mp hcovered, Lists]
    | literal =>
      cases hr
      exact ⟨rfl, fun _ => rfl, fun name => by simp [hcites, lists_list]⟩
    | function =>
      simp only [foundBy, bind_eq_ok] at hr
      obtain ⟨arguments, hargs, parts, hparts, cols, hcols, kept, hkept, hr⟩ := hr
      cases hr
      refine ⟨rfl, nofun, fun name => ?_⟩
      have hfunction : Cites name v ↔ ∃ part ∈ parts, Cites name part := by
        simp [hcites, item_eq_ok.mp hargs, hparts]
      rw [lists_list, (order.perm v kept).mem_iff, text_mem_distinct hkept, hfunction]
      refine mem_flatten_of_forall₂ (mapM_eq_ok.mp hcols) fun hpart => ?_
      obtain ⟨r', hr', hxs⟩ := bind_eq_ok.mp hpart
      exact hsub hr' hxs name
    | binary =>
      obtain ⟨left, right, r1, r2, xs, ys, kept, hleft, hright, hr1, hr2, hxs, hys, rfl, hkept⟩ :=
        foundBy_binary_eq_ok hr
      refine ⟨rfl, nofun, fun name => ?_⟩
      rw [lists_list, hkept, hsub hr1 hxs, hsub hr2 hys, hcites]
      simp [hleft, hright]
    | unary =>
      obtain ⟨part, hpart, hr⟩ := bind_eq_ok.mp hr
      obtain ⟨r', hr', hr⟩ := bind_eq_ok.mp hr
      cases hr
      simp [hcites, item_eq_ok.mp hpart, (ih hr').2.2]

/-- All items are names of columns that are known. -/
def Known (names : List String) (items : List Value) : Prop :=
  ∀ x ∈ items, ∃ name ∈ names, x = .text name

theorem Known.listed (h : Known names items) (v : Value) : Known names (order.list v items) :=
  fun x hx => h x ((order.perm v items).mem_iff.mp hx)

theorem Known.exists_distinct (h : Known names items) :
    ∃ kept, distinct items = .ok kept ∧ Known names kept := by
  have hkeys : ∀ x ∈ items, x.isKey = true := by
    intro x hx
    obtain ⟨name, -, rfl⟩ := h x hx
    rfl
  obtain ⟨kept, hkept⟩ := distinct_of_isKey hkeys
  exact ⟨kept, hkept, fun x hx => h x (mem_of_mem_distinct hkept hx)⟩

theorem exists_foundBy (order : Enumeration) (htype : v.field? "type" = some (.text kind))
    (hkind : Search.ofKind? kind = some search) (hn : v.height < n) :
    ∃ m, v.height ≤ m ∧
      ofFormulaUpTo order n v = foundBy order (ofFormulaUpTo order m) search v := by
  obtain ⟨m, rfl⟩ := Nat.exists_eq_succ_of_ne_zero (Nat.ne_of_gt (Nat.zero_lt_of_lt hn))
  exact ⟨m, Nat.le_of_lt_succ hn, ofFormulaUpTo_succ htype hkind m⟩

/-- The references of a tree are found, and are the list of some columns that are known. -/
theorem exists_of_isTree (h : IsTree names v) (hn : v.height < n) :
    ∃ r xs, ofFormulaUpTo order n v = .ok r ∧ r.columns = .list xs ∧ Known names xs := by
  induction h generalizing n with
  | cell type column known =>
    obtain ⟨m, -, hstep⟩ := exists_foundBy order type rfl hn
    simp only [hstep, foundBy, item_of_field? column]
    exact ⟨_, _, rfl, rfl, fun x hx => ⟨_, known, mem_singleton.mp hx⟩⟩
  | @literal v kind type known =>
    obtain ⟨m, -, hstep⟩ := exists_foundBy order type (ofKind?_literal known) hn
    exact ⟨_, [], hstep, rfl, forall_mem_nil _⟩
  | @function v parts type arguments trees ih =>
    obtain ⟨m, hm, hstep⟩ := exists_foundBy order type rfl hn
    have hparts : ∀ part ∈ parts, ∃ xs,
        (do (← ofFormulaUpTo order m part).columns.items) = .ok xs ∧ Known names xs := by
      intro part hpart
      have hlower := height_lt_of_mem_items hpart
      have hlist := height_lt_of_field? arguments
      obtain ⟨r, xs, hr, hxs, hall⟩ := ih part hpart (n := m) (by omega)
      exact ⟨xs, by rw [hr, ok_bind, hxs]; rfl, hall⟩
    obtain ⟨cols, hcols, hall⟩ := exists_mapM_eq_ok hparts
    have hflat : Known names cols.flatten := by
      intro x hx
      obtain ⟨xs, hxs, hx⟩ := mem_flatten.mp hx
      obtain ⟨i, hi, rfl⟩ := mem_iff_getElem.mp hxs
      obtain ⟨hlen, hget⟩ := forall₂_iff_get.mp hall
      exact hget i (hlen ▸ hi) hi x hx
    obtain ⟨kept, hkept, hall⟩ := hflat.exists_distinct
    simp only [hstep, foundBy, item_of_field? arguments, ok_bind, items_list]
    rw [hcols, ok_bind, hkept]
    exact ⟨_, _, rfl, rfl, hall.listed v⟩
  | @binary v left right type leftOperand rightOperand leftTree rightTree ihl ihr =>
    obtain ⟨m, hm, hstep⟩ := exists_foundBy order type rfl hn
    have hl := height_lt_of_field? leftOperand
    have hr := height_lt_of_field? rightOperand
    obtain ⟨r1, xs, hr1, hxs, hall1⟩ := ihl (n := m) (by omega)
    obtain ⟨r2, ys, hr2, hys, hall2⟩ := ihr (n := m) (by omega)
    obtain ⟨ls, hls, hleft⟩ := hall1.exists_distinct
    obtain ⟨rs, hrs, hright⟩ := hall2.exists_distinct
    have hboth : Known names (ls ++ rs) := forall_mem_append.mpr ⟨hleft, hright⟩
    obtain ⟨kept, hkept, hall⟩ := hboth.exists_distinct
    simp only [hstep, foundBy, item_of_field? leftOperand, item_of_field? rightOperand,
      ok_bind, hr1, hr2, hxs, hys, items_list, hls, hrs, hkept]
    exact ⟨_, _, rfl, rfl, hall.listed v⟩
  | @unary v operand type onlyOperand tree ih =>
    obtain ⟨m, hm, hstep⟩ := exists_foundBy order type rfl hn
    have hlower := height_lt_of_field? onlyOperand
    obtain ⟨r, xs, hr, hxs, hall⟩ := ih (n := m) (by omega)
    simp only [hstep, foundBy, item_of_field? onlyOperand, ok_bind, hr]
    exact ⟨_, xs, rfl, hxs, hall⟩

/-- A formula that is no tree has a rectangle somewhere, and the first one that the search comes to
stops it. -/
theorem isTree_or_stops (h : IsFormula names v) (hn : v.height < n) :
    IsTree names v ∨ ofFormulaUpTo order n v = .error unknownRange := by
  induction h generalizing n with
  | tree tree => exact .inl tree
  | range type _ _ =>
    obtain ⟨m, rfl⟩ := Nat.exists_eq_succ_of_ne_zero (Nat.ne_zero_of_lt hn)
    refine .inr ?_
    rw [ofFormulaUpTo, searchOf, item_of_field? type]
    rfl
  | @function v parts type arguments _ ih =>
    obtain ⟨m, hm, hstep⟩ := exists_foundBy order type rfl hn
    have hlist := height_lt_of_field? arguments
    have hparts : ∀ part ∈ parts, FailsIf (· = unknownRange) (¬ IsTree names part)
        (do (← ofFormulaUpTo order m part).columns.items) fun _ => True := by
      intro part hpart
      have hlower := height_lt_of_mem_items hpart
      by_cases htree : IsTree names part
      · obtain ⟨r, xs, hr, hxs, -⟩ := exists_of_isTree htree (n := m) (by omega)
        exact .inr ⟨not_not.mpr htree, xs, by rw [hr, ok_bind, hxs]; rfl, trivial⟩
      · have hstops := (ih part hpart (n := m) (by omega)).resolve_left htree
        exact .inl ⟨htree, _, by rw [hstops]; rfl, rfl⟩
    rcases FailsIf.mapM hparts with ⟨-, f, hf, rfl⟩ | ⟨htrees, -⟩
    · refine .inr ?_
      simp only [hstep, foundBy, item_of_field? arguments, ok_bind, items_list]
      rw [hf, error_bind]
    · push Not at htrees
      exact .inl (.function type arguments htrees)
  | @binary v left right type leftOperand rightOperand _ _ ihl ihr =>
    obtain ⟨m, hm, hstep⟩ := exists_foundBy order type rfl hn
    have hl := height_lt_of_field? leftOperand
    have hr := height_lt_of_field? rightOperand
    simp only [hstep, foundBy, item_of_field? leftOperand, item_of_field? rightOperand,
      ok_bind]
    rcases ihl (n := m) (by omega) with hleft | hleft
    · obtain ⟨r, xs, hr1, -⟩ := exists_of_isTree hleft (n := m) (by omega)
      rcases ihr (n := m) (by omega) with hright | hright
      · exact .inl (.binary type leftOperand rightOperand hleft hright)
      · exact .inr (by rw [hr1, hright]; rfl)
    · exact .inr (by rw [hleft]; rfl)
  | @unary v operand type onlyOperand _ ih =>
    obtain ⟨m, hm, hstep⟩ := exists_foundBy order type rfl hn
    have hlower := height_lt_of_field? onlyOperand
    rcases ih (n := m) (by omega) with htree | hstops
    · exact .inl (.unary type onlyOperand htree)
    · refine .inr ?_
      simp only [hstep, foundBy, item_of_field? onlyOperand, ok_bind, hstops]
      rfl

end References

end SheetMill.Table
