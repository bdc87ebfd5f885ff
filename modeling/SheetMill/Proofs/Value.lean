import Mathlib.Data.Int.Order.Basic
import SheetMill.Proofs.Outcome
import SheetMill.Value.Order

/-!
# Values under text keys

Most maps of the pipeline are records: their keys are texts. For a text key the comparison of keys
is plain equality, so looking an entry up, setting it and taking it out obey the laws of a map from
texts.
-/

namespace SheetMill.Value

open List

variable {s : String} {v w : Value} {t : String}

theorem sameScalar_text_right : sameScalar v (.text s) = true ↔ v = .text s := by
  cases v <;> simp [sameScalar, asInt?]

theorem sameScalar_text_left : sameScalar (.text s) v = true ↔ .text s = v := by
  cases v <;> simp [sameScalar, asInt?]

@[simp] theorem sameScalar_text_text (s t : String) :
    sameScalar (.text s) (.text t) = (s == t) := by
  simp [sameScalar]

theorem same_text_right : same v (.text s) = true ↔ v = .text s := by
  cases v <;> simp [same, sameScalar, asInt?]

@[simp] theorem same_text_text (s t : String) : same (.text s) (.text t) = (s == t) := by
  simp [same]

/-! ## Entries under a text key -/

theorem findEntry_cons_of_eq (v : Value) (rest : List (Value × Value)) :
    findEntry (.text s) ((.text s, v) :: rest) = some v := by
  simp [findEntry]

theorem findEntry_cons_of_ne {k : Value} (hk : k ≠ .text s) (v : Value)
    (rest : List (Value × Value)) :
    findEntry (.text s) ((k, v) :: rest) = findEntry (.text s) rest := by
  simp [findEntry, sameScalar_text_right, hk]

theorem mem_of_findEntry :
    ∀ {entries : List (Value × Value)}, findEntry (.text s) entries = some v →
      (.text s, v) ∈ entries := by
  intro entries
  induction entries with
  | nil => intro h; cases h
  | cons e rest ih =>
    obtain ⟨k, w⟩ := e
    intro h
    by_cases hk : k = .text s
    · subst hk
      rw [findEntry_cons_of_eq] at h
      cases h
      exact mem_cons_self
    · rw [findEntry_cons_of_ne hk] at h
      exact mem_cons_of_mem _ (ih h)

theorem findEntry_setEntry (s t : String) (v : Value) (entries : List (Value × Value)) :
    findEntry (.text s) (setEntry (.text t) v entries) =
      if s = t then some v else findEntry (.text s) entries := by
  induction entries with
  | nil =>
    by_cases h : s = t
    · simp [setEntry, findEntry, h]
    · simp [setEntry, findEntry, h, beq_eq_false_iff_ne.mpr (Ne.symm h)]
  | cons e rest ih =>
    obtain ⟨k, w⟩ := e
    by_cases hk : k = .text t
    · subst hk
      by_cases h : s = t
      · subst h
        simp [setEntry, findEntry]
      · simp [setEntry, findEntry, h, beq_eq_false_iff_ne.mpr (Ne.symm h)]
    · have hk' : sameScalar k (.text t) = false :=
        Bool.eq_false_iff.mpr (mt sameScalar_text_right.mp hk)
      rw [setEntry, hk']
      by_cases hs : k = .text s
      · subst hs
        have h : s ≠ t := fun h => hk (by rw [h])
        simp [findEntry, h]
      · simp only [Bool.false_eq_true, if_false]
        rw [findEntry_cons_of_ne hs, findEntry_cons_of_ne hs, ih]

theorem findEntry_eraseEntry_of_ne (h : s ≠ t) (entries : List (Value × Value)) :
    findEntry (.text s) (eraseEntry (.text t) entries) = findEntry (.text s) entries := by
  induction entries with
  | nil => rfl
  | cons e rest ih =>
    obtain ⟨k, v⟩ := e
    by_cases hk : k = .text t
    · subst hk
      have herase : eraseEntry (.text t) ((.text t, v) :: rest) = eraseEntry (.text t) rest :=
        filter_cons_of_neg (by simp)
      rw [herase, findEntry_cons_of_ne (by simpa using Ne.symm h), ih]
    · have hother : sameScalar k (.text t) = false :=
        Bool.eq_false_iff.mpr (mt sameScalar_text_right.mp hk)
      have hkeep : eraseEntry (.text t) ((k, v) :: rest) = (k, v) :: eraseEntry (.text t) rest :=
        filter_cons_of_pos (by simp [hother])
      rw [hkeep, findEntry, findEntry, ih]

/-! ## Entries put in by name -/

section Named

variable {α : Type} {entries old new : List (String × α)}

theorem forall_mem_split {P : α → Prop} {before after : List α} {a : α} :
    (∀ x ∈ before ++ a :: after, P x) ↔ P a ∧ ∀ x ∈ before ++ after, P x := by
  simp only [perm_middle.mem_iff, forall_mem_cons]

def named (f : α → Value) (entry : String × α) : Value × Value := (.text entry.1, f entry.2)

/-- The entries with one put in the place of that of the same name, or else at the end. -/
def putEntry (entry : String × α) : List (String × α) → List (String × α)
  | [] => [entry]
  | e :: rest => if e.1 = entry.1 then entry :: rest else e :: putEntry entry rest

def merged (old new : List (String × α)) : List (String × α) :=
  new.foldl (fun acc entry => putEntry entry acc) old

theorem setEntry_named (f : α → Value) (entry : String × α) (entries : List (String × α)) :
    setEntry (.text entry.1) (f entry.2) (entries.map (named f)) =
      (putEntry entry entries).map (named f) := by
  induction entries with
  | nil => rfl
  | cons e rest ih =>
    by_cases h : e.1 = entry.1
    · simp [putEntry, setEntry, named, h]
    · simp [putEntry, setEntry, named, h] at ih ⊢
      exact ih

theorem foldl_setEntry_named (f : α → Value) (old new : List (String × α)) :
    (new.map (named f)).foldl (fun acc (k, v) => setEntry k v acc) (old.map (named f)) =
      (merged old new).map (named f) := by
  induction new generalizing old with
  | nil => rfl
  | cons entry new ih =>
    rw [map_cons, foldl_cons]
    simp only [named]
    rw [setEntry_named]
    exact ih _

theorem putEntry_of_not_mem {entry : String × α} (h : entry.1 ∉ entries.map Prod.fst) :
    putEntry entry entries = entries ++ [entry] := by
  induction entries with
  | nil => rfl
  | cons e rest ih =>
    rw [map_cons, mem_cons, not_or] at h
    rw [putEntry, if_neg (Ne.symm h.1), ih h.2]
    rfl

theorem merged_of_distinct (h : ((old ++ new).map Prod.fst).Nodup) : merged old new = old ++ new := by
  induction new generalizing old with
  | nil => simp [merged]
  | cons entry new ih =>
    have hnew : entry.1 ∉ old.map Prod.fst := by
      rw [map_append, map_cons] at h
      intro hmem
      exact (nodup_append.mp h).2.2 _ hmem _ mem_cons_self rfl
    rw [append_cons] at h ⊢
    rw [← ih h, merged, foldl_cons, putEntry_of_not_mem hnew]
    rfl

theorem keys_putEntry (entry : String × α) (entries : List (String × α)) :
    (putEntry entry entries).map Prod.fst =
      if entry.1 ∈ entries.map Prod.fst then entries.map Prod.fst
      else entries.map Prod.fst ++ [entry.1] := by
  induction entries with
  | nil => simp [putEntry]
  | cons e rest ih =>
    by_cases h : e.1 = entry.1
    · simp [putEntry, h]
    · by_cases hmem : entry.1 ∈ rest.map Prod.fst
      · simp_all [putEntry]
      · have hne : entry.1 ≠ e.1 := Ne.symm h
        simp_all [putEntry]

theorem mem_putEntry {e entry : String × α} (h : e ∈ putEntry entry entries) :
    e = entry ∨ e ∈ entries := by
  induction entries with
  | nil => exact .inl (by simpa [putEntry] using h)
  | cons first rest ih =>
    by_cases hname : first.1 = entry.1
    · rw [putEntry, if_pos hname, mem_cons] at h
      exact h.imp_right (mem_cons_of_mem _)
    · rw [putEntry, if_neg hname, mem_cons] at h
      rcases h with rfl | h
      · exact .inr mem_cons_self
      · exact (ih h).imp_right (mem_cons_of_mem _)

theorem mem_merged {e : String × α} (h : e ∈ merged old new) : e ∈ old ∨ e ∈ new := by
  induction new generalizing old with
  | nil => exact .inl h
  | cons entry new ih =>
    have hmem : e ∈ merged (putEntry entry old) new := h
    rcases ih hmem with h | h
    · rcases mem_putEntry h with rfl | h
      · exact .inr mem_cons_self
      · exact .inl h
    · exact .inr (mem_cons_of_mem _ h)

theorem nodup_putEntry (h : (entries.map Prod.fst).Nodup) (entry : String × α) :
    ((putEntry entry entries).map Prod.fst).Nodup := by
  rw [keys_putEntry]
  by_cases hmem : entry.1 ∈ entries.map Prod.fst
  · rw [if_pos hmem]
    exact h
  · rw [if_neg hmem, nodup_append]
    refine ⟨h, by simp, fun a ha b hb heq => hmem ?_⟩
    rw [← mem_singleton.mp hb, ← heq]
    exact ha

theorem nodup_merged (h : (old.map Prod.fst).Nodup) (new : List (String × α)) :
    ((merged old new).map Prod.fst).Nodup := by
  induction new generalizing old with
  | nil => exact h
  | cons entry new ih => exact ih (nodup_putEntry h entry)

theorem lookup_cons_of_ne {k : String} (h : s ≠ k) (v : α) (rest : List (String × α)) :
    ((k, v) :: rest).lookup s = rest.lookup s := by
  simp [List.lookup, beq_eq_false_iff_ne.mpr h]

theorem lookup_map {β : Type} (f : String → α → β) (entries : List (String × α)) (s : String) :
    (entries.map fun e => (e.1, f e.1 e.2)).lookup s = (entries.lookup s).map (f s) := by
  induction entries with
  | nil => rfl
  | cons e rest ih =>
    obtain ⟨k, v⟩ := e
    by_cases h : s = k
    · simp [h]
    · rw [map_cons, lookup_cons_of_ne h, lookup_cons_of_ne h, ih]

theorem mem_of_lookup {v : α} (h : entries.lookup s = some v) : (s, v) ∈ entries := by
  obtain ⟨before, after, rfl, -⟩ := lookup_eq_some_iff.mp h
  simp

theorem lookup_of_mem (h : s ∈ entries.map Prod.fst) : ∃ v, entries.lookup s = some v := by
  obtain ⟨e, he, rfl⟩ := mem_map.mp h
  cases hlook : entries.lookup e.1 with
  | some v => exact ⟨v, rfl⟩
  | none => simpa using lookup_eq_none_iff.mp hlook e he

theorem lookup_of_not_mem (h : s ∉ entries.map Prod.fst) : entries.lookup s = none := by
  cases hlook : entries.lookup s with
  | none => rfl
  | some v => exact absurd (mem_map_of_mem (mem_of_lookup hlook)) h

theorem lookup_putEntry (s name : String) (v : α) (entries : List (String × α)) :
    (putEntry (name, v) entries).lookup s = if s = name then some v else entries.lookup s := by
  induction entries with
  | nil =>
    by_cases h : s = name
    · simp [putEntry, h]
    · rw [putEntry, lookup_cons_of_ne h, if_neg h]
  | cons e rest ih =>
    obtain ⟨k, w⟩ := e
    by_cases hk : k = name
    · subst hk
      by_cases h : s = k
      · simp [putEntry, h]
      · rw [putEntry, if_pos rfl, lookup_cons_of_ne h, if_neg h, lookup_cons_of_ne h]
    · rw [putEntry, if_neg hk]
      by_cases h : s = k
      · subst h
        simp [List.lookup, hk]
      · rw [lookup_cons_of_ne h, lookup_cons_of_ne h, ih]

theorem lookup_merged_of_not_mem (h : s ∉ new.map Prod.fst) :
    (merged old new).lookup s = old.lookup s := by
  induction new generalizing old with
  | nil => rfl
  | cons entry new ih =>
    rw [map_cons, mem_cons, not_or] at h
    have hstep : merged old (entry :: new) = merged (putEntry entry old) new := rfl
    rw [hstep, ih h.2, lookup_putEntry s entry.1 entry.2, if_neg h.1]

theorem mem_keys_merged :
    s ∈ (merged old new).map Prod.fst ↔ s ∈ old.map Prod.fst ∨ s ∈ new.map Prod.fst := by
  induction new generalizing old with
  | nil => simp [merged]
  | cons entry new ih =>
    have hstep : merged old (entry :: new) = merged (putEntry entry old) new := rfl
    rw [hstep, ih, keys_putEntry, map_cons, mem_cons]
    by_cases hmem : entry.1 ∈ old.map Prod.fst
    · rw [if_pos hmem]
      refine ⟨fun h => h.imp_right .inr, ?_⟩
      rintro (h | rfl | h)
      · exact .inl h
      · exact .inl hmem
      · exact .inr h
    · rw [if_neg hmem, mem_append, mem_singleton, or_assoc]

theorem findEntry_named (f : α → Value) (entries : List (String × α)) (s : String) :
    findEntry (.text s) (entries.map (named f)) = (entries.lookup s).map f := by
  induction entries with
  | nil => rfl
  | cons e rest ih =>
    obtain ⟨name, v⟩ := e
    by_cases h : name = s
    · subst h
      simp [named, findEntry]
    · have hk : (Value.text name) ≠ .text s := by simpa using h
      rw [map_cons, named, findEntry_cons_of_ne hk, ih, lookup_cons_of_ne (Ne.symm h)]

end Named

theorem findEntry_foldl_setEntry {new : List (String × Value)} (h : (new.map Prod.fst).Nodup)
    (s : String) (entries : List (Value × Value)) :
    findEntry (.text s) ((new.map (named id)).foldl (fun acc (k, v) => setEntry k v acc) entries) =
      (new.lookup s).or (findEntry (.text s) entries) := by
  induction new generalizing entries with
  | nil => rfl
  | cons entry new ih =>
    obtain ⟨name, v⟩ := entry
    rw [map_cons, nodup_cons] at h
    rw [map_cons, foldl_cons, ih h.2]
    simp only [named, id_eq]
    rw [findEntry_setEntry]
    by_cases hs : s = name
    · subst hs
      simp [lookup_of_not_mem h.1]
    · rw [lookup_cons_of_ne hs, if_neg hs]

/-! ## Records -/

theorem findEntry_record (fs : List (String × Value)) (s : String) :
    findEntry (.text s) (fs.map fun (name, value) => (.text name, value)) =
      fs.lookup s :=
  (findEntry_named id fs s).trans Option.map_id'

@[simp] theorem field?_map (entries : List (Value × Value)) (s : String) :
    (Value.map entries).field? s = findEntry (.text s) entries := rfl

@[simp] theorem field?_record (fs : List (String × Value)) (s : String) :
    (record fs).field? s = fs.lookup s := findEntry_record fs s

theorem item_eq_ok : v.item s = .ok w ↔ v.field? s = some w := by
  unfold item
  cases h : v.field? s <;> simp

theorem item_of_field? (h : v.field? s = some w) : v.item s = .ok w :=
  item_eq_ok.mpr h

theorem eq_map_of_field? (h : v.field? s = some w) :
    ∃ entries, v = .map entries ∧ findEntry (.text s) entries = some w := by
  cases v <;> simp_all [field?]

theorem truthy_of_field? (h : v.field? s = some w) : v.truthy = true := by
  obtain ⟨entries, rfl, hent⟩ := eq_map_of_field? h
  cases entries with
  | nil => cases hent
  | cons _ _ => rfl

@[simp] theorem items_list (xs : List Value) : (Value.list xs).items = .ok xs := rfl

@[simp] theorem items_record (fs : List (String × Value)) :
    (record fs).items = .ok (fs.map fun (name, _) => .text name) := by
  simp [record, items]

theorem under_of_field? (h : v.field? s = some w) : v.under (.text s) = .ok w := by
  obtain ⟨entries, rfl, hent⟩ := eq_map_of_field? h
  simp [under, isKey, hent]

theorem getD_of_field? (h : v.field? s = some w) (default : Value) : v.getD s default = .ok w := by
  obtain ⟨entries, rfl, hent⟩ := eq_map_of_field? h
  simp [getD, hent]

theorem field?_withField_of_ne (h : s ≠ t) (v w : Value) :
    (v.withField t w).field? s = v.field? s := by
  cases v with
  | map entries => simp [withField, findEntry_setEntry, h]
  | _ => rfl

theorem field?_withoutField_of_ne (h : s ≠ t) (v : Value) :
    (v.withoutField t).field? s = v.field? s := by
  cases v with
  | map entries => simp [withoutField, findEntry_eraseEntry_of_ne h]
  | _ => rfl

theorem field?_record_of_mem {fs : List (String × Value)} (hnames : (fs.map Prod.fst).Nodup)
    (h : (s, v) ∈ fs) : (record fs).field? s = some v := by
  obtain ⟨w, hw⟩ := lookup_of_mem (mem_map_of_mem (f := Prod.fst) h)
  cases inj_on_of_nodup_map hnames h (mem_of_lookup hw) rfl
  rw [field?_record, hw]

/-! ## Heights -/

theorem height_lt_of_mem_items :
    ∀ {items : List Value}, v ∈ items → v.height < (Value.list items).height := by
  intro items h
  suffices hle : v.height ≤ itemsHeight items by
    simpa [height] using Nat.lt_succ_of_le hle
  induction items with
  | nil => cases h
  | cons w rest ih =>
    rcases mem_cons.mp h with rfl | h
    · exact Nat.le_max_left _ _
    · exact Nat.le_trans (ih h) (Nat.le_max_right _ _)

theorem height_lt_of_field? (h : v.field? s = some w) : w.height < v.height := by
  obtain ⟨entries, rfl, h⟩ := eq_map_of_field? h
  suffices hle : ∀ {es : List (Value × Value)}, (Value.text s, w) ∈ es →
      w.height ≤ entriesHeight es by
    simpa [height] using Nat.lt_succ_of_le (hle (mem_of_findEntry h))
  intro es hmem
  induction es with
  | nil => cases hmem
  | cons e rest ih =>
    rcases mem_cons.mp hmem with heq | hmem
    · obtain ⟨-, rfl⟩ := Prod.mk.inj heq
      exact Nat.le_max_left _ _
    · exact Nat.le_trans (ih hmem) (Nat.le_max_right _ _)

end SheetMill.Value

/-! ## The first item with a property -/

namespace SheetMill

open List

variable {α : Type} {p : α → Bool} {items before after : List α} {a : α}

/-- The first item with a property stands between the others. -/
structure Located (p : α → Bool) (items before : List α) (a : α) (after : List α) : Prop where
  eq : items = before ++ a :: after
  found : p a = true
  first : ∀ b ∈ before, p b = false

theorem exists_located (h : items.find? p = some a) :
    ∃ before after, Located p items before a after := by
  obtain ⟨hfound, before, after, heq, hfst⟩ := find?_eq_some_iff_append.mp h
  exact ⟨before, after, heq, hfound, fun b hb => by simpa using hfst b hb⟩

theorem located_or_none (p : α → Bool) (items : List α) :
    (∀ x ∈ items, p x = false) ∨ ∃ before a after, Located p items before a after := by
  cases hfind : items.find? p with
  | none =>
    left
    simpa using hfind
  | some a =>
    right
    obtain ⟨before, after, hloc⟩ := exists_located hfind
    exact ⟨before, a, after, hloc⟩

namespace Located

variable (h : Located p items before a after)

include h

theorem find? : items.find? p = some a :=
  find?_eq_some_iff_append.mpr ⟨h.found, before, after, h.eq, by simpa using h.first⟩

theorem findIdx : items.findIdx p = before.length := by
  have hbefore : before.findIdx p = before.length :=
    findIdx_eq_length.mpr fun b hb => h.first b hb
  rw [h.eq, findIdx_append, hbefore, if_neg (Nat.lt_irrefl _), findIdx_cons, h.found]
  simp

theorem modify (f : α → α) :
    items.modify (items.findIdx p) f = before ++ f a :: after := by
  have hlt : before.length < items.length := by simp [h.eq]
  rw [h.findIdx, modify_eq_take_cons_drop hlt]
  simp [h.eq]

theorem eraseIdx :
    items.eraseIdx (items.findIdx p) = before ++ after := by
  rw [h.findIdx, h.eq, eraseIdx_append_of_length_le (Nat.le_refl _)]
  simp

theorem mem : a ∈ items := by simp [h.eq]

theorem getD (b : α) :
    items.getD before.length b = a := by simp [h.eq]

theorem set (b : α) :
    items.set before.length b = before ++ b :: after := by simp [h.eq]

end Located

theorem modify_of_find?_none (h : items.find? p = none) (f : α → α) :
    items.modify (items.findIdx p) f = items := by
  have hlen : items.findIdx p = items.length :=
    findIdx_eq_length.mpr fun b hb => by simpa using find?_eq_none.mp h b hb
  rw [hlen, modify_eq_self (Nat.le_refl _)]

end SheetMill

namespace SheetMill.Value

/-! ## Numbers among the values -/

variable (a b : Int) {v w : Value}

theorem order_int (sign : String) : order sign (.int a) (.int b) = .ok (some (compare a b)) := by
  rfl

theorem less_int : less (.int a) (.int b) = .ok (decide (a < b)) := by
  unfold less
  rw [order_int]
  by_cases h : a < b
  · rw [compare_lt_iff_lt.mpr h, decide_eq_true h]
    rfl
  · have hcmp : compare a b ≠ .lt := fun hlt => h (compare_lt_iff_lt.mp hlt)
    rw [decide_eq_false h]
    simp [hcmp]

theorem greater_int : greater (.int a) (.int b) = .ok (decide (b < a)) := by
  unfold greater
  rw [order_int]
  by_cases h : b < a
  · rw [compare_gt_iff_gt.mpr h, decide_eq_true h]
    rfl
  · have hcmp : compare a b ≠ .gt := fun hgt => h (compare_gt_iff_gt.mp hgt)
    rw [decide_eq_false h]
    simp [hcmp]

theorem atMost_int : atMost (.int a) (.int b) = .ok (decide (a ≤ b)) := by
  unfold atMost
  rw [order_int]
  rcases lt_trichotomy a b with h | rfl | h
  · rw [compare_lt_iff_lt.mpr h, decide_eq_true h.le]
    rfl
  · simp
  · rw [compare_gt_iff_gt.mpr h, decide_eq_false (not_le.mpr h)]
    rfl

theorem larger_int : larger (.int a) (.int b) = .ok (.int (max a b)) := by
  unfold larger
  rw [greater_int]
  change Except.ok (if decide (a < b) = true then Value.int b else .int a) = _
  by_cases h : a < b
  · rw [if_pos (decide_eq_true h), max_eq_right (by omega)]
  · rw [if_neg (by simpa using h), max_eq_left (by omega)]

theorem smaller_int : smaller (.int a) (.int b) = .ok (.int (min a b)) := by
  unfold smaller
  rw [less_int]
  change Except.ok (if decide (b < a) = true then Value.int b else .int a) = _
  by_cases h : b < a
  · rw [if_pos (decide_eq_true h), min_eq_right (by omega)]
  · rw [if_neg (by simpa using h), min_eq_left (by omega)]

theorem add_int : (Value.int a).add (.int b) = .ok (.int (a + b)) := rfl

theorem sub_int : (Value.int a).sub (.int b) = .ok (.int (a - b)) := rfl

def IsNumber (v : Value) : Prop := (Amount.ofValue? v).isSome = true

theorem isNumber_of_asInt {i : Int} (h : v.asInt? = some i) : v.IsNumber := by
  cases v <;> first | rfl | cases h

theorem isNumber_of_onNumbers {sign : String} {whole : Int → Int → Int}
    {real : Float → Float → Float} {x : Value} (h : onNumbers sign whole real v w = .ok x) :
    v.IsNumber ∧ x.IsNumber := by
  unfold onNumbers at h
  split at h
  · rename_i i j hv hw
    cases h
    exact ⟨isNumber_of_asInt hv, rfl⟩
  · split at h
    · rename_i hboth
      rw [Bool.and_eq_true] at hboth
      obtain ⟨y, -, h⟩ := Outcome.bind_eq_ok.mp h
      obtain ⟨z, -, h⟩ := Outcome.bind_eq_ok.mp h
      cases h
      exact ⟨hboth.1, rfl⟩
    · cases h

theorem IsNumber.add {x : Value} (hv : v.IsNumber) (h : v.add w = .ok x) : x.IsNumber := by
  unfold Value.add at h
  split at h
  · cases hv
  · cases hv
  · cases hv
  · exact (isNumber_of_onNumbers h).2

theorem IsNumber.order (hv : v.IsNumber) (hw : w.IsNumber) (sign : String) :
    ∃ o, Value.order sign v w = .ok o := by
  cases v with
  | bool | int | float =>
    cases w with
    | bool | int | float => exact ⟨_, rfl⟩
    | _ => cases hw
  | _ => cases hv

theorem IsNumber.greater (hv : v.IsNumber) (hw : w.IsNumber) :
    ∃ isGreater, v.greater w = .ok isGreater := by
  obtain ⟨o, ho⟩ := hv.order hw ">"
  exact ⟨_, congrArg _ ho⟩

theorem IsNumber.less (hv : v.IsNumber) (hw : w.IsNumber) : ∃ isLess, v.less w = .ok isLess := by
  obtain ⟨o, ho⟩ := hv.order hw "<"
  exact ⟨_, congrArg _ ho⟩

theorem IsNumber.atLeast (hv : v.IsNumber) (hw : w.IsNumber) :
    ∃ reaches, v.atLeast w = .ok reaches := by
  obtain ⟨o, ho⟩ := hv.order hw ">="
  exact ⟨_, congrArg _ ho⟩

end SheetMill.Value
