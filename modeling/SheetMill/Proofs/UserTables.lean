import SheetMill.Accounts.Directory
import SheetMill.Proofs.Value

/-!
# Rows, forms and members

What a row holds after values were put into it, what a form holds of the fields that it was filled
in with, and which profile and which accounts make up the member of a name.
-/

namespace SheetMill.Accounts

open Value List

variable {name : String} {fields : List (String × Value)}

/-! ## Rows -/

namespace Row

theorem read_put (row : Row) (name other : String) (v : Value) :
    (row.put name v).read other = if other = name then v else row.read other := by
  unfold put read
  split
  · rename_i hsome
    rw [lookup_map fun k w => if k == name then v else w]
    by_cases h : other = name
    · subst h
      obtain ⟨w, hw⟩ := Option.isSome_iff_exists.mp hsome
      simp [hw]
    · simp [h]
  · rename_i hnone
    rw [lookup_append]
    by_cases h : other = name
    · subst h
      rw [Option.not_isSome_iff_eq_none.mp hnone]
      simp
    · rw [lookup_cons_of_ne h]
      cases row.lookup other <;> simp [h]

theorem read_putAll_of_not_mem (h : name ∉ fields.map Prod.fst) (row : Row) :
    (row.putAll fields).read name = row.read name := by
  induction fields generalizing row with
  | nil => rfl
  | cons field fields ih =>
    rw [map_cons, mem_cons, not_or] at h
    have hstep : row.putAll (field :: fields) = (row.put field.1 field.2).putAll fields := rfl
    rw [hstep, ih h.2, read_put, if_neg h.1]

theorem read_putAll (h : (fields.map Prod.fst).Nodup) (row : Row) (name : String) :
    (row.putAll fields).read name = (fields.lookup name).getD (row.read name) := by
  induction fields generalizing row with
  | nil => rfl
  | cons field fields ih =>
    obtain ⟨k, v⟩ := field
    rw [map_cons, nodup_cons] at h
    have hstep : row.putAll ((k, v) :: fields) = (row.put k v).putAll fields := rfl
    by_cases hname : name = k
    · subst hname
      rw [hstep, read_putAll_of_not_mem h.1, read_put, if_pos rfl, lookup_cons_self]
      rfl
    · rw [hstep, ih h.2, read_put, if_neg hname, lookup_cons_of_ne hname]

theorem has_text {row : Row} {s : String} :
    row.has name (.text s) = true ↔ row.read name = .text s := same_text_right

end Row

/-! ## Forms -/

/-- What is found in a list that holds, for some names, what a function gives for them. -/
theorem lookup_filterMap (names : List String) (g : String → Option Value) (name : String) :
    (names.filterMap fun n => (g n).map (n, ·)).lookup name =
      if name ∈ names then g name else none := by
  induction names with
  | nil => rfl
  | cons n names ih =>
    by_cases h : name = n
    · subst h
      cases hg : g name with
      | some v => simp [hg]
      | none => simp [hg, ih]
    · cases hg : g n with
      | some v => simpa [hg, h, List.lookup, beq_eq_false_iff_ne.mpr h] using ih
      | none => simpa [hg, h] using ih

theorem keys_filterMap_sublist (names : List String) (g : String → Option Value) :
    ((names.filterMap fun n => (g n).map (n, ·)).map Prod.fst).Sublist names := by
  induction names with
  | nil => exact .slnil
  | cons n names ih =>
    cases hg : g n with
    | some v => simpa [hg] using ih
    | none => simpa [hg] using ih.cons n

theorem FormKind.lookup_fill (k : FormKind) (fields : List (String × Value)) (name : String) :
    (k.fill fields).given.lookup name = if name ∈ k.names then fields.lookup name else none :=
  lookup_filterMap k.names (fields.lookup ·) name

theorem FormKind.filled_fill (k : FormKind) (fields : List (String × Value)) :
    (k.fill fields).filled =
      k.names.filterMap fun n => ((fields.lookup n).filter (!·.same .null)).map (n, ·) := by
  unfold Form.filled FormKind.fill
  rw [filter_filterMap]
  congr 1
  funext n
  cases fields.lookup n with
  | none => rfl
  | some v =>
    simp only [Option.map_some, Option.filter_some]
    split <;> rfl

abbrev TextFields := List (String × Option String)

def TextFields.values (fields : TextFields) : List (String × Value) :=
  fields.map fun (name, content) => (name, Value.ofText? content)

def TextFields.text? (fields : TextFields) (name : String) : Option String :=
  (fields.lookup name).join

theorem TextFields.lookup_values (fields : TextFields) (name : String) :
    fields.values.lookup name = (fields.lookup name).map Value.ofText? :=
  lookup_map (fun _ => Value.ofText?) fields name

/-- The changes that a form asks for: the declared fields that are filled in with a text. -/
def TextFields.changes (fields : TextFields) : List (String × Value) :=
  (FormKind.update.fill fields.values).filled

theorem TextFields.lookup_changes (fields : TextFields) (h : name ∈ FormKind.update.names) :
    fields.changes.lookup name = (fields.text? name).map .text := by
  unfold changes text?
  rw [FormKind.filled_fill, lookup_filterMap, if_pos h, lookup_values]
  rcases fields.lookup name with _ | _ | content <;> rfl

theorem TextFields.nodup_changes (fields : TextFields) : (fields.changes.map Prod.fst).Nodup := by
  have hnames : FormKind.update.names.Nodup := by decide
  unfold changes
  rw [FormKind.filled_fill]
  exact hnames.sublist (keys_filterMap_sublist _ _)

/-! ## Members -/

namespace Tables

variable {t : Tables} {user : String} {activeOnly : Bool}

def accountsOf (t : Tables) (user : String) (activeOnly : Bool) : List Row :=
  t.accounts.filter fun a => a.has "username" (.text user) && (!activeOnly || a.isActive)

def profileOf? (t : Tables) (user : String) : Option Row :=
  t.profiles.find? (·.has "username" (.text user))

theorem same_text_left (s : String) (v : Value) : (Value.text s).same v = v.same (.text s) := by
  cases v <;> simp [same, sameScalar, asInt?, eq_comm]

theorem filter_joined (t : Tables) (user : String) (activeOnly : Bool) :
    ((t.joined activeOnly).filter fun (p, _) => p.has "username" (.text user)) =
      (t.profiles.filter (·.has "username" (.text user))).flatMap fun p =>
        (t.accountsOf user activeOnly).map (p, ·) := by
  unfold joined
  induction t.profiles with
  | nil => rfl
  | cons p profiles ih =>
    rw [flatMap_cons, filter_append, ih]
    cases h : p.has "username" (.text user) with
    | false => simp [h, filter_map, Function.comp_def]
    | true =>
      have hname := Row.has_text.mp h
      have haccs : (t.accounts.filter fun a =>
          (p.read "username").same (a.read "username") && (!activeOnly || a.isActive)) =
            t.accountsOf user activeOnly := by
        simp only [hname, same_text_left]
        rfl
      simp [h, haccs, filter_map, Function.comp_def]

/-- The member of a name has the first profile of the name, if the user has an account at all. -/
theorem profile_member? (t : Tables) (username : String) (activeOnly : Bool) :
    (t.member? (.text username) activeOnly).map (·.profile) =
      if t.accountsOf username activeOnly = [] then none else t.profileOf? username := by
  have hhead : t.profileOf? username =
      (t.profiles.filter (·.has "username" (.text username))).head? := head?_filter.symm
  unfold member?
  rw [filter_joined, hhead]
  cases t.profiles.filter (·.has "username" (.text username)) with
  | nil => simp
  | cons p profiles =>
    cases t.accountsOf username activeOnly with
    | nil =>
      have hnil : (profiles.flatMap fun _ => ([] : List (Row × Row))) = [] := by simp
      simp [hnil]
    | cons a accounts => simp

theorem mem_accounts_of_member? {m : Member} {a : Row}
    (h : t.member? (.text user) activeOnly = some m) (ha : a ∈ t.accountsOf user activeOnly) :
    a ∈ m.accounts := by
  unfold member? at h
  rw [filter_joined] at h
  cases hprofiles : t.profiles.filter (·.has "username" (.text user)) with
  | nil => simp [hprofiles] at h
  | cons p profiles =>
    cases haccs : t.accountsOf user activeOnly with
    | nil => simp [haccs] at ha
    | cons b accounts =>
      rw [hprofiles, haccs] at h
      rw [haccs] at ha
      cases h
      rcases mem_cons.mp ha with rfl | ha
      · exact mem_cons_self
      · simp [ha]

end Tables

end SheetMill.Accounts
