import SheetMill.Text.Search

/-!
# Replacing parts of a text
-/

namespace SheetMill.Text

variable {part by_ cs rest : List Char}

theorem dropPart?_eq_some : dropPart? part cs = some rest ↔ cs = part ++ rest := by
  induction part generalizing cs with
  | nil => simp [dropPart?]
  | cons p ps ih =>
    cases cs with
    | nil => simp [dropPart?]
    | cons c cs =>
      by_cases h : p = c
      · simp [dropPart?, h, ih]
      · simp [dropPart?, h, Ne.symm h]

theorem dropPart?_append (part rest : List Char) : dropPart? part (part ++ rest) = some rest :=
  dropPart?_eq_some.mpr rfl

theorem replaceChars_self (fuel : Nat) (cs : List Char) : replaceChars part part fuel cs = cs := by
  fun_induction replaceChars part part fuel cs with
  | case1 | case2 => rfl
  | case3 fuel c cs rest hpart ih => rw [ih, dropPart?_eq_some.mp hpart]
  | case4 fuel c cs hpart ih => rw [ih]

theorem replaceChars_of_not_occurs (fuel : Nat) (h : occursIn part cs = false) :
    replaceChars part by_ fuel cs = cs := by
  fun_induction replaceChars part by_ fuel cs with
  | case1 | case2 => rfl
  | case3 fuel c cs rest hpart ih => simp [occursIn, hpart] at h
  | case4 fuel c cs hpart ih => rw [ih (by simpa [occursIn, hpart] using h)]

theorem replaceChars_fuel {fuel more : Nat} (hpart : part ≠ []) (hfuel : cs.length ≤ fuel)
    (hmore : cs.length ≤ more) : replaceChars part by_ more cs = replaceChars part by_ fuel cs := by
  induction fuel generalizing cs more with
  | zero =>
    cases List.length_eq_zero_iff.mp (Nat.le_zero.mp hfuel)
    cases more <;> rfl
  | succ fuel ih =>
    cases cs with
    | nil => cases more <;> rfl
    | cons c cs =>
      obtain ⟨more, rfl⟩ : ∃ k, more = k + 1 := ⟨more - 1, by simp at hmore; omega⟩
      rw [List.length_cons] at hfuel hmore
      simp only [replaceChars]
      cases hdrop : dropPart? part (c :: cs) with
      | none => rw [ih (by omega) (by omega)]
      | some rest =>
        have hlen := congrArg List.length (dropPart?_eq_some.mp hdrop)
        have hpos := List.length_pos_iff.mpr hpart
        rw [List.length_cons, List.length_append] at hlen
        have hrest : replaceChars part by_ more rest = replaceChars part by_ fuel rest :=
          ih (by omega) (by omega)
        simp only [hrest]

/-- Where a part occurs, its replacement shows, if it can be told from the part. -/
theorem replaceChars_ne {fuel : Nat} (hpart : part ≠ []) (hne : ∀ x y, by_ ++ x ≠ part ++ y)
    (hoccurs : occursIn part cs = true) (hfuel : cs.length ≤ fuel) :
    replaceChars part by_ fuel cs ≠ cs := by
  fun_induction replaceChars part by_ fuel cs with
  | case1 cs =>
    cases List.length_eq_zero_iff.mp (Nat.le_zero.mp hfuel)
    exact absurd (List.isEmpty_iff.mp hoccurs) hpart
  | case2 => exact absurd (List.isEmpty_iff.mp hoccurs) hpart
  | case3 fuel c cs rest hdrop ih =>
    rw [dropPart?_eq_some.mp hdrop]
    exact hne _ _
  | case4 fuel c cs hdrop ih =>
    have htail := ih (by simpa [occursIn, hdrop] using hoccurs) (Nat.le_of_succ_le_succ hfuel)
    simpa using htail

theorem replace_eq {s part by_ : String} (hpart : part ≠ "") : replace s part by_ =
    String.ofList (replaceChars part.toList by_.toList s.toList.length s.toList) := by
  have hnil : ¬ part.isEmpty = true := by simpa [String.isEmpty_iff] using hpart
  rw [replace, if_neg hnil]

theorem replace_append {part : String} (hpart : part ≠ "") (rest by_ : String) :
    replace (part ++ rest) part by_ = by_ ++ replace rest part by_ := by
  have hchars : part.toList ≠ [] := by simpa using hpart
  rw [replace_eq hpart, replace_eq hpart, ← String.toList_inj, String.toList_append,
    String.toList_ofList, String.toList_append, String.toList_ofList]
  obtain ⟨p, ps, hcons⟩ := List.exists_cons_of_ne_nil hchars
  have hdrop := dropPart?_append part.toList rest.toList
  rw [hcons, List.cons_append] at hdrop ⊢
  simp only [List.length_cons, replaceChars, hdrop]
  rw [replaceChars_fuel (by simp) (Nat.le_refl _) (by simp)]

theorem replace_cons {part : String} {c : Char} (hpart : part ≠ "")
    (hc : part.toList.head? ≠ some c) (rest by_ : String) :
    replace (String.singleton c ++ rest) part by_ =
      String.singleton c ++ replace rest part by_ := by
  have hdrop : dropPart? part.toList (c :: rest.toList) = none := by
    refine Option.eq_none_iff_forall_ne_some.mpr fun tail htail => ?_
    have hcons := dropPart?_eq_some.mp htail
    cases hchars : part.toList with
    | nil => exact hpart (by simpa using hchars)
    | cons p ps => simp_all
  rw [replace_eq hpart, replace_eq hpart, ← String.toList_inj]
  simp [replaceChars, hdrop]

theorem replace_of_not_occurs {s part by_ : String} (hpart : part ≠ "")
    (h : contains s part = false) : replace s part by_ = s := by
  rw [replace_eq hpart, replaceChars_of_not_occurs _ h, String.ofList_toList]

theorem replace_self {part : String} (hpart : part ≠ "") (s : String) :
    replace s part part = s := by
  rw [replace_eq hpart, replaceChars_self, String.ofList_toList]

theorem replace_eq_self_iff {s part by_ : String} (hpart : part ≠ "")
    (hne : ∀ x y, by_.toList ++ x ≠ part.toList ++ y) :
    replace s part by_ = s ↔ contains s part = false := by
  refine ⟨fun h => ?_, replace_of_not_occurs hpart⟩
  rw [replace_eq hpart, ← String.toList_inj, String.toList_ofList] at h
  refine Bool.eq_false_iff.mpr fun hoccurs => ?_
  exact replaceChars_ne (by simpa using hpart) hne hoccurs (Nat.le_refl _) h

theorem splitChars_append {sep : Char} (hsep : sep ∉ cs) (rest : List Char) :
    splitChars sep (cs ++ sep :: rest) = cs :: splitChars sep rest := by
  induction cs with
  | nil => simp [splitChars]
  | cons c cs ih =>
    rw [List.mem_cons, not_or] at hsep
    rw [List.cons_append, splitChars, if_neg (Ne.symm hsep.1), ih hsep.2]

theorem not_occurs_of_not_mem {c : Char} (h : c ∉ cs) : occursIn (c :: part) cs = false := by
  induction cs with
  | nil => rfl
  | cons d cs ih =>
    rw [List.mem_cons, not_or] at h
    simp [occursIn, dropPart?, h.1, ih h.2]

end SheetMill.Text
