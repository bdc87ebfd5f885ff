import SheetMill.Message.Transcoder
import SheetMill.Proofs.Value
import SheetMill.Value.Json

/-!
# Reading back what was written as JSON

A character of a text is written as itself, as an escape, or by the one or two units of its UTF-16
form, and each of these is read back as the character. So a map from texts to texts is read back
from its JSON.
-/

namespace SheetMill.Value

open Text List

variable {rest : List Char} {cs : List Char} {fuel : Nat} {c : Char} {v : Value}

/-! ## Units -/

theorem hexValue?_hexDigit {d : Nat} (h : d < 16) : hexValue? (hexDigit d) = some d := by
  have hall : ∀ d < 16, hexValue? (hexDigit d) = some d := by decide
  exact hall d h

theorem takeUnit?_hexDigits {n : Nat} (h : n < 0x10000) (rest : List Char) :
    takeUnit? (hexDigits n 4 ++ rest) = some (n, rest) := by
  have hmod : ∀ m : Nat, m % 16 < 16 := fun m => Nat.mod_lt m (by decide)
  simp only [hexDigits, nil_append, cons_append, takeUnit?, hexValue?_hexDigit (hmod _)]
  simp only [Option.pure_def, Option.bind_eq_bind, Option.bind_some, Option.some.injEq,
    Prod.mk.injEq, and_true]
  omega

theorem takeEscapedUnit_hexDigits {n : Nat} (h : n < 0x10000) (hrest : rest ≠ []) :
    takeEscapedUnit (hexDigits n 4 ++ rest) = .ok (n, rest) := by
  have hnil : rest.isEmpty = false := by simpa using hrest
  simp only [takeEscapedUnit, takeUnit?_hexDigits h, hnil]
  rfl

theorem jsonOk_bind {α β : Type} (a : α) (f : α → JsonOutcome β) :
    ((Except.ok a : JsonOutcome α) >>= f) = f a := rfl

theorem takeEscapedUnits_single (h : c.toNat < 0x10000) (hrest : rest ≠ []) :
    takeEscapedUnits (hexDigits c.toNat 4 ++ rest) = .ok (c, rest) := by
  have hvalid : c.toNat < 0xD800 ∨ 0xDFFF < c.toNat := by
    rcases c.valid with hlow | ⟨hhigh, -⟩
    · exact Or.inl hlow
    · exact Or.inr hhigh
  have hfst : ¬ (0xD800 ≤ c.toNat ∧ c.toNat < 0xDC00) := by omega
  have hsecond : ¬ (0xDC00 ≤ c.toNat ∧ c.toNat < 0xE000) := by omega
  unfold takeEscapedUnits
  rw [takeEscapedUnit_hexDigits h hrest, jsonOk_bind]
  simp only [if_neg hfst, if_neg hsecond, Char.ofNat_toNat]
  rfl

/-- A character of a higher plane is a pair of units. -/
theorem takeEscapedUnits_pair (h : 0x10000 ≤ c.toNat) (hrest : rest ≠ []) :
    takeEscapedUnits (hexDigits (0xD800 + (c.toNat - 0x10000) / 0x400) 4 ++
      '\\' :: 'u' :: (hexDigits (0xDC00 + (c.toNat - 0x10000) % 0x400) 4 ++ rest)) =
      .ok (c, rest) := by
  have hmax : c.toNat < 0x110000 := by
    rcases c.valid with hlow | ⟨-, hhigh⟩
    · exact Nat.lt_trans hlow (by decide)
    · exact hhigh
  have hlong : ¬ (hexDigits (0xDC00 + (c.toNat - 0x10000) % 0x400) 4 ++ rest).length ≤ 4 := by
    have hpos := length_pos_of_ne_nil hrest
    simp only [hexDigits, length_append, length_cons, length_nil]
    omega
  unfold takeEscapedUnits
  rw [takeEscapedUnit_hexDigits (by omega) (by simp), jsonOk_bind]
  simp only [if_neg hlong]
  rw [if_pos (by omega), takeEscapedUnit_hexDigits (by omega) hrest, jsonOk_bind]
  rw [if_pos (by omega)]
  have hcode : 0x10000 + (0xD800 + (c.toNat - 0x10000) / 0x400 - 0xD800) * 0x400 +
      (0xDC00 + (c.toNat - 0x10000) % 0x400 - 0xDC00) = c.toNat := by omega
  rw [hcode, Char.ofNat_toNat]
  rfl

/-! ## Texts -/

def withFront (c : Char) (r : List Char × List Char) : List Char × List Char := (c :: r.1, r.2)

/-- What an escape letter stands for is read in one step. -/
theorem takeJsonText_escape {e : Char} (hu : e ≠ 'u') (h : escapedChar? e = some c)
    (start fuel : Nat) (rest : List Char) :
    takeJsonText start (fuel + 1) ('\\' :: e :: rest) =
      withFront c <$> takeJsonText start fuel rest := by
  rw [takeJsonText]
  · simp only [h]
    cases takeJsonText start fuel rest <;> rfl
  · exact hu

theorem takeJsonText_jsonChar (c : Char) (start fuel : Nat) (hrest : rest ≠ []) :
    takeJsonText start (fuel + 1) (jsonChar c ++ rest) =
      withFront c <$> takeJsonText start fuel rest := by
  unfold jsonChar
  simp only
  split_ifs with hquote hslash hline hreturn htab hback hfeed hplain hplane
  · subst hquote
    exact takeJsonText_escape (by decide) rfl start fuel rest
  · subst hslash
    exact takeJsonText_escape (by decide) rfl start fuel rest
  · subst hline
    exact takeJsonText_escape (by decide) rfl start fuel rest
  · subst hreturn
    exact takeJsonText_escape (by decide) rfl start fuel rest
  · subst htab
    exact takeJsonText_escape (by decide) rfl start fuel rest
  · have hc : Char.ofNat 8 = c := hback ▸ Char.ofNat_toNat c
    subst hc
    exact takeJsonText_escape (by decide) rfl start fuel rest
  · have hc : Char.ofNat 12 = c := hfeed ▸ Char.ofNat_toNat c
    subst hc
    exact takeJsonText_escape (by decide) rfl start fuel rest
  · have hcontrol : ¬ c.toNat < 32 := by omega
    rw [singleton_append, takeJsonText.eq_def]
    simp only [if_neg hquote, if_neg hslash, if_neg hcontrol]
    cases takeJsonText start fuel rest <;> rfl
  · rw [jsonUnit, append_assoc]
    simp only [cons_append, nil_append]
    rw [takeJsonText, if_neg (by decide), if_pos rfl]
    simp only
    rw [takeEscapedUnits_single hplane hrest, jsonOk_bind]
    cases takeJsonText start fuel rest <;> rfl
  · simp only [jsonUnit, append_assoc, cons_append, nil_append]
    rw [takeJsonText, if_neg (by decide), if_pos rfl]
    simp only
    rw [takeEscapedUnits_pair (by omega) hrest, jsonOk_bind]
    cases takeJsonText start fuel rest <;> rfl

theorem takeJsonText_flatMap (cs : List Char) (start : Nat) (h : cs.length < fuel)
    (tail : List Char) :
    takeJsonText start fuel (cs.flatMap jsonChar ++ '"' :: tail) = .ok (cs, tail) := by
  induction cs generalizing fuel with
  | nil =>
    obtain ⟨n, rfl⟩ := Nat.exists_eq_succ_of_ne_zero (Nat.ne_of_gt (Nat.zero_lt_of_lt h))
    exact if_pos rfl
  | cons c cs ih =>
    obtain ⟨n, rfl⟩ := Nat.exists_eq_succ_of_ne_zero (Nat.ne_of_gt (Nat.zero_lt_of_lt h))
    have hn : cs.length < n := by simpa using h
    rw [flatMap_cons, append_assoc, Nat.succ_eq_add_one,
      takeJsonText_jsonChar c start n (by simp), ih hn]
    rfl

theorem length_le_flatMap_jsonChar (cs : List Char) : cs.length ≤ (cs.flatMap jsonChar).length := by
  induction cs with
  | nil => simp
  | cons c cs ih =>
    have hpos : 0 < (jsonChar c).length := by
      unfold jsonChar
      simp only
      split_ifs <;> simp [jsonUnit]
    rw [flatMap_cons, length_append, length_cons]
    omega

def jsonChars (s : String) : List Char := '"' :: s.toList.flatMap jsonChar ++ ['"']

theorem toList_jsonText (s : String) : (jsonText s).toList = jsonChars s := by
  simp [jsonText, jsonChars]

theorem takeJsonText_jsonChars (s : String) (start : Nat) (tail : List Char) :
    takeJsonText start ((s.toList.flatMap jsonChar ++ '"' :: tail).length + 1)
      (s.toList.flatMap jsonChar ++ '"' :: tail) = .ok (s.toList, tail) := by
  refine takeJsonText_flatMap s.toList start ?_ tail
  have hle := length_le_flatMap_jsonChar s.toList
  rw [length_append]
  omega

theorem takeJson_text (s : String) (fuel : Nat) (tail : List Char) :
    takeJson (fuel + 1) (jsonChars s ++ tail) = .ok (.text s, tail) := by
  have hchars : jsonChars s ++ tail = '"' :: (s.toList.flatMap jsonChar ++ '"' :: tail) := by
    simp [jsonChars]
  rw [hchars, takeJson]
  rw [takeJsonText_jsonChars, jsonOk_bind]
  simp only [String.ofList_toList]
  rfl

/-! ## Values -/

theorem skipJsonBlank_cons (h : isJsonBlank c = false) (cs : List Char) :
    skipJsonBlank (c :: cs) = c :: cs := by
  simp [skipJsonBlank, h]

theorem skipJsonBlank_blank (cs : List Char) : skipJsonBlank (' ' :: cs) = skipJsonBlank cs := by
  simp [skipJsonBlank, isJsonBlank]

def Follows (rest : List Char) : Prop :=
  ∀ c, rest.head? = some c → c = ',' ∨ c = ']' ∨ c = '}'

theorem follows_nil : Follows [] := by
  rintro c ⟨⟩

/-- The characters are read as a value, whatever follows them. -/
structure Reads (cs : List Char) (v : Value) : Prop where
  head : ∃ c tail, cs = c :: tail ∧ isJsonBlank c = false ∧ c ≠ ']' ∧ c.toNat < 128
  take : ∀ rest fuel, Follows rest → 2 * cs.length ≤ fuel →
    takeJson fuel (cs ++ rest) = .ok (v, rest)

theorem Reads.skipJsonBlank (h : Reads cs v) (rest : List Char) :
    skipJsonBlank (cs ++ rest) = cs ++ rest := by
  obtain ⟨c, tail, rfl, hblank, -⟩ := h.head
  exact skipJsonBlank_cons hblank _

theorem Reads.readJson_eq (h : Reads cs v) : readJson cs = .ok v := by
  obtain ⟨c, tail, hcs, hblank, -, hascii⟩ := h.head
  have hmark : cs.head? ≠ some (Char.ofNat 0xFEFF) := by
    rw [hcs]
    rintro ⟨⟩
    exact absurd hascii (by decide)
  have hskip := h.skipJsonBlank []
  rw [append_nil] at hskip
  have htake := h.take [] (2 * cs.length + 2) follows_nil (by omega)
  rw [append_nil] at htake
  unfold readJson
  rw [if_neg hmark, hskip]
  rw [htake]
  rfl

theorem reads_text (s : String) : Reads (jsonChars s) (.text s) := by
  refine ⟨⟨'"', _, rfl, by decide, by decide, by decide⟩, fun rest fuel _ hfuel => ?_⟩
  obtain ⟨fuel, rfl⟩ : ∃ n, fuel = n + 1 := ⟨fuel - 1, by simp [jsonChars] at hfuel; omega⟩
  exact takeJson_text s fuel rest

/-! ## Lists and maps -/

def moreParts (parts : List (List Char)) : List Char := parts.flatMap fun cs => ',' :: ' ' :: cs

def enclosedParts (first last : Char) : List (List Char) → List Char
  | [] => [first, last]
  | cs :: parts => first :: (cs ++ (moreParts parts ++ [last]))

/-- The parts between two characters are read one by one and then taken for a value. -/
structure ReadsParts {ε : Type} (opening closing : Char) (R : List Char → ε → Prop)
    (take : Nat → List Char → JsonOutcome (List ε × List Char)) (whole : List ε → Value) : Prop where
  first : isJsonBlank opening = false ∧ opening ≠ ']' ∧ opening.toNat < 128
  skip : ∀ {part x}, R part x → ∀ rest, skipJsonBlank (part ++ rest) = part ++ rest
  last : ∀ {part x fuel}, R part x → 2 * part.length ≤ fuel → ∀ rest,
    take (fuel + 1) (part ++ closing :: rest) = .ok ([x], rest)
  next : ∀ {part x fuel more xs rest}, R part x → 2 * part.length ≤ fuel →
    skipJsonBlank more = more → take fuel more = .ok (xs, rest) →
    take (fuel + 1) (part ++ ',' :: ' ' :: more) = .ok (x :: xs, rest)
  empty : ∀ fuel rest, takeJson (fuel + 1) (opening :: closing :: rest) = .ok (whole [], rest)
  filled : ∀ {part x fuel after xs rest}, R part x → take fuel (part ++ after) = .ok (xs, rest) →
    takeJson (fuel + 1) (opening :: (part ++ after)) = .ok (whole xs, rest)

namespace ReadsParts

variable {ε : Type} {opening closing : Char} {R : List Char → ε → Prop}
  {take : Nat → List Char → JsonOutcome (List ε × List Char)} {whole : List ε → Value}
  {part : List Char} {x : ε} {parts : List (List Char)} {xs : List ε}

theorem take_parts (h : ReadsParts opening closing R take whole) (hpart : R part x)
    (hparts : Forall₂ R parts xs) (hfuel : 2 * (part ++ moreParts parts).length + 2 ≤ fuel)
    (rest : List Char) :
    take fuel (part ++ (moreParts parts ++ closing :: rest)) = .ok (x :: xs, rest) := by
  -- the first part is free, so that the next one can take its place
  induction hparts generalizing part x fuel with
  | nil =>
    obtain ⟨fuel, rfl⟩ : ∃ n, fuel = n + 1 := ⟨fuel - 1, by omega⟩
    rw [length_append] at hfuel
    exact h.last hpart (by omega) rest
  | @cons next y parts xs hnext hparts ih =>
    obtain ⟨fuel, rfl⟩ : ∃ n, fuel = n + 1 := ⟨fuel - 1, by omega⟩
    have hmore : moreParts (next :: parts) = ',' :: ' ' :: (next ++ moreParts parts) := by
      simp [moreParts]
    rw [hmore] at hfuel ⊢
    simp only [length_append, length_cons] at hfuel
    have hshort : 2 * (next ++ moreParts parts).length + 2 ≤ fuel := by
      rw [length_append]
      omega
    have hrest := ih hnext hshort
    simpa using h.next hpart (by omega) (h.skip hnext _) hrest

theorem reads (h : ReadsParts opening closing R take whole) (hparts : Forall₂ R parts xs) :
    Reads (enclosedParts opening closing parts) (whole xs) := by
  obtain ⟨hblank, hclose, hascii⟩ := h.first
  cases hparts with
  | nil =>
    refine ⟨⟨opening, _, rfl, hblank, hclose, hascii⟩, fun rest fuel _ hfuel => ?_⟩
    obtain ⟨fuel, rfl⟩ : ∃ n, fuel = n + 1 := ⟨fuel - 1, by simp [enclosedParts] at hfuel; omega⟩
    exact h.empty fuel rest
  | @cons part x parts xs hpart hparts =>
    refine ⟨⟨opening, _, rfl, hblank, hclose, hascii⟩, fun rest fuel _ hfuel => ?_⟩
    simp only [enclosedParts, length_cons, length_append, length_nil] at hfuel
    obtain ⟨fuel, rfl⟩ : ∃ n, fuel = n + 1 := ⟨fuel - 1, by omega⟩
    have hshort : 2 * (part ++ moreParts parts).length + 2 ≤ fuel := by
      rw [length_append]
      omega
    have htake := h.take_parts hpart hparts hshort rest
    simpa [enclosedParts] using h.filled hpart htake

end ReadsParts

def entryPart (name : String) (cs : List Char) : List Char := jsonChars name ++ ':' :: ' ' :: cs

def ReadsEntry (part : List Char) (found : String × Value) : Prop :=
  ∃ cs, part = entryPart found.1 cs ∧ Reads cs found.2

theorem skipJsonBlank_entryPart (name : String) (cs rest : List Char) :
    skipJsonBlank (entryPart name cs ++ rest) = entryPart name cs ++ rest :=
  skipJsonBlank_cons (by decide) _

/-- An entry is read, and then what stands behind it decides. -/
theorem takeJsonEntries_part {name : String} (h : Reads cs v)
    (hfuel : 2 * (entryPart name cs).length ≤ fuel) {after : List Char} (hafter : Follows after) :
    takeJsonEntries (fuel + 1) (entryPart name cs ++ after) = (do
      match skipJsonBlank after with
      | '}' :: tail => return ([(.text name, v)], tail)
      | ',' :: more =>
        let (es, tail) ← takeJsonEntries fuel (skipJsonBlank more)
        return ((.text name, v) :: es, tail)
      | other => throw (.wrong "Expecting ',' delimiter" other.length)) := by
  have hchars : entryPart name cs ++ after =
      '"' :: (name.toList.flatMap jsonChar ++ '"' :: ':' :: ' ' :: (cs ++ after)) := by
    simp [entryPart, jsonChars]
  have hval := h.take after fuel hafter (by simp [entryPart] at hfuel; omega)
  rw [hchars, takeJsonEntries]
  rw [takeJsonText_jsonChars, jsonOk_bind]
  simp only
  rw [skipJsonBlank_cons (by decide)]
  simp only
  rw [skipJsonBlank_blank, h.skipJsonBlank, hval, String.ofList_toList]
  rfl

theorem readsParts_list : ReadsParts '[' ']' Reads takeJsonItems .list where
  first := by decide
  skip h := h.skipJsonBlank
  last h hfuel rest := by
    rw [takeJsonItems, h.take _ _ (by rintro c ⟨⟩; exact .inr (.inl rfl)) hfuel, jsonOk_bind]
    rfl
  next h hfuel hskip hmore := by
    rw [takeJsonItems, h.take _ _ (by rintro c ⟨⟩; exact .inl rfl) hfuel, jsonOk_bind]
    simp only
    rw [skipJsonBlank_cons (by decide)]
    simp only
    rw [skipJsonBlank_blank, hskip, hmore, jsonOk_bind]
    rfl
  empty _ _ := rfl
  filled h htake := by
    rw [takeJson]
    rw [h.skipJsonBlank]
    obtain ⟨c, tail, hhead, -, hclose, -⟩ := h.head
    split
    · -- a list with items does not end at once
      rename_i heq
      rw [hhead] at heq
      cases heq
      exact absurd rfl hclose
    · rw [htake, jsonOk_bind]
      rfl

theorem readsParts_map : ReadsParts '{' '}'
    (fun part entry => ∃ found, entry = named id found ∧ ReadsEntry part found) takeJsonEntries
    (fun es => .map (dedupEntries es)) where
  first := by decide
  skip := by
    rintro _ _ ⟨found, -, cs, rfl, -⟩
    exact skipJsonBlank_entryPart found.1 cs
  last := by
    rintro _ _ fuel ⟨found, rfl, cs, rfl, h⟩ hfuel rest
    rw [takeJsonEntries_part h hfuel (by rintro c ⟨⟩; exact .inr (.inr rfl))]
    rfl
  next := by
    rintro _ _ fuel more xs rest ⟨found, rfl, cs, rfl, h⟩ hfuel hskip hmore
    rw [takeJsonEntries_part h hfuel (by rintro c ⟨⟩; exact .inl rfl), skipJsonBlank_cons (by decide)]
    simp only
    rw [skipJsonBlank_blank, hskip, hmore, jsonOk_bind]
    rfl
  empty _ _ := rfl
  filled := by
    rintro _ _ fuel after xs rest ⟨found, rfl, cs, rfl, h⟩ htake
    rw [takeJson]
    rw [skipJsonBlank_entryPart]
    split
    · rename_i heq
      cases heq
    · rw [htake, jsonOk_bind]
      rfl

theorem reads_map {parts : List (List Char)} {founds : List (String × Value)}
    (h : Forall₂ ReadsEntry parts founds) :
    Reads (enclosedParts '{' '}' parts) (.map (dedupEntries (founds.map (named id)))) := by
  refine readsParts_map.reads (forall₂_map_right_iff.mpr (h.imp fun part found hfound => ?_))
  exact ⟨found, rfl, hfound⟩

/-! ## Maps from texts to texts -/

abbrev textEntry : String × String → Value × Value := named .text

def entryChars (entry : String × String) : List Char :=
  jsonChars entry.1 ++ ':' :: ' ' :: jsonChars entry.2

def moreChars (es : List (String × String)) : List Char :=
  es.flatMap fun entry => ',' :: ' ' :: entryChars entry

def mapChars : List (String × String) → List Char
  | [] => ['{', '}']
  | entry :: es => '{' :: (entryChars entry ++ (moreChars es ++ ['}']))

theorem mapChars_eq (es : List (String × String)) :
    mapChars es = enclosedParts '{' '}' (es.map entryChars) := by
  cases es with
  | nil => rfl
  | cons entry es => simp [mapChars, enclosedParts, moreChars, moreParts, flatMap_map]

theorem readJson_mapChars (es : List (String × String)) :
    readJson (mapChars es) = .ok (.map (dedupEntries (es.map textEntry))) := by
  have hparts : Forall₂ ReadsEntry (es.map entryChars)
      (es.map fun entry => (entry.1, .text entry.2)) := by
    rw [forall₂_map_left_iff, forall₂_map_right_iff, forall₂_same]
    exact fun entry _ => ⟨jsonChars entry.2, rfl, reads_text entry.2⟩
  rw [mapChars_eq, (reads_map hparts).readJson_eq, map_map]
  rfl

/-! ## Writing -/

theorem toList_foldl_append (sep : String) (parts : List String) (first : String) :
    (parts.foldl (fun text part => text ++ sep ++ part) first).toList =
      first.toList ++ parts.flatMap fun part => sep.toList ++ part.toList := by
  induction parts generalizing first with
  | nil => simp
  | cons part parts ih => simp [ih]

def entryText (entry : String × String) : String := jsonText entry.1 ++ ": " ++ jsonText entry.2

theorem toList_entryText (entry : String × String) :
    (entryText entry).toList = entryChars entry := by
  simp [entryText, entryChars, toList_jsonText]

theorem jsonEntries_textEntry (es : List (String × String)) (shape : JsonShape)
    (depth : Nat) :
    jsonEntries shape depth (es.map textEntry) = .ok (es.map entryText) := by
  induction es with
  | nil => simp [jsonEntries]
  | cons entry es ih =>
    simp [named, jsonEntries, jsonKey, jsonAt, ih, entryText]

def mapText (es : List (String × String)) : String := String.ofList (mapChars es)

theorem textMapValue_eq (es : List (String × String)) :
    Message.textMapValue es = .map (es.map textEntry) := by
  simp [Message.textMapValue, record, named]

theorem toJson_textMapValue (es : List (String × String)) :
    (Message.textMapValue es).toJson = .ok (mapText es) := by
  rw [textMapValue_eq, toJson, jsonAt, jsonEntries_textEntry, Outcome.ok_bind]
  cases es with
  | nil => rfl
  | cons entry es =>
    refine congrArg Except.ok (String.toList_inj.mp ?_)
    simp [mapText, mapChars, jsonEnclosed, jsonBreak, jsonComma, join, toList_foldl_append,
      toList_entryText, moreChars, flatMap_map]

/-! ## Reading back -/

theorem dedupEntries_named {α : Type} {es : List (String × α)} (f : α → Value)
    (h : (es.map Prod.fst).Nodup) :
    dedupEntries (es.map (named f)) = es.map (named f) := by
  have hmerged := foldl_setEntry_named f [] es
  rw [merged_of_distinct (by simpa using h), nil_append] at hmerged
  exact hmerged

theorem parsed_mapText {es : List (String × String)} (h : (es.map Prod.fst).Nodup) :
    parsed (.text (mapText es)) = .ok (Message.textMapValue es) := by
  simp [parsed, ofJson, mapText, readJson_mapChars, dedupEntries_named _ h, textMapValue_eq]

end SheetMill.Value
