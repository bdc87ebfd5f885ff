import SheetMill.Proofs.JsonNumbers

/-!
# Whatever is written as JSON can be read

A value that can be written as JSON on one line is read again as some value: a text as itself, a
list as a list of what its items are read as, and a map as the map of what its values are read as
under the texts of its keys.
-/

namespace SheetMill.Value

open Text Decimal List Outcome

variable {rest : List Char} {founds fs : List (String × Value)} {parts : List String}
  {depth : Nat} {cs : List Char} {written name : String} {c : Char}

/-! ## Values -/

theorem takeJson_other {c : Char} {cs : List Char} (hquote : c ≠ '"') (hbracket : c ≠ '[')
    (hbrace : c ≠ '{') (fuel : Nat) :
    takeJson (fuel + 1) (c :: cs) =
      (takeJsonWord? (c :: cs)).elim (takeJsonNumber (c :: cs)) .ok := by
  rw [takeJson]
  · cases takeJsonWord? (c :: cs) <;> rfl
  · rintro _ ⟨⟩
    exact hquote rfl
  · rintro _ ⟨⟩
    exact hbracket rfl
  · rintro _ ⟨⟩
    exact hbrace rfl

theorem reads_of_other {c : Char} {tail : List Char} {v : Value} (hblank : isJsonBlank c = false)
    (hother : c ∉ ['"', '[', '{', ']']) (hascii : c.toNat < 128)
    (h : ∀ rest, Follows rest → takeJsonWord? (c :: tail ++ rest) = some (v, rest) ∨
      takeJsonWord? (c :: tail ++ rest) = none ∧
        takeJsonNumber (c :: tail ++ rest) = .ok (v, rest)) : Reads (c :: tail) v := by
  simp only [mem_cons, not_mem_nil, or_false, not_or] at hother
  obtain ⟨hquote, hbracket, hbrace, hclose⟩ := hother
  refine ⟨⟨c, tail, rfl, hblank, hclose, hascii⟩, fun rest fuel hrest hfuel => ?_⟩
  obtain ⟨fuel, rfl⟩ : ∃ n, fuel = n + 1 := ⟨fuel - 1, by simp at hfuel; omega⟩
  rw [cons_append, takeJson_other hquote hbracket hbrace]
  rcases h rest hrest with hword | ⟨hnone, hnum⟩
  · rw [cons_append] at hword
    rw [hword]
    rfl
  · rw [cons_append] at hnone hnum
    rw [hnone]
    exact hnum

/-- A word is read as the value that it stands for. -/
theorem reads_word {word : String} {v : Value}
    (h : (word, v) ∈ [("null", .null), ("true", .bool true), ("false", .bool false),
      ("NaN", .float (0.0 / 0.0)), ("Infinity", .float (1.0 / 0.0)),
      ("-Infinity", .float (-1.0 / 0.0))]) : Reads word.toList v := by
  obtain ⟨c, tail, hchars, hblank, hother, hascii, hword⟩ : ∃ c tail, word.toList = c :: tail ∧
      isJsonBlank c = false ∧ c ∉ ['"', '[', '{', ']'] ∧ c.toNat < 128 ∧
      ∀ rest, takeJsonWord? (c :: tail ++ rest) = some (v, rest) := by
    simp only [mem_cons, not_mem_nil, or_false, Prod.mk.injEq] at h
    rcases h with ⟨rfl, rfl⟩ | ⟨rfl, rfl⟩ | ⟨rfl, rfl⟩ | ⟨rfl, rfl⟩ | ⟨rfl, rfl⟩ | ⟨rfl, rfl⟩ <;>
      exact ⟨_, _, by simp; exact ⟨rfl, rfl⟩, by decide, by decide, by decide,
        by simp [takeJsonWord?, dropPart?]⟩
  rw [hchars]
  exact reads_of_other hblank hother hascii fun rest _ => .inl (hword rest)

theorem reads_null : Reads "null".toList .null := reads_word (by simp)

theorem reads_bool (b : Bool) : Reads (if b then "true" else "false").toList (.bool b) := by
  cases b <;> exact reads_word (by simp)

theorem reads_floatWord {word : String} (h : word ∈ ["NaN", "Infinity", "-Infinity"]) :
    ∃ v, Reads word.toList v := by
  simp only [mem_cons, not_mem_nil, or_false] at h
  rcases h with rfl | rfl | rfl
  · exact ⟨.float (0.0 / 0.0), reads_word (by simp)⟩
  · exact ⟨.float (1.0 / 0.0), reads_word (by simp)⟩
  · exact ⟨.float (-1.0 / 0.0), reads_word (by simp)⟩

theorem Numeral.head (n : Numeral) : ∃ c tail, n.chars = c :: tail ∧
    (c.isDigit = true ∨ c = '-' ∧ ∃ d more, tail = d :: more ∧ d.isDigit = true) := by
  obtain ⟨c, tail, hwhole, hc⟩ := n.isWhole.head
  unfold chars
  rw [hwhole]
  cases n.negative with
  | true => exact ⟨'-', _, rfl, .inr ⟨rfl, c, _, rfl, hc⟩⟩
  | false => exact ⟨c, _, rfl, .inl hc⟩

theorem ne_of_isDigit {w : Char} (hc : c.isDigit = true) (hw : w.isDigit = false) : w ≠ c := by
  rintro rfl
  rw [hw] at hc
  cases hc

theorem isJsonBlank_digit (h : c.isDigit = true) : isJsonBlank c = false := by
  have hblank : c ≠ ' ' := (ne_of_isDigit h (by decide)).symm
  have htab : c ≠ '\t' := (ne_of_isDigit h (by decide)).symm
  have hline : c ≠ '\n' := (ne_of_isDigit h (by decide)).symm
  have hreturn : c ≠ '\r' := (ne_of_isDigit h (by decide)).symm
  simp [isJsonBlank, hblank, htab, hline, hreturn]

theorem toNat_digit (h : c.isDigit = true) : c.toNat < 128 := by
  obtain ⟨d, hd, rfl⟩ := exists_digit h
  have hall : ∀ d < 10, (Char.ofNat (48 + d)).toNat < 128 := by decide
  exact hall d hd

theorem takeJsonWord?_digit (h : c.isDigit = true) (cs : List Char) :
    takeJsonWord? (c :: cs) = none ∧ takeJsonWord? ('-' :: c :: cs) = none := by
  have hn : 'n' ≠ c := ne_of_isDigit h (by decide)
  have ht : 't' ≠ c := ne_of_isDigit h (by decide)
  have hf : 'f' ≠ c := ne_of_isDigit h (by decide)
  have hN : 'N' ≠ c := ne_of_isDigit h (by decide)
  have hI : 'I' ≠ c := ne_of_isDigit h (by decide)
  have hminus : '-' ≠ c := ne_of_isDigit h (by decide)
  constructor
  · simp [takeJsonWord?, dropPart?, hn, ht, hf, hN, hI, hminus]
  · simp [takeJsonWord?, dropPart?, hI]

theorem reads_number (n : Numeral) : ∃ v, Reads n.chars v := by
  obtain ⟨v, hv⟩ := n.take
  obtain ⟨c, tail, hchars, hc⟩ := n.head
  rw [hchars] at hv ⊢
  refine ⟨v, ?_⟩
  rcases hc with hc | ⟨rfl, d, more, rfl, hd⟩
  · have hother : c ∉ ['"', '[', '{', ']'] := by
      simp only [mem_cons, not_mem_nil, or_false]
      rintro (rfl | rfl | rfl | rfl) <;> exact absurd hc (by decide)
    exact reads_of_other (isJsonBlank_digit hc) hother (toNat_digit hc) fun rest hrest =>
      .inr ⟨(takeJsonWord?_digit hc _).1, hv rest hrest⟩
  · exact reads_of_other (by decide) (by decide) (by decide) fun rest hrest =>
      .inr ⟨(takeJsonWord?_digit hd _).2, hv rest hrest⟩

/-! ## Whatever is written -/

theorem isEmpty_of_jsonItems {shape : JsonShape} {items : List Value}
    (h : jsonItems shape depth items = .ok parts) : items.isEmpty = parts.isEmpty := by
  cases items with
  | nil =>
    rw [jsonItems] at h
    cases h
    rfl
  | cons v rest =>
    rw [jsonItems] at h
    obtain ⟨first, -, h⟩ := bind_eq_ok.mp h
    obtain ⟨others, -, h⟩ := bind_eq_ok.mp h
    cases h
    rfl

theorem isEmpty_of_jsonEntries {shape : JsonShape} {es : List (Value × Value)}
    (h : jsonEntries shape depth es = .ok parts) : es.isEmpty = parts.isEmpty := by
  cases es with
  | nil =>
    rw [jsonEntries] at h
    cases h
    rfl
  | cons entry rest =>
    obtain ⟨k, v⟩ := entry
    rw [jsonEntries] at h
    obtain ⟨name, -, h⟩ := bind_eq_ok.mp h
    obtain ⟨value, -, h⟩ := bind_eq_ok.mp h
    obtain ⟨others, -, h⟩ := bind_eq_ok.mp h
    cases h
    rfl

theorem toList_enclosed (c d : Char) {first last empty : String} (hfst : first.toList = [c])
    (hlast : last.toList = [d]) (hnil : empty.toList = [c, d]) :
    (if parts.isEmpty then empty else jsonEnclosed none depth first parts last).toList =
      enclosedParts c d (parts.map String.toList) := by
  cases parts with
  | nil => exact hnil
  | cons part parts =>
    simp [jsonEnclosed, jsonBreak, jsonComma, join, toList_foldl_append, hfst, hlast,
      enclosedParts, moreParts, flatMap_map]

/-- An entry is found under the text of its key, as its value is read. -/
def EntryFound (depth : Nat) (entry : Value × Value) (found : String × Value) : Prop :=
  jsonKey entry.1 = .ok found.1 ∧
    ∃ written, jsonAt none depth entry.2 = .ok written ∧ Reads written.toList found.2

mutual

theorem exists_reads (depth : Nat) :
    ∀ (v : Value) (written : String), jsonAt none depth v = .ok written →
      ∃ w, Reads written.toList w
  | .null => by
    intro written h
    rw [jsonAt] at h
    cases h
    exact ⟨_, reads_null⟩
  | .bool b => by
    intro written h
    rw [jsonAt] at h
    cases h
    exact ⟨_, reads_bool b⟩
  | .int i => by
    intro written h
    rw [jsonAt] at h
    obtain ⟨n, hn⟩ := exists_numeral_int h
    rw [← hn]
    exact reads_number n
  | .float x => by
    intro written h
    rw [jsonAt] at h
    cases h
    rcases json_text_cases x with hword | ⟨n, hn⟩
    · exact reads_floatWord hword
    · rw [← hn]
      exact reads_number n
  | .text s => by
    intro written h
    rw [jsonAt] at h
    cases h
    exact ⟨_, toList_jsonText s ▸ reads_text s⟩
  | .list items => by
    intro written h
    rw [jsonAt] at h
    obtain ⟨parts, hparts, h⟩ := bind_eq_ok.mp h
    obtain ⟨ws, hws⟩ := exists_reads_items (depth + 1) items parts hparts
    cases h
    rw [isEmpty_of_jsonItems hparts, toList_enclosed '[' ']' (by simp) (by simp) (by simp)]
    exact ⟨_, readsParts_list.reads hws⟩
  | .map es => by
    intro written h
    rw [jsonAt] at h
    obtain ⟨parts, hparts, h⟩ := bind_eq_ok.mp h
    obtain ⟨founds, hfounds, -⟩ := exists_reads_entries (depth + 1) es parts hparts
    cases h
    rw [isEmpty_of_jsonEntries hparts, toList_enclosed '{' '}' (by simp) (by simp) (by simp)]
    exact ⟨_, reads_map hfounds⟩
  | .bytes _ | .objectId _ | .date _ | .message _ | .kind _ | .handle _ => by
    intro written h
    simp only [jsonAt] at h
    cases h

theorem exists_reads_items (depth : Nat) :
    ∀ (items : List Value) (parts : List String), jsonItems none depth items = .ok parts →
      ∃ ws, Forall₂ Reads (parts.map String.toList) ws
  | [] => by
    intro parts h
    rw [jsonItems] at h
    cases h
    exact ⟨[], .nil⟩
  | v :: rest => by
    intro parts h
    rw [jsonItems] at h
    obtain ⟨first, hfst, h⟩ := bind_eq_ok.mp h
    obtain ⟨others, hothers, h⟩ := bind_eq_ok.mp h
    cases h
    obtain ⟨w, hw⟩ := exists_reads depth v first hfst
    obtain ⟨ws, hws⟩ := exists_reads_items depth rest others hothers
    exact ⟨w :: ws, .cons hw hws⟩

theorem exists_reads_entries (depth : Nat) :
    ∀ (es : List (Value × Value)) (parts : List String),
      jsonEntries none depth es = .ok parts →
      ∃ founds, Forall₂ ReadsEntry (parts.map String.toList) founds ∧
        Forall₂ (EntryFound depth) es founds
  | [] => by
    intro parts h
    rw [jsonEntries] at h
    cases h
    exact ⟨[], .nil, .nil⟩
  | (k, v) :: rest => by
    intro parts h
    rw [jsonEntries] at h
    obtain ⟨name, hname, h⟩ := bind_eq_ok.mp h
    obtain ⟨value, hval, h⟩ := bind_eq_ok.mp h
    obtain ⟨others, hothers, h⟩ := bind_eq_ok.mp h
    cases h
    obtain ⟨w, hw⟩ := exists_reads depth v value hval
    obtain ⟨founds, hfounds, hents⟩ := exists_reads_entries depth rest others hothers
    refine ⟨(name, w) :: founds, .cons ⟨value.toList, ?_, hw⟩ hfounds,
      .cons ⟨hname, value, hval, hw⟩ hents⟩
    simp [entryPart, toList_jsonText]

end

theorem Reads.unique {v w : Value} (hv : Reads cs v) (hw : Reads cs w) : v = w := by
  have hleft := hv.take [] _ follows_nil (Nat.le_refl _)
  have hright := hw.take [] _ follows_nil (Nat.le_refl _)
  rw [hleft] at hright
  cases hright
  rfl

/-- A field of a record is found under its name, as its value is read. -/
def FieldFound (depth : Nat) (founds : List (String × Value)) (name : String) (v : Value) : Prop :=
  ∃ written w, jsonAt none depth v = .ok written ∧ Reads written.toList w ∧ (name, w) ∈ founds

theorem fieldFound_of_mem {v : Value}
    (h : Forall₂ (fun field => EntryFound depth (named id field)) fs founds)
    (hmem : (name, v) ∈ fs) : FieldFound depth founds name v := by
  induction h with
  | nil => cases hmem
  | @cons field found _ _ hfound _ ih =>
    rcases mem_cons.mp hmem with rfl | hmem
    · obtain ⟨hname, written, hwritten, hw⟩ := hfound
      obtain rfl : name = found.1 := Except.ok.inj hname
      exact ⟨written, found.2, hwritten, hw, mem_cons_self⟩
    · obtain ⟨written, w, hwritten, hw, hmem⟩ := ih hmem
      exact ⟨written, w, hwritten, hw, mem_cons_of_mem _ hmem⟩

/-- A record is read as one with the same names, and each of its fields as it is read by itself. -/
theorem exists_reads_fields (depth : Nat) (hdist : (fs.map Prod.fst).Nodup)
    (h : jsonAt none depth (record fs) = .ok written) :
    ∃ founds, Reads written.toList (record founds) ∧
      founds.map Prod.fst = fs.map Prod.fst ∧
      ∀ name v, (name, v) ∈ fs → FieldFound (depth + 1) founds name v := by
  have hrec : ∀ es, record es = .map (es.map (named id)) := fun _ => rfl
  rw [hrec, jsonAt] at h
  obtain ⟨parts, hparts, h⟩ := bind_eq_ok.mp h
  cases h
  obtain ⟨founds, hread, hfounds⟩ := exists_reads_entries (depth + 1) _ parts hparts
  rw [forall₂_map_left_iff] at hfounds
  have hnames : founds.map Prod.fst = fs.map Prod.fst := by
    rw [← forall₂_eq_eq_eq, forall₂_map_left_iff, forall₂_map_right_iff]
    exact hfounds.flip.imp fun _ _ hfound => (Except.ok.inj hfound.1).symm
  refine ⟨founds, ?_, hnames, fun name v hmem => ?_⟩
  · rw [isEmpty_of_jsonEntries hparts, toList_enclosed '{' '}' (by simp) (by simp) (by simp),
      hrec, ← dedupEntries_named id (hnames ▸ hdist)]
    exact reads_map hread
  · exact fieldFound_of_mem hfounds hmem

theorem FieldFound.text {s : String} (h : FieldFound depth founds name (.text s)) :
    (name, Value.text s) ∈ founds := by
  obtain ⟨written, w, hwritten, hw, hmem⟩ := h
  rw [jsonAt] at hwritten
  cases hwritten
  rw [hw.unique (toList_jsonText s ▸ reads_text s)] at hmem
  exact hmem

theorem FieldFound.record (h : FieldFound depth founds name (.record fs))
    (hdist : (fs.map Prod.fst).Nodup) :
    ∃ inner, (name, Value.record inner) ∈ founds ∧ inner.map Prod.fst = fs.map Prod.fst ∧
      ∀ field v, (field, v) ∈ fs → FieldFound (depth + 1) inner field v := by
  obtain ⟨written, w, hwritten, hw, hmem⟩ := h
  obtain ⟨inner, hinner, hnames, hflds⟩ := exists_reads_fields depth hdist hwritten
  rw [hw.unique hinner] at hmem
  exact ⟨inner, hmem, hnames, hflds⟩

theorem ofJson_fields (hdist : (fs.map Prod.fst).Nodup)
    (h : (record fs).toJson = .ok written) :
    ∃ founds, ofJson written = .ok (record founds) ∧
      founds.map Prod.fst = fs.map Prod.fst ∧
      ∀ name v, (name, v) ∈ fs → FieldFound 1 founds name v := by
  obtain ⟨founds, hfounds, hnames, hflds⟩ := exists_reads_fields 0 hdist h
  refine ⟨founds, ?_, hnames, hflds⟩
  unfold ofJson
  rw [hfounds.readJson_eq]

theorem ofJson_record (hdist : (fs.map Prod.fst).Nodup)
    (h : (record fs).toJson = .ok written) :
    ∃ founds, ofJson written = .ok (record founds) ∧
      founds.map Prod.fst = fs.map Prod.fst ∧
      ∀ name s, (name, Value.text s) ∈ fs → (name, Value.text s) ∈ founds := by
  obtain ⟨founds, hread, hnames, hflds⟩ := ofJson_fields hdist h
  exact ⟨founds, hread, hnames, fun name s hmem => (hflds name _ hmem).text⟩

end SheetMill.Value
