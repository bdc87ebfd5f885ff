import SheetMill.Gateway.Users
import SheetMill.Proofs.AccountChanges
import SheetMill.Proofs.JsonReading

/-!
# Profiles as records

A profile is shown as a record of its columns, each a text or empty. Such a record survives being
written as JSON and read again, and the form that is filled in with it gives it back.
-/

namespace SheetMill.Accounts

open Value List

variable {fields founds : List (String × Value)}

/-! ## Records of texts -/

def Textual (fields : List (String × Value)) : Prop :=
  ∀ field ∈ fields, ∃ content, field.2 = ofText? content

theorem jsonEntries_textual (h : Textual fields) (shape : JsonShape) (depth : Nat) :
    ∃ parts, jsonEntries shape depth (fields.map (named id)) = .ok parts := by
  induction fields with
  | nil => exact ⟨[], rfl⟩
  | cons field fields ih =>
    obtain ⟨name, v⟩ := field
    unfold Textual at h
    rw [forall_mem_cons] at h
    obtain ⟨content, hcont⟩ := h.1
    obtain ⟨parts, hparts⟩ := ih h.2
    have hv : ∃ part, jsonAt shape depth v = .ok part := by
      have hcont : v = ofText? content := hcont
      rw [hcont]
      cases content with
      | none => exact ⟨_, by rw [ofText?, jsonAt]⟩
      | some s => exact ⟨_, by rw [ofText?, jsonAt]⟩
    obtain ⟨part, hpart⟩ := hv
    refine ⟨(jsonText name ++ ": " ++ part) :: parts, ?_⟩
    rw [map_cons, named, jsonEntries]
    simp only [jsonKey, Outcome.ok_bind, id, hpart, hparts, Outcome.pure_eq_ok]

theorem exists_toJson (h : Textual fields) :
    ∃ written, (record fields).toJson = .ok written := by
  obtain ⟨parts, hparts⟩ := jsonEntries_textual h none 1
  have hrec : record fields = .map (fields.map (named id)) := rfl
  unfold toJson
  rw [hrec, jsonAt, hparts]
  exact ⟨_, rfl⟩

theorem FieldFound.null {depth : Nat} {name : String} (h : FieldFound depth founds name .null) :
    (name, null) ∈ founds := by
  obtain ⟨written, w, hwritten, hw, hmem⟩ := h
  cases hwritten
  rw [hw.unique reads_null] at hmem
  exact hmem

theorem eq_of_names_of_subset {fields : List (String × Value)}
    (hnames : founds.map Prod.fst = fields.map Prod.fst) (hdist : (fields.map Prod.fst).Nodup)
    (hsub : ∀ field ∈ fields, field ∈ founds) : founds = fields := by
  induction fields generalizing founds with
  | nil => exact map_eq_nil_iff.mp hnames
  | cons field fields ih =>
    obtain ⟨found, founds, rfl⟩ := exists_cons_of_ne_nil
      (fun h : founds = [] => by simp [h] at hnames)
    rw [map_cons, map_cons, List.cons.injEq] at hnames
    rw [map_cons, nodup_cons] at hdist
    have hfst : field = found := by
      rcases mem_cons.mp (hsub field mem_cons_self) with h | h
      · exact h
      · exact absurd (hnames.2 ▸ mem_map_of_mem h) hdist.1
    subst hfst
    congr 1
    refine ih hnames.2 hdist.2 fun other hother => ?_
    rcases mem_cons.mp (hsub other (mem_cons_of_mem _ hother)) with rfl | h
    · exact absurd (mem_map_of_mem hother) hdist.1
    · exact h

theorem ofJson_textual (h : Textual fields) (hdist : (fields.map Prod.fst).Nodup)
    {written : String} (hwritten : (record fields).toJson = .ok written) :
    ofJson written = .ok (.record fields) := by
  obtain ⟨founds, hread, hnames, hfound⟩ := ofJson_fields hdist hwritten
  have hfounds : founds = fields := by
    refine eq_of_names_of_subset hnames hdist fun field hfld => ?_
    obtain ⟨name, v⟩ := field
    have hone := hfound name v hfld
    obtain ⟨content, hcont⟩ := h _ hfld
    have hcont : v = ofText? content := hcont
    rw [hcont] at hone ⊢
    cases content with
    | none => exact FieldFound.null hone
    | some s => exact hone.text
  rw [hread, hfounds]

/-! ## Profiles -/

def Row.profile (p : Row) : List (String × Value) := p.columns FormKind.profile.names

theorem names_profile (p : Row) : p.profile.map Prod.fst = FormKind.profile.names := by
  unfold Row.profile Row.columns
  rw [map_map]
  exact map_id _

theorem nodup_profile (p : Row) : (p.profile.map Prod.fst).Nodup := by
  rw [names_profile]
  decide

theorem whole_form (m : Member) : (m.form false).whole = .ok m.profile.profile := rfl

theorem fromCache_profile (p : Row) :
    Gateway.fromCache .profile (.record p.profile) = .ok (.record p.profile) := rfl

/-! ## What is shown of a user -/

section Shown

variable {byAdmin : Bool} {fault? : Option Fault} {t t' : Tables} {req : Request}
  {out : Outcome Receipt} {u : String} {p : Row}

def Tables.shown? (t : Tables) (u : String) : Option Row :=
  (t.member? (.text u)).map (·.profile)

def Row.Serves (u : String) (a : Row) : Prop :=
  a.read "username" = .text u ∧ a.isActive = true

/-- A profile is shown if it is the first one of the name and the user has an active account. -/
theorem Tables.shown?_eq_some :
    t.shown? u = some p ↔ (∃ a ∈ t.accounts, a.Serves u) ∧ t.profileOf? u = some p := by
  unfold shown?
  rw [t.profile_member? u true]
  have haccs : t.accountsOf u true = [] ↔ ¬ ∃ a ∈ t.accounts, a.Serves u := by
    unfold accountsOf Row.Serves
    simp [filter_eq_nil_iff, Row.has_text]
  split
  · rename_i hnone
    exact ⟨nofun, fun hp => absurd hp.1 (haccs.mp hnone)⟩
  · rename_i hsome
    exact ⟨fun hp => ⟨by simpa [haccs] using hsome, hp⟩, fun hp => hp.2⟩

/-- The name that a request is about; that of a new account does not count. -/
def Request.subject? : Request → Option String
  | .create _ => none
  | .update user _ _ | .close user _ | .remove user _ => some user

theorem profileOf?_withProfile (h : t.profileOf? u = some p) (profile : Row) :
    (t.withProfile profile).profileOf? u = some p := by
  unfold Tables.profileOf? Tables.withProfile at *
  rw [find?_append, h]
  rfl

/-- An account that serves a user still stands when one that does not gives way to others. -/
theorem serves_of_replaced {before after : List Row} (others : List Row) {a : Row} (ha : ¬ a.Serves u)
    (h : ∃ b ∈ before ++ a :: after, b.Serves u) : ∃ b ∈ before ++ (others ++ after), b.Serves u := by
  obtain ⟨b, hb, hserves⟩ := h
  refine ⟨b, ?_, hserves⟩
  rw [mem_append, mem_cons] at hb
  rw [mem_append, mem_append]
  rcases hb with hb | rfl | hb
  · exact .inl hb
  · exact absurd hserves ha
  · exact .inr (.inr hb)

section Opened

variable {p : Paper} {sought : Sought} {receipt : Receipt} (h : Opened t p sought receipt t')

include h

theorem serves_of_opened (hserves : ∃ a ∈ t.accounts, a.Serves u) :
    ∃ a ∈ t'.accounts, a.Serves u := by
  obtain ⟨b, hb, hact⟩ := hserves
  cases h with
  | added => exact ⟨b, mem_append_left _ hb, hact⟩
  | @again before after a hloc =>
    rw [hloc.eq, mem_append, mem_cons] at hb
    rcases hb with hb | rfl | hb
    · exact ⟨b, by simp [hb], hact⟩
    · refine ⟨b.put "is_active" (.bool true), by simp, ?_, ?_⟩
      · rw [Row.read_put, if_neg (by decide)]
        exact hact.1
      · unfold Row.isActive
        rw [Row.read_put, if_pos rfl]
        rfl
    · exact ⟨b, by simp [hb], hact⟩

theorem profiles_of_opened : t'.profiles = t.profiles := by
  cases h <;> rfl

end Opened

theorem username_free {profile : Row} {changes : List (String × Value)} {v : Value}
    (h : t.updateObjection? profile changes = .ok none) (hv : changes.lookup "username" = some v)
    (hother : profile.has "username" v = false) : ∀ a ∈ t.accounts, a.has "username" v = false := by
  unfold Tables.updateObjection? at h
  dsimp only at h
  split at h
  · cases h
  · rename_i htaken
    intro a ha
    rw [Bool.eq_false_iff]
    intro hname
    apply htaken
    have hfound : (t.accountOf? v false).isSome = true :=
      find?_isSome.mpr ⟨a, ha, by simp [hname]⟩
    simp [hv, hother, hfound]

/-- What is shown of a user stays the same under an update of somebody else: nobody can take the
name of a user who has an account. -/
theorem shown?_of_updated {username role : String} {fields : TextFields} {member : Member}
    {before after accounts : List Row} (hne : username ≠ u)
    (hobj : t.updateObjection? member.profile fields.changes = .ok none)
    (hprof : Located (·.has "username" (.text username)) t.profiles before member.profile after)
    (haccs : AccountsRevised fields (seek username role) t.accounts accounts)
    (hshown : t.shown? u = some p) :
    Tables.shown? ⟨before ++ member.profile.putAll (profilePart fields.changes) :: after, accounts⟩ u =
      some p := by
  obtain ⟨hserves, hfst⟩ := Tables.shown?_eq_some.mp hshown
  have hname : member.profile.read "username" = .text username := Row.has_text.mp hprof.found
  -- the new name, if one is given, is not that of the user
  have hnew : ∀ name, fields.text? "username" = some name → name ≠ u := by
    rintro name hgiven rfl
    obtain ⟨a, ha, hact⟩ := hserves
    have hlook : fields.changes.lookup "username" = some (.text name) := by
      rw [fields.lookup_changes (by decide), hgiven]
      rfl
    have hother : member.profile.has "username" (.text name) = false := by
      rw [Bool.eq_false_iff, ne_eq, Row.has_text, hname]
      simpa using hne
    have hfree := username_free hobj hlook hother a ha
    rw [Row.has_text.mpr hact.1] at hfree
    cases hfree
  rw [Tables.shown?_eq_some]
  constructor
  · cases haccs with
    | none => exact hserves
    | @some before after a a' hloc _ =>
      have hsought := username_of_isSought hloc.found
      rw [hloc.eq] at hserves
      refine serves_of_replaced [a'] (fun hact => hne ?_) hserves
      exact text.inj (hsought.symm.trans hact.1)
  · have hread : (member.profile.putAll (profilePart fields.changes)).read "username" =
        .text ((fields.text? "username").getD username) := by
      have hdist : ((profilePart fields.changes).map Prod.fst).Nodup :=
        fields.nodup_changes.sublist (filter_sublist.map _)
      have hlook : (profilePart fields.changes).lookup "username" =
          fields.changes.lookup "username" :=
        lookup_filter_keys (FormKind.profile.names.contains ·) fields.changes "username"
      rw [Row.read_putAll hdist, hlook, fields.lookup_changes (by decide), hname]
      cases fields.text? "username" <;> rfl
    have hold : member.profile.has "username" (.text u) = false := by
      rw [Bool.eq_false_iff, ne_eq, Row.has_text, hname]
      simpa using hne
    have hskipped :
        (member.profile.putAll (profilePart fields.changes)).has "username" (.text u) = false := by
      rw [Bool.eq_false_iff, ne_eq, Row.has_text, hread, text.injEq]
      cases hgiven : fields.text? "username" with
      | none => exact hne
      | some name => exact hnew name hgiven
    unfold Tables.profileOf? at hfst ⊢
    rw [hprof.eq, find?_append, find?_cons_of_neg (by simp [hold])] at hfst
    rw [find?_append, find?_cons_of_neg (by simp [hskipped])]
    exact hfst

/-- What is shown of a user stays the same under every change that fails or is not about the user. -/
theorem Effect.shown? (h : Effect byAdmin fault? t req out t')
    (hother : Failed out ∨ req.subject? ≠ some u) (hshown : t.shown? u = some p) :
    t'.shown? u = some p := by
  have hnotFailed : ∀ {receipt : Receipt}, receipt.number = 0 → ¬ Failed (.ok receipt) :=
    fun hzero hfail => hfail _ rfl hzero
  have ⟨hserves, hfst⟩ := Tables.shown?_eq_some.mp hshown
  cases h with
  | refused => exact hshown
  | introduced => exact Tables.shown?_eq_some.mpr ⟨hserves, profileOf?_withProfile hfst _⟩
  | created hzero hrole hperm hknown hopened =>
    rw [Tables.shown?_eq_some]
    unfold Tables.profileOf?
    rw [profiles_of_opened hopened]
    rcases hknown with rfl | ⟨profile, -, rfl⟩
    · exact ⟨serves_of_opened hopened hserves, hfst⟩
    · exact ⟨serves_of_opened hopened hserves, profileOf?_withProfile hfst _⟩
  | updated hzero hmem hperm hobj hprof haccs =>
    have hne := hother.resolve_left (hnotFailed hzero)
    exact shown?_of_updated (fun h => hne (congrArg some h)) hobj hprof haccs hshown
  | @closed user role today receipt before after a hzero hperm hloc =>
    have hne := hother.resolve_left (hnotFailed hzero)
    rw [hloc.eq] at hserves
    refine Tables.shown?_eq_some.mpr
      ⟨serves_of_replaced [_] (fun hact => hne ?_) hserves, hfst⟩
    exact congrArg some (text.inj ((username_of_isSought hloc.found).symm.trans hact.1))
  | @removed user role receipt before after a hzero hperm hloc =>
    have hne := hother.resolve_left (hnotFailed hzero)
    rw [hloc.eq] at hserves
    refine Tables.shown?_eq_some.mpr
      ⟨serves_of_replaced [] (fun hact => hne ?_) hserves, hfst⟩
    exact congrArg some (text.inj ((username_of_isSought hloc.found).symm.trans hact.1))

end Shown

/-! ## Tables of texts -/

section TextProfiles

variable {byAdmin : Bool} {fault? : Option Fault} {t t' : Tables} {req : Request}
  {out : Outcome Receipt}

def Tables.TextProfiles (t : Tables) : Prop := ∀ p ∈ t.profiles, Textual p.profile

theorem textual_profile {p : Row} :
    Textual p.profile ↔ ∀ name ∈ FormKind.profile.names, ∃ content, p.read name = .ofText? content := by
  unfold Textual Row.profile Row.columns
  simp only [forall_mem_map]

theorem textual_creation {fields : TextFields} {name : String} {v : Value}
    (h : fields.creation.read name = .ok v) : ∃ content, v = .ofText? content := by
  have hdefaults : ∀ field ∈ FormKind.creation.fields, ∀ w, field.2 = some w → w = .null := by
    simp [FormKind.creation, FormKind.user, FormKind.profile, FormKind.needed, FormKind.spared]
  have hval : (FormKind.creation.fill fields.values).value? name = some v := by
    change (FormKind.creation.fill fields.values).read name = .ok v at h
    unfold Form.read at h
    split at h
    · rename_i w hw
      cases h
      exact hw
    · cases h
  unfold Form.value? at hval
  rw [FormKind.lookup_fill, fields.lookup_values] at hval
  cases hgiven : (if name ∈ FormKind.creation.names then
      (fields.lookup name).map ofText? else none) with
  | some w =>
    rw [hgiven] at hval
    cases hval
    split at hgiven
    · obtain ⟨content, -, rfl⟩ := Option.map_eq_some_iff.mp hgiven
      exact ⟨content, rfl⟩
    · cases hgiven
  | none =>
    rw [hgiven, Option.none_or] at hval
    obtain ⟨default, hlook, hdefault⟩ := Option.bind_eq_some_iff.mp hval
    exact ⟨none, hdefaults _ (mem_of_lookup hlook) v hdefault⟩

theorem Introduces.textual {fields : TextFields} {profile : Row}
    (h : Introduces byAdmin t fields profile) : Textual profile.profile := by
  have hents : Textual profile := by
    have hsaid := Outcome.mapM_eq_ok.mp h.said
    clear h
    generalize FormKind.profile.names = names at hsaid
    induction hsaid with
    | nil => exact nofun
    | cons hread _ ih =>
      obtain ⟨v, hv, hpair⟩ := Outcome.bind_eq_ok.mp hread
      cases hpair
      exact forall_mem_cons.mpr ⟨textual_creation hv, ih⟩
  rw [textual_profile]
  intro name hname
  unfold Row.read
  cases hlook : profile.lookup name with
  | some v => exact hents _ (mem_of_lookup hlook)
  | none =>
    have hne : name ≠ "is_active" := by
      rintro rfl
      exact absurd hname (by decide)
    exact ⟨none, by simp [hne, ofText?]⟩

theorem textual_putAll {p : Row} (h : Textual p.profile) (fields : TextFields) :
    Textual (p.putAll (profilePart fields.changes)).profile := by
  rw [textual_profile] at h ⊢
  intro name hname
  have hdist : ((profilePart fields.changes).map Prod.fst).Nodup :=
    fields.nodup_changes.sublist (filter_sublist.map _)
  have hlook : (profilePart fields.changes).lookup name = fields.changes.lookup name := by
    have hkeys := lookup_filter_keys (FormKind.profile.names.contains ·) fields.changes name
    rwa [if_pos (contains_iff_mem.mpr hname)] at hkeys
  have hupd : name ∈ FormKind.update.names :=
    (show FormKind.profile.names ⊆ FormKind.update.names by decide) hname
  rw [Row.read_putAll hdist, hlook, fields.lookup_changes hupd]
  cases fields.text? name with
  | none => exact h name hname
  | some content => exact ⟨some content, rfl⟩

theorem textProfiles_withProfile (ht : t.TextProfiles) {profile : Row}
    (h : Textual profile.profile) : (t.withProfile profile).TextProfiles := by
  intro p hp
  rcases mem_append.mp hp with hp | hp
  · exact ht p hp
  · rw [mem_singleton.mp hp]
    exact h

/-- Whatever is changed, the profiles hold texts only. -/
theorem Effect.textProfiles (h : Effect byAdmin fault? t req out t') (ht : t.TextProfiles) :
    t'.TextProfiles := by
  cases h with
  | refused => exact ht
  | introduced _ hnew => exact textProfiles_withProfile ht hnew.textual
  | created hzero hrole hperm hknown hopened =>
    unfold Tables.TextProfiles
    rw [profiles_of_opened hopened]
    rcases hknown with rfl | ⟨profile, hnew, rfl⟩
    · exact ht
    · exact textProfiles_withProfile ht hnew.textual
  | updated hzero hmem hperm hobj hprof haccs =>
    unfold Tables.TextProfiles at ht
    rw [hprof.eq] at ht
    obtain ⟨hold, hothers⟩ := forall_mem_split.mp ht
    exact forall_mem_split.mpr ⟨textual_putAll hold _, hothers⟩
  | closed => exact ht
  | removed => exact ht

end TextProfiles

end SheetMill.Accounts
