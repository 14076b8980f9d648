import CatalogPress.Proofs.Catalog.Accepted

/-!
Which objects are sound, said of what they give for their fields: required texts are given, the
other texts are texts, null or left out, and no licence is stated in two spellings. Checking finds
no faults exactly in the sound objects whose keys can be written.
-/
namespace CatalogPress

namespace FieldName

/-- What an object gives for a field: what stands under its key, or else under its second key. -/
def given? (name : FieldName) (fields : Fields Json) : Option Json :=
  (Fields.get? name.key fields).or (name.alternative.bind fun key => Fields.get? key fields)

def Optional (name : FieldName) (fields : Fields Json) : Prop :=
  ∀ data ∈ name.given? fields, data = .null ∨ ∃ text, data = .str text

def Required (name : FieldName) (fields : Fields Json) : Prop :=
  ∃ text, name.given? fields = some (.str text)

def Stated (name : FieldName) (fields : Fields Json) : Prop :=
  ∃ data, name.given? fields = some data ∧ data ≠ .null

variable {name : FieldName} {fields : Fields Json}

theorem map_supplied? (name : FieldName) (fields : Fields Json) :
    (name.supplied? fields).map (·.2) = name.given? fields := by
  unfold supplied? given?
  cases Fields.get? name.key fields with
  | some data => rfl
  | none =>
    cases name.alternative with
    | none => rfl
    | some key => cases hget : Fields.get? key fields <;> simp [hget]

theorem text?_eq (name : FieldName) (fields : Fields Json) :
    name.text? fields = (name.given? fields).bind (·.str?) := by
  rw [text?, ← map_supplied?, Option.bind_map]
  rfl

theorem text?_eq_some_iff {text : Text} :
    name.text? fields = some text ↔ name.given? fields = some (.str text) := by
  rw [text?_eq]
  rcases name.given? fields with _ | _ | _ | _ | _ | _ | _ <;> simp [Json.str?]

theorem optionalFaults_eq_nil_iff : name.optionalFaults fields = [] ↔ name.Optional fields := by
  unfold optionalFaults Optional
  rw [← map_supplied?]
  rcases name.supplied? fields with _ | ⟨key, _ | _ | _ | _ | _ | _⟩ <;> simp

theorem requiredFaults_eq_nil_iff : name.requiredFaults fields = [] ↔ name.Required fields := by
  unfold requiredFaults Required
  rw [← map_supplied?]
  rcases name.supplied? fields with _ | ⟨key, _ | _ | _ | _ | _ | _⟩ <;> simp

theorem Optional.stated_iff (h : name.Optional fields) :
    name.Stated fields ↔ (name.text? fields).isSome = true := by
  unfold Stated
  rw [text?_eq]
  unfold Optional at h
  rcases hgiven : name.given? fields with _ | data
  · simp
  · obtain rfl | ⟨text, rfl⟩ := h data hgiven
    · simp [Json.str?]
    · simp [Json.str?]

end FieldName

/-- A licence text and a licence code are each stated in one spelling at most. -/
structure Licence.OneSpelling (fields : Fields Json) : Prop where
  text : ¬ (FieldName.licence.Stated fields ∧ FieldName.license.Stated fields)
  code : ¬ (FieldName.licenceCode.Stated fields ∧ FieldName.licenseCode.Stated fields)

def WritableKeys (fields : Fields Json) : Prop :=
  ∀ key ∈ Table.keys fields, ∀ point ∈ key.points, ∃ c, point = .char c

structure Credits.Valid (fields : Fields Json) : Prop where
  texts : ∀ name ∈ FieldName.ofCredits, name.Optional fields
  spelling : Licence.OneSpelling fields

namespace Entry

def requiredTexts : List FieldName :=
  [.name, .filename]

def optionalTexts : List FieldName :=
  FieldName.ofLicence ++ [.type, .shortDescription, .longDescription, .imageUrl]

structure Valid (fields : Fields Json) : Prop where
  required : ∀ name ∈ requiredTexts, name.Required fields
  texts : ∀ name ∈ optionalTexts, name.Optional fields
  credits : ∀ data ∈ FieldName.credits.given? fields, data = .null ∨
    ∃ credits, data = .record credits ∧ Credits.Valid credits
  spelling : Licence.OneSpelling fields

structure Writable (fields : Fields Json) : Prop where
  keys : WritableKeys fields
  credits : ∀ credits, FieldName.credits.given? fields = some (.record credits) →
    WritableKeys credits

inductive HasType (group : Option Text) (fields : Fields Json) : Text → Prop
  | own {type} : FieldName.type.given? fields = some (.str type) →
      type ≠ "" → HasType group fields type
  | ofGroup {key} : (∀ type, FieldName.type.given? fields = some (.str type) → type = "") →
      group = some key → HasType group fields key

end Entry

variable {fields : Fields Json}

theorem Text.string?_ne_none_iff {text : Text} :
    text.string? ≠ none ↔ ∀ point ∈ text.points, ∃ c, point = .char c := by
  obtain ⟨points⟩ := text
  rw [string?, ne_eq, Option.map_eq_none_iff]
  induction points with
  | nil => simp
  | cons point points ih =>
    rw [List.forall_mem_cons, ← ih, List.mapM_cons]
    cases point with
    | surrogate offset => simp [CodePoint.char?]
    | char c => cases points.mapM CodePoint.char? <;> simp [CodePoint.char?]

theorem Licence.spellingFaults_eq_nil_iff (h : ∀ name ∈ FieldName.ofLicence, name.Optional fields) :
    spellingFaults fields = [] ↔ OneSpelling fields := by
  simp only [FieldName.ofLicence, List.forall_mem_cons] at h
  obtain ⟨hlicence, hlicense, hlicenceCode, hlicenseCode, -⟩ := h
  have hspelling : OneSpelling fields ↔
      ¬ (FieldName.licence.Stated fields ∧ FieldName.license.Stated fields) ∧
      ¬ (FieldName.licenceCode.Stated fields ∧ FieldName.licenseCode.Stated fields) :=
    ⟨fun h => ⟨h.text, h.code⟩, fun h => ⟨h.1, h.2⟩⟩
  rw [hspelling, hlicence.stated_iff, hlicense.stated_iff,
    hlicenceCode.stated_iff, hlicenseCode.stated_iff, ← Bool.and_eq_true, ← Bool.and_eq_true]
  unfold spellingFaults
  split
  · simp_all
  · split
    · simp_all
    · simp_all

theorem objectFaults_eq_nil_iff_writable {fieldFaults : List FieldFault} :
    objectFaults fieldFaults fields = [] ↔
      WritableKeys fields ∧ fieldFaults = [] ∧ Licence.spellingFaults fields = [] := by
  rw [objectFaults_eq_nil_iff]
  simp only [Text.string?_ne_none_iff]
  rfl

theorem Credits.faults_eq_nil_iff : faults fields = [] ↔ Valid fields ∧ WritableKeys fields := by
  rw [faults, objectFaults_eq_nil_iff_writable, List.flatMap_eq_nil_iff]
  simp only [FieldName.optionalFaults_eq_nil_iff]
  constructor
  · rintro ⟨hkeys, htexts, hspelling⟩
    have hlicence : ∀ name ∈ FieldName.ofLicence, name.Optional fields :=
      fun name hname => htexts name (List.mem_append_left _ hname)
    exact ⟨⟨htexts, (Licence.spellingFaults_eq_nil_iff hlicence).mp hspelling⟩, hkeys⟩
  · rintro ⟨⟨htexts, hspelling⟩, hkeys⟩
    have hlicence : ∀ name ∈ FieldName.ofLicence, name.Optional fields :=
      fun name hname => htexts name (List.mem_append_left _ hname)
    exact ⟨hkeys, htexts, (Licence.spellingFaults_eq_nil_iff hlicence).mpr hspelling⟩

theorem Credits.faultsIn_eq_nil_iff :
    faultsIn fields = [] ↔ ∀ data ∈ FieldName.credits.given? fields, data = .null ∨
      ∃ credits, data = .record credits ∧ Valid credits ∧ WritableKeys credits := by
  unfold faultsIn
  rw [← FieldName.map_supplied?]
  rcases FieldName.credits.supplied? fields with _ | ⟨key, _ | _ | _ | _ | _ | credits⟩
  case some.record => simp [← faults_eq_nil_iff]
  all_goals simp

theorem Entry.faults_eq_nil_iff : faults fields = [] ↔ Valid fields ∧ Writable fields := by
  rw [faults, objectFaults_eq_nil_iff_writable]
  simp only [List.append_eq_nil_iff, List.flatMap_eq_nil_iff, FieldName.optionalFaults_eq_nil_iff,
    FieldName.requiredFaults_eq_nil_iff, Credits.faultsIn_eq_nil_iff]
  constructor
  · rintro ⟨hkeys, ⟨⟨⟨hlicence, hrequired⟩, hothers⟩, hcredits⟩, hspelling⟩
    have hvalid : ∀ data ∈ FieldName.credits.given? fields, data = .null ∨
        ∃ credits, data = .record credits ∧ Credits.Valid credits := by
      intro data hdata
      refine (hcredits data hdata).imp id ?_
      rintro ⟨credits, rfl, hcredits, -⟩
      exact ⟨credits, rfl, hcredits⟩
    have hwritable : ∀ credits, FieldName.credits.given? fields = some (.record credits) →
        WritableKeys credits := by
      intro credits hgiven
      obtain hnull | ⟨_, hrecord, -, hkeys⟩ := hcredits _ hgiven
      · cases hnull
      · cases hrecord
        exact hkeys
    exact ⟨⟨hrequired, List.forall_mem_append.mpr ⟨hlicence, hothers⟩, hvalid,
      (Licence.spellingFaults_eq_nil_iff hlicence).mp hspelling⟩, ⟨hkeys, hwritable⟩⟩
  · rintro ⟨⟨hrequired, htexts, hvalid, hspelling⟩, ⟨hkeys, hwritable⟩⟩
    obtain ⟨hlicence, hothers⟩ := List.forall_mem_append.mp htexts
    refine ⟨hkeys, ⟨⟨⟨hlicence, hrequired⟩, hothers⟩, ?_⟩,
      (Licence.spellingFaults_eq_nil_iff hlicence).mpr hspelling⟩
    intro data hdata
    refine (hvalid data hdata).imp id ?_
    rintro ⟨credits, rfl, hcredits⟩
    exact ⟨credits, rfl, hcredits, hwritable credits hdata⟩

theorem Text.isEmpty_iff {text : Text} : text.isEmpty = true ↔ text = "" := by
  rw [isEmpty, List.isEmpty_iff, Text.ext_iff]
  rfl

theorem Catalog.effectiveType?_eq_some_iff {group : Option Text} {type : Text} :
    effectiveType? group fields = some type ↔ Entry.HasType group fields type := by
  unfold effectiveType?
  constructor
  · intro h
    split at h
    · rename_i own hown
      rw [FieldName.text?_eq_some_iff] at hown
      split at h
      · rename_i hnone
        refine .ofGroup (fun type htype => ?_) h
        cases hown.symm.trans htype
        exact Text.isEmpty_iff.mp hnone
      · rename_i hsome
        cases h
        exact .own hown (fun heq => hsome (Text.isEmpty_iff.mpr heq))
    · rename_i hown
      refine .ofGroup (fun type htype => ?_) h
      rw [FieldName.text?_eq_some_iff.mpr htype] at hown
      cases hown
  · intro h
    cases h with
    | own hgiven hne =>
      simp only [FieldName.text?_eq_some_iff.mpr hgiven]
      exact if_neg (fun h => hne (Text.isEmpty_iff.mp h))
    | ofGroup hgiven hgroup =>
      split
      · rename_i own hown
        rw [if_pos (Text.isEmpty_iff.mpr (hgiven own (FieldName.text?_eq_some_iff.mp hown))),
          hgroup]
      · exact hgroup

end CatalogPress
