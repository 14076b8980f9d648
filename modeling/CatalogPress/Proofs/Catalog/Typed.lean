import CatalogPress.Proofs.Catalog.Accepted
import CatalogPress.Proofs.Catalog.Field

/-!
Entries that name their type. Writing the key of its group into the object of an entry changes
nothing else that is read from it, so the object stands for the same entry, now without a group.
-/
namespace CatalogPress
open Fallible

theorem Licence.ofFields_put {key : String} (h : ∀ name ∈ FieldName.ofLicence, name.Avoids key)
    (data : Json) (fields : Fields Json) :
    ofFields (Fields.put key data fields) = ofFields fields := by
  simp only [FieldName.ofLicence, List.forall_mem_cons] at h
  obtain ⟨hlicence, hlicense, hlicenceCode, hlicenseCode, -⟩ := h
  simp only [ofFields, FieldName.text?_put, hlicence, hlicense, hlicenceCode, hlicenseCode]

theorem Licence.spellingFaults_put {key : String}
    (h : ∀ name ∈ FieldName.ofLicence, name.Avoids key) (data : Json) (fields : Fields Json) :
    spellingFaults (Fields.put key data fields) = spellingFaults fields := by
  simp only [FieldName.ofLicence, List.forall_mem_cons] at h
  obtain ⟨hlicence, hlicense, hlicenceCode, hlicenseCode, -⟩ := h
  simp only [spellingFaults, FieldName.text?_put, hlicence, hlicense, hlicenceCode, hlicenseCode]

namespace Entry

def typed (type : Text) (fields : Fields Json) : Fields Json :=
  Fields.put "type" (.str type) fields

theorem typed_eq (type : Text) (fields : Fields Json) :
    typed type fields = Fields.put FieldName.type.key (.str type) fields := rfl

theorem ofFields_typed (type : Text) (fields : Fields Json) :
    ofFields type (typed type fields) = ofFields type fields := by
  have hname : FieldName.type ∈ FieldName.ofEntry := by decide
  have hunknown : FieldName.unknown FieldName.ofEntry (typed type fields) =
      FieldName.unknown FieldName.ofEntry fields := by
    rw [typed_eq]
    exact FieldName.unknown_put _ fields hname rfl (by decide)
  have hlicence : Licence.ofFields (typed type fields) = Licence.ofFields fields :=
    Licence.ofFields_put (by decide) _ _
  have hcredits :
      FieldName.credits.supplied? (typed type fields) = FieldName.credits.supplied? fields :=
    FieldName.supplied?_put _ _ (by decide)
  have htext {name : FieldName} (h : name.Avoids "type") :
      name.text? (typed type fields) = name.text? fields :=
    FieldName.text?_put _ _ h
  simp (disch := decide) only [ofFields, hunknown, hlicence, hcredits, htext]

theorem faults_typed {fields : Fields Json} (h : faults fields = []) (type : Text) :
    faults (typed type fields) = [] := by
  simp only [faults, objectFaults_eq_nil_iff, List.append_eq_nil_iff,
    List.flatMap_eq_nil_iff] at h ⊢
  obtain ⟨hkeys, ⟨⟨⟨hlicence, hrequired⟩, hoptional⟩, hcredits⟩, hspelling⟩ := h
  refine ⟨?_, ⟨⟨⟨?_, ?_⟩, ?_⟩, ?_⟩, ?_⟩
  · intro key hkey
    rw [typed, Table.keys_put] at hkey
    split at hkey
    · exact hkeys key hkey
    · obtain hkey | hkey := List.mem_append.mp hkey
      · exact hkeys key hkey
      · rw [List.mem_singleton.mp hkey, Text.string?_ofString]
        exact Option.some_ne_none _
  · intro name hname
    rw [typed, FieldName.optionalFaults_put _ _ (by revert name; decide)]
    exact hlicence name hname
  · intro name hname
    rw [typed, FieldName.requiredFaults_put _ _ (by revert name; decide)]
    exact hrequired name hname
  · intro name hname
    by_cases htype : name = .type
    · subst htype
      rw [typed_eq, FieldName.optionalFaults, FieldName.supplied?_put_self]
    · rw [typed, FieldName.optionalFaults_put _ _ (by revert name; decide)]
      exact hoptional name hname
  · rw [Credits.faultsIn, typed, FieldName.supplied?_put _ _ (by decide)]
    exact hcredits
  · rw [typed, Licence.spellingFaults_put (by decide)]
    exact hspelling

end Entry

namespace Catalog

structure Fits (known : List Text) (key : Text) (fields : Fields Json) : Prop where
  faultless : Entry.faults fields = []
  type : effectiveType? (some key) fields = some key
  known : key ∈ known

theorem accepts_some_iff {known : List Text} {key : Text} {fields : Fields Json} {entry : Entry} :
    Accepts known (some key) (.record fields) entry ↔
      Fits known key fields ∧ Entry.ofFields key fields = entry := by
  constructor
  · rintro ⟨hfaults, htype, hgroup, hknown⟩
    cases hgroup key rfl
    exact ⟨⟨hfaults, htype, hknown⟩, rfl⟩
  · rintro ⟨⟨hfaults, htype, hknown⟩, rfl⟩
    exact .intro hfaults htype (by simp) hknown

theorem Fits.accepts_typed {known : List Text} {key : Text} {fields : Fields Json}
    (h : Fits known key fields) (hkey : key.isEmpty = false) :
    Accepts known none (.record (Entry.typed key fields)) (Entry.ofFields key fields) := by
  have htype : effectiveType? none (Entry.typed key fields) = some key := by
    have htext : FieldName.type.text? (Entry.typed key fields) = some key := by
      rw [Entry.typed_eq, FieldName.text?, FieldName.supplied?_put_self]
      rfl
    simp [effectiveType?, htext, hkey]
  rw [← Entry.ofFields_typed]
  exact .intro (Entry.faults_typed h.faultless key) htype nofun h.known

end Catalog
end CatalogPress
