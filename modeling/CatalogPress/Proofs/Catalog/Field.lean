import CatalogPress.Catalog.Field
import CatalogPress.Proofs.Table

/-!
Reading single fields of an object: a field is read from its own key if that is there, and writing
to a key does not change the fields that are never read from it.
-/
namespace CatalogPress

namespace FieldName

def Avoids (name : FieldName) (key : String) : Prop :=
  name.key ≠ key ∧ name.alternative ≠ some key

instance (name : FieldName) (key : String) : Decidable (name.Avoids key) :=
  inferInstanceAs (Decidable (_ ∧ _))

variable {name : FieldName} {key : String} (data : Json) (fields : Fields Json)

theorem supplied?_put (h : name.Avoids key) :
    name.supplied? (Fields.put key data fields) = name.supplied? fields := by
  obtain ⟨hkey, halternative⟩ := h
  have hget {other : String} (hother : other ≠ key) :
      Fields.get? (other : Text) (Fields.put key data fields) = Fields.get? other fields :=
    Table.get?_put_of_ne (fun heq => hother (Text.ofString_inj heq)) data fields
  unfold supplied?
  rw [hget hkey]
  cases halt : name.alternative with
  | none => rfl
  | some other =>
    rw [Option.bind_some, hget (by rintro rfl; exact halternative halt)]
    rfl

theorem text?_put (h : name.Avoids key) :
    name.text? (Fields.put key data fields) = name.text? fields := by
  unfold text?
  rw [supplied?_put data fields h]

theorem optionalFaults_put (h : name.Avoids key) :
    name.optionalFaults (Fields.put key data fields) = name.optionalFaults fields := by
  unfold optionalFaults
  rw [supplied?_put data fields h]

theorem requiredFaults_put (h : name.Avoids key) :
    name.requiredFaults (Fields.put key data fields) = name.requiredFaults fields := by
  unfold requiredFaults
  rw [supplied?_put data fields h]

theorem supplied?_put_self (name : FieldName) :
    name.supplied? (Fields.put name.key data fields) = some (name.key, data) := by
  unfold supplied? Fields.get? Fields.put
  rw [Table.get?_put_self]

theorem exists_supplied_of_mem {fields : Fields Json} (h : (name.key : Text) ∈ Table.keys fields) :
    ∃ data, name.supplied? fields = some (name.key, data) := by
  cases hdata : Fields.get? name.key fields with
  | none => exact absurd h (Table.get?_eq_none_iff.mp hdata)
  | some data =>
    refine ⟨data, ?_⟩
    unfold supplied?
    rw [hdata]

variable {names : List FieldName}

def readKeys (names : List FieldName) (fields : Fields Json) : List Text :=
  names.filterMap fun name => (name.supplied? fields).map (Text.ofString ·.1)

theorem unknown_eq_filter :
    unknown names fields = fields.filter
      fun field => !(readKeys names fields).contains field.1 := rfl

theorem mem_readKeys_of_mem {fields : Fields Json} (hname : name ∈ names)
    (hkey : (name.key : Text) ∈ Table.keys fields) : (name.key : Text) ∈ readKeys names fields := by
  obtain ⟨data, hdata⟩ := exists_supplied_of_mem hkey
  exact List.mem_filterMap.mpr ⟨name, hname, by rw [hdata]; rfl⟩

theorem key_not_mem_unknown (h : name ∈ names) :
    (name.key : Text) ∉ Table.keys (unknown names fields) := by
  intro hkey
  obtain ⟨field, hfield, hname⟩ := List.mem_map.mp hkey
  obtain ⟨hmem, hunknown⟩ := List.mem_filter.mp hfield
  have hread := mem_readKeys_of_mem h (hname ▸ Table.mem_keys_of_mem hmem)
  rw [← hname] at hread
  change (!(readKeys names fields).contains field.1) = true at hunknown
  rw [List.contains_iff_mem.mpr hread] at hunknown
  cases hunknown

theorem eq_key_of_supplied {fields : Fields Json} {read : String × Json}
    (halternative : name.alternative = none) (h : name.supplied? fields = some read) :
    read.1 = name.key := by
  unfold supplied? at h
  rw [halternative] at h
  split at h
  · cases h
    rfl
  · cases h

theorem unknown_put (hname : name ∈ names) (halternative : name.alternative = none)
    (hothers : ∀ other ∈ names, other ≠ name → other.Avoids name.key) :
    unknown names (Fields.put name.key data fields) = unknown names fields := by
  have hself : (name.key : Text) ∈ readKeys names (Fields.put name.key data fields) :=
    List.mem_filterMap.mpr ⟨name, hname, by rw [supplied?_put_self]; rfl⟩
  have hread : ∀ field ∈ fields, field.1 ∈ readKeys names (Fields.put name.key data fields) ↔
      field.1 ∈ readKeys names fields := by
    intro field hfield
    by_cases hkey : field.1 = name.key
    · have hmem : (name.key : Text) ∈ Table.keys fields := hkey ▸ Table.mem_keys_of_mem hfield
      rw [hkey]
      exact iff_of_true hself (mem_readKeys_of_mem hname hmem)
    · unfold readKeys
      rw [List.mem_filterMap, List.mem_filterMap]
      refine exists_congr fun other => and_congr_right fun hother => ?_
      by_cases heq : other = name
      · -- The field itself is read from its own key only, and this is another one.
        subst heq
        have hnot (record : Fields Json) :
            ¬ (other.supplied? record).map (Text.ofString ·.1) = some field.1 := by
          intro h
          obtain ⟨read, hread, hfield⟩ := Option.map_eq_some_iff.mp h
          exact hkey (by rw [← hfield, eq_key_of_supplied halternative hread])
        exact iff_of_false (hnot _) (hnot _)
      · rw [supplied?_put data fields (hothers other hother heq)]
  have hdropped :
      (!(readKeys names (Fields.put name.key data fields)).contains (name.key : Text)) = false := by
    rw [List.contains_iff_mem.mpr hself]
    rfl
  rw [unknown_eq_filter, unknown_eq_filter,
    Table.filter_put_of_neg (p := fun key => !List.contains _ key) hdropped]
  refine List.filter_congr fun field hfield => ?_
  rw [Bool.eq_iff_iff]
  simpa using not_congr (hread field hfield)

end FieldName
end CatalogPress
