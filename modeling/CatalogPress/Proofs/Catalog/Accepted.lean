import CatalogPress.Catalog.Basic
import CatalogPress.Proofs.Fallible
import Mathlib.Data.List.Basic

/-!
Which catalogs are accepted, said without the order in which they are checked: an item stands for an
entry, a list for the entries of its items, and no two entries may share a file name.
-/
namespace CatalogPress
open Fallible

theorem objectFaults_eq_nil_iff {fieldFaults : List FieldFault} {fields : Fields Json} :
    objectFaults fieldFaults fields = [] ↔
      (∀ key ∈ Table.keys fields, key.string? ≠ none) ∧ fieldFaults = [] ∧
      Licence.spellingFaults fields = [] := by
  unfold objectFaults
  have hany : (Table.keys fields).any (·.string?.isNone) = true ↔
      ¬ ∀ key ∈ Table.keys fields, key.string? ≠ none := by
    simp
  by_cases hkeys : ∀ key ∈ Table.keys fields, key.string? ≠ none
  · rw [if_neg (by rw [hany]; exact not_not.mpr hkeys), and_iff_right hkeys]
    by_cases hfaults : fieldFaults = [] <;> simp [hfaults]
  · rw [if_pos (hany.mpr hkeys)]
    simp only [hkeys, false_and, iff_false]
    exact List.cons_ne_nil _ _

namespace Catalog

/-- An item of a catalog, in a group or in none, that stands for an entry. -/
inductive Accepts (known : List Text) (group : Option Text) : Json → Entry → Prop
  | intro {fields type} : Entry.faults fields = [] → effectiveType? group fields = some type →
      (∀ key ∈ group, type = key) → type ∈ known →
      Accepts known group (.record fields) (Entry.ofFields type fields)

inductive AcceptsGroup (known : List Text) : Text × Json → Text × List Entry → Prop
  | intro {key items entries} : key ∈ known →
      List.Forall₂ (Accepts known (some key)) items entries →
      AcceptsGroup known (key, .list items) (key, entries)

theorem readEntry_record {known : List Text} {group : Option Text} {place type : Text}
    {fields : Fields Json} {entry : Entry} (hfaults : Entry.faults fields = [])
    (htype : effectiveType? group fields = some type) :
    readEntry known group place (.record fields) = .ok entry ↔
      (∀ key ∈ group, type = key) ∧ type ∈ known ∧ Entry.ofFields type fields = entry := by
  cases group with
  | none => by_cases hknown : type ∈ known <;> simp [readEntry, hfaults, htype, hknown]
  | some key =>
    by_cases hkey : type = key
    · by_cases hknown : key ∈ known <;> simp [readEntry, hfaults, htype, hkey, hknown]
    · simp [readEntry, hfaults, htype, hkey]

theorem readEntry_eq_ok_iff {known : List Text} {group : Option Text} {place : Text} {item : Json}
    {entry : Entry} :
    readEntry known group place item = .ok entry ↔ Accepts known group item entry := by
  constructor
  · intro h
    cases item with
    | record fields =>
      by_cases hfaults : Entry.faults fields = []
      · cases htype : effectiveType? group fields with
        | none => simp [readEntry, hfaults, htype] at h
        | some type =>
          obtain ⟨hgroup, hknown, rfl⟩ := (readEntry_record hfaults htype).mp h
          exact .intro hfaults htype hgroup hknown
      · simp [readEntry, hfaults] at h
    | _ => cases h
  · rintro ⟨hfaults, htype, hgroup, hknown⟩
    exact (readEntry_record hfaults htype).mpr ⟨hgroup, hknown, rfl⟩

theorem readItems_eq_ok_iff {known : List Text} {group : Option Text} {place : Text} {first : Nat}
    {items : List Json} {entries : List Entry} :
    readItems known group place first items = .ok entries ↔
      List.Forall₂ (Accepts known group) items entries := by
  induction items generalizing first entries with
  | nil =>
    rw [readItems, List.forall₂_nil_left_iff, Except.ok.injEq, eq_comm]
  | cons item items ih =>
    rw [readItems, bind_eq_ok]
    simp only [bind_eq_ok, ih, readEntry_eq_ok_iff, List.forall₂_cons_left_iff]
    constructor
    · rintro ⟨entry, hentry, rest, hrest, h⟩
      cases h
      exact ⟨entry, rest, hentry, hrest, rfl⟩
    · rintro ⟨entry, rest, hentry, hrest, rfl⟩
      exact ⟨entry, hentry, rest, hrest, rfl⟩

theorem readGroup_eq_ok_iff {known : List Text} {key : Text} {items : Json}
    {group : Text × List Entry} :
    readGroup known key items = .ok group ↔ AcceptsGroup known (key, items) group := by
  constructor
  · intro h
    unfold readGroup at h
    split at h
    · cases h
    · rename_i hknown
      split at h
      · obtain ⟨entries, hentries, rfl⟩ := map_eq_ok.mp h
        exact .intro (by simpa using hknown) (readItems_eq_ok_iff.mp hentries)
      · cases h
  · intro h
    cases h with
    | intro hknown hentries =>
      unfold readGroup
      rw [if_neg (by simpa using hknown)]
      exact map_eq_ok.mpr ⟨_, readItems_eq_ok_iff.mpr hentries, rfl⟩

theorem repeatedFilename?_eq_none_iff {seen : List Text} {entries : List Entry} :
    repeatedFilename? seen entries = none ↔
      (∀ entry ∈ entries, entry.filename ∉ seen) ∧ (entries.map (·.filename)).Nodup := by
  induction entries generalizing seen with
  | nil => simp [repeatedFilename?]
  | cons entry entries ih =>
    unfold repeatedFilename?
    by_cases hseen : entry.filename ∈ seen
    · simp [hseen]
    · rw [if_neg hseen, ih, List.map_cons, List.nodup_cons]
      simp only [List.mem_cons, not_or, forall_and, forall_eq_or_imp,
        hseen, List.mem_map, not_exists, not_and]
      grind

theorem finish_eq_ok_iff {entries : List Entry}
    {groups : Option (Table Text (List Entry))} {catalog : Catalog} :
    finish entries groups = .ok catalog ↔
      (entries.map (·.filename)).Nodup ∧ catalog = ⟨entries, groups⟩ := by
  unfold finish
  cases hrepeated : repeatedFilename? [] entries with
  | none =>
    have hnodup := (repeatedFilename?_eq_none_iff.mp hrepeated).2
    simp [hnodup, eq_comm]
  | some filename =>
    have hnodup : ¬ (entries.map (·.filename)).Nodup := by
      intro h
      rw [repeatedFilename?_eq_none_iff.mpr ⟨by simp, h⟩] at hrepeated
      cases hrepeated
    simp [hnodup]

theorem ofList_eq_ok_iff {known : List Text} {place : Text}
    {items : List Json} {catalog : Catalog} :
    ofList known place items = .ok catalog ↔
      ∃ entries, List.Forall₂ (Accepts known none) items entries ∧
        (entries.map (·.filename)).Nodup ∧ catalog = ⟨entries, none⟩ := by
  unfold ofList
  simp only [bind_eq_ok, readItems_eq_ok_iff, finish_eq_ok_iff]

theorem ofGroups_eq_ok_iff {known : List Text} {data : Fields Json} {catalog : Catalog} :
    ofGroups known data = .ok catalog ↔
      ∃ groups, List.Forall₂ (AcceptsGroup known) data groups ∧
        ((groups.flatMap (·.2)).map (·.filename)).Nodup ∧
        catalog = ⟨groups.flatMap (·.2), some groups⟩ := by
  unfold ofGroups
  simp only [bind_eq_ok, mapM_eq_ok_iff, readGroup_eq_ok_iff, finish_eq_ok_iff]

theorem ofJson_eq_ok {known : List Text} {data : Json} {catalog : Catalog}
    (h : ofJson known data = .ok catalog) :
    (∃ place items, ofList known place items = .ok catalog) ∨
      ∃ groups, ofGroups known groups = .ok catalog := by
  unfold ofJson at h
  split at h
  · exact .inl ⟨_, _, h⟩
  · split at h
    · exact .inr ⟨_, h⟩
    · split at h
      · exact .inl ⟨_, _, h⟩
      · split at h
        · exact .inr ⟨_, h⟩
        · cases h
  · cases h

end Catalog
end CatalogPress
