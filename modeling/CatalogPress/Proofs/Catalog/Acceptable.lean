import CatalogPress.Proofs.Catalog.Sections
import CatalogPress.Proofs.Catalog.Valid
import Mathlib.Data.List.Nodup

/-!
Which data is a catalog: the section that counts has known groups and valid entries of known types,
in no two of them under one file name. Entries whose keys cannot be written are refused beyond that.
-/
namespace CatalogPress.Catalog
open Fallible

/-- An item with its group is a valid entry: its type is known, and it is that of the group. -/
inductive ValidItem (known : List Text) : Option Text × Json → Prop
  | intro {group fields type} : Entry.Valid fields → Entry.HasType group fields type →
      type ∈ known → (∀ key ∈ group, type = key) → ValidItem known (group, .record fields)

def givenFilename? (item : Json) : Option Json :=
  item.record?.bind FieldName.filename.given?

namespace Section

structure Valid (known : List Text) (part : Section) : Prop where
  groups : ∀ group ∈ part.groups, group.1 ∈ known ∧ ∃ items, group.2 = .list items
  items : ∀ item ∈ part.items, ValidItem known item
  filenames : (part.items.map fun item => givenFilename? item.2).Nodup

def Writable (part : Section) : Prop :=
  ∀ item ∈ part.items, ∀ fields, item.2 = .record fields → Entry.Writable fields

variable {known : List Text} {part : Section}

theorem exists_standsFor_iff {item : Option Text × Json} :
    (∃ entry, StandsFor known item entry) ↔
      ValidItem known item ∧ ∀ fields, item.2 = .record fields → Entry.Writable fields := by
  obtain ⟨group, data⟩ := item
  constructor
  · rintro ⟨entry, h⟩
    cases h with
    | intro hfaults htype hgroup hknown =>
      obtain ⟨hvalid, hwritable⟩ := Entry.faults_eq_nil_iff.mp hfaults
      refine ⟨.intro hvalid (effectiveType?_eq_some_iff.mp htype) hknown hgroup,
        fun fields heq => ?_⟩
      cases heq
      exact hwritable
  · rintro ⟨⟨hvalid, htype, hknown, hgroup⟩, hwritable⟩
    have hfaults := Entry.faults_eq_nil_iff.mpr ⟨hvalid, hwritable _ rfl⟩
    exact ⟨_, .intro hfaults (effectiveType?_eq_some_iff.mpr htype) hgroup hknown⟩

theorem givenFilename?_of_standsFor {item : Option Text × Json} {entry : Entry}
    (h : StandsFor known item entry) : givenFilename? item.2 = some (.str entry.filename) := by
  obtain ⟨group, data⟩ := item
  cases h with
  | @intro fields type hfaults =>
    obtain ⟨hvalid, -⟩ := Entry.faults_eq_nil_iff.mp hfaults
    obtain ⟨text, hgiven⟩ := hvalid.required .filename (by decide)
    have htext : FieldName.filename.text? fields = some text :=
      FieldName.text?_eq_some_iff.mpr hgiven
    change FieldName.filename.given? fields =
      some (.str ((FieldName.filename.text? fields).getD ""))
    rw [hgiven, htext]
    rfl

/-- The entries have different file names exactly if the items give different ones. -/
theorem nodup_filenames_iff {items : List (Option Text × Json)} {entries : List Entry}
    (h : List.Forall₂ (StandsFor known) items entries) :
    (entries.map (·.filename)).Nodup ↔ (items.map fun item => givenFilename? item.2).Nodup := by
  have hgiven : (items.map fun item => givenFilename? item.2) =
      (entries.map (·.filename)).map fun text => some (.str text) := by
    rw [List.map_map, ← List.forall₂_eq_eq_eq, List.forall₂_map_left_iff,
      List.forall₂_map_right_iff]
    exact h.imp fun _ _ => givenFilename?_of_standsFor
  rw [hgiven]
  refine (List.nodup_map_iff fun a b hab => ?_).symm
  cases hab
  rfl

theorem exists_gives_iff_valid : (∃ catalog, Gives known part catalog) ↔
    part.Valid known ∧ part.Writable := by
  rw [exists_gives_iff]
  constructor
  · rintro ⟨hgroups, entries, hentries, hnodup⟩
    have hitems := exists_forall₂_iff.mp ⟨_, hentries⟩
    have hvalid := fun item hitem => (exists_standsFor_iff.mp (hitems item hitem)).1
    have hwritable := fun item hitem => (exists_standsFor_iff.mp (hitems item hitem)).2
    exact ⟨⟨hgroups, hvalid, (nodup_filenames_iff hentries).mp hnodup⟩, hwritable⟩
  · rintro ⟨hvalid, hwritable⟩
    have hitems : ∀ item ∈ part.items, ∃ entry, StandsFor known item entry :=
      fun item hitem => exists_standsFor_iff.mpr ⟨hvalid.items item hitem, hwritable item hitem⟩
    obtain ⟨entries, hentries⟩ := exists_forall₂_iff.mpr hitems
    exact ⟨hvalid.groups, entries, hentries, (nodup_filenames_iff hentries).mpr hvalid.filenames⟩

end Section

/-- Data is a catalog if it has a section that counts, and that section is valid and can be
written. -/
theorem accepted_iff_valid {known : List Text} {data : Json} :
    (∃ catalog, ofJson known data = .ok catalog) ↔
      ∃ part, Selects known data part ∧ part.Valid known ∧ part.Writable := by
  simp only [ofJson_eq_ok_iff]
  rw [exists_comm]
  simp only [exists_and_left, Section.exists_gives_iff_valid]

theorem zero_lt_surrogates : 0 < 0x800 := by decide

def unwritableFields : Fields Json :=
  [("name", .str "a"), ("filename", .str "b"), ("type", .str "BGX"),
    (⟨[.surrogate ⟨0, zero_lt_surrogates⟩]⟩, .int 1)]

/-- A valid entry is refused for a key that cannot be written. -/
theorem valid_refused :
    Selects ["BGX"] (.list [.record unwritableFields]) (.row [.record unwritableFields]) ∧
    (Section.row [.record unwritableFields]).Valid ["BGX"] ∧
    ofJson ["BGX"] (.list [.record unwritableFields]) =
      .error (.invalidEntry "[0]" [⟨[], .unwritableKey⟩]) := by
  have hrequired : ∀ name ∈ Entry.requiredTexts, name.Required unwritableFields := by
    simp only [← FieldName.requiredFaults_eq_nil_iff]
    decide
  have htexts : ∀ name ∈ Entry.optionalTexts, name.Optional unwritableFields := by
    simp only [← FieldName.optionalFaults_eq_nil_iff]
    decide
  have hspelling : Licence.OneSpelling unwritableFields :=
    (Licence.spellingFaults_eq_nil_iff
      fun name hname => htexts name (List.mem_append_left _ hname)).mp rfl
  have hvalid : Entry.Valid unwritableFields := ⟨hrequired, htexts, nofun, hspelling⟩
  have hitem : ValidItem ["BGX"] (none, .record unwritableFields) :=
    .intro hvalid (.own rfl (by decide)) List.mem_cons_self nofun
  exact ⟨.list, ⟨nofun, List.forall_mem_singleton.mpr hitem, List.nodup_singleton _⟩, by rfl⟩

end CatalogPress.Catalog
