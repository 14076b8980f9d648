import CatalogPress.Proofs.Catalog.Sections

/-!
What is known of a catalog that was accepted: nothing of the section it was read from is lost or
moved, its entries have known types and different file names, and its groups are those of the data,
each of its own type.
-/
namespace CatalogPress.Catalog
open Fallible
variable {known : List Text} {data : Json} {part : Section} {catalog : Catalog}

structure WellFormed (known : List Text) (part : Section) (catalog : Catalog) : Prop where
  entries : List.Forall₂ (Section.StandsFor known) part.items catalog.entries
  types : ∀ entry ∈ catalog.entries, entry.type ∈ known
  filenames : (catalog.entries.map (·.filename)).Nodup
  grouped_iff : catalog.groups ≠ none ↔ ∃ table, part = .table table
  keys : ∀ groups ∈ catalog.groups, Table.keys groups = Table.keys part.groups
  flat : ∀ groups ∈ catalog.groups, groups.flatMap (·.2) = catalog.entries
  typed : ∀ groups ∈ catalog.groups, ∀ group ∈ groups, ∀ entry ∈ group.2, entry.type = group.1

/-- Of the sections that data has, no more than one counts. -/
theorem Selects.unique {other : Section} (h : Selects known data part)
    (h' : Selects known data other) :
    part = other := by
  cases h <;> cases h' <;> simp_all

theorem Accepts.type_mem {group : Option Text} {item : Json} {entry : Entry}
    (h : Accepts known group item entry) : entry.type ∈ known := by
  cases h with
  | intro _ _ _ hknown => exact hknown

theorem Accepts.type_eq {key : Text} {item : Json} {entry : Entry}
    (h : Accepts known (some key) item entry) : entry.type = key := by
  cases h with
  | intro _ _ hkey _ => exact hkey key rfl

theorem AcceptsGroup.typed {given : Text × Json} {group : Text × List Entry}
    (h : AcceptsGroup known given group) : ∀ entry ∈ group.2, entry.type = group.1 := by
  cases h with
  | intro _ hitems =>
    intro entry hentry
    obtain ⟨item, -, haccepts⟩ := exists_of_forall₂ hitems entry hentry
    exact haccepts.type_eq

theorem keys_of_acceptsGroup {given : Fields Json} {groups : List (Text × List Entry)}
    (h : List.Forall₂ (AcceptsGroup known) given groups) :
    Table.keys groups = Table.keys given := by
  induction h with
  | nil => rfl
  | cons hgroup _ ih =>
    cases hgroup with
    | intro => exact congrArg _ ih

theorem Section.Gives.wellFormed (h : part.Gives known catalog) :
    WellFormed known part catalog where
  entries := h.entries
  types entry hentry := by
    obtain ⟨item, -, haccepts⟩ := exists_of_forall₂ h.entries entry hentry
    exact haccepts.type_mem
  filenames := h.nodup
  grouped_iff := by cases h <;> simp
  keys groups hgroups := by
    cases h with
    | row => cases hgroups
    | table hdata _ =>
      cases hgroups
      exact keys_of_acceptsGroup hdata
  flat groups hgroups := by
    cases h with
    | row => cases hgroups
    | table =>
      cases hgroups
      rfl
  typed groups hgroups group hgroup := by
    cases h with
    | row => cases hgroups
    | table hdata _ =>
      cases hgroups
      obtain ⟨given, -, haccepts⟩ := exists_of_forall₂ hdata group hgroup
      exact haccepts.typed

/-- An accepted catalog is well formed, as one section of the data gives it, and there is only one
that counts. -/
theorem ofJson_wellFormed (h : ofJson known data = .ok catalog) :
    ∃ part, Selects known data part ∧ (∀ other, Selects known data other → other = part) ∧
      WellFormed known part catalog := by
  obtain ⟨part, hpart, hgives⟩ := ofJson_eq_ok_iff.mp h
  exact ⟨part, hpart, fun other hother => hother.unique hpart, hgives.wellFormed⟩

/-- Groups in an order of their own, one of them empty, with entries that take their types from
them. -/
theorem ofJson_wellFormed_of_groups :
    let entry (name : Text) : Json := .record [("name", .str name), ("filename", .str name)]
    let table : Fields Json :=
      [("GFX", .list [entry "a", entry "b"]), ("VFX", .list []), ("BGX", .list [entry "c"])]
    ∃ catalog, ofJson ["BGX", "GFX", "VFX"] (.record table) = .ok catalog ∧
      catalog.groups.map Table.keys = some (["GFX", "VFX", "BGX"] : List Text) ∧
      ∃ part, Selects ["BGX", "GFX", "VFX"] (.record table) part ∧
        (∀ other, Selects ["BGX", "GFX", "VFX"] (.record table) other → other = part) ∧
        WellFormed ["BGX", "GFX", "VFX"] part catalog := by
  intro entry table
  have hkeys : (ofJson ["BGX", "GFX", "VFX"] (.record table)).map (·.groups.map Table.keys) =
      .ok (some (["GFX", "VFX", "BGX"] : List Text)) := by
    rfl
  obtain ⟨catalog, hcatalog, hgroups⟩ := map_eq_ok.mp hkeys
  exact ⟨catalog, hcatalog, hgroups, ofJson_wellFormed hcatalog⟩

end CatalogPress.Catalog
