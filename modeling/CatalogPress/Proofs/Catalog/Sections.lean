import CatalogPress.Proofs.Catalog.Accepted

/-!
Where a catalog is found in data: the whole is a list, or a section of it holds groups or a list, or
the whole are groups. What is read are the items of the one section that counts, each with the group
in which it stands.
-/
namespace CatalogPress.Catalog
open Fallible

/-- The part of the data that holds the entries: a row of items or a table of groups. -/
inductive Section where
  | row (items : List Json)
  | table (groups : Fields Json)

/-- A section of an object counts if it holds what it should and none of those before it does. -/
inductive Selects (known : List Text) : Json → Section → Prop
  | list {items} : Selects known (.list items) (.row items)
  | grouped {fields groups} : Fields.get? "grouped" fields = some (.record groups) →
      Selects known (.record fields) (.table groups)
  | shaders {fields items} : (∀ groups, Fields.get? "grouped" fields ≠ some (.record groups)) →
      Fields.get? "shaders" fields = some (.list items) →
      Selects known (.record fields) (.row items)
  | entries {fields items} : (∀ groups, Fields.get? "grouped" fields ≠ some (.record groups)) →
      (∀ items, Fields.get? "shaders" fields ≠ some (.list items)) →
      Fields.get? "entries" fields = some (.list items) →
      Selects known (.record fields) (.row items)
  | whole {fields : Fields Json} :
      (∀ groups, Fields.get? "grouped" fields ≠ some (.record groups)) →
      (∀ items, Fields.get? "shaders" fields ≠ some (.list items)) →
      (∀ items, Fields.get? "entries" fields ≠ some (.list items)) →
      fields ≠ [] → (∀ key ∈ Table.keys fields, key ∈ known) →
      Selects known (.record fields) (.table fields)

namespace Section

def groups : Section → Fields Json
  | row _ => []
  | table groups => groups

def items : Section → List (Option Text × Json)
  | row items => items.map fun item => (none, item)
  | table groups =>
    groups.flatMap fun group => (group.2.list?.getD []).map fun item => (some group.1, item)

def StandsFor (known : List Text) (item : Option Text × Json) (entry : Entry) : Prop :=
  Accepts known item.1 item.2 entry

/-- The items stand for the entries of a catalog, which has groups if they have. -/
inductive Gives (known : List Text) : Section → Catalog → Prop
  | row {items entries} : List.Forall₂ (Accepts known none) items entries →
      (entries.map (·.filename)).Nodup → Gives known (.row items) ⟨entries, none⟩
  | table {data : Fields Json} {groups : List (Text × List Entry)} :
      List.Forall₂ (AcceptsGroup known) data groups →
      ((groups.flatMap (·.2)).map (·.filename)).Nodup →
      Gives known (.table data) ⟨groups.flatMap (·.2), some groups⟩

variable {known : List Text} {part : Section} {catalog : Catalog}

theorem gives_row_iff {items : List Json} (place : Text) :
    Gives known (.row items) catalog ↔ ofList known place items = .ok catalog := by
  rw [ofList_eq_ok_iff]
  constructor
  · rintro ⟨hentries, hnodup⟩
    exact ⟨_, hentries, hnodup, rfl⟩
  · rintro ⟨entries, hentries, hnodup, rfl⟩
    exact .row hentries hnodup

theorem gives_table_iff {data : Fields Json} :
    Gives known (.table data) catalog ↔ ofGroups known data = .ok catalog := by
  rw [ofGroups_eq_ok_iff]
  constructor
  · intro h
    cases h with
    | table hgroups hnodup => exact ⟨_, hgroups, hnodup, rfl⟩
  · rintro ⟨groups, hgroups, hnodup, rfl⟩
    exact .table hgroups hnodup

theorem forall₂_standsFor_iff {group : Option Text} {items : List Json} {entries : List Entry} :
    List.Forall₂ (StandsFor known) (items.map fun item => (group, item)) entries ↔
      List.Forall₂ (Accepts known group) items entries :=
  List.forall₂_map_left_iff

theorem standsFor_of_acceptsGroup {data : Fields Json} {groups : List (Text × List Entry)}
    (h : List.Forall₂ (AcceptsGroup known) data groups) :
    List.Forall₂ (StandsFor known) (items (.table data)) (groups.flatMap (·.2)) := by
  induction h with
  | nil => exact .nil
  | cons hgroup _ ih =>
    cases hgroup with
    | intro _ hitems => exact List.rel_append (forall₂_standsFor_iff.mpr hitems) ih

theorem exists_acceptsGroup {key : Text} {items : List Json} (hkey : key ∈ known)
    (hitems : ∀ item ∈ items, ∃ entry, Accepts known (some key) item entry) :
    ∃ group, AcceptsGroup known (key, .list items) group := by
  obtain ⟨entries, hentries⟩ := exists_forall₂_iff.mpr hitems
  exact ⟨_, .intro hkey hentries⟩

theorem standsFor_rightUnique : Relator.RightUnique (StandsFor known) := by
  intro item a b ha hb
  have hread {entry : Entry} (h : StandsFor known item entry) :
      readEntry known item.1 "" item.2 = .ok entry :=
    readEntry_eq_ok_iff.mpr h
  exact Except.ok.inj ((hread ha).symm.trans (hread hb))

theorem Gives.entries (h : Gives known part catalog) :
    List.Forall₂ (StandsFor known) part.items catalog.entries := by
  cases h with
  | row hentries _ => exact forall₂_standsFor_iff.mpr hentries
  | table hgroups _ => exact standsFor_of_acceptsGroup hgroups

theorem Gives.grouped (h : Gives known part catalog) :
    ∀ group ∈ part.groups, group.1 ∈ known ∧ ∃ items, group.2 = .list items := by
  cases h with
  | row => exact nofun
  | table hgroups _ =>
    intro group hgroup
    obtain ⟨_, haccepts⟩ := exists_forall₂_iff.mp ⟨_, hgroups⟩ group hgroup
    cases haccepts with
    | intro hkey _ => exact ⟨hkey, _, rfl⟩

theorem Gives.nodup (h : Gives known part catalog) : (catalog.entries.map (·.filename)).Nodup := by
  cases h with
  | row _ hnodup => exact hnodup
  | table _ hnodup => exact hnodup

theorem exists_gives_iff :
    (∃ catalog, Gives known part catalog) ↔
      (∀ group ∈ part.groups, group.1 ∈ known ∧ ∃ items, group.2 = .list items) ∧
      ∃ entries, List.Forall₂ (StandsFor known) part.items entries ∧
      (entries.map (·.filename)).Nodup := by
  constructor
  · rintro ⟨catalog, h⟩
    exact ⟨h.grouped, _, h.entries, h.nodup⟩
  · rintro ⟨hgrouped, entries, hentries, hnodup⟩
    cases part with
    | row items => exact ⟨_, .row (forall₂_standsFor_iff.mp hentries) hnodup⟩
    | table data =>
      have hgroups : ∀ group ∈ data, ∃ given, AcceptsGroup known group given := by
        rintro ⟨key, data⟩ hgroup
        obtain ⟨hkey, items, rfl⟩ := hgrouped _ hgroup
        refine exists_acceptsGroup hkey fun item hitem => ?_
        refine exists_forall₂_iff.mp ⟨_, hentries⟩ (some key, item) ?_
        exact List.mem_flatMap.mpr ⟨_, hgroup, List.mem_map_of_mem hitem⟩
      obtain ⟨groups, hgroups⟩ := exists_forall₂_iff.mpr hgroups
      have hsame := List.right_unique_forall₂' standsFor_rightUnique
        (standsFor_of_acceptsGroup hgroups) hentries
      exact ⟨_, .table hgroups (hsame ▸ hnodup)⟩

end Section

variable {known : List Text}

theorem bind_record?_eq_none {data? : Option Json} (h : ∀ fields, data? ≠ some (.record fields)) :
    data?.bind (·.record?) = none := by
  rcases data? with _ | _ | _ | _ | _ | _ | fields
  case some.record => exact absurd rfl (h fields)
  all_goals rfl

theorem bind_list?_eq_none {data? : Option Json} (h : ∀ items, data? ≠ some (.list items)) :
    data?.bind (·.list?) = none := by
  rcases data? with _ | _ | _ | _ | _ | items | _
  case some.list => exact absurd rfl (h items)
  all_goals rfl

theorem listSection?_of_shaders {fields : Fields Json} {items : List Json}
    (h : Fields.get? "shaders" fields = some (.list items)) :
    listSection? fields = some (("shaders" : Text), items) := by
  rw [listSection?, listSections, List.findSome?_cons, h]
  rfl

theorem listSection?_of_no_shaders {fields : Fields Json}
    (h : ∀ items, Fields.get? "shaders" fields ≠ some (.list items)) :
    listSection? fields =
      ((Fields.get? "entries" fields).bind (·.list?)).map (("entries" : Text), ·) := by
  rw [listSection?, listSections, List.findSome?_cons,
    bind_list?_eq_none h, List.findSome?_singleton]
  rfl

theorem ofJson_of_selects {data : Json} {part : Section}
    (h : Selects known data part) (catalog : Catalog) :
    ofJson known data = .ok catalog ↔ part.Gives known catalog := by
  cases h with
  | list => exact (Section.gives_row_iff "").symm
  | grouped hgroups =>
    rw [Section.gives_table_iff, ofJson, hgroups]
    rfl
  | shaders hgroups hitems =>
    rw [Section.gives_row_iff "shaders", ofJson, bind_record?_eq_none hgroups,
      listSection?_of_shaders hitems]
  | entries hgroups hshaders hitems =>
    rw [Section.gives_row_iff "entries", ofJson, bind_record?_eq_none hgroups,
      listSection?_of_no_shaders hshaders, hitems]
    rfl
  | @whole fields hgroups hshaders hentries hne hknown =>
    have hwhole : ((!fields.isEmpty) && (Table.keys fields).all (· ∈ known)) = true := by
      simpa [List.all_eq_true] using And.intro hne hknown
    rw [Section.gives_table_iff, ofJson, bind_record?_eq_none hgroups,
      listSection?_of_no_shaders hshaders, bind_list?_eq_none hentries]
    simp only [Option.map_none, hwhole, if_true]

theorem exists_selects_of_ofJson {data : Json} {catalog : Catalog}
    (h : ofJson known data = .ok catalog) :
    ∃ part, Selects known data part := by
  cases data with
  | list items => exact ⟨_, .list⟩
  | record fields =>
    by_cases hgroups : ∃ groups, Fields.get? "grouped" fields = some (.record groups)
    · obtain ⟨groups, hgroups⟩ := hgroups
      exact ⟨_, .grouped hgroups⟩
    by_cases hshaders : ∃ items, Fields.get? "shaders" fields = some (.list items)
    · obtain ⟨items, hshaders⟩ := hshaders
      exact ⟨_, .shaders (not_exists.mp hgroups) hshaders⟩
    by_cases hentries : ∃ items, Fields.get? "entries" fields = some (.list items)
    · obtain ⟨items, hentries⟩ := hentries
      exact ⟨_, .entries (not_exists.mp hgroups) (not_exists.mp hshaders) hentries⟩
    rw [ofJson, bind_record?_eq_none (not_exists.mp hgroups),
      listSection?_of_no_shaders (not_exists.mp hshaders),
      bind_list?_eq_none (not_exists.mp hentries)] at h
    simp only [Option.map_none] at h
    split at h
    · rename_i hwhole
      obtain ⟨hne, hknown⟩ : fields ≠ [] ∧ ∀ key ∈ Table.keys fields, key ∈ known := by
        simpa [List.all_eq_true] using hwhole
      exact ⟨_, .whole (not_exists.mp hgroups) (not_exists.mp hshaders)
        (not_exists.mp hentries) hne hknown⟩
    · cases h
  | _ => cases h

/-- A catalog is what the section that counts gives. -/
theorem ofJson_eq_ok_iff {data : Json} {catalog : Catalog} :
    ofJson known data = .ok catalog ↔
      ∃ part, Selects known data part ∧ part.Gives known catalog := by
  constructor
  · intro h
    obtain ⟨part, hpart⟩ := exists_selects_of_ofJson h
    exact ⟨part, hpart, (ofJson_of_selects hpart catalog).mp h⟩
  · rintro ⟨part, hpart, h⟩
    exact (ofJson_of_selects hpart catalog).mpr h

end CatalogPress.Catalog
