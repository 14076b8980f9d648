import CatalogPress.Proofs.Catalog.Interleaving
import CatalogPress.Proofs.Catalog.Typed
import CatalogPress.Proofs.Context.Invariants

/-!
The ways to write down a catalog. Groups of entries, in a section or as the whole, and every list
that interleaves them, each entry with its type, are accepted alike and make the same context.
-/
namespace CatalogPress
open Fallible Groups
open Table (Interleaving spread)

namespace Catalog

def byCategory (groups : Table Text (List (Fields Json))) : Fields Json :=
  groups.map fun (key, items) => (key, .list (items.map .record))

def flat (row : List (Text × Fields Json)) : List Json :=
  row.map fun (key, fields) => .record (Entry.typed key fields)

inductive Presents (groups : Table Text (List (Fields Json))) : Json → Prop
  | groupedSection : Presents groups (.record [("grouped", .record (byCategory groups))])
  | list {row} : Interleaving groups row → Presents groups (.list (flat row))
  | listSection {key row} : key ∈ listSections → Interleaving groups row →
      Presents groups (.record [(key, .list (flat row))])
  | whole : groups ≠ [] → (∀ key ∈ listSections, key ∉ Table.keys groups) →
      Presents groups (.record (byCategory groups))

def entryOf : Text × Fields Json → Entry
  | (key, fields) => Entry.ofFields key fields

def entriesOf (groups : Table Text (List (Fields Json))) : Groups :=
  groups.map fun (key, items) => (key, items.map (Entry.ofFields key))

def FitGroups (known : List Text) (groups : Table Text (List (Fields Json))) : Prop :=
  ∀ group ∈ groups, group.1 ∈ known ∧ ∀ fields ∈ group.2, Fits known group.1 fields

theorem flatMap_entriesOf (groups : Table Text (List (Fields Json))) :
    (entriesOf groups).flatMap (·.2) = (spread groups).map entryOf := by
  rw [Table.map_spread, entriesOf, List.flatMap_map]
  rfl

variable {known : List Text} {groups : Table Text (List (Fields Json))} {catalog : Catalog}

theorem acceptsGroup_iff {key : Text} {items : List (Fields Json)} {group : Text × List Entry} :
    AcceptsGroup known (key, .list (items.map .record)) group ↔
      (key ∈ known ∧ ∀ fields ∈ items, Fits known key fields) ∧
        (key, items.map (Entry.ofFields key)) = group := by
  have hitems {entries : List Entry} :
      List.Forall₂ (Accepts known (some key)) (items.map .record) entries ↔
        (∀ fields ∈ items, Fits known key fields) ∧ items.map (Entry.ofFields key) = entries := by
    rw [List.forall₂_map_left_iff, ← forall₂_and_eq_iff]
    simp only [accepts_some_iff]
  constructor
  · intro h
    cases h with
    | intro hknown hentries =>
      obtain ⟨hfits, rfl⟩ := hitems.mp hentries
      exact ⟨⟨hknown, hfits⟩, rfl⟩
  · rintro ⟨⟨hknown, hfits⟩, rfl⟩
    exact .intro hknown (hitems.mpr ⟨hfits, rfl⟩)

theorem ofGroups_byCategory_iff :
    ofGroups known (byCategory groups) = .ok catalog ↔
      FitGroups known groups ∧ (((spread groups).map entryOf).map (·.filename)).Nodup ∧
        catalog = ⟨(spread groups).map entryOf, some (entriesOf groups)⟩ := by
  have hgroups {given : Groups} :
      List.Forall₂ (AcceptsGroup known) (byCategory groups) given ↔
        FitGroups known groups ∧ entriesOf groups = given := by
    unfold byCategory FitGroups entriesOf
    rw [List.forall₂_map_left_iff, ← forall₂_and_eq_iff]
    simp only [acceptsGroup_iff]
  rw [ofGroups_eq_ok_iff, ← flatMap_entriesOf]
  constructor
  · rintro ⟨given, hgiven, hnodup, rfl⟩
    obtain ⟨hfits, rfl⟩ := hgroups.mp hgiven
    exact ⟨hfits, hnodup, rfl⟩
  · rintro ⟨hfits, hnodup, rfl⟩
    exact ⟨_, hgroups.mpr ⟨hfits, rfl⟩, hnodup, rfl⟩

theorem FitGroups.fits (h : FitGroups known groups) :
    ∀ item ∈ spread groups, Fits known item.1 item.2 := by
  intro item hitem
  obtain ⟨group, hgroup, hitem⟩ := List.mem_flatMap.mp hitem
  obtain ⟨fields, hfields, rfl⟩ := List.mem_map.mp hitem
  exact (h group hgroup).2 fields hfields

theorem FitGroups.mem_known (h : FitGroups known groups) :
    ∀ key ∈ Table.keys groups, key ∈ known := by
  intro key hkey
  obtain ⟨group, hgroup, rfl⟩ := List.mem_map.mp hkey
  exact (h group hgroup).1

theorem ofList_flat {row : List (Text × Fields Json)} (hknown : ∀ key ∈ known, key.isEmpty = false)
    (hfits : ∀ item ∈ row, Fits known item.1 item.2)
    (hnodup : ((row.map entryOf).map (·.filename)).Nodup) (place : Text) :
    ofList known place (flat row) = .ok ⟨row.map entryOf, none⟩ := by
  rw [ofList_eq_ok_iff]
  refine ⟨_, ?_, hnodup, rfl⟩
  rw [flat, List.forall₂_map_left_iff, List.forall₂_map_right_iff, List.forall₂_same]
  intro item hitem
  have hitem := hfits item hitem
  exact hitem.accepts_typed (hknown _ hitem.known)

theorem ofJson_groupedSection :
    ofJson known (.record [("grouped", .record (byCategory groups))]) =
      ofGroups known (byCategory groups) := by
  simp [ofJson, Table.get?, Json.record?]

theorem ofJson_listSection {key : Text} (h : key ∈ listSections) (items : List Json) :
    ofJson known (.record [(key, .list items)]) = ofList known key items := by
  simp only [listSections, List.mem_cons, List.not_mem_nil, or_false] at h
  obtain rfl | rfl := h <;>
    simp [ofJson, listSection?, listSections, Table.get?, Json.list?]

theorem ofJson_whole (hgroups : groups ≠ [])
    (hsections : ∀ key ∈ listSections, key ∉ Table.keys groups)
    (hknown : ∀ key ∈ Table.keys groups, key ∈ known) :
    ofJson known (.record (byCategory groups)) = ofGroups known (byCategory groups) := by
  have hget (key : Text) : Fields.get? key (byCategory groups) =
      (Table.get? key groups).map fun items => .list (items.map .record) :=
    Table.get?_map (fun items : List (Fields Json) => Json.list (items.map Json.record)) key groups
  have hkeys : Table.keys (byCategory groups) = Table.keys groups := by
    simp [byCategory, Table.keys]
  have hnotGrouped : (Fields.get? "grouped" (byCategory groups)).bind (·.record?) = none := by
    rw [hget]
    cases Table.get? _ groups <;> rfl
  have hnoList : listSection? (byCategory groups) = none := by
    rw [listSection?, List.findSome?_eq_none_iff]
    intro key hkey
    rw [hget, Table.get?_eq_none_iff.mpr (hsections key hkey)]
    rfl
  have hwhole :
      (!(byCategory groups).isEmpty &&
        (Table.keys (byCategory groups)).all (· ∈ known)) = true := by
    rw [hkeys]
    simp [byCategory, hgroups]
    exact hknown
  unfold ofJson
  simp only [hnotGrouped, hnoList, hwhole, if_true]

end Catalog

namespace Context
open Catalog

/-- Only the keys and what is given under each of them matter. -/
theorem buildGrouped_congr {order : List Text} {a b : Groups}
    (hkeys : orderedKeys order a = orderedKeys order b) (hunder : ∀ key, under a key = under b key)
    (defaults : LicenceDefaults) (version : Option Text) :
    buildGrouped defaults order a version = buildGrouped defaults order b version := by
  rw [buildGrouped_eq, buildGrouped_eq, listed, listed, hkeys, funext hunder]

theorem under_ofTypes_entryOf {groups : Table Text (List (Fields Json))}
    {row : List (Text × Fields Json)} (hkeys : (Table.keys groups).Nodup)
    (hrow : Interleaving groups row) (key : Text) :
    under (ofTypes (row.map entryOf)) key = under (entriesOf groups) key := by
  have hentries :
      (row.map entryOf).filter (·.type = key) = (row.filter (·.1 = key)).map entryOf := by
    rw [List.filter_map]
    rfl
  rw [under_ofTypes, hentries, hrow.filter_eq hkeys, ← flatMap_entriesOf,
    under, entriesOf, entriesOf, List.filter_map]
  rfl

/-- If groups of entries are accepted, all other ways to write them down are, and they make the same
context. -/
theorem presentation_irrelevant {known : List Text} (hknown : ∀ key ∈ known, key.isEmpty = false)
    {groups : Table Text (List (Fields Json))}
    (hkeys : (Table.keys groups).Nodup) {catalog : Catalog}
    (h : Catalog.ofJson known (.record [("grouped", .record (byCategory groups))]) = .ok catalog) :
    ∀ data, Presents groups data → ∃ other, Catalog.ofJson known data = .ok other ∧
      ∀ defaults version, ofCatalog defaults known other version =
        ofCatalog defaults known catalog version := by
  have hgrouped := ofJson_groupedSection ▸ h
  obtain ⟨hfits, hnodup, hcatalog⟩ := ofGroups_byCategory_iff.mp hgrouped
  have hlist {row : List (Text × Fields Json)} (hrow : Interleaving groups row) (place : Text) :
      ∃ other, Catalog.ofList known place (flat row) = .ok other ∧ ∀ defaults version,
        ofCatalog defaults known other version = ofCatalog defaults known catalog version := by
    have hrowFits : ∀ item ∈ row, Fits known item.1 item.2 :=
      fun item hitem => hfits.fits item (hrow.perm.mem_iff.mp hitem)
    have hrowNodup : ((row.map entryOf).map (·.filename)).Nodup :=
      (((hrow.perm.map entryOf).map (·.filename)).nodup_iff).mpr hnodup
    refine ⟨_, ofList_flat hknown hrowFits hrowNodup place, fun defaults version => ?_⟩
    subst hcatalog
    rw [ofCatalog_eq, ofCatalog_eq]
    refine buildGrouped_congr ?_ (under_ofTypes_entryOf hkeys hrow) defaults version
    rw [orderedKeys_of_subset, orderedKeys_of_subset]
    · intro key hkey
      rw [entriesOf, Table.keys, List.map_map] at hkey
      exact hfits.mem_known key hkey
    · intro key hkey
      rw [keys_ofTypes, List.map_map] at hkey
      obtain ⟨item, hitem, rfl⟩ := List.mem_map.mp hkey
      exact (hrowFits item hitem).known
  intro data hdata
  cases hdata with
  | groupedSection => exact ⟨catalog, h, fun _ _ => rfl⟩
  | list hinterleaving => exact hlist hinterleaving ""
  | listSection hkey hinterleaving =>
    rw [ofJson_listSection hkey]
    exact hlist hinterleaving _
  | whole hne hsections =>
    rw [ofJson_whole hne hsections hfits.mem_known]
    exact ⟨catalog, hgrouped, fun _ _ => rfl⟩

/-- Three entries of two groups, one of them without a type of its own. -/
theorem presentation_of_interleaving :
    let glow : Fields Json := [("name", .str "Glow"), ("filename", .str "glow.fx")]
    let fog : Fields Json :=
      [("type", .str "BGX"), ("name", .str "Fog"), ("filename", .str "fog.fx")]
    let rain : Fields Json :=
      [("name", .str "Rain"), ("filename", .str "rain.fx"), ("type", .str "")]
    let groups : Table Text (List (Fields Json)) := [("GFX", [glow]), ("BGX", [fog, rain])]
    let list : Json := .list (flat [("BGX", fog), ("GFX", glow), ("BGX", rain)])
    ∃ catalog other,
      Catalog.ofJson ["BGX", "GFX"] (.record [("grouped", .record (byCategory groups))]) =
        .ok catalog ∧ Catalog.ofJson ["BGX", "GFX"] list = .ok other ∧
      ∀ defaults version, ofCatalog defaults ["BGX", "GFX"] other version =
        ofCatalog defaults ["BGX", "GFX"] catalog version := by
  intro glow fog rain groups list
  have hok : (Catalog.ofJson ["BGX", "GFX"]
      (.record [("grouped", .record (byCategory groups))])).isOk = true := by decide +kernel
  have hrain : Interleaving ([(("GFX" : Text), [])] ++ (("BGX" : Text), [rain]) :: [])
      [(("BGX" : Text), rain)] := .cons (.nil (by simp))
  have hglow : Interleaving ([] ++ (("GFX" : Text), [glow]) :: [(("BGX" : Text), [rain])])
      [(("GFX" : Text), glow), (("BGX" : Text), rain)] := .cons hrain
  have hfog : Interleaving ([(("GFX" : Text), [glow])] ++ (("BGX" : Text), [fog, rain]) :: [])
      [(("BGX" : Text), fog), (("GFX" : Text), glow), (("BGX" : Text), rain)] := .cons hglow
  obtain ⟨catalog, hcatalog⟩ := exists_of_isOk hok
  obtain ⟨other, hother, hsame⟩ := presentation_irrelevant (by decide) (by decide) hcatalog list
    (.list hfog)
  exact ⟨catalog, other, hcatalog, hother, hsame⟩

end Context
end CatalogPress
