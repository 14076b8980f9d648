import CatalogPress.Proofs.Context.Invariants
import CatalogPress.Proofs.Context.Suppression

/-!
The records of a context once more: each is that of an entry without what states a default, so none
of them states one.
-/
namespace CatalogPress
open Groups LicenceDefaults

namespace Entry

def cleared (defaults : LicenceDefaults) (entry : Entry) : Value :=
  .ofJson (.record (defaults.clearEntry entry.fields))

theorem shown_eq_cleared {entry : Entry} (h : entry.Keyed) (defaults : LicenceDefaults) :
    entry.shown defaults = entry.cleared defaults := by
  unfold shown cleared value
  rw [fields_suppress h]

theorem map_shown_eq {entries : List Entry} (h : ∀ entry ∈ entries, entry.Keyed)
    (defaults : LicenceDefaults) :
    entries.map (·.shown defaults) = entries.map (·.cleared defaults) :=
  List.map_congr_left fun entry hentry => shown_eq_cleared (h entry hentry) defaults

end Entry

namespace Context

def records (context : Context) : List Value :=
  context.flattened ++ context.adapted ++ context.unadapted ++ context.grouped.flatMap (·.2)

/-- The groups of a context, each entry shown by its record without what states a default. -/
structure ShowsCleared (defaults : LicenceDefaults) (groups : Groups)
    (context : Context) : Prop where
  grouped : context.grouped =
    groups.map fun (key, entries) => (key, entries.map (·.cleared defaults))
  flattened : context.flattened = (groups.flatMap (·.2)).map (·.cleared defaults)
  adapted : context.adapted =
    ((groups.flatMap (·.2)).filter (·.isAdapted)).map (·.cleared defaults)
  unadapted : context.unadapted =
    ((groups.flatMap (·.2)).filter (!·.isAdapted)).map (·.cleared defaults)

theorem ShowsCleared.exists_of_mem {defaults : LicenceDefaults}
    {groups : Groups} {context : Context} (h : ShowsCleared defaults groups context) :
    ∀ record ∈ context.records, ∃ entry : Entry, entry.cleared defaults = record := by
  have hmap {entries : List Entry} {record : Value} (hrecord : record ∈
      entries.map (·.cleared defaults)) :
      ∃ entry : Entry, entry.cleared defaults = record := by
    obtain ⟨entry, -, heq⟩ := List.mem_map.mp hrecord
    exact ⟨entry, heq⟩
  intro record hrecord
  simp only [records, List.mem_append] at hrecord
  obtain ((hflattened | hadapted) | hunadapted) | hgrouped := hrecord
  · exact hmap (h.flattened ▸ hflattened)
  · exact hmap (h.adapted ▸ hadapted)
  · exact hmap (h.unadapted ▸ hunadapted)
  · rw [h.grouped, List.flatMap_map, List.mem_flatMap] at hgrouped
    obtain ⟨group, -, hgroup⟩ := hgrouped
    exact hmap hgroup

theorem flatMap_given {known : List Text} {data : Json} {catalog : Catalog}
    (h : Catalog.ofJson known data = .ok catalog) :
    (given catalog).flatMap (·.2) = catalog.entries := by
  obtain ⟨_, _, hlist⟩ | ⟨_, hgroups⟩ := Catalog.ofJson_eq_ok h
  · obtain ⟨entries, -, -, rfl⟩ := Catalog.ofList_eq_ok_iff.mp hlist
    exact flatMap_ofTypes entries
  · obtain ⟨groups, -, -, rfl⟩ := Catalog.ofGroups_eq_ok_iff.mp hgroups
    rfl

theorem showsCleared_buildGrouped {given : Groups} (h : ∀ entry ∈ given.flatMap (·.2), entry.Keyed)
    (defaults : LicenceDefaults) (order : List Text) (version : Option Text) :
    ShowsCleared defaults (Groups.ofGroups order given)
      (buildGrouped defaults order given version) := by
  have hlisted : ∀ entry ∈ listed order given, entry.Keyed :=
    fun entry hentry => h entry ((listed_perm order given).mem_iff.mp hentry)
  have hkept (p : Entry → Bool) : ∀ entry ∈ (listed order given).filter p, entry.Keyed :=
    fun entry hentry => hlisted entry (List.mem_filter.mp hentry).1
  have hunder : ∀ key ∈ orderedKeys order given, ∀ entry ∈ under given key, entry.Keyed :=
    fun key hkey entry hentry => hlisted entry (List.mem_flatMap.mpr ⟨key, hkey, hentry⟩)
  rw [buildGrouped_eq]
  constructor
  · rw [ofGroups_eq, Table.ofKeys_congr
      fun key hkey => Entry.map_shown_eq (hunder key hkey) defaults,
      Table.ofKeys, Table.ofKeys, List.map_map]
    rfl
  · rw [flatMap_ofGroups, ← Entry.map_shown_eq hlisted]
  · rw [flatMap_ofGroups, ← Entry.map_shown_eq (hkept _)]
  · rw [flatMap_ofGroups, ← Entry.map_shown_eq (hkept _)]

/-- Suppression deletes from the record of every entry what states a default and nothing else, and
it has nothing left to delete. -/
theorem suppression_complete {known : List Text} {data : Json} {catalog : Catalog}
    (h : Catalog.ofJson known data = .ok catalog) (defaults : LicenceDefaults) (order : List Text)
    (version : Option Text) :
    (∀ entry ∈ catalog.entries, (entry.suppress defaults).value = entry.cleared defaults ∧
      (entry.suppress defaults).suppress defaults = entry.suppress defaults) ∧
    (∃ groups : Groups, (groups.flatMap (·.2)).Perm catalog.entries ∧
      ShowsCleared defaults groups (ofCatalog defaults order catalog version)) ∧
    ∀ record ∈ (ofCatalog defaults order catalog version).records,
      defaults.Absent record ∧ defaults.Absent (record.field "credits") := by
  have hkeyed := Catalog.keyed_of_ofJson h
  have hshows : ShowsCleared defaults (Groups.ofGroups order (given catalog))
      (ofCatalog defaults order catalog version) := by
    rw [ofCatalog_eq]
    exact showsCleared_buildGrouped (by rwa [flatMap_given h]) defaults order version
  refine ⟨fun entry hentry => ⟨?_, entry.suppress_suppress defaults⟩, ⟨_, ?_, hshows⟩, ?_⟩
  · exact Entry.shown_eq_cleared (hkeyed entry hentry) defaults
  · rw [flatMap_ofGroups, ← flatMap_given h]
    exact listed_perm order (given catalog)
  · intro record hrecord
    obtain ⟨entry, rfl⟩ := hshows.exists_of_mem record hrecord
    exact ⟨absent_clearEntry entry.fields, absent_credits_clearEntry entry.fields⟩

/-- An entry and its credits that state both defaults, in different spellings. -/
theorem suppression_of_both_spellings :
    let data : Json := .list [.record [("name", .str "Glow"), ("filename", .str "glow.fx"),
      ("type", .str "BGX"), ("licence", .str "MIT"), ("licenseCode", .str "M"),
      ("credits", .record [("license", .str "MIT"), ("licenceCode", .str "M")])]]
    let defaults : LicenceDefaults := { text := some "MIT", code := some "M" }
    ∃ catalog, Catalog.ofJson ["BGX"] data = .ok catalog ∧
      (∀ entry ∈ catalog.entries, (entry.suppress defaults).value = entry.cleared defaults) ∧
      ∀ record ∈ (ofCatalog defaults ["BGX"] catalog none).records,
        defaults.Absent record ∧ defaults.Absent (record.field "credits") := by
  intro data defaults
  have hok : (Catalog.ofJson ["BGX"] data).isOk = true := by decide +kernel
  obtain ⟨catalog, hcatalog⟩ := Fallible.exists_of_isOk hok
  obtain ⟨hentries, -, hrecords⟩ := suppression_complete hcatalog defaults ["BGX"] none
  exact ⟨catalog, hcatalog, fun entry hentry => (hentries entry hentry).1, hrecords⟩

example : LicenceDefaults.clearEntry { text := some "MIT", code := some "M" }
    [("licence", .str "GPL"), ("licenseCode", .str "M"),
      ("credits", .record [("license", .str "MIT"), ("originalAuthor", .str "MIT")])] =
    ([("licence", .str "GPL"),
      ("credits", .record [("originalAuthor", .str "MIT")])] : Fields Json) := by
  rfl

end Context
end CatalogPress
