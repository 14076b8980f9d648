import CatalogPress.Context.Basic
import CatalogPress.Proofs.Context.Grouping
import Mathlib.Algebra.GroupWithZero.Nat

/-!
What every context satisfies: its lists hold the records of all entries that it is built of, each of
them once, and they agree with each other and with the numbers and lists that templates see.
-/
namespace CatalogPress
open Groups

def Entry.shown (defaults : LicenceDefaults) (entry : Entry) : Value :=
  (entry.suppress defaults).value

namespace Context

theorem buildGrouped_eq (defaults : LicenceDefaults) (order : List Text) (given : Groups)
    (version : Option Text) :
    buildGrouped defaults order given version =
      { grouped := Table.ofKeys (orderedKeys order given) fun key =>
          (under given key).map (·.shown defaults)
        flattened := (listed order given).map (·.shown defaults)
        adapted := ((listed order given).filter (·.isAdapted)).map (·.shown defaults)
        unadapted := ((listed order given).filter (!·.isAdapted)).map (·.shown defaults)
        version } := by
  unfold buildGrouped Context.ofGroups
  simp only [ofGroups_map, flatMap_ofKeys_under, List.map_map, List.filter_map, Function.comp_def,
    Entry.isAdapted_suppress]
  simp only [Table.ofKeys, List.map_map, Function.comp_def]
  rfl

/-- Entries that are not grouped are treated like groups of one entry each. -/
theorem build_eq_buildGrouped (defaults : LicenceDefaults)
    (order : List Text) (entries : List Entry) (version : Option Text) :
    build defaults order entries version =
      buildGrouped defaults order (ofTypes entries) version := by
  unfold build buildGrouped
  rw [ofEntries_eq, ofTypes, ofTypes, List.map_map, List.map_map]
  rfl

/-- The groups of a catalog, or else its entries by their types. -/
def given (catalog : Catalog) : Groups :=
  catalog.groups.getD (ofTypes catalog.entries)

theorem ofCatalog_eq (defaults : LicenceDefaults) (order : List Text) (catalog : Catalog)
    (version : Option Text) :
    ofCatalog defaults order catalog version =
      buildGrouped defaults order (given catalog) version := by
  unfold ofCatalog given
  cases catalog.groups with
  | none => exact build_eq_buildGrouped ..
  | some groups => rfl

/-- A context shows the entries that are given under keys. The order comes first among its keys. -/
structure Shows (defaults : LicenceDefaults) (order : List Text) (given : Groups)
    (context : Context) : Prop where
  keys_grouped : Table.keys context.grouped =
    order.eraseDups ++ ((Table.keys given).removeAll order).eraseDups
  grouped : ∀ key ∈ Table.keys context.grouped,
    Table.get? key context.grouped = some ((under given key).map (·.shown defaults))
  flattened : context.flattened = context.grouped.flatMap (·.2)
  flattened_perm : context.flattened.Perm ((given.flatMap (·.2)).map (·.shown defaults))
  split : ∃ entries : List Entry, entries.Perm (given.flatMap (·.2)) ∧
    context.flattened = entries.map (·.shown defaults) ∧
    context.adapted = (entries.filter (·.isAdapted)).map (·.shown defaults) ∧
    context.unadapted = (entries.filter (!·.isAdapted)).map (·.shown defaults)

structure Agrees (context : Context) : Prop where
  total : context.scope.lookup ["statistics", "total"] = .int context.flattened.length
  adapted_count : context.scope.lookup ["statistics", "adapted"] = .int context.adapted.length
  original_count : context.scope.lookup ["statistics", "original"] = .int context.unadapted.length
  length_split : context.flattened.length = context.adapted.length + context.unadapted.length
  byType : ∃ counts : Table Text Nat,
    context.scope.lookup ["statistics", "byType"] =
      .record (counts.map fun (key, count) => (key, .int count)) ∧
    Table.keys counts = Table.keys context.grouped ∧
    (∀ key, Table.get? key counts = (Table.get? key context.grouped).map List.length) ∧
    (counts.map (·.2)).sum = context.flattened.length
  grouped : context.scope.lookup ["grouped"] =
    .record (context.grouped.map fun (key, values) => (key, .list values))
  flattened : context.scope.lookup ["flattened"] = .list context.flattened
  adapted : context.scope.lookup ["adapted"] = .list context.adapted
  original : context.scope.lookup ["original"] = .list context.unadapted

theorem field_scope (context : Context) {name : String} (h : name ≠ "version") :
    context.scope.field name = (Value.record [
      ("statistics", context.statistics),
      ("grouped", .record (context.grouped.map fun (key, values) => (key, .list values))),
      ("flattened", .list context.flattened),
      ("adapted", .list context.adapted),
      ("original", .list context.unadapted)]).field name := by
  have hname : (name : Text) ≠ ("version" : String) := fun heq => h (Text.ofString_inj heq)
  unfold scope
  cases (context.version.filter (!·.isEmpty)).map Value.str with
  | none => rfl
  | some version => exact congrArg (·.getD .absent) (Table.get?_put_of_ne hname version _)

theorem field_statistics (context : Context) :
    context.scope.field "statistics" = context.statistics :=
  (field_scope context (by decide)).trans rfl

/-- What is shown agrees with a context that lists its groups one after another and splits the
list. -/
theorem agrees {context : Context} (hflattened : context.flattened = context.grouped.flatMap (·.2))
    (hsplit : context.flattened.length = context.adapted.length + context.unadapted.length) :
    Agrees context where
  total := by
    rw [Value.lookup_cons, field_statistics]
    rfl
  adapted_count := by
    rw [Value.lookup_cons, field_statistics]
    rfl
  original_count := by
    rw [Value.lookup_cons, field_statistics]
    rfl
  length_split := hsplit
  byType := by
    refine ⟨context.counts, ?_, ?_, fun key => Table.get?_map List.length key _, ?_⟩
    · rw [Value.lookup_cons, field_statistics]
      rfl
    · simp [Table.keys, counts]
    · rw [hflattened, List.length_flatMap, counts, List.map_map]
      rfl
  grouped := (field_scope context (by decide)).trans rfl
  flattened := (field_scope context (by decide)).trans rfl
  adapted := (field_scope context (by decide)).trans rfl
  original := (field_scope context (by decide)).trans rfl

theorem shows_buildGrouped (defaults : LicenceDefaults) (order : List Text) (given : Groups)
    (version : Option Text) :
    Shows defaults order given (buildGrouped defaults order given version) := by
  rw [buildGrouped_eq]
  refine ⟨?_, ?_, ?_, (listed_perm order given).map _, listed order given, listed_perm order given,
    rfl, rfl, rfl⟩
  · rw [Table.keys_ofKeys, orderedKeys_eq_append]
  · intro key hkey
    rw [Table.keys_ofKeys] at hkey
    rw [Table.get?_ofKeys, if_pos hkey]
  · exact (flatMap_ofKeys_under (·.shown defaults) order given).symm

theorem agrees_buildGrouped (defaults : LicenceDefaults) (order : List Text) (given : Groups)
    (version : Option Text) : Agrees (buildGrouped defaults order given version) := by
  refine agrees (shows_buildGrouped defaults order given version).flattened ?_
  rw [buildGrouped_eq]
  simp only [List.length_map]
  exact List.length_eq_length_filter_add _

/-- A context shows all entries that it is built of, grouped or not, and what templates see of it
agrees with it. -/
theorem build_invariants (defaults : LicenceDefaults) (order : List Text) (version : Option Text) :
    (∀ entries : List Entry,
      Shows defaults order (ofTypes entries) (build defaults order entries version) ∧
      Agrees (build defaults order entries version)) ∧
    ∀ groups : Groups,
      Shows defaults order groups (buildGrouped defaults order groups version) ∧
      Agrees (buildGrouped defaults order groups version) := by
  refine ⟨fun entries => ?_, fun groups => ⟨shows_buildGrouped .., agrees_buildGrouped ..⟩⟩
  rw [build_eq_buildGrouped]
  exact ⟨shows_buildGrouped .., agrees_buildGrouped ..⟩

end Context
end CatalogPress
