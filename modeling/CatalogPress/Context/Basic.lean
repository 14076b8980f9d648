import CatalogPress.Catalog.Basic
import CatalogPress.Json.Basic
import CatalogPress.Log.Record

/-!
The context of a run: the entries of the catalog as templates see them, by group and all together,
split into adapted and unadapted ones. It is built once and shared by all documents.

Documents state the licence of the project once, so entries show theirs only where it differs. Texts
and codes are compared on their own, and so are an entry and its credits. Of the groups, the
configured categories come first, in their order and even if they stay empty; other categories
follow in the order in which they are met. Within a group entries keep their order.
-/
namespace CatalogPress

/-- The licence of the project. What is not set suppresses nothing. -/
structure LicenceDefaults where
  text : Option Text := none
  code : Option Text := none
deriving DecidableEq, BEq, Inhabited, Repr

def unlessDefault (default value : Option Text) : Option Text :=
  if value = default then none else value

def Licence.suppress (defaults : LicenceDefaults) (licence : Licence) : Licence :=
  { licence with
    text := unlessDefault defaults.text licence.text
    code := unlessDefault defaults.code licence.code }

def Credits.suppress (defaults : LicenceDefaults) (credits : Credits) : Credits :=
  { credits with licence := credits.licence.suppress defaults }

def Entry.suppress (defaults : LicenceDefaults) (entry : Entry) : Entry :=
  { entry with
    licence := entry.licence.suppress defaults
    credits := entry.credits.map (·.suppress defaults) }

@[simp] theorem unlessDefault_unlessDefault (default value : Option Text) :
    unlessDefault default (unlessDefault default value) = unlessDefault default value := by
  unfold unlessDefault
  split
  · split <;> rfl
  · rfl

@[simp] theorem Licence.suppress_suppress (defaults : LicenceDefaults) (licence : Licence) :
    (licence.suppress defaults).suppress defaults = licence.suppress defaults := by
  simp [Licence.suppress]

@[simp] theorem Entry.type_suppress (defaults : LicenceDefaults) (entry : Entry) :
    (entry.suppress defaults).type = entry.type := rfl

@[simp] theorem Entry.isAdapted_suppress (defaults : LicenceDefaults) (entry : Entry) :
    (entry.suppress defaults).isAdapted = entry.isAdapted := by
  unfold Entry.isAdapted Entry.suppress
  cases entry.credits <;> rfl

abbrev Groups := Table Text (List Entry)

namespace Groups

def empty (order : List Text) : Groups :=
  Table.ofList (order.map (·, []))

def extend (groups : Groups) (key : Text) (entries : List Entry) : Groups :=
  Table.put key ((Table.get? key groups).getD [] ++ entries) groups

def ofEntries (order : List Text) (entries : List Entry) : Groups :=
  entries.foldl (fun groups entry => groups.extend entry.type [entry]) (empty order)

def ofGroups (order : List Text) (given : Groups) : Groups :=
  given.foldl (fun groups group => groups.extend group.1 group.2) (empty order)

end Groups

structure Context where
  grouped : Table Text (List Value)
  flattened : List Value
  adapted : List Value
  unadapted : List Value
  version : Option Text := none
deriving Inhabited, Repr

namespace Context

def total (context : Context) : Nat :=
  context.flattened.length

def counts (context : Context) : Table Text Nat :=
  context.grouped.map fun (key, values) => (key, values.length)

def ofGroups (groups : Groups) (version : Option Text) : Context :=
  let entries := groups.flatMap (·.2)
  { grouped := groups.map fun (key, entries) => (key, entries.map Entry.value)
    flattened := entries.map Entry.value
    adapted := (entries.filter Entry.isAdapted).map Entry.value
    unadapted := (entries.filter (!Entry.isAdapted ·)).map Entry.value
    version }

def build (defaults : LicenceDefaults) (order : List Text) (entries : List Entry)
    (version : Option Text) : Context :=
  ofGroups (.ofEntries order (entries.map (·.suppress defaults))) version

def buildGrouped (defaults : LicenceDefaults) (order : List Text) (groups : Groups)
    (version : Option Text) : Context :=
  let suppressed := groups.map fun (key, entries) => (key, entries.map (·.suppress defaults))
  ofGroups (.ofGroups order suppressed) version

def ofCatalog (defaults : LicenceDefaults) (order : List Text) (catalog : Catalog)
    (version : Option Text) : Context :=
  match catalog.groups with
  | some groups => buildGrouped defaults order groups version
  | none => build defaults order catalog.entries version

def statistics (context : Context) : Value :=
  .record [
    ("total", .int context.total),
    ("byType", .record (context.counts.map fun (key, count) => (key, .int count))),
    ("adapted", .int context.adapted.length),
    ("original", .int context.unadapted.length)]

/-- The record that templates are evaluated in. An empty version is left out. -/
def scope (context : Context) : Value :=
  .record <| Fields.putIfSome "version" ((context.version.filter (!·.isEmpty)).map .str) [
    ("statistics", context.statistics),
    ("grouped", .record (context.grouped.map fun (key, values) => (key, .list values))),
    ("flattened", .list context.flattened),
    ("adapted", .list context.adapted),
    ("original", .list context.unadapted)]

def logger : String := "shaderdocs.templates.context_builder"

def log (context : Context) : List LogRecord := [
  ⟨LogRecord.infoLevel, logger,
    "Built context: " ++ toString context.total ++ " entries (" ++
      toString context.adapted.length ++ " adapted, " ++ toString context.unadapted.length ++
      " original) across " ++ toString context.grouped.length ++ " categories"⟩,
  ⟨LogRecord.debugLevel, logger,
    "Category counts: " ++
      (Json.record (context.counts.map fun (key, count) => (key, .int count))).inspect⟩]

end Context
end CatalogPress
