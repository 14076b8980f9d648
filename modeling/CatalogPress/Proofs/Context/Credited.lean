import CatalogPress.Proofs.Catalog.Exposed
import CatalogPress.Proofs.Context.Cleared
import CatalogPress.Proofs.Render.Blocks

/-!
The adapted entries of a context are those whose records show an author. So a template can tell them
apart itself: the rows of the adapted entries are the rows of all entries whose credits have a true
author.
-/
namespace CatalogPress
open Fallible

/-- What a template asks for to tell whether a record credits an author. -/
def authored : Expression :=
  .path ["credits", "originalAuthor"]

example : Expression.read "credits.originalAuthor".toList = authored := by
  rfl

namespace Credits

theorem Keyed.get?_author {credits : Credits} (h : credits.Keyed) :
    Fields.get? ("originalAuthor" : String) credits.fields = credits.author.map .str := by
  have hextra : (FieldName.author.key : Text) ∉ Table.keys credits.extra :=
    h.extra .author (by decide)
  rw [fields_eq_append h]
  exact (namedBy_bindings h.licence).get?_append_present hextra

end Credits

namespace Entry

theorem Keyed.get?_credits {entry : Entry} (h : entry.Keyed) :
    Fields.get? ("credits" : String) entry.fields = entry.credits.map
      fun credits => .record credits.fields := by
  have hextra : (FieldName.credits.key : Text) ∉ Table.keys entry.extra :=
    h.extra .credits (by decide)
  have hunlicensed : (FieldName.credits.key : Text) ∉ Table.keys entry.unlicensed := by
    change (FieldName.credits.key : Text) ∉
      ["name", "filename", "type", "shortDescription", "longDescription",
      "imageUrl"].map Text.ofString
    decide
  have hlicence : (FieldName.credits.key : Text) ∉ Table.keys entry.licence.bindings :=
    h.licence.not_mem_keys (by decide)
  rw [fields_eq_append h]
  refine ((namedBy_bindings h.licence).get?_append_present hextra).trans ?_
  rw [bindings, bound?_append_right hunlicensed, bound?_append_right hlicence]
  rfl

theorem Keyed.holds_authored {entry : Entry} (h : entry.Keyed) :
    authored.holds entry.value = entry.isAdapted := by
  change ((entry.value.field "credits").field "originalAuthor").isTruthy = entry.isAdapted
  rw [value, Value.field_ofJson_record, h.get?_credits]
  unfold isAdapted
  cases hcredits : entry.credits with
  | none => rfl
  | some credits =>
    change ((Value.ofJson (.record credits.fields)).field "originalAuthor").isTruthy = _
    rw [Value.field_ofJson_record, (h.credits credits hcredits).get?_author]
    cases hauthor : credits.author with
    | none => simp [hauthor, Value.isTruthy]
    | some author => simp [hauthor, Value.ofJson, Value.isTruthy]

end Entry

namespace Render
variable {limit : Int} {scope : Value} {depth : Nat} {body : List Node} {position : Position}

theorem node_each_of_rows {path : List String} {items : List Value}
    (hitems : scope.lookup path = .list items)
    (hdepth : (depth + 1 : Nat) ≤ limit) {rows : List Text}
    (hrows : List.Forall₂ (fun item row => nodes limit item (depth + 1) body = .ok row) items
      rows) :
    node limit scope depth (.each path body position) =
      .ok (Text.intercalate rowSeparator rows) := by
  refine node_each_eq_ok_iff.mpr ⟨hdepth, rows, ?_, rfl⟩
  rwa [hitems]

end Render

namespace Context

structure ToldApart (context : Context) : Prop where
  mem_adapted : ∀ record ∈ context.flattened,
    record ∈ context.adapted ↔ (record.lookup ["credits", "originalAuthor"]).isTruthy = true
  mem_unadapted : ∀ record ∈ context.flattened,
    record ∈ context.unadapted ↔ (record.lookup ["credits", "originalAuthor"]).isTruthy = false
  adapted : context.adapted = context.flattened.filter authored.holds
  unadapted : context.unadapted = context.flattened.filter (!authored.holds ·)
  rows : ∀ (limit : Int) (depth : Nat) (body : List Node) (position : Position) (rows : List Text),
    (depth + 1 : Nat) ≤ limit →
    List.Forall₂ (fun record row => Render.nodes limit record (depth + 1) body =
      .ok row) context.flattened rows →
    Render.node limit context.scope depth (.each ["flattened"] body position) =
      .ok (Text.intercalate "\n" rows) ∧
      Render.node limit context.scope depth (.each ["adapted"] body position) =
        .ok (Text.intercalate "\n"
          (((context.flattened.zip rows).filter (authored.holds ·.1)).map (·.2))) ∧
      Render.node limit context.scope depth (.each ["original"] body position) =
        .ok (Text.intercalate "\n"
          (((context.flattened.zip rows).filter (!authored.holds ·.1)).map (·.2)))

theorem toldApart {context : Context} (hagrees : Agrees context)
    (hadapted : context.adapted = context.flattened.filter authored.holds)
    (hunadapted : context.unadapted = context.flattened.filter (!authored.holds ·)) :
      ToldApart context where
  mem_adapted record hrecord := by
    rw [hadapted, List.mem_filter, and_iff_right hrecord]
    rfl
  mem_unadapted record hrecord := by
    rw [hunadapted, List.mem_filter, and_iff_right hrecord, Bool.not_eq_true']
    rfl
  adapted := hadapted
  unadapted := hunadapted
  rows limit depth body position rows hdepth hrows := by
    have hadaptedShown := hagrees.adapted
    have hunadaptedShown := hagrees.original
    rw [hadapted] at hadaptedShown
    rw [hunadapted] at hunadaptedShown
    exact ⟨Render.node_each_of_rows hagrees.flattened hdepth hrows,
      Render.node_each_of_rows hadaptedShown hdepth (forall₂_filter _ hrows),
      Render.node_each_of_rows hunadaptedShown hdepth (forall₂_filter _ hrows)⟩

/-- Entries are listed as adapted exactly if a template can see an author in their credits. -/
theorem adapted_iff_authored {known : List Text} {data : Json} {catalog : Catalog}
    (h : Catalog.ofJson known data = .ok catalog) (defaults : LicenceDefaults) (order : List Text)
    (version : Option Text) : ToldApart (ofCatalog defaults order catalog version) := by
  have hholds : ∀ entry ∈ Groups.listed order (given catalog),
      authored.holds (entry.shown defaults) = entry.isAdapted := by
    intro entry hentry
    have hmem : entry ∈ catalog.entries := by
      rw [← flatMap_given h]
      exact (Groups.listed_perm order (given catalog)).mem_iff.mp hentry
    rw [← entry.isAdapted_suppress defaults]
    exact ((Catalog.keyed_of_ofJson h entry hmem).suppress defaults).holds_authored
  rw [ofCatalog_eq]
  refine toldApart (agrees_buildGrouped ..) ?_ ?_ <;> rw [buildGrouped_eq]
  · rw [List.filter_map]
    exact congrArg (List.map _) (List.filter_congr fun entry hentry => (hholds entry hentry).symm)
  · rw [List.filter_map]
    refine congrArg (List.map _) (List.filter_congr fun entry hentry => ?_)
    exact congrArg not (hholds entry hentry).symm

/-- One author is empty, and one is only given beside the credits, which are null. -/
theorem authored_of_entries :
    let entry (filename : Text) (credits : Json) : Json :=
      .record [("name", .str "N"), ("filename", .str filename),
      ("type", .str "BGX"), ("originalAuthor", .str "X"), ("credits", credits)]
    let data : Json := .list [entry "a" (.record [("original_author", .str "A")]),
      entry "b" (.record [("originalAuthor", .str "")]), entry "c" .null]
    ∃ catalog, Catalog.ofJson ["BGX"] data = .ok catalog ∧
      ToldApart (ofCatalog {} ["BGX"] catalog none) ∧
      (ofCatalog {} ["BGX"] catalog none).adapted.length = 1 ∧
      (ofCatalog {} ["BGX"] catalog none).unadapted.length = 2 := by
  intro entry data
  have hlengths : (Catalog.ofJson ["BGX"] data).toOption.map (fun catalog =>
      ((ofCatalog {} ["BGX"] catalog none).adapted.length,
        (ofCatalog {} ["BGX"] catalog none).unadapted.length)) =
      some (1, 2) := by decide +kernel
  cases hcatalog : Catalog.ofJson ["BGX"] data with
  | error error =>
    rw [hcatalog] at hlengths
    cases hlengths
  | ok catalog =>
    rw [hcatalog] at hlengths
    obtain ⟨hadapted, hunadapted⟩ := Prod.mk.inj (Option.some.inj hlengths)
    exact ⟨catalog, rfl, adapted_iff_authored hcatalog {} ["BGX"] none, hadapted, hunadapted⟩

end Context
end CatalogPress
