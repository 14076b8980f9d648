import CatalogPress.Proofs.Catalog.Accepted
import CatalogPress.Proofs.Catalog.Field

/-!
The record of an entry as a list: the fields that the catalog does not know, then the known ones
that are given. It is one because an entry that is read keeps no known key among the unknown ones.
-/
namespace CatalogPress
open Fallible

def present (bindings : Table Text (Option Json)) : Fields Json :=
  bindings.filterMap fun binding => binding.2.map (binding.1, ·)

theorem present_append (a b : Table Text (Option Json)) :
    present (a ++ b) = present a ++ present b :=
  List.filterMap_append

theorem mem_keys_of_mem_present {bindings : Table Text (Option Json)} {key : Text}
    (h : key ∈ Table.keys (present bindings)) : key ∈ Table.keys bindings := by
  obtain ⟨field, hfield, rfl⟩ := List.mem_map.mp h
  obtain ⟨⟨key, value⟩, hmem, hvalue⟩ := List.mem_filterMap.mp hfield
  obtain ⟨data, -, rfl⟩ := Option.map_eq_some_iff.mp hvalue
  exact Table.mem_keys_of_mem hmem

structure NamedBy (names : List FieldName) (bindings : Table Text (Option Json)) : Prop where
  nodup : (Table.keys bindings).Nodup
  named : ∀ key ∈ Table.keys bindings, key ∈ names.map (Text.ofString ·.key)

theorem NamedBy.of_strings {names : List FieldName} {bindings : Table Text (Option Json)}
    {keys : List String} (hkeys : Table.keys bindings = keys.map Text.ofString)
    (hnodup : keys.Nodup) (hnamed : ∀ key ∈ keys, key ∈ names.map (·.key)) :
    NamedBy names bindings where
  nodup := hkeys ▸ hnodup.map fun _ _ => Text.ofString_inj
  named := by
    rw [hkeys]
    refine List.forall_mem_map.mpr fun key hkey => ?_
    obtain ⟨name, hname, rfl⟩ := List.mem_map.mp (hnamed key hkey)
    exact List.mem_map.mpr ⟨name, hname, rfl⟩

theorem NamedBy.foldl_putIfSome {names : List FieldName} {bindings : Table Text (Option Json)}
    (h : NamedBy names bindings) {extra : Fields Json}
    (hextra : ∀ name ∈ names, (name.key : Text) ∉ Table.keys extra) :
    bindings.foldl (fun fields binding => Table.putIfSome binding.1 binding.2 fields) extra =
      extra ++ present bindings := by
  refine Table.foldl_putIfSome h.nodup fun key hkey => ?_
  obtain ⟨name, hname, rfl⟩ := List.mem_map.mp (h.named key hkey)
  exact hextra name hname

namespace Licence

def textKeys : List String := ["licence", "license"]
def codeKeys : List String := ["licenceCode", "licenseCode"]

structure Keyed (licence : Licence) : Prop where
  text : licence.textKey ∈ textKeys
  code : licence.codeKey ∈ codeKeys

def bindings (licence : Licence) : Table Text (Option Json) :=
  [(licence.textKey, licence.text.map .str), (licence.codeKey, licence.code.map .str)]

theorem codeKeys_of_textKeys : ∀ key ∈ textKeys, key ∉ codeKeys := by
  decide

theorem forall_keys {p : String → Prop} :
    (∀ key ∈ textKeys ++ codeKeys, p key) ↔ ∀ name ∈ FieldName.ofLicence, p name.key :=
  (List.forall_mem_map (f := FieldName.key) (l := FieldName.ofLicence))

theorem Keyed.eq_or_eq {licence : Licence} (h : licence.Keyed) :
    (licence.textKey = "licence" ∨ licence.textKey = "license") ∧
      (licence.codeKey = "licenceCode" ∨ licence.codeKey = "licenseCode") := by
  simpa [textKeys, codeKeys] using And.intro h.text h.code

theorem Keyed.exists_key {licence : Licence} (h : licence.Keyed) {key : Text}
    (hkey : key ∈ Table.keys licence.bindings) :
    ∃ spelling ∈ textKeys ++ codeKeys, key = spelling := by
  have hkeys :
      Table.keys licence.bindings = [(licence.textKey : Text), (licence.codeKey : Text)] := rfl
  rw [hkeys, List.mem_pair] at hkey
  obtain rfl | rfl := hkey
  · exact ⟨_, List.mem_append_left _ h.text, rfl⟩
  · exact ⟨_, List.mem_append_right _ h.code, rfl⟩

theorem keyed_ofFields (fields : Fields Json) : (ofFields fields).Keyed := by
  constructor
  · simp only [ofFields]
    split <;> simp [textKeys]
  · simp only [ofFields]
    split <;> simp [codeKeys]

end Licence

namespace Credits

structure Keyed (credits : Credits) : Prop where
  licence : credits.licence.Keyed
  extra : ∀ name ∈ FieldName.ofCredits, (name.key : Text) ∉ Table.keys credits.extra

def unlicensed (credits : Credits) : Table Text (Option Json) := [
  ("originalAuthor", credits.author.map .str),
  ("originalTitle", credits.title.map .str),
  ("description", credits.description.map .str),
  ("externalUrl", credits.externalUrl.map .str)]

def bindings (credits : Credits) : Table Text (Option Json) :=
  credits.unlicensed ++ credits.licence.bindings

theorem keyed_ofFields (fields : Fields Json) : (ofFields fields).Keyed where
  licence := Licence.keyed_ofFields fields
  extra _ h := FieldName.key_not_mem_unknown fields h

theorem namedBy_bindings {credits : Credits} (h : credits.licence.Keyed) :
    NamedBy FieldName.ofCredits credits.bindings := by
  have hkeys : Table.keys credits.bindings = ["originalAuthor", "originalTitle", "description",
    "externalUrl", credits.licence.textKey, credits.licence.codeKey].map Text.ofString := rfl
  obtain ⟨htext, hcode⟩ := h.eq_or_eq
  refine .of_strings hkeys ?_ ?_ <;>
    rcases htext with htext | htext <;> rcases hcode with hcode | hcode <;>
      rw [htext, hcode] <;> decide

theorem fields_eq_append {credits : Credits} (h : credits.Keyed) :
    credits.fields = credits.extra ++ present credits.bindings :=
  (namedBy_bindings h.licence).foldl_putIfSome h.extra

end Credits

namespace Entry

structure Keyed (entry : Entry) : Prop where
  licence : entry.licence.Keyed
  credits : ∀ credits ∈ entry.credits, credits.Keyed
  extra : ∀ name ∈ FieldName.ofEntry, (name.key : Text) ∉ Table.keys entry.extra

def unlicensed (entry : Entry) : Table Text (Option Json) := [
  ("name", some (.str entry.name)),
  ("filename", some (.str entry.filename)),
  ("type", some (.str entry.type)),
  ("shortDescription", entry.shortDescription.map .str),
  ("longDescription", entry.longDescription.map .str),
  ("imageUrl", entry.imageUrl.map .str)]

def creditsBinding (entry : Entry) : Table Text (Option Json) :=
  [("credits", entry.credits.map fun credits => .record credits.fields)]

def bindings (entry : Entry) : Table Text (Option Json) :=
  entry.unlicensed ++ (entry.licence.bindings ++ entry.creditsBinding)

theorem keyed_ofFields (type : Text) (fields : Fields Json) : (ofFields type fields).Keyed where
  licence := Licence.keyed_ofFields fields
  credits credits h := by
    obtain ⟨data, -, rfl⟩ := Option.map_eq_some_iff.mp h
    exact Credits.keyed_ofFields data
  extra _ h := FieldName.key_not_mem_unknown fields h

theorem namedBy_bindings {entry : Entry} (h : entry.licence.Keyed) :
    NamedBy FieldName.ofEntry entry.bindings := by
  have hkeys : Table.keys entry.bindings = ["name", "filename", "type", "shortDescription",
    "longDescription", "imageUrl", entry.licence.textKey, entry.licence.codeKey,
    "credits"].map Text.ofString := rfl
  obtain ⟨htext, hcode⟩ := h.eq_or_eq
  refine .of_strings hkeys ?_ ?_ <;>
    rcases htext with htext | htext <;> rcases hcode with hcode | hcode <;>
      rw [htext, hcode] <;> decide

theorem fields_eq_append {entry : Entry} (h : entry.Keyed) :
    entry.fields = entry.extra ++ present entry.bindings :=
  (namedBy_bindings h.licence).foldl_putIfSome h.extra

end Entry

namespace Catalog

theorem Accepts.keyed {known : List Text} {group : Option Text} {item : Json} {entry : Entry}
    (h : Accepts known group item entry) : entry.Keyed := by
  cases h with
  | intro => exact Entry.keyed_ofFields _ _

theorem keyed_of_accepts {known : List Text} {group : Option Text} {items : List Json}
    {entries : List Entry} (h : List.Forall₂ (Accepts known group) items entries) :
    ∀ entry ∈ entries, entry.Keyed := by
  intro entry hentry
  obtain ⟨_, _, haccepts⟩ := exists_of_forall₂ h entry hentry
  exact haccepts.keyed

theorem keyed_of_ofJson {known : List Text} {data : Json} {catalog : Catalog}
    (h : ofJson known data = .ok catalog) : ∀ entry ∈ catalog.entries, entry.Keyed := by
  obtain ⟨_, _, hlist⟩ | ⟨_, hgrouped⟩ := ofJson_eq_ok h
  · obtain ⟨entries, hentries, -, rfl⟩ := ofList_eq_ok_iff.mp hlist
    exact keyed_of_accepts hentries
  · obtain ⟨groups, hgroups, -, rfl⟩ := ofGroups_eq_ok_iff.mp hgrouped
    intro entry hentry
    obtain ⟨group, hgroup, hentry⟩ := List.mem_flatMap.mp hentry
    obtain ⟨_, _, haccepts⟩ := exists_of_forall₂ hgroups group hgroup
    cases haccepts with
    | intro _ hentries => exact keyed_of_accepts hentries entry hentry

end Catalog
end CatalogPress
