import CatalogPress.Proofs.Catalog.Normalised
import CatalogPress.Proofs.Catalog.Record
import CatalogPress.Proofs.Catalog.Sections

/-!
What the record of an entry shows of the object that stands for it: all that is given, under the key
where it belongs, except for known fields that are null.
-/
namespace CatalogPress

namespace FieldName

def shown? (names : List FieldName) (key : Text) : Json → Option Json
  | .null => if key ∈ names.map (Text.ofString ·.key) then none else some .null
  | data => some data

/-- Under every key a record has what an object has where its fields belong, as far as it is shown.
No key comes twice unless it does in the object. -/
structure Shows (names : List FieldName) (object record : Fields Json) : Prop where
  values : ∀ key, Fields.get? key record =
    (Fields.get? key (normalise names object)).bind (shown? names key)
  nodup : (Table.keys object).Nodup → (Table.keys record).Nodup

variable {names : List FieldName} {name : FieldName} {fields : Fields Json} {key : Text}

theorem shown?_of_not_mem (hkey : key ∉ names.map (Text.ofString ·.key)) :
    shown? names key = some := by
  funext data
  cases data with
  | null => exact if_neg hkey
  | _ => rfl

theorem Optional.bind_shown? (h : name.Optional fields) (hname : name ∈ names) :
    (name.given? fields).bind (shown? names name.key) = (name.text? fields).map .str := by
  rw [text?_eq]
  cases hgiven : name.given? fields with
  | none => rfl
  | some data =>
    obtain rfl | ⟨text, rfl⟩ := h data hgiven
    · exact if_pos (List.mem_map.mpr ⟨name, hname, rfl⟩)
    · rfl

theorem Required.optional (h : name.Required fields) : name.Optional fields := by
  obtain ⟨text, htext⟩ := h
  intro data hdata
  cases htext.symm.trans hdata
  exact .inr ⟨text, rfl⟩

end FieldName

def bound? (key : Text) (bindings : Table Text (Option Json)) : Option Json :=
  (Table.get? key bindings).join

theorem bound?_append_right {key : Text} {a : Table Text (Option Json)} (h : key ∉ Table.keys a)
    (b : Table Text (Option Json)) : bound? key (a ++ b) = bound? key b := by
  rw [bound?, Table.get?_append, Table.get?_eq_none_iff.mpr h, Option.none_or]
  rfl

theorem bound?_append_left {key : Text} {b : Table Text (Option Json)} (h : key ∉ Table.keys b)
    (a : Table Text (Option Json)) : bound? key (a ++ b) = bound? key a := by
  rw [bound?, Table.get?_append, Table.get?_eq_none_iff.mpr h, Option.or_none]
  rfl

theorem keys_present_sublist (bindings : Table Text (Option Json)) :
    (Table.keys (present bindings)).Sublist (Table.keys bindings) := by
  induction bindings with
  | nil => exact .slnil
  | cons binding bindings ih =>
    obtain ⟨key, data | data⟩ := binding
    · exact ih.cons key
    · exact ih.cons_cons key

namespace NamedBy
open FieldName
variable {names : List FieldName} {name : FieldName} {bindings : Table Text (Option Json)}
  {fields : Fields Json}

theorem get?_append_present (h : NamedBy names bindings) {extra : Fields Json} {key : Text}
    (hkey : key ∉ Table.keys extra) :
    Fields.get? key (extra ++ present bindings) = bound? key bindings := by
  rw [Fields.get?, Table.get?_append, Table.get?_eq_none_iff.mpr hkey, Option.none_or, present,
    Table.get?_filterMap_present h.nodup]
  rfl

theorem get?_key (h : NamedBy names bindings) (hname : name ∈ names) :
    Fields.get? name.key (unknown names fields ++ present bindings) = bound? name.key bindings :=
  h.get?_append_present (key_not_mem_unknown fields hname)

theorem get?_other (h : NamedBy names bindings) (hdistinct : Distinct names) {key : Text}
    (hkey : key ∉ names.map (Text.ofString ·.key)) :
    Fields.get? key (unknown names fields ++ present bindings) =
      (Fields.get? key (normalise names fields)).bind (shown? names key) := by
  have hmissing : key ∉ Table.keys (present bindings) :=
    fun hmem => hkey (h.named key (mem_keys_of_mem_present hmem))
  rw [shown?_of_not_mem hkey, Option.bind_fun_some,
    get?_normalise_of_not_mem hdistinct hkey, Fields.get?, Table.get?_append,
      Table.get?_eq_none_iff.mpr hmissing, Option.or_none]

theorem nodup_keys (h : NamedBy names bindings) (hfields : (Table.keys fields).Nodup) :
    (Table.keys (unknown names fields ++ present bindings)).Nodup := by
  rw [Table.keys_append, List.nodup_append']
  have hunknown : (Table.keys (unknown names fields)).Sublist (Table.keys fields) :=
    List.filter_sublist.map _
  refine ⟨hfields.sublist hunknown, h.nodup.sublist (keys_present_sublist bindings),
    fun key hunknown hbound => ?_⟩
  obtain ⟨name, hname, rfl⟩ := List.mem_map.mp (h.named key (mem_keys_of_mem_present hbound))
  exact key_not_mem_unknown fields hname hunknown

end NamedBy

namespace Licence
variable {licence : Licence} {fields : Fields Json}

theorem Keyed.bound?_text (h : licence.Keyed) {key : String} (hkey : key ∈ textKeys) :
    bound? key licence.bindings = if licence.textKey = key then licence.text.map .str
      else none := by
  have hcode : licence.codeKey ≠ key := by
    rintro rfl
    exact codeKeys_of_textKeys _ hkey h.code
  by_cases htext : licence.textKey = key <;> simp [bound?, bindings, Table.get?, htext, hcode]

theorem Keyed.bound?_code (h : licence.Keyed) {key : String} (hkey : key ∈ codeKeys) :
    bound? key licence.bindings = if licence.codeKey = key then licence.code.map .str
      else none := by
  have htext : licence.textKey ≠ key := by
    rintro rfl
    exact codeKeys_of_textKeys _ h.text hkey
  by_cases hcode : licence.codeKey = key <;> simp [bound?, bindings, Table.get?, htext, hcode]

theorem Keyed.not_mem_keys (h : licence.Keyed) {key : String} (hkey : key ∉ textKeys ++ codeKeys) :
    (key : Text) ∉ Table.keys licence.bindings := by
  intro hmem
  obtain ⟨spelling, hspelling, heq⟩ := h.exists_key hmem
  cases Text.ofString_inj heq
  exact hkey hspelling

theorem bound?_bindings (htexts : ∀ name ∈ FieldName.ofLicence, name.Optional fields)
    (hspelling : OneSpelling fields) : ∀ name ∈ FieldName.ofLicence,
      bound? name.key (ofFields fields).bindings = (name.text? fields).map .str := by
  simp only [FieldName.ofLicence, List.forall_mem_cons] at htexts ⊢
  obtain ⟨hlicence, hlicense, hlicenceCode, hlicenseCode, -⟩ := htexts
  have htext := hspelling.text
  have hcode := hspelling.code
  rw [hlicence.stated_iff, hlicense.stated_iff] at htext
  rw [hlicenceCode.stated_iff, hlicenseCode.stated_iff] at hcode
  have hkeyed := keyed_ofFields fields
  rw [hkeyed.bound?_text (by decide), hkeyed.bound?_text (by decide),
    hkeyed.bound?_code (by decide), hkeyed.bound?_code (by decide)]
  unfold ofFields
  -- At most one spelling of each is stated, and that one names the key.
  refine ⟨?_, ?_, ?_, ?_, List.forall_mem_nil _⟩
  case refine_1 | refine_2 =>
    revert htext
    cases FieldName.licence.text? fields <;> cases FieldName.license.text? fields <;>
      simp [FieldName.licence, FieldName.license]
  case refine_3 | refine_4 =>
    revert hcode
    cases FieldName.licenceCode.text? fields <;> cases FieldName.licenseCode.text? fields <;>
      simp [FieldName.licenceCode, FieldName.licenseCode]

end Licence

namespace Credits
variable {fields : Fields Json}

theorem Valid.licence (h : Valid fields) : ∀ name ∈ FieldName.ofLicence, name.Optional fields :=
  fun name hname => h.texts name (List.mem_append_left _ hname)

theorem bound?_bindings (h : Valid fields) {name : FieldName} (hname : name ∈ FieldName.ofCredits) :
    bound? name.key (ofFields fields).bindings = (name.text? fields).map .str := by
  obtain hname | hname := List.mem_append.mp hname
  · have hkeys :
        ∀ name ∈ FieldName.ofLicence,
        (name.key : Text) ∉ Table.keys (ofFields fields).unlicensed := by
      change ∀ name ∈ FieldName.ofLicence, (name.key : Text) ∉
        ["originalAuthor", "originalTitle", "description", "externalUrl"].map Text.ofString
      decide
    rw [bindings, bound?_append_right (hkeys name hname)]
    exact Licence.bound?_bindings h.licence h.spelling name hname
  · have hother : name.key ∉ Licence.textKeys ++ Licence.codeKeys := by
      revert name
      decide
    rw [bindings, bound?_append_left ((keyed_ofFields fields).licence.not_mem_keys hother)]
    simp only [List.mem_cons, List.not_mem_nil, or_false] at hname
    obtain rfl | rfl | rfl | rfl := hname <;> rfl

theorem shows_fields (h : Valid fields) :
    FieldName.Shows FieldName.ofCredits fields (ofFields fields).fields := by
  have hdistinct : FieldName.Distinct FieldName.ofCredits := by decide
  have hnamed := namedBy_bindings (keyed_ofFields fields).licence
  rw [fields_eq_append (keyed_ofFields fields)]
  refine ⟨fun key => ?_, hnamed.nodup_keys⟩
  by_cases hkey : key ∈ FieldName.ofCredits.map (Text.ofString ·.key)
  · obtain ⟨name, hname, rfl⟩ := List.mem_map.mp hkey
    rw [FieldName.get?_normalise_key hdistinct hname, (h.texts name hname).bind_shown? hname,
      ← bound?_bindings h hname]
    exact hnamed.get?_key hname
  · exact hnamed.get?_other hdistinct hkey

end Credits

namespace Entry
variable {type : Text} {fields : Fields Json}

/-- The object with every field under its own key, and with its type. -/
def normalise (type : Text) (fields : Fields Json) : Fields Json :=
  Fields.put "type" (.str type) (FieldName.normalise FieldName.ofEntry fields)

inductive ShowsCredits : Option Json → Option Json → Prop
  | missing : ShowsCredits none none
  | null : ShowsCredits (some .null) none
  | record {object record} : FieldName.Shows FieldName.ofCredits object record →
      ShowsCredits (some (.record object)) (some (.record record))

structure Shows (type : Text) (object record : Fields Json) : Prop where
  fields : ∀ key, key ≠ ("credits" : Text) → Fields.get? key record =
    (Fields.get? key (normalise type object)).bind (FieldName.shown? FieldName.ofEntry key)
  credits : ShowsCredits (Fields.get? "credits" (normalise type object))
    (Fields.get? "credits" record)
  nodup : (Table.keys object).Nodup → (Table.keys record).Nodup

theorem get?_normalise_of_ne {key : Text} (h : key ≠ FieldName.type.key) :
    Fields.get? key (normalise type fields) =
      Fields.get? key (FieldName.normalise FieldName.ofEntry fields) :=
  Table.get?_put_of_ne h _ _

theorem get?_normalise_type :
    Fields.get? FieldName.type.key (normalise type fields) = some (.str type) :=
  Table.get?_put_self _ _ _

theorem ofEntry_cases {name : FieldName} (hname : name ∈ FieldName.ofEntry) :
    name = .type ∨ name = .credits ∨ name ∈ requiredTexts ∨ name ∈ optionalTexts := by
  revert name
  decide

theorem Valid.licence (h : Valid fields) : ∀ name ∈ FieldName.ofLicence, name.Optional fields :=
  fun name hname => h.texts name (List.mem_append_left _ hname)

theorem Valid.optional (h : Valid fields) {name : FieldName}
    (hname : name ∈ requiredTexts ∨ name ∈ optionalTexts) : name.Optional fields :=
  hname.elim (fun hname => (h.required name hname).optional) (h.texts name)

theorem bound?_of_unlicensed {name : FieldName} {data : Option Json}
    (h : Table.get? (name.key : Text) (ofFields type fields).unlicensed = some data) :
    bound? name.key (ofFields type fields).bindings = data := by
  rw [bound?, bindings, Table.get?_append, h]
  rfl

theorem bound?_of_licence (h : Valid fields) {name : FieldName}
    (hname : name ∈ FieldName.ofLicence) :
    bound? name.key (ofFields type fields).bindings = (name.text? fields).map .str := by
  have hkeys : ∀ name ∈ FieldName.ofLicence, (name.key : Text) ∉ ["name", "filename", "type",
      "shortDescription", "longDescription", "imageUrl"].map Text.ofString := by decide
  have hcredits : ∀ name ∈ FieldName.ofLicence, (name.key : Text) ∉ ["credits"].map Text.ofString :=
    by decide
  rw [bindings, bound?_append_right (hkeys name hname), bound?_append_left (hcredits name hname)]
  exact Licence.bound?_bindings h.licence h.spelling name hname

theorem bound?_credits : bound? FieldName.credits.key (ofFields type fields).bindings =
    (ofFields type fields).credits.map fun credits => .record credits.fields := by
  have hkeys : (FieldName.credits.key : Text) ∉ ["name", "filename", "type",
      "shortDescription", "longDescription", "imageUrl"].map Text.ofString := by decide
  have hlicence :
      (FieldName.credits.key : Text) ∉ Table.keys (ofFields type fields).licence.bindings :=
    (keyed_ofFields type fields).licence.not_mem_keys (by decide)
  rw [bindings, bound?_append_right hkeys, bound?_append_right hlicence]
  rfl

theorem bound?_bindings (h : Valid fields) {name : FieldName}
    (hname : name ∈ requiredTexts ∨ name ∈ optionalTexts) (htype : name ≠ .type) :
    bound? name.key (ofFields type fields).bindings = (name.text? fields).map .str := by
  obtain hname | hname := hname
  · obtain ⟨text, hgiven⟩ := h.required name hname
    have htext := FieldName.text?_eq_some_iff.mpr hgiven
    have hbound : Table.get? (name.key : Text) (ofFields type fields).unlicensed =
        some (some (.str ((name.text? fields).getD ""))) := by
      simp only [requiredTexts, List.mem_cons, List.not_mem_nil, or_false] at hname
      obtain rfl | rfl := hname <;> rfl
    rw [bound?_of_unlicensed hbound, htext]
    rfl
  · obtain hname | hname := List.mem_append.mp hname
    · exact bound?_of_licence h hname
    · refine bound?_of_unlicensed ?_
      simp only [List.mem_cons, List.not_mem_nil, or_false] at hname
      obtain rfl | rfl | rfl | rfl := hname
      · exact absurd rfl htype
      all_goals rfl

theorem credits_ofFields : (ofFields type fields).credits =
    ((FieldName.credits.given? fields).bind (·.record?)).map Credits.ofFields := by
  rw [← FieldName.map_supplied?, Option.bind_map]
  rfl

theorem showsCredits (h : Valid fields) : ShowsCredits (FieldName.credits.given? fields)
    ((ofFields type fields).credits.map fun credits => .record credits.fields) := by
  rw [credits_ofFields]
  cases hgiven : FieldName.credits.given? fields with
  | none => exact .missing
  | some data =>
    obtain rfl | ⟨credits, rfl, hvalid⟩ := h.credits data hgiven
    · exact .null
    · exact .record (Credits.shows_fields hvalid)

theorem shows_fields (h : Valid fields) : Shows type fields (ofFields type fields).fields := by
  have hdistinct : FieldName.Distinct FieldName.ofEntry := by decide
  have htype : FieldName.type ∈ FieldName.ofEntry := by decide
  have hcredits : FieldName.credits ∈ FieldName.ofEntry := by decide
  have hnamed := namedBy_bindings (keyed_ofFields type fields).licence
  rw [fields_eq_append (keyed_ofFields type fields)]
  refine ⟨?_, ?_, hnamed.nodup_keys⟩
  · intro key hne
    by_cases hkey : key ∈ FieldName.ofEntry.map (Text.ofString ·.key)
    · obtain ⟨name, hname, rfl⟩ := List.mem_map.mp hkey
      refine (hnamed.get?_key hname).trans ?_
      by_cases hself : name = .type
      · subst hself
        rw [get?_normalise_type]
        rfl
      have hother : (name.key : Text) ≠ FieldName.type.key :=
        fun heq => hself (hdistinct.eq_of_key_eq hname htype heq)
      obtain heq | rfl | htext := ofEntry_cases hname
      · exact absurd heq hself
      · exact absurd rfl hne
      · rw [bound?_bindings h htext hself, get?_normalise_of_ne hother,
          FieldName.get?_normalise_key hdistinct hname, (h.optional htext).bind_shown? hname]
    · have hother : key ≠ FieldName.type.key := by
        rintro rfl
        exact hkey (List.mem_map.mpr ⟨_, htype, rfl⟩)
      rw [get?_normalise_of_ne hother]
      exact hnamed.get?_other hdistinct hkey
  · have hgiven :
        Fields.get? "credits" (normalise type fields) = FieldName.credits.given? fields := by
      rw [get?_normalise_of_ne (by decide)]
      exact FieldName.get?_normalise_key hdistinct hcredits
    have hrecord : Fields.get? "credits"
        ((ofFields type fields).extra ++ present (ofFields type fields).bindings) = _ :=
      (hnamed.get?_key hcredits).trans bound?_credits
    rw [hgiven, hrecord]
    exact showsCredits h

end Entry

namespace Catalog
variable {known : List Text}

inductive Shown : Option Text × Json → Entry → Prop
  | intro {group fields type entry} : Entry.HasType group fields type →
      Entry.Shows type fields entry.fields →
      Shown (group, .record fields) entry

theorem Section.StandsFor.shown {item : Option Text × Json} {entry : Entry}
    (h : StandsFor known item entry) :
    Shown item entry := by
  obtain ⟨group, data⟩ := item
  cases h with
  | intro hfaults htype =>
    obtain ⟨hvalid, -⟩ := Entry.faults_eq_nil_iff.mp hfaults
    exact .intro (effectiveType?_eq_some_iff.mp htype) (Entry.shows_fields hvalid)

/-- The entries of a catalog show the items of the section that counts, one each and in their
order. -/
theorem ofJson_shows_items {data : Json} {catalog : Catalog} (h : ofJson known data = .ok catalog) :
    ∃ part, Selects known data part ∧ List.Forall₂ Shown part.items catalog.entries := by
  obtain ⟨part, hpart, hgives⟩ := ofJson_eq_ok_iff.mp h
  exact ⟨part, hpart, hgives.entries.imp fun _ _ => Section.StandsFor.shown⟩

def variedEntry : Fields Json := [
  ("licence", .null), ("license", .str "MIT"), ("license_code", .str "mit"),
  ("name", .str "Fog"), ("filename", .str "fog.fx"), ("image_url", .int 1),
    ("imageUrl", .str "fog.png"),
  ("credits", .record [("original_author", .str "A"), ("year", .null)]), ("passes", .null)]

theorem ofJson_shows_varied :
    ofJson ["BGX"] (.record [("grouped", .record [("BGX", .list [.record variedEntry])])]) =
      .ok ⟨[.ofFields "BGX" variedEntry], some [("BGX", [.ofFields "BGX" variedEntry])]⟩ ∧
    (∃ part, Selects ["BGX"] (.record [("grouped", .record [("BGX", .list [.record variedEntry])])])
      part ∧
      List.Forall₂ Shown part.items [.ofFields "BGX" variedEntry]) ∧
    (Entry.ofFields "BGX" variedEntry).fields = ([
      ("image_url", .int 1), ("passes", .null), ("name", .str "Fog"), ("filename", .str "fog.fx"),
      ("type", .str "BGX"), ("imageUrl", .str "fog.png"), ("license", .str "MIT"),
      ("licenseCode", .str "mit"),
      ("credits", .record [("year", .null), ("originalAuthor", .str "A")])] : Fields Json) := by
  have h : ofJson ["BGX"] (.record [("grouped", .record [("BGX", .list [.record variedEntry])])]) =
      .ok ⟨[.ofFields "BGX" variedEntry], some [("BGX", [.ofFields "BGX" variedEntry])]⟩ := by rfl
  exact ⟨h, ofJson_shows_items h, by rfl⟩

end Catalog
end CatalogPress
