import CatalogPress.Context.Basic
import CatalogPress.Proofs.Catalog.Record
import CatalogPress.Proofs.Value.Alike

/-!
What suppressing the default licence does to the record of an entry: the fields that state a default
are deleted, in the entry and in its credits, and nothing else changes.
-/
namespace CatalogPress

namespace Value

theorem ofJson_eq_str_iff {data : Json} {text : Text} : ofJson data = .str text ↔
    data = .str text := by
  cases data <;> simp [ofJson]

theorem exists_of_field_eq_str {data : Json} {key : String} {text : Text}
    (h : (ofJson data).field key = .str text) :
    ∃ fields, data = .record fields ∧ Fields.get? key fields = some (.str text) := by
  cases data with
  | record fields =>
    rw [field_ofJson_record] at h
    cases hget : Fields.get? key fields with
    | none =>
      rw [hget] at h
      cases h
    | some data =>
      rw [hget] at h
      exact ⟨fields, rfl, hget.trans (congrArg some (ofJson_eq_str_iff.mp h))⟩
  | _ => cases h

end Value

namespace LicenceDefaults

/-- A field states a default: the text or the code, in either spelling. -/
def states (defaults : LicenceDefaults) : Text × Json → Bool
  | (key, .str text) =>
    (key ∈ Licence.textKeys.map Text.ofString ∧ defaults.text = some text) ∨
      (key ∈ Licence.codeKeys.map Text.ofString ∧ defaults.code = some text)
  | _ => false

def clear (defaults : LicenceDefaults) (fields : Fields Json) : Fields Json :=
  fields.filter (!defaults.states ·)

def clearCredits (defaults : LicenceDefaults) : Text × Json → Text × Json
  | (key, .record credits) =>
    (key, .record (if key = "credits" then defaults.clear credits else credits))
  | field => field

def clearEntry (defaults : LicenceDefaults) (fields : Fields Json) : Fields Json :=
  (defaults.clear fields).map defaults.clearCredits

structure Absent (defaults : LicenceDefaults) (record : Value) : Prop where
  text : ∀ key ∈ Licence.textKeys, ∀ text, defaults.text = some text → record.field key ≠ .str text
  code : ∀ key ∈ Licence.codeKeys, ∀ code, defaults.code = some code → record.field key ≠ .str code

variable {defaults : LicenceDefaults}

theorem states_of_text {key : String} (h : key ∈ Licence.textKeys) (text : Text) :
    defaults.states (key, .str text) = decide (defaults.text = some text) := by
  have hcode : key ∉ Licence.codeKeys := Licence.codeKeys_of_textKeys key h
  simp [states, h, hcode]

theorem states_of_code {key : String} (h : key ∈ Licence.codeKeys) (code : Text) :
    defaults.states (key, .str code) = decide (defaults.code = some code) := by
  have htext : key ∉ Licence.textKeys := fun htext => Licence.codeKeys_of_textKeys key htext h
  simp [states, h, htext]

theorem states_of_other {field : Text × Json}
    (htext : field.1 ∉ Licence.textKeys.map Text.ofString)
    (hcode : field.1 ∉ Licence.codeKeys.map Text.ofString) : defaults.states field = false := by
  obtain ⟨key, data⟩ := field
  cases data <;> simp_all [states]

theorem clear_append (a b : Fields Json) :
    defaults.clear (a ++ b) = defaults.clear a ++ defaults.clear b :=
  List.filter_append ..

theorem clear_of_unlicensed {fields : Fields Json}
    (h : ∀ key ∈ Licence.textKeys ++ Licence.codeKeys, (key : Text) ∉ Table.keys fields) :
    defaults.clear fields = fields := by
  rw [clear, List.filter_eq_self]
  intro field hfield
  rw [states_of_other, Bool.not_false]
  · intro htext
    obtain ⟨key, hkey, heq⟩ := List.mem_map.mp htext
    exact h key (List.mem_append_left _ hkey) (heq ▸ Table.mem_keys_of_mem hfield)
  · intro hcode
    obtain ⟨key, hkey, heq⟩ := List.mem_map.mp hcode
    exact h key (List.mem_append_right _ hkey) (heq ▸ Table.mem_keys_of_mem hfield)

theorem clearEntry_append (a b : Fields Json) :
    defaults.clearEntry (a ++ b) = defaults.clearEntry a ++ defaults.clearEntry b := by
  rw [clearEntry, clear_append, List.map_append]
  rfl

theorem clearCredits_of_ne {field : Text × Json} (h : field.1 ≠ "credits") :
    defaults.clearCredits field = field := by
  obtain ⟨key, data⟩ := field
  cases data <;> simp_all [clearCredits]

theorem clearEntry_of_not_mem {fields : Fields Json} (h : ("credits" : Text) ∉ Table.keys fields) :
    defaults.clearEntry fields = defaults.clear fields := by
  have hsame : ∀ field ∈ defaults.clear fields, defaults.clearCredits field = field := by
    intro field hfield
    refine clearCredits_of_ne fun hkey => h ?_
    exact hkey ▸ Table.mem_keys_of_mem (List.mem_filter.mp hfield).1
  rw [clearEntry, List.map_congr_left hsame, List.map_id']

theorem states_clearCredits (field : Text × Json) :
    defaults.states (defaults.clearCredits field) = defaults.states field := by
  obtain ⟨key, data⟩ := field
  cases data <;> rfl

theorem absent_ofJson {data : Json}
    (h : ∀ fields, data = .record fields → ∀ field ∈ fields, defaults.states field = false) :
    defaults.Absent (Value.ofJson data) := by
  have hshown {key : String} {text : Text} (hfield : (Value.ofJson data).field key = .str text) :
      defaults.states (key, .str text) = false := by
    obtain ⟨fields, rfl, hget⟩ := Value.exists_of_field_eq_str hfield
    exact h fields rfl _ (Table.mem_of_get? hget)
  constructor
  · intro key hkey text hdefault hfield
    have hstates := hshown hfield
    rw [states_of_text hkey, decide_eq_false_iff_not] at hstates
    exact hstates hdefault
  · intro key hkey code hdefault hfield
    have hstates := hshown hfield
    rw [states_of_code hkey, decide_eq_false_iff_not] at hstates
    exact hstates hdefault

theorem states_of_mem_clear {fields : Fields Json} {field : Text × Json}
    (h : field ∈ defaults.clear fields) : defaults.states field = false := by
  simpa using (List.mem_filter.mp h).2

theorem absent_clearEntry (fields : Fields Json) :
    defaults.Absent (Value.ofJson (.record (defaults.clearEntry fields))) := by
  refine absent_ofJson fun cleared hcleared field hfield => ?_
  cases hcleared
  obtain ⟨given, hgiven, rfl⟩ := List.mem_map.mp hfield
  rw [states_clearCredits]
  exact states_of_mem_clear hgiven

theorem absent_credits_clearEntry (fields : Fields Json) :
    defaults.Absent ((Value.ofJson (.record (defaults.clearEntry fields))).field "credits") := by
  rw [Value.field_ofJson_record]
  cases hcredits : Fields.get? "credits" (defaults.clearEntry fields) with
  | none =>
    change defaults.Absent (Value.ofJson .null)
    exact absent_ofJson nofun
  | some data =>
    refine absent_ofJson fun credits hdata field hfield => ?_
    subst hdata
    obtain ⟨⟨key, given⟩, -, hgiven⟩ := List.mem_map.mp (Table.mem_of_get? hcredits)
    cases given with
    | record given =>
      obtain ⟨rfl, hcleared⟩ := Prod.mk.inj hgiven
      rw [if_pos rfl, Json.record.injEq] at hcleared
      exact states_of_mem_clear (hcleared ▸ hfield)
    | _ => cases hgiven

end LicenceDefaults

open LicenceDefaults

theorem present_unlessDefault (defaults : LicenceDefaults) {key : Text} {default : Option Text}
    (h : ∀ text, defaults.states (key, .str text) = decide (default = some text))
    (value : Option Text) :
    present [(key, (unlessDefault default value).map .str)] =
      defaults.clear (present [(key, value.map .str)]) := by
  cases value with
  | none => cases default <;> rfl
  | some text =>
    by_cases hdefault : default = some text
    · simp [present, clear, unlessDefault, h, hdefault]
    · simp [present, clear, unlessDefault, h, hdefault, Ne.symm hdefault]

theorem Licence.present_suppress {licence : Licence} (h : licence.Keyed)
    (defaults : LicenceDefaults) :
    present (licence.suppress defaults).bindings = defaults.clear (present licence.bindings) := by
  have htext := present_unlessDefault defaults (states_of_text h.text) licence.text
  have hcode := present_unlessDefault defaults (states_of_code h.code) licence.code
  have hsplit (licence : Licence) : licence.bindings =
      [((licence.textKey : Text), licence.text.map Json.str)] ++
        [((licence.codeKey : Text), licence.code.map Json.str)] := rfl
  rw [hsplit, hsplit, present_append, present_append, clear_append]
  exact congrArg₂ _ htext hcode

theorem Licence.Keyed.suppress {licence : Licence} (h : licence.Keyed)
    (defaults : LicenceDefaults) :
    (licence.suppress defaults).Keyed :=
  ⟨h.text, h.code⟩

namespace Credits

theorem Keyed.suppress {credits : Credits} (h : credits.Keyed) (defaults : LicenceDefaults) :
    (credits.suppress defaults).Keyed :=
  ⟨h.licence.suppress defaults, h.extra⟩

theorem suppress_suppress (credits : Credits) (defaults : LicenceDefaults) :
    (credits.suppress defaults).suppress defaults = credits.suppress defaults := by
  simp [suppress]

theorem fields_suppress {credits : Credits} (h : credits.Keyed) (defaults : LicenceDefaults) :
    (credits.suppress defaults).fields = defaults.clear credits.fields := by
  have hextra : defaults.clear credits.extra = credits.extra :=
    clear_of_unlicensed <| Licence.forall_keys.mpr fun name hname =>
      h.extra name (List.mem_append_left _ hname)
  have hunlicensed : defaults.clear (present credits.unlicensed) = present credits.unlicensed := by
    refine clear_of_unlicensed fun key hkey hpresent => ?_
    have hpresent := mem_keys_of_mem_present hpresent
    revert key
    simp [Licence.textKeys, Licence.codeKeys, unlicensed, Table.keys]
  rw [fields_eq_append (h.suppress defaults), fields_eq_append h]
  unfold bindings
  rw [present_append, present_append, clear_append, clear_append, hextra, hunlicensed,
    ← Licence.present_suppress h.licence]
  rfl

end Credits

namespace Entry

theorem Keyed.suppress {entry : Entry} (h : entry.Keyed) (defaults : LicenceDefaults) :
    (entry.suppress defaults).Keyed where
  licence := h.licence.suppress defaults
  credits := by
    intro suppressed hsuppressed
    obtain ⟨credits, hcredits, rfl⟩ := Option.map_eq_some_iff.mp hsuppressed
    exact (h.credits credits hcredits).suppress defaults
  extra := h.extra

theorem suppress_suppress (entry : Entry) (defaults : LicenceDefaults) :
    (entry.suppress defaults).suppress defaults = entry.suppress defaults := by
  unfold suppress
  cases entry.credits <;> simp [Credits.suppress_suppress]

theorem present_creditsBinding_suppress {entry : Entry} (h : entry.Keyed)
    (defaults : LicenceDefaults) :
    present (entry.suppress defaults).creditsBinding =
      defaults.clearEntry (present entry.creditsBinding) := by
  cases hcredits : entry.credits with
  | none => simp [creditsBinding, suppress, hcredits, present, clearEntry, clear]
  | some credits =>
    have hfields := Credits.fields_suppress (h.credits credits hcredits) defaults
    have hgiven :
        present entry.creditsBinding = [(("credits" : Text), Json.record credits.fields)] := by
      simp [creditsBinding, hcredits, present]
    have hsuppressed : present (entry.suppress defaults).creditsBinding =
        [(("credits" : Text), Json.record (defaults.clear credits.fields))] := by
      simp [creditsBinding, suppress, hcredits, present, hfields]
    rw [hgiven, hsuppressed]
    simp [clearEntry, clear, states, clearCredits]

theorem fields_suppress {entry : Entry} (h : entry.Keyed) (defaults : LicenceDefaults) :
    (entry.suppress defaults).fields = defaults.clearEntry entry.fields := by
  have hextra : defaults.clearEntry entry.extra = entry.extra := by
    rw [clearEntry_of_not_mem (h.extra .credits (by decide))]
    exact clear_of_unlicensed <| Licence.forall_keys.mpr fun name hname =>
      h.extra name (List.mem_append_left _ hname)
  have hunlicensed : defaults.clearEntry (present entry.unlicensed) = present entry.unlicensed := by
    rw [clearEntry_of_not_mem fun hpresent => ?_]
    · refine clear_of_unlicensed fun key hkey hpresent => ?_
      have hpresent := mem_keys_of_mem_present hpresent
      revert key
      simp [Licence.textKeys, Licence.codeKeys, unlicensed, Table.keys]
    · have hpresent := mem_keys_of_mem_present hpresent
      simp [unlicensed, Table.keys] at hpresent
  have hlicence : defaults.clearEntry (present entry.licence.bindings) =
      present (entry.licence.suppress defaults).bindings := by
    rw [clearEntry_of_not_mem fun hpresent => ?_, Licence.present_suppress h.licence]
    obtain ⟨key, hkey, heq⟩ := h.licence.exists_key (mem_keys_of_mem_present hpresent)
    cases Text.ofString_inj heq
    revert hkey
    decide
  rw [fields_eq_append (h.suppress defaults), fields_eq_append h]
  unfold bindings
  simp only [present_append, clearEntry_append, hextra, hunlicensed, hlicence,
    ← present_creditsBinding_suppress h]
  rfl

end Entry
end CatalogPress
