import CatalogPress.Proofs.Value.Alike

/-!
Values as an image of data. Nothing of a datum is lost in its value, and looking a path up in the
value finds what following the path through the datum finds.
-/
namespace CatalogPress

/-- What a path leads to in data. A step leads to null where it meets no record, where the record
has no such field, and where the field is null. -/
def Json.walk : Json → List String → Json
  | data, [] => data
  | .record fields, name :: path =>
    match Fields.get? name fields with
    | none | some .null => .null
    | some data => data.walk path
  | _, _ :: _ => .null

namespace Value

mutual
theorem toJson_ofJson : ∀ data : Json, (ofJson data).toJson = data
  | .null | .bool _ | .num _ | .str _ => rfl
  | .list items => by rw [ofJson, toJson, toItems_ofItems items]
  | .record fields => by rw [ofJson, toJson, toFields_ofFields fields]

theorem toItems_ofItems : ∀ items : List Json, toItems (ofItems items) = items
  | [] => rfl
  | item :: rest => by rw [ofItems, toItems, toJson_ofJson item, toItems_ofItems rest]

theorem toFields_ofFields : ∀ fields : Fields Json, toFields (ofFields fields) = fields
  | [] => rfl
  | (name, data) :: rest => by rw [ofFields, toFields, toJson_ofJson data, toFields_ofFields rest]
end

theorem lookup_cons_of_absent {value : Value} {name : String}
    (h : value.field name = absent) (path : List String) :
    value.lookup (name :: path) = absent := by
  rw [lookup_cons, h, lookup_absent]

theorem lookup_ofJson (data : Json) (path : List String) :
    (ofJson data).lookup path = ofJson (data.walk path) := by
  induction path generalizing data with
  | nil => rw [lookup_nil, Json.walk]
  | cons name path ih =>
    cases data with
    | record fields =>
      have hfield := field_ofJson_record name fields
      rw [Json.walk]
      split
      · rename_i hnone
        rw [hnone] at hfield
        exact lookup_cons_of_absent hfield path
      · rename_i hnull
        rw [hnull] at hfield
        exact lookup_cons_of_absent hfield path
      · rename_i found _ hsome
        rw [hsome] at hfield
        rw [lookup_cons, hfield]
        exact ih found
    | null | bool | num | str | list => exact lookup_cons_of_absent rfl path

/-- Values are a faithful image of data: every datum comes back from its value, a path leads to the
same in both, and a path in two parts is looked up one part after the other. -/
theorem ofJson_faithful (data : Json) :
    (ofJson data).toJson = data ∧
    (∀ path, ((ofJson data).lookup path).toJson = data.walk path) ∧
    ∀ p q, (ofJson data).lookup (p ++ q) = ((ofJson data).lookup p).lookup q := by
  refine ⟨toJson_ofJson data, fun path => ?_, lookup_append (ofJson data)⟩
  rw [lookup_ofJson, toJson_ofJson]

end Value
end CatalogPress
