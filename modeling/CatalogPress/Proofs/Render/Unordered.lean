import CatalogPress.Proofs.Json.Unordered
import CatalogPress.Proofs.Render.Names

/-!
What templates cannot see of data: the order of the fields of a record and fields that are null.
-/
namespace CatalogPress
namespace Value
open Json Fallible
variable {a b : Json}

theorem getD_eq_absent {data : Option Json} (h : data.bind held? = none) :
    (data.map ofJson).getD absent = absent := by
  obtain rfl | rfl := bind_held?_eq_none h <;> rfl

theorem alike_of_rel_held? {left right : Option Json}
    (h : Option.Rel Reordered (left.bind held?) (right.bind held?))
    (halike : ∀ data ∈ left, ∀ data' ∈ right, Reordered data.withoutNulls data'.withoutNulls →
      Alike (ofJson data) (ofJson data')) :
    Alike ((left.map ofJson).getD absent) ((right.map ofJson).getD absent) := by
  generalize hleft : left.bind held? = held at h
  generalize hright : right.bind held? = held' at h
  cases h with
  | none =>
    rw [getD_eq_absent hleft, getD_eq_absent hright]
    exact .refl absent
  | some hsame =>
    obtain ⟨data, rfl, rfl⟩ := bind_held?_eq_some hleft
    obtain ⟨data', rfl, rfl⟩ := bind_held?_eq_some hright
    exact halike data rfl data' rfl hsame

/-- Data that are equal but for the order of fields and for null fields give values that templates
cannot tell apart. -/
theorem alike_of_reordered (ha : a.WellKeyed) (hb : b.WellKeyed)
    (h : Reordered a.withoutNulls b.withoutNulls) :
    Alike (ofJson a) (ofJson b) := by
  induction ha generalizing b with
  | null | bool | num | str =>
    -- Reordering leaves a leaf as it is.
    cases b <;> cases h
    exact .refl _
  | @list as has ih =>
    obtain ⟨rest, hrest, hitems⟩ := h.of_list
    cases hb with
    | null | bool | num | str | record => cases hrest
    | @list bs hbs =>
      cases hrest
      rw [itemsWithoutNulls_eq_map, itemsWithoutNulls_eq_map, List.forall₂_map_left_iff,
        List.forall₂_map_right_iff] at hitems
      rw [ofJson, ofJson, ofItems_eq_map, ofItems_eq_map]
      refine .list (List.forall₂_map_left_iff.mpr (List.forall₂_map_right_iff.mpr ?_))
      exact forall₂_imp_of_mem hitems
        fun item hitem item' hitem' => ih item hitem (hbs item' hitem')
  | @record as hkeys has ih =>
    obtain ⟨rest, hrest, hsame⟩ := h.of_record (hkeys.sublist (keys_fieldsWithoutNulls_sublist as))
    cases hb with
    | null | bool | num | str | list => cases hrest
    | @record bs hkeys' hbs =>
      cases hrest
      have hfields (name : String) :
          Alike ((ofJson (.record as)).field name) ((ofJson (.record bs)).field name) := by
        have hheld := hsame name
        rw [get?_fieldsWithoutNulls hkeys, get?_fieldsWithoutNulls hkeys'] at hheld
        rw [field_ofJson_record, field_ofJson_record]
        exact alike_of_rel_held? hheld fun data hdata data' hdata' =>
          ih _ (Table.mem_of_get? hdata) (hbs _ (Table.mem_of_get? hdata'))
      rw [ofJson, ofJson] at hfields ⊢
      exact .record hfields

end Value

namespace Render
open Json

/-- Neither the order of fields nor null fields can be seen in what a template gives, be it a text
or an error. -/
theorem render_forgets_order_and_nulls (template : Template) (limit : Int)
    {a b : Json} (ha : a.WellKeyed) (hb : b.WellKeyed)
    (h : Reordered a.withoutNulls b.withoutNulls) :
    template.render (.ofJson a) limit = template.render (.ofJson b) limit :=
  render_eq_of_alikeOn (.alike (Value.alike_of_reordered ha hb h))

/-- Rows with a null item, whose record and the one around them are written in another order and
without the null fields. -/
theorem render_forgets_order_and_nulls_of_rows :
    let old : Fields Json := [("size", .int 2), ("kind", .str "old")]
    let left : Json := .record [("title", .str "Fog"), ("note", .null),
      ("rows", .list [.null, .record (("mode", .null) :: old)])]
    let right : Json :=
      .record [("rows", .list [.null, .record old.reverse]), ("title", .str "Fog")]
    let template : Template := ⟨[.interpolation (.path ["title"]) .start, .each ["rows"]
      [.literal ";", .interpolation (.path ["size"]) .start,
        .conditional (.comparison .ne "mode" "new") [.literal "!"] .start] .start], "t"⟩
    template.render (.ofJson left) 2 = .ok "Fog;!\n;2!" ∧
      template.render (.ofJson left) 2 = template.render (.ofJson right) 2 := by
  intro old left right template
  have hleft : left.WellKeyed := by simp [left, old, Json.int]
  have hright : right.WellKeyed := by simp [right, old, Json.int]
  have hrow : Reordered (.record old) (.record old.reverse) :=
    .record rfl (List.forall₂_same.mpr fun data _ => .refl data) (List.reverse_perm old).symm
  have hrows : Reordered (.list [.null, .record old]) (.list [.null, .record old.reverse]) :=
    .list (.cons (.refl _) (.cons hrow .nil))
  have hsame : Reordered left.withoutNulls right.withoutNulls :=
    @Reordered.record _ [("title", .str "Fog"), ("rows", .list [.null, .record old.reverse])] _ rfl
      (.cons (.refl _) (.cons hrows .nil)) (List.Perm.swap _ _ _)
  exact ⟨rfl, render_forgets_order_and_nulls template 2 hleft hright hsame⟩

end Render
end CatalogPress
