import CatalogPress.Proofs.Table
import CatalogPress.Value.Text
import Mathlib.Data.List.Forall2

/-!
Values that templates cannot tell apart. Whatever can be asked of two such values, their text, their
truth, a field or their items, the answers are alike again.
-/
namespace CatalogPress.Value

theorem field_ofJson_record (key : String) (fields : Fields Json) :
    (ofJson (.record fields)).field key = ((Fields.get? key fields).map ofJson).getD absent := by
  rw [ofJson, ofFields_eq_map]
  exact congrArg (·.getD absent) (Table.get?_map ofJson (key : Text) fields)

/-- Records whose fields are alike, in whatever order, lists with alike items, and numbers of one
text. A field that is absent is like one that is not there. -/
inductive Alike : Value → Value → Prop
  | refl (value : Value) : Alike value value
  | num {a b : Number} : a.render = b.render → Alike (.num a) (.num b)
  | list {as bs : List Value} : List.Forall₂ Alike as bs → Alike (.list as) (.list bs)
  | record {as bs : Fields Value} :
      (∀ name, Alike ((Value.record as).field name) ((Value.record bs).field name)) →
      Alike (.record as) (.record bs)

namespace Alike
variable {a b : Value}

theorem isTruthy_eq (h : Alike a b) : a.isTruthy = b.isTruthy := by
  cases h <;> rfl

theorem isAbsent_eq (h : Alike a b) : a.isAbsent = b.isAbsent := by
  cases h <;> rfl

theorem field (h : Alike a b) (name : String) : Alike (a.field name) (b.field name) := by
  cases h with
  | refl => exact .refl _
  | num => exact .refl _
  | list => exact .refl _
  | record hfields => exact hfields name

theorem lookup (h : Alike a b) (path : List String) : Alike (a.lookup path) (b.lookup path) := by
  induction path generalizing a b with
  | nil => exact h
  | cons name path ih =>
    rw [lookup_cons, lookup_cons]
    exact ih (h.field name)

theorem items (h : Alike a b) : List.Forall₂ Alike a.items b.items := by
  cases h with
  | refl => exact List.forall₂_same.mpr fun item _ => .refl item
  | num => exact .nil
  | list hitems => exact hitems
  | record => exact .nil

end Alike

mutual
theorem render_eq_of_alike : ∀ {a b : Value}, Alike a b → a.render = b.render
  | .list as, _, h => by
    cases h with
    | refl => rfl
    | list hitems => rw [render, render, renderItems_eq_of_alike hitems]
  | .num a, _, h => by
    cases h with
    | refl => rfl
    | num htext => rw [render, render, htext]
  | .absent, _, h | .bool _, _, h | .str _, _, h | .record _, _, h => by
    cases h <;> rfl

theorem renderItems_eq_of_alike :
    ∀ {as bs : List Value}, List.Forall₂ Alike as bs → renderItems as = renderItems bs
  | [], _, h => by
    cases h
    rfl
  | a :: as, _, h => by
    cases h with
    | cons hhead htail =>
      rw [renderItems, renderItems, render_eq_of_alike hhead, renderItems_eq_of_alike htail]
end

end CatalogPress.Value
