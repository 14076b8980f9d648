import Mathlib.Data.List.Basic

/-!
Two lists one after the other, where the last element of the one and the first of the other may
merge into one element. Nothing else changes.
-/
namespace CatalogPress.Text
variable {α β : Type} {merge : α → α → Option α}

def join (merge : α → α → Option α) : List α → List α → List α
  | [], ys => ys
  | [x], y :: ys => (merge x y).elim (x :: y :: ys) (· :: ys)
  | x :: xs, ys => x :: join merge xs ys

@[simp] theorem join_nil_left (ys : List α) : join merge [] ys = ys :=
  rfl

theorem join_singleton (x y : α) (ys : List α) :
    join merge [x] (y :: ys) = (merge x y).elim (x :: y :: ys) (· :: ys) :=
  rfl

@[simp] theorem join_nil_right (xs : List α) : join merge xs [] = xs := by
  induction xs with
  | nil => rfl
  | cons x xs ih =>
    cases xs with
    | nil => rfl
    | cons next xs => exact congrArg (x :: ·) ih

theorem join_cons {xs : List α} (h : xs ≠ []) (x : α) (ys : List α) :
    join merge (x :: xs) ys = x :: join merge xs ys := by
  cases xs with
  | nil => exact absurd rfl h
  | cons next xs => rfl

theorem join_append {b : List α} (h : b ≠ []) (a ys : List α) :
    join merge (a ++ b) ys = a ++ join merge b ys := by
  induction a with
  | nil => rfl
  | cons x a ih => rw [List.cons_append, join_cons (by simp [h]), ih, List.cons_append]

theorem join_singleton_of_some {x y z : α} (h : merge x y = some z) (ys : List α) :
    join merge [x] (y :: ys) = z :: ys := by
  rw [join_singleton, h]
  rfl

theorem join_cons_of_none {x : α} (h : ∀ y, merge x y = none) (xs ys : List α) :
    join merge (x :: xs) ys = x :: join merge xs ys := by
  cases xs with
  | nil =>
    cases ys with
    | nil => rfl
    | cons y ys =>
      rw [join_singleton, h]
      rfl
  | cons next xs => exact join_cons (List.cons_ne_nil _ _) x ys

theorem join_of_none {y : α} (h : ∀ x, merge x y = none) (xs ys : List α) :
    join merge xs (y :: ys) = xs ++ y :: ys := by
  induction xs with
  | nil => simp
  | cons x xs ih =>
    cases xs with
    | nil =>
      rw [join_singleton, h]
      rfl
    | cons next xs =>
      rw [join_cons (List.cons_ne_nil _ _), ih]
      rfl

theorem join_cases (merge : α → α → Option α) (xs ys : List α) :
    join merge xs ys = xs ++ ys ∨ ∃ before x y z after, xs = before ++ [x] ∧ ys = y :: after ∧
      merge x y = some z ∧ join merge xs ys = before ++ z :: after := by
  obtain rfl | ⟨before, x, rfl⟩ := List.eq_nil_or_concat' xs
  · exact .inl (join_nil_left ys)
  cases ys with
  | nil =>
    rw [join_nil_right, List.append_nil]
    exact .inl rfl
  | cons y after =>
    rw [join_append (List.cons_ne_nil _ _)]
    cases hmerge : merge x y with
    | none =>
      rw [join_singleton, hmerge, List.append_assoc]
      exact .inl rfl
    | some z =>
      rw [join_singleton_of_some hmerge]
      exact .inr ⟨before, x, y, z, after, rfl, rfl, hmerge, rfl⟩

theorem map_join {merge' : β → β → Option β} {f : α → β}
    (h : ∀ x y, merge' (f x) (f y) = (merge x y).map f) (xs ys : List α) :
    (join merge xs ys).map f = join merge' (xs.map f) (ys.map f) := by
  induction xs with
  | nil => simp
  | cons x xs ih =>
    cases xs with
    | nil =>
      cases ys with
      | nil => simp
      | cons y ys =>
        simp only [List.map_cons, List.map_nil, join_singleton, h]
        cases merge x y <;> rfl
    | cons next xs =>
      have hne : (next :: xs).map f ≠ [] := by simp
      rw [join_cons (List.cons_ne_nil _ _), List.map_cons, ih]
      exact (join_cons hne _ _).symm

end CatalogPress.Text
