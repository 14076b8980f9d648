import CatalogPress.Proofs.Table
import Mathlib.Data.List.Perm.Basic

/-!
Interleaving lists that are kept under keys. Each item of the row carries its key, so the items of
one key can be told apart again, and they are in their order.
-/
namespace CatalogPress.Table
variable {κ α β : Type}

def spread (groups : Table κ (List α)) : List (κ × α) :=
  groups.flatMap fun group => group.2.map (group.1, ·)

/-- A row that takes, again and again, the first item that is left in one of the lists. -/
inductive Interleaving : Table κ (List α) → List (κ × α) → Prop
  | nil {groups} : (∀ group ∈ groups, group.2 = []) → Interleaving groups []
  | cons {before after key item items row} :
      Interleaving (before ++ (key, items) :: after) row →
      Interleaving (before ++ (key, item :: items) :: after) ((key, item) :: row)

theorem spread_append (a b : Table κ (List α)) : spread (a ++ b) = spread a ++ spread b :=
  List.flatMap_append

theorem spread_cons (key : κ) (items : List α) (groups : Table κ (List α)) :
    spread ((key, items) :: groups) = items.map (key, ·) ++ spread groups := rfl

theorem spread_eq_nil {groups : Table κ (List α)} (h : ∀ group ∈ groups, group.2 = []) :
    spread groups = [] := by
  rw [spread, List.flatMap_eq_nil_iff]
  intro group hgroup
  rw [h group hgroup, List.map_nil]

theorem map_spread (f : κ × α → β) (groups : Table κ (List α)) :
    (spread groups).map f = groups.flatMap
      fun group => group.2.map fun item => f (group.1, item) := by
  simp [spread, List.map_flatMap, Function.comp_def]

namespace Interleaving
variable {groups : Table κ (List α)} {row : List (κ × α)}

theorem perm (h : Interleaving groups row) : row.Perm (spread groups) := by
  induction h with
  | nil h => rw [spread_eq_nil h]
  | @cons before after key item items row _ ih =>
    rw [spread_append, spread_cons] at ih ⊢
    calc
      (key, item) :: row
        |>.Perm ((key, item) :: (spread before ++ (items.map (key, ·) ++ spread after))) :=
        ih.cons _
      _ |>.Perm (spread before ++ (key, item) :: (items.map (key, ·) ++ spread after)) :=
          List.perm_middle.symm

variable [DecidableEq κ]

/-- The items of a key stand in the row in the order of their list. -/
theorem filter_eq (hkeys : (keys groups).Nodup) (h : Interleaving groups row) (key : κ) :
    row.filter (·.1 = key) = spread (groups.filter (·.1 = key)) := by
  induction h with
  | nil h =>
    rw [spread_eq_nil fun group hgroup => h group (List.mem_filter.mp hgroup).1, List.filter_nil]
  | @cons before after k item items row _ ih =>
    have hsame :
        keys (before ++ (k, item :: items) :: after) = keys (before ++ (k, items) :: after) := by
      simp
    have ih := ih (hsame ▸ hkeys)
    by_cases hkey : k = key
    · -- No list before this one has the same key, so its next item is the first one of that key.
      have hbefore : before.filter (·.1 = key) = [] := by
        rw [keys_append, keys_cons] at hkeys
        have hfresh : k ∉ keys before := fun hmem =>
          (List.nodup_append.mp hkeys).2.2 k hmem k List.mem_cons_self rfl
        rw [List.filter_eq_nil_iff]
        intro group hgroup hgroupKey
        exact hfresh (hkey ▸ of_decide_eq_true hgroupKey ▸ mem_keys_of_mem hgroup)
      have hkept (list : List α) : spread ((before ++ (k, list) :: after).filter (·.1 = key)) =
          list.map (k, ·) ++ spread (after.filter (·.1 = key)) := by
        rw [List.filter_append, hbefore, List.filter_cons,
          if_pos (decide_eq_true hkey), List.nil_append, spread_cons]
      rw [hkept] at ih ⊢
      rw [List.filter_cons, if_pos (decide_eq_true hkey), ih, List.map_cons, List.cons_append]
    · have hdropped (list : List α) : (before ++ (k, list) :: after).filter (·.1 = key) =
          before.filter (·.1 = key) ++ after.filter (·.1 = key) := by
        simp [hkey]
      rw [hdropped] at ih ⊢
      rw [List.filter_cons, if_neg (by simpa using hkey), ih]

end Interleaving
end CatalogPress.Table
