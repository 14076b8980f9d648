import CatalogPress.Text.Split
import Mathlib.Data.List.Basic

/-!
What the parts of a split list hold, and how a list is split that is put together from others.
-/
namespace CatalogPress.Text
variable {α : Type} {separator : α}

theorem eq_or_exists_of_mem_intercalate {lists : List (List α)} {a : α}
    (h : a ∈ [separator].intercalate lists) :
    a = separator ∨ ∃ list ∈ lists, a ∈ list := by
  induction lists with
  | nil => simp at h
  | cons first lists ih =>
    cases lists with
    | nil =>
      rw [List.intercalate_singleton] at h
      exact .inr ⟨first, List.mem_cons_self, h⟩
    | cons next lists =>
      rw [List.intercalate_cons_cons, List.append_assoc, List.mem_append] at h
      obtain h | h := h
      · exact .inr ⟨first, List.mem_cons_self, h⟩
      · rw [List.singleton_append, List.mem_cons] at h
        obtain h | h := h
        · exact .inl h
        · obtain h | ⟨list, hlist, ha⟩ := ih h
          · exact .inl h
          · exact .inr ⟨list, List.mem_cons_of_mem _ hlist, ha⟩

theorem intercalate_concat {lists : List (List α)} (h : lists ≠ []) (last : List α) :
    [separator].intercalate (lists ++ [last]) = [separator].intercalate lists ++
      separator :: last := by
  induction lists with
  | nil => exact absurd rfl h
  | cons first lists ih =>
    by_cases hlists : lists = []
    · rw [hlists, List.intercalate_singleton, List.singleton_append, List.intercalate_cons_cons,
        List.intercalate_singleton, List.append_assoc]
      rfl
    · rw [List.cons_append, List.intercalate_cons_of_ne_nil hlists, List.append_assoc, ← ih hlists,
        List.intercalate_cons_of_ne_nil (List.append_ne_nil_of_left_ne_nil hlists _),
        List.append_assoc]

theorem prefix_intercalate_cons (first : List α) (lists : List (List α)) :
    first <+: [separator].intercalate (first :: lists) := by
  cases lists with
  | nil => simp only [List.intercalate_singleton, List.prefix_rfl]
  | cons next lists =>
    rw [List.intercalate_cons_cons, List.append_assoc]
    exact List.prefix_append _ _

theorem suffix_intercalate_concat (lists : List (List α)) (last : List α) :
    last <:+ [separator].intercalate (lists ++ [last]) := by
  by_cases h : lists = []
  · simp only [h, List.nil_append, List.intercalate_singleton, List.suffix_rfl]
  · rw [intercalate_concat h]
    exact (List.suffix_cons _ _).trans (List.suffix_append _ _)

variable [DecidableEq α]

theorem splitList_append_of_not_mem {front list part : List α}
    {parts : List (List α)} (h : separator ∉ front)
    (hlist : splitList separator list = part :: parts) :
    splitList separator (front ++ list) = (front ++ part) :: parts := by
  induction front with
  | nil => exact hlist
  | cons a front ih =>
    rw [List.mem_cons, not_or] at h
    rw [List.cons_append, splitList, if_neg (Ne.symm h.1), ih h.2]
    rfl

theorem splitList_append_separator (a b : List α) :
    splitList separator (a ++ separator :: b) = splitList separator a ++ splitList separator b := by
  induction a with
  | nil => exact if_pos rfl
  | cons x a ih =>
    by_cases hx : x = separator
    · rw [List.cons_append, splitList, if_pos hx, ih, splitList, if_pos hx]
      rfl
    · obtain ⟨part, parts, hparts⟩ := List.exists_cons_of_ne_nil (splitList_ne_nil separator a)
      rw [List.cons_append, splitList, if_neg hx, ih, splitList, if_neg hx, hparts]
      rfl

theorem splitList_replicate_append (count : Nat) (list : List α) :
    splitList separator (List.replicate count separator ++ list) =
      List.replicate count [] ++ splitList separator list := by
  induction count with
  | zero => rfl
  | succ count ih =>
    rw [List.replicate_succ, List.cons_append, splitList, if_pos rfl, ih]
    rfl

theorem mem_of_mem_splitList {list part : List α} {a : α}
    (h : part ∈ splitList separator list) (ha : a ∈ part) :
    a ∈ list := by
  induction list generalizing part with
  | nil =>
    rw [List.mem_singleton.mp h] at ha
    exact ha
  | cons b list ih =>
    obtain ⟨first, parts, hparts⟩ := List.exists_cons_of_ne_nil (splitList_ne_nil separator list)
    rw [splitList, hparts] at h
    rw [hparts] at ih
    split at h
    · obtain rfl | h := List.mem_cons.mp h
      · cases ha
      · exact List.mem_cons_of_mem b (ih h ha)
    · obtain rfl | h := List.mem_cons.mp h
      · obtain rfl | ha := List.mem_cons.mp ha
        · exact List.mem_cons_self
        · exact List.mem_cons_of_mem b (ih List.mem_cons_self ha)
      · exact List.mem_cons_of_mem b (ih (List.mem_cons_of_mem first h) ha)

theorem not_mem_of_mem_splitList {list part : List α} (h : part ∈ splitList separator list) :
    separator ∉ part := by
  induction list generalizing part with
  | nil =>
    rw [List.mem_singleton.mp h]
    exact List.not_mem_nil
  | cons b list ih =>
    obtain ⟨first, parts, hparts⟩ := List.exists_cons_of_ne_nil (splitList_ne_nil separator list)
    rw [splitList, hparts] at h
    rw [hparts] at ih
    split at h
    · obtain rfl | h := List.mem_cons.mp h
      · exact List.not_mem_nil
      · exact ih h
    · rename_i hb
      obtain rfl | h := List.mem_cons.mp h
      · exact List.not_mem_cons_of_ne_of_not_mem (Ne.symm hb) (ih List.mem_cons_self)
      · exact ih (List.mem_cons_of_mem first h)

end CatalogPress.Text
