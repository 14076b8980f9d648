import CatalogPress.Text.Basic

/-!
Splitting at every occurrence of a separator. What does not hold the separator is one part, so there
is always at least one.
-/
namespace CatalogPress.Text
variable {α : Type} [DecidableEq α]

def splitList (separator : α) : List α → List (List α)
  | [] => [[]]
  | a :: rest =>
    if a = separator then [] :: splitList separator rest
    else
      match splitList separator rest with
      | [] => [[a]]
      | part :: parts => (a :: part) :: parts

def split (separator : Char) (text : String) : List String :=
  (splitList separator text.toList).map String.ofList

theorem splitList_ne_nil (separator : α) (list : List α) : splitList separator list ≠ [] := by
  cases list with
  | nil => simp [splitList]
  | cons a rest =>
    simp only [splitList]
    split
    · simp
    · split <;> simp

theorem intercalate_splitList (separator : α) (list : List α) :
    [separator].intercalate (splitList separator list) = list := by
  induction list with
  | nil => simp [splitList]
  | cons a rest ih =>
    obtain ⟨part, parts, h⟩ := List.exists_cons_of_ne_nil (splitList_ne_nil separator rest)
    rw [h] at ih
    by_cases ha : a = separator
    · simp [splitList, h, ha, List.intercalate_cons_cons, ih]
    · cases parts with
      | nil => simpa [splitList, h, ha] using ih
      | cons next parts =>
        simp only [splitList, ha, if_false, h, List.intercalate_cons_cons, List.cons_append] at ih ⊢
        rw [ih]

theorem splitList_of_not_mem {separator : α} {list : List α} (h : separator ∉ list) :
    splitList separator list = [list] := by
  induction list with
  | nil => rfl
  | cons a rest ih =>
    rw [List.mem_cons, not_or] at h
    rw [splitList, if_neg (Ne.symm h.1), ih h.2]

theorem splitList_append_cons {separator : α} {part : List α}
    (h : separator ∉ part) (rest : List α) :
    splitList separator (part ++ separator :: rest) = part :: splitList separator rest := by
  induction part with
  | nil => rw [List.nil_append, splitList, if_pos rfl]
  | cons a part ih =>
    rw [List.mem_cons, not_or] at h
    rw [List.cons_append, splitList, if_neg (Ne.symm h.1), ih h.2]

theorem splitList_intercalate {separator : α} {parts : List (List α)} (hne : parts ≠ [])
    (h : ∀ part ∈ parts, separator ∉ part) :
    splitList separator ([separator].intercalate parts) = parts := by
  induction parts with
  | nil => exact absurd rfl hne
  | cons part parts ih =>
    obtain ⟨hpart, hparts⟩ := List.forall_mem_cons.mp h
    cases parts with
    | nil => rw [List.intercalate_singleton, splitList_of_not_mem hpart]
    | cons next parts =>
      rw [List.intercalate_cons_cons, List.append_assoc, List.singleton_append,
        splitList_append_cons hpart, ih (List.cons_ne_nil _ _) hparts]

end CatalogPress.Text
