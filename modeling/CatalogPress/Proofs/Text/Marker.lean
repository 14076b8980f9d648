import Mathlib.Data.List.Infix

/-!
Where a list holds the same element twice in a row, and on which side of a separator it holds
another list.
-/
namespace CatalogPress.Text
variable {α : Type} {c : α}

theorem pair_infix_cons_iff {a : α} {list : List α} :
    [c, c] <:+: a :: list ↔ (a = c ∧ list.head? = some c) ∨ [c, c] <:+: list := by
  rw [List.infix_cons_iff, List.cons_prefix_cons, List.singleton_prefix_iff_head?_eq_some]
  simp only [eq_comm]

theorem pair_infix_append_iff {a b : List α} :
    [c, c] <:+: a ++ b ↔
      [c, c] <:+: a ∨ [c, c] <:+: b ∨ (a.getLast? = some c ∧ b.head? = some c) := by
  induction a with
  | nil => simp
  | cons first a ih =>
    rw [List.cons_append, pair_infix_cons_iff, pair_infix_cons_iff, ih]
    cases a with
    | nil => simp; tauto
    | cons second a => simp; tauto

theorem exists_first_pair {list : List α} (h : [c, c] <:+: list) :
    ∃ before rest, list = before ++ c :: c :: rest ∧ ¬ [c, c] <:+: before ++ [c] := by
  induction list with
  | nil => simp at h
  | cons a list ih =>
    by_cases hhere : a = c ∧ list.head? = some c
    · obtain ⟨rfl, hhead⟩ := hhere
      obtain ⟨rest, rfl⟩ := List.head?_eq_some_iff.mp hhead
      exact ⟨[], rest, rfl, fun h => by simpa using h.length_le⟩
    · obtain ⟨before, rest, rfl, hfirst⟩ := ih ((pair_infix_cons_iff.mp h).resolve_left hhere)
      refine ⟨a :: before, rest, rfl, ?_⟩
      rw [List.cons_append, pair_infix_cons_iff, not_or]
      refine ⟨?_, hfirst⟩
      cases before <;> simpa using hhere

theorem infix_append_cons_iff {a b part : List α} {separator : α} (h : separator ∉ part) :
    part <:+: a ++ separator :: b ↔ part <:+: a ∨ part <:+: b := by
  constructor
  · rintro ⟨before, after, heq⟩
    rw [List.append_assoc] at heq
    obtain ⟨rest, rfl, hrest⟩ | ⟨rest, rfl, hrest⟩ := List.append_eq_append_iff.mp heq
    · obtain ⟨tail, rfl, -⟩ | ⟨tail, rfl, htail⟩ := List.append_eq_append_iff.mp hrest
      · exact .inl ⟨before, tail, List.append_assoc ..⟩
      · cases tail with
        | nil => exact .inl ⟨before, [], by simp⟩
        | cons first tail =>
          obtain ⟨rfl, -⟩ := List.cons.inj htail
          exact absurd (by simp) h
    · cases rest with
      | nil =>
        cases part with
        | nil => exact .inl (List.nil_infix)
        | cons first part =>
          obtain ⟨rfl, -⟩ := List.cons.inj hrest
          exact absurd List.mem_cons_self h
      | cons first rest =>
        obtain ⟨-, rfl⟩ := List.cons.inj hrest
        exact .inr ⟨rest, after, List.append_assoc ..⟩
  · rintro (hpart | hpart)
    · exact hpart.trans (List.prefix_append ..).isInfix
    · exact hpart.trans ((List.suffix_cons ..).trans (List.suffix_append ..)).isInfix

end CatalogPress.Text
