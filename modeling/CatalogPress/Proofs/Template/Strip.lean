import CatalogPress.Proofs.Template.Reads

/-!
Bodies without blanks at their ends. Stripping leaves such bodies, and blanks that are put around
one are stripped again.
-/
namespace CatalogPress
open Text

def StartsPlain (nodes : List Node) : Prop :=
  ∀ text, nodes.head? = some (.literal text) →
    text.toList ≠ [] ∧ ∀ c ∈ text.toList.head?, isBlank c = false

def EndsPlain (nodes : List Node) : Prop :=
  ∀ text, nodes.getLast? = some (.literal text) →
    text.toList ≠ [] ∧ ∀ c ∈ text.toList.getLast?, isBlank c = false

namespace Node

theorem stripEnd_cons_of_ne_literal {node : Node}
    (h : ∀ text, node ≠ literal text) (rest : List Node) :
    stripEnd (node :: rest) = node :: stripEnd rest := by
  cases rest with
  | nil =>
    cases node with
    | literal text => exact absurd rfl (h text)
    | _ => rfl
  | cons next rest => exact stripEnd_cons (List.cons_ne_nil _ _) node

theorem toList_of_mem_literals {text : List Char} {node : String}
    (h : literal node ∈ literals text) :
    text ≠ [] ∧ node.toList = text := by
  by_cases htext : text = []
  · rw [htext] at h
    cases h
  · rw [literals_of_ne_nil htext, List.mem_singleton] at h
    cases h
    exact ⟨htext, String.toList_ofList⟩

theorem head?_stripEnd {nodes : List Node} (h : ∀ node ∈ nodes.head?, ∀ text, node ≠ literal text) :
    (stripEnd nodes).head? = nodes.head? := by
  cases nodes with
  | nil => rfl
  | cons node rest => rw [stripEnd_cons_of_ne_literal (h node rfl)]; rfl

theorem startsPlain_stripEnd {nodes : List Node} (h : StartsPlain nodes) :
    StartsPlain (stripEnd nodes) := by
  intro text htext
  match nodes with
  | [] => cases htext
  | [literal other] =>
    obtain ⟨hne, heq⟩ := toList_of_mem_literals (List.mem_of_mem_head? htext)
    obtain ⟨-, hplain⟩ := h other rfl
    rw [heq]
    exact ⟨hne, head?_trimEnd hplain⟩
  | [interpolation _ _] => cases htext
  | [each _ _ _] => cases htext
  | [conditional _ _ _] => cases htext
  | node :: next :: rest =>
    rw [stripEnd_cons (List.cons_ne_nil _ _)] at htext
    exact h text htext

theorem endsPlain_cons {node : Node} {nodes : List Node} (h : EndsPlain nodes)
    (hnode : nodes = [] → ∀ text, node ≠ literal text) : EndsPlain (node :: nodes) := by
  intro text htext
  cases nodes with
  | nil =>
    cases htext
    exact absurd rfl (hnode rfl text)
  | cons next rest =>
    rw [List.getLast?_cons_cons] at htext
    exact h text htext

theorem stripStart_join_blanks {blanks : List Char} {nodes : List Node} (hblanks : AllBlank blanks)
    (h : StartsPlain nodes) :
    stripStart (join merge? [literal (String.ofList blanks)] nodes) = nodes := by
  have hnone : trimStart blanks = [] := trimStart_eq_nil_iff.mpr hblanks
  cases nodes with
  | nil =>
    rw [join_nil_right, stripStart_literal, String.toList_ofList, hnone]
    rfl
  | cons node rest =>
    by_cases hnode : ∃ text, node = literal text
    · obtain ⟨text, rfl⟩ := hnode
      obtain ⟨hne, hplain⟩ := h text rfl
      have hmerge : merge? (literal (String.ofList blanks)) (literal text) =
          some (literal (String.ofList blanks ++ text)) := rfl
      rw [join_singleton_of_some hmerge, stripStart_literal, String.toList_append,
        String.toList_ofList, trimStart_append hblanks, trimStart_of_head? hplain,
        literals_of_ne_nil hne, String.ofList_toList]
      rfl
    · rw [join_of_none (merge?_of_ne_literal_right (not_exists.mp hnode)), List.singleton_append,
        stripStart_literal, String.toList_ofList, hnone]
      rfl

theorem stripEnd_join_blanks {blanks : List Char} {nodes : List Node} (hblanks : AllBlank blanks)
    (h : EndsPlain nodes) :
    stripEnd (join merge? nodes [literal (String.ofList blanks)]) = nodes := by
  have hnone : trimEnd blanks = [] := trimEnd_eq_nil_iff.mpr hblanks
  have hend : stripEnd [literal (String.ofList blanks)] = [] := by
    change literals (trimEnd (String.ofList blanks).toList) = []
    rw [String.toList_ofList, hnone]
    rfl
  induction nodes with
  | nil => exact hend
  | cons node rest ih =>
    cases rest with
    | nil =>
      by_cases hnode : ∃ text, node = literal text
      · obtain ⟨text, rfl⟩ := hnode
        obtain ⟨hne, hplain⟩ := h text rfl
        have hmerge : merge? (literal text) (literal (String.ofList blanks)) =
            some (literal (text ++ String.ofList blanks)) := rfl
        rw [join_singleton_of_some hmerge]
        change literals (trimEnd (text ++ String.ofList blanks).toList) = _
        rw [String.toList_append, String.toList_ofList, trimEnd_append hblanks,
          trimEnd_of_getLast? hplain, literals_of_ne_nil hne, String.ofList_toList]
      · rw [join_cons_of_none (merge?_of_ne_literal (not_exists.mp hnode)), join_nil_left,
          stripEnd_cons (List.cons_ne_nil _ _), hend]
    | cons next rest =>
      have hrest : EndsPlain (next :: rest) := by
        intro text htext
        apply h text
        rw [List.getLast?_cons_cons]
        exact htext
      have hne : join merge? (next :: rest) [literal (String.ofList blanks)] ≠ [] := by
        intro hnil
        have hstrip := ih hrest
        rw [hnil] at hstrip
        cases hstrip
      rw [join_cons (List.cons_ne_nil _ _), stripEnd_cons hne, ih hrest]

theorem startsPlain_join {nodes more : List Node} (hne : nodes ≠ []) (h : StartsPlain nodes) :
    StartsPlain (join merge? nodes more) := by
  obtain ⟨node, rest, rfl⟩ := List.exists_cons_of_ne_nil hne
  by_cases hrest : rest = []
  · subst hrest
    by_cases hnode : ∃ text, node = literal text
    · obtain ⟨text, rfl⟩ := hnode
      obtain ⟨hne, hplain⟩ := h text rfl
      intro other hother
      cases more with
      | nil => exact h other hother
      | cons next more =>
        by_cases hnext : ∃ text, next = literal text
        · obtain ⟨nextText, rfl⟩ := hnext
          have hmerge : merge? (literal text) (literal nextText) =
              some (literal (text ++ nextText)) := rfl
          rw [join_singleton_of_some hmerge] at hother
          cases hother
          rw [String.toList_append, List.head?_append_of_ne_nil _ hne]
          exact ⟨List.append_ne_nil_of_left_ne_nil hne _, hplain⟩
        · rw [join_of_none (merge?_of_ne_literal_right (not_exists.mp hnext))] at hother
          exact h other hother
    · rw [join_cons_of_none (merge?_of_ne_literal (not_exists.mp hnode))]
      exact h
  · rw [join_cons hrest]
    exact h

theorem strip_join_blanks {before after : List Char} {nodes : List Node} (hbefore : AllBlank before)
    (hafter : AllBlank after) (hne : nodes ≠ []) (hfirst : StartsPlain nodes)
    (hlast : EndsPlain nodes) :
    strip (join merge? [literal (String.ofList before)]
      (join merge? nodes [literal (String.ofList after)])) = nodes := by
  unfold strip
  rw [stripStart_join_blanks hbefore (startsPlain_join hne hfirst),
    stripEnd_join_blanks hafter hlast]

theorem eq_literal_of_unplaced {node : Node} {text : String} (h : unplaced node = literal text) :
    node = literal text := by
  cases node with
  | literal other => exact h
  | _ => cases h

theorem startsPlain_unplacedAll {nodes : List Node} (h : StartsPlain nodes) :
    StartsPlain (unplacedAll nodes) := by
  intro text htext
  rw [unplacedAll_eq_map, List.head?_map, Option.map_eq_some_iff] at htext
  obtain ⟨node, hnode, heq⟩ := htext
  rw [eq_literal_of_unplaced heq] at hnode
  exact h text hnode

theorem endsPlain_unplacedAll {nodes : List Node} (h : EndsPlain nodes) :
    EndsPlain (unplacedAll nodes) := by
  intro text htext
  rw [unplacedAll_eq_map, List.getLast?_map, Option.map_eq_some_iff] at htext
  obtain ⟨node, hnode, heq⟩ := htext
  rw [eq_literal_of_unplaced heq] at hnode
  exact h text hnode

end Node
end CatalogPress
