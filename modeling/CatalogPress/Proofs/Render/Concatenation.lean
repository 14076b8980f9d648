import CatalogPress.Proofs.Render.Blocks

/-!
Templates one after the other. What they read as is joined at the seam, where two literals become
one, and joined nodes are rendered one after the other in both phases. So a template can be cut in
two wherever the cut does not split an opening marker and leaves two templates.
-/
namespace CatalogPress
open Text Fallible

namespace Render
variable {limit : Int} {scope : Value} {depth : Nat}

theorem append_assoc (a b c : Text) : a ++ b ++ c = a ++ (b ++ c) :=
  Text.ext (List.append_assoc ..)

theorem nodes_append_eq_ok_iff {a b : List Node} {text : Text} :
    nodes limit scope depth (a ++ b) = .ok text ↔ ∃ before after,
      nodes limit scope depth a = .ok before ∧ nodes limit scope depth b = .ok after ∧
      before ++ after = text := by
  induction a generalizing text with
  | nil =>
    constructor
    · exact fun h => ⟨"", text, rfl, h, rfl⟩
    · rintro ⟨_, after, ⟨⟩, hafter, rfl⟩
      exact hafter
  | cons first a ih =>
    rw [List.cons_append, nodes_cons_eq_ok_iff]
    simp only [ih, nodes_cons_eq_ok_iff]
    constructor
    · rintro ⟨head, _, hhead, ⟨before, after, hbefore, hafter, rfl⟩, rfl⟩
      exact ⟨_, after, ⟨head, before, hhead, hbefore, rfl⟩, hafter, append_assoc ..⟩
    · rintro ⟨_, after, ⟨head, before, hhead, hbefore, rfl⟩, hafter, rfl⟩
      exact ⟨head, _, hhead, ⟨before, after, hbefore, hafter, rfl⟩, (append_assoc ..).symm⟩

theorem exists_unroll_append_iff {a b : List Node} :
    (∃ unrolled, unroll limit scope depth (a ++ b) = .ok unrolled) ↔
      (∃ unrolled, unroll limit scope depth a = .ok unrolled) ∧
        ∃ unrolled, unroll limit scope depth b = .ok unrolled := by
  induction a with
  | nil => exact (and_iff_right ⟨[], rfl⟩).symm
  | cons first a ih =>
    rw [List.cons_append, exists_unroll_cons_iff, exists_unroll_cons_iff, ih, and_assoc]

theorem merge?_literals {x y z : Node} (h : Node.merge? x y = some z) :
    ∃ first second : String, x = .literal first ∧ y = .literal second ∧
    z = .literal (first ++ second) := by
  cases x with
  | literal first =>
    cases y with
    | literal second =>
      cases h
      exact ⟨first, second, rfl, rfl, rfl⟩
    | _ => cases h
  | _ => cases h

theorem nodes_literals (first second : String) (rest : List Node) :
    nodes limit scope depth (.literal (first ++ second) :: rest) =
      nodes limit scope depth (.literal first :: .literal second :: rest) := by
  simp only [nodes, node, Text.ofString_append]
  cases nodes limit scope depth rest with
  | error error => rfl
  | ok text => exact congrArg Except.ok (append_assoc ..)

theorem nodes_join_eq_ok_iff {a b : List Node} {text : Text} :
    nodes limit scope depth (join Node.merge? a b) = .ok text ↔ ∃ before after,
      nodes limit scope depth a = .ok before ∧ nodes limit scope depth b = .ok after ∧
      before ++ after = text := by
  rw [← nodes_append_eq_ok_iff]
  obtain heq | ⟨front, x, y, z, rest, rfl, rfl, hmerge, heq⟩ := join_cases Node.merge? a b
  · rw [heq]
  · obtain ⟨first, second, rfl, rfl, rfl⟩ := merge?_literals hmerge
    rw [heq, List.append_assoc, List.singleton_append, nodes_append_eq_ok_iff,
      nodes_append_eq_ok_iff, nodes_literals]

theorem exists_unroll_join_iff {a b : List Node} :
    (∃ unrolled, unroll limit scope depth (join Node.merge? a b) = .ok unrolled) ↔
      (∃ unrolled, unroll limit scope depth a = .ok unrolled) ∧
        ∃ unrolled, unroll limit scope depth b = .ok unrolled := by
  rw [← exists_unroll_append_iff]
  obtain heq | ⟨front, x, y, z, rest, rfl, rfl, hmerge, heq⟩ := join_cases Node.merge? a b
  · rw [heq]
  · obtain ⟨first, second, rfl, rfl, rfl⟩ := merge?_literals hmerge
    have hliteral (text : String) :
        ∃ unrolled, unrollNode limit scope depth (.literal text) = .ok unrolled := ⟨_, rfl⟩
    rw [heq, List.append_assoc, List.singleton_append]
    simp only [exists_unroll_append_iff, exists_unroll_cons_iff, hliteral, true_and]

theorem render_eq_ok_of_unplaced {a b : Template}
    (h : Node.unplacedAll a.nodes = Node.unplacedAll b.nodes) {text : Text}
    (ha : a.render scope limit = .ok text) : b.render scope limit = .ok text := by
  obtain ⟨⟨unrolled, hunroll⟩, hnodes⟩ := render_eq_ok_iff.mp ha
  exact render_eq_ok_iff.mpr ⟨unroll_congr rfl h hunroll, nodes_congr rfl h hnodes⟩

/-- Joined templates have a text if both have one, and it is the one text after the other. -/
theorem render_join_eq_ok_iff {left right whole : Template}
    (h : whole.nodes = join Node.merge? left.nodes right.nodes) {text : Text} :
    whole.render scope limit = .ok text ↔ ∃ before after,
      left.render scope limit = .ok before ∧ right.render scope limit = .ok after ∧
        before ++ after = text := by
  simp only [render_eq_ok_iff, h, exists_unroll_join_iff, nodes_join_eq_ok_iff]
  constructor
  · rintro ⟨⟨hleft, hright⟩, before, after, hbefore, hafter, heq⟩
    exact ⟨before, after, ⟨hleft, hbefore⟩, ⟨hright, hafter⟩, heq⟩
  · rintro ⟨before, after, ⟨hleft, hbefore⟩, ⟨hright, hafter⟩, heq⟩
    exact ⟨⟨hleft, hright⟩, before, after, hbefore, hafter, heq⟩

end Render

namespace Template

theorem exists_parse_append {a b name other : String} {left right : Template}
    (ha : parse a name = .ok left) (hb : parse b other = .ok right)
    (hseam : a.toList.getLast? = some '{' → b.toList.head? ≠ some '{') (title : String) :
    ∃ whole, parse (a ++ b) title = .ok whole ∧
      Node.unplacedAll whole.nodes =
        Node.unplacedAll (join Node.merge? left.nodes right.nodes) := by
  have hreads := (reads_of_parse ha).append (reads_of_parse hb) hseam
  rw [← String.toList_append, ← Node.unplacedAll_join] at hreads
  exact exists_parse_of_reads hreads title

end Template

namespace Render

/-- Rendering two templates one after the other is rendering them as one, in every scope and with
every limit. -/
theorem render_append {a b name other : String} {left right : Template}
    (ha : Template.parse a name = .ok left) (hb : Template.parse b other = .ok right)
    (hseam : ¬ (a.toList.getLast? = some '{' ∧ b.toList.head? = some '{')) (title : String) :
    ∃ whole, Template.parse (a ++ b) title = .ok whole ∧ ∀ (scope : Value) (limit : Int),
      ((∃ error, whole.render scope limit = .error error) ↔
        (∃ error, left.render scope limit = .error error) ∨
        ∃ error, right.render scope limit = .error error) ∧
      ∀ before after, left.render scope limit = .ok before → right.render scope limit = .ok after →
        whole.render scope limit = .ok (before ++ after) := by
  obtain ⟨whole, hparse, hsame⟩ :=
    Template.exists_parse_append ha hb (fun hlast hhead => hseam ⟨hlast, hhead⟩) title
  have hrender (scope : Value) (limit : Int) (text : Text) :
      whole.render scope limit = .ok text ↔ ∃ before after,
      left.render scope limit = .ok before ∧ right.render scope limit = .ok after ∧
        before ++ after = text := by
    -- The whole text places the nodes of its second half elsewhere, and rendering does not look at
    -- that.
    let joined : Template := ⟨join Node.merge? left.nodes right.nodes, title⟩
    have hjoined : Node.unplacedAll whole.nodes = Node.unplacedAll joined.nodes := hsame
    exact Iff.trans ⟨render_eq_ok_of_unplaced hjoined, render_eq_ok_of_unplaced hjoined.symm⟩
      (render_join_eq_ok_iff rfl)
  refine ⟨whole, hparse, fun scope limit => ⟨?_, fun before after hbefore hafter => ?_⟩⟩
  · simp only [exists_error_iff, hrender, ← not_and_or, not_iff_not]
    constructor
    · rintro ⟨_, before, after, hbefore, hafter, -⟩
      exact ⟨⟨before, hbefore⟩, after, hafter⟩
    · rintro ⟨⟨before, hbefore⟩, after, hafter⟩
      exact ⟨_, before, after, hbefore, hafter, rfl⟩
  · exact (hrender scope limit _).mpr ⟨before, after, hbefore, hafter, rfl⟩

/-- The braces at the seam end one literal, and open nothing. -/
theorem render_append_at_brace :
    ¬ ("\x7b\x7b#if k\x7d\x7da\x7b\x7b/if\x7d\x7d\x7b".toList.getLast? = some '{' ∧
      "\x7d\x7d\x7b\x7bk\x7d\x7d".toList.head? = some '{') ∧
    ∃ whole, Template.parse ("\x7b\x7b#if k\x7d\x7da\x7b\x7b/if\x7d\x7d\x7b" ++
      "\x7d\x7d\x7b\x7bk\x7d\x7d") "t" =
        .ok whole ∧
      whole.render (.record [("k", .str "v")]) 1 = .ok "a\x7b\x7d\x7dv" ∧
      ∃ error, whole.render (.record [("k", .str "v")]) 0 = .error error := by
  have hleft : Template.parse "\x7b\x7b#if k\x7d\x7da\x7b\x7b/if\x7d\x7d\x7b" "a" = .ok ⟨[
      .conditional (.path ["k"]) [.literal (String.ofList ['a'])] .start,
      .literal (String.ofList ['{'])], "a"⟩ := by
    rfl
  have hright :
      Template.parse "\x7d\x7d\x7b\x7bk\x7d\x7d" "b" = .ok ⟨[.literal (String.ofList ['}', '}']),
      .interpolation (.path ["k"]) ⟨1, 3⟩], "b"⟩ := by
    rfl
  have hseam : ¬ ("\x7b\x7b#if k\x7d\x7da\x7b\x7b/if\x7d\x7d\x7b".toList.getLast? = some '{' ∧
      "\x7d\x7d\x7b\x7bk\x7d\x7d".toList.head? = some '{') := by
    decide
  obtain ⟨whole, hparse, hrender⟩ := render_append hleft hright hseam "t"
  refine ⟨hseam, whole, hparse, ?_, ?_⟩
  · exact (hrender (.record [("k", .str "v")]) 1).2 "a\x7b" "\x7d\x7dv" rfl rfl
  · exact (hrender (.record [("k", .str "v")]) 0).1.mpr (.inl ⟨⟨1, 0, .start⟩, rfl⟩)

end Render
end CatalogPress
