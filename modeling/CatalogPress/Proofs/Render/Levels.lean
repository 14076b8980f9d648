import CatalogPress.Proofs.Render.Phases
import CatalogPress.Proofs.Template.Reads

/-!
What decides whether nodes can be rendered: how many levels of blocks are left below the limit.
Where the nodes stand in a text, and how deep in a template, does not matter otherwise.
-/
namespace CatalogPress.Render
open Fallible

theorem checkDepth_eq_ok_iff {limit : Int} {depth : Nat} {position : Position} :
    checkDepth limit depth position = .ok () ↔ (depth : Int) ≤ limit := by
  unfold checkDepth
  split
  · simp only [reduceCtorEq, false_iff]
    omega
  · simp only [true_iff]
    omega

theorem checkDepth_bind_eq_ok_iff {α : Type} {limit : Int} {depth : Nat} {position : Position}
    {next : Unit → Except DepthError α} {result : α} :
    checkDepth limit depth position >>= next = .ok result ↔
      depth ≤ limit ∧ next () = .ok result := by
  rw [bind_eq_ok, ← @checkDepth_eq_ok_iff limit depth position]
  exact ⟨fun ⟨_, h⟩ => h, fun h => ⟨(), h⟩⟩

section
variable {limit : Int} {scope : Value} {depth : Nat} {predicate : Expression}
  {path : List String} {body : List Node} {position : Position} {text : Text}

theorem node_conditional_eq_ok_iff :
    node limit scope depth (.conditional predicate body position) = .ok text ↔
      (depth + 1 : Nat) ≤ limit ∧
        if predicate.holds scope then nodes limit scope (depth + 1) body = .ok text
        else text = "" := by
  rw [node, checkDepth_bind_eq_ok_iff]
  split
  · rfl
  · exact and_congr_right
      fun _ => ⟨fun h => (Except.ok.inj h).symm, fun h => congrArg Except.ok h.symm⟩

theorem node_each_eq_ok_iff : node limit scope depth (.each path body position) = .ok text ↔
    (depth + 1 : Nat) ≤ limit ∧
      ∃ rows, List.Forall₂ (fun item row => nodes limit item (depth + 1) body = .ok row)
        (scope.lookup path).items rows ∧
        Text.intercalate rowSeparator rows = text := by
  rw [node, checkDepth_bind_eq_ok_iff]
  simp only [bind_eq_ok, mapM_eq_ok_iff]
  constructor
  · rintro ⟨hlimit, rows, hrows, h⟩
    exact ⟨hlimit, rows, hrows, Except.ok.inj h⟩
  · rintro ⟨hlimit, rows, hrows, rfl⟩
    exact ⟨hlimit, rows, hrows, rfl⟩

theorem exists_unrollNode_conditional_iff :
    (∃ unrolled,
      unrollNode limit scope depth (.conditional predicate body position) = .ok unrolled) ↔
    (depth + 1 : Nat) ≤ limit ∧
      ∃ unrolled, unroll limit scope (depth + 1) body = .ok unrolled := by
  simp only [unrollNode, checkDepth_bind_eq_ok_iff]
  simp only [bind_eq_ok]
  constructor
  · rintro ⟨_, hlimit, inner, hinner, -⟩
    exact ⟨hlimit, inner, hinner⟩
  · rintro ⟨hlimit, inner, hinner⟩
    exact ⟨_, hlimit, inner, hinner, rfl⟩

theorem exists_unrollNode_each_iff :
    (∃ unrolled, unrollNode limit scope depth (.each path body position) = .ok unrolled) ↔
      ∃ text, node limit scope depth (.each path body position) = .ok text := by
  simp only [unrollNode, bind_eq_ok]
  constructor
  · rintro ⟨_, text, htext, -⟩
    exact ⟨text, htext⟩
  · rintro ⟨text, htext⟩
    exact ⟨_, text, htext, rfl⟩

end

theorem levels_below {limit limit' : Int} {depth depth' : Nat}
    (h : limit - depth = limit' - depth') :
    limit - (depth + 1 : Nat) = limit' - (depth' + 1 : Nat) := by
  omega

mutual
theorem nodes_congr {limit limit' : Int} {depth depth' : Nat}
    (hlevels : limit - depth = limit' - depth') {scope : Value} :
    ∀ {a b : List Node} {text : Text}, Node.unplacedAll a = Node.unplacedAll b →
      nodes limit scope depth a = .ok text → nodes limit' scope depth' b = .ok text
  | [], b, text, hsame, h => by
    cases b with
    | nil => exact h
    | cons => cases hsame
  | first :: rest, b, text, hsame, h => by
    cases b with
    | nil => cases hsame
    | cons first' rest' =>
      rw [Node.unplacedAll, Node.unplacedAll, List.cons.injEq] at hsame
      obtain ⟨head, tail, hhead, htail, heq⟩ := nodes_cons_eq_ok_iff.mp h
      exact nodes_cons_eq_ok_iff.mpr
        ⟨head, tail, node_congr hlevels hsame.1 hhead, nodes_congr hlevels hsame.2 htail, heq⟩

theorem node_congr {limit limit' : Int} {depth depth' : Nat}
    (hlevels : limit - depth = limit' - depth') {scope : Value} :
    ∀ {a b : Node} {text : Text}, a.unplaced = b.unplaced →
      node limit scope depth a = .ok text → node limit' scope depth' b = .ok text
  | .literal content, b, text, hsame, h => by
    cases b with
    | literal content' =>
      rw [Node.unplaced, Node.unplaced, Node.literal.injEq] at hsame
      rw [node] at h ⊢
      rw [← hsame, h]
    | _ => simp [Node.unplaced] at hsame
  | .interpolation expression position, b, text, hsame, h => by
    cases b with
    | interpolation expression' position' =>
      rw [Node.unplaced, Node.unplaced, Node.interpolation.injEq] at hsame
      rw [node] at h ⊢
      rw [← hsame.1, h]
    | _ => simp [Node.unplaced] at hsame
  | .conditional predicate body position, b, text, hsame, h => by
    cases b with
    | conditional predicate' body' position' =>
      rw [Node.unplaced, Node.unplaced, Node.conditional.injEq] at hsame
      obtain ⟨rfl, hbody, -⟩ := hsame
      obtain ⟨hlimit, h⟩ := node_conditional_eq_ok_iff.mp h
      refine node_conditional_eq_ok_iff.mpr ⟨by omega, ?_⟩
      by_cases hholds : predicate.holds scope = true
      · rw [if_pos hholds] at h ⊢
        exact nodes_congr (levels_below hlevels) hbody h
      · rw [if_neg hholds] at h ⊢
        exact h
    | _ => simp [Node.unplaced] at hsame
  | .each path body position, b, text, hsame, h => by
    cases b with
    | each path' body' position' =>
      rw [Node.unplaced, Node.unplaced, Node.each.injEq] at hsame
      obtain ⟨rfl, hbody, -⟩ := hsame
      obtain ⟨hlimit, rows, hrows, h⟩ := node_each_eq_ok_iff.mp h
      refine node_each_eq_ok_iff.mpr ⟨by omega, rows, ?_, h⟩
      exact hrows.imp fun item row hrow => nodes_congr (levels_below hlevels) hbody hrow
    | _ => simp [Node.unplaced] at hsame
end

mutual
theorem unroll_congr {limit limit' : Int} {depth depth' : Nat}
    (hlevels : limit - depth = limit' - depth') {scope : Value} :
    ∀ {a b : List Node} {rest : List Unrolled}, Node.unplacedAll a = Node.unplacedAll b →
      unroll limit scope depth a = .ok rest → ∃ other, unroll limit' scope depth' b = .ok other
  | [], b, rest, hsame, h => by
    cases b with
    | nil => exact ⟨rest, h⟩
    | cons => cases hsame
  | first :: others, b, rest, hsame, h => by
    cases b with
    | nil => cases hsame
    | cons first' others' =>
      rw [Node.unplacedAll, Node.unplacedAll, List.cons.injEq] at hsame
      obtain ⟨⟨head, hhead⟩, tail, htail⟩ := exists_unroll_cons_iff.mp ⟨rest, h⟩
      exact exists_unroll_cons_iff.mpr
        ⟨unrollNode_congr hlevels hsame.1 hhead, unroll_congr hlevels hsame.2 htail⟩

theorem unrollNode_congr {limit limit' : Int} {depth depth' : Nat}
    (hlevels : limit - depth = limit' - depth') {scope : Value} :
    ∀ {a b : Node} {rest : Unrolled}, a.unplaced = b.unplaced →
      unrollNode limit scope depth a = .ok rest →
      ∃ other, unrollNode limit' scope depth' b = .ok other
  | .literal content, b, rest, hsame, h => by
    cases b with
    | literal content' => exact ⟨_, rfl⟩
    | _ => simp [Node.unplaced] at hsame
  | .interpolation expression position, b, rest, hsame, h => by
    cases b with
    | interpolation expression' position' => exact ⟨_, rfl⟩
    | _ => simp [Node.unplaced] at hsame
  | .conditional predicate body position, b, rest, hsame, h => by
    cases b with
    | conditional predicate' body' position' =>
      rw [Node.unplaced, Node.unplaced, Node.conditional.injEq] at hsame
      obtain ⟨rfl, hbody, -⟩ := hsame
      obtain ⟨hlimit, inner, hinner⟩ := exists_unrollNode_conditional_iff.mp ⟨rest, h⟩
      exact exists_unrollNode_conditional_iff.mpr ⟨by omega,
        unroll_congr (levels_below hlevels) hbody hinner⟩
    | _ => simp [Node.unplaced] at hsame
  | .each path body position, b, rest, hsame, h => by
    cases b with
    | each path' body' position' =>
      obtain ⟨text, htext⟩ := exists_unrollNode_each_iff.mp ⟨rest, h⟩
      exact exists_unrollNode_each_iff.mpr ⟨text, node_congr hlevels hsame htext⟩
    | _ => simp [Node.unplaced] at hsame
end

mutual
theorem exists_nodes_of_unroll {limit : Int} {scope : Value} {depth : Nat} :
    ∀ {body : List Node} {rest : List Unrolled}, unroll limit scope depth body = .ok rest →
      ∃ text, nodes limit scope depth body = .ok text
  | [], rest, h => ⟨_, rfl⟩
  | first :: others, rest, h => by
    obtain ⟨⟨head, hhead⟩, tail, htail⟩ := exists_unroll_cons_iff.mp ⟨rest, h⟩
    obtain ⟨a, ha⟩ := exists_node_of_unrollNode hhead
    obtain ⟨b, hb⟩ := exists_nodes_of_unroll htail
    exact ⟨_, nodes_cons_eq_ok_iff.mpr ⟨a, b, ha, hb, rfl⟩⟩

theorem exists_node_of_unrollNode {limit : Int} {scope : Value} {depth : Nat} :
    ∀ {first : Node} {rest : Unrolled}, unrollNode limit scope depth first = .ok rest →
      ∃ text, node limit scope depth first = .ok text
  | .literal content, rest, h => ⟨_, rfl⟩
  | .interpolation expression position, rest, h => ⟨_, rfl⟩
  | .conditional predicate body position, rest, h => by
    obtain ⟨hlimit, inner, hinner⟩ := exists_unrollNode_conditional_iff.mp ⟨rest, h⟩
    obtain ⟨text, htext⟩ := exists_nodes_of_unroll hinner
    by_cases hholds : predicate.holds scope = true
    · refine ⟨text, node_conditional_eq_ok_iff.mpr ⟨hlimit, ?_⟩⟩
      rwa [if_pos hholds]
    · refine ⟨"", node_conditional_eq_ok_iff.mpr ⟨hlimit, ?_⟩⟩
      rw [if_neg hholds]
  | .each path body position, rest, h => exists_unrollNode_each_iff.mp ⟨rest, h⟩
end

/-- A template has a text exactly if the first phase succeeds, and it is the one of the single
pass. -/
theorem render_eq_ok_iff {template : Template} {scope : Value} {limit : Int} {text : Text} :
    template.render scope limit = .ok text ↔
      (∃ rest, unroll limit scope 0 template.nodes = .ok rest) ∧
      nodes limit scope 0 template.nodes = .ok text := by
  constructor
  · intro h
    obtain ⟨rest, hrest, -⟩ := bind_eq_ok.mp h
    exact ⟨⟨rest, hrest⟩, nodes_of_render h⟩
  · rintro ⟨⟨rest, hrest⟩, hnodes⟩
    refine bind_eq_ok.mpr ⟨rest, hrest, ?_⟩
    rw [renderAll_of_unroll hrest, hnodes]

end CatalogPress.Render
