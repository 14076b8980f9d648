import CatalogPress.Proofs.Fallible
import CatalogPress.Render.Evaluate

/-!
The two phases against a single pass. The single pass meets blocks in document order, expands an
`each` block when it reaches it, and does not look below a conditional block whose predicate fails.
Where the two phases give a text, so does the single pass, and the same one.
-/
namespace CatalogPress.Render
open Fallible

section
variable {limit : Int} {scope : Value} {depth : Nat} {first : Node} {rest : List Node}

theorem nodes_cons_eq_ok_iff {text : Text} :
    nodes limit scope depth (first :: rest) = .ok text ↔ ∃ head tail,
      node limit scope depth first = .ok head ∧ nodes limit scope depth rest = .ok tail ∧
      head ++ tail = text := by
  rw [nodes, bind_eq_ok]
  simp only [bind_eq_ok]
  constructor
  · rintro ⟨head, hhead, tail, htail, h⟩
    cases h
    exact ⟨head, tail, hhead, htail, rfl⟩
  · rintro ⟨head, tail, hhead, htail, rfl⟩
    exact ⟨head, hhead, tail, htail, rfl⟩

theorem exists_unroll_cons_iff :
    (∃ unrolled, unroll limit scope depth (first :: rest) = .ok unrolled) ↔
      (∃ unrolled, unrollNode limit scope depth first = .ok unrolled) ∧
        ∃ unrolled, unroll limit scope depth rest = .ok unrolled := by
  simp only [unroll, bind_eq_ok]
  constructor
  · rintro ⟨_, head, hhead, tail, htail, -⟩
    exact ⟨⟨head, hhead⟩, tail, htail⟩
  · rintro ⟨⟨head, hhead⟩, tail, htail⟩
    exact ⟨_, head, hhead, tail, htail, rfl⟩

end

mutual
/-- The second phase goes on from what the first one leaves at the same depth. -/
theorem renderAll_of_unroll {limit : Int} {scope : Value} {depth : Nat} :
    ∀ {body : List Node} {rest : List Unrolled}, unroll limit scope depth body = .ok rest →
      Unrolled.renderAll limit scope depth rest = nodes limit scope depth body
  | [], rest, h => by
    rw [unroll] at h
    cases h
    rw [Unrolled.renderAll, nodes]
  | first :: others, rest, h => by
    rw [unroll] at h
    obtain ⟨head, hhead, h⟩ := bind_eq_ok.mp h
    obtain ⟨tail, htail, h⟩ := bind_eq_ok.mp h
    cases h
    rw [Unrolled.renderAll, nodes, render_of_unrollNode hhead, renderAll_of_unroll htail]

theorem render_of_unrollNode {limit : Int} {scope : Value} {depth : Nat} :
    ∀ {first : Node} {rest : Unrolled}, unrollNode limit scope depth first = .ok rest →
      rest.render limit scope depth = node limit scope depth first
  | .literal text, rest, h => by
    rw [unrollNode] at h
    cases h
    rw [Unrolled.render, node]
  | .interpolation expression position, rest, h => by
    rw [unrollNode] at h
    cases h
    rw [Unrolled.render, node]
  | .each path body position, rest, h => by
    rw [unrollNode] at h
    obtain ⟨text, htext, h⟩ := bind_eq_ok.mp h
    cases h
    rw [Unrolled.render, htext]
  | .conditional predicate body position, rest, h => by
    rw [unrollNode] at h
    obtain ⟨⟨⟩, hdepth, h⟩ := bind_eq_ok.mp h
    obtain ⟨inner, hinner, h⟩ := bind_eq_ok.mp h
    cases h
    rw [Unrolled.render, node, renderAll_of_unroll hinner]
end

theorem nodes_of_render {template : Template} {scope : Value} {limit : Int} {text : Text}
    (h : template.render scope limit = .ok text) :
    nodes limit scope 0 template.nodes = .ok text := by
  obtain ⟨rest, hrest, h⟩ := bind_eq_ok.mp h
  rw [← renderAll_of_unroll hrest, h]

/-- What the two phases write is what the single pass writes, and they fail whenever it does. -/
theorem render_agrees_with_single_pass (template : Template) (scope : Value) (limit : Int) :
    (∀ text, template.render scope limit = .ok text →
      nodes limit scope 0 template.nodes = .ok text) ∧
    ∀ error, nodes limit scope 0 template.nodes = .error error →
      ∃ first, template.render scope limit = .error first := by
  refine ⟨fun text => nodes_of_render, ?_⟩
  intro error herror
  cases hrender : template.render scope limit with
  | error first => exact ⟨first, rfl⟩
  | ok text =>
    rw [nodes_of_render hrender] at herror
    cases herror

/-- An `each` block in an `each` block and an operator that no template writes, within the limit and
beyond it. -/
theorem nested_render_agrees :
    let scope : Value := .record [("rows", .list [.record [("row", .list [.str "a", .str "b"])]])]
    let template : Template := ⟨[.each ["rows"] [.each ["row"]
      [.interpolation (.comparison (.other "lt") "k" "v") .start] .start] .start], "t"⟩
    (template.render scope 2 = .ok "true\ntrue" ∧
      nodes 2 scope 0 template.nodes = .ok "true\ntrue") ∧
    nodes 1 scope 0 template.nodes = .error ⟨2, 1, .start⟩ ∧
    ∃ first, template.render scope 1 = .error first := by
  intro scope template
  have hrender : template.render scope 2 = .ok "true\ntrue" := by rfl
  have herror : nodes 1 scope 0 template.nodes = .error ⟨2, 1, .start⟩ := by rfl
  exact ⟨⟨hrender, (render_agrees_with_single_pass template scope 2).1 _ hrender⟩, herror,
    (render_agrees_with_single_pass template scope 1).2 _ herror⟩

end CatalogPress.Render
