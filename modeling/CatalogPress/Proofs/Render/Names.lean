import CatalogPress.Proofs.Render.Phases
import CatalogPress.Proofs.Value.Alike

/-!
What a template reads of its scope. Outside `each` blocks it names fields of the scope, and nothing
else of the scope matters; inside them it sees the items of a list and not the scope. So two records
give the same text, or the same error, if they are alike under the names of the template.
-/
namespace CatalogPress
open Value (Alike)

/-- The fields of the scope that an expression names: the first name of a path, the field of a
comparison. -/
def Expression.names : Expression → List String
  | path parts => parts.take 1
  | comparison _ field _ => [field]
  | invalid _ => []

mutual
/-- The fields of the scope that a node names. The body of an `each` block names none. -/
def Node.names : Node → List String
  | .literal _ => []
  | .interpolation expression _ => expression.names
  | .each path _ _ => path.take 1
  | .conditional predicate body _ => predicate.names ++ Node.namesAll body

def Node.namesAll : List Node → List String
  | [] => []
  | first :: rest => first.names ++ Node.namesAll rest
end

def Template.names (template : Template) : List String :=
  Node.namesAll template.nodes

namespace Value

/-- Two scopes are alike, or two records are under some names. -/
inductive AlikeOn (names : List String) : Value → Value → Prop
  | alike {a b : Value} : Alike a b → AlikeOn names a b
  | record {as bs : Fields Value} :
      (∀ name ∈ names, Alike ((Value.record as).field name) ((Value.record bs).field name)) →
      AlikeOn names (.record as) (.record bs)

namespace AlikeOn
variable {names : List String} {a b : Value}

theorem mono (h : AlikeOn names a b) {fewer : List String} (hsubset : fewer ⊆ names) :
    AlikeOn fewer a b := by
  cases h with
  | alike h => exact .alike h
  | record h => exact .record fun name hname => h name (hsubset hname)

theorem left {others : List String} (h : AlikeOn (names ++ others) a b) : AlikeOn names a b :=
  h.mono (List.subset_append_left _ _)

theorem right {others : List String} (h : AlikeOn (names ++ others) a b) : AlikeOn others a b :=
  h.mono (List.subset_append_right _ _)

theorem field {name : String} (h : AlikeOn [name] a b) : Alike (a.field name) (b.field name) := by
  cases h with
  | alike h => exact h.field name
  | record h => exact h name List.mem_cons_self

theorem lookup {name : String} {path : List String} (h : AlikeOn [name] a b) :
    Alike (a.lookup (name :: path)) (b.lookup (name :: path)) :=
  h.field.lookup path

theorem self (h : AlikeOn names a b) :
    a.isTruthy = b.isTruthy ∧ a.render = b.render ∧ List.Forall₂ Alike a.items b.items := by
  cases h with
  | alike h => exact ⟨h.isTruthy_eq, render_eq_of_alike h, h.items⟩
  | record => exact ⟨rfl, rfl, .nil⟩

theorem path {path : List String} (h : AlikeOn (path.take 1) a b) :
    (a.lookup path).isTruthy = (b.lookup path).isTruthy ∧
      (a.lookup path).render = (b.lookup path).render ∧
      List.Forall₂ Alike (a.lookup path).items (b.lookup path).items := by
  cases path with
  | nil => exact h.self
  | cons name path =>
    have hlooked : AlikeOn [] (a.lookup (name :: path)) (b.lookup (name :: path)) := .alike h.lookup
    exact hlooked.self

end AlikeOn
end Value

namespace Expression
open Value
variable {a b : Value}

theorem holds_eq_of_alikeOn {expression : Expression} (h : AlikeOn expression.names a b) :
    expression.holds a = expression.holds b := by
  cases expression with
  | path parts => exact h.path.1
  | comparison operator field literal =>
    have hfield : Alike (a.field field) (b.field field) := h.field
    rw [holds, holds, hfield.isAbsent_eq, render_eq_of_alike hfield]
  | invalid raw => rfl

theorem render_eq_of_alikeOn {expression : Expression} (h : AlikeOn expression.names a b) :
    expression.render a = expression.render b := by
  cases expression with
  | path parts => exact h.path.2.1
  | comparison operator field literal => rw [render, render, holds_eq_of_alikeOn h]
  | invalid raw => rfl

end Expression

namespace Render
open Value Fallible
variable {limit : Int}

mutual
theorem nodes_eq_of_alikeOn : ∀ {body : List Node} {a b : Value} {depth : Nat},
    AlikeOn (Node.namesAll body) a b → nodes limit a depth body = nodes limit b depth body
  | [], _, _, _, _ => by rw [nodes, nodes]
  | first :: rest, a, b, depth, h => by
    rw [Node.namesAll] at h
    rw [nodes, nodes, node_eq_of_alikeOn h.left, nodes_eq_of_alikeOn h.right]

theorem node_eq_of_alikeOn : ∀ {first : Node} {a b : Value} {depth : Nat},
    AlikeOn first.names a b → node limit a depth first = node limit b depth first
  | .literal text, _, _, _, _ => by rw [node, node]
  | .interpolation expression position, a, b, depth, h => by
    rw [Node.names] at h
    rw [node, node, Expression.render_eq_of_alikeOn h]
  | .conditional predicate body position, a, b, depth, h => by
    rw [Node.names] at h
    rw [node, node, Expression.holds_eq_of_alikeOn h.left, nodes_eq_of_alikeOn h.right]
  | .each path body position, a, b, depth, h => by
    rw [Node.names] at h
    -- The items are alike in all their fields, so it does not matter what the body names.
    have hrows : List.Forall₂ (fun item item' => nodes limit item (depth + 1) body =
        nodes limit item' (depth + 1) body) (a.lookup path).items (b.lookup path).items :=
      h.path.2.2.imp fun item item' hitem => nodes_eq_of_alikeOn (.alike hitem)
    rw [node, node, mapM_congr_forall₂ hrows]
end

mutual
theorem unroll_eq_of_alikeOn : ∀ {body : List Node} {a b : Value} {depth : Nat},
    AlikeOn (Node.namesAll body) a b → unroll limit a depth body = unroll limit b depth body
  | [], _, _, _, _ => by rw [unroll, unroll]
  | first :: rest, a, b, depth, h => by
    rw [Node.namesAll] at h
    rw [unroll, unroll, unrollNode_eq_of_alikeOn h.left, unroll_eq_of_alikeOn h.right]

theorem unrollNode_eq_of_alikeOn : ∀ {first : Node} {a b : Value} {depth : Nat},
    AlikeOn first.names a b → unrollNode limit a depth first = unrollNode limit b depth first
  | .literal text, _, _, _, _ => by rw [unrollNode, unrollNode]
  | .interpolation expression position, _, _, _, _ => by rw [unrollNode, unrollNode]
  | .conditional predicate body position, a, b, depth, h => by
    rw [Node.names] at h
    rw [unrollNode, unrollNode, unroll_eq_of_alikeOn h.right]
  | .each path body position, a, b, depth, h => by
    rw [unrollNode, unrollNode, node_eq_of_alikeOn h]
end

theorem render_eq_bind (template : Template) (scope : Value) (limit : Int) :
    template.render scope limit =
      unroll limit scope 0 template.nodes >>= fun _ => nodes limit scope 0 template.nodes := by
  unfold Template.render
  cases hunroll : unroll limit scope 0 template.nodes with
  | error error => rfl
  | ok rest => exact renderAll_of_unroll hunroll

theorem render_eq_of_alikeOn {template : Template} {a b : Value} (h : AlikeOn template.names a b) :
    template.render a limit = template.render b limit := by
  rw [Template.names] at h
  rw [render_eq_bind, render_eq_bind, unroll_eq_of_alikeOn h, nodes_eq_of_alikeOn h]

/-- Records that are alike under the names of a template give the same text or the same error,
whatever their other fields are. -/
theorem render_reads_names (template : Template) (limit : Int) {a b : Fields Value}
    (h : ∀ name ∈ template.names,
      Alike ((Value.record a).field name) ((Value.record b).field name)) :
    template.render (.record a) limit = template.render (.record b) limit :=
  render_eq_of_alikeOn (.record h)

/-- Scopes that differ in a title which only the rows and the scope itself could show. -/
theorem render_reads_names_of_rows :
    let fog : Value := .record [("title", .str "Fog"), ("size", .int 2)]
    let fog' : Value := .record [("size", .int 2), ("title", .str "Fog")]
    let template : Template := ⟨[.interpolation (.path []) .start,
      .each ["rows"] [.interpolation (.path ["title"]) .start] .start,
      .conditional (.comparison .ne "kind" "old") [.literal "!"] .start], "t"⟩
    let left : Fields Value := [("rows", .list [fog]), ("title", .str "Effects")]
    let right : Fields Value := [("title", .str "Rows"), ("kind", .absent), ("rows", .list [fog'])]
    template.render (.record left) 1 = .ok "Fog!" ∧
      template.render (.record left) 1 = template.render (.record right) 1 := by
  intro fog fog' template left right
  have hfog : Alike fog fog' := by
    refine .record fun name => ?_
    have hsame : fog.field name = fog'.field name := by
      by_cases htitle : name = "title"
      · subst htitle
        rfl
      · have hkey : ("title" : Text) ≠ name := fun heq => htitle (Text.ofString_inj heq).symm
        simp [fog, fog', Value.field, Table.get?, hkey]
    exact hsame ▸ .refl _
  refine ⟨rfl, render_reads_names template 1 ?_⟩
  have hnames : template.names = ["rows", "kind"] := rfl
  rw [hnames, List.forall_mem_cons, List.forall_mem_singleton]
  exact ⟨.list (.cons hfog .nil), .refl .absent⟩

end Render
end CatalogPress
