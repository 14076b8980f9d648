import CatalogPress.Proofs.Render.Levels
import CatalogPress.Proofs.Template.BlockText

/-!
What a block means, said of its body as a text of its own. An `each` block gives one row for each
item of its list, and each row is the text of the stripped body in that item; a conditional block
gives the text of its body or nothing. The body has one level less than the block.
-/
namespace CatalogPress
open Fallible

namespace Template
variable {body name : String} {template : Template}

theorem exists_node_of_unplacedAll {nodes : List Node} {node : Node}
    (h : Node.unplacedAll nodes = [node]) :
    ∃ placed, nodes = [placed] ∧ placed.unplaced = node := by
  rw [Node.unplacedAll_eq_map, List.map_eq_singleton_iff] at h
  exact h

theorem exists_parse_trim (hbody : parse body name = .ok template) :
    ∃ stripped, parse (String.ofList (Text.trim body.toList)) name = .ok stripped ∧
      Node.unplacedAll stripped.nodes = Node.strip (Node.unplacedAll template.nodes) := by
  have hstrip := (reads_of_parse hbody).strip
  rw [← String.toList_ofList (l := Text.trim body.toList)] at hstrip
  exact exists_parse_of_reads hstrip name

theorem exists_parse_each (hbody : parse body name = .ok template)
    (hend : body.toList.getLast? ≠ some '{') (heach : .opener .each ∉ bracketsAll template.nodes)
    {path : String} {parts : List String} (hpath : Expression.read path.toList = .path parts) :
    ∃ block inner position, parse (Tag.each.block path body) name = .ok block ∧
      block.nodes = [.each parts inner position] ∧
      Node.unplacedAll inner = Node.strip (Node.unplacedAll template.nodes) := by
  have hvalid : ∀ raw, Expression.read path.toList ≠ .invalid raw := by
    rw [hpath]
    exact nofun
  have hfree : ¬ Piece.closing <:+: path.toList := fun hpair =>
    Expression.brace_not_mem_of_path hpath (hpair.subset List.mem_cons_self)
  rw [← bracketsAll_unplacedAll] at heach
  have hinside := (reads_of_parse hbody).inside_each heach
  have hblock : Reads false (Tag.each.block path body).toList
      [.each parts (Node.strip (Node.unplacedAll template.nodes)) .start] := by
    rw [Tag.toList_block]
    refine Tag.reads_block (Expression.trim_ne_nil hvalid) hfree
      (Expression.getLast?_ne_brace hvalid) (fun _ => rfl) hinside hend ?_
    rw [hpath]
    exact .each
  obtain ⟨block, hparse, hnodes⟩ := exists_parse_of_reads hblock name
  obtain ⟨node, hnode, hplaced⟩ := exists_node_of_unplacedAll hnodes
  cases node with
  | each path' inner position =>
    rw [Node.unplaced, Node.each.injEq] at hplaced
    obtain ⟨rfl, hinner, -⟩ := hplaced
    exact ⟨block, inner, position, hparse, hnode, hinner⟩
  | _ => simp [Node.unplaced] at hplaced

theorem exists_parse_conditional (hbody : parse body name = .ok template)
    (hend : body.toList.getLast? ≠ some '{') {predicate : String}
    (hvalid : ∀ raw, Expression.read predicate.toList ≠ .invalid raw)
    (hfree : ¬ Piece.closing <:+: predicate.toList) :
    ∃ block inner position, parse (Tag.conditional.block predicate body) name = .ok block ∧
      block.nodes = [.conditional (Expression.read predicate.toList) inner position] ∧
      Node.unplacedAll inner = Node.unplacedAll template.nodes := by
  have hblock : Reads false (Tag.conditional.block predicate body).toList
      [.conditional (Expression.read predicate.toList)
        (Node.unplacedAll template.nodes) .start] := by
    rw [Tag.toList_block]
    exact Tag.reads_block (Expression.trim_ne_nil hvalid) hfree
      (Expression.getLast?_ne_brace hvalid) (fun _ => rfl) (reads_of_parse hbody) hend .conditional
  obtain ⟨block, hparse, hnodes⟩ := exists_parse_of_reads hblock name
  obtain ⟨node, hnode, hplaced⟩ := exists_node_of_unplacedAll hnodes
  cases node with
  | conditional predicate' inner position =>
    rw [Node.unplaced, Node.conditional.injEq] at hplaced
    obtain ⟨rfl, hinner, -⟩ := hplaced
    exact ⟨block, inner, position, hparse, hnode, hinner⟩
  | _ => simp [Node.unplaced] at hplaced

end Template

namespace Render
variable {template block : Template} {scope : Value} {limit : Int} {inner : List Node}
  {position : Position}

theorem append_empty (text : Text) : text ++ ("" : Text) = text := by
  apply Text.ext
  exact List.append_nil _

theorem nodes_singleton (limit : Int) (scope : Value) (depth : Nat) (first : Node) :
    nodes limit scope depth [first] = node limit scope depth first := by
  rw [nodes, nodes]
  cases node limit scope depth first with
  | error error => rfl
  | ok text => exact congrArg Except.ok (append_empty text)

theorem unroll_singleton {depth : Nat} {first : Node} :
    (∃ rest, unroll limit scope depth [first] = .ok rest) ↔
      ∃ rest, unrollNode limit scope depth first = .ok rest :=
  exists_unroll_cons_iff.trans (and_iff_left ⟨[], rfl⟩)

theorem render_block_iff {first : Node} (h : block.nodes = [first]) {text : Text} :
    block.render scope limit = .ok text ↔
      (∃ rest, unrollNode limit scope 0 first = .ok rest) ∧
      node limit scope 0 first = .ok text := by
  rw [render_eq_ok_iff, h, unroll_singleton, nodes_singleton]

theorem render_each {parts : List String} (hblock : block.nodes = [.each parts inner position])
    (hinner : Node.unplacedAll template.nodes = Node.unplacedAll inner) (hlimit : 1 ≤ limit)
    {rows : List Text}
    (hrows : List.Forall₂ (fun item row => template.render item (limit - 1) = .ok row)
      (scope.lookup parts).items rows) :
    block.render scope limit = .ok (Text.intercalate "\n" rows) := by
  have hnode :
      node limit scope 0 (.each parts inner position) = .ok (Text.intercalate "\n" rows) := by
    refine node_each_eq_ok_iff.mpr ⟨by omega, rows, ?_, rfl⟩
    exact hrows.imp fun item row hrow => nodes_congr (by omega) hinner (nodes_of_render hrow)
  exact (render_block_iff hblock).mpr ⟨exists_unrollNode_each_iff.mpr ⟨_, hnode⟩, hnode⟩

theorem unroll_conditional {predicate : Expression} (hlimit : 1 ≤ limit)
    (hinner : Node.unplacedAll inner = Node.unplacedAll template.nodes) :
    (∃ rest, unrollNode limit scope 0 (.conditional predicate inner position) = .ok rest) ↔
      ∃ rest, unroll (limit - 1) scope 0 template.nodes = .ok rest := by
  rw [exists_unrollNode_conditional_iff, and_iff_right (by omega)]
  constructor
  · rintro ⟨below, hbelow⟩
    exact unroll_congr (by omega) hinner hbelow
  · rintro ⟨rest, hrest⟩
    exact unroll_congr (by omega) hinner.symm hrest

theorem render_conditional {predicate : Expression}
    (hblock : block.nodes = [.conditional predicate inner position])
    (hinner : Node.unplacedAll inner = Node.unplacedAll template.nodes)
    (hlimit : 1 ≤ limit) {text : Text}
    (h : template.render scope (limit - 1) = .ok text) :
    block.render scope limit = .ok (if predicate.holds scope then text else "") := by
  obtain ⟨hunroll, hnodes⟩ := render_eq_ok_iff.mp h
  refine (render_block_iff hblock).mpr ⟨(unroll_conditional hlimit hinner).mpr hunroll, ?_⟩
  refine node_conditional_eq_ok_iff.mpr ⟨by omega, ?_⟩
  split
  · exact nodes_congr (by omega) hinner.symm hnodes
  · rfl

/-- A conditional block fails exactly if its body does, whether its predicate holds or not. -/
theorem render_conditional_error_iff {predicate : Expression}
    (hblock : block.nodes = [.conditional predicate inner position])
    (hinner : Node.unplacedAll inner = Node.unplacedAll template.nodes) (hlimit : 1 ≤ limit) :
    (∃ error, block.render scope limit = .error error) ↔
      ∃ error, template.render scope (limit - 1) = .error error := by
  rw [exists_error_iff, exists_error_iff, not_iff_not]
  constructor
  · rintro ⟨text, htext⟩
    obtain ⟨hunroll, -⟩ := (render_block_iff hblock).mp htext
    obtain ⟨rest, hrest⟩ := (unroll_conditional hlimit hinner).mp hunroll
    obtain ⟨text, hnodes⟩ := exists_nodes_of_unroll hrest
    exact ⟨text, render_eq_ok_iff.mpr ⟨⟨rest, hrest⟩, hnodes⟩⟩
  · rintro ⟨text, htext⟩
    exact ⟨_, render_conditional hblock hinner hlimit htext⟩

theorem items_eq_nil {value : Value} (h : ∀ item rest, value ≠ .list (item :: rest)) :
    value.items = [] := by
  cases value with
  | list items =>
    cases items with
    | nil => rfl
    | cons item rest => exact absurd rfl (h item rest)
  | _ => rfl

/-- Blocks mean what their bodies mean: an `each` block the rows of the stripped body, one for each
item, and a conditional block the body where its predicate holds. -/
theorem blocks_compose {body name : String} {template : Template}
    (hbody : Template.parse body name = .ok template) (hend : body.toList.getLast? ≠ some '{')
    (scope : Value) {limit : Int} (hlimit : 1 ≤ limit) :
    (∀ path parts, .opener .each ∉ Template.bracketsAll template.nodes →
      Expression.read path.toList = .path parts →
      ∃ stripped block, Template.parse (String.ofList (Text.trim body.toList)) name = .ok stripped ∧
        Template.parse (Tag.each.block path body) name = .ok block ∧
        (∀ items rows, scope.lookup parts = .list items →
          List.Forall₂ (fun item row => stripped.render item (limit - 1) = .ok row) items rows →
          block.render scope limit = .ok (Text.intercalate "\n" rows)) ∧
        ((∀ item rest, scope.lookup parts ≠ .list (item :: rest)) →
          block.render scope limit = .ok "")) ∧
    ∀ predicate, (∃ parts, Expression.read predicate.toList = .path parts) ∨
        (∃ operator field literal,
          Expression.read predicate.toList = .comparison operator field literal) →
      ¬ Piece.closing <:+: predicate.toList →
      ∃ block, Template.parse (Tag.conditional.block predicate body) name = .ok block ∧
        ((∃ error, block.render scope limit = .error error) ↔
          ∃ error, template.render scope (limit - 1) = .error error) ∧
        ∀ text, template.render scope (limit - 1) = .ok text →
          block.render scope limit =
            .ok (if (Expression.read predicate.toList).holds scope then text else "") := by
  constructor
  · intro path parts heach hpath
    obtain ⟨stripped, hstripped, hsame⟩ := Template.exists_parse_trim hbody
    obtain ⟨block, inner, position, hparse, hblock, hinner⟩ :=
      Template.exists_parse_each hbody hend heach hpath
    refine ⟨stripped, block, hstripped, hparse, ?_, ?_⟩
    · intro items rows hitems hrows
      refine render_each hblock (hsame.trans hinner.symm) hlimit ?_
      rw [hitems]
      exact hrows
    · intro hnone
      have hrows : List.Forall₂ (fun item row => stripped.render item (limit - 1) = .ok row)
          (scope.lookup parts).items [] := by
        rw [items_eq_nil hnone]
        exact .nil
      exact render_each hblock (hsame.trans hinner.symm) hlimit hrows
  · intro predicate hread hfree
    have hvalid : ∀ raw, Expression.read predicate.toList ≠ .invalid raw := by
      obtain ⟨parts, heq⟩ | ⟨operator, field, literal, heq⟩ := hread <;> rw [heq] <;> exact nofun
    obtain ⟨block, inner, position, hparse, hblock, hinner⟩ :=
      Template.exists_parse_conditional hbody hend hvalid hfree
    exact ⟨block, hparse, render_conditional_error_iff hblock hinner hlimit,
      fun text htext => render_conditional hblock hinner hlimit htext⟩

/-- A row for each of two texts, and the same body once more for their list. -/
theorem blocks_compose_of_texts :
    (∃ block, Template.parse (Tag.each.block "this" " \x7b\x7bthis\x7d\x7d\n") "t" = .ok block ∧
      block.render (.list [.str "a", .str "b"]) 1 = .ok "a\nb") ∧
    (∃ block, Template.parse (Tag.conditional.block "this" " \x7b\x7bthis\x7d\x7d\n") "t" =
      .ok block ∧
      block.render (.list [.str "a", .str "b"]) 1 = .ok " a,b\n") := by
  have hbody : Template.parse " \x7b\x7bthis\x7d\x7d\n" "t" = .ok ⟨[.literal (String.ofList [' ']),
      .interpolation (.path []) ⟨1, 2⟩, .literal (String.ofList ['\n'])], "t"⟩ := by rfl
  have hstripped : Template.parse (String.ofList (Text.trim " \x7b\x7bthis\x7d\x7d\n".toList)) "t" =
      .ok ⟨[.interpolation (.path []) .start], "t"⟩ := by rfl
  obtain ⟨heach, hconditional⟩ := blocks_compose hbody (by decide) (.list [.str "a", .str "b"])
    (Int.le_refl 1)
  constructor
  · obtain ⟨stripped, block, htrim, hblock, hrows, -⟩ := heach "this" [] (by decide) (by decide)
    cases hstripped.symm.trans htrim
    exact ⟨block, hblock, hrows _ ["a", "b"] rfl (.cons rfl (.cons rfl .nil))⟩
  · obtain ⟨block, hblock, -, hrender⟩ := hconditional "this" (.inl ⟨[], by decide⟩) (by decide)
    exact ⟨block, hblock, hrender " a,b\n" rfl⟩

end Render
end CatalogPress
