import CatalogPress.Proofs.Render.Levels

/-!
When the limit of nesting is exceeded. Outside `each` bodies every block counts, whether its
surroundings are written or not; in the body of an `each` block only those count that are reached
for an item of its list. The error names a block of the first depth beyond the limit.
-/
namespace CatalogPress

namespace Node

def blockPosition? : Node → Option Position
  | each _ _ position => some position
  | conditional _ _ position => some position
  | _ => none

mutual
def height : Node → Nat
  | literal _ => 0
  | interpolation _ _ => 0
  | each _ body _ => heightAll body + 1
  | conditional _ body _ => heightAll body + 1

def heightAll : List Node → Nat
  | [] => 0
  | first :: rest => max first.height (heightAll rest)
end

theorem height_le_of_mem {node : Node} {nodes : List Node} (h : node ∈ nodes) :
    node.height ≤ heightAll nodes := by
  induction nodes with
  | nil => cases h
  | cons first rest ih =>
    rw [heightAll]
    obtain rfl | h := List.mem_cons.mp h
    · exact le_max_left _ _
    · exact (ih h).trans (le_max_right _ _)

theorem height_pos {node : Node} {position : Position} (h : node.blockPosition? = some position) :
    0 < node.height := by
  cases node with
  | literal | interpolation => cases h
  | each | conditional => exact Nat.succ_pos _

end Node

namespace Render
open Fallible

/-- A node outside every `each` body, with the number of blocks around it. -/
inductive Outside : List Node → Nat → Node → Prop
  | here {nodes node} : node ∈ nodes → Outside nodes 0 node
  | under {nodes predicate body position around node} :
      .conditional predicate body position ∈ nodes →
      Outside body around node → Outside nodes (around + 1) node

/-- A node of a body that is reached for an item: the predicates of all conditional blocks around it
hold. Below an `each` block in the body it is reached for one of the items there. -/
inductive InRow : Value → List Node → Nat → Node → Prop
  | here {item nodes node} : node ∈ nodes → InRow item nodes 0 node
  | under {item nodes predicate body position around node} :
      .conditional predicate body position ∈ nodes →
      predicate.holds item = true → InRow item body around node → InRow item nodes (around + 1) node
  | row {item nodes path body position inner around node} : .each path body position ∈ nodes →
      inner ∈ (item.lookup path).items → InRow inner body around node →
      InRow item nodes (around + 1) node

inductive Met (scope : Value) (nodes : List Node) : Nat → Position → Prop
  | outside {around block position} : Outside nodes around block →
      block.blockPosition? = some position →
      Met scope nodes (around + 1) position
  | row {around path body opened item inner block position} :
      Outside nodes around (.each path body opened) →
      item ∈ (scope.lookup path).items → InRow item body inner block →
      block.blockPosition? = some position →
      Met scope nodes (around + 1 + (inner + 1)) position

/-- An error that is about a block of the first depth beyond the limit. -/
structure Blames (limit : Int) (blocks : Nat → Position → Prop) (error : DepthError) : Prop where
  limit_eq : error.limit = limit
  depth_eq : (error.depth : Int) = max limit 0 + 1
  block : blocks error.depth error.position

variable {limit : Int} {scope : Value} {depth : Nat} {body more : List Node}

theorem Outside.mono {around : Nat} {node : Node}
    (h : Outside body around node) (hsub : body ⊆ more) :
    Outside more around node := by
  cases h with
  | here hmem => exact .here (hsub hmem)
  | under hmem h => exact .under (hsub hmem) h

theorem InRow.mono {item : Value} {around : Nat} {node : Node}
    (h : InRow item body around node) (hsub : body ⊆ more) :
    InRow item more around node := by
  cases h with
  | here hmem => exact .here (hsub hmem)
  | under hmem hholds h => exact .under (hsub hmem) hholds h
  | row hmem hitem h => exact .row (hsub hmem) hitem h

theorem Met.mono {total : Nat} {position : Position}
    (h : Met scope body total position) (hsub : body ⊆ more) :
    Met scope more total position := by
  cases h with
  | outside houtside hposition => exact .outside (houtside.mono hsub) hposition
  | row houtside hitem hrow hposition => exact .row (houtside.mono hsub) hitem hrow hposition

theorem Met.under {predicate : Expression} {position place : Position} {total : Nat}
    (h : Met scope body total place) : Met scope [.conditional predicate body position]
      (total + 1) place := by
  cases h with
  | outside houtside hposition => exact .outside (.under List.mem_cons_self houtside) hposition
  | @row around _ _ _ _ inner _ _ houtside hitem hrow hposition =>
    rw [Nat.add_right_comm (around + 1)]
    exact .row (.under List.mem_cons_self houtside) hitem hrow hposition

theorem InRow.met {path : List String} {opened position : Position} {around : Nat} {block : Node}
    (h : InRow scope [.each path body opened] around block)
    (hposition : block.blockPosition? = some position) :
    Met scope [.each path body opened] (around + 1) position := by
  cases h with
  | here hmem => exact .outside (.here hmem) hposition
  | under hmem => simp at hmem
  | @row _ _ _ _ _ _ around _ hmem hitem hrow =>
    obtain ⟨rfl, rfl, rfl⟩ : _ = path ∧ _ = body ∧ _ = opened := by simpa using hmem
    rw [show around + 1 + 1 = 0 + 1 + (around + 1) by omega]
    exact .row (.here List.mem_cons_self) hitem hrow hposition

theorem Blames.mono {blocks blocks' : Nat → Position → Prop} {error : DepthError}
    (h : Blames limit blocks error)
    (hblocks : ∀ total position, blocks total position → blocks' total position) :
    Blames limit blocks' error :=
  ⟨h.limit_eq, h.depth_eq, hblocks _ _ h.block⟩

/-- A check fails at the first depth beyond the limit if it is made below a depth that is within. -/
theorem blames_of_checkDepth {position : Position} {error : DepthError}
    {blocks : Nat → Position → Prop} (hdepth : (depth : Int) ≤ max limit 0)
    (h : checkDepth limit (depth + 1) position = .error error)
    (hblock : blocks (depth + 1) position) : Blames limit blocks error := by
  unfold checkDepth at h
  split at h
  · rename_i hlimit
    cases h
    refine ⟨rfl, ?_, hblock⟩
    change ((depth + 1 : Nat) : Int) = _
    omega
  · cases h

section
variable {first : Node} {rest : List Node} {predicate : Expression}
  {path : List String} {position : Position} {error : DepthError}

theorem nodes_cons_eq_error (h : nodes limit scope depth (first :: rest) = .error error) :
    node limit scope depth first = .error error ∨ nodes limit scope depth rest = .error error := by
  rw [nodes, bind_eq_error] at h
  obtain h | ⟨head, -, h⟩ := h
  · exact .inl h
  · obtain h | ⟨tail, -, h⟩ := bind_eq_error.mp h
    · exact .inr h
    · cases h

theorem unroll_cons_eq_error (h : unroll limit scope depth (first :: rest) = .error error) :
    unrollNode limit scope depth first = .error error ∨
    unroll limit scope depth rest = .error error := by
  rw [unroll, bind_eq_error] at h
  obtain h | ⟨head, -, h⟩ := h
  · exact .inl h
  · obtain h | ⟨tail, -, h⟩ := bind_eq_error.mp h
    · exact .inr h
    · cases h

theorem node_conditional_eq_error
    (h : node limit scope depth (.conditional predicate body position) = .error error) :
    checkDepth limit (depth + 1) position = .error error ∨ ((depth + 1 : Nat) ≤ limit ∧
      predicate.holds scope = true ∧ nodes limit scope (depth + 1) body = .error error) := by
  rw [node, bind_eq_error] at h
  obtain h | ⟨⟨⟩, hcheck, h⟩ := h
  · exact .inl h
  · split at h
    · exact .inr ⟨checkDepth_eq_ok_iff.mp hcheck, ‹_›, h⟩
    · cases h

theorem node_each_eq_error (h : node limit scope depth (.each path body position) = .error error) :
    checkDepth limit (depth + 1) position = .error error ∨ ((depth + 1 : Nat) ≤ limit ∧
      ∃ item ∈ (scope.lookup path).items, nodes limit item (depth + 1) body = .error error) := by
  rw [node, bind_eq_error] at h
  obtain h | ⟨⟨⟩, hcheck, h⟩ := h
  · exact .inl h
  · obtain h | ⟨rows, -, h⟩ := bind_eq_error.mp h
    · exact .inr ⟨checkDepth_eq_ok_iff.mp hcheck, exists_of_mapM_eq_error h⟩
    · cases h

theorem unrollNode_conditional_eq_error
    (h : unrollNode limit scope depth (.conditional predicate body position) = .error error) :
    checkDepth limit (depth + 1) position = .error error ∨ ((depth + 1 : Nat) ≤ limit ∧
      unroll limit scope (depth + 1) body = .error error) := by
  rw [unrollNode, bind_eq_error] at h
  obtain h | ⟨⟨⟩, hcheck, h⟩ := h
  · exact .inl h
  · obtain h | ⟨inner, -, h⟩ := bind_eq_error.mp h
    · exact .inr ⟨checkDepth_eq_ok_iff.mp hcheck, h⟩
    · cases h

theorem unrollNode_each_eq_error (h : unrollNode limit scope depth (.each path body position) =
      .error error) :
    node limit scope depth (.each path body position) = .error error := by
  rw [unrollNode, bind_eq_error] at h
  obtain h | ⟨text, -, h⟩ := h
  · exact h
  · cases h

end

-- All blocks around are within the limit, so that the first check that fails is at the first depth
-- beyond it.
mutual
theorem blames_of_nodes : ∀ {body : List Node} {item : Value} {depth : Nat} {error : DepthError},
    (depth : Int) ≤ max limit 0 → nodes limit item depth body = .error error →
      Blames limit (fun total position => ∃ around block, total = depth + around + 1 ∧
      InRow item body around block ∧
        block.blockPosition? = some position) error
  | [], _, _, _, _, h => by cases h
  | first :: rest, item, depth, error, hdepth, h => by
    obtain h | h := nodes_cons_eq_error h
    · refine (blames_of_node hdepth h).mono ?_
      rintro total position ⟨around, block, htotal, hrow, hposition⟩
      exact ⟨around, block, htotal, hrow.mono (by simp), hposition⟩
    · refine (blames_of_nodes hdepth h).mono ?_
      rintro total position ⟨around, block, htotal, hrow, hposition⟩
      exact ⟨around, block, htotal, hrow.mono (List.subset_cons_self _ _), hposition⟩

theorem blames_of_node : ∀ {first : Node} {item : Value} {depth : Nat} {error : DepthError},
    (depth : Int) ≤ max limit 0 → node limit item depth first = .error error →
      Blames limit (fun total position => ∃ around block, total = depth + around + 1 ∧
        InRow item [first] around block ∧ block.blockPosition? = some position) error
  | .literal text, _, _, _, _, h => by
    rw [node] at h
    cases h
  | .interpolation expression position, _, _, _, _, h => by
    rw [node] at h
    cases h
  | .conditional predicate body position, item, depth, error, hdepth, h => by
    obtain h | ⟨hlimit, hholds, h⟩ := node_conditional_eq_error h
    · exact blames_of_checkDepth hdepth h ⟨0, _, rfl, .here List.mem_cons_self, rfl⟩
    · refine (blames_of_nodes (Int.le_trans hlimit (Int.le_max_left _ _)) h).mono ?_
      rintro total position ⟨around, block, rfl, hrow, hposition⟩
      exact ⟨around + 1, block, by omega, .under List.mem_cons_self hholds hrow, hposition⟩
  | .each path body position, item, depth, error, hdepth, h => by
    obtain h | ⟨hlimit, inner, hinner, h⟩ := node_each_eq_error h
    · exact blames_of_checkDepth hdepth h ⟨0, _, rfl, .here List.mem_cons_self, rfl⟩
    · refine (blames_of_nodes (Int.le_trans hlimit (Int.le_max_left _ _)) h).mono ?_
      rintro total position ⟨around, block, rfl, hrow, hposition⟩
      exact ⟨around + 1, block, by omega, .row List.mem_cons_self hinner hrow, hposition⟩
end

mutual
theorem blames_of_unroll : ∀ {body : List Node} {depth : Nat} {error : DepthError},
    (depth : Int) ≤ max limit 0 → unroll limit scope depth body = .error error →
      Blames limit (fun total position => ∃ below, total = depth + below ∧
      Met scope body below position) error
  | [], _, _, _, h => by cases h
  | first :: rest, depth, error, hdepth, h => by
    obtain h | h := unroll_cons_eq_error h
    · refine (blames_of_unrollNode hdepth h).mono ?_
      rintro total position ⟨below, htotal, hmet⟩
      exact ⟨below, htotal, hmet.mono (by simp)⟩
    · refine (blames_of_unroll hdepth h).mono ?_
      rintro total position ⟨below, htotal, hmet⟩
      exact ⟨below, htotal, hmet.mono (List.subset_cons_self _ _)⟩

theorem blames_of_unrollNode : ∀ {first : Node} {depth : Nat} {error : DepthError},
    (depth : Int) ≤ max limit 0 → unrollNode limit scope depth first = .error error →
      Blames limit (fun total position => ∃ below, total = depth + below ∧
      Met scope [first] below position) error
  | .literal text, _, _, _, h => by cases h
  | .interpolation expression position, _, _, _, h => by cases h
  | .conditional predicate body position, depth, error, hdepth, h => by
    obtain h | ⟨hlimit, h⟩ := unrollNode_conditional_eq_error h
    · exact blames_of_checkDepth hdepth h ⟨1, rfl, .outside (.here List.mem_cons_self) rfl⟩
    · refine (blames_of_unroll (Int.le_trans hlimit (Int.le_max_left _ _)) h).mono ?_
      rintro total position ⟨below, rfl, hmet⟩
      exact ⟨below + 1, by omega, hmet.under⟩
  | .each path body position, depth, error, hdepth, h => by
    refine (blames_of_node hdepth (unrollNode_each_eq_error h)).mono ?_
    rintro total position ⟨around, block, rfl, hrow, hposition⟩
    exact ⟨around + 1, rfl, hrow.met hposition⟩
end

theorem exists_node_of_mem {first : Node} {text : Text}
    (h : nodes limit scope depth body = .ok text) (hmem : first ∈ body) :
    ∃ head, node limit scope depth first = .ok head := by
  induction body generalizing text with
  | nil => cases hmem
  | cons next rest ih =>
    obtain ⟨head, tail, hhead, htail, -⟩ := nodes_cons_eq_ok_iff.mp h
    obtain rfl | hmem := List.mem_cons.mp hmem
    · exact ⟨head, hhead⟩
    · exact ih htail hmem

theorem exists_unrollNode_of_mem {first : Node} {rest : List Unrolled}
    (h : unroll limit scope depth body = .ok rest) (hmem : first ∈ body) :
    ∃ head, unrollNode limit scope depth first = .ok head := by
  induction body generalizing rest with
  | nil => cases hmem
  | cons next others ih =>
    obtain ⟨hhead, tail, htail⟩ := exists_unroll_cons_iff.mp ⟨rest, h⟩
    obtain rfl | hmem := List.mem_cons.mp hmem
    · exact hhead
    · exact ih htail hmem

theorem InRow.exists_node {item : Value} {around : Nat} {reached : Node}
    (h : InRow item body around reached) {depth : Nat} {text : Text}
    (hnodes : nodes limit item depth body = .ok text) :
    ∃ inner written, node limit inner (depth + around) reached = .ok written := by
  induction h generalizing depth text with
  | here hmem => exact ⟨_, exists_node_of_mem hnodes hmem⟩
  | @under _ _ _ _ _ around _ hmem hholds _ ih =>
    obtain ⟨head, h⟩ := exists_node_of_mem hnodes hmem
    obtain ⟨-, h⟩ := node_conditional_eq_ok_iff.mp h
    rw [if_pos hholds] at h
    rw [Nat.add_comm around, ← Nat.add_assoc]
    exact ih h
  | @row _ _ _ _ _ _ around _ hmem hitem _ ih =>
    obtain ⟨head, h⟩ := exists_node_of_mem hnodes hmem
    obtain ⟨-, rows, hrows, -⟩ := node_each_eq_ok_iff.mp h
    obtain ⟨row, -, hrow⟩ := exists_of_forall₂_left hrows _ hitem
    rw [Nat.add_comm around, ← Nat.add_assoc]
    exact ih hrow

theorem Outside.exists_unrollNode {around : Nat} {reached : Node} (h : Outside body around reached)
    {depth : Nat} {rest : List Unrolled} (hunroll : unroll limit scope depth body = .ok rest) :
    ∃ head, unrollNode limit scope (depth + around) reached = .ok head := by
  induction h generalizing depth rest with
  | here hmem => exact exists_unrollNode_of_mem hunroll hmem
  | @under _ _ _ _ around _ hmem _ ih =>
    have h := exists_unrollNode_of_mem hunroll hmem
    obtain ⟨-, inner, hinner⟩ := exists_unrollNode_conditional_iff.mp h
    rw [Nat.add_comm around, ← Nat.add_assoc]
    exact ih hinner

theorem within_of_node {block : Node} {position : Position} {text : Text}
    (hblock : block.blockPosition? = some position) (h : node limit scope depth block = .ok text) :
    (depth + 1 : Nat) ≤ limit := by
  cases block with
  | literal | interpolation => cases hblock
  | each => exact (node_each_eq_ok_iff.mp h).1
  | conditional => exact (node_conditional_eq_ok_iff.mp h).1

theorem Met.le_limit {total : Nat} {position : Position}
    (h : Met scope body total position) {rest : List Unrolled}
    (hunroll : unroll limit scope 0 body = .ok rest) : (total : Int) ≤ limit := by
  cases h with
  | @outside around block _ houtside hposition =>
    obtain ⟨head, hhead⟩ := houtside.exists_unrollNode hunroll
    rw [Nat.zero_add] at hhead
    obtain ⟨text, htext⟩ := exists_node_of_unrollNode hhead
    exact within_of_node hposition htext
  | @row around path inner opened item below block _ houtside hitem hrow hposition =>
    obtain ⟨head, hhead⟩ := houtside.exists_unrollNode hunroll
    rw [Nat.zero_add] at hhead
    obtain ⟨text, htext⟩ := exists_node_of_unrollNode hhead
    obtain ⟨-, rows, hrows, -⟩ := node_each_eq_ok_iff.mp htext
    obtain ⟨row, -, hnodes⟩ := exists_of_forall₂_left hrows _ hitem
    obtain ⟨scope, written, hwritten⟩ := hrow.exists_node hnodes
    exact within_of_node hposition hwritten

theorem Outside.height_le {around : Nat} {reached : Node} (h : Outside body around reached) :
    around + reached.height ≤ Node.heightAll body := by
  induction h with
  | here hmem =>
    rw [Nat.zero_add]
    exact Node.height_le_of_mem hmem
  | under hmem _ ih =>
    have hle := Node.height_le_of_mem hmem
    rw [Node.height] at hle
    omega

theorem InRow.height_le {item : Value} {around : Nat} {reached : Node}
    (h : InRow item body around reached) :
    around + reached.height ≤ Node.heightAll body := by
  induction h with
  | here hmem =>
    rw [Nat.zero_add]
    exact Node.height_le_of_mem hmem
  | under hmem _ _ ih | row hmem _ _ ih =>
    have hle := Node.height_le_of_mem hmem
    rw [Node.height] at hle
    omega

theorem Met.le_height {total : Nat} {position : Position} (h : Met scope body total position) :
    total ≤ Node.heightAll body := by
  cases h with
  | outside houtside hposition =>
    have hle := houtside.height_le
    have hpos := Node.height_pos hposition
    omega
  | row houtside _ hrow hposition =>
    have hle := houtside.height_le
    have hinner := hrow.height_le
    have hpos := Node.height_pos hposition
    rw [Node.height] at hle
    omega

theorem render_eq_error_iff {template : Template} {error : DepthError} :
    template.render scope limit = .error error ↔
      unroll limit scope 0 template.nodes = .error error := by
  cases hunroll : unroll limit scope 0 template.nodes with
  | error other =>
    have hrender : template.render scope limit = .error other := bind_eq_error.mpr (.inl hunroll)
    rw [hrender, Except.error.injEq, Except.error.injEq]
  | ok rest =>
    obtain ⟨text, htext⟩ := exists_nodes_of_unroll hunroll
    have hrender : template.render scope limit = .ok text :=
      render_eq_ok_iff.mpr ⟨⟨rest, hunroll⟩, htext⟩
    rw [hrender]
    exact iff_of_false nofun nofun

/-- Rendering fails exactly if a block is met beyond the limit, and then the error is about one at
the first depth beyond it. A tree that is not deeper than the limit is rendered whatever the scope
is. -/
theorem render_fails_iff_met (template : Template) (scope : Value) (limit : Int) :
    ((∃ error, template.render scope limit = .error error) ↔
      ∃ depth position, Met scope template.nodes depth position ∧ limit < depth) ∧
    (∀ error, template.render scope limit = .error error →
      Blames limit (Met scope template.nodes) error) ∧
    ((Node.heightAll template.nodes : Int) ≤ limit →
      ∃ text, template.render scope limit = .ok text) := by
  have hblames (error : DepthError) (h : template.render scope limit = .error error) :
      Blames limit (Met scope template.nodes) error := by
    refine (blames_of_unroll (by omega) (render_eq_error_iff.mp h)).mono ?_
    rintro total position ⟨below, rfl, hmet⟩
    rwa [Nat.zero_add]
  have hfails : (∃ error, template.render scope limit = .error error) ↔
      ∃ depth position, Met scope template.nodes depth position ∧ limit < depth := by
    constructor
    · rintro ⟨error, h⟩
      obtain ⟨-, hdepth, hmet⟩ := hblames error h
      exact ⟨error.depth, error.position, hmet, by omega⟩
    · rintro ⟨depth, position, hmet, hlimit⟩
      rw [exists_error_iff]
      rintro ⟨text, h⟩
      -- The first phase makes every check that rendering makes.
      obtain ⟨⟨rest, hrest⟩, -⟩ := render_eq_ok_iff.mp h
      have hwithin := hmet.le_limit hrest
      omega
  refine ⟨hfails, hblames, fun hheight => ?_⟩
  by_contra hnone
  obtain ⟨depth, position, hmet, hlimit⟩ := hfails.mp (exists_error_iff.mpr hnone)
  have hdepth := hmet.le_height
  omega

/-- The fourth block is reached for the second item only, though the block around the list is not
written. -/
theorem render_fails_for_item :
    let template : Template := ⟨[.conditional (.path ["shown"]) [.each ["rows"]
      [.conditional (.comparison .eq "kind" "old") [.conditional (.path ["name"]) [] ⟨1, 4⟩] ⟨1, 3⟩]
        ⟨1, 2⟩]
        ⟨1, 1⟩], "t"⟩
    let scope : Value :=
      .record [("rows", .list [.record [("kind", .str "new")], .record [("kind", .str "old")]])]
    (template.render scope 3 = .error ⟨4, 3, ⟨1, 4⟩⟩ ∧
      Blames 3 (Met scope template.nodes) ⟨4, 3, ⟨1, 4⟩⟩) ∧
      (Node.heightAll template.nodes : Int) ≤ 4 ∧ ∃ text, template.render scope 4 = .ok text := by
  intro template scope
  have herror : template.render scope 3 = .error ⟨4, 3, ⟨1, 4⟩⟩ := by rfl
  have hheight : (Node.heightAll template.nodes : Int) ≤ 4 := by decide
  exact ⟨⟨herror, (render_fails_iff_met template scope 3).2.1 _ herror⟩, hheight,
    (render_fails_iff_met template scope 4).2.2 hheight⟩

end Render
end CatalogPress
