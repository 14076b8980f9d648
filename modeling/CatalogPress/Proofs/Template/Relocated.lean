import CatalogPress.Proofs.Template.Grammar
import CatalogPress.Proofs.Template.Reads

/-!
A text reads the same wherever it stands. Its pieces differ in their positions only, and so do the
nodes that they spell out, so what is known of a text at one place holds at all of them.
-/
namespace CatalogPress
open Text

namespace Piece

def unplaced : Piece → Piece
  | literal text => literal text
  | directive inside _ => directive inside .start
  | unterminated _ => unterminated .start

theorem Cut.relocate {position : Position} {text : List Char} {pieces : List Piece}
    (h : Cut position text pieces) (other : Position) :
    ∃ moved, Cut other text moved ∧ moved.map unplaced = pieces.map unplaced := by
  induction h generalizing other with
  | plain hfree => exact ⟨_, .plain hfree, rfl⟩
  | directive hopening hclosing _ ih =>
    obtain ⟨moved, hmoved, hsame⟩ := ih (other.after _)
    refine ⟨_, .directive hopening hclosing hmoved, ?_⟩
    simp only [List.map_append, List.map_cons, unplaced, hsame]
  | unterminated hopening hclosing =>
    refine ⟨_, .unterminated hopening hclosing, ?_⟩
    simp only [List.map_append, List.map_cons, unplaced]

theorem eq_literal_of_unplaced {piece : Piece} {text : List Char}
    (h : unplaced piece = literal text) :
    piece = literal text := by
  cases piece with
  | literal other => exact h
  | _ => cases h

theorem exists_directive_of_unplaced {piece : Piece} {inside : List Char} {position : Position}
    (h : unplaced piece = unplaced (directive inside position)) :
    ∃ other, piece = directive inside other := by
  cases piece with
  | directive other place =>
    cases h
    exact ⟨place, rfl⟩
  | _ => cases h

end Piece

theorem BlockNode.relocate {body moved : List Node} {position : Position} {tag : Tag}
    {expression : Expression} {node : Node} (h : BlockNode body position tag expression node)
    (hmoved : Node.unplacedAll moved = Node.unplacedAll body) (other : Position) :
    ∃ placed, BlockNode moved other tag expression placed ∧ placed.unplaced = node.unplaced := by
  cases h with
  | each =>
    refine ⟨_, .each, ?_⟩
    rw [Node.unplaced, Node.unplaced, Node.unplacedAll_strip, hmoved, Node.unplacedAll_strip]
  | conditional =>
    refine ⟨_, .conditional, ?_⟩
    rw [Node.unplaced, Node.unplaced, hmoved]

theorem Forest.relocate {inEach : Bool} {pieces moved : List Piece} {nodes : List Node}
    (h : Forest inEach pieces nodes)
    (hmoved : moved.map Piece.unplaced = pieces.map Piece.unplaced) :
    ∃ placed, Forest inEach moved placed ∧ Node.unplacedAll placed = Node.unplacedAll nodes := by
  induction h generalizing moved with
  | nil =>
    rw [List.map_nil, List.map_eq_nil_iff] at hmoved
    exact ⟨[], hmoved ▸ .nil, rfl⟩
  | literal htext _ ih =>
    obtain ⟨piece, rest, rfl, hpiece, hrest⟩ := List.map_eq_cons_iff.mp hmoved
    obtain ⟨placed, hplaced, hsame⟩ := ih hrest
    rw [Piece.eq_literal_of_unplaced hpiece]
    refine ⟨_, .literal htext hplaced, ?_⟩
    rw [Node.unplacedAll, Node.unplacedAll, hsame]
  | interpolation helse hform _ ih =>
    obtain ⟨piece, rest, rfl, hpiece, hrest⟩ := List.map_eq_cons_iff.mp hmoved
    obtain ⟨placed, hplaced, hsame⟩ := ih hrest
    obtain ⟨other, rfl⟩ := Piece.exists_directive_of_unplaced hpiece
    refine ⟨_, .interpolation helse hform hplaced, ?_⟩
    rw [Node.unplacedAll, Node.unplacedAll, hsame, Node.unplaced, Node.unplaced]
  | block hopen hargument hnested _ hclose hrest hnode _ ihbody ih =>
    obtain ⟨first, after, rfl, hfirst, hafter⟩ := List.map_eq_cons_iff.mp hmoved
    rw [List.map_append] at hafter
    obtain ⟨inner, after, rfl, hinner, hafter⟩ := List.map_eq_append_iff.mp hafter
    obtain ⟨last, rest, rfl, hlast, hpieces⟩ := List.map_eq_cons_iff.mp hafter
    obtain ⟨other, rfl⟩ := Piece.exists_directive_of_unplaced hfirst
    obtain ⟨_, rfl⟩ := Piece.exists_directive_of_unplaced hlast
    obtain ⟨body, hbody, hsameBody⟩ := ihbody hinner
    obtain ⟨placed, hplaced, hsame⟩ := ih hpieces
    obtain ⟨block, hblock, hsameBlock⟩ := hnode.relocate hsameBody other
    refine ⟨_, .block hopen hargument hnested hbody hclose hrest hblock hplaced, ?_⟩
    rw [Node.unplacedAll, Node.unplacedAll, hsame, hsameBlock]

/-- What a text reads as at one place it reads as everywhere. -/
theorem Reads.of_cut {inEach : Bool} {position : Position} {text : List Char} {pieces : List Piece}
    {nodes : List Node} (hcut : Piece.Cut position text pieces) (h : Forest inEach pieces nodes) :
    Reads inEach text (Node.unplacedAll nodes) := by
  intro other
  obtain ⟨moved, hmoved, hsame⟩ := hcut.relocate other
  obtain ⟨placed, hplaced, hnodes⟩ := h.relocate hsame
  exact ⟨moved, placed, hmoved, hplaced, hnodes⟩

namespace Template

theorem reads_of_parse {text name : String} {template : Template}
    (h : parse text name = .ok template) :
    Reads false text.toList (Node.unplacedAll template.nodes) :=
  .of_cut (Piece.cut_outside .start text.toList) (parse_eq_ok_iff.mp h).2

theorem exists_parse_of_reads {text : String} {nodes : List Node}
    (h : Reads false text.toList nodes) (name : String) :
    ∃ template, parse text name = .ok template ∧ Node.unplacedAll template.nodes = nodes := by
  obtain ⟨pieces, placed, hcut, hplaced, hnodes⟩ := h .start
  refine ⟨⟨placed, name⟩, parse_eq_ok_iff.mpr ⟨rfl, ?_⟩, hnodes⟩
  rwa [← (Piece.cut_iff _ _).mp hcut]

end Template
end CatalogPress
