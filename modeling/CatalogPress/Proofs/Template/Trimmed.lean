import CatalogPress.Proofs.Template.Relocated
import CatalogPress.Proofs.Template.Strip

/-!
Trimming the text of a body strips the nodes that it reads as. Only a literal can have blanks at the
ends, so trimming never breaks a directive, and it leaves no new marker behind.
-/
namespace CatalogPress
open Text

namespace Piece

def stripStart : List Piece → List Piece
  | literal text :: rest => literals (trimStart text) ++ rest
  | pieces => pieces

def stripEnd : List Piece → List Piece
  | [] => []
  | [literal text] => literals (trimEnd text)
  | piece :: rest => piece :: stripEnd rest

@[simp] theorem stripEnd_nil : stripEnd [] = [] := rfl

theorem stripStart_literals_append {rest : List Piece} (text : List Char)
    (h : ∀ piece ∈ rest.head?, ∀ other, piece ≠ literal other) :
    stripStart (literals text ++ rest) = literals (trimStart text) ++ rest := by
  cases text with
  | nil =>
    cases rest with
    | nil => rfl
    | cons piece rest =>
      cases piece with
      | literal other => exact absurd rfl (h _ rfl other)
      | _ => rfl
  | cons c text => rfl

theorem stripEnd_cons {rest : List Piece} (h : rest ≠ []) (piece : Piece) :
    stripEnd (piece :: rest) = piece :: stripEnd rest := by
  cases rest with
  | nil => exact absurd rfl h
  | cons next rest => cases piece <;> rfl

theorem stripEnd_directive (inside : List Char) (position : Position) (rest : List Piece) :
    stripEnd (directive inside position :: rest) = directive inside position :: stripEnd rest := by
  cases rest <;> rfl

theorem stripEnd_append {b : List Piece} (h : b ≠ []) (a : List Piece) :
    stripEnd (a ++ b) = a ++ stripEnd b := by
  induction a with
  | nil => rfl
  | cons piece a ih => rw [List.cons_append, stripEnd_cons (by simp [h]), ih, List.cons_append]

theorem stripEnd_literals (text : List Char) :
    stripEnd (literals text) = literals (trimEnd text) := by
  cases text <;> rfl

theorem Cut.exists_stripStart {position : Position} {text : List Char} {pieces : List Piece}
    (h : Cut position text pieces) : ∃ start, Cut start (trimStart text) (stripStart pieces) := by
  have hbrace (rest : List Char) : ∀ c ∈ (opening ++ rest).head?, isBlank c = false :=
    forall_mem_head?_cons.mpr (by decide)
  cases h with
  | plain hfree =>
    have hstrip := stripStart_literals_append text (show ∀ piece ∈ [].head?, _ from nofun)
    rw [List.append_nil, List.append_nil] at hstrip
    rw [hstrip]
    obtain ⟨blanks, -, heq⟩ := exists_eq_append_trimStart text
    refine ⟨position, .plain fun hpair => hfree ?_⟩
    rw [heq]
    exact hpair.trans (List.suffix_append _ _).isInfix
  | @directive _ before inside rest pieces hopening hclosing hrest =>
    rw [stripStart_literals_append _ (by simp), trimStart_append_of_head? (hbrace _)]
    obtain ⟨blanks, -, heq⟩ := exists_eq_append_trimStart before
    generalize trimStart before = kept at heq ⊢
    subst heq
    rw [List.append_assoc] at hopening hrest
    rw [Position.after_append] at hrest ⊢
    refine ⟨_, .directive (fun hpair => hopening ?_) hclosing hrest⟩
    exact hpair.trans (List.suffix_append _ _).isInfix
  | @unterminated _ before rest hopening hclosing =>
    rw [stripStart_literals_append _ (by simp), trimStart_append_of_head? (hbrace _)]
    obtain ⟨blanks, -, heq⟩ := exists_eq_append_trimStart before
    generalize trimStart before = kept at heq ⊢
    subst heq
    rw [List.append_assoc] at hopening
    rw [Position.after_append]
    refine ⟨_, .unterminated (fun hpair => hopening ?_) hclosing⟩
    exact hpair.trans (List.suffix_append _ _).isInfix

theorem Cut.stripEnd {position : Position} {text : List Char} {pieces : List Piece}
    (h : Cut position text pieces) (hterminated : ∀ start, .unterminated start ∉ pieces) :
    Cut position (trimEnd text) (stripEnd pieces) := by
  induction h with
  | @plain position text hfree =>
    rw [stripEnd_literals]
    obtain ⟨blanks, -, heq⟩ := exists_eq_trimEnd_append text
    refine .plain fun hpair => hfree ?_
    rw [heq]
    exact hpair.trans (List.prefix_append _ _).isInfix
  | @directive position before inside rest pieces hopening hclosing _ ih =>
    have hrest := ih fun start hmem => hterminated start (by simp [hmem])
    rw [stripEnd_append (List.cons_ne_nil _ _), stripEnd_directive]
    have htext : trimEnd (before ++ (opening ++ (inside ++ (closing ++ rest)))) =
        before ++ (opening ++ (inside ++ (closing ++ trimEnd rest))) := by
      have hlast :
          ∀ c ∈ (before ++ (opening ++ (inside ++ closing))).getLast?, isBlank c = false := by
        intro c hc
        simp [closing, List.getLast?_append] at hc
        rw [← hc]
        decide
      have htrim := trimEnd_append_of_getLast? hlast rest
      simpa only [List.append_assoc] using htrim
    rw [htext]
    exact .directive hopening hclosing hrest
  | @unterminated position before => exact absurd (by simp) (hterminated (position.after before))

end Piece

namespace Forest
variable {inEach : Bool} {pieces : List Piece} {nodes : List Node}

theorem literals_append (h : Forest inEach pieces nodes) (text : List Char) :
    Forest inEach (Piece.literals text ++ pieces) (Node.literals text ++ nodes) := by
  cases text with
  | nil => exact h
  | cons c text => exact .literal (List.cons_ne_nil _ _) h

theorem stripStart (h : Forest inEach pieces nodes) :
    Forest inEach (Piece.stripStart pieces) (Node.stripStart nodes) := by
  cases h with
  | nil => exact .nil
  | @literal _ text _ _ _ hrest =>
    rw [Node.stripStart_literal, String.toList_ofList]
    exact hrest.literals_append (trimStart text)
  | interpolation helse hform hrest => exact .interpolation helse hform hrest
  | block hopen hargument hnested hbody hclose hblank hnode hrest =>
    rw [Node.stripStart_of_ne_literal hnode.ne_literal]
    exact .block hopen hargument hnested hbody hclose hblank hnode hrest

theorem stripEnd (h : Forest inEach pieces nodes) :
    Forest inEach (Piece.stripEnd pieces) (Node.stripEnd nodes) := by
  induction h with
  | nil => exact .nil
  | @literal inEach text pieces nodes htext hrest ih =>
    by_cases hpieces : pieces = []
    · rw [hpieces, hrest.nodes_eq_nil_iff.mpr hpieces, ← Node.literals_of_ne_nil htext,
        Node.stripEnd_literals]
      have hnil : Forest inEach [] [] := .nil
      have hend := hnil.literals_append (trimEnd text)
      rw [List.append_nil, List.append_nil] at hend
      exact hend
    · rw [Piece.stripEnd_cons hpieces, Node.stripEnd_cons (hrest.nodes_eq_nil_iff.not.mpr hpieces)]
      exact .literal htext ih
  | interpolation helse hform _ ih =>
    rw [Piece.stripEnd_directive, Node.stripEnd_cons_of_ne_literal (by simp)]
    exact .interpolation helse hform ih
  | block hopen hargument hnested hbody hclose hblank hnode _ _ ih =>
    rw [Piece.stripEnd_directive, Piece.stripEnd_append (List.cons_ne_nil _ _),
      Piece.stripEnd_directive, Node.stripEnd_cons_of_ne_literal hnode.ne_literal]
    exact .block hopen hargument hnested hbody hclose hblank hnode ih

theorem inside_each (h : Forest inEach pieces nodes)
    (heach : .opener .each ∉ Template.bracketsAll nodes) :
    Forest true pieces nodes := by
  induction h with
  | nil => exact .nil
  | literal htext _ ih => exact .literal htext (ih heach)
  | interpolation helse hform _ ih => exact .interpolation helse hform (ih heach)
  | @block inEach inside position tag _ _ _ _ _ _ _ _ _ hopen hargument _ _ hclose hblank hnode _
      ihbody ih =>
    rw [hnode.bracketsAll_cons] at heach
    simp only [List.mem_cons, List.mem_append, not_or] at heach
    obtain ⟨htag, hbody, -, hrest⟩ := heach
    have hne : tag ≠ .each := fun h => htag (h ▸ rfl)
    refine .block hopen hargument (fun h => absurd h hne) ?_ hclose hblank hnode (ih hrest)
    rw [Bool.true_or]
    exact ihbody hbody

end Forest

namespace Template

mutual
theorem brackets_unplaced : ∀ node : Node, brackets node.unplaced = brackets node
  | .literal _ => rfl
  | .interpolation _ _ => rfl
  | .each _ body _ => by rw [Node.unplaced, brackets, brackets, bracketsAll_unplacedAll body]
  | .conditional _ body _ => by rw [Node.unplaced, brackets, brackets, bracketsAll_unplacedAll body]

theorem bracketsAll_unplacedAll : ∀ nodes : List Node,
    bracketsAll (Node.unplacedAll nodes) = bracketsAll nodes
  | [] => rfl
  | node :: rest => by
    rw [Node.unplacedAll, bracketsAll, bracketsAll, brackets_unplaced node,
      bracketsAll_unplacedAll rest]
end

end Template

namespace Reads
variable {text : List Char} {nodes : List Node}

theorem strip {inEach : Bool} (h : Reads inEach text nodes) :
    Reads inEach (trim text) (Node.strip nodes) := by
  obtain ⟨pieces, placed, hcut, hforest, rfl⟩ := h .start
  obtain ⟨start, hstart⟩ := hcut.exists_stripStart
  have hfirst := hforest.stripStart
  have hlast := hstart.stripEnd hfirst.unterminated_not_mem
  rw [← Node.unplacedAll_strip]
  exact .of_cut hlast hfirst.stripEnd

theorem inside_each (h : Reads false text nodes)
    (heach : .opener .each ∉ Template.bracketsAll nodes) :
    Reads true text nodes := by
  intro position
  obtain ⟨pieces, placed, hcut, hforest, rfl⟩ := h position
  rw [Template.bracketsAll_unplacedAll] at heach
  exact ⟨pieces, placed, hcut, hforest.inside_each heach, rfl⟩

end Reads
end CatalogPress
