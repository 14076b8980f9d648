import CatalogPress.Proofs.Template.Expression
import CatalogPress.Proofs.Template.Parsing

/-!
The grammar of templates. A text is a template if each of its directives is sound on its own and its
openers and closers are well bracketed; parsing accepts these texts and no others, and the nesting
of the tree is that of the brackets.
-/
namespace CatalogPress
open Text

namespace Template

inductive Bracket where
  | opener (tag : Tag)
  | closer (tag : Tag)
deriving DecidableEq, Inhabited, Repr

/-- Well-bracketed words, without `each` in `each`. The flag tells whether the word stands in
one. -/
inductive Balanced : Bool → List Bracket → Prop
  | nil {inEach} : Balanced inEach []
  | block {inEach tag inner rest} : (tag = .each → inEach = false) →
      Balanced (inEach || decide (tag = .each)) inner → Balanced inEach rest →
      Balanced inEach (.opener tag :: (inner ++ .closer tag :: rest))

inductive IsBracket : Piece → Bracket → Prop
  | opener {inside position tag argument} : BlockForm inside '#' tag.name.toList argument →
      IsBracket (.directive inside position) (.opener tag)
  | closer {inside position tag argument} : BlockForm inside '/' tag.name.toList argument →
      IsBracket (.directive inside position) (.closer tag)

inductive Brackets : List Piece → List Bracket → Prop
  | nil : Brackets [] []
  | bracket {piece bracket pieces word} : IsBracket piece bracket → Brackets pieces word →
      Brackets (piece :: pieces) (bracket :: word)
  | plain {piece pieces word} : (∀ bracket, ¬ IsBracket piece bracket) → Brackets pieces word →
      Brackets (piece :: pieces) word

/-- What a directive must meet whatever stands around it. -/
structure Sound (inside : List Char) : Prop where
  not_else : trim inside ≠ "else".toList
  known : ∀ marker word argument, BlockForm inside marker word argument →
    ∃ tag : Tag, word = tag.name.toList
  opener : ∀ (tag : Tag) argument, BlockForm inside '#' tag.name.toList argument →
    trim argument ≠ [] ∧
    (tag = .each → trim argument ∈ Expression.selfNames ∨
      ∃ parts, Expression.IsDotted (trim argument) parts)
  closer : ∀ (tag : Tag) argument, BlockForm inside '/' tag.name.toList argument →
    trim argument = []

structure Grammatical (pieces : List Piece) : Prop where
  terminated : ∀ position, .unterminated position ∉ pieces
  sound : ∀ inside position, .directive inside position ∈ pieces → Sound inside
  balanced : ∃ word, Brackets pieces word ∧ Balanced false word

theorem sound_of_interpolation {inside : List Char} (helse : trim inside ≠ "else".toList)
    (hform : ∀ marker word argument, ¬ BlockForm inside marker word argument) : Sound inside where
  not_else := helse
  known _ _ _ h := absurd h (hform _ _ _)
  opener _ _ h := absurd h (hform _ _ _)
  closer _ _ h := absurd h (hform _ _ _)

theorem sound_of_opener {inside argument : List Char} {tag : Tag}
    (h : BlockForm inside '#' tag.name.toList argument) (hargument : trim argument ≠ [])
    (hpath : tag = .each → ∃ path, Expression.read argument = .path path) : Sound inside where
  not_else := h.ne_else
  known marker word argument' h' := ⟨tag, (h'.unique h).2.1⟩
  opener tag' argument' h' := by
    obtain ⟨-, hname, rfl⟩ := h'.unique h
    cases Tag.name_injective hname
    exact ⟨hargument, fun htag => Expression.read_eq_path_iff.mp (hpath htag)⟩
  closer tag' argument' h' := absurd (h'.unique h).1 (by decide)

theorem sound_of_closer {inside argument : List Char} {tag : Tag}
    (h : BlockForm inside '/' tag.name.toList argument) (hargument : trim argument = []) :
    Sound inside where
  not_else := h.ne_else
  known marker word argument' h' := ⟨tag, (h'.unique h).2.1⟩
  opener tag' argument' h' := absurd (h'.unique h).1 (by decide)
  closer tag' argument' h' := by
    obtain ⟨-, -, rfl⟩ := h'.unique h
    exact hargument

theorem not_isBracket_literal (text : List Char) (bracket : Bracket) :
    ¬ IsBracket (.literal text) bracket := nofun

theorem not_isBracket_of_not_blockForm {inside : List Char} {position : Position}
    (h : ∀ marker word argument, ¬ BlockForm inside marker word argument) (bracket : Bracket) :
    ¬ IsBracket (.directive inside position) bracket := by
  intro hbracket
  cases hbracket with
  | opener hform => exact h _ _ _ hform
  | closer hform => exact h _ _ _ hform

theorem Brackets.append {a b : List Piece} {word more : List Bracket} (ha : Brackets a word)
    (hb : Brackets b more) : Brackets (a ++ b) (word ++ more) := by
  induction ha with
  | nil => exact hb
  | bracket hbracket _ ih => exact .bracket hbracket ih
  | plain hplain _ ih => exact .plain hplain ih

theorem Brackets.exists_of_cons {pieces : List Piece} {bracket : Bracket} {word : List Bracket}
    (h : Brackets pieces (bracket :: word)) :
    ∃ plain piece rest, pieces = plain ++ piece :: rest ∧ Brackets plain [] ∧
      IsBracket piece bracket ∧ Brackets rest word := by
  generalize hall : bracket :: word = all at h
  induction h with
  | nil => cases hall
  | bracket hbracket hrest _ =>
    cases hall
    exact ⟨[], _, _, rfl, .nil, hbracket, hrest⟩
  | plain hplain _ ih =>
    obtain ⟨plain, piece, rest, hpieces, hempty, hbracket, hrest⟩ := ih hall
    rw [hpieces]
    exact ⟨_ :: plain, piece, rest, rfl, .plain hplain hempty, hbracket, hrest⟩

theorem Brackets.exists_of_append {pieces : List Piece} {a b : List Bracket}
    (h : Brackets pieces (a ++ b)) :
    ∃ before after, pieces = before ++ after ∧ Brackets before a ∧ Brackets after b := by
  induction a generalizing pieces with
  | nil => exact ⟨[], pieces, rfl, .nil, h⟩
  | cons bracket a ih =>
    obtain ⟨plain, piece, rest, rfl, hempty, hbracket, hrest⟩ := h.exists_of_cons
    obtain ⟨before, after, rfl, hbefore, hafter⟩ := ih hrest
    refine ⟨plain ++ piece :: before, after, by simp, ?_, hafter⟩
    exact hempty.append (.bracket hbracket hbefore)

inductive SoundPiece : Piece → Prop
  | literal {text} : text ≠ [] → SoundPiece (.literal text)
  | directive {inside position} : Sound inside → SoundPiece (.directive inside position)

theorem not_blockForm_of_not_isBracket {inside : List Char} {position : Position}
    (hsound : Sound inside) (h : ∀ bracket, ¬ IsBracket (.directive inside position) bracket)
    (marker : Char) (word argument : List Char) : ¬ BlockForm inside marker word argument := by
  intro hform
  obtain ⟨tag, rfl⟩ := hsound.known _ _ _ hform
  obtain rfl | rfl := hform.marker_eq
  · exact h _ (.opener hform)
  · exact h _ (.closer hform)

theorem exists_forest_of_plain {pieces : List Piece} (h : Brackets pieces [])
    (hsound : ∀ piece ∈ pieces, SoundPiece piece) :
    ∃ nodes, ∀ inEach, Forest inEach pieces nodes := by
  generalize hword : [] = word at h
  induction h with
  | nil => exact ⟨[], fun _ => .nil⟩
  | bracket => cases hword
  | plain hplain _ ih =>
    obtain ⟨hpiece, hpieces⟩ := List.forall_mem_cons.mp hsound
    obtain ⟨nodes, hnodes⟩ := ih hpieces hword
    cases hpiece with
    | literal htext => exact ⟨_, fun inEach => .literal htext (hnodes inEach)⟩
    | directive hdirective =>
      have hform := not_blockForm_of_not_isBracket hdirective hplain
      exact ⟨_, fun inEach => .interpolation hdirective.not_else hform (hnodes inEach)⟩

theorem exists_blockNode {tag : Tag} {argument : List Char} (body : List Node) (position : Position)
    (hpath : tag = .each → trim argument ∈ Expression.selfNames ∨
      ∃ parts, Expression.IsDotted (trim argument) parts) :
    ∃ node, BlockNode body position tag (Expression.read argument) node := by
  cases tag with
  | conditional => exact ⟨_, .conditional⟩
  | each =>
    obtain ⟨path, hread⟩ := Expression.read_eq_path_iff.mpr (hpath rfl)
    rw [hread]
    exact ⟨_, .each⟩

theorem IsBracket.exists_opener {piece : Piece} {tag : Tag} (h : IsBracket piece (.opener tag))
    (hsound : SoundPiece piece) :
    ∃ inside position argument, piece = .directive inside position ∧
      BlockForm inside '#' tag.name.toList argument ∧ trim argument ≠ [] ∧
      (tag = .each → trim argument ∈ Expression.selfNames ∨
        ∃ parts, Expression.IsDotted (trim argument) parts) := by
  cases h with
  | opener hform =>
    cases hsound with
    | directive hsound => exact ⟨_, _, _, rfl, hform, hsound.opener _ _ hform⟩

theorem IsBracket.exists_closer {piece : Piece} {tag : Tag} (h : IsBracket piece (.closer tag))
    (hsound : SoundPiece piece) :
    ∃ inside position argument, piece = .directive inside position ∧
      BlockForm inside '/' tag.name.toList argument ∧ trim argument = [] := by
  cases h with
  | closer hform =>
    cases hsound with
    | directive hsound => exact ⟨_, _, _, rfl, hform, hsound.closer _ _ hform⟩

theorem Balanced.exists_forest {inEach : Bool} {word : List Bracket} (h : Balanced inEach word)
    {pieces : List Piece} (hpieces : Brackets pieces word)
    (hsound : ∀ piece ∈ pieces, SoundPiece piece) : ∃ nodes, Forest inEach pieces nodes := by
  induction h generalizing pieces with
  | nil =>
    obtain ⟨nodes, hnodes⟩ := exists_forest_of_plain hpieces hsound
    exact ⟨nodes, hnodes _⟩
  | block hnested _ _ ihinner ihrest =>
    -- The pieces fall apart at the opener, at its closer and at the ends of the words between them.
    obtain ⟨before, first, more, rfl, hbefore, hfirst, hmore⟩ := hpieces.exists_of_cons
    obtain ⟨inner, after, rfl, hinner, hafter⟩ := hmore.exists_of_append
    obtain ⟨plain, last, rest, rfl, hplain, hlast, hrest⟩ := hafter.exists_of_cons
    simp only [List.mem_append, List.mem_cons, or_imp, forall_and, forall_eq] at hsound
    obtain ⟨hsbefore, hsfirst, hsinner, hsplain, hslast, hsrest⟩ := hsound
    have hsbody : ∀ piece ∈ inner ++ plain, SoundPiece piece := by
      intro piece hpiece
      exact (List.mem_append.mp hpiece).elim (hsinner piece) (hsplain piece)
    have hbody := hinner.append hplain
    rw [List.append_nil] at hbody
    obtain ⟨outer, houter⟩ := exists_forest_of_plain hbefore hsbefore
    obtain ⟨body, hbody⟩ := ihinner hbody hsbody
    obtain ⟨nodes, hnodes⟩ := ihrest hrest hsrest
    obtain ⟨inside, position, argument, rfl, hopen, hargument, hpath⟩ :=
      hfirst.exists_opener hsfirst
    obtain ⟨inside', position', argument', rfl, hclose, hblank⟩ := hlast.exists_closer hslast
    obtain ⟨node, hnode⟩ := exists_blockNode body position hpath
    refine ⟨outer ++ node :: nodes, (houter _).append ?_⟩
    rw [← List.append_assoc]
    exact .block hopen hargument hnested hbody hclose hblank hnode hnodes

mutual
def brackets : Node → List Bracket
  | .literal _ => []
  | .interpolation _ _ => []
  | .each _ body _ => .opener .each :: (bracketsAll body ++ [.closer .each])
  | .conditional _ body _ => .opener .conditional :: (bracketsAll body ++ [.closer .conditional])

def bracketsAll : List Node → List Bracket
  | [] => []
  | node :: rest => brackets node ++ bracketsAll rest
end

theorem bracketsAll_eq_flatMap (nodes : List Node) :
    bracketsAll nodes = nodes.flatMap brackets := by
  induction nodes with
  | nil => rfl
  | cons node rest ih => rw [bracketsAll, ih, List.flatMap_cons]

theorem bracketsAll_strip (body : List Node) :
    bracketsAll (Node.strip body) = bracketsAll body := by
  rw [bracketsAll_eq_flatMap, bracketsAll_eq_flatMap]
  exact Node.flatMap_strip (fun _ => rfl) body

end Template

open Template

theorem Forest.soundPiece {inEach : Bool} {pieces : List Piece} {nodes : List Node}
    (h : Forest inEach pieces nodes) : ∀ piece ∈ pieces, SoundPiece piece := by
  induction h with
  | nil => simp
  | literal htext _ ih => exact List.forall_mem_cons.mpr ⟨.literal htext, ih⟩
  | interpolation helse hform _ ih =>
    exact List.forall_mem_cons.mpr ⟨.directive (sound_of_interpolation helse hform), ih⟩
  | block hopen hargument _ _ hclose hblank hnode _ ihbody ih =>
    have hopener := sound_of_opener hopen hargument hnode.exists_path
    have hcloser := sound_of_closer hclose hblank
    simp only [List.forall_mem_cons, List.forall_mem_append]
    exact ⟨.directive hopener, ihbody, .directive hcloser, ih⟩

theorem BlockNode.bracketsAll_cons {body : List Node} {position : Position} {tag : Tag}
    {expression : Expression} {node : Node} (h : BlockNode body position tag expression node)
    (rest : List Node) :
    bracketsAll (node :: rest) =
      .opener tag :: (bracketsAll body ++ .closer tag :: bracketsAll rest) := by
  rw [bracketsAll]
  cases h with
  | each => simp [Template.brackets, bracketsAll_strip]
  | conditional => simp [Template.brackets]

theorem Forest.brackets {inEach : Bool} {pieces : List Piece} {nodes : List Node}
    (h : Forest inEach pieces nodes) : Brackets pieces (bracketsAll nodes) := by
  induction h with
  | nil => exact .nil
  | literal _ _ ih => exact .plain (not_isBracket_literal _) ih
  | interpolation _ hform _ ih => exact .plain (not_isBracket_of_not_blockForm hform) ih
  | block hopen _ _ _ hclose _ hnode _ ihbody ih =>
    rw [hnode.bracketsAll_cons]
    exact .bracket (.opener hopen) (ihbody.append (.bracket (.closer hclose) ih))

theorem Forest.balanced {inEach : Bool} {pieces : List Piece} {nodes : List Node}
    (h : Forest inEach pieces nodes) : Balanced inEach (bracketsAll nodes) := by
  induction h with
  | nil => exact .nil
  | literal _ _ ih => exact ih
  | interpolation _ _ _ ih => exact ih
  | block _ _ hnested _ _ _ hnode _ ihbody ih =>
    rw [hnode.bracketsAll_cons]
    exact .block hnested ihbody ih

namespace Template

theorem grammatical_iff {pieces : List Piece} (hempty : .literal [] ∉ pieces) :
    Grammatical pieces ↔ ∃ nodes, Forest false pieces nodes := by
  constructor
  · intro h
    obtain ⟨word, hword, hbalanced⟩ := h.balanced
    refine hbalanced.exists_forest hword ?_
    intro piece hpiece
    cases piece with
    | literal text => exact .literal (fun htext => hempty (htext ▸ hpiece))
    | directive inside position => exact .directive (h.sound inside position hpiece)
    | unterminated position => exact absurd hpiece (h.terminated position)
  · intro ⟨nodes, h⟩
    have hsound := h.soundPiece
    refine ⟨?_, ?_, _, h.brackets, h.balanced⟩
    · intro position hpiece
      cases hsound _ hpiece
    · intro inside position hpiece
      cases hsound _ hpiece with
      | directive hinside => exact hinside

theorem parse_eq_ok_iff {text name : String} {template : Template} :
    parse text name = .ok template ↔
      template.name = name ∧ Forest false (Piece.cut text.toList) template.nodes := by
  obtain ⟨nodes, templateName⟩ := template
  unfold parse
  rw [← nodesOf_eq_ok_iff]
  cases nodesOf text.toList with
  | error error => simp [Except.map]
  | ok found =>
    simp only [Except.map, Except.ok.injEq, Template.mk.injEq]
    rw [and_comm, eq_comm (a := name)]

/-- A text parses exactly if it is grammatical, and then to the tree that it spells out: blocks nest
in it as the brackets do, and everything else stands in the innermost block around it, in order. -/
theorem parse_accepts_grammar (text name : String) :
    ((∃ template, parse text name = .ok template) ↔
      ∃ pieces, Piece.Cut .start text.toList pieces ∧ Grammatical pieces) ∧
    ∀ template, parse text name = .ok template ↔
      template.name = name ∧ ∃ pieces, Piece.Cut .start text.toList pieces ∧
        Brackets pieces (bracketsAll template.nodes) ∧ Forest false pieces template.nodes := by
  have hempty : .literal [] ∉ Piece.cut text.toList :=
    empty_not_mem_of_cut (Piece.cut_outside .start text.toList)
  simp only [Piece.cut_iff, exists_eq_left, parse_eq_ok_iff]
  refine ⟨?_, ?_⟩
  · rw [grammatical_iff hempty]
    exact ⟨fun ⟨template, _, h⟩ => ⟨_, h⟩, fun ⟨nodes, h⟩ => ⟨⟨nodes, name⟩, rfl, h⟩⟩
  · intro template
    exact and_congr_right fun _ => ⟨fun h => ⟨h.brackets, h⟩, fun h => h.2⟩

end Template
end CatalogPress
