import CatalogPress.Proofs.Template.Strip
import Mathlib.Data.List.Chain

/-!
The shape of the trees that parsing gives. Literals are never empty, never next to each other and
hold no opening marker; blanks are stripped from the ends of an `each` body; no `each` stands in an
`each`.
-/
namespace CatalogPress
open Text

namespace Piece

/-- A literal in front of another piece: the other piece is no literal, and the marker that it
starts with is not met earlier. -/
def Apart (piece next : Piece) : Prop :=
  ∀ text, piece = literal text → text.getLast? ≠ some '{' ∧ ∀ other, next ≠ literal other

inductive Free : Piece → Prop
  | literal {text} : ¬ opening <:+: text → Free (literal text)
  | directive {inside position} : ¬ closing <:+: inside ++ ['}'] → Free (directive inside position)
  | unterminated {position} : Free (unterminated position)

structure WellCut (pieces : List Piece) : Prop where
  free : ∀ piece ∈ pieces, Free piece
  apart : pieces.IsChain Apart

theorem WellCut.of_append {a b : List Piece} (h : WellCut (a ++ b)) :
    WellCut a ∧ WellCut b ∧ ∀ piece ∈ a.getLast?, ∀ next ∈ b.head?, Apart piece next := by
  obtain ⟨ha, hb, hseam⟩ := List.isChain_append.mp h.apart
  obtain ⟨hfree, hfree'⟩ := List.forall_mem_append.mp h.free
  exact ⟨⟨hfree, ha⟩, ⟨hfree', hb⟩, hseam⟩

theorem WellCut.of_cons {piece : Piece} {pieces : List Piece} (h : WellCut (piece :: pieces)) :
    Free piece ∧ WellCut pieces ∧ ∀ next ∈ pieces.head?, Apart piece next := by
  obtain ⟨hapart, hpieces⟩ := List.isChain_cons.mp h.apart
  obtain ⟨hfree, hfree'⟩ := List.forall_mem_cons.mp h.free
  exact ⟨hfree, ⟨hfree', hpieces⟩, hapart⟩

theorem WellCut.cons {piece : Piece} {pieces : List Piece} (hpieces : WellCut pieces)
    (hfree : Free piece) (hapart : ∀ next ∈ pieces.head?, Apart piece next) :
    WellCut (piece :: pieces) where
  free := List.forall_mem_cons.mpr ⟨hfree, hpieces.free⟩
  apart := hpieces.apart.cons hapart

theorem wellCut_nil : WellCut [] :=
  ⟨by simp, .nil⟩

theorem wellCut_literals {text : List Char} (h : ¬ opening <:+: text) :
    WellCut (literals text) := by
  cases text with
  | nil => exact wellCut_nil
  | cons c text => exact wellCut_nil.cons (.literal h) (by simp)

theorem WellCut.literals_append {text : List Char} {piece : Piece} {pieces : List Piece}
    (hpieces : WellCut (piece :: pieces)) (htext : ¬ opening <:+: text ++ ['{'])
    (hpiece : ∀ other, piece ≠ .literal other) : WellCut (literals text ++ piece :: pieces) := by
  rw [opening, pair_infix_append_iff] at htext
  simp only [not_or, not_and] at htext
  obtain ⟨hfree, -, hlast⟩ := htext
  cases text with
  | nil => exact hpieces
  | cons c text =>
    apply hpieces.cons (.literal hfree)
    intro next hnext other hother
    cases hnext
    cases hother
    exact ⟨fun h => hlast h rfl, hpiece⟩

theorem Cut.wellCut {position : Position} {text : List Char} {pieces : List Piece}
    (h : Cut position text pieces) : WellCut pieces := by
  induction h with
  | plain hfree => exact wellCut_literals hfree
  | directive hopening hclosing _ ih =>
    refine WellCut.literals_append ?_ hopening (by simp)
    exact ih.cons (.directive hclosing) (by simp [Apart])
  | unterminated hopening hclosing =>
    refine WellCut.literals_append ?_ hopening (by simp)
    exact wellCut_nil.cons .unterminated (by simp)

end Piece

def EndsClosed (nodes : List Node) : Prop :=
  ∀ text, nodes.getLast? = some (.literal text) → text.toList.getLast? ≠ some '{'

theorem EndsClosed.of_cons {node : Node} {nodes : List Node} (h : EndsClosed (node :: nodes)) :
    EndsClosed nodes := by
  intro text htext
  apply h
  cases nodes with
  | nil => cases htext
  | cons next rest =>
    rw [List.getLast?_cons_cons]
    exact htext

/-- Trees in the form that parsing gives, inside an `each` block or not. -/
inductive Tidy : Bool → List Node → Prop
  | nil {inEach} : Tidy inEach []
  | literal {inEach text rest} : text ≠ [] → ¬ Piece.opening <:+: text →
      (rest ≠ [] → text.getLast? ≠ some '{') →
      (∀ node ∈ rest.head?, ∀ other, node ≠ .literal other) → Tidy inEach rest →
      Tidy inEach (.literal (String.ofList text) :: rest)
  | interpolation {inEach inside position rest} : ¬ Piece.closing <:+: inside →
      trim inside ≠ "else".toList →
      (∀ marker word argument, ¬ BlockForm inside marker word argument) → Tidy inEach rest →
      Tidy inEach (.interpolation (Expression.read inside) position :: rest)
  | each {argument path body position rest} : ¬ Piece.closing <:+: argument →
      trim argument ≠ [] → Expression.read argument = .path path → Tidy true body →
      StartsPlain body → EndsPlain body → Tidy false rest →
      Tidy false (.each path body position :: rest)
  | conditional {inEach argument body position rest} : ¬ Piece.closing <:+: argument →
      trim argument ≠ [] → Tidy inEach body → EndsClosed body → Tidy inEach rest →
      Tidy inEach (.conditional (Expression.read argument) body position :: rest)

namespace Tidy
variable {inEach : Bool} {nodes body : List Node}

theorem of_literals_append {text : List Char} (hrest : Tidy inEach nodes)
    (htext : ¬ Piece.opening <:+: text) (hlast : nodes ≠ [] → text.getLast? ≠ some '{')
    (hnext : ∀ node ∈ nodes.head?, ∀ other, node ≠ .literal other) :
    Tidy inEach (Node.literals text ++ nodes) := by
  cases text with
  | nil => exact hrest
  | cons c text => exact .literal (List.cons_ne_nil _ _) htext hlast hnext hrest

theorem stripStart (h : Tidy inEach nodes) : Tidy inEach (Node.stripStart nodes) := by
  cases h with
  | @literal _ text rest htext hfree hlast hnext hrest =>
    obtain ⟨blanks, -, heq⟩ := exists_eq_append_trimStart text
    rw [Node.stripStart_literal, String.toList_ofList]
    apply hrest.of_literals_append
    · intro hpair
      rw [heq] at hfree
      exact hfree (hpair.trans (List.suffix_append _ _).isInfix)
    · intro hne hbrace
      apply hlast hne
      rw [heq, List.getLast?_append, hbrace]
      rfl
    · exact hnext
  | nil => exact .nil
  | interpolation h₁ h₂ h₃ hrest => exact .interpolation h₁ h₂ h₃ hrest
  | each h₁ h₂ h₃ hbody hfirst hlast hrest => exact .each h₁ h₂ h₃ hbody hfirst hlast hrest
  | conditional h₁ h₂ hbody hlast hrest => exact .conditional h₁ h₂ hbody hlast hrest

theorem stripEnd (h : Tidy inEach nodes) : Tidy inEach (Node.stripEnd nodes) := by
  induction h with
  | nil => exact .nil
  | @literal _ text rest htext hfree hlast hnext hrest ih =>
    by_cases hempty : rest = []
    · subst hempty
      obtain ⟨blanks, -, heq⟩ := exists_eq_trimEnd_append text
      rw [← Node.literals_of_ne_nil htext, Node.stripEnd_literals,
        ← List.append_nil (Node.literals _)]
      apply Tidy.nil.of_literals_append
      · intro hpair
        rw [heq] at hfree
        exact hfree (hpair.trans (List.prefix_append _ _).isInfix)
      · exact fun hne => absurd rfl hne
      · simp
    · rw [Node.stripEnd_cons hempty]
      apply Tidy.literal htext hfree (fun _ => hlast hempty) _ ih
      rw [Node.head?_stripEnd hnext]
      exact hnext
  | interpolation h₁ h₂ h₃ _ ih =>
    rw [Node.stripEnd_cons_of_ne_literal (by simp)]
    exact .interpolation h₁ h₂ h₃ ih
  | each h₁ h₂ h₃ hbody hfirst hlast _ _ ih =>
    rw [Node.stripEnd_cons_of_ne_literal (by simp)]
    exact .each h₁ h₂ h₃ hbody hfirst hlast ih
  | conditional h₁ h₂ hbody hlast _ _ ih =>
    rw [Node.stripEnd_cons_of_ne_literal (by simp)]
    exact .conditional h₁ h₂ hbody hlast ih

theorem startsPlain_stripStart (h : Tidy inEach nodes) : StartsPlain (Node.stripStart nodes) := by
  intro text htext
  cases h with
  | @literal _ other rest _ _ _ hnext _ =>
    rw [Node.stripStart_literal, String.toList_ofList] at htext
    by_cases hblank : trimStart other = []
    · rw [hblank] at htext
      exact absurd rfl (hnext _ htext text)
    · rw [Node.literals_of_ne_nil hblank] at htext
      cases htext
      rw [String.toList_ofList]
      exact ⟨hblank, head?_dropWhile isBlank other⟩
  | _ => cases htext

theorem endsPlain_stripEnd (h : Tidy inEach nodes) : EndsPlain (Node.stripEnd nodes) := by
  induction h with
  | nil => exact fun _ htext => nomatch htext
  | @literal _ other rest hne _ _ hnext _ ih =>
    by_cases hempty : rest = []
    · intro text htext
      rw [hempty, ← Node.literals_of_ne_nil hne, Node.stripEnd_literals] at htext
      obtain ⟨hne, heq⟩ := Node.toList_of_mem_literals (List.mem_of_mem_getLast? htext)
      rw [heq]
      exact ⟨hne, getLast?_trimEnd other⟩
    · rw [Node.stripEnd_cons hempty]
      apply Node.endsPlain_cons ih
      intro hstrip
      have hhead := Node.head?_stripEnd hnext
      rw [hstrip, eq_comm, List.head?_nil, List.head?_eq_none_iff] at hhead
      exact absurd hhead hempty
  | interpolation _ _ _ _ ih =>
    rw [Node.stripEnd_cons_of_ne_literal (by simp)]
    exact Node.endsPlain_cons ih (by simp)
  | each _ _ _ _ _ _ _ _ ih =>
    rw [Node.stripEnd_cons_of_ne_literal (by simp)]
    exact Node.endsPlain_cons ih (by simp)
  | conditional _ _ _ _ _ _ ih =>
    rw [Node.stripEnd_cons_of_ne_literal (by simp)]
    exact Node.endsPlain_cons ih (by simp)

end Tidy

theorem Forest.head?_of_literal {inEach : Bool} {pieces : List Piece} {nodes : List Node}
    (h : Forest inEach pieces nodes) {text : String} (hnode : nodes.head? = some (.literal text)) :
    pieces.head? = some (.literal text.toList) := by
  cases h with
  | nil => cases hnode
  | literal =>
    cases hnode
    rw [String.toList_ofList]
    rfl
  | interpolation => cases hnode
  | block _ _ _ _ _ _ hblock _ =>
    cases hnode
    exact absurd rfl (hblock.ne_literal text)

theorem Node.getLast?_of_cons {node last : Node} {nodes : List Node} (hnode : node ≠ last)
    (h : (node :: nodes).getLast? = some last) : nodes.getLast? = some last := by
  cases nodes with
  | nil =>
    cases h
    exact absurd rfl hnode
  | cons next rest =>
    rw [List.getLast?_cons_cons] at h
    exact h

theorem Forest.getLast?_of_literal {inEach : Bool} {pieces : List Piece} {nodes : List Node}
    (h : Forest inEach pieces nodes) {text : String}
    (hnode : nodes.getLast? = some (.literal text)) :
    pieces.getLast? = some (.literal text.toList) := by
  induction h with
  | nil => cases hnode
  | @literal _ other pieces nodes _ hrest ih =>
    by_cases hnodes : nodes = []
    · subst hnodes
      cases hnode
      rw [hrest.nodes_eq_nil_iff.mp rfl, String.toList_ofList]
      rfl
    · rw [List.getLast?_cons_of_ne_nil hnodes] at hnode
      rw [List.getLast?_cons, ih hnode]
      rfl
  | interpolation _ _ _ ih =>
    rw [List.getLast?_cons, ih (Node.getLast?_of_cons (by simp) hnode)]
    rfl
  | block _ _ _ _ _ _ hblock _ _ ih =>
    have hlast := ih (Node.getLast?_of_cons (hblock.ne_literal text) hnode)
    simp [List.getLast?_cons, List.getLast?_append, hlast]

theorem closing_free_of_append {inside : List Char} (h : ¬ Piece.closing <:+: inside ++ ['}']) :
    ¬ Piece.closing <:+: inside :=
  fun hpair => h (hpair.trans (List.prefix_append _ _).isInfix)

theorem Forest.tidy {inEach : Bool} {pieces : List Piece} {nodes : List Node}
    (h : Forest inEach pieces nodes) (hcut : Piece.WellCut pieces) : Tidy inEach nodes := by
  induction h with
  | nil => exact .nil
  | @literal _ text pieces nodes htext hrest ih =>
    obtain ⟨hfree, hpieces, hapart⟩ := hcut.of_cons
    cases hfree with
    | literal hfree =>
      apply Tidy.literal htext hfree _ _ (ih hpieces)
      · intro hne
        have hne := hrest.nodes_eq_nil_iff.not.mp hne
        obtain ⟨next, hnext⟩ := Option.ne_none_iff_exists'.mp (List.head?_eq_none_iff.not.mpr hne)
        exact (hapart next hnext text rfl).1
      · intro node hnode other hother
        rw [hother] at hnode
        exact (hapart _ (hrest.head?_of_literal hnode) text rfl).2 _ rfl
  | interpolation helse hform _ ih =>
    obtain ⟨hfree, hpieces, -⟩ := hcut.of_cons
    cases hfree with
    | directive hfree =>
      exact .interpolation (closing_free_of_append hfree) helse hform (ih hpieces)
  | @block inEach inside position tag argument inner body last closing rest node pieces nodes hopen
      hargument hnested hbody _ _ hnode _ ihbody ih =>
    obtain ⟨hfree, hrest, -⟩ := hcut.of_cons
    obtain ⟨hinner, hrest, hseam⟩ := hrest.of_append
    obtain ⟨-, hpieces, -⟩ := hrest.of_cons
    cases hfree with
    | directive hfree =>
      have hargument_free : ¬ Piece.closing <:+: argument :=
        fun hpair => closing_free_of_append hfree (hpair.trans hopen.argument_isInfix)
      have hbody_tidy := ihbody hinner
      have hrest_tidy := ih hpieces
      generalize hread : Expression.read argument = expression at hnode
      cases hnode with
      | each =>
        have hflag := hnested rfl
        subst hflag
        exact .each hargument_free hargument hread hbody_tidy.stripStart.stripEnd
          (Node.startsPlain_stripEnd hbody_tidy.startsPlain_stripStart)
          hbody_tidy.stripStart.endsPlain_stripEnd hrest_tidy
      | conditional =>
        rw [decide_eq_false (by decide), Bool.or_false] at hbody_tidy
        rw [← hread]
        apply Tidy.conditional hargument_free hargument hbody_tidy _ hrest_tidy
        intro text htext
        exact (hseam _ (hbody.getLast?_of_literal htext) _ rfl _ rfl).1

end CatalogPress
