import CatalogPress.Proofs.Template.Grammar
import CatalogPress.Proofs.Template.Tidy
import CatalogPress.Proofs.Template.Written

/-!
Trees written back as text, and the round trip: what a parsed tree is written as parses to that tree
again, up to positions.
-/
namespace CatalogPress
open Text

namespace Node

mutual
def source : Node → List Char
  | literal text => text.toList
  | interpolation expression _ => Piece.enclosed (' ' :: (expression.source ++ [' ']))
  | each path body _ =>
    Piece.enclosed (Tag.each.openerText (.path path)) ++
      (('\n' :: (sourceAll body ++ ['\n'])) ++ Piece.enclosed Tag.each.closerText)
  | conditional predicate body _ =>
    Piece.enclosed (Tag.conditional.openerText predicate) ++
      (sourceAll body ++ Piece.enclosed Tag.conditional.closerText)

def sourceAll : List Node → List Char
  | [] => []
  | node :: rest => source node ++ sourceAll rest
end

theorem getLast?_enclosed (inside : List Char) : (Piece.enclosed inside).getLast? = some '}' := by
  simp [Piece.enclosed, Piece.closing]

theorem getLast?_source {node : Node} (h : ∀ text, node ≠ literal text) :
    (source node).getLast? ≠ some '{' := by
  cases node with
  | literal text => exact absurd rfl (h text)
  | _ => simp [source, List.getLast?_append, List.getLast?_cons, getLast?_enclosed]

end Node

namespace Tidy
variable {inEach : Bool} {nodes body : List Node}

theorem getLast?_sourceAll_cons {node : Node} {rest : List Node}
    (hnode : (Node.source node).getLast? ≠ some '{')
    (hrest : (Node.sourceAll rest).getLast? ≠ some '{') :
    (Node.sourceAll (node :: rest)).getLast? ≠ some '{' := by
  rw [Node.sourceAll, List.getLast?_append]
  cases hlast : (Node.sourceAll rest).getLast? with
  | none => exact hnode
  | some c =>
    rw [hlast] at hrest
    exact hrest

theorem getLast?_sourceAll (h : Tidy inEach body) (hclosed : EndsClosed body) :
    (Node.sourceAll body).getLast? ≠ some '{' := by
  induction h with
  | nil => simp [Node.sourceAll]
  | @literal _ text rest _ _ hlast _ _ ih =>
    apply getLast?_sourceAll_cons _ (ih hclosed.of_cons)
    change (String.ofList text).toList.getLast? ≠ some '{'
    by_cases hempty : rest = []
    · subst hempty
      exact hclosed _ rfl
    · rw [String.toList_ofList]
      exact hlast hempty
  | interpolation _ _ _ _ ih =>
    exact getLast?_sourceAll_cons (Node.getLast?_source (by simp)) (ih hclosed.of_cons)
  | each _ _ _ _ _ _ _ _ ih =>
    exact getLast?_sourceAll_cons (Node.getLast?_source (by simp)) (ih hclosed.of_cons)
  | conditional _ _ _ _ _ _ ih =>
    exact getLast?_sourceAll_cons (Node.getLast?_source (by simp)) (ih hclosed.of_cons)

theorem reads_padded (hfirst : StartsPlain body) (hlast : EndsPlain body)
    (hbody : Reads inEach (Node.sourceAll body) (Node.unplacedAll body)) :
    ∃ padded, Reads inEach ('\n' :: (Node.sourceAll body ++ ['\n'])) padded ∧
      Node.strip padded = Node.unplacedAll body := by
  cases body with
  | nil =>
    refine ⟨_, .plain (by decide), ?_⟩
    rw [Node.strip_literals]
    rfl
  | cons node rest =>
    have hline : Reads inEach ['\n'] [.literal (String.ofList ['\n'])] := .plain (by decide)
    have hend := hbody.append hline (by simp)
    refine ⟨_, hline.append hend (by simp), ?_⟩
    have hblank : AllBlank ['\n'] := allBlank_singleton.mpr (by decide)
    exact Node.strip_join_blanks hblank hblank (by simp [Node.unplacedAll])
      (Node.startsPlain_unplacedAll hfirst) (Node.endsPlain_unplacedAll hlast)

theorem reads_cons {node : Node} {rest : List Node} (hnode : ∀ text, node ≠ .literal text)
    (h : Reads inEach (Node.source node) [node.unplaced])
    (hrest : Reads inEach (Node.sourceAll rest) (Node.unplacedAll rest)) :
    Reads inEach (Node.sourceAll (node :: rest)) (Node.unplacedAll (node :: rest)) := by
  have hall := h.append hrest (fun hbrace => absurd hbrace (Node.getLast?_source hnode))
  rw [join_cons_of_none (Node.merge?_of_ne_literal (Node.unplaced_ne_literal hnode)),
    join_nil_left] at hall
  exact hall

theorem reads_block {tag : Tag} {argument text : List Char} {body : List Node} {node : Node}
    (hfree : ¬ Piece.closing <:+: argument) (hargument : trim argument ≠ [])
    (hnested : tag = .each → inEach = false)
    (hbody : Reads (inEach || decide (tag = .each)) text body) (htext : text.getLast? ≠ some '{')
    (hnode : BlockNode body .start tag (Expression.read argument) node) :
    Reads inEach (Piece.enclosed (tag.openerText (Expression.read argument)) ++
      (text ++ Piece.enclosed tag.closerText)) [node] := by
  have hblank : AllBlank [' '] := allBlank_singleton.mpr (by decide)
  have htrimmed : IsTrimmed (Expression.read argument).source :=
    Expression.isTrimmed_source (isTrimmed_trim argument)
  have hgiven : trim ((Expression.read argument).source ++ [' ']) ≠ [] := by
    rw [trim_append_of_allBlank hblank, trim_of_isTrimmed htrimmed]
    exact Expression.source_ne_nil hargument
  have hsource : ¬ Piece.closing <:+: (Expression.read argument).source :=
    Expression.closing_free_source fun hpair => hfree (hpair.trans (trim_isInfix argument))
  have hspaced : ¬ Piece.closing <:+: (Expression.read argument).source ++ [' '] := by
    unfold Piece.closing at hsource ⊢
    simp [pair_infix_append_iff, pair_infix_cons_iff, hsource]
  rw [← Expression.read_source_append] at hnode
  exact Tag.reads_block hgiven hspaced (by simp) hnested hbody htext hnode

theorem reads (h : Tidy inEach nodes) :
    Reads inEach (Node.sourceAll nodes) (Node.unplacedAll nodes) := by
  induction h with
  | nil => exact .plain (by decide)
  | @literal inEach text rest htext hfree hlast hnext _ ih =>
    have hline : Reads inEach text [.literal (String.ofList text)] := by
      rw [← Node.literals_of_ne_nil htext]
      exact .plain hfree
    rw [Node.sourceAll, Node.source, String.toList_ofList, Node.unplacedAll, Node.unplaced]
    cases rest with
    | nil =>
      rw [Node.sourceAll, Node.unplacedAll, List.append_nil]
      exact hline
    | cons next rest =>
      have hall := hline.append ih (fun hbrace => absurd hbrace (hlast (List.cons_ne_nil _ _)))
      have hnode := Node.unplaced_ne_literal (hnext next rfl)
      rw [Node.unplacedAll, join_of_none (Node.merge?_of_ne_literal_right hnode)] at hall
      exact hall
  | @interpolation inEach inside position rest hfree helse hform _ ih =>
    refine reads_cons (by simp) ?_ ih
    have htrimmed : IsTrimmed (Expression.read inside).source :=
      Expression.isTrimmed_source (isTrimmed_trim inside)
    have helse' : trim (' ' :: ((Expression.read inside).source ++ [' '])) ≠ "else".toList := by
      rw [Expression.trim_padded htrimmed]
      exact Expression.source_ne_else helse
    have hread : Reads inEach (Piece.enclosed (' ' :: ((Expression.read inside).source ++ [' '])))
        [.interpolation
          (Expression.read (' ' :: ((Expression.read inside).source ++ [' ']))) .start] :=
      .interpolation (Expression.closing_free_padded hfree) helse'
        (Expression.not_blockForm_padded hform)
    rw [Expression.read_padded] at hread
    exact hread
  | @each argument path body position rest hfree hargument hread _ hfirst hlast _ ihbody ih =>
    refine reads_cons (by simp) ?_ ih
    obtain ⟨padded, hpadded, hstrip⟩ := reads_padded hfirst hlast ihbody
    have hnode : BlockNode padded .start .each (Expression.read argument)
        (.each path (Node.unplacedAll body) .start) := by
      rw [hread, ← hstrip]
      exact .each
    have htext : ('\n' :: (Node.sourceAll body ++ ['\n'])).getLast? ≠ some '{' := by
      simp [List.getLast?_cons]
    have hbody :
        Reads (false || decide (Tag.each = .each))
        ('\n' :: (Node.sourceAll body ++ ['\n'])) padded := hpadded
    have hblock := reads_block hfree hargument (fun _ => rfl) hbody htext hnode
    rw [hread] at hblock
    exact hblock
  | conditional hfree hargument hbody hclosed _ ihbody ih =>
    refine reads_cons (by simp) ?_ ih
    exact reads_block hfree hargument (by simp) (by simpa using ihbody)
      (hbody.getLast?_sourceAll hclosed) .conditional

end Tidy

def Template.source (template : Template) : String :=
  String.ofList (Node.sourceAll template.nodes)

/-- A parsed template is written as a text that parses to the same tree, up to positions. -/
theorem Template.parse_source (text name : String) (template : Template)
    (h : Template.parse text name = .ok template) :
    ∃ again, Template.parse template.source name = .ok again ∧
      Node.unplacedAll again.nodes = Node.unplacedAll template.nodes := by
  obtain ⟨-, hforest⟩ := Template.parse_eq_ok_iff.mp h
  have htidy := hforest.tidy (Piece.cut_outside .start text.toList).wellCut
  obtain ⟨pieces, placed, hcut, hplaced, hnodes⟩ := htidy.reads .start
  refine ⟨⟨placed, name⟩, Template.parse_eq_ok_iff.mpr ⟨rfl, ?_⟩, hnodes⟩
  rw [Template.source, String.toList_ofList, ← (Piece.cut_iff _ _).mp hcut]
  exact hplaced

/-- An odd brace at the end of a stripped body, a comparison with blanks in it and an invalid
expression with a brace. -/
theorem Template.parse_source_of_braces :
    let text := "\x7b\x7b#each . \x7d\x7d a\x7b \x7b\x7b/each\x7d\x7d" ++
      "\x7b\x7b#if ( eq  k \"v\" )\x7d\x7d\x7b\x7b a \x7d \x7d\x7d\x7b\x7b/if\x7d\x7d"
    ∃ template again, Template.parse text "t" = .ok template ∧
      Template.parse template.source "t" = .ok again ∧
      Node.unplacedAll again.nodes = Node.unplacedAll template.nodes := by
  intro text
  have hok : (Template.parse text "t").isOk = true := by decide +kernel
  cases htemplate : Template.parse text "t" with
  | error error =>
    rw [htemplate] at hok
    cases hok
  | ok template =>
    obtain ⟨again, hagain⟩ := Template.parse_source text "t" template htemplate
    exact ⟨template, again, rfl, hagain⟩

example : Template.source ⟨[.each ["a", "b"] [.literal "c"] .start,
    .conditional (.comparison .eq "k" "v") [.interpolation (.path []) .start] .start], "t"⟩ =
      "\x7b\x7b#each a.b \x7d\x7d\nc\n\x7b\x7b/each\x7d\x7d" ++
        "\x7b\x7b#if (eq k \"v\") \x7d\x7d\x7b\x7b this \x7d\x7d\x7b\x7b/if\x7d\x7d" := by
  decide

end CatalogPress
