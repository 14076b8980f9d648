import CatalogPress.Proofs.Template.Parsing
import CatalogPress.Proofs.Text.Seam

/-!
How texts are put together and what they then read as. Two texts one after the other read as the
nodes of both, with the literals at the seam in one, and blocks and interpolations read as single
nodes. Positions are left out here, since they depend on where a text stands.
-/
namespace CatalogPress
open Text

namespace Piece

def merge? : Piece → Piece → Option Piece
  | literal a, literal b => some (literal (a ++ b))
  | _, _ => none

theorem merge?_directive (inside : List Char) (position : Position) (piece : Piece) :
    merge? (directive inside position) piece = none := rfl

theorem merge?_directive_right (inside : List Char) (position : Position) (piece : Piece) :
    merge? piece (directive inside position) = none := by
  cases piece <;> rfl

theorem merge?_unterminated_right (position : Position) (piece : Piece) :
    merge? piece (unterminated position) = none := by
  cases piece <;> rfl

theorem join_literals (a b : List Char) :
    join merge? (literals a) (literals b) = literals (a ++ b) := by
  cases a with
  | nil => simp [literals]
  | cons c a =>
    cases b with
    | nil => simp [literals]
    | cons d b => simp [literals, join_singleton, merge?]

theorem join_literals_append {rest : List Piece} (a b : List Char)
    (h : ∀ piece ∈ rest.head?, ∀ other, merge? other piece = none) :
    join merge? (literals a) (literals b ++ rest) = literals (a ++ b) ++ rest := by
  cases rest with
  | nil => simpa using join_literals a b
  | cons piece rest =>
    have hpiece := h piece rfl
    cases a with
    | nil => simp [literals]
    | cons c a =>
      cases b with
      | nil => simp [literals, join_singleton, hpiece]
      | cons d b => simp [literals, join_singleton, merge?]

theorem join_literals_directive (a inside : List Char) (position : Position)
    (pieces more : List Piece) :
    join merge? (literals a ++ directive inside position :: pieces) more =
      literals a ++ directive inside position :: join merge? pieces more := by
  rw [join_append (List.cons_ne_nil _ _), join_cons_of_none (merge?_directive inside position)]

/-- Two texts whose seam does not make an opening marker are cut one after the other. -/
theorem Cut.append {position : Position} {a b : List Char} {pieces more : List Piece}
    (ha : Cut position a pieces) (hb : Cut (position.after a) b more)
    (hterminated : ∀ start, Piece.unterminated start ∉ pieces)
    (hseam : a.getLast? = some '{' → b.head? ≠ some '{') :
    Cut position (a ++ b) (join merge? pieces more) := by
  induction ha with
  | @plain position text hfree =>
    -- Nothing opens at the seam, so the first opening marker of the whole is that of the second
    -- text.
    have hfirst : ∀ before, before.head? = b.head? → ¬ opening <:+: before →
        ¬ opening <:+: text ++ before := by
      intro before hhead hbefore hpair
      obtain h | h | ⟨hlast, hnext⟩ := pair_infix_append_iff.mp hpair
      · exact hfree h
      · exact hbefore h
      · exact hseam hlast (hhead.symm.trans hnext)
    cases hb with
    | plain hrest =>
      rw [join_literals]
      exact .plain (hfirst _ rfl hrest)
    | @directive _ before inside rest pieces hopening hclosing hrest =>
      have hbefore := hfirst (before ++ ['{']) (by cases before <;> rfl) hopening
      rw [join_literals_append _ _ (by simp [merge?_directive_right]), ← Position.after_append,
        ← List.append_assoc text]
      rw [← Position.after_append, ← List.append_assoc text] at hrest
      rw [← List.append_assoc] at hbefore
      exact .directive hbefore hclosing hrest
    | @unterminated _ before rest hopening hclosing =>
      have hbefore := hfirst (before ++ ['{']) (by cases before <;> rfl) hopening
      rw [join_literals_append _ _ (by simp [merge?_unterminated_right]), ← Position.after_append,
        ← List.append_assoc text]
      rw [← List.append_assoc] at hbefore
      exact .unterminated hbefore hclosing
  | directive hopening hclosing _ ih =>
    rw [join_literals_directive]
    simp only [List.append_assoc]
    apply Cut.directive hopening hclosing
    apply ih
    · rw [← Position.after_append]
      simpa using hb
    · exact fun start hmem => hterminated start (by simp [hmem])
    · intro hlast
      apply hseam
      simp [List.getLast?_append, hlast]
  | @unterminated position before => exact absurd (by simp) (hterminated (position.after before))

def enclosed (inside : List Char) : List Char :=
  opening ++ (inside ++ closing)

theorem cut_enclosed {inside : List Char}
    (h : ¬ closing <:+: inside ++ ['}']) (position : Position) :
    Cut position (enclosed inside) [directive inside position] := by
  have hrest : Cut (position.after ([] ++ (opening ++ (inside ++ closing)))) [] (literals []) :=
    .plain (by simp [opening])
  have hopening : ¬ opening <:+: [] ++ ['{'] := by decide
  have hcut := Cut.directive hopening h hrest
  simpa [enclosed, literals] using hcut

end Piece

namespace Node

mutual
def unplaced : Node → Node
  | literal text => literal text
  | interpolation expression _ => interpolation expression .start
  | each path body _ => each path (unplacedAll body) .start
  | conditional predicate body _ => conditional predicate (unplacedAll body) .start

def unplacedAll : List Node → List Node
  | [] => []
  | node :: rest => unplaced node :: unplacedAll rest
end

theorem unplaced_ne_literal {node : Node} (h : ∀ text, node ≠ literal text) (text : String) :
    unplaced node ≠ literal text := by
  cases node with
  | literal other => exact absurd rfl (h other)
  | _ => simp [unplaced]

theorem unplacedAll_eq_map (nodes : List Node) : unplacedAll nodes = nodes.map unplaced := by
  induction nodes with
  | nil => rfl
  | cons node rest ih => rw [unplacedAll, ih, List.map_cons]

def merge? : Node → Node → Option Node
  | literal a, literal b => some (literal (a ++ b))
  | _, _ => none

theorem merge?_of_ne_literal {node : Node} (h : ∀ text, node ≠ literal text) (other : Node) :
    merge? node other = none := by
  cases node with
  | literal text => exact absurd rfl (h text)
  | _ => rfl

theorem merge?_of_ne_literal_right {node : Node} (h : ∀ text, node ≠ literal text) (other : Node) :
    merge? other node = none := by
  cases node with
  | literal text => exact absurd rfl (h text)
  | _ => cases other <;> rfl

theorem merge?_unplaced (a b : Node) :
    merge? (unplaced a) (unplaced b) = (merge? a b).map unplaced := by
  cases a <;> cases b <;> simp [unplaced, merge?]

theorem unplacedAll_join (a b : List Node) :
    unplacedAll (join merge? a b) = join merge? (unplacedAll a) (unplacedAll b) := by
  simp only [unplacedAll_eq_map]
  exact map_join merge?_unplaced a b

theorem unplacedAll_literals (text : List Char) : unplacedAll (literals text) = literals text := by
  cases text <;> rfl

theorem unplacedAll_append (a b : List Node) :
    unplacedAll (a ++ b) = unplacedAll a ++ unplacedAll b := by
  simp only [unplacedAll_eq_map, List.map_append]

theorem unplacedAll_stripStart (nodes : List Node) :
    unplacedAll (stripStart nodes) = stripStart (unplacedAll nodes) := by
  cases nodes with
  | nil => rfl
  | cons node rest =>
    cases node with
    | literal text =>
      rw [stripStart_literal, unplacedAll_append, unplacedAll_literals]
      rfl
    | _ => rfl

theorem unplacedAll_stripEnd (nodes : List Node) :
    unplacedAll (stripEnd nodes) = stripEnd (unplacedAll nodes) := by
  induction nodes with
  | nil => rfl
  | cons node rest ih =>
    cases rest with
    | nil =>
      cases node with
      | literal text => exact unplacedAll_literals _
      | _ => rfl
    | cons next rest =>
      rw [stripEnd_cons (List.cons_ne_nil _ _), unplacedAll, ih]
      exact (stripEnd_cons (by simp [unplacedAll]) _).symm

theorem unplacedAll_strip (body : List Node) :
    unplacedAll (strip body) = strip (unplacedAll body) := by
  unfold strip
  rw [unplacedAll_stripEnd, unplacedAll_stripStart]

end Node

theorem Forest.unterminated_not_mem {inEach : Bool} {pieces : List Piece} {nodes : List Node}
    (h : Forest inEach pieces nodes) (position : Position) : .unterminated position ∉ pieces := by
  induction h with
  | nil => simp
  | literal _ _ ih => simpa using ih
  | interpolation _ _ _ ih => simpa using ih
  | block _ _ _ _ _ _ _ _ ihbody ih => simpa using ⟨ihbody, ih⟩

theorem Forest.join_literal {inEach : Bool} {text : List Char} {pieces : List Piece}
    {nodes : List Node} (htext : text ≠ []) (h : Forest inEach pieces nodes) :
    Forest inEach (join Piece.merge? [.literal text] pieces)
      (join Node.merge? [.literal (String.ofList text)] nodes) := by
  cases h with
  | nil => exact .literal htext .nil
  | @literal _ other pieces nodes hother hrest =>
    have hne : text ++ other ≠ [] := by simp [htext]
    have hpiece :
        Piece.merge? (.literal text) (.literal other) = some (.literal (text ++ other)) := rfl
    have hnode : Node.merge? (.literal (String.ofList text)) (.literal (String.ofList other)) =
        some (.literal (String.ofList (text ++ other))) := by
      rw [String.ofList_append]
      rfl
    rw [join_singleton_of_some hpiece, join_singleton_of_some hnode]
    exact .literal hne hrest
  | interpolation helse hform hrest => exact .literal htext (.interpolation helse hform hrest)
  | block hopen hargument hnested hbody hclose hblank hnode hrest =>
    rw [join_of_none (Node.merge?_of_ne_literal_right hnode.ne_literal)]
    exact .literal htext (.block hopen hargument hnested hbody hclose hblank hnode hrest)

theorem Forest.join {inEach : Bool} {a b : List Piece} {nodes more : List Node}
    (ha : Forest inEach a nodes) (hb : Forest inEach b more) :
    Forest inEach (join Piece.merge? a b) (join Node.merge? nodes more) := by
  induction ha with
  | nil =>
    rw [join_nil_left, join_nil_left]
    exact hb
  | @literal inEach text pieces nodes htext hrest ih =>
    by_cases hpieces : pieces = []
    · have hnodes := hrest.nodes_eq_nil_iff.mpr hpieces
      rw [hpieces, hnodes]
      exact hb.join_literal htext
    · have hnodes := hrest.nodes_eq_nil_iff.not.mpr hpieces
      rw [join_cons hpieces, join_cons hnodes]
      exact .literal htext (ih hb)
  | interpolation helse hform _ ih =>
    rw [join_cons_of_none (Piece.merge?_directive _ _),
      join_cons_of_none (Node.merge?_of_ne_literal (by simp))]
    exact .interpolation helse hform (ih hb)
  | block hopen hargument hnested hbody hclose hblank hnode _ _ ih =>
    rw [join_cons_of_none (Piece.merge?_directive _ _), join_append (List.cons_ne_nil _ _),
      join_cons_of_none (Piece.merge?_directive _ _),
      join_cons_of_none (Node.merge?_of_ne_literal hnode.ne_literal)]
    exact .block hopen hargument hnested hbody hclose hblank hnode (ih hb)

theorem BlockNode.exists_placed {body : List Node} {tag : Tag}
    {expression : Expression} {node : Node}
    (h : BlockNode (Node.unplacedAll body) .start tag expression node) (position : Position) :
    ∃ placed, BlockNode body position tag expression placed ∧ placed.unplaced = node := by
  cases h with
  | each =>
    refine ⟨_, .each, ?_⟩
    rw [Node.unplaced, Node.unplacedAll_strip]
  | conditional => exact ⟨_, .conditional, rfl⟩

/-- Wherever a text stands, its pieces spell out these nodes, up to positions. -/
def Reads (inEach : Bool) (text : List Char) (nodes : List Node) : Prop :=
  ∀ position, ∃ pieces placed, Piece.Cut position text pieces ∧ Forest inEach pieces placed ∧
    Node.unplacedAll placed = nodes

namespace Reads
variable {inEach : Bool} {a b inside : List Char} {nodes more : List Node}

theorem plain {text : List Char} (h : ¬ Piece.opening <:+: text) :
    Reads inEach text (Node.literals text) := by
  intro position
  refine ⟨Piece.literals text, Node.literals text, .plain h, ?_, Node.unplacedAll_literals text⟩
  cases text with
  | nil => exact .nil
  | cons c text => exact .literal (List.cons_ne_nil _ _) .nil

theorem append (ha : Reads inEach a nodes) (hb : Reads inEach b more)
    (hseam : a.getLast? = some '{' → b.head? ≠ some '{') :
    Reads inEach (a ++ b) (join Node.merge? nodes more) := by
  intro position
  obtain ⟨pieces, placed, hcut, hforest, rfl⟩ := ha position
  obtain ⟨pieces', placed', hcut', hforest', rfl⟩ := hb (position.after a)
  refine ⟨_, _, hcut.append hcut' hforest.unterminated_not_mem hseam, hforest.join hforest', ?_⟩
  exact Node.unplacedAll_join placed placed'

theorem interpolation (hinside : ¬ Piece.closing <:+: inside ++ ['}'])
    (helse : trim inside ≠ "else".toList)
    (hform : ∀ marker word argument, ¬ BlockForm inside marker word argument) :
    Reads inEach (Piece.enclosed inside) [.interpolation (Expression.read inside) .start] :=
  fun position => ⟨_, _, Piece.cut_enclosed hinside position, .interpolation helse hform .nil, rfl⟩

theorem block {tag : Tag} {argument last rest text : List Char} {body : List Node} {node : Node}
    (hinside : ¬ Piece.closing <:+: inside ++ ['}']) (hlast : ¬ Piece.closing <:+: last ++ ['}'])
    (hopen : BlockForm inside '#' tag.name.toList argument) (hargument : trim argument ≠ [])
    (hnested : tag = .each → inEach = false)
    (hbody : Reads (inEach || decide (tag = .each)) text body)
    (htext : text.getLast? ≠ some '{')
    (hclose : BlockForm last '/' tag.name.toList rest) (hrest : trim rest = [])
    (hnode : BlockNode body .start tag (Expression.read argument) node) :
    Reads inEach (Piece.enclosed inside ++ (text ++ Piece.enclosed last)) [node] := by
  intro position
  obtain ⟨pieces, placed, hcut, hforest, rfl⟩ := hbody (position.after (Piece.enclosed inside))
  obtain ⟨block, hblock, hnode⟩ := hnode.exists_placed position
  have hend := hcut.append (Piece.cut_enclosed hlast _) hforest.unterminated_not_mem
    (fun h => absurd h htext)
  have hall := (Piece.cut_enclosed hinside position).append hend (by simp) (by
    simp [Piece.enclosed, Piece.closing])
  rw [join_of_none (Piece.merge?_directive_right _ _),
    join_cons_of_none (Piece.merge?_directive _ _), join_nil_left] at hall
  refine ⟨_, [block], hall, ?_, by rw [Node.unplacedAll, Node.unplacedAll, hnode]⟩
  exact .block hopen hargument hnested hforest hclose hrest hblock .nil

end Reads
end CatalogPress
