import CatalogPress.Proofs.Template.Grammar
import CatalogPress.Proofs.Text.Position

/-!
Where nodes and errors are said to be. Each position is that of an opening marker in the text, those
of the nodes of a tree follow each other as their markers do, and a block that is not closed is
blamed on the innermost one.
-/
namespace CatalogPress
open Text

/-- A position at which an opening marker stands, in the text as in its line. -/
structure Position.Opens (text : List Char) (position : Position) : Prop where
  line_pos : 1 ≤ position.line
  line_le : position.line ≤ text.count '\n' + 1
  column_pos : 1 ≤ position.column
  marker : Piece.opening <+: text.drop (position.offset text)
  in_line : ∃ rest ∈ position.restOfLine? text, Piece.opening <+: rest

structure Ascending (text : List Char) (place : Nat) (positions : List Position) : Prop where
  opens : ∀ position ∈ positions, position.Opens text
  since : ∀ position ∈ positions, place ≤ position.offset text
  sorted : positions.Pairwise fun a b => a.offset text < b.offset text

theorem Position.opens_after (before rest : List Char) :
    (start.after before).Opens (before ++ (Piece.opening ++ rest)) where
  line_pos := line_after_pos before
  line_le := line_after_le before _
  column_pos := column_after_pos before
  marker := by
    rw [offset_after, List.drop_left]
    exact List.prefix_append ..
  in_line := by
    obtain ⟨first, parts, hparts⟩ := List.exists_cons_of_ne_nil (splitList_ne_nil '\n' rest)
    have hfree : '\n' ∉ Piece.opening := by decide
    rw [restOfLine?_after, splitList_append_of_not_mem hfree hparts]
    exact ⟨_, rfl, List.prefix_append ..⟩

namespace Ascending
variable {text : List Char} {place next : Nat} {positions : List Position}

theorem nil (text : List Char) (place : Nat) : Ascending text place [] :=
  ⟨nofun, nofun, .nil⟩

theorem cons {before rest : List Char} (h : Ascending text next positions)
    (htext : text = before ++ (Piece.opening ++ rest)) (hplace : place ≤ before.length)
    (hnext : before.length < next) :
      Ascending text place (Position.start.after before :: positions) := by
  subst htext
  have hoffset := Position.offset_after before (Piece.opening ++ rest)
  constructor
  · exact List.forall_mem_cons.mpr ⟨Position.opens_after before rest, h.opens⟩
  · rw [List.forall_mem_cons, hoffset]
    exact ⟨hplace, fun position hmem => (hplace.trans hnext.le).trans (h.since position hmem)⟩
  · rw [List.pairwise_cons, hoffset]
    exact ⟨fun position hmem => hnext.trans_le (h.since position hmem), h.sorted⟩

theorem sublist {list : List Position} (h : Ascending text place positions)
    (hlist : list.Sublist positions) :
    Ascending text place list where
  opens position hmem := h.opens position (hlist.subset hmem)
  since position hmem := h.since position (hlist.subset hmem)
  sorted := h.sorted.sublist hlist

end Ascending

namespace Piece

def position? : Piece → Option Position
  | literal _ => none
  | directive _ position => some position
  | unterminated position => some position

theorem filterMap_position?_literals_append (text : List Char) (pieces : List Piece) :
    (literals text ++ pieces).filterMap position? = pieces.filterMap position? := by
  cases text <;> rfl

/-- The pieces of the rest of a text are placed in the whole of it. -/
theorem Cut.ascending {position : Position} {text : List Char} {pieces : List Piece}
    (h : Cut position text pieces) (front : List Char)
    (hposition : position = Position.start.after front) :
    Ascending (front ++ text) front.length (pieces.filterMap position?) := by
  -- What a piece is cut from joins the front before the rest is cut, so that the whole text stays
  -- the same.
  induction h generalizing front with
  | @plain _ text =>
    have hnone := filterMap_position?_literals_append text []
    rw [List.append_nil] at hnone
    rw [hnone]
    exact .nil _ _
  | @directive _ before inside rest pieces _ _ _ ih =>
    subst hposition
    have hrest := ih _ (Position.after_append ..).symm
    rw [filterMap_position?_literals_append, ← Position.after_append]
    have htext : front ++ (before ++ (opening ++ (inside ++ closing))) ++ rest =
        front ++ (before ++ (opening ++ (inside ++ (closing ++ rest)))) := by simp
    rw [htext] at hrest
    have hplace : front ++ (before ++ (opening ++ (inside ++ (closing ++ rest)))) =
        front ++ before ++ (opening ++ (inside ++ (closing ++ rest))) := by simp
    exact hrest.cons hplace (by simp) (by simp [opening])
  | @unterminated _ before rest =>
    subst hposition
    rw [filterMap_position?_literals_append, ← Position.after_append]
    exact (Ascending.nil _ _).cons (List.append_assoc ..).symm (by simp) (Nat.lt_succ_self _)

theorem ascending_cut (text : List Char) : Ascending text 0 ((cut text).filterMap position?) :=
  (cut_outside .start text).ascending [] rfl

theorem opens_of_mem_cut {text : List Char} {piece : Piece}
    {position : Position} (h : piece ∈ cut text) (hposition : piece.position? = some position) :
    position.Opens text :=
  (ascending_cut text).opens _ (List.mem_filterMap.mpr ⟨piece, h, hposition⟩)

end Piece

namespace Node

mutual
def positions : Node → List Position
  | literal _ => []
  | interpolation _ position => [position]
  | each _ body position => position :: positionsAll body
  | conditional _ body position => position :: positionsAll body

def positionsAll : List Node → List Position
  | [] => []
  | node :: rest => positions node ++ positionsAll rest
end

theorem positionsAll_eq_flatMap (nodes : List Node) :
    positionsAll nodes = nodes.flatMap positions := by
  induction nodes with
  | nil => rfl
  | cons node rest ih => rw [positionsAll, ih, List.flatMap_cons]

theorem positionsAll_strip (body : List Node) : positionsAll (strip body) = positionsAll body := by
  rw [positionsAll_eq_flatMap, positionsAll_eq_flatMap]
  exact flatMap_strip (fun _ => rfl) body

end Node

theorem BlockNode.positions {body : List Node} {position : Position}
    {tag : Tag} {expression : Expression} {node : Node}
    (h : BlockNode body position tag expression node) :
    node.positions = position :: Node.positionsAll body := by
  cases h with
  | each => rw [Node.positions, Node.positionsAll_strip]
  | conditional => rw [Node.positions]

theorem Forest.positionsAll_sublist {inEach : Bool} {pieces : List Piece} {nodes : List Node}
    (h : Forest inEach pieces nodes) :
    (Node.positionsAll nodes).Sublist (pieces.filterMap Piece.position?) := by
  induction h with
  | nil => exact .refl _
  | literal _ _ ih => exact ih
  | interpolation _ _ _ ih => exact ih.cons_cons _
  | block _ _ _ _ _ _ hnode _ ihbody ih =>
    rw [Node.positionsAll, hnode.positions, List.filterMap_cons, List.filterMap_append,
      List.filterMap_cons]
    exact (ihbody.append (ih.cons _)).cons_cons _

namespace Template

/-- The innermost block that is left open: what follows its opener is well bracketed. -/
inductive LeftOpen : List Piece → Tag → Position → Prop
  | intro {before inside position tag argument inEach inner word} :
      BlockForm inside '#' tag.name.toList argument → Brackets inner word → Balanced inEach word →
      LeftOpen (before ++ .directive inside position :: inner) tag position

inductive Fails (pieces : List Piece) : TemplateError → Prop
  | piece {piece fault position} : piece ∈ pieces → piece.position? = some position →
      (∀ tag, fault ≠ .unclosed tag) → Fails pieces ⟨fault, position⟩
  | unclosed {tag position} : LeftOpen pieces tag position → Fails pieces ⟨.unclosed tag, position⟩

theorem openBlock_ne_unclosed {tag tag' : Tag} {argument : List Char} {position : Position}
    {progress : Progress} : openBlock tag argument position progress ≠ .error (.unclosed tag') := by
  simp only [openBlock]
  split
  · simp
  · split
    · simp
    · split <;> simp

theorem closeBlock_ne_unclosed {tag tag' : Tag} {argument : List Char} {progress : Progress} :
    closeBlock tag argument progress ≠ .error (.unclosed tag') := by
  unfold closeBlock
  split
  · simp
  · split
    · simp
    · split <;> simp

theorem apply_ne_unclosed {directive : Directive} {position : Position}
    {progress : Progress} {tag : Tag} :
    apply directive position progress ≠ .error (.unclosed tag) := by
  cases directive with
  | opener => exact openBlock_ne_unclosed
  | closer => exact closeBlock_ne_unclosed
  | _ => simp [apply]

theorem step_eq_error {progress : Progress} {piece : Piece} {error : TemplateError}
    (h : step progress piece = .error error) :
    piece.position? = some error.position ∧ ∀ tag, error.fault ≠ .unclosed tag := by
  cases piece with
  | literal text => cases h
  | unterminated position =>
    cases h
    exact ⟨rfl, nofun⟩
  | directive inside position =>
    rw [step_directive] at h
    cases happly : apply (Directive.read inside) position progress with
    | ok next =>
      rw [happly] at h
      cases h
    | error fault =>
      rw [happly] at h
      cases h
      exact ⟨rfl, fun tag hfault => apply_ne_unclosed (happly.trans (congrArg Except.error hfault))⟩

theorem Reached.leftOpen {pieces : List Piece} {nodes : Array Node} {block : OpenBlock}
    {blocks : List OpenBlock} (h : Reached pieces ⟨nodes, block :: blocks⟩) :
    LeftOpen pieces block.tag block.position := by
  cases h with
  | opened _ hform _ _ hinner => exact .intro hform hinner.brackets hinner.balanced

theorem fails_of_nodesOf {text : List Char} {error : TemplateError}
    (h : nodesOf text = .error error) :
    Fails (Piece.cut text) error := by
  have hempty : .literal [] ∉ Piece.cut text := empty_not_mem_of_cut (Piece.cut_outside .start text)
  obtain hrun | ⟨progress, hrun, hfinish⟩ := Fallible.bind_eq_error.mp h
  · obtain ⟨before, piece, after, state, hpieces, -, hstep⟩ := Fallible.foldlM_eq_error_iff.mp hrun
    obtain ⟨hposition, hfault⟩ := step_eq_error hstep
    exact .piece (hpieces ▸ List.mem_append_right _ List.mem_cons_self) hposition hfault
  · -- All pieces were read, and a block on the stack is what is left to fail on.
    have hreached := reached_of_foldlM hempty hrun
    obtain ⟨nodes, blocks⟩ := progress
    cases blocks with
    | nil => cases hfinish
    | cons block blocks =>
      cases hfinish
      exact .unclosed hreached.leftOpen

theorem LeftOpen.exists_mem {pieces : List Piece} {tag : Tag} {position : Position}
    (h : LeftOpen pieces tag position) : ∃ piece ∈ pieces, piece.position? = some position := by
  cases h with
  | intro => exact ⟨_, List.mem_append_right _ List.mem_cons_self, rfl⟩

/-- Everything that a tree or an error says about its place is true. The nodes and the error are at
opening markers, the nodes of a tree in the order of the text, and what is reported for a block that
is not closed is the opener of the innermost one. -/
theorem parse_located (text name : String) :
    (∀ template, parse text name = .ok template →
      (∀ position ∈ Node.positionsAll template.nodes, position.Opens text.toList) ∧
      (Node.positionsAll template.nodes).Pairwise
        fun a b => a.offset text.toList < b.offset text.toList) ∧
    ∀ error, parse text name = .error error →
      error.position.Opens text.toList ∧
      ∀ tag, error.fault = .unclosed tag → ∃ pieces, Piece.Cut .start text.toList pieces ∧
        LeftOpen pieces tag error.position := by
  constructor
  · intro template htemplate
    obtain ⟨-, hforest⟩ := parse_eq_ok_iff.mp htemplate
    have hplaced := (Piece.ascending_cut text.toList).sublist hforest.positionsAll_sublist
    exact ⟨hplaced.opens, hplaced.sorted⟩
  · intro error herror
    have hfails := fails_of_nodesOf (Fallible.map_eq_error.mp herror)
    cases hfails with
    | piece hmem hposition hfault =>
      exact ⟨Piece.opens_of_mem_cut hmem hposition, fun tag htag => absurd htag (hfault tag)⟩
    | unclosed hopen =>
      obtain ⟨piece, hmem, hposition⟩ := hopen.exists_mem
      refine ⟨Piece.opens_of_mem_cut hmem hposition, fun tag htag => ?_⟩
      cases htag
      exact ⟨_, Piece.cut_outside .start text.toList, hopen⟩

/-- Blocks over empty lines with a directive at the start of one, and a text that ends inside two
blocks and after a third. -/
theorem parse_located_of_lines :
    let closed :=
      "\n\x7b\x7b#each a\x7d\x7d\n\n\x7b\x7b b \x7d\x7d\n\x7b\x7b/each\x7d\x7d\x7b\x7bc\x7d\x7d"
    let unclosed :=
      "\x7b\x7b#if a\x7d\x7d\n\x7b\x7b#if b\x7d\x7d\x7b\x7b#each c\x7d\x7d\x7b\x7b/each\x7d\x7d"
    (∃ template, parse closed "t" = .ok template ∧
      Node.positionsAll template.nodes = [⟨2, 1⟩, ⟨4, 1⟩, ⟨5, 10⟩] ∧
      (∀ position ∈ Node.positionsAll template.nodes, position.Opens closed.toList) ∧
      (Node.positionsAll template.nodes).Pairwise
      fun a b => a.offset closed.toList < b.offset closed.toList) ∧
    ∃ error, parse unclosed "t" = .error error ∧ error = ⟨.unclosed .conditional, ⟨2, 1⟩⟩ ∧
      error.position.Opens unclosed.toList ∧ ∃ pieces, Piece.Cut .start unclosed.toList pieces ∧
        LeftOpen pieces .conditional error.position := by
  intro closed unclosed
  have hclosed :
      (parse closed "t").map (Node.positionsAll ·.nodes) = .ok [⟨2, 1⟩, ⟨4, 1⟩, ⟨5, 10⟩] := by
    decide +kernel
  have hunclosed : (parse unclosed "t").map (Node.positionsAll ·.nodes) =
      .error ⟨.unclosed .conditional, ⟨2, 1⟩⟩ := by
    decide +kernel
  obtain ⟨template, htemplate, hpositions⟩ := Fallible.map_eq_ok.mp hclosed
  have herror := Fallible.map_eq_error.mp hunclosed
  obtain ⟨hopens, hsorted⟩ := (parse_located closed "t").1 template htemplate
  obtain ⟨hopen, hleft⟩ := (parse_located unclosed "t").2 _ herror
  exact ⟨⟨template, htemplate, hpositions, hopens, hsorted⟩, _, herror, rfl, hopen, hleft _ rfl⟩

end Template
end CatalogPress
