import CatalogPress.Proofs.Fallible
import CatalogPress.Proofs.Template.Cut
import CatalogPress.Proofs.Template.Forest

/-!
Building a tree on a stack agrees with reading it off the pieces: exactly the pieces that spell out
a forest are accepted, and the forest is what is built. One step is described in full first; all
that follows is by that description.
-/
namespace CatalogPress.Template
open Text Fallible

def insideEach (blocks : List OpenBlock) : Bool :=
  (blocks.find? (·.tag = .each)).isSome

@[simp] theorem insideEach_nil : insideEach [] = false := rfl

@[simp] theorem insideEach_cons (block : OpenBlock) (blocks : List OpenBlock) :
    insideEach (block :: blocks) = (insideEach blocks || decide (block.tag = .each)) := by
  unfold insideEach
  rw [List.find?_cons]
  cases hblock : decide (block.tag = .each) <;> simp

inductive Step : Progress → Piece → Progress → Prop
  | literal {progress text} :
      Step progress (.literal text) (progress.add (.literal (String.ofList text)))
  | interpolation {progress inside position} : trim inside ≠ "else".toList →
      (∀ marker word argument, ¬ BlockForm inside marker word argument) →
      Step progress (.directive inside position)
        (progress.add (.interpolation (Expression.read inside) position))
  | opener {nodes blocks inside position tag argument} :
      BlockForm inside '#' tag.name.toList argument → trim argument ≠ [] →
      (tag = .each → insideEach blocks = false ∧ ∃ path, Expression.read argument = .path path) →
      Step ⟨nodes, blocks⟩ (.directive inside position)
        ⟨#[], ⟨tag, Expression.read argument, position, nodes⟩ :: blocks⟩
  | closer {nodes block blocks inside position argument} :
      BlockForm inside '/' block.tag.name.toList argument → trim argument = [] →
      Step ⟨nodes, block :: blocks⟩ (.directive inside position)
        ⟨block.before.push (block.close nodes.toList), blocks⟩

@[simp] theorem read_trimStart (argument : List Char) :
    Expression.read (trimStart argument) = Expression.read argument := by
  simp [Expression.read]

theorem openBlock_eq_ok_iff {tag : Tag} {argument : List Char} {position : Position}
    {progress next : Progress} :
    openBlock tag (trimStart argument) position progress = .ok next ↔
      trim argument ≠ [] ∧
      (tag = .each → insideEach progress.blocks = false ∧
        ∃ path, Expression.read argument = .path path) ∧
      next = ⟨#[],
        ⟨tag, Expression.read argument, position, progress.nodes⟩ :: progress.blocks⟩ := by
  unfold openBlock insideEach
  rw [trim_trimStart, read_trimStart]
  by_cases hargument : trim argument = []
  · simp [hargument]
  · cases tag with
    | conditional =>
      simp only [List.isEmpty_iff, hargument, if_false, Except.ok.injEq]
      exact ⟨fun h => ⟨hargument, nofun, h.symm⟩, fun h => h.2.2.symm⟩
    | each =>
      cases progress.blocks.find? (·.tag = .each) with
      | some outer => simp [hargument]
      | none =>
        cases Expression.read argument with
        | path parts =>
          simp only [List.isEmpty_iff, hargument, if_false, Except.ok.injEq]
          exact ⟨fun h => ⟨hargument, fun _ => ⟨rfl, parts, rfl⟩, h.symm⟩, fun h => h.2.2.symm⟩
        | _ => simp [hargument]

theorem closeBlock_eq_ok_iff {tag : Tag} {argument : List Char} {progress next : Progress} :
    closeBlock tag (trimStart argument) progress = .ok next ↔
      trim argument = [] ∧ ∃ block blocks, progress.blocks = block :: blocks ∧ block.tag = tag ∧
        next = ⟨block.before.push (block.close progress.nodes.toList), blocks⟩ := by
  unfold closeBlock
  rw [trim_trimStart]
  by_cases hargument : trim argument = []
  · cases progress.blocks with
    | nil => simp [hargument]
    | cons block blocks =>
      by_cases htag : block.tag = tag
      · simp [hargument, htag, eq_comm]
      · simp [hargument, htag]
  · simp [hargument]

theorem step_directive (progress : Progress) (inside : List Char) (position : Position) :
    step progress (.directive inside position) =
      (apply (Directive.read inside) position progress).mapError (⟨·, position⟩) := rfl

theorem step_opener {progress : Progress} {inside argument : List Char} {position : Position}
    {tag : Tag} (h : BlockForm inside '#' tag.name.toList argument) :
    step progress (.directive inside position) =
      (openBlock tag (trimStart argument) position progress).mapError (⟨·, position⟩) := by
  rw [step_directive, Directive.read_of_blockForm h, Directive.ofBlock,
    Tag.ofName?_eq_some_iff.mpr rfl]
  rfl

theorem step_closer {progress : Progress} {inside argument : List Char} {position : Position}
    {tag : Tag} (h : BlockForm inside '/' tag.name.toList argument) :
    step progress (.directive inside position) =
      (closeBlock tag (trimStart argument) progress).mapError (⟨·, position⟩) := by
  rw [step_directive, Directive.read_of_blockForm h, Directive.ofBlock,
    Tag.ofName?_eq_some_iff.mpr rfl]
  rfl

theorem step_unknown {progress next : Progress} {inside word argument : List Char} {marker : Char}
    {position : Position} (h : BlockForm inside marker word argument)
    (hword : ∀ tag : Tag, word ≠ tag.name.toList) :
    step progress (.directive inside position) ≠ .ok next := by
  have hnone : Tag.ofName? word = none := by
    rw [Option.eq_none_iff_forall_ne_some]
    intro tag htag
    exact hword tag (Tag.ofName?_eq_some_iff.mp htag)
  rw [step_directive, Directive.read_of_blockForm h, Directive.ofBlock, hnone]
  exact nofun

theorem step_eq_ok_iff {progress next : Progress} {piece : Piece} :
    step progress piece = .ok next ↔ Step progress piece next := by
  constructor
  · intro h
    cases piece with
    | literal text =>
      cases h
      exact .literal
    | unterminated position => cases h
    | directive inside position =>
      by_cases helse : trim inside = "else".toList
      · rw [step_directive, Directive.read_of_else helse] at h
        cases h
      by_cases hform : ∃ marker word argument, BlockForm inside marker word argument
      · obtain ⟨marker, word, argument, hform⟩ := hform
        by_cases htag : ∃ tag : Tag, word = tag.name.toList
        · obtain ⟨tag, rfl⟩ := htag
          obtain rfl | rfl := hform.marker_eq
          · rw [step_opener hform, mapError_eq_ok, openBlock_eq_ok_iff] at h
            obtain ⟨hargument, heach, rfl⟩ := h
            exact .opener hform hargument heach
          · rw [step_closer hform, mapError_eq_ok, closeBlock_eq_ok_iff] at h
            obtain ⟨hargument, block, blocks, hblocks, rfl, rfl⟩ := h
            obtain ⟨nodes, _⟩ := progress
            cases hblocks
            exact .closer hform hargument
        · exact absurd h (step_unknown hform (not_exists.mp htag))
      · simp only [not_exists] at hform
        rw [step_directive, Directive.read_of_not_blockForm helse hform] at h
        cases h
        exact .interpolation helse hform
  · intro h
    cases h with
    | literal => rfl
    | interpolation helse hform =>
      rw [step_directive, Directive.read_of_not_blockForm helse hform]
      rfl
    | opener hform hargument heach =>
      rw [step_opener hform, mapError_eq_ok, openBlock_eq_ok_iff]
      exact ⟨hargument, heach, rfl⟩
    | closer hform hargument =>
      rw [step_closer hform, mapError_eq_ok, closeBlock_eq_ok_iff]
      exact ⟨hargument, _, _, rfl, rfl, rfl⟩

/-- What is built so far spells out what is read so far: a forest for the innermost block, and one
for each block around it up to where the next one opens. -/
inductive Reached : List Piece → Progress → Prop
  | closed {pieces nodes} : Forest false pieces nodes.toList → Reached pieces ⟨nodes, []⟩
  | opened {pieces before blocks inside position tag argument inner nodes} :
      Reached pieces ⟨before, blocks⟩ →
      BlockForm inside '#' tag.name.toList argument → trim argument ≠ [] →
      (tag = .each → insideEach blocks = false ∧ ∃ path, Expression.read argument = .path path) →
      Forest (insideEach blocks || decide (tag = .each)) inner nodes.toList →
      Reached (pieces ++ .directive inside position :: inner)
        ⟨nodes, ⟨tag, Expression.read argument, position, before⟩ :: blocks⟩

theorem Reached.append {pieces more : List Piece} {nodes : Array Node} {blocks : List OpenBlock}
    {added : List Node} (h : Reached pieces ⟨nodes, blocks⟩)
    (hmore : Forest (insideEach blocks) more added) :
    Reached (pieces ++ more) ⟨nodes ++ added.toArray, blocks⟩ := by
  cases h with
  | closed hnodes =>
    refine .closed ?_
    rw [Array.toList_append]
    exact hnodes.append hmore
  | opened houter hform hargument heach hinner =>
    rw [List.append_assoc, List.cons_append]
    refine .opened houter hform hargument heach ?_
    rw [insideEach_cons] at hmore
    rw [Array.toList_append]
    exact hinner.append hmore

theorem Reached.push {pieces more : List Piece} {nodes : Array Node} {blocks : List OpenBlock}
    {node : Node} (h : Reached pieces ⟨nodes, blocks⟩)
    (hmore : Forest (insideEach blocks) more [node]) :
    Reached (pieces ++ more) ⟨nodes.push node, blocks⟩ :=
  h.append hmore

theorem blockNode_iff_close {body : List Node} {position : Position} {tag : Tag}
    {expression : Expression} {node : Node} (hbody : .literal "" ∉ body) (before : Array Node) :
    BlockNode body position tag expression node ↔
      (tag = .each → ∃ path, expression = .path path) ∧
      node = (OpenBlock.mk tag expression position before).close body := by
  constructor
  · intro h
    refine ⟨h.exists_path, ?_⟩
    cases h with
    | conditional => rfl
    | each =>
      unfold OpenBlock.close
      rw [trimBody_eq_strip hbody]
  · rintro ⟨hpath, rfl⟩
    cases tag with
    | conditional => exact .conditional
    | each =>
      obtain ⟨path, rfl⟩ := hpath rfl
      unfold OpenBlock.close
      rw [trimBody_eq_strip hbody]
      exact .each

theorem Reached.step {pieces : List Piece} {progress next : Progress} {piece : Piece}
    (h : Reached pieces progress) (hstep : Step progress piece next)
    (hpiece : piece ≠ .literal []) :
    Reached (pieces ++ [piece]) next := by
  cases hstep with
  | literal =>
    exact h.push (.literal (fun htext => hpiece (by rw [htext])) .nil)
  | interpolation helse hform => exact h.push (.interpolation helse hform .nil)
  | opener hform hargument heach => exact .opened h hform hargument heach .nil
  | closer hlast hrest =>
    cases h with
    | opened houter hform hargument heach hinner =>
      rw [List.append_assoc, List.cons_append]
      refine houter.push (.block hform hargument (fun htag => (heach htag).1) hinner
        hlast hrest ?_ .nil)
      exact (blockNode_iff_close hinner.empty_not_mem _).mpr ⟨fun htag => (heach htag).2, rfl⟩

/-- Every run: whatever the pieces are, if no step fails then what is reached spells them out. -/
theorem reached_of_foldlM {pieces : List Piece} {progress : Progress}
    (hempty : .literal [] ∉ pieces) (h : pieces.foldlM step .start = .ok progress) :
    Reached pieces progress := by
  induction pieces using List.reverseRecOn generalizing progress with
  | nil =>
    cases h
    exact .closed .nil
  | append_singleton pieces piece ih =>
    rw [List.mem_append, not_or, List.mem_singleton] at hempty
    rw [List.foldlM_append, bind_eq_ok] at h
    obtain ⟨reached, hreached, hlast⟩ := h
    rw [List.foldlM_cons, bind_eq_ok] at hlast
    obtain ⟨next, hnext, hend⟩ := hlast
    cases hend
    exact (ih hempty.1 hreached).step (step_eq_ok_iff.mp hnext) (Ne.symm hempty.2)

theorem foldlM_step_of_forest {inEach : Bool} {pieces : List Piece} {nodes : List Node}
    (h : Forest inEach pieces nodes) (progress : Progress)
    (heach : insideEach progress.blocks = inEach) :
    pieces.foldlM step progress = .ok ⟨progress.nodes ++ nodes.toArray, progress.blocks⟩ := by
  induction h generalizing progress with
  | nil =>
    rw [Array.append_empty]
    rfl
  | literal _ _ ih =>
    rw [List.foldlM_cons, bind_eq_ok]
    refine ⟨_, step_eq_ok_iff.mpr .literal, ?_⟩
    rw [ih (progress.add _) heach]
    simp [Progress.add]
  | interpolation helse hform _ ih =>
    rw [List.foldlM_cons, bind_eq_ok]
    refine ⟨_, step_eq_ok_iff.mpr (.interpolation helse hform), ?_⟩
    rw [ih (progress.add _) heach]
    simp [Progress.add]
  | block hform hargument hnested hbody hlast hrest hnode _ ihbody ih =>
    obtain ⟨before, blocks⟩ := progress
    subst heach
    have hfull := hbody.empty_not_mem
    obtain ⟨hpath, rfl⟩ := (blockNode_iff_close hfull before).mp hnode
    have heach htag := And.intro (hnested htag) (hpath htag)
    rw [List.foldlM_cons, bind_eq_ok]
    refine ⟨_, step_eq_ok_iff.mpr (.opener hform hargument heach), ?_⟩
    rw [List.foldlM_append, bind_eq_ok]
    refine ⟨_, ihbody _ (insideEach_cons _ _), ?_⟩
    rw [List.foldlM_cons, bind_eq_ok]
    refine ⟨_, step_eq_ok_iff.mpr (.closer hlast hrest), ?_⟩
    rw [ih]
    · simp
    · rfl

theorem literals_nil_not_mem (text : List Char) : .literal [] ∉ Piece.literals text := by
  cases text <;> simp [Piece.literals]

theorem empty_not_mem_of_cut {position : Position} {text : List Char} {pieces : List Piece}
    (h : Piece.Cut position text pieces) : .literal [] ∉ pieces := by
  induction h with
  | plain => exact literals_nil_not_mem _
  | directive _ _ _ ih => simp [literals_nil_not_mem, ih]
  | unterminated => simp [literals_nil_not_mem]

theorem nodesOf_eq_ok_iff {text : List Char} {nodes : List Node} :
    nodesOf text = .ok nodes ↔ Forest false (Piece.cut text) nodes := by
  unfold nodesOf
  have hempty : .literal [] ∉ Piece.cut text := empty_not_mem_of_cut (Piece.cut_outside .start text)
  constructor
  · intro h
    obtain ⟨progress, hprogress, hfinish⟩ := bind_eq_ok.mp h
    generalize Piece.cut text = pieces at *
    cases reached_of_foldlM hempty hprogress with
    | closed hnodes =>
      cases hfinish
      exact hnodes
    | opened => cases hfinish
  · intro h
    have hrun := foldlM_step_of_forest h .start rfl
    refine bind_eq_ok.mpr ⟨_, hrun, ?_⟩
    simp [finish, Progress.start]

end CatalogPress.Template
