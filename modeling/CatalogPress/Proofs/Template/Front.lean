import CatalogPress.Proofs.Template.Located

/-!
Reading a template from the front. What stands in front of the end of a directive is read without a
look at what follows, so the first directive that cannot be read is the one that is reported,
whatever comes after it.
-/
namespace CatalogPress
open Fallible

def TemplateError.IsUnclosed (error : TemplateError) : Prop :=
  ∃ tag, error.fault = .unclosed tag

namespace Piece

/-- `Front text front`: the text starts with `front`, which ends right after one of its
directives. -/
inductive Front : List Char → List Char → Prop
  | first {before inside rest} : ¬ opening <:+: before ++ ['{'] → ¬ closing <:+: inside ++ ['}'] →
      Front (before ++ (opening ++ (inside ++ (closing ++ rest))))
        (before ++ (opening ++ (inside ++ closing)))
  | later {before inside rest front} : ¬ opening <:+: before ++ ['{'] →
      ¬ closing <:+: inside ++ ['}'] →
      Front rest front → Front (before ++ (opening ++ (inside ++ (closing ++ rest))))
        (before ++ (opening ++ (inside ++ (closing ++ front))))

theorem outside_directive {before inside : List Char} (hopening : ¬ opening <:+: before ++ ['{'])
    (hclosing : ¬ closing <:+: inside ++ ['}']) (position : Position) (rest : List Char) :
    outside position [] (before ++ (opening ++ (inside ++ (closing ++ rest)))) =
      literals before ++ directive inside (position.after before) ::
        outside (position.after (before ++ (opening ++ (inside ++ closing)))) [] rest :=
  (Cut.directive hopening hclosing (cut_outside _ rest)).eq_outside.symm

namespace Front
variable {text front : List Char}

theorem exists_rest (h : Front text front) : ∃ rest, text = front ++ rest := by
  induction h with
  | @first _ _ rest => exact ⟨rest, by simp⟩
  | later _ _ _ ih =>
    obtain ⟨rest, rfl⟩ := ih
    exact ⟨rest, by simp⟩

/-- Right after a directive the pieces fall apart: those in front do not depend on what follows. -/
theorem outside_append (h : Front text front) (position : Position) (other : List Char) :
    outside position [] (front ++ other) = outside position [] front ++
      outside (position.after front) [] other := by
  induction h generalizing position with
  | first hopening hclosing =>
    have hwhole := outside_directive hopening hclosing position other
    have hfront := outside_directive hopening hclosing position []
    rw [List.append_nil] at hfront
    simp only [List.append_assoc]
    rw [hwhole, hfront]
    simp [outside, literals]
  | @later before inside _ front hopening hclosing _ ih =>
    have hwhole := outside_directive hopening hclosing position (front ++ other)
    simp only [List.append_assoc]
    rw [hwhole, outside_directive hopening hclosing, ih, ← Position.after_append]
    simp

theorem cut_append (h : Front text front) (other : List Char) :
    cut (front ++ other) = cut front ++ outside (Position.start.after front) [] other :=
  h.outside_append .start other

end Front

theorem directive_not_mem_literals (text inside : List Char) (place : Position) :
    Piece.directive inside place ∉ literals text := by
  rw [literals]
  split <;> simp

theorem split_behind_literals {text inside : List Char} {place : Position} {piece : Piece}
    {pieces before after : List Piece}
    (h : literals text ++ piece :: pieces = before ++ Piece.directive inside place :: after) :
    (before = literals text ∧ piece = Piece.directive inside place) ∨
      ∃ more, before = literals text ++ piece :: more ∧
      pieces = more ++ Piece.directive inside place :: after := by
  obtain ⟨more, rfl, hmore⟩ | ⟨more, hliterals, hmore⟩ := List.append_eq_append_iff.mp h
  · cases more with
    | nil => exact .inl ⟨List.append_nil _, (List.cons.inj hmore).1⟩
    | cons first more =>
      obtain ⟨rfl, hpieces⟩ := List.cons.inj hmore
      exact .inr ⟨more, rfl, hpieces⟩
  · cases more with
    | nil =>
      exact .inl ⟨((List.append_nil _).symm.trans hliterals.symm), (List.cons.inj hmore).1.symm⟩
    | cons first more =>
      have hmem : Piece.directive inside place ∈ literals text := by
        rw [hliterals, (List.cons.inj hmore).1]
        exact List.mem_append_right _ List.mem_cons_self
      exact absurd hmem (directive_not_mem_literals text inside place)

/-- Every directive among the pieces of a text ends a front part, whose pieces are those up to
it. -/
theorem Cut.exists_front {position place : Position} {text inside : List Char}
    {pieces before after : List Piece} (h : Cut position text pieces)
    (hpieces : pieces = before ++ Piece.directive inside place :: after) :
    ∃ front, Front text front ∧
    outside position [] front = before ++ [Piece.directive inside place] := by
  induction h generalizing before with
  | @plain _ text =>
    refine absurd ?_ (directive_not_mem_literals text inside place)
    exact hpieces ▸ List.mem_append_right _ List.mem_cons_self
  | unterminated =>
    obtain ⟨-, hpiece⟩ | ⟨more, -, hmore⟩ := split_behind_literals hpieces
    · cases hpiece
    · cases more <;> cases hmore
  | @directive position start _ _ _ hopening hclosing _ ih =>
    obtain ⟨rfl, hpiece⟩ | ⟨more, rfl, hmore⟩ := split_behind_literals hpieces
    · refine ⟨_, .first hopening hclosing, ?_⟩
      have hfront := outside_directive hopening hclosing position []
      rw [List.append_nil, hpiece] at hfront
      exact hfront
    · obtain ⟨front, hfront, hcut⟩ := ih hmore
      refine ⟨_, .later hopening hclosing hfront, ?_⟩
      rw [outside_directive hopening hclosing, hcut, List.append_assoc, List.cons_append]

end Piece

namespace Template
open Piece
variable {text front : List Char}

theorem foldlM_cut_append (h : Front text front) (other : List Char) :
    (cut (front ++ other)).foldlM step .start = (cut front).foldlM step .start >>= fun progress =>
      (outside (Position.start.after front) [] other).foldlM step progress := by
  rw [h.cut_append, List.foldlM_append]

theorem exists_front_of_error {error : TemplateError} (h : nodesOf text = .error error)
    (hterminated : error.fault ≠ .unterminatedDirective) (hclosed : ¬ error.IsUnclosed) :
    ∃ front, Front text front ∧ (cut front).foldlM step .start = .error error := by
  obtain hrun | ⟨progress, -, hfinish⟩ := bind_eq_error.mp h
  · obtain ⟨before, piece, after, state, hpieces, hbefore, hstep⟩ := foldlM_eq_error_iff.mp hrun
    cases piece with
    | literal => cases hstep
    | unterminated =>
      cases hstep
      exact absurd rfl hterminated
    | directive inside place =>
      obtain ⟨front, hfront, hcut⟩ := (cut_outside .start text).exists_front hpieces
      refine ⟨front, hfront, foldlM_eq_error_iff.mpr ⟨before, _, [], state, hcut, hbefore, hstep⟩⟩
  · obtain ⟨nodes, blocks⟩ := progress
    cases blocks <;> cases hfinish
    exact absurd ⟨_, rfl⟩ hclosed

theorem nodesOf_append_of_error {error : TemplateError} (h : Front text front)
    (herror : (cut front).foldlM step .start = .error error) (other : List Char) :
    nodesOf (front ++ other) = .error error := by
  rw [nodesOf, foldlM_cut_append h, herror]
  rfl

theorem failsWith_isUnclosed_iff : FailsWith TemplateError.IsUnclosed (nodesOf text) ↔
    ∃ progress, (cut text).foldlM step .start = .ok progress := by
  have hfinish (progress : Progress) : FailsWith TemplateError.IsUnclosed (finish progress) := by
    obtain ⟨nodes, blocks⟩ := progress
    cases blocks with
    | nil => exact failsWith_ok
    | cons block blocks => exact failsWith_error.mpr ⟨block.tag, rfl⟩
  have hrun : FailsWith TemplateError.IsUnclosed (nodesOf text) ↔
      FailsWith TemplateError.IsUnclosed ((cut text).foldlM step .start) :=
    failsWith_bind.trans (and_iff_left fun progress _ => hfinish progress)
  rw [hrun]
  constructor
  · intro h
    by_contra hnone
    obtain ⟨error, herror⟩ := exists_error_iff.mpr hnone
    obtain ⟨-, piece, -, state, -, -, hstep⟩ := foldlM_eq_error_iff.mp herror
    obtain ⟨tag, htag⟩ := h error herror
    exact (step_eq_error hstep).2 tag htag
  · rintro ⟨progress, hok⟩
    rw [hok]
    exact failsWith_ok

/-- The first directive that is at fault is the one that is reported. An error found in a directive
is found again whatever text follows; and where nothing is wrong with a text but for blocks that are
not closed, nothing else is wrong with any front part of it that ends right after a directive. -/
theorem parse_reports_first (text name : String) :
    (∀ error, parse text name = .error error →
      error.fault ≠ .unterminatedDirective → ¬ error.IsUnclosed →
      ∀ suffix, parse (text ++ suffix) name = .error error) ∧
    (FailsWith TemplateError.IsUnclosed (parse text name) →
      ∀ front : String, Front text.toList front.toList →
      FailsWith TemplateError.IsUnclosed (parse front name)) := by
  constructor
  · intro error herror hterminated hclosed suffix
    obtain ⟨front, hfront, hfails⟩ :=
      exists_front_of_error (map_eq_error.mp herror) hterminated hclosed
    obtain ⟨rest, hrest⟩ := hfront.exists_rest
    refine map_eq_error.mpr ?_
    rw [String.toList_append, hrest, List.append_assoc]
    exact nodesOf_append_of_error hfront hfails (rest ++ suffix.toList)
  · intro htext front hfront
    obtain ⟨rest, hrest⟩ := hfront.exists_rest
    obtain ⟨progress, hrun⟩ := failsWith_isUnclosed_iff.mp (failsWith_map.mp htext)
    rw [hrest, foldlM_cut_append hfront, bind_eq_ok] at hrun
    obtain ⟨state, hstate, -⟩ := hrun
    exact failsWith_map.mpr (failsWith_isUnclosed_iff.mpr ⟨state, hstate⟩)

/-- A closer without its block in front of another fault, which the suffix completes; and a text
that ends inside a block, cut short inside the block before it. -/
theorem parse_reports_first_of_texts :
    let faulty := "a\n\x7b\x7bb\x7d\x7d\x7b\x7b/if\x7d\x7d\x7b\x7belse"
    let unclosed :=
      "\x7b\x7b#if a\x7d\x7d\x7b\x7bb\x7d\x7d\x7d\x7b\x7b/if\x7d\x7d\x7b\x7b#each c\x7d\x7d"
    let front := "\x7b\x7b#if a\x7d\x7d\x7b\x7bb\x7d\x7d"
    (∃ error, parse faulty "t" = .error error ∧ error = ⟨.unexpectedCloser .conditional, ⟨2, 6⟩⟩ ∧
      error.fault ≠ .unterminatedDirective ∧ ¬ error.IsUnclosed ∧
      parse (faulty ++ "\x7d\x7d") "t" = .error error) ∧
    FailsWith TemplateError.IsUnclosed (parse unclosed "t") ∧ Front unclosed.toList front.toList ∧
      FailsWith TemplateError.IsUnclosed (parse front "t") := by
  intro faulty unclosed front
  have hfaulty :
      (parse faulty "t").map (·.name) = .error ⟨.unexpectedCloser .conditional, ⟨2, 6⟩⟩ := by
    decide +kernel
  have hunclosed : (parse unclosed "t").map (·.name) = .error ⟨.unclosed .each, ⟨1, 23⟩⟩ := by
    decide +kernel
  have hleft : FailsWith TemplateError.IsUnclosed (parse unclosed "t") := by
    rw [Fallible.map_eq_error.mp hunclosed, failsWith_error]
    exact ⟨.each, rfl⟩
  have hfront : Front unclosed.toList front.toList := by
    have htext : unclosed.toList =
        opening ++ ("#if a".toList ++ (closing ++ (opening ++ (['b'] ++ (closing ++
          "\x7d\x7b\x7b/if\x7d\x7d\x7b\x7b#each c\x7d\x7d".toList))))) := by
      decide +kernel
    have hcut : front.toList =
        opening ++ ("#if a".toList ++ (closing ++ (opening ++ (['b'] ++ closing)))) := by
      decide +kernel
    rw [htext, hcut]
    exact @Front.later [] _ _ _ (by decide) (by decide)
      (@Front.first [] _ _ (by decide) (by decide))
  have herror := Fallible.map_eq_error.mp hfaulty
  have hnot : ¬ (⟨.unexpectedCloser .conditional, ⟨2, 6⟩⟩ : TemplateError).IsUnclosed := nofun
  exact ⟨⟨_, herror, rfl, nofun, hnot,
    (parse_reports_first faulty "t").1 _ herror nofun hnot "\x7d\x7d"⟩, hleft, hfront,
    (parse_reports_first unclosed "t").2 hleft front hfront⟩

end Template
end CatalogPress
