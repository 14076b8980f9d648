import CatalogPress.Proofs.Template.Expression
import CatalogPress.Proofs.Template.Reads

/-!
Expressions and the directives of blocks written as text. What is written has no blanks at its ends
and no closing marker in it, and it is read back as what it was.
-/
namespace CatalogPress
open Text

namespace Expression

def source : Expression → List Char
  | path parts => (pathText parts).toList
  | comparison operator field literal =>
    '(' :: (operator.name.toList ++ ' ' :: (field.toList ++ ' ' :: '"' ::
      (literal.toList ++ ['"', ')'])))
  | invalid raw => raw.toList

theorem source_comparison {text : List Char} {operator : Operator} {field literal : String}
    (h : IsComparison text operator field literal) :
    IsComparison (source (.comparison operator field literal)) operator field literal := by
  obtain ⟨before, operands, -, -, hoperands⟩ := h.text_eq
  have hblank : AllBlank [' '] := allBlank_singleton.mpr (by decide)
  refine ⟨h.operator_eq, [], _, allBlank_nil, rfl, ?_⟩
  refine ⟨⟨[' '], [' '], [], ?_⟩, hoperands.field_ne, hoperands.isField, hoperands.literal_closed⟩
  exact ⟨hblank, List.cons_ne_nil _ _, hblank, List.cons_ne_nil _ _, allBlank_nil, rfl⟩

theorem source_dotted {text : List Char} {parts : List String} (h : IsDotted text parts) :
    source (.path parts) = text := by
  change (pathText parts).toList = text
  unfold pathText
  rw [if_neg (by simpa using h.ne_nil), h.text_eq]

theorem source_ofTrimmed (text : List Char) :
    source (ofTrimmed text) = text ∨ (text ∈ selfNames ∧ source (ofTrimmed text) = "this".toList) ∨
      ∃ operator field literal, IsComparison text operator field literal ∧
        ofTrimmed text = .comparison operator field literal := by
  have h := reading_iff.mpr (Eq.refl (ofTrimmed text))
  generalize ofTrimmed text = expression at h
  cases h with
  | self hself => exact .inr (.inl ⟨hself, rfl⟩)
  | dotted _ hdotted => exact .inl (source_dotted hdotted)
  | comparison hcomparison => exact .inr (.inr ⟨_, _, _, hcomparison, rfl⟩)
  | invalid => exact .inl String.toList_ofList

theorem ofTrimmed_source (text : List Char) :
    ofTrimmed (source (ofTrimmed text)) = ofTrimmed text := by
  obtain h | ⟨hself, h⟩ | ⟨operator, field, literal, hcomparison, h⟩ := source_ofTrimmed text
  · rw [h]
  · rw [h, (Reading.self hself).eq_ofTrimmed]
    decide
  · rw [h]
    exact (Reading.comparison (source_comparison hcomparison)).eq_ofTrimmed

theorem isTrimmed_source {text : List Char} (h : IsTrimmed text) :
    IsTrimmed (source (ofTrimmed text)) := by
  obtain heq | ⟨-, heq⟩ | ⟨operator, field, literal, -, heq⟩ := source_ofTrimmed text
  · rw [heq]
    exact h
  · rw [heq]
    have hlast : "this".toList = ['t', 'h', 'i'] ++ ['s'] := rfl
    exact ⟨forall_mem_head?_cons.mpr (by decide),
      hlast ▸ forall_mem_getLast?_append.mpr (by decide)⟩
  · rw [heq]
    have hlast : source (.comparison operator field literal) =
        '(' :: (operator.name.toList ++ ' ' :: (field.toList ++ ' ' :: '"' ::
          (literal.toList ++ ['"']))) ++ [')'] := by
      simp [source]
    exact ⟨forall_mem_head?_cons.mpr (by decide),
      hlast ▸ forall_mem_getLast?_append.mpr (by decide)⟩

theorem source_ne_nil {text : List Char} (h : text ≠ []) : source (ofTrimmed text) ≠ [] := by
  obtain heq | ⟨-, heq⟩ | ⟨operator, field, literal, -, heq⟩ := source_ofTrimmed text
  · rw [heq]
    exact h
  · rw [heq]
    decide
  · rw [heq]
    exact List.cons_ne_nil _ _

theorem source_ne_else {text : List Char} (h : text ≠ "else".toList) :
    source (ofTrimmed text) ≠ "else".toList := by
  obtain heq | ⟨-, heq⟩ | ⟨operator, field, literal, -, heq⟩ := source_ofTrimmed text
  · rw [heq]
    exact h
  · rw [heq]
    decide
  · rw [heq]
    intro helse
    exact absurd (List.cons.inj helse).1 (by decide)

theorem IsComparison.literal_isInfix {text : List Char}
    {operator : Operator} {field literal : String} (h : IsComparison text operator field literal) :
    literal.toList <:+: text := by
  obtain ⟨before, operands, -, htext, hoperands⟩ := h.text_eq
  obtain ⟨first, second, after, -, -, -, -, -, hall⟩ := hoperands.text_eq
  refine ⟨'(' :: (before ++ (operator.name.toList ++ (first ++ (field.toList ++
    (second ++ ['"']))))), '"' :: (after ++ [')']), ?_⟩
  rw [htext, hall]
  simp

theorem closing_free_source {text : List Char} (h : ¬ Piece.closing <:+: text) :
    ¬ Piece.closing <:+: source (ofTrimmed text) := by
  obtain heq | ⟨-, heq⟩ | ⟨operator, field, literal, hcomparison, heq⟩ := source_ofTrimmed text
  · rw [heq]
    exact h
  · rw [heq]
    decide
  · obtain ⟨before, operands, -, -, hoperands⟩ := hcomparison.text_eq
    have hliteral : ¬ ['}', '}'] <:+: literal.toList :=
      fun hpair => h (hpair.trans hcomparison.literal_isInfix)
    have hfield : ¬ ['}', '}'] <:+: field.toList := by
      intro hpair
      have hchar := hoperands.isField '}' (hpair.subset List.mem_cons_self)
      revert hchar
      decide +kernel
    have hname : ¬ ['}', '}'] <:+: operator.name.toList := by
      obtain rfl | rfl := hcomparison.operator_eq <;> decide
    rw [heq]
    simp [source, Piece.closing, pair_infix_cons_iff,
      pair_infix_append_iff, hliteral, hfield, hname]

theorem trim_padded {text : List Char} (h : IsTrimmed text) :
    trim (' ' :: (text ++ [' '])) = text := by
  have hblank : AllBlank [' '] := allBlank_singleton.mpr (by decide)
  have htrim := trim_append_append hblank hblank text
  rw [trim_of_isTrimmed h] at htrim
  exact htrim

theorem read_source (raw : List Char) : read (source (read raw)) = read raw := by
  unfold read
  rw [trim_of_isTrimmed (isTrimmed_source (isTrimmed_trim raw)), ofTrimmed_source]

theorem read_source_append (raw : List Char) : read (source (read raw) ++ [' ']) = read raw := by
  have hblank : AllBlank [' '] := allBlank_singleton.mpr (by decide)
  calc
    read (source (read raw) ++ [' ']) = read (source (read raw)) :=
      congrArg ofTrimmed (trim_append_of_allBlank hblank _)
    _ = read raw := read_source raw

theorem read_padded (raw : List Char) : read (' ' :: (source (read raw) ++ [' '])) = read raw := by
  unfold read
  rw [trim_padded (isTrimmed_source (isTrimmed_trim raw)), ofTrimmed_source]

theorem not_blockForm_padded {raw : List Char}
    (h : ∀ marker word argument, ¬ BlockForm raw marker word argument) (marker : Char)
    (word argument : List Char) :
    ¬ BlockForm (' ' :: (source (read raw) ++ [' '])) marker word argument := by
  intro hform
  obtain ⟨blanks, hblanks, htrim⟩ := hform.trim_eq
  unfold read at htrim
  rw [trim_padded (isTrimmed_source (isTrimmed_trim raw))] at htrim
  have hmarker := hform.marker_eq
  obtain heq | ⟨-, heq⟩ | ⟨operator, field, literal, -, heq⟩ := source_ofTrimmed (trim raw)
  · rw [heq] at htrim
    exact h marker word argument
      ⟨hmarker, ⟨blanks, hblanks, htrim⟩, hform.word_ne_nil, hform.isWord, hform.maximal⟩
  · rw [heq] at htrim
    obtain ⟨rfl, -⟩ := List.cons.inj htrim
    revert hmarker
    decide
  · rw [heq] at htrim
    obtain ⟨rfl, -⟩ := List.cons.inj htrim
    revert hmarker
    decide

theorem closing_free_padded {raw : List Char} (h : ¬ Piece.closing <:+: raw) :
    ¬ Piece.closing <:+: ' ' :: (source (read raw) ++ [' ']) ++ ['}'] := by
  have hsource : ¬ Piece.closing <:+: source (read raw) :=
    closing_free_source (fun hpair => h (hpair.trans (trim_isInfix raw)))
  unfold Piece.closing at hsource ⊢
  simp [pair_infix_append_iff, pair_infix_cons_iff, hsource]

end Expression

namespace Tag

def openerText (tag : Tag) (argument : Expression) : List Char :=
  '#' :: (tag.name.toList ++ ' ' :: (argument.source ++ [' ']))

def closerText (tag : Tag) : List Char :=
  '/' :: tag.name.toList

theorem name_ne_nil (tag : Tag) : tag.name.toList ≠ [] := by
  cases tag <;> decide

theorem isWord_name (tag : Tag) : ∀ c ∈ tag.name.toList, isWord c = true := by
  rw [← List.all_eq_true]
  cases tag <;> decide +kernel

theorem blockForm_opener (tag : Tag) {argument : List Char} (h : trim argument ≠ []) :
    BlockForm ('#' :: (tag.name.toList ++ ' ' :: argument)) '#' tag.name.toList
      (' ' :: trimEnd argument) where
  marker_eq := .inl rfl
  trim_eq := by
    have hne : trimEnd argument ≠ [] := by
      intro hnil
      rw [← trim_trimEnd, hnil] at h
      exact h rfl
    have hall : IsTrimmed ('#' :: (tag.name.toList ++ ' ' :: trimEnd argument)) := by
      constructor
      · exact forall_mem_head?_cons.mpr (by decide)
      · rw [List.getLast?_cons_of_ne_nil (by simp), List.getLast?_append_of_ne_nil _ (by simp),
          List.getLast?_cons_of_ne_nil hne]
        exact getLast?_trimEnd argument
    obtain ⟨blanks, hblanks, heq⟩ := exists_eq_trimEnd_append argument
    have hsplit : '#' :: (tag.name.toList ++ ' ' :: argument) =
        '#' :: (tag.name.toList ++ ' ' :: trimEnd argument) ++ blanks := by
      rw [List.cons_append, List.append_assoc, List.cons_append, ← heq]
    refine ⟨[], allBlank_nil, ?_⟩
    rw [hsplit, trim_append_of_allBlank hblanks, trim_of_isTrimmed hall]
    rfl
  word_ne_nil := tag.name_ne_nil
  isWord := tag.isWord_name
  maximal := forall_mem_head?_cons.mpr (by decide +kernel)

theorem closing_free_opener (tag : Tag) {argument : List Char}
    (hfree : ¬ Piece.closing <:+: argument) (hlast : argument.getLast? ≠ some '}') :
    ¬ Piece.closing <:+: '#' :: (tag.name.toList ++ ' ' :: argument) ++ ['}'] := by
  have hname : ¬ Piece.closing <:+: '#' :: tag.name.toList := by cases tag <;> decide
  have hargument : ¬ Piece.closing <:+: ' ' :: (argument ++ ['}']) := by
    unfold Piece.closing at hfree ⊢
    simp [pair_infix_cons_iff, pair_infix_append_iff, hfree, hlast]
  have hsplit : '#' :: (tag.name.toList ++ ' ' :: argument) ++ ['}'] =
      ('#' :: tag.name.toList) ++ ' ' :: (argument ++ ['}']) := by
    simp
  rw [hsplit, Piece.closing, pair_infix_append_iff]
  simp only [not_or, not_and]
  exact ⟨hname, hargument, fun _ hhead => by cases hhead⟩

theorem closing_free_closerText (tag : Tag) : ¬ Piece.closing <:+: tag.closerText ++ ['}'] := by
  cases tag <;> decide

theorem blockForm_closerText (tag : Tag) : BlockForm tag.closerText '/' tag.name.toList [] where
  marker_eq := .inr rfl
  trim_eq := ⟨[], allBlank_nil, by cases tag <;> decide⟩
  word_ne_nil := tag.name_ne_nil
  isWord := tag.isWord_name
  maximal := nofun

theorem reads_block {inEach : Bool} {tag : Tag} {argument text : List Char}
    {body : List Node} {node : Node} (hargument : trim argument ≠ [])
    (hfree : ¬ Piece.closing <:+: argument) (hlast : argument.getLast? ≠ some '}')
    (hnested : tag = .each → inEach = false)
    (hbody : Reads (inEach || decide (tag = .each)) text body) (htext : text.getLast? ≠ some '{')
    (hnode : BlockNode body .start tag (Expression.read argument) node) :
    Reads inEach (Piece.enclosed ('#' :: (tag.name.toList ++ ' ' :: argument)) ++
      (text ++ Piece.enclosed tag.closerText)) [node] := by
  have hread : Expression.read (' ' :: trimEnd argument) = Expression.read argument := by
    unfold Expression.read
    rw [trim_cons_blank (by decide), trim_trimEnd]
  have hgiven : trim (' ' :: trimEnd argument) ≠ [] := by
    rwa [trim_cons_blank (by decide), trim_trimEnd]
  rw [← hread] at hnode
  exact .block (tag.closing_free_opener hfree hlast) tag.closing_free_closerText
    (tag.blockForm_opener hargument) hgiven hnested hbody htext tag.blockForm_closerText rfl hnode

end Tag
end CatalogPress
