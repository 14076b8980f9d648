import CatalogPress.Proofs.Text.Trim
import CatalogPress.Template.Directive

/-!
Directives that open or close a block, said without a scan: a marker, blanks, a word as long as it
can be, and the rest. At most one such form fits a directive, and reading follows it.
-/
namespace CatalogPress
open Text

/-- The inside of a directive has the form of a block: `#` or `/` and a word, with blanks around
both, and then the argument. -/
structure BlockForm (inside : List Char) (marker : Char) (word argument : List Char) : Prop where
  marker_eq : marker = '#' ∨ marker = '/'
  trim_eq : ∃ blanks, AllBlank blanks ∧ trim inside = marker :: (blanks ++ (word ++ argument))
  word_ne_nil : word ≠ []
  isWord : ∀ c ∈ word, isWord c = true
  maximal : ∀ c ∈ argument.head?, Text.isWord c = false

theorem blockForm_iff {inside word argument : List Char} {marker : Char} :
    BlockForm inside marker word argument ↔
      (marker = '#' ∨ marker = '/') ∧ word ≠ [] ∧ ∃ rest, trim inside = marker :: rest ∧
        word = (trimStart rest).takeWhile isWord ∧
        argument = (trimStart rest).dropWhile isWord := by
  constructor
  · intro h
    obtain ⟨blanks, hblanks, htrim⟩ := h.trim_eq
    have hstart : trimStart (blanks ++ (word ++ argument)) = word ++ argument := by
      rw [trimStart_append hblanks]
      refine trimStart_of_head? ?_
      intro c hc
      rw [List.head?_append_of_ne_nil _ h.word_ne_nil] at hc
      exact isBlank_of_isWord (h.isWord c (List.mem_of_mem_head? hc))
    refine ⟨h.marker_eq, h.word_ne_nil, _, htrim, ?_, ?_⟩
    · rw [hstart, takeWhile_append_of_head? h.isWord h.maximal]
    · rw [hstart, dropWhile_append_of_head? h.isWord h.maximal]
  · rintro ⟨hmarker, hword, rest, htrim, rfl, rfl⟩
    obtain ⟨blanks, hblanks, hrest⟩ := exists_eq_append_trimStart rest
    refine ⟨hmarker, ⟨blanks, hblanks, ?_⟩, hword, fun c hc => List.mem_takeWhile_imp hc,
      head?_dropWhile isWord _⟩
    rw [List.takeWhile_append_dropWhile, ← hrest, htrim]

theorem BlockForm.unique {inside word word' argument argument' : List Char} {marker marker' : Char}
    (h : BlockForm inside marker word argument) (h' : BlockForm inside marker' word' argument') :
    marker = marker' ∧ word = word' ∧ argument = argument' := by
  obtain ⟨-, -, rest, htrim, hword, hargument⟩ := blockForm_iff.mp h
  obtain ⟨-, -, rest', htrim', hword', hargument'⟩ := blockForm_iff.mp h'
  obtain ⟨hmarker, rfl⟩ := List.cons.inj (htrim.symm.trans htrim')
  exact ⟨hmarker, hword.trans hword'.symm, hargument.trans hargument'.symm⟩

theorem BlockForm.argument_isInfix {inside word argument : List Char} {marker : Char}
    (h : BlockForm inside marker word argument) : argument <:+: inside := by
  obtain ⟨blanks, -, htrim⟩ := h.trim_eq
  have hpart : argument <:+: trim inside := by
    refine ⟨marker :: (blanks ++ word), [], ?_⟩
    rw [htrim]
    simp
  exact hpart.trans (trim_isInfix inside)

theorem BlockForm.ne_else {inside word argument : List Char} {marker : Char}
    (h : BlockForm inside marker word argument) : trim inside ≠ "else".toList := by
  obtain ⟨blanks, -, htrim⟩ := h.trim_eq
  rw [htrim]
  intro heq
  obtain ⟨rfl, -⟩ := List.cons.inj heq
  have hmarker := h.marker_eq
  revert hmarker
  decide

namespace Directive

theorem read_of_blockForm {inside word argument : List Char} {marker : Char}
    (h : BlockForm inside marker word argument) :
    read inside = ofBlock marker word (trimStart argument) := by
  have helse := h.ne_else
  obtain ⟨hmarker, hword, rest, htrim, rfl, rfl⟩ := blockForm_iff.mp h
  unfold read
  rw [htrim] at helse
  rw [htrim, ofTrimmed]
  have hempty : ((rest.dropWhile isBlank).takeWhile isWord).isEmpty = false := by
    simpa [trimStart] using hword
  simp only [helse, hmarker, hempty, if_false, if_true]
  rfl

theorem read_of_else {inside : List Char} (h : trim inside = "else".toList) :
    read inside = .reserved := by
  unfold read
  rw [h]
  decide

theorem read_of_not_blockForm {inside : List Char} (helse : trim inside ≠ "else".toList)
    (h : ∀ marker word argument, ¬ BlockForm inside marker word argument) :
    read inside = .interpolation (Expression.read inside) := by
  unfold read Expression.read
  cases htrim : trim inside with
  | nil => rfl
  | cons marker rest =>
    rw [htrim] at helse
    rw [ofTrimmed]
    by_cases hmarker : marker = '#' ∨ marker = '/'
    · have hword : (rest.dropWhile isBlank).takeWhile isWord = [] := by
        by_contra hword
        exact h _ _ _ (blockForm_iff.mpr ⟨hmarker, hword, rest, htrim, rfl, rfl⟩)
      simp only [helse, hmarker, hword, List.isEmpty_nil, if_false, if_true]
    · simp only [helse, hmarker, if_false]

end Directive

theorem Tag.ofName?_eq_some_iff {name : List Char} {tag : Tag} :
    Tag.ofName? name = some tag ↔ name = tag.name.toList := by
  constructor
  · intro h
    unfold Tag.ofName? at h
    split at h
    · cases h
      assumption
    · split at h
      · cases h
        assumption
      · cases h
  · rintro rfl
    cases tag <;> decide

theorem Tag.name_injective {tag tag' : Tag} (h : tag.name.toList = tag'.name.toList) :
    tag = tag' := by
  have hname := Tag.ofName?_eq_some_iff.mpr h
  rw [Tag.ofName?_eq_some_iff.mpr rfl] at hname
  exact Option.some.inj hname

end CatalogPress
