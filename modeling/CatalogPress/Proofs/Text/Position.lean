import CatalogPress.Proofs.Text.Split
import CatalogPress.Text.Line
import Mathlib.Data.List.Count

/-!
What a position means in a text. The lines of a text are its parts between line feeds, and a
position leads to the place up to which it was counted, in the text as in its line.
-/
namespace CatalogPress.Position
open Text

def lineStart (text : List Char) (line : Nat) : Nat :=
  (((splitList '\n' text).take (line - 1)).flatMap (· ++ ['\n'])).length

def offset (text : List Char) (position : Position) : Nat :=
  lineStart text position.line + (position.column - 1)

def restOfLine? (text : List Char) (position : Position) : Option (List Char) :=
  ((splitList '\n' text)[position.line - 1]?).map (·.drop (position.column - 1))

/-- A text as the lines that end in it and what follows the last of them. -/
structure Lines (text : List Char) (ended : List (List Char)) (last : List Char) : Prop where
  text_eq : text = ended.flatMap (· ++ ['\n']) ++ last
  ended_free : ∀ line ∈ ended, '\n' ∉ line
  last_free : '\n' ∉ last

theorem exists_lines (text : List Char) : ∃ ended last, Lines text ended last := by
  induction text with
  | nil => exact ⟨[], [], rfl, nofun, nofun⟩
  | cons c text ih =>
    obtain ⟨ended, last, rfl, hended, hlast⟩ := ih
    by_cases hc : c = '\n'
    · subst hc
      exact ⟨[] :: ended, last, rfl, List.forall_mem_cons.mpr ⟨nofun, hended⟩, hlast⟩
    · have hadd {line : List Char} (hline : '\n' ∉ line) : '\n' ∉ c :: line :=
        List.not_mem_cons_of_ne_of_not_mem (Ne.symm hc) hline
      cases ended with
      | nil => exact ⟨[], c :: last, rfl, nofun, hadd hlast⟩
      | cons first ended =>
        obtain ⟨hfirst, hended⟩ := List.forall_mem_cons.mp hended
        exact ⟨(c :: first) :: ended, last, rfl,
          List.forall_mem_cons.mpr ⟨hadd hfirst, hended⟩, hlast⟩

theorem after_of_not_mem {line : List Char} (h : '\n' ∉ line) (position : Position) :
    position.after line = ⟨position.line, position.column + line.length⟩ := by
  induction line generalizing position with
  | nil => rfl
  | cons c line ih =>
    rw [List.mem_cons, not_or] at h
    change (position.next c).after line = _
    rw [ih h.2, next, if_neg (Ne.symm h.1), List.length_cons, Nat.add_right_comm, Nat.add_assoc]

theorem after_ended {ended : List (List Char)} (h : ∀ line ∈ ended, '\n' ∉ line) (line : Nat) :
    after ⟨line, 1⟩ (ended.flatMap (· ++ ['\n'])) = ⟨line + ended.length, 1⟩ := by
  induction ended generalizing line with
  | nil => rfl
  | cons first ended ih =>
    obtain ⟨hfirst, hended⟩ := List.forall_mem_cons.mp h
    rw [List.flatMap_cons, after_append, after_append, after_of_not_mem hfirst]
    change after ⟨line + 1, 1⟩ _ = _
    rw [ih hended, List.length_cons, Nat.add_assoc, Nat.add_comm 1]

namespace Lines
variable {text last : List Char} {ended : List (List Char)}

theorem after_eq (h : Lines text ended last) :
    start.after text = ⟨ended.length + 1, last.length + 1⟩ := by
  rw [h.text_eq, after_append, start, after_ended h.ended_free, after_of_not_mem h.last_free]
  simp only [Nat.add_comm]

theorem count_eq (h : Lines text ended last) : text.count '\n' = ended.length := by
  obtain ⟨rfl, hended, hlast⟩ := h
  rw [List.count_append, List.count_eq_zero.mpr hlast, Nat.add_zero]
  induction ended with
  | nil => rfl
  | cons first ended ih =>
    obtain ⟨hfirst, hended⟩ := List.forall_mem_cons.mp hended
    rw [List.flatMap_cons, List.count_append, List.count_append, List.count_eq_zero.mpr hfirst,
      ih hended, List.length_cons, Nat.add_comm]
    rfl

/-- The lines of a text that goes on are those that ended, the one it goes on in, and new ones. -/
theorem splitList_append (h : Lines text ended last) {rest first : List Char}
    {parts : List (List Char)} (hrest : splitList '\n' rest = first :: parts) :
    splitList '\n' (text ++ rest) = ended ++ (last ++ first) :: parts := by
  obtain ⟨rfl, hended, hlast⟩ := h
  induction ended with
  | nil => exact splitList_append_of_not_mem hlast hrest
  | cons line ended ih =>
    obtain ⟨hline, hended⟩ := List.forall_mem_cons.mp hended
    have htail := ih hended
    simp only [List.flatMap_cons, List.append_assoc, List.cons_append] at htail ⊢
    rw [splitList_append_cons hline, List.nil_append, htail]

end Lines

variable (before rest : List Char)

theorem offset_after : (start.after before).offset (before ++ rest) = before.length := by
  obtain ⟨ended, last, h⟩ := exists_lines before
  obtain ⟨first, parts, hparts⟩ := List.exists_cons_of_ne_nil (splitList_ne_nil '\n' rest)
  have hlength : before.length = (ended.flatMap (· ++ ['\n'])).length + last.length := by
    rw [h.text_eq, List.length_append]
  rw [h.after_eq, hlength]
  simp only [offset, lineStart, h.splitList_append hparts, Nat.add_sub_cancel, List.take_left]

theorem restOfLine?_after :
    (start.after before).restOfLine? (before ++ rest) = (splitList '\n' rest).head? := by
  obtain ⟨ended, last, h⟩ := exists_lines before
  obtain ⟨first, parts, hparts⟩ := List.exists_cons_of_ne_nil (splitList_ne_nil '\n' rest)
  rw [h.after_eq, hparts]
  simp [restOfLine?, h.splitList_append hparts]

theorem line_after_pos : 1 ≤ (start.after before).line := by
  obtain ⟨ended, last, h⟩ := exists_lines before
  rw [h.after_eq]
  exact Nat.le_add_left ..

theorem line_after_le : (start.after before).line ≤ (before ++ rest).count '\n' + 1 := by
  obtain ⟨ended, last, h⟩ := exists_lines before
  rw [h.after_eq, List.count_append, h.count_eq]
  exact Nat.succ_le_succ (Nat.le_add_right ..)

theorem column_after_pos : 1 ≤ (start.after before).column := by
  obtain ⟨ended, last, h⟩ := exists_lines before
  rw [h.after_eq]
  exact Nat.le_add_left ..

end CatalogPress.Position
