import CatalogPress.Proofs.Text.Marker
import CatalogPress.Template.Directive

/-!
The cut of a text, said without a scan: each directive starts at the first opening marker after the
directive before it and ends at the first closing marker after that. Every text has exactly one cut,
and it is the one that the scan finds.
-/
namespace CatalogPress.Piece
open Text

def opening : List Char := ['{', '{']
def closing : List Char := ['}', '}']

/-- The cut of a text that starts at a position. An opening marker is the first one if none ends
with its first brace or before that, and so for closing markers. -/
inductive Cut : Position → List Char → List Piece → Prop
  | plain {position text} : ¬ opening <:+: text → Cut position text (literals text)
  | directive {position before inside rest pieces} :
      ¬ opening <:+: before ++ ['{'] → ¬ closing <:+: inside ++ ['}'] →
      Cut (position.after (before ++ (opening ++ (inside ++ closing)))) rest pieces →
      Cut position (before ++ (opening ++ (inside ++ (closing ++ rest))))
        (literals before ++ directive inside (position.after before) :: pieces)
  | unterminated {position before rest} :
      ¬ opening <:+: before ++ ['{'] → ¬ closing <:+: rest →
      Cut position (before ++ (opening ++ rest))
        (literals before ++ [unterminated (position.after before)])

theorem outside_cons {position : Position} {seen rest : List Char} {c : Char}
    (h : ¬ (c = '{' ∧ rest.head? = some '{')) :
    outside position seen (c :: rest) = outside (position.next c) (c :: seen) rest := by
  rw [outside]
  rintro tail rfl rfl
  exact h ⟨rfl, rfl⟩

theorem inside_cons {start position : Position} {seen rest : List Char} {c : Char}
    (h : ¬ (c = '}' ∧ rest.head? = some '}')) :
    inside start position seen (c :: rest) = inside start (position.next c) (c :: seen) rest := by
  rw [inside]
  rintro tail rfl rfl
  exact h ⟨rfl, rfl⟩

theorem outside_of_free {text : List Char} (h : ¬ opening <:+: text) (position : Position)
    (seen : List Char) : outside position seen text = literals (seen.reverse ++ text) := by
  induction text generalizing position seen with
  | nil => simp [outside]
  | cons c rest ih =>
    rw [opening, pair_infix_cons_iff, not_or] at h
    rw [outside_cons h.1, ih h.2, List.reverse_cons, List.append_assoc]
    rfl

theorem inside_of_free {text : List Char} (h : ¬ closing <:+: text) (start position : Position)
    (seen : List Char) : inside start position seen text = [unterminated start] := by
  induction text generalizing position seen with
  | nil => simp [inside]
  | cons c rest ih =>
    rw [closing, pair_infix_cons_iff, not_or] at h
    rw [inside_cons h.1, ih h.2]

theorem outside_append {before : List Char}
    (h : ¬ opening <:+: before ++ ['{']) (position : Position) (seen rest : List Char) :
    outside position seen (before ++ (opening ++ rest)) =
      literals (seen.reverse ++ before) ++
        inside (position.after before) (position.after (before ++ opening)) [] rest := by
  induction before generalizing position seen with
  | nil => simp [opening, outside]
  | cons c before ih =>
    rw [opening, List.cons_append, pair_infix_cons_iff, not_or] at h
    have hhead : ¬ (c = '{' ∧ (before ++ (opening ++ rest)).head? = some '{') := by
      cases before <;> simpa [opening] using h.1
    rw [List.cons_append, outside_cons hhead, ih h.2, List.reverse_cons, List.append_assoc]
    rfl

theorem inside_append {text : List Char} (h : ¬ closing <:+: text ++ ['}'])
    (start position : Position) (seen rest : List Char) :
    inside start position seen (text ++ (closing ++ rest)) =
      directive (seen.reverse ++ text) start :: outside (position.after (text ++ closing))
      [] rest := by
  induction text generalizing position seen with
  | nil => simp [closing, inside]
  | cons c text ih =>
    rw [closing, List.cons_append, pair_infix_cons_iff, not_or] at h
    have hhead : ¬ (c = '}' ∧ (text ++ (closing ++ rest)).head? = some '}') := by
      cases text <;> simpa [closing] using h.1
    rw [List.cons_append, inside_cons hhead, ih h.2, List.reverse_cons, List.append_assoc]
    rfl

theorem Cut.eq_outside {position : Position} {text : List Char} {pieces : List Piece}
    (h : Cut position text pieces) : pieces = outside position [] text := by
  induction h with
  | plain hfree => rw [outside_of_free hfree]; rfl
  | directive hopening hclosing _ ih =>
    rw [outside_append hopening, inside_append hclosing, ih, ← Position.after_append]
    simp
  | unterminated hopening hclosing =>
    rw [outside_append hopening, inside_of_free hclosing]
    rfl

theorem cut_outside (position : Position) (text : List Char) :
    Cut position text (outside position [] text) := by
  by_cases hopening : opening <:+: text
  · obtain ⟨before, rest, rfl, hfirst⟩ := exists_first_pair hopening
    by_cases hclosing : closing <:+: rest
    · obtain ⟨text, rest, rfl, hend⟩ := exists_first_pair hclosing
      have h := Cut.directive hfirst hend
        (cut_outside (position.after (before ++ (opening ++ (text ++ closing)))) rest)
      rwa [h.eq_outside] at h
    · have h : Cut position _ _ := .unterminated hfirst hclosing
      rwa [h.eq_outside] at h
  · rw [outside_of_free hopening]
    exact .plain hopening
termination_by text.length

theorem cut_iff (text : List Char) (pieces : List Piece) :
    Cut .start text pieces ↔ pieces = cut text := by
  constructor
  · exact Cut.eq_outside
  · rintro rfl
    exact cut_outside .start text

end CatalogPress.Piece
