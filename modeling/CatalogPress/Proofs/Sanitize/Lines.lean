import CatalogPress.Proofs.Sanitize.Markers
import CatalogPress.Proofs.Text.Marker

/-!
Sanitizing line by line. Neither a directive nor a brace pair holds a line feed, so what is removed
from a line depends on that line alone. Nothing is ever added, and a text that holds a marker is
never left alone.
-/
namespace CatalogPress

theorem Text.intercalate_singleton (separator text : Text) :
    intercalate separator [text] = text := by
  rw [intercalate, List.map_singleton, List.intercalate_singleton]

theorem Text.intercalate_cons_cons (separator first next : Text) (rest : List Text) :
    intercalate separator (first :: next :: rest) =
      first ++ separator ++ intercalate separator (next :: rest) :=
  Text.ext (List.intercalate_cons_cons ..)

namespace Sanitize
variable {text rest a b : List CodePoint}

theorem newline_not_mem_of_isDirective (h : IsDirective text) : .char '\n' ∉ text := by
  obtain ⟨inside, rfl, hinside⟩ := h
  intro hmem
  simp only [Brace.marker, Brace.point, List.mem_append, List.mem_cons] at hmem
  have hfeed : .char '\n' ∈ inside := by simpa using hmem
  exact (hinside _ hfeed).2 rfl

theorem DirectiveFree.append_line (ha : DirectiveFree a) (hb : DirectiveFree b) :
    DirectiveFree (a ++ .char '\n' :: b) := by
  intro directive hdirective hinfix
  obtain hinfix | hinfix :=
    (Text.infix_append_cons_iff (newline_not_mem_of_isDirective hdirective)).mp hinfix
  · exact ha directive hdirective hinfix
  · exact hb directive hdirective hinfix

theorem Stripped.append_line {kept other : List CodePoint}
    (ha : Stripped a kept) (hb : Stripped b other) :
    Stripped (a ++ .char '\n' :: b) (kept ++ .char '\n' :: other) := by
  induction ha with
  | @free line hfree =>
    cases hb with
    | free hfree' => exact .free (hfree.append_line hfree')
    | @cut before directive after rest hfree' hdirective hrest =>
      have hbefore := hfree.append_line hfree'
      have hcut := Stripped.cut hbefore hdirective hrest
      rw [List.append_assoc, List.append_assoc] at hcut
      exact hcut
  | cut hfree hdirective _ ih =>
    rw [List.append_assoc, List.append_assoc, List.append_assoc]
    exact .cut hfree hdirective ih

theorem dropDirectives_append_line (a b : List CodePoint) :
    (dropDirectives (a ++ .char '\n' :: b)).1 =
      (dropDirectives a).1 ++ .char '\n' :: (dropDirectives b).1 :=
  ((stripped_dropDirectives a).append_line (stripped_dropDirectives b)).eq_dropDirectives.symm

theorem dropPairs_append_line (a b : List CodePoint) :
    (dropPairs (a ++ .char '\n' :: b)).1 = (dropPairs a).1 ++ .char '\n' :: (dropPairs b).1 := by
  have hfeed : ∀ brace : Brace, CodePoint.char '\n' ≠ brace.point := by
    intro brace
    cases brace <;> decide
  rw [dropPairs_append, dropPairs_of_stays]
  · exact fun brace h => absurd h (hfeed brace)
  · intro brace _ h
    exact hfeed brace (Option.some.inj h)

theorem Stripped.sublist (h : Stripped text rest) : rest.Sublist text := by
  induction h with
  | free => exact .refl _
  | cut _ _ _ ih => exact (ih.trans (List.sublist_append_right ..)).append_left _

theorem Stripped.count_newline (h : Stripped text rest) :
    rest.count (.char '\n') = text.count (.char '\n') := by
  induction h with
  | free => rfl
  | cut _ hdirective _ ih =>
    have hnone := List.count_eq_zero.mpr (newline_not_mem_of_isDirective hdirective)
    simp only [List.count_append, ih, hnone, Nat.zero_add]

theorem dropPairs_sublist (text : List CodePoint) : (dropPairs text).1.Sublist text := by
  induction text using pairInduction with
  | nil => exact .refl _
  | pair brace rest ih =>
    rw [dropPairs_pair]
    exact (ih.cons _).cons _
  | stays point rest hstays ih =>
    rw [dropPairs_of_stays hstays]
    exact ih.cons_cons point

theorem count_newline_dropPairs (text : List CodePoint) :
    (dropPairs text).1.count (.char '\n') = text.count (.char '\n') := by
  induction text using pairInduction with
  | nil => rfl
  | pair brace rest ih =>
    rw [dropPairs_pair, ih]
    cases brace <;> simp [Brace.point]
  | stays point rest hstays ih =>
    rw [dropPairs_of_stays hstays, List.count_cons, List.count_cons, ih]

theorem dropDirectives_snd_eq_zero_iff (text : List CodePoint) :
    (dropDirectives text).2 = 0 ↔ DirectiveFree text := by
  fun_induction dropDirectives text with
  | case1 text rest hsome _ kept count _ _ =>
    obtain ⟨directive, hdirective, rfl⟩ := directive?_eq_some_iff.mp hsome
    refine iff_of_false (Nat.succ_ne_zero _) fun hfree => ?_
    exact hfree directive hdirective (List.prefix_append ..).isInfix
  | case2 => exact iff_of_true rfl directiveFree_nil
  | case3 point rest hnone kept count hkept ih =>
    rw [hkept] at ih
    refine ih.trans ⟨fun hfree => ?_, fun hfree directive hdirective hinfix => ?_⟩
    · have hnone : directive? (point :: rest ++ []) = none := by simpa using hnone
      exact hfree.cons hnone
    · exact hfree directive hdirective (List.infix_cons hinfix)

theorem markerFree_cons_iff {point : CodePoint} (h : Stays point rest) :
    (∀ brace : Brace, ¬ brace.marker <:+: point :: rest) ↔
      ∀ brace : Brace, ¬ brace.marker <:+: rest := by
  refine forall_congr' fun brace => not_congr ?_
  rw [Brace.marker, Text.pair_infix_cons_iff]
  exact or_iff_right fun hpair => h brace hpair.1 hpair.2

theorem dropPairs_snd_eq_zero_iff (text : List CodePoint) :
    (dropPairs text).2 = 0 ↔ ∀ brace : Brace, ¬ brace.marker <:+: text := by
  induction text using pairInduction with
  | nil => simp [dropPairs, Brace.marker]
  | pair brace rest _ =>
    rw [dropPairs_marker]
    exact iff_of_false (Nat.succ_ne_zero _)
      fun hfree => hfree brace (List.prefix_append [_, _] rest).isInfix
  | stays point rest hstays ih => rw [dropPairs_cons hstays, ih, markerFree_cons_iff hstays]

theorem dropPairs_of_markerFree (h : ∀ brace : Brace, ¬ brace.marker <:+: text) :
    (dropPairs text).1 = text := by
  induction text using pairInduction with
  | nil => rfl
  | pair brace rest _ => exact absurd (List.prefix_append [_, _] rest).isInfix (h brace)
  | stays point rest hstays ih =>
    rw [dropPairs_of_stays hstays, ih ((markerFree_cons_iff hstays).mp h)]

theorem directiveFree_of_markerFree (h : ∀ brace : Brace, ¬ brace.marker <:+: text) :
    DirectiveFree text := by
  rintro _ ⟨inside, rfl, -⟩ hinfix
  exact h .opening ((List.prefix_append ..).isInfix.trans hinfix)

end Sanitize

open Sanitize

theorem sanitize_text (text : Text) :
    (sanitize text).text = ⟨(dropPairs (dropDirectives text.points).1).1⟩ := rfl

theorem sanitize_append_line (a b : Text) :
    (sanitize (a ++ "\n" ++ b)).text = (sanitize a).text ++ "\n" ++ (sanitize b).text := by
  have hpoints (x y : Text) : (x ++ "\n" ++ y).points = x.points ++ .char '\n' :: y.points :=
    List.append_assoc ..
  rw [Text.ext_iff, hpoints, sanitize_text, sanitize_text, sanitize_text, hpoints,
    dropDirectives_append_line, dropPairs_append_line]

theorem sanitize_rows (rows : List Text) :
    (sanitize (Text.intercalate Render.rowSeparator rows)).text =
      Text.intercalate Render.rowSeparator (rows.map fun row => (sanitize row).text) := by
  induction rows with
  | nil =>
    change (⟨(dropPairs (dropDirectives []).1).1⟩ : Text) = _
    rw [dropDirectives_nil]
    rfl
  | cons first rows ih =>
    cases rows with
    | nil => rw [List.map_singleton, Text.intercalate_singleton, Text.intercalate_singleton]
    | cons next rows =>
      rw [List.map_cons] at ih
      rw [Text.intercalate_cons_cons, List.map_cons, List.map_cons,
        Text.intercalate_cons_cons, ← ih]
      exact sanitize_append_line ..

theorem sanitizerLog_eq_nil_iff {name : Text} {result : Sanitized} :
    Document.sanitizerLog name result = [] ↔ result.directives = 0 ∧ result.pairs = 0 := by
  unfold Document.sanitizerLog Sanitized.warning?
  split <;> simp_all

theorem sanitize_unchanged_iff (name text : Text) :
    (sanitize text).text = text ∧ Document.sanitizerLog name (sanitize text) = [] ↔
      ∀ brace : Brace, ¬ brace.marker <:+: text.points := by
  constructor
  · rintro ⟨-, hlog⟩
    obtain ⟨hdirectives, hpairs⟩ := sanitizerLog_eq_nil_iff.mp hlog
    have hfree : DirectiveFree text.points := (dropDirectives_snd_eq_zero_iff _).mp hdirectives
    rw [← dropDirectives_of_free hfree]
    exact (dropPairs_snd_eq_zero_iff _).mp hpairs
  · intro h
    have hfree : DirectiveFree text.points := directiveFree_of_markerFree h
    have hkept := dropDirectives_of_free hfree
    refine ⟨Text.ext ?_,
      sanitizerLog_eq_nil_iff.mpr ⟨(dropDirectives_snd_eq_zero_iff _).mpr hfree, ?_⟩⟩
    · rw [sanitize_text, hkept, dropPairs_of_markerFree h]
    · refine (dropPairs_snd_eq_zero_iff _).mpr ?_
      rwa [hkept]

/-- Sanitizing works on each line and on each row of a list by itself. It only deletes, and never a
line feed. A text is left as it is and without a warning exactly if no marker stands in it. -/
theorem sanitize_by_lines :
    (∀ a b : Text,
      (sanitize (a ++ "\n" ++ b)).text = (sanitize a).text ++ "\n" ++ (sanitize b).text) ∧
    (∀ rows : List Text, (sanitize (Text.intercalate Render.rowSeparator rows)).text =
      Text.intercalate Render.rowSeparator (rows.map fun row => (sanitize row).text)) ∧
    (∀ text : Text, (sanitize text).text.points.Sublist text.points ∧
      (sanitize text).text.points.count (.char '\n') = text.points.count (.char '\n')) ∧
    ∀ name text : Text,
      (sanitize text).text = text ∧ Document.sanitizerLog name (sanitize text) = [] ↔
        ∀ brace : Brace, ¬ brace.marker <:+: text.points := by
  refine ⟨sanitize_append_line, sanitize_rows, fun text => ⟨?_, ?_⟩, sanitize_unchanged_iff⟩
  · exact (dropPairs_sublist _).trans (stripped_dropDirectives text.points).sublist
  · rw [sanitize_text, count_newline_dropPairs, (stripped_dropDirectives text.points).count_newline]

example : (sanitize "a \x7b\x7b b\nc \x7d\x7d d").text = "a  b\nc  d" := by decide +kernel

end CatalogPress
