import CatalogPress.Render.Sanitize
import Mathlib.Data.List.Infix

/-!
What removing brace pairs from left to right leaves. Braces of one kind that stand in a row are
paired from the left, so the last one of an odd row stays. When all that lies between two braces
that stay is removed, they come to stand side by side.
-/
namespace CatalogPress

inductive Brace where
  | opening
  | closing
deriving DecidableEq, Inhabited, Repr

namespace Brace

def point : Brace → CodePoint
  | opening => .char '{'
  | closing => .char '}'

def marker (brace : Brace) : List CodePoint :=
  [brace.point, brace.point]

theorem point_injective : Function.Injective point := by
  intro a b h
  cases a <;> cases b <;> first | rfl | cases h

end Brace

namespace Sanitize

def pairRow (braces : List Brace) : List CodePoint :=
  braces.flatMap Brace.marker

@[simp] theorem pairRow_nil : pairRow [] = [] := rfl

@[simp] theorem pairRow_cons (brace : Brace) (braces : List Brace) :
    pairRow (brace :: braces) = brace.point :: brace.point :: pairRow braces := rfl

def Stays (point : CodePoint) (rest : List CodePoint) : Prop :=
  ∀ brace : Brace, point = brace.point → rest.head? ≠ some brace.point

theorem dropPairs_marker (brace : Brace) (rest : List CodePoint) :
    dropPairs (brace.point :: brace.point :: rest) =
      ((dropPairs rest).1, (dropPairs rest).2 + 1) := by
  cases brace <;> rfl

@[simp] theorem dropPairs_pair (brace : Brace) (rest : List CodePoint) :
    (dropPairs (brace.point :: brace.point :: rest)).1 = (dropPairs rest).1 := by
  rw [dropPairs_marker]

theorem dropPairs_cons {point : CodePoint} {rest : List CodePoint} (h : Stays point rest) :
    dropPairs (point :: rest) = (point :: (dropPairs rest).1, (dropPairs rest).2) := by
  rw [dropPairs.eq_def]
  split
  case h_1 tail heq =>
    obtain ⟨rfl, rfl⟩ := List.cons.inj heq
    exact absurd rfl (h .opening rfl)
  case h_2 tail heq =>
    obtain ⟨rfl, rfl⟩ := List.cons.inj heq
    exact absurd rfl (h .closing rfl)
  case h_3 heq =>
    obtain ⟨rfl, rfl⟩ := List.cons.inj heq
    rfl
  case h_4 heq => cases heq

theorem dropPairs_of_stays {point : CodePoint} {rest : List CodePoint} (h : Stays point rest) :
    (dropPairs (point :: rest)).1 = point :: (dropPairs rest).1 := by
  rw [dropPairs_cons h]

/-- Texts are read as the pass reads them: pair by pair where there is one, else point by point. -/
@[elab_as_elim] theorem pairInduction {motive : List CodePoint → Prop} (nil : motive [])
    (pair : ∀ (brace : Brace) rest, motive rest → motive (brace.point :: brace.point :: rest))
    (stays : ∀ point rest, Stays point rest → motive rest → motive (point :: rest)) :
    ∀ text, motive text := by
  intro text
  fun_induction dropPairs text with
  | case1 rest _ _ _ ih => exact pair .opening rest ih
  | case2 rest _ _ _ ih => exact pair .closing rest ih
  | case3 point rest hopening hclosing _ _ _ ih =>
    refine stays point rest ?_ ih
    intro brace hpoint hrest
    obtain ⟨tail, rfl⟩ := List.head?_eq_some_iff.mp hrest
    cases brace with
    | opening => exact hopening tail hpoint rfl
    | closing => exact hclosing tail hpoint rfl
  | case4 => exact nil

theorem dropPairs_pairRow_append (braces : List Brace) (rest : List CodePoint) :
    (dropPairs (pairRow braces ++ rest)).1 = (dropPairs rest).1 := by
  induction braces with
  | nil => rfl
  | cons brace braces ih => simpa using ih

theorem dropPairs_append {a b : List CodePoint}
    (seam : ∀ brace : Brace, a.getLast? = some brace.point → b.head? ≠ some brace.point) :
    (dropPairs (a ++ b)).1 = (dropPairs a).1 ++ (dropPairs b).1 := by
  induction a using pairInduction with
  | nil => simp [dropPairs]
  | pair brace rest ih =>
    have h : (dropPairs (rest ++ b)).1 = (dropPairs rest).1 ++ (dropPairs b).1 := by
      cases rest with
      | nil => simp [dropPairs]
      | cons point tail => exact ih (by simpa using seam)
    simpa using h
  | stays point rest hstays ih =>
    have hstays' : Stays point (rest ++ b) := by
      intro brace hpoint
      cases rest with
      | nil => exact seam brace (by simp [hpoint])
      | cons next tail => simpa using hstays brace hpoint
    have h : (dropPairs (rest ++ b)).1 = (dropPairs rest).1 ++ (dropPairs b).1 := by
      cases rest with
      | nil => simp [dropPairs]
      | cons next tail => exact ih (by simpa using seam)
    rw [List.cons_append, dropPairs_of_stays hstays', dropPairs_of_stays hstays, h,
      List.cons_append]

theorem dropPairs_odd (brace : Brace) (n : Nat) :
    (dropPairs (List.replicate (2 * n + 1) brace.point)).1 = [brace.point] := by
  induction n with
  | zero =>
    rw [List.replicate_one, dropPairs_of_stays (by simp [Stays])]
    rfl
  | succ n ih =>
    rw [show 2 * (n + 1) + 1 = (2 * n + 1) + 1 + 1 by omega, List.replicate_succ,
      List.replicate_succ, dropPairs_pair, ih]

theorem head?_dropPairs_eq_some_iff (brace : Brace) (text : List CodePoint) :
    (dropPairs text).1.head? = some brace.point ↔
      ∃ braces after, text = pairRow braces ++ brace.point :: after ∧
        after.head? ≠ some brace.point := by
  constructor
  · intro h
    induction text using pairInduction with
    | nil => simp [dropPairs] at h
    | pair first rest ih =>
      obtain ⟨braces, after, rfl, hafter⟩ := ih (by simpa using h)
      exact ⟨first :: braces, after, rfl, hafter⟩
    | stays point rest hstays _ =>
      rw [dropPairs_of_stays hstays, List.head?_cons, Option.some_inj] at h
      exact ⟨[], rest, by simp [h], hstays brace h⟩
  · rintro ⟨braces, after, rfl, hafter⟩
    have hstays : Stays brace.point after := by
      intro other hother
      rwa [← Brace.point_injective hother]
    rw [dropPairs_pairRow_append, dropPairs_of_stays hstays, List.head?_cons]

end Sanitize

/-- An odd row of equal braces, then pairs alone, the first of them of the other brace, then the
last of a row of the first brace. -/
def Brace.Meets (brace : Brace) (text : List CodePoint) : Prop :=
  ∃ before n braces after,
    text = before ++ List.replicate (2 * n + 1) brace.point ++
      (Sanitize.pairRow braces ++ brace.point :: after) ∧
    before.getLast? ≠ some brace.point ∧ braces ≠ [] ∧ braces.head? ≠ some brace ∧
    after.head? ≠ some brace.point

namespace Brace
open Sanitize

theorem Meets.pair {brace : Brace} {rest : List CodePoint} (h : brace.Meets rest) (first : Brace) :
    brace.Meets (first.point :: first.point :: rest) := by
  obtain ⟨before, n, braces, after, rfl, hbefore, hbraces⟩ := h
  -- The pair joins the odd row if it is of the same brace and nothing stands between.
  by_cases hjoin : before = [] ∧ first = brace
  · obtain ⟨rfl, rfl⟩ := hjoin
    refine ⟨[], n + 1, braces, after, ?_, by simp, hbraces⟩
    rw [show 2 * (n + 1) + 1 = (2 * n + 1) + 1 + 1 by omega, List.replicate_succ,
      List.replicate_succ]
    rfl
  · refine ⟨first.point :: first.point :: before, n, braces, after, by simp, ?_, hbraces⟩
    cases before with
    | nil => simpa [point_injective.eq_iff] using hjoin
    | cons next tail => simpa using hbefore

theorem Meets.stays {brace : Brace} {point : CodePoint} {rest : List CodePoint}
    (h : brace.Meets rest) (hstays : Stays point rest) : brace.Meets (point :: rest) := by
  obtain ⟨before, n, braces, after, rfl, hbefore, hbraces⟩ := h
  refine ⟨point :: before, n, braces, after, by simp, ?_, hbraces⟩
  cases before with
  | nil =>
    intro hpoint
    rw [List.getLast?_singleton, Option.some_inj] at hpoint
    exact hstays brace hpoint (by simp [List.replicate_succ])
  | cons next tail => simpa using hbefore

/-- A marker is left exactly where two braces come together. -/
theorem marker_infix_dropPairs_iff (brace : Brace) (text : List CodePoint) :
    brace.marker <:+: (dropPairs text).1 ↔ brace.Meets text := by
  constructor
  · intro h
    induction text using pairInduction with
    | nil => simp [dropPairs, marker] at h
    | pair first rest ih => exact (ih (by simpa using h)).pair first
    | stays point rest hstays ih =>
      rw [dropPairs_of_stays hstays, List.infix_cons_iff] at h
      rcases h with hhere | hlater
      · obtain ⟨rfl, hrest⟩ := List.cons_prefix_cons.mp hhere
        obtain ⟨tail, htail⟩ := hrest
        obtain ⟨braces, after, rfl, hafter⟩ :=
          (head?_dropPairs_eq_some_iff brace rest).mp (by rw [← htail]; rfl)
        refine ⟨[], 0, braces, after, rfl, by simp, ?_, ?_, hafter⟩
        · rintro rfl
          exact hstays brace rfl rfl
        · intro hhead
          obtain ⟨more, rfl⟩ := List.head?_eq_some_iff.mp hhead
          exact hstays brace rfl rfl
      · exact (ih hlater).stays hstays
  · rintro ⟨before, n, braces, after, rfl, hbefore, hbraces, hother, hafter⟩
    have hrow : (pairRow braces ++ brace.point :: after).head? ≠ some brace.point := by
      obtain ⟨first, braces, rfl⟩ := List.exists_cons_of_ne_nil hbraces
      simpa [point_injective.eq_iff] using hother
    have hfirst : (dropPairs (pairRow braces ++ brace.point :: after)).1.head? = some brace.point :=
      (head?_dropPairs_eq_some_iff brace _).mpr ⟨braces, after, rfl, hafter⟩
    obtain ⟨tail, htail⟩ := List.head?_eq_some_iff.mp hfirst
    have hodd : (dropPairs (List.replicate (2 * n + 1) brace.point ++
        (pairRow braces ++ brace.point :: after))).1 = brace.marker ++ tail := by
      rw [dropPairs_append, dropPairs_odd, htail]
      · rfl
      · intro other hlast
        have : other = brace := by
          simpa [List.getLast?_replicate, point_injective.eq_iff, eq_comm] using hlast
        rwa [this]
    rw [List.append_assoc, dropPairs_append, hodd]
    · exact ⟨_, tail, List.append_assoc ..⟩
    · intro other hlast hhead
      have : brace = other := by
        simpa [List.replicate_succ, point_injective.eq_iff] using hhead
      exact hbefore (by rw [hlast, this])

end Brace
end CatalogPress
