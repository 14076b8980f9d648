import CatalogPress.Proofs.Files.Guards
import CatalogPress.Proofs.Files.Sound
import Mathlib.Data.List.TakeWhile

/-!
Making a directory and those above it, for any path. Whatever the path looks like, nothing but
directories is made, and each lies where a front part of the path leads.
-/
namespace CatalogPress

namespace Path

theorem names_append_slash (a b : List CodePoint) :
    (ofText ⟨a ++ slash :: b⟩).names = (ofText ⟨a⟩).names ++ (ofText ⟨b⟩).names := by
  rw [ofText_names, Text.splitList_append_separator, List.map_append, List.filter_append]
  rfl

theorem names_append_slashes (points : List CodePoint) (count : Nat) :
    (ofText ⟨points ++ List.replicate count slash⟩).names = (ofText ⟨points⟩).names := by
  induction count with
  | zero => rw [List.replicate_zero, List.append_nil]
  | succ count ih =>
    rw [List.replicate_succ', ← List.append_assoc, names_append_slash, ih]
    exact List.append_nil _

theorem exists_slashes (points : List CodePoint) : ∃ count,
    points = (points.reverse.dropWhile (· = slash)).reverse ++ List.replicate count slash := by
  have hslashes : (points.reverse.takeWhile (· = slash)).reverse =
      List.replicate (points.reverse.takeWhile (· = slash)).reverse.length slash := by
    refine List.eq_replicate_of_mem fun point hpoint => ?_
    simpa using List.mem_takeWhile_imp (List.mem_reverse.mp hpoint)
  refine ⟨_, Eq.trans ?_ (congrArg _ hslashes)⟩
  rw [← List.reverse_append, List.takeWhile_append_dropWhile, List.reverse_reverse]

theorem isAbsolute_congr {a b : Text} (h : a.points.head? = b.points.head?) :
    (ofText a).isAbsolute = (ofText b).isAbsolute := by
  rw [Bool.eq_iff_iff, isAbsolute_ofText, isAbsolute_ofText, h]

theorem head?_of_prefix {a b : List CodePoint} (h : a <+: b) (hne : a ≠ []) :
    a.head? = b.head? := by
  obtain ⟨rest, rfl⟩ := h
  exact (List.head?_append_of_ne_nil a hne).symm

end Path

namespace FileSystem
open Fallible

variable {files after : FileSystem} {path : Path} {text : Text} {location : Location}

theorem place_of_names {a b : Path} (hnames : a.names = b.names)
    (habsolute : a.isAbsolute = b.isAbsolute) :
    files.place a = files.place b := by
  unfold place
  change (Path.append files.workingDirectory a).withoutParents.names.map _ =
    (Path.append files.workingDirectory b).withoutParents.names.map _
  rw [Path.append, Path.append, habsolute]
  split
  · rw [Path.withoutParents, Path.withoutParents, hnames]
  · rw [hnames]

/-- The places that the front parts of a path lead to. -/
def Through (files : FileSystem) (path : Path) (location : Location) : Prop :=
  ∃ front : Path, front.isAbsolute = path.isAbsolute ∧ front.names <+: path.names ∧
    location = files.place front

theorem through_self (files : FileSystem) (path : Path) : files.Through path (files.place path) :=
  ⟨path, rfl, List.prefix_rfl, rfl⟩

theorem Through.mono {other : Path} (h : files.Through path location)
    (habsolute : path.isAbsolute = other.isAbsolute) (hnames : path.names <+: other.names) :
    files.Through other location := by
  obtain ⟨front, hfront, hpre, rfl⟩ := h
  exact ⟨front, hfront.trans habsolute, hpre.trans hnames, rfl⟩

theorem through_congr (h : after.workingDirectory = files.workingDirectory) :
    after.Through path = files.Through path := by
  funext location
  unfold Through
  simp only [place_congr h]

theorem place_dropTrailingSlashes (files : FileSystem) (text : Text) :
    files.place (Path.ofText (dropTrailingSlashes text)) = files.place (Path.ofText text) := by
  obtain ⟨count, hpoints⟩ := Path.exists_slashes text.points
  generalize hkept : (text.points.reverse.dropWhile (· = Path.slash)).reverse = kept at hpoints
  have htext : text = ⟨kept ++ List.replicate count Path.slash⟩ := Text.ext hpoints
  have hnames : (Path.ofText text).names = (Path.ofText ⟨kept⟩).names := by
    rw [htext, Path.names_append_slashes]
  unfold dropTrailingSlashes
  dsimp only
  rw [hkept]
  split
  · rename_i hslashes
    obtain ⟨hempty, hne⟩ := hslashes
    obtain rfl := List.isEmpty_iff.mp hempty
    refine place_of_names hnames.symm (Path.isAbsolute_congr ?_)
    rw [hpoints]
    cases count with
    | zero =>
      change (!text.points.isEmpty) = true at hne
      rw [hpoints] at hne
      cases hne
    | succ count => rfl
  · rename_i hslashes
    refine place_of_names hnames.symm (Path.isAbsolute_congr ?_)
    rw [hpoints]
    cases kept with
    | cons point kept => rfl
    | nil =>
      cases count with
      | zero => rfl
      | succ count =>
        refine absurd ⟨rfl, ?_⟩ hslashes
        change (!text.points.isEmpty) = true
        rw [hpoints]
        rfl

theorem exists_splitLast (path : Text) : ∃ body tail,
    path.points = body ++ tail ∧ (body = [] ∨ ∃ front, body = front ++ [Path.slash]) ∧
      (splitLast path).1.points =
        if (body.reverse.dropWhile (· = Path.slash)).reverse.isEmpty then body
        else (body.reverse.dropWhile (· = Path.slash)).reverse := by
  have hrev := List.takeWhile_append_dropWhile (p := fun point => decide (point ≠ Path.slash))
    (l := path.points.reverse)
  have hfirst :=
    List.head?_dropWhile_not (fun point => decide (point ≠ Path.slash)) path.points.reverse
  unfold splitLast
  dsimp only
  generalize (path.points.reverse.takeWhile fun point => decide (point ≠ Path.slash)) =
    tail at hrev ⊢
  generalize (path.points.reverse.dropWhile fun point => decide (point ≠ Path.slash)) =
    body at hrev hfirst
  have hpoints : path.points = body.reverse ++ tail.reverse := by
    rw [← List.reverse_append, hrev, List.reverse_reverse]
  have htake : path.points.take (path.length - tail.reverse.length) = body.reverse := by
    rw [Text.length, hpoints, List.length_append, Nat.add_sub_cancel, List.take_left]
  refine ⟨body.reverse, tail.reverse, hpoints, ?_, by rw [htake]⟩
  cases body with
  | nil => exact .inl rfl
  | cons point body =>
    have hslash : point = Path.slash := by simpa using hfirst
    exact .inr ⟨body.reverse, by rw [hslash, List.reverse_cons]⟩

theorem splitLast_fst (path : Text) : (splitLast path).1.points <+: path.points ∧
    (Path.ofText (splitLast path).1).names <+: (Path.ofText path).names := by
  obtain ⟨body, tail, hpoints, hbody, hfst⟩ := exists_splitLast path
  obtain ⟨count, hslashes⟩ := Path.exists_slashes body
  have hpath : path = ⟨body ++ tail⟩ := Text.ext hpoints
  have hnames : (Path.ofText ⟨body⟩).names <+: (Path.ofText path).names := by
    obtain rfl | ⟨front, rfl⟩ := hbody
    · exact List.nil_prefix
    · rw [hpath, List.append_assoc, List.singleton_append,
        Path.names_append_slash, Path.names_append_slash]
      exact (List.prefix_append_right_inj _).mpr List.nil_prefix
  generalize (body.reverse.dropWhile (· = Path.slash)).reverse = kept at hslashes hfst
  have hsame : (Path.ofText ⟨body⟩).names = (Path.ofText ⟨kept⟩).names := by
    rw [hslashes, Path.names_append_slashes]
  have hhead : (splitLast path).1 = ⟨if kept.isEmpty then body else kept⟩ := Text.ext hfst
  rw [hhead, hpoints]
  split
  · exact ⟨List.prefix_append _ _, hnames⟩
  · refine ⟨?_, hsame ▸ hnames⟩
    rw [hslashes, List.append_assoc]
    exact List.prefix_append _ _

theorem aboveAndName_fst (path : Text) : (aboveAndName path).1.points <+: path.points ∧
    (Path.ofText (aboveAndName path).1).names <+: (Path.ofText path).names := by
  have hfirst := splitLast_fst path
  have hsecond := splitLast_fst (splitLast path).1
  rw [aboveAndName]
  dsimp only
  split
  · exact ⟨hsecond.1.trans hfirst.1, hsecond.2.trans hfirst.2⟩
  · exact hfirst

theorem changes_makeDirectory {written : Location → Prop} (h : files.Sound)
    (hmake : files.makeDirectory text = .ok after) :
    Changes written (· = files.place (Path.ofText text)) files after := by
  rw [makeDirectory, bind_eq_ok] at hmake
  obtain ⟨location, hlocation, hmake⟩ := hmake
  obtain ⟨heq, hplace⟩ := h.resolve (mapError_eq_ok.mp hlocation)
  rw [place_dropTrailingSlashes] at heq
  subst heq
  split at hmake
  · cases hmake
  · rename_i hnone
    cases hmake
    have hnot : files.node? (files.place (Path.ofText text)) ≠ some .directory := hnone ▸ nofun
    exact changes_put h (hplace.resolve_left hnot) hnot (.inr ⟨rfl, hnone, rfl⟩)

theorem changes_ensureDirectory {written : Location → Prop} (h : files.Sound)
    (hensure : files.ensureDirectory text = .ok after) :
    Changes written (· = files.place (Path.ofText text)) files after := by
  rw [ensureDirectory] at hensure
  split at hensure
  · rename_i made hmake
    cases hensure
    exact changes_makeDirectory h hmake
  · split at hensure
    · cases hensure
      exact .refl h
    · cases hensure

theorem changes_ensureFromTop {written : Location → Prop} (h : files.Sound)
    (depth : Nat) (text : Text) :
    Changes written (files.Through (Path.ofText text)) files
      (ensureFromTop depth text files).2 := by
  induction depth generalizing text files with
  | zero => exact .refl h
  | succ depth ih =>
    obtain ⟨hpre, hnames⟩ := aboveAndName_fst text
    have hlast {middle : FileSystem}
        (hmiddle : Changes written (files.Through (Path.ofText text)) files middle) :
        Changes written (files.Through (Path.ofText text)) files (middle.ensureLast text).2 := by
      unfold ensureLast
      split
      · rename_i made hensure
        refine hmiddle.trans ((changes_ensureDirectory hmiddle.sound hensure).mono (fun _ => id) ?_)
        rintro _ rfl
        rw [place_congr hmiddle.workingDirectory]
        exact files.through_self _
      · exact hmiddle
    rw [ensureFromTop]
    generalize aboveAndName text = parts at hpre hnames ⊢
    obtain ⟨head, name⟩ := parts
    dsimp only at hpre hnames ⊢
    split
    · rename_i hmissing
      have hne : head.points ≠ [] := by
        rw [Bool.and_eq_true, Bool.and_eq_true] at hmissing
        intro hempty
        cases (congrArg (!·.isEmpty) hempty).symm.trans hmissing.1.1
      have hhead :
          Changes written (files.Through (Path.ofText text)) files
          (ensureFromTop depth head files).2 :=
        (ih h head).mono (fun _ => id) fun location hthrough =>
          hthrough.mono (Path.isAbsolute_congr (Path.head?_of_prefix hpre hne)) hnames
      generalize ensureFromTop depth head files = result at hhead
      split
      · split
        · exact hhead
        · exact hlast hhead
      · split
        · exact hhead
        · exact hlast hhead
      · exact hhead
    · exact hlast (.refl h)

end FileSystem
end CatalogPress
