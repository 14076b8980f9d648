import CatalogPress.Log.Session
import Mathlib.Logic.Function.Basic

/-!
What a log file and its backups hold while lines are written. When the file would get too large,
what each holds goes to the next, so that only what the last held is ever given up, and everything
else stays in order.
-/
namespace CatalogPress

/-- The bytes of a line. One with a surrogate has none. -/
def Text.bytes (line : Text) : ByteArray :=
  (Utf8.encode line).toOption.getD .empty

def Text.allBytes (lines : List Text) : ByteArray :=
  lines.foldr (·.bytes ++ ·) .empty

theorem Text.allBytes_append (lines more : List Text) :
    allBytes (lines ++ more) = allBytes lines ++ allBytes more := by
  induction lines with
  | nil => exact ByteArray.empty_append.symm
  | cons line lines ih =>
    change line.bytes ++ allBytes (lines ++ more) = line.bytes ++ allBytes lines ++ allBytes more
    rw [ih, ByteArray.append_assoc]

/-- What a log file and its backups hold, by their numbers. The file itself has the number 0. -/
abbrev Slots := Nat → Option ByteArray

namespace Slots
open Function

/-- Each takes what the one before it held, and the file is empty. The last keeps what it held if
there was nothing before it. -/
def rotated (backups : Nat) (slots : Slots) : Slots
  | 0 => some .empty
  | count + 1 =>
    if count + 1 < backups then slots count
    else if count + 1 = backups then (slots count).or (slots (count + 1))
    else slots (count + 1)

def current (slots : Slots) : ByteArray :=
  (slots 0).getD .empty

def added (slots : Slots) (bytes : ByteArray) : Slots :=
  update slots 0 (some (slots.current ++ bytes))

def written (backups : Nat) (slots : Slots) (line : Text) : Slots :=
  (if Session.sizeLimit ≤ slots.current.size + line.length then slots.rotated backups
    else slots).added line.bytes

def joined : Nat → Slots → ByteArray
  | 0, slots => slots.current
  | count + 1, slots => (slots (count + 1)).getD .empty ++ joined count slots

def passed (count : Nat) (slots : Slots) : Slots :=
  if (slots count).isSome then update (update slots (count + 1) (slots count)) count none else slots

def passedFrom : Nat → Slots → Slots
  | 0, slots => slots
  | count + 1, slots => passedFrom count (slots.passed (count + 1))

variable {slots : Slots} {backups : Nat}

@[simp] theorem current_added (slots : Slots) (bytes : ByteArray) :
    (slots.added bytes).current = slots.current ++ bytes := by
  rw [current, added, update_self, Option.getD_some]

theorem added_added (slots : Slots) (bytes more : ByteArray) :
    (slots.added bytes).added more = slots.added (bytes ++ more) := by
  rw [added, current_added, added, update_idem, added, ByteArray.append_assoc]

theorem added_empty (h : (slots 0).isSome) : slots.added .empty = slots := by
  obtain ⟨bytes, hbytes⟩ := Option.isSome_iff_exists.mp h
  rw [added, current, hbytes, Option.getD_some, ByteArray.append_empty, ← hbytes, update_eq_self]

theorem passedFrom_zero (slots : Slots) (last : Nat) : passedFrom last slots 0 = slots 0 := by
  induction last generalizing slots with
  | zero => rfl
  | succ last ih =>
    rw [passedFrom, ih, passed]
    split <;> simp [update]

theorem passedFrom_of_lt (slots : Slots) {last number : Nat} (h : last + 1 < number) :
    passedFrom last slots number = slots number := by
  induction last generalizing slots with
  | zero => rfl
  | succ last ih =>
    rw [passedFrom, ih _ (by omega), passed]
    split
    · rw [update_of_ne (by omega), update_of_ne (by omega)]
    · rfl

theorem passedFrom_succ (slots : Slots) {last number : Nat} (h : number < last) :
    passedFrom last slots (number + 2) =
      if number + 1 = last then (slots (number + 1)).or (slots (number + 2)) else
        slots (number + 1) := by
  induction last generalizing slots with
  | zero => cases h
  | succ last ih =>
    rw [passedFrom]
    by_cases heq : number = last
    · subst heq
      rw [if_pos rfl, passedFrom_of_lt _ (Nat.lt_succ_self _), passed]
      cases hslot : slots (number + 1) with
      | none => simp
      | some bytes => simp [update]
    · have hne : number + 1 ≠ last + 1 := fun h => heq (Nat.succ.inj h)
      have hbefore : slots.passed (last + 1) (number + 1) = slots (number + 1) := by
        rw [passed]
        split
        · rw [update_of_ne hne, update_of_ne (by omega)]
        · rfl
      rw [ih _ (by omega), if_neg hne, hbefore]
      split
      · rename_i hlast
        have hnone : slots.passed (last + 1) (number + 2) = none := by
          rw [passed, ← hlast]
          split
          · exact update_self ..
          · rename_i hnot
            exact Option.not_isSome_iff_eq_none.mp hnot
        rw [hnone, Option.or_none]
      · rfl

/-- Passing on the backups, then the file itself as the first of them, is a rotation. -/
theorem rotated_eq (h : (slots 0).isSome) (last : Nat) :
    rotated (last + 1) slots =
      update (update (update (update (passedFrom last slots) 1 none) 1 (slots 0)) 0 none) 0
        (some .empty) := by
  funext number
  match number with
  | 0 => simp [rotated]
  | 1 =>
    obtain ⟨bytes, hbytes⟩ := Option.isSome_iff_exists.mp h
    simp only [rotated, hbytes, Option.some_or, update_of_ne Nat.one_ne_zero, update_self]
    by_cases hlast : 0 + 1 < last + 1
    · rw [if_pos hlast]
    · rw [if_neg hlast, if_pos (by omega)]
  | number + 2 =>
    have hne : number + 2 ≠ 1 := by omega
    rw [update_of_ne (Nat.succ_ne_zero _), update_of_ne (Nat.succ_ne_zero _),
      update_of_ne hne, update_of_ne hne, rotated]
    by_cases hlt : number < last
    · rw [passedFrom_succ slots hlt]
      by_cases hlast : number + 1 = last
      · rw [if_neg (by omega), if_pos (by omega), if_pos hlast]
      · rw [if_pos (by omega), if_neg hlast]
    · rw [passedFrom_of_lt slots (by omega), if_neg (by omega), if_neg (by omega)]

theorem joined_rotated {count : Nat} (h : count + 1 < backups) :
    joined (count + 1) (rotated backups slots) = joined count slots := by
  induction count with
  | zero =>
    rw [joined, joined, joined, rotated, if_pos h]
    exact ByteArray.append_empty
  | succ count ih =>
    rw [joined, ih (by omega), rotated, if_pos h]
    rfl

theorem exists_dropped_rotated (slots : Slots) (hpos : 0 < backups) (h : (slots 0).isSome) :
    ∃ dropped, dropped ++ joined backups (rotated backups slots) = joined backups slots := by
  obtain ⟨last, rfl⟩ : ∃ last, backups = last + 1 := ⟨backups - 1, by omega⟩
  have htop : rotated (last + 1) slots (last + 1) = (slots last).or (slots (last + 1)) := by
    rw [rotated, if_neg (Nat.lt_irrefl _), if_pos rfl]
  rw [joined, joined, htop]
  cases last with
  | zero =>
    obtain ⟨bytes, hbytes⟩ := Option.isSome_iff_exists.mp h
    refine ⟨(slots 1).getD .empty, ?_⟩
    simp only [joined, current, rotated, hbytes, Option.some_or,
      Option.getD_some, ByteArray.append_empty]
  | succ last =>
    rw [joined_rotated (Nat.lt_succ_self _), joined]
    cases hslot : slots (last + 1) with
    | none => exact ⟨.empty, by simp⟩
    | some bytes => exact ⟨(slots (last + 2)).getD .empty, by simp⟩

theorem joined_added (slots : Slots) (count : Nat) (bytes : ByteArray) :
    joined count (slots.added bytes) = joined count slots ++ bytes := by
  induction count with
  | zero => exact current_added slots bytes
  | succ count ih =>
    rw [joined, ih, joined, added, update_of_ne (Nat.succ_ne_zero _), ByteArray.append_assoc]

theorem isSome_written (slots : Slots) (line : Text) : (written backups slots line 0).isSome := by
  rw [written, added, update_self]
  rfl

/-- What is held after lines have been written is what was held before and then the lines, but for
what was given up at the front. -/
theorem exists_dropped (slots : Slots) (hpos : 0 < backups)
    (h : (slots 0).isSome) (lines : List Text) :
    ∃ dropped, dropped ++ joined backups (lines.foldl (written backups) slots) =
      joined backups slots ++ Text.allBytes lines := by
  induction lines generalizing slots with
  | nil => exact ⟨.empty, by simp [Text.allBytes]⟩
  | cons line lines ih =>
    obtain ⟨last, hlast⟩ := ih _ (isSome_written slots line)
    have hline : ∃ dropped, dropped ++ joined backups (written backups slots line) =
        joined backups slots ++ line.bytes := by
      rw [written]
      split
      · obtain ⟨dropped, hdropped⟩ := exists_dropped_rotated slots hpos h
        exact ⟨dropped, by rw [joined_added, ← ByteArray.append_assoc, hdropped]⟩
      · exact ⟨.empty, by rw [joined_added, ByteArray.empty_append]⟩
    obtain ⟨first, hfirst⟩ := hline
    refine ⟨first ++ last, ?_⟩
    rw [List.foldl_cons, ByteArray.append_assoc, hlast, ← ByteArray.append_assoc,
      hfirst, ByteArray.append_assoc]
    rfl

theorem joined_congr {slots' : Slots} {count : Nat}
    (h : ∀ number ≤ count, slots number = slots' number) :
    joined count slots = joined count slots' := by
  induction count with
  | zero => rw [joined, joined, current, current, h 0 (Nat.le_refl 0)]
  | succ count ih =>
    rw [joined, joined, h _ (Nat.le_refl _), ih fun number hle => h number (Nat.le_succ_of_le hle)]

def Fit : Nat → List Text → Prop
  | _, [] => True
  | size, line :: lines =>
    size + line.length < Session.sizeLimit ∧ Fit (size + line.bytes.size) lines

instance decidableFit : (size : Nat) → (lines : List Text) → Decidable (Fit size lines)
  | _, [] => isTrue trivial
  | _, _ :: lines => @instDecidableAnd _ _ _ (decidableFit _ lines)

theorem fit_append {size : Nat} {lines more : List Text} :
    Fit size (lines ++ more) ↔ Fit size lines ∧ Fit (size + (Text.allBytes lines).size) more := by
  induction lines generalizing size with
  | nil => simp [Fit, Text.allBytes]
  | cons line lines ih =>
    have hsize :
        (Text.allBytes (line :: lines)).size = line.bytes.size + (Text.allBytes lines).size :=
      ByteArray.size_append
    rw [List.cons_append, Fit, Fit, ih, hsize, Nat.add_assoc, and_assoc]

end Slots
end CatalogPress
