import CatalogPress.Text.Class
import Mathlib.Data.List.DropRight

/-!
Stretches of characters of one class, and trimming. A trimmed text has no blank at its ends, and
blanks added there are trimmed away again.
-/
namespace CatalogPress.Text
variable {α : Type} {p : α → Bool}

theorem head?_dropWhile (p : α → Bool) (list : List α) :
    ∀ a ∈ (list.dropWhile p).head?, p a = false := by
  intro a ha
  have h := List.head?_dropWhile_not p list
  rw [Option.mem_def.mp ha] at h
  exact h

theorem dropWhile_of_head? {list : List α} (h : ∀ a ∈ list.head?, p a = false) :
    list.dropWhile p = list := by
  cases list with
  | nil => rfl
  | cons a list => exact List.dropWhile_cons_of_neg (by simp [h a rfl])

theorem takeWhile_append_of_head? {a b : List α} (ha : ∀ x ∈ a, p x = true)
    (hb : ∀ x ∈ b.head?, p x = false) : (a ++ b).takeWhile p = a := by
  rw [List.takeWhile_append_of_pos ha]
  cases b with
  | nil => simp
  | cons x b => simp [hb x rfl]

theorem dropWhile_append_of_head? {a b : List α} (ha : ∀ x ∈ a, p x = true)
    (hb : ∀ x ∈ b.head?, p x = false) : (a ++ b).dropWhile p = b := by
  rw [List.dropWhile_append_of_pos ha, dropWhile_of_head? hb]

/-- A stretch of one class ends where a character of another class stands, so there is one way to
cut it off. -/
theorem append_inj_of_head? {a b c d : List α} (ha : ∀ x ∈ a, p x = true)
    (hb : ∀ x ∈ b.head?, p x = false) (hc : ∀ x ∈ c, p x = true) (hd : ∀ x ∈ d.head?, p x = false)
    (h : a ++ b = c ++ d) : a = c ∧ b = d := by
  have hfront : a = c := by
    rw [← takeWhile_append_of_head? ha hb, h, takeWhile_append_of_head? hc hd]
  rw [hfront] at h
  exact ⟨hfront, List.append_cancel_left h⟩

theorem forall_mem_head?_cons {P : α → Prop} {a : α} {list : List α} :
    (∀ x ∈ (a :: list).head?, P x) ↔ P a := by
  simp

theorem forall_mem_getLast?_append {P : α → Prop} {a : α} {list : List α} :
    (∀ x ∈ (list ++ [a]).getLast?, P x) ↔ P a := by
  simp

theorem isBlank_of_isWord {c : Char} (h : isWord c = true) : isBlank c = false := by
  have hcodes : ∀ n ∈ blankCodes, isWord (Char.ofNat n) = false := by decide +kernel
  by_contra hblank
  have hmem : c.toNat ∈ blankCodes := by simpa [isBlank] using hblank
  have hword := hcodes c.toNat hmem
  rw [Char.ofNat_toNat, h] at hword
  cases hword

def AllBlank (text : List Char) : Prop :=
  ∀ c ∈ text, isBlank c = true

theorem allBlank_nil : AllBlank [] :=
  nofun

theorem allBlank_singleton {c : Char} : AllBlank [c] ↔ isBlank c = true :=
  List.forall_mem_singleton

def IsTrimmed (text : List Char) : Prop :=
  (∀ c ∈ text.head?, isBlank c = false) ∧ ∀ c ∈ text.getLast?, isBlank c = false

theorem trimStart_append {blanks : List Char} (h : AllBlank blanks) (text : List Char) :
    trimStart (blanks ++ text) = trimStart text :=
  List.dropWhile_append_of_pos h

theorem trimEnd_append {blanks : List Char} (h : AllBlank blanks) (text : List Char) :
    trimEnd (text ++ blanks) = trimEnd text := by
  unfold trimEnd
  rw [List.reverse_append, List.dropWhile_append_of_pos (by simpa [AllBlank] using h)]

theorem trimStart_of_head? {text : List Char} (h : ∀ c ∈ text.head?, isBlank c = false) :
    trimStart text = text :=
  dropWhile_of_head? h

theorem trimEnd_of_getLast? {text : List Char} (h : ∀ c ∈ text.getLast?, isBlank c = false) :
    trimEnd text = text := by
  unfold trimEnd
  rw [dropWhile_of_head? (by simpa using h), List.reverse_reverse]

theorem trimStart_append_of_head? {b : List Char}
    (h : ∀ c ∈ b.head?, isBlank c = false) (a : List Char) :
    trimStart (a ++ b) = trimStart a ++ b := by
  unfold trimStart
  rw [List.dropWhile_append]
  split
  · rename_i hempty
    rw [List.isEmpty_iff.mp hempty, dropWhile_of_head? h, List.nil_append]
  · rfl

theorem trimEnd_append_of_getLast? {a : List Char} (h : ∀ c ∈ a.getLast?, isBlank c = false)
    (b : List Char) : trimEnd (a ++ b) = a ++ trimEnd b := by
  have hstart : trimStart (b.reverse ++ a.reverse) = trimStart b.reverse ++ a.reverse :=
    trimStart_append_of_head? (by simpa using h) _
  unfold trimStart at hstart
  unfold trimEnd
  rw [List.reverse_append, hstart, List.reverse_append, List.reverse_reverse]

@[simp] theorem trimStart_trimStart (text : List Char) :
    trimStart (trimStart text) = trimStart text :=
  trimStart_of_head? (head?_dropWhile isBlank text)

@[simp] theorem trim_trimStart (text : List Char) : trim (trimStart text) = trim text := by
  simp [trim]

theorem exists_eq_append_trimStart (text : List Char) :
    ∃ blanks, AllBlank blanks ∧ text = blanks ++ trimStart text :=
  ⟨text.takeWhile isBlank, fun _ h => List.mem_takeWhile_imp h,
    List.takeWhile_append_dropWhile.symm⟩

theorem exists_eq_trimEnd_append (text : List Char) :
    ∃ blanks, AllBlank blanks ∧ text = trimEnd text ++ blanks :=
  ⟨text.rtakeWhile isBlank, fun _ h => List.mem_rtakeWhile_imp h,
    List.rdropWhile_append_rtakeWhile.symm⟩

theorem trim_isInfix (text : List Char) : trim text <:+: text := by
  obtain ⟨before, -, hbefore⟩ := exists_eq_append_trimStart text
  obtain ⟨after, -, hafter⟩ := exists_eq_trimEnd_append (trimStart text)
  refine ⟨before, after, ?_⟩
  rw [List.append_assoc]
  unfold trim
  rw [← hafter, ← hbefore]

theorem head?_trimEnd {text : List Char} (h : ∀ c ∈ text.head?, isBlank c = false) :
    ∀ c ∈ (trimEnd text).head?, isBlank c = false := by
  intro c hc
  obtain ⟨blanks, -, heq⟩ := exists_eq_trimEnd_append text
  refine h c ?_
  rw [heq, List.head?_append, Option.mem_def.mp hc]
  rfl

theorem getLast?_trimEnd (text : List Char) : ∀ c ∈ (trimEnd text).getLast?, isBlank c = false := by
  unfold trimEnd
  rw [List.getLast?_reverse]
  exact head?_dropWhile isBlank text.reverse

theorem isTrimmed_trim (text : List Char) : IsTrimmed (trim text) :=
  ⟨head?_trimEnd (head?_dropWhile isBlank text), getLast?_trimEnd _⟩

theorem trim_of_isTrimmed {text : List Char} (h : IsTrimmed text) : trim text = text := by
  rw [trim, trimStart_of_head? h.1, trimEnd_of_getLast? h.2]

theorem trimStart_eq_nil_iff {text : List Char} : trimStart text = [] ↔ AllBlank text :=
  List.dropWhile_eq_nil_iff

theorem trimEnd_eq_nil_iff {text : List Char} : trimEnd text = [] ↔ AllBlank text :=
  List.rdropWhile_eq_nil_iff

theorem trim_append_of_allBlank {blanks : List Char} (h : AllBlank blanks) (text : List Char) :
    trim (text ++ blanks) = trim text := by
  unfold trim
  by_cases htext : trimStart text = []
  · have hall : trimStart (text ++ blanks) = [] := by
      rw [trimStart_append (trimStart_eq_nil_iff.mp htext), trimStart_eq_nil_iff]
      exact h
    rw [hall, htext]
  · have hstart : trimStart (text ++ blanks) = trimStart text ++ blanks := by
      unfold trimStart at htext ⊢
      rw [List.dropWhile_append, if_neg (by simpa using htext)]
    rw [hstart, trimEnd_append h]

@[simp] theorem trim_trimEnd (text : List Char) : trim (trimEnd text) = trim text := by
  obtain ⟨blanks, hblanks, heq⟩ := exists_eq_trimEnd_append text
  have htrim := trim_append_of_allBlank hblanks (trimEnd text)
  rw [← heq] at htrim
  exact htrim.symm

theorem trim_cons_blank {c : Char} (h : isBlank c = true) (text : List Char) :
    trim (c :: text) = trim text := by
  have hstart : trimStart (c :: text) = trimStart text :=
    trimStart_append (allBlank_singleton.mpr h) text
  rw [← trim_trimStart, hstart, trim_trimStart]

theorem trim_append_append {before after : List Char} (hbefore : AllBlank before)
    (hafter : AllBlank after) (text : List Char) :
    trim (before ++ (text ++ after)) = trim text := by
  rw [← trim_trimStart, trimStart_append hbefore, trim_trimStart, trim_append_of_allBlank hafter]

theorem mem_trim {text : List Char} {c : Char} (hc : isBlank c = false) (h : c ∈ text) :
    c ∈ trim text := by
  have hkept {blanks : List Char} (hblanks : AllBlank blanks) : c ∉ blanks := by
    intro hmem
    rw [hblanks c hmem] at hc
    cases hc
  obtain ⟨before, hbefore, heq⟩ := exists_eq_append_trimStart text
  rw [heq, List.mem_append] at h
  obtain ⟨after, hafter, heq⟩ := exists_eq_trimEnd_append (trimStart text)
  have h := h.resolve_left (hkept hbefore)
  rw [heq, List.mem_append] at h
  exact h.resolve_right (hkept hafter)

theorem getLast?_trim {text : List Char} {c : Char} (hc : isBlank c = false)
    (h : text.getLast? = some c) :
    (trim text).getLast? = some c := by
  obtain ⟨init, rfl⟩ := List.getLast?_eq_some_iff.mp h
  have hlast (a : List Char) : ∀ d ∈ (a ++ [c]).getLast?, isBlank d = false :=
    forall_mem_getLast?_append.mpr hc
  rw [trim, trimStart_append_of_head? (forall_mem_head?_cons.mpr hc), trimEnd_of_getLast? (hlast _),
    List.getLast?_concat]

end CatalogPress.Text
