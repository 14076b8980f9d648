import CatalogPress.Proofs.Files.Reading
import CatalogPress.Proofs.Text.Split

/-!
Paths as bytes. A byte below 0x80 stands for itself and for nothing else, so a path falls apart at
the same slashes whether it is seen as bytes or as text, and the names that mean something are known
by their bytes.
-/
namespace CatalogPress

namespace Text

def HasBytes (text : Text) : Prop :=
  ∀ point ∈ text.points, (Utf8.nameBytes? point).isSome = true

end Text

namespace Utf8

theorem Encoded.ascii_or {bytes : List UInt8} {value : Nat} (h : Encoded bytes value) :
    (value < 0x80 ∧ bytes = [UInt8.ofNat value]) ∨ (bytes ≠ [] ∧ ∀ b ∈ bytes, 0x80 ≤ b.toNat) := by
  cases h with
  | one ha => exact .inl ⟨ha, by rw [UInt8.ofNat_toNat]⟩
  | two hlow hhigh hb =>
    rw [maySecond_iff] at hb
    refine .inr ⟨List.cons_ne_nil _ _, ?_⟩
    simp only [List.mem_cons, List.not_mem_nil, or_false, forall_eq_or_imp, forall_eq]
    omega
  | three hlow hhigh hb hc =>
    rw [maySecond_iff] at hb
    rw [isTail_iff] at hc
    refine .inr ⟨List.cons_ne_nil _ _, ?_⟩
    simp only [List.mem_cons, List.not_mem_nil, or_false, forall_eq_or_imp, forall_eq]
    omega
  | four hlow hhigh hb hc hd =>
    rw [maySecond_iff] at hb
    rw [isTail_iff] at hc hd
    refine .inr ⟨List.cons_ne_nil _ _, ?_⟩
    simp only [List.mem_cons, List.not_mem_nil, or_false, forall_eq_or_imp, forall_eq]
    omega

theorem nameBytes?_char (c : Char) : nameBytes? (.char c) = some (String.utf8EncodeChar c) := by
  have hvalid : c.toNat < 0xd800 ∨ 0xdfff < c.toNat ∧ c.toNat < 0x110000 := c.valid
  refine if_neg ?_
  change ¬ (0xdc80 ≤ c.toNat ∧ c.toNat ≤ 0xdcff)
  omega

theorem nameBytes?_cases {point : CodePoint} {bytes : List UInt8}
    (h : nameBytes? point = some bytes) :
    (∃ c : Char, c.toNat < 0x80 ∧ point = .char c ∧ bytes = [UInt8.ofNat c.toNat]) ∨
      (bytes ≠ [] ∧ ∀ b ∈ bytes, 0x80 ≤ b.toNat) := by
  cases point with
  | char c =>
    rw [nameBytes?_char] at h
    cases h
    obtain ⟨hascii, hbytes⟩ | hhigh := (encoded_utf8EncodeChar c).ascii_or
    · exact .inl ⟨c, hascii, rfl, hbytes⟩
    · exact .inr hhigh
  | surrogate offset =>
    by_cases hrange : (CodePoint.surrogate offset).Nameable
    · have hbytes := (if_pos hrange).symm.trans h
      cases hbytes
      obtain ⟨hlow, hhigh⟩ := hrange
      refine .inr ⟨List.cons_ne_nil _ _, fun b hb => ?_⟩
      rw [List.mem_singleton.mp hb, toNat_ofNat (by omega)]
      omega
    · cases (if_neg hrange).symm.trans h

@[simp] theorem nameBytes_nil : nameBytes ⟨[]⟩ = [] := rfl

theorem nameBytes_cons (point : CodePoint) (points : List CodePoint) :
    nameBytes ⟨point :: points⟩ = (nameBytes? point).getD [] ++ nameBytes ⟨points⟩ := rfl

theorem ofNat_ne {b : UInt8} {n : Nat} (h : n < 0x80) (hb : 0x80 ≤ b.toNat) :
    b ≠ UInt8.ofNat n := by
  rintro rfl
  rw [toNat_ofNat (by omega)] at hb
  omega

theorem toNat_injective {c d : Char} (h : c.toNat = d.toNat) : c = d :=
  Char.toNat_inj.mp h

theorem separator_not_mem {point : CodePoint} (h : point ≠ Path.slash) :
    FileName.separator ∉ (nameBytes? point).getD [] := by
  cases hbytes : nameBytes? point with
  | none => exact List.not_mem_nil
  | some bytes =>
    obtain ⟨c, hascii, rfl, rfl⟩ | ⟨-, hhigh⟩ := nameBytes?_cases hbytes
    · intro hmem
      have hvalue := congrArg UInt8.toNat (List.mem_singleton.mp hmem)
      rw [toNat_ofNat (by omega)] at hvalue
      exact h (congrArg CodePoint.char (toNat_injective hvalue.symm))
    · intro hmem
      have hlow := hhigh _ hmem
      revert hlow
      decide

theorem head?_nameBytes {text : Text} (h : text.HasBytes) :
    (nameBytes text).head? = some FileName.separator ↔ text.points.head? = some Path.slash := by
  obtain ⟨points⟩ := text
  cases points with
  | nil => exact iff_of_false nofun nofun
  | cons point points =>
    by_cases hslash : point = Path.slash
    · subst hslash
      exact iff_of_true rfl rfl
    · refine iff_of_false (fun hhead => ?_) fun hhead => hslash (Option.some.inj hhead)
      obtain ⟨bytes, hbytes⟩ := Option.isSome_iff_exists.mp (h point List.mem_cons_self)
      have hnot := separator_not_mem hslash
      rw [nameBytes_cons, hbytes] at hhead
      rw [hbytes] at hnot
      cases bytes with
      | nil =>
        obtain ⟨c, -, -, hne⟩ | ⟨hne, -⟩ := nameBytes?_cases hbytes
        · cases hne
        · exact hne rfl
      | cons b bytes => exact hnot (Option.some.inj hhead ▸ List.mem_cons_self)

/-- A path falls apart at the same places as text and as bytes. -/
theorem splitList_nameBytes (points : List CodePoint) :
    Text.splitList FileName.separator (nameBytes ⟨points⟩) =
      (Text.splitList Path.slash points).map (nameBytes ⟨·⟩) := by
  induction points with
  | nil => rfl
  | cons point points ih =>
    obtain ⟨part, parts, hparts⟩ :=
      List.exists_cons_of_ne_nil (Text.splitList_ne_nil Path.slash points)
    rw [hparts, List.map_cons] at ih
    rw [nameBytes_cons, Text.splitList, hparts]
    by_cases hslash : point = Path.slash
    · subst hslash
      change Text.splitList FileName.separator (FileName.separator :: nameBytes ⟨points⟩) = _
      rw [Text.splitList, if_pos rfl, if_pos rfl, ih]
      rfl
    · rw [if_neg hslash, Text.splitList_append_of_not_mem (separator_not_mem hslash) ih]
      rfl

/-- Bytes below 0x80 are those of one text only. -/
theorem points_of_nameBytes (chars : List Char) {points : List CodePoint}
    (h : Text.HasBytes ⟨points⟩) (hascii : ∀ c ∈ chars, c.toNat < 0x80)
    (hbytes : nameBytes ⟨points⟩ = chars.map (UInt8.ofNat ·.toNat)) : points = chars.map .char := by
  induction points generalizing chars with
  | nil =>
    cases chars with
    | nil => rfl
    | cons c chars => cases hbytes
  | cons point points ih =>
    obtain ⟨hpoint, hpoints⟩ := List.forall_mem_cons.mp h
    obtain ⟨bytes, hsome⟩ := Option.isSome_iff_exists.mp hpoint
    rw [nameBytes_cons, hsome] at hbytes
    obtain ⟨c, hc, rfl, rfl⟩ | ⟨hne, hhigh⟩ := nameBytes?_cases hsome
    · cases chars with
      | nil => cases hbytes
      | cons d chars =>
        obtain ⟨hd, hascii⟩ := List.forall_mem_cons.mp hascii
        obtain ⟨hhead, htail⟩ := List.cons.inj hbytes
        have hvalue := congrArg UInt8.toNat hhead
        rw [toNat_ofNat (by omega), toNat_ofNat (by omega)] at hvalue
        rw [ih chars hpoints hascii htail, toNat_injective hvalue]
        rfl
    · obtain ⟨b, bytes, rfl⟩ := List.exists_cons_of_ne_nil hne
      cases chars with
      | nil => cases hbytes
      | cons d chars =>
        obtain ⟨hd, -⟩ := List.forall_mem_cons.mp hascii
        exact absurd (List.cons.inj hbytes).1 (ofNat_ne hd (hhigh b List.mem_cons_self))

variable {name : Text}

theorem toNat_point_lt : '.'.toNat < 0x80 := by decide

theorem nameBytes_eq_nil_iff (h : name.HasBytes) : nameBytes name = [] ↔ name = "" :=
  ⟨fun hbytes => Text.ext (points_of_nameBytes [] h nofun hbytes), fun hname => hname ▸ rfl⟩

theorem nameBytes_eq_here_iff (h : name.HasBytes) : nameBytes name = FileName.here ↔
    name = "." := by
  refine ⟨fun hbytes => Text.ext ?_, fun hname => hname ▸ rfl⟩
  exact points_of_nameBytes ['.'] h (List.forall_mem_singleton.mpr toNat_point_lt) hbytes

theorem nameBytes_eq_above_iff (h : name.HasBytes) : nameBytes name = FileName.above ↔
    name = ".." := by
  refine ⟨fun hbytes => Text.ext ?_, fun hname => hname ▸ rfl⟩
  refine points_of_nameBytes ['.', '.'] h (List.forall_mem_cons.mpr ⟨toNat_point_lt, ?_⟩) hbytes
  exact List.forall_mem_singleton.mpr toNat_point_lt

end Utf8
end CatalogPress
