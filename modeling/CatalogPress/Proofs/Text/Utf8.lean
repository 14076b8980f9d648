import CatalogPress.Text.Utf8
import CatalogPress.Proofs.Fallible

/-!
Reading bytes as text undoes writing: what is read are the characters whose bytes stand there, and
bytes that are not those of characters are refused.
-/
namespace CatalogPress.Utf8
open Fallible

/-- The bytes of one character, as the reader takes them, and its code point. -/
inductive Encoded : List UInt8 → Nat → Prop
  | one {a} : a.toNat < 0x80 → Encoded [a] a.toNat
  | two {a b} : 0xc2 ≤ a.toNat → a.toNat < 0xe0 → maySecond a b = true →
      Encoded [a, b] (a.toNat % 32 * 64 + tailBits b)
  | three {a b c} : 0xe0 ≤ a.toNat → a.toNat < 0xf0 → maySecond a b = true → isTail c = true →
      Encoded [a, b, c] ((a.toNat % 16 * 64 + tailBits b) * 64 + tailBits c)
  | four {a b c d} : 0xf0 ≤ a.toNat → a.toNat ≤ 0xf4 → maySecond a b = true → isTail c = true →
      isTail d = true →
      Encoded [a, b, c, d] (((a.toNat % 8 * 64 + tailBits b) * 64 + tailBits c) * 64 + tailBits d)

variable {position : Nat} {bytes : List UInt8} {chars : List Char}

theorem isTail_iff {b : UInt8} : isTail b = true ↔ 0x80 ≤ b.toNat ∧ b.toNat ≤ 0xbf := by
  simp [isTail, UInt8.le_iff_toNat_le]

theorem maySecond_iff {a b : UInt8} : maySecond a b = true ↔ (0x80 ≤ b.toNat ∧ b.toNat ≤ 0xbf) ∧
    (a.toNat = 0xe0 → 0xa0 ≤ b.toNat) ∧ (a.toNat = 0xed → b.toNat ≤ 0x9f) ∧
    (a.toNat = 0xf0 → 0x90 ≤ b.toNat) ∧ (a.toNat = 0xf4 → b.toNat ≤ 0x8f) := by
  rw [maySecond, Bool.and_eq_true, isTail_iff]
  refine and_congr_right fun _ => ?_
  have heq (n : UInt8) : a = n ↔ a.toNat = n.toNat := UInt8.toNat_inj.symm
  simp only [heq]
  split_ifs <;> simp_all [UInt8.le_iff_toNat_le]

theorem decodeFrom_append {head : List UInt8} {point : Nat}
    (h : Encoded head point) (position : Nat) (rest : List UInt8) :
    decodeFrom position (head ++ rest) =
      (decodeFrom (position + head.length) rest).map (Char.ofNat point :: ·) := by
  rw [decodeFrom.eq_def]
  cases h with
  | one ha => exact if_pos (UInt8.lt_iff_toNat_lt.mpr ha)
  | two hlow hhigh hb =>
    simp only [List.cons_append, UInt8.lt_iff_toNat_lt, UInt8.reduceToNat, hb, Bool.not_true]
    rw [if_neg (by omega), if_neg (by omega), if_neg Bool.false_ne_true, if_pos hhigh]
    rfl
  | three hlow hhigh hb hc =>
    simp only [List.cons_append, UInt8.lt_iff_toNat_lt, UInt8.reduceToNat, hb, hc, Bool.not_true]
    rw [if_neg (by omega), if_neg (by omega), if_neg Bool.false_ne_true, if_neg (by omega),
      if_neg Bool.false_ne_true, if_pos hhigh]
    rfl
  | four hlow hhigh hb hc hd =>
    simp only [List.cons_append, UInt8.lt_iff_toNat_lt, UInt8.reduceToNat,
      hb, hc, hd, Bool.not_true]
    rw [if_neg (by omega), if_neg (by omega), if_neg Bool.false_ne_true, if_neg (by omega),
      if_neg Bool.false_ne_true, if_neg (by omega), if_neg Bool.false_ne_true]
    rfl

theorem exists_encoded (h : decodeFrom position bytes = .ok chars) (hne : bytes ≠ []) :
    ∃ head point rest tail, Encoded head point ∧ bytes = head ++ rest ∧
    chars = Char.ofNat point :: tail ∧
      decodeFrom (position + head.length) rest = .ok tail := by
  revert h
  fun_cases decodeFrom position bytes
  case case1 => exact absurd rfl hne
  case case2 a rest ha =>
    intro h
    obtain ⟨tail, htail, rfl⟩ := map_eq_ok.mp h
    exact ⟨[a], _, rest, tail, .one (UInt8.lt_iff_toNat_lt.mp ha), rfl, rfl, htail⟩
  case case6 a hfirst hstart b rest hb htwo =>
    intro h
    obtain ⟨tail, htail, rfl⟩ := map_eq_ok.mp h
    simp only [UInt8.lt_iff_toNat_lt, UInt8.reduceToNat] at hfirst hstart htwo
    exact ⟨[a, b], _, rest, tail, .two (by omega) htwo (by simpa using hb), rfl, rfl, htail⟩
  case case9 a hfirst hstart b hb htwo c rest hc hthree =>
    intro h
    obtain ⟨tail, htail, rfl⟩ := map_eq_ok.mp h
    simp only [UInt8.lt_iff_toNat_lt, UInt8.reduceToNat] at hfirst hstart htwo hthree
    exact ⟨[a, b, c], _, rest, tail,
      .three (by omega) hthree (by simpa using hb) (by simpa using hc), rfl, rfl, htail⟩
  case case12 a hfirst hstart b hb htwo c hc hthree d rest hd =>
    intro h
    obtain ⟨tail, htail, rfl⟩ := map_eq_ok.mp h
    simp only [UInt8.lt_iff_toNat_lt, UInt8.reduceToNat] at hfirst hstart htwo hthree
    exact ⟨[a, b, c, d], _, rest, tail,
      .four (by omega) (by omega) (by simpa using hb) (by simpa using hc) (by simpa using hd), rfl,
      rfl, htail⟩
  -- The other ways through the reader end in a fault.
  all_goals exact nofun

theorem toNat_ofNat {n : Nat} (h : n < 0x100) : (UInt8.ofNat n).toNat = n :=
  UInt8.toNat_ofNat_of_lt' h

theorem isTail_ofNat (n : Nat) : isTail (UInt8.ofNat (n % 64 + 128)) = true := by
  rw [isTail_iff, toNat_ofNat (by omega)]
  omega

theorem tailBits_ofNat (n : Nat) : tailBits (UInt8.ofNat (n % 64 + 128)) = n % 64 := by
  rw [tailBits, toNat_ofNat (by omega)]
  omega

theorem encoded_utf8EncodeChar (c : Char) : Encoded (String.utf8EncodeChar c) c.toNat := by
  have hvalid : c.toNat < 0xd800 ∨ 0xdfff < c.toNat ∧ c.toNat < 0x110000 := c.valid
  have hvalue : c.val.toNat = c.toNat := rfl
  unfold String.utf8EncodeChar
  simp only [hvalue]
  generalize c.toNat = v at hvalid
  have hsecond {n : Nat} : (UInt8.ofNat (n % 64 + 128)).toNat = n % 64 + 128 :=
    toNat_ofNat (by omega)
  split
  · have h : Encoded [UInt8.ofNat v] _ := .one (by rw [toNat_ofNat] <;> omega)
    rwa [toNat_ofNat (by omega)] at h
  split
  · have hfirst : (UInt8.ofNat (v / 64 % 32 + 192)).toNat = v / 64 % 32 + 192 :=
      toNat_ofNat (by omega)
    have hmay :
        maySecond (UInt8.ofNat (v / 64 % 32 + 192)) (UInt8.ofNat (v % 64 + 128)) = true := by
      rw [maySecond_iff, hfirst, hsecond]
      omega
    have h := Encoded.two (by omega) (by omega) hmay
    rw [hfirst, tailBits_ofNat] at h
    rwa [show (v / 64 % 32 + 192) % 32 * 64 + v % 64 = v by omega] at h
  split
  · have hfirst : (UInt8.ofNat (v / 4096 % 16 + 224)).toNat = v / 4096 % 16 + 224 :=
      toNat_ofNat (by omega)
    have hmay :
        maySecond (UInt8.ofNat (v / 4096 % 16 + 224)) (UInt8.ofNat (v / 64 % 64 + 128)) = true := by
      rw [maySecond_iff, hfirst, hsecond]
      omega
    have h := Encoded.three (by omega) (by omega) hmay (isTail_ofNat v)
    rw [hfirst, tailBits_ofNat, tailBits_ofNat] at h
    rwa [show ((v / 4096 % 16 + 224) % 16 * 64 + v / 64 % 64) * 64 + v % 64 = v by omega] at h
  · have hfirst : (UInt8.ofNat (v / 262144 % 8 + 240)).toNat = v / 262144 % 8 + 240 :=
      toNat_ofNat (by omega)
    have hmay :
        maySecond (UInt8.ofNat (v / 262144 % 8 + 240))
          (UInt8.ofNat (v / 4096 % 64 + 128)) = true := by
      rw [maySecond_iff, hfirst, hsecond]
      omega
    have h := Encoded.four (by omega) (by omega) hmay (isTail_ofNat (v / 64)) (isTail_ofNat v)
    rw [hfirst, tailBits_ofNat, tailBits_ofNat, tailBits_ofNat] at h
    rwa [show (((v / 262144 % 8 + 240) % 8 * 64 + v / 4096 % 64) * 64 + v / 64 % 64) * 64 + v % 64 =
      v by omega] at h

theorem eq_ofNat {b : UInt8} {n : Nat} (h : b.toNat = n) : b = UInt8.ofNat n := by
  rw [← h, UInt8.ofNat_toNat]

theorem val_ofNat {n : Nat} (h : n < 0xd800 ∨ 0xdfff < n ∧ n < 0x110000) :
    (Char.ofNat n).val.toNat = n := by
  unfold Char.ofNat
  rw [dif_pos h]
  rfl

theorem Encoded.eq_utf8EncodeChar {point : Nat} (h : Encoded bytes point) :
    bytes = String.utf8EncodeChar (Char.ofNat point) := by
  unfold String.utf8EncodeChar
  cases h with
  | one ha =>
    rw [val_ofNat (by omega), if_pos (by omega), UInt8.ofNat_toNat]
  | two hlow hhigh hb =>
    rw [maySecond_iff] at hb
    unfold tailBits
    rw [val_ofNat (by omega), if_neg (by omega), if_pos (by omega)]
    simp only [List.cons.injEq, and_true]
    exact ⟨eq_ofNat (by omega), eq_ofNat (by omega)⟩
  | three hlow hhigh hb hc =>
    rw [maySecond_iff] at hb
    rw [isTail_iff] at hc
    unfold tailBits
    rw [val_ofNat (by omega), if_neg (by omega), if_neg (by omega), if_pos (by omega)]
    simp only [List.cons.injEq, and_true]
    exact ⟨eq_ofNat (by omega), eq_ofNat (by omega), eq_ofNat (by omega)⟩
  | four hlow hhigh hb hc hd =>
    rw [maySecond_iff] at hb
    rw [isTail_iff] at hc hd
    unfold tailBits
    rw [val_ofNat (by omega), if_neg (by omega), if_neg (by omega), if_neg (by omega)]
    simp only [List.cons.injEq, and_true]
    exact ⟨eq_ofNat (by omega), eq_ofNat (by omega), eq_ofNat (by omega), eq_ofNat (by omega)⟩

theorem decodeFrom_eq_ok_iff :
    decodeFrom position bytes = .ok chars ↔ bytes = chars.flatMap String.utf8EncodeChar := by
  constructor
  · intro h
    induction chars generalizing position bytes with
    | nil =>
      by_contra hne
      obtain ⟨_, _, _, _, _, _, hchars, _⟩ := exists_encoded h hne
      cases hchars
    | cons c chars ih =>
      have hne : bytes ≠ [] := by
        rintro rfl
        rw [decodeFrom] at h
        cases h
      obtain ⟨head, point, rest, tail, hhead, rfl, hchars, htail⟩ := exists_encoded h hne
      cases hchars
      rw [List.flatMap_cons, ← ih htail, ← hhead.eq_utf8EncodeChar]
  · rintro rfl
    induction chars generalizing position with
    | nil => rw [List.flatMap_nil, decodeFrom]
    | cons c chars ih =>
      rw [List.flatMap_cons, decodeFrom_append (encoded_utf8EncodeChar c), ih, Char.ofNat_toNat]
      rfl

theorem decode_eq_ok_iff {bytes : ByteArray} :
    decode bytes = .ok chars ↔ bytes.data.toList = chars.flatMap String.utf8EncodeChar :=
  decodeFrom_eq_ok_iff

end CatalogPress.Utf8
