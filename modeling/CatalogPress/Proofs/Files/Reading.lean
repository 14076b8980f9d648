import CatalogPress.Files.System
import CatalogPress.Proofs.Text.Utf8

/-!
How reading a file fails. Where a file can have the path, it fails only for what the file system
holds there; where none can, nothing is looked up. A text is read if there are bytes, and they are
those of characters.
-/
namespace CatalogPress
open Fallible

/-- A code point of a path: no NUL, and no surrogate but those that stand for bytes. -/
def CodePoint.Nameable : CodePoint → Prop
  | char c => c ≠ '\x00'
  | surrogate offset => 0xdc80 ≤ (surrogate offset).value ∧ (surrogate offset).value ≤ 0xdcff

def Text.Nameable (path : Text) : Prop :=
  ∀ point ∈ path.points, point.Nameable

namespace Utf8

theorem Encoded.zero_mem_iff {bytes : List UInt8} {point : Nat} (h : Encoded bytes point) :
    0 ∈ bytes ↔ point = 0 := by
  have hzero {b : UInt8} : 0 = b ↔ b.toNat = 0 := by
    rw [eq_comm, ← UInt8.toNat_inj]
    rfl
  cases h with
  | one => rw [List.mem_singleton, hzero]
  | two hlow hhigh hb =>
    rw [maySecond_iff] at hb
    simp only [List.mem_cons, List.not_mem_nil, or_false, hzero]
    omega
  | three hlow hhigh hb hc =>
    rw [maySecond_iff] at hb
    rw [isTail_iff] at hc
    unfold tailBits
    simp only [List.mem_cons, List.not_mem_nil, or_false, hzero]
    omega
  | four hlow hhigh hb hc hd =>
    rw [maySecond_iff] at hb
    rw [isTail_iff] at hc hd
    unfold tailBits
    simp only [List.mem_cons, List.not_mem_nil, or_false, hzero]
    omega

theorem zero_mem_utf8EncodeChar_iff {c : Char} : 0 ∈ String.utf8EncodeChar c ↔ c = '\x00' := by
  rw [(encoded_utf8EncodeChar c).zero_mem_iff, ← Char.toNat_inj]
  rfl

theorem nameable_iff {point : CodePoint} :
    point.Nameable ↔ ∃ bytes, nameBytes? point = some bytes ∧ 0 ∉ bytes := by
  cases point with
  | char c =>
    have hvalid : c.toNat < 0xd800 ∨ 0xdfff < c.toNat ∧ c.toNat < 0x110000 := c.valid
    have hbytes : nameBytes? (.char c) = some (String.utf8EncodeChar c) := by
      refine if_neg ?_
      change ¬ (0xdc80 ≤ c.toNat ∧ c.toNat ≤ 0xdcff)
      omega
    simp [hbytes, CodePoint.Nameable, zero_mem_utf8EncodeChar_iff]
  | surrogate offset =>
    by_cases hrange : (CodePoint.surrogate offset).Nameable
    · refine iff_of_true hrange ⟨_, if_pos hrange, ?_⟩
      obtain ⟨hlow, hhigh⟩ := hrange
      rw [List.mem_singleton, eq_comm, ← UInt8.toNat_inj, toNat_ofNat (by omega), UInt8.toNat_zero]
      omega
    · have hbytes : nameBytes? (.surrogate offset) = none := if_neg hrange
      simp [hrange, hbytes]

theorem unencodable?_eq_none_iff {bytes? : CodePoint → Option (List UInt8)} {position : Nat}
    {points : List CodePoint} :
    unencodable? bytes? position points = none ↔
      ∀ point ∈ points, (bytes? point).isSome = true := by
  induction points generalizing position with
  | nil => simp [unencodable?]
  | cons point points ih =>
    rw [unencodable?, List.forall_mem_cons, ← ih]
    split
    · rename_i hsome
      exact (and_iff_right hsome).symm
    · rename_i hnone
      exact iff_of_false nofun fun h => hnone h.1

theorem encodeName_eq_ok_iff {path : Text} {bytes : List UInt8} : encodeName path = .ok bytes ↔
    (∀ point ∈ path.points, (nameBytes? point).isSome = true) ∧
    bytesBy nameBytes? path = bytes := by
  have hnone : unencodable? nameBytes? 0 path.points = none ↔ _ := unencodable?_eq_none_iff
  rw [← hnone, encodeName, encodeBy]
  cases unencodable? nameBytes? 0 path.points <;> simp

theorem nameable_iff_encodeName {path : Text} :
    path.Nameable ↔ ∃ bytes, encodeName path = .ok bytes ∧ 0 ∉ bytes := by
  simp only [encodeName_eq_ok_iff]
  constructor
  · intro h
    refine ⟨_, ⟨fun point hpoint => ?_, rfl⟩, fun hzero => ?_⟩
    · obtain ⟨bytes, hbytes, -⟩ := nameable_iff.mp (h point hpoint)
      rw [hbytes]
      rfl
    · obtain ⟨point, hpoint, hzero⟩ := List.mem_flatMap.mp hzero
      obtain ⟨bytes, hbytes, hnot⟩ := nameable_iff.mp (h point hpoint)
      rw [hbytes] at hzero
      exact hnot hzero
  · rintro ⟨_, ⟨hsome, rfl⟩, hzero⟩ point hpoint
    obtain ⟨bytes, hbytes⟩ := Option.isSome_iff_exists.mp (hsome point hpoint)
    refine nameable_iff.mpr ⟨bytes, hbytes,
      fun hmem => hzero (List.mem_flatMap.mpr ⟨point, hpoint, ?_⟩)⟩
    rw [hbytes]
    exact hmem

end Utf8

def FileError.IsSystem (error : FileError) : Prop :=
  ∃ fault path, error = .system fault path

namespace FileSystem
variable {files : FileSystem} {path : Text}

theorem resolve_eq {bytes : List UInt8} (h : Utf8.encodeName path = .ok bytes) :
    files.resolve path =
      if bytes.contains 0 then .error .nulInPath
      else if bytes.isEmpty then .error (.system .notFound path)
      else if longestPath < bytes.length then .error (.system .nameTooLong path)
      else
        (files.walk (files.start bytes) (Text.splitList FileName.separator bytes)).mapError
          (.system · path) := by
  rw [resolve, h]
  rfl

/-- Following a path fails for a reason of the file system, unless no file can have the path. -/
theorem failsWith_resolve (files : FileSystem) (path : Text) :
    FailsWith FileError.IsSystem (files.resolve path) ↔ path.Nameable := by
  have hsystem (fault : SystemFault) : (FileError.system fault path).IsSystem := ⟨fault, path, rfl⟩
  rw [Utf8.nameable_iff_encodeName]
  cases hbytes : Utf8.encodeName path with
  | error fault =>
    have hresolve : files.resolve path = .error (.unencodable fault) := by
      rw [resolve, hbytes]
      rfl
    -- A code point without bytes is refused before anything is looked up.
    refine iff_of_false (fun h => ?_) nofun
    obtain ⟨_, _, hunencodable⟩ := h _ hresolve
    cases hunencodable
  | ok bytes =>
    rw [resolve_eq hbytes]
    by_cases hzero : 0 ∈ bytes
    · rw [if_pos (List.contains_iff_mem.mpr hzero)]
      refine iff_of_false (fun h => ?_) ?_
      · obtain ⟨_, _, hnul⟩ := h _ rfl
        cases hnul
      · rintro ⟨_, heq, hnot⟩
        cases heq
        exact hnot hzero
    · rw [if_neg fun h => hzero (List.contains_iff_mem.mp h)]
      refine iff_of_true ?_ ⟨bytes, rfl, hzero⟩
      split
      · rintro _ ⟨⟩
        exact hsystem _
      split
      · rintro _ ⟨⟩
        exact hsystem _
      · exact failsWith_mapError.mpr fun fault _ => hsystem fault

theorem nameable_of_lookup {node : Option FileNode} (h : files.lookup path = .ok node) :
    path.Nameable :=
  (failsWith_resolve files path).mp (failsWith_map.mp fun _ herror => nomatch h.symm.trans herror)

theorem failsWith_read (files : FileSystem) (path : Text) :
    FailsWith FileError.IsSystem (files.read path) ↔ path.Nameable := by
  rw [← failsWith_resolve files, read, failsWith_bind, lookup, failsWith_map]
  refine and_iff_left fun node _ error herror => ?_
  split at herror <;> cases herror
  · exact ⟨_, _, rfl⟩
  · exact ⟨_, _, rfl⟩

theorem read_eq_ok_iff {bytes : ByteArray} :
    files.read path = .ok bytes ↔ files.lookup path = .ok (some (.file bytes)) := by
  rw [read, bind_eq_ok]
  constructor
  · rintro ⟨node, hnode, h⟩
    split at h <;> cases h
    exact hnode
  · exact fun h => ⟨_, h, rfl⟩

theorem readText_eq_ok_iff {text : String} : files.readText path = .ok text ↔
    ∃ bytes, files.read path = .ok bytes ∧
      ∃ chars, Utf8.decode bytes = .ok chars ∧ String.ofList (Text.unifyNewlines chars) = text := by
  simp only [readText, bind_eq_ok, mapError_eq_ok]
  refine exists_congr fun bytes => and_congr_right fun _ => ?_
  refine exists_congr fun chars => and_congr_right fun _ => ?_
  change Except.ok _ = Except.ok text ↔ _
  rw [Except.ok.injEq]

theorem failsWith_readText {p : ReadError → Prop} : FailsWith p (files.readText path) ↔
    FailsWith (fun error => p (.file error)) (files.read path) ∧
      ∀ bytes, files.read path = .ok bytes →
        FailsWith (fun fault => p (.undecodable fault)) (Utf8.decode bytes) := by
  simp only [readText, failsWith_bind, failsWith_mapError, mapError_eq_ok]
  refine and_congr_right fun _ => forall₂_congr fun bytes _ => and_iff_left fun chars _ => ?_
  exact fun _ h => nomatch h

end FileSystem
end CatalogPress
