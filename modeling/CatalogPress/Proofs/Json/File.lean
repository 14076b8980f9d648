import CatalogPress.Failure
import CatalogPress.Json.Reader
import CatalogPress.Proofs.Files.Reading

/-!
Reading the datum of a file. The reasons that the file system gives are reported in the way of
whoever reads the file, and so are some faults of the text; other failures are handed on.
-/
namespace CatalogPress.Json
open Fallible

def readFailure (unreadable : Text → Failure) : ReadError → Failure
  | .file (.system fault path) => unreadable (FileError.system fault path).message
  | .file error => .file error
  | .undecodable fault => .undecodable fault

def readFile (unreadable : Text → Failure) (invalid : Fault → Failure) (files : FileSystem)
    (path : Text) : Except Failure Json :=
  (files.readText path).mapError (readFailure unreadable) >>= fun text =>
    (read .file text).mapError invalid

/-- A kind of failure of which reasons of the file system are reported, and no others of files. -/
structure Reports (p : Failure → Prop) (unreadable : Text → Failure) : Prop where
  reason : ∀ reason, p (unreadable reason)
  file : ∀ error, ¬ p (.file error)
  undecodable : ∀ fault, ¬ p (.undecodable fault)

variable {p : Failure → Prop} {unreadable : Text → Failure} {invalid : Fault → Failure}
  {files : FileSystem} {path : Text} {α : Type} {f : Json → Except Failure α}

theorem Reports.file_iff (h : Reports p unreadable) {error : FileError} :
    p (readFailure unreadable (.file error)) ↔ error.IsSystem := by
  cases error with
  | system fault path => exact iff_of_true (h.reason _) ⟨fault, path, rfl⟩
  | nulInPath | unencodable => exact iff_of_false (h.file _) nofun

theorem Reports.failsWith_decode (h : Reports p unreadable) {bytes : ByteArray} :
    FailsWith (fun fault => p (readFailure unreadable (.undecodable fault))) (Utf8.decode bytes) ↔
      ∃ chars, Utf8.decode bytes = .ok chars := by
  rw [failsWith_iff]
  exact or_iff_left fun ⟨fault, _, hfault⟩ => h.undecodable fault hfault

/-- Reading a datum and going on with it fails in the reported way, if at all, exactly if a file can
have the path and what is read there is a text whose faults are reported. -/
theorem failsWith_readFile_bind (h : Reports p unreadable) :
    FailsWith p (readFile unreadable invalid files path >>= f) ↔
      path.Nameable ∧ ∀ bytes, files.read path = .ok bytes → ∃ chars,
        Utf8.decode bytes = .ok chars ∧
        FailsWith (fun fault => p (invalid fault))
          (read .file (String.ofList (Text.unifyNewlines chars))) ∧
        ∀ data, read .file (String.ofList (Text.unifyNewlines chars)) = .ok data →
          FailsWith p (f data) := by
  simp only [readFile, failsWith_bind, failsWith_mapError, mapError_eq_ok, bind_eq_ok,
    FileSystem.failsWith_readText, h.file_iff, h.failsWith_decode, FileSystem.failsWith_read,
    FileSystem.readText_eq_ok_iff]
  constructor
  · rintro ⟨⟨⟨hpath, hdecode⟩, hread⟩, hdata⟩
    refine ⟨hpath, fun bytes hbytes => ?_⟩
    obtain ⟨chars, hchars⟩ := hdecode bytes hbytes
    refine ⟨chars, hchars, hread _ ⟨bytes, hbytes, chars, hchars, rfl⟩, fun data hok => ?_⟩
    exact hdata data ⟨_, ⟨bytes, hbytes, chars, hchars, rfl⟩, hok⟩
  · rintro ⟨hpath, hall⟩
    refine ⟨⟨⟨hpath, fun bytes hbytes => ?_⟩, ?_⟩, ?_⟩
    · obtain ⟨chars, hchars, -⟩ := hall bytes hbytes
      exact ⟨chars, hchars⟩
    · rintro _ ⟨bytes, hbytes, chars, hchars, rfl⟩
      obtain ⟨_, hsame, hread, -⟩ := hall bytes hbytes
      cases hchars.symm.trans hsame
      exact hread
    · rintro data ⟨_, ⟨bytes, hbytes, chars, hchars, rfl⟩, hok⟩
      obtain ⟨_, hsame, -, hdata⟩ := hall bytes hbytes
      cases hchars.symm.trans hsame
      exact hdata data hok

end CatalogPress.Json
