import CatalogPress.Catalog.Basic
import CatalogPress.Proofs.Json.File
import CatalogPress.Proofs.Json.Overlong

/-!
When loading a catalog ends in a catalog or in a fault of the catalog: the path is one that a file
can have, and what is read there, if anything is, is a text in which no integer is too long. All
other failures are handed on.
-/
namespace CatalogPress.Catalog
open Fallible

/-- Bytes of a text in which no integer is too long. -/
def Legible (bytes : ByteArray) : Prop :=
  ∃ chars, bytes.data.toList = chars.flatMap String.utf8EncodeChar ∧
    ¬ Json.Overlong .file (Json.Token.ofText (String.ofList (Text.unifyNewlines chars)))

def IsCatalogFault (failure : Failure) : Prop :=
  ∃ error, failure = .catalog error

def jsonFailure (path : Path) : Json.Fault → Failure
  | .malformed | .nestedTooDeeply => .catalog (.invalidJson path.text)
  | .integerTooLong digits => .integerTooLong digits

variable {files : FileSystem} {path : Path} {known : List Text}

theorem load_eq : load files path known =
    Json.readFile (.catalog <| .unreadable path.text ·) (jsonFailure path) files path.text >>=
      fun data => (ofJson known data).mapError .catalog := by
  rw [Json.readFile, bind_assoc]
  rfl

theorem reports_isCatalogFault (path : Path) :
    Json.Reports IsCatalogFault (.catalog <| .unreadable path.text ·) where
  reason := fun _ => ⟨_, rfl⟩
  file := nofun
  undecodable := nofun

theorem failsWith_jsonFailure {text : String} :
    FailsWith (fun fault => IsCatalogFault (jsonFailure path fault)) (Json.read .file text) ↔
      ¬ Json.Overlong .file (Json.Token.ofText text) := by
  rw [← Json.read_eq_error_iff]
  constructor
  · rintro h ⟨digits, hlong⟩
    obtain ⟨_, hfault⟩ := h _ hlong
    cases hfault
  · intro h fault hfault
    cases fault with
    | malformed | nestedTooDeeply => exact ⟨_, rfl⟩
    | integerTooLong digits => exact absurd ⟨digits, hfault⟩ h

theorem failsWith_load (files : FileSystem) (path : Path) (known : List Text) :
    FailsWith IsCatalogFault (load files path known) ↔
      path.text.Nameable ∧ ∀ bytes, files.read path.text = .ok bytes → Legible bytes := by
  have hcatalog (data : Json) : FailsWith IsCatalogFault ((ofJson known data).mapError .catalog) :=
    failsWith_mapError.mpr fun error _ => ⟨error, rfl⟩
  simp only [load_eq, Json.failsWith_readFile_bind (reports_isCatalogFault path),
    failsWith_jsonFailure, hcatalog, implies_true, and_true, Legible, Utf8.decode_eq_ok_iff]

/-- Loading ends in a catalog or in a fault of the catalog exactly if a file can have the path and
what is read there is legible. -/
theorem load_fails_with_catalog_iff (files : FileSystem) (path : Path) (known : List Text) :
    ((∃ catalog, load files path known = .ok catalog) ∨
        ∃ error, load files path known = .error (.catalog error)) ↔
      path.text.Nameable ∧ ∀ bytes, files.read path.text = .ok bytes → Legible bytes :=
  failsWith_exists_iff.symm.trans (failsWith_load files path known)

def illegibleFiles : FileSystem where
  workingDirectory := Path.ofText "/work"
  nodes := [
    ([Utf8.nameBytes "work"], .directory),
    ([Utf8.nameBytes "work", Utf8.nameBytes "catalog.json"], .file ⟨#[0xff]⟩)]

/-- Bytes that are no text are not reported as a fault of the catalog. -/
theorem load_illegible : load illegibleFiles (Path.ofText "catalog.json") ["BGX"] =
    .error (.undecodable ⟨.invalidStart, 0, 1, 0xff⟩) := by
  rfl

end CatalogPress.Catalog
