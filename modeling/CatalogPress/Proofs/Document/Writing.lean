import CatalogPress.Document.Render
import CatalogPress.Proofs.Files.Making

/-!
Writing a document to a descending path. What comes of it depends on the files on the way, on what
is at the place and on the text alone, and apart from the directories on the way nothing but the
place is changed.
-/
namespace CatalogPress

theorem Utf8.encode_eq_ok_iff {text : Text} :
    (∃ bytes, encode text = .ok bytes) ↔ ∀ point ∈ text.points, point.isSurrogate = false := by
  have hpoint (point : CodePoint) : (charBytes? point).isSome = true ↔
      point.isSurrogate = false := by
    cases point <;> simp [charBytes?, CodePoint.isSurrogate, CodePoint.char?]
  have hnone : unencodable? charBytes? 0 text.points = none ↔ _ := unencodable?_eq_none_iff
  simp only [hpoint] at hnone
  rw [← hnone, encode, encodeBy]
  cases unencodable? charBytes? 0 text.points <;> simp [Except.map]

namespace Document
open FileSystem Fallible

variable {files after a b made : FileSystem} {job : Job} {text : Text}

/-- How documents are written for a job: the directories above the output cannot be made, or they
are made and then the path is too long, a directory is at the place, or the text is written
there. -/
inductive Writing (files : FileSystem) (job : Job) :
    (Text → Except FileError Unit × FileSystem) → Prop
  | obstacle {fault : SystemFault} : Obstacle files job.output.parent fault →
      Writing files job fun _ => (.error (.system fault job.output.parent.text), files)
  | tooLong {made : FileSystem} : Made job.output.parent files made → job.output.TooLong →
      Writing files job fun _ => (.error (.system .nameTooLong job.output.text), made)
  | directory {made : FileSystem} : Made job.output.parent files made → ¬ job.output.TooLong →
      files.node? (files.place job.output) = some .directory →
      Writing files job fun _ => (.error (.system .isADirectory job.output.text), made)
  | written {made : FileSystem} : Made job.output.parent files made → ¬ job.output.TooLong →
      files.node? (files.place job.output) ≠ some .directory →
      Writing files job fun text => (((Utf8.encode text).map fun _ => ()).mapError .unencodable,
        made.put (files.place job.output) (.file ((Utf8.encode text).toOption.getD .empty)))

theorem writing (h : files.Sound) (hjob : job.output.Descending) :
    Writing files job (writeText files job) := by
  obtain ⟨fault, hobstacle⟩ | ⟨made, hensure, hmade⟩ := h.exists_obstacle_or_made hjob.parent
  · have heq : writeText files job =
        fun _ => (.error (.system fault job.output.parent.text), files) := by
      funext text
      rw [writeText, h.ensureDirectories_of_obstacle hjob.parent hobstacle]
    rw [heq]
    exact .obstacle hobstacle
  have heq : writeText files job = made.write job.output.text := by
    funext text
    rw [writeText, hensure]
  rw [heq]
  by_cases hlong : job.output.TooLong
  · rw [funext (write_of_error (resolve_of_tooLong hjob hlong))]
    exact .tooLong hmade hlong
  have hresolve := hmade.resolve h hjob hlong
  have hnode := (hmade.sameFor h hjob).node
  by_cases hdirectory : files.node? (files.place job.output) = some .directory
  · rw [funext (write_of_directory hresolve (hnode.trans hdirectory))]
    exact .directory hmade hlong hdirectory
  · rw [funext (write_of_ok hresolve (hnode ▸ hdirectory))]
    exact .written hmade hlong hdirectory

theorem changes_writeText (h : files.Sound) (hjob : job.output.Descending) (text : Text) :
    Changes (· = files.place job.output) (· <+: files.place job.output) files
      (writeText files job text).2 := by
  have hmono {made : FileSystem} (hmade : Made job.output.parent files made) :
      Changes (· = files.place job.output) (· <+: files.place job.output) files made :=
    hmade.changes.mono (fun _ => False.elim) fun _ hpre => hpre.trans (h.place_parent hjob)
  have hwriting := writing h hjob
  generalize writeText files job = write at hwriting
  cases hwriting with
  | obstacle => exact .refl h
  | tooLong hmade => exact hmono hmade
  | directory hmade => exact hmono hmade
  | @written made hmade hlong hdirectory =>
    obtain ⟨hin, hnode⟩ := hmade.inDirectory h hjob hlong hdirectory
    exact (hmono hmade).trans (changes_put hmade.changes.sound hin hnode (.inl rfl))

/-- Where a document could not be written for a reason of the file system, nothing is different
afterwards unless the path of the output is too long. -/
theorem changes_of_not_written (h : files.Sound) (hjob : job.output.Descending)
    {fault : SystemFault} {path : Text}
    (herror : writeText files job text = (.error (.system fault path), after)) :
    Changes (fun _ => False) (fun location => job.output.TooLong ∧
    location <+: files.place job.output.parent)
      files after := by
  have hwriting := writing h hjob
  generalize writeText files job = write at hwriting herror
  cases hwriting with
  | obstacle =>
    cases herror
    exact .refl h
  | tooLong hmade hlong =>
    cases herror
    exact hmade.changes.mono (fun _ => id) fun _ hpre => ⟨hlong, hpre⟩
  | directory hmade hlong hdirectory =>
    cases herror
    refine ⟨hmade.changes.sound, hmade.changes.workingDirectory, fun location => .inl ?_⟩
    obtain hsame | hfalse | ⟨hpre, hnone, -⟩ := hmade.changes.node location
    · exact hsame
    · exact hfalse.elim
    · -- A directory lies in directories, so none of them was missing.
      have hthere := h.directory_above hdirectory (hpre.trans (h.place_parent hjob))
      cases hthere.symm.trans hnone
  | written =>
    obtain ⟨hresult, -⟩ := Prod.mk.inj herror
    cases hencode : Utf8.encode text with
    | ok bytes =>
      rw [hencode] at hresult
      cases hresult
    | error fault =>
      rw [hencode] at hresult
      cases hresult

structure Written (job : Job) (files : FileSystem) (bytes : ByteArray) : Prop where
  read : files.read job.output.text = .ok bytes
  above : ∀ location, location <+: files.place job.output → location ≠ files.place job.output →
    files.node? location = some .directory

theorem written_of_made (h : files.Sound) (hjob : job.output.Descending)
    (hlong : ¬ job.output.TooLong) (hmade : Made job.output.parent files made)
    (hdirectory : files.node? (files.place job.output) ≠ some .directory) (bytes : ByteArray) :
    Written job (made.put (files.place job.output) (.file bytes)) bytes := by
  obtain ⟨hin, hnode⟩ := hmade.inDirectory h hjob hlong hdirectory
  have hplace :
      (made.put (files.place job.output) (.file bytes)).place job.output = files.place job.output :=
    place_congr hmade.changes.workingDirectory job.output
  have habove (location : Location) (hpre : location <+: files.place job.output)
      (hne : location ≠ files.place job.output) :
      (made.put (files.place job.output) (.file bytes)).node? location = some .directory := by
    rw [node?_put hin.ne_nil, if_neg hne]
    exact hmade.directory location (h.prefix_parent hjob hpre hne)
  have hsound := hmade.changes.sound.put hin hnode (.file bytes)
  have hresolve := hsound.resolve_of_directories hjob hlong (hplace ▸ habove)
  have hfile : (made.put (files.place job.output) (.file bytes)).node? (files.place job.output) =
      some (.file bytes) := by
    rw [node?_put hin.ne_nil, if_pos rfl]
  exact ⟨read_of_file hresolve (hplace ▸ hfile), hplace ▸ habove⟩

/-- Whether anything can be written does not depend on the text. If it can, the output is there
afterwards, and it is empty if the text has no bytes. -/
theorem fails_or_written (h : files.Sound) (hjob : job.output.Descending) :
    (∃ fault path, ∀ text, (writeText files job text).1 = .error (.system fault path)) ∨
      ∀ text,
        (writeText files job text).1 =
          ((Utf8.encode text).map fun _ => ()).mapError .unencodable ∧
        Written job (writeText files job text).2 ((Utf8.encode text).toOption.getD .empty) := by
  have hwriting := writing h hjob
  generalize writeText files job = write at hwriting
  cases hwriting with
  | obstacle | tooLong | directory => exact .inl ⟨_, _, fun _ => rfl⟩
  | written hmade hlong hdirectory =>
    exact .inr fun text => ⟨rfl, written_of_made h hjob hlong hmade hdirectory _⟩

theorem exists_written (h : files.Sound) (hjob : job.output.Descending)
    (hok : writeText files job text = (.ok (), after)) :
    ∃ bytes, Utf8.encode text = .ok bytes ∧ Written job after bytes := by
  obtain ⟨fault, path, hfails⟩ | hwritten := fails_or_written h hjob
  · cases (congrArg Prod.fst hok).symm.trans (hfails text)
  · obtain ⟨hresult, hwritten⟩ := hwritten text
    rw [hok] at hresult hwritten
    cases hencode : Utf8.encode text with
    | error fault =>
      rw [hencode] at hresult
      cases hresult
    | ok bytes =>
      rw [hencode] at hwritten
      exact ⟨bytes, rfl, hwritten⟩

theorem failsWith_writeText (h : files.Sound) (hjob : job.output.Descending) (text : Text) :
    FailsWith FileError.IsSystem (writeText files job text).1 ↔
      ((writeText files job "").1 = .ok () → ∀ point ∈ text.points, point.isSurrogate = false) := by
  obtain ⟨fault, path, hfails⟩ | hwritten := fails_or_written h hjob
  · rw [hfails, hfails]
    exact iff_of_true (failsWith_error.mpr ⟨fault, path, rfl⟩) nofun
  · have hempty : ((Utf8.encode "").map fun _ => ()).mapError FileError.unencodable = .ok () := rfl
    rw [(hwritten text).1, (hwritten "").1, failsWith_mapError,
      failsWith_map, ← Utf8.encode_eq_ok_iff]
    cases Utf8.encode text with
    | ok bytes => exact iff_of_true nofun fun _ => ⟨bytes, rfl⟩
    | error fault =>
      refine iff_of_false (fun hfails => ?_) fun hok => ?_
      · obtain ⟨_, _, hunencodable⟩ := hfails fault rfl
        cases hunencodable
      · obtain ⟨bytes, hbytes⟩ := hok hempty
        cases hbytes

theorem writeText_congr (ha : a.Sound) (hb : b.Sound) (hjob : job.output.Descending)
    (h : SameFor job.output a b) (text : Text) :
    (writeText b job text).1 = (writeText a job text).1 ∧
      SameFor job.output (writeText a job text).2 (writeText b job text).2 := by
  have hparent := place_congr h.workingDirectory job.output.parent
  have hfile (location : Location) (bytes : ByteArray) (hpre : location <+:
      a.place job.output.parent) :=
    h.file location bytes (hpre.trans (ha.place_parent hjob))
  obtain ⟨fault, hobstacle⟩ | ⟨madeA, hensureA, hmadeA⟩ := ha.exists_obstacle_or_made hjob.parent
  · rw [writeText, writeText, ha.ensureDirectories_of_obstacle hjob.parent hobstacle,
      hb.ensureDirectories_of_obstacle hjob.parent (hobstacle.congr hparent hfile)]
    exact ⟨rfl, h⟩
  obtain ⟨fault, hobstacle⟩ | ⟨madeB, hensureB, hmadeB⟩ := hb.exists_obstacle_or_made hjob.parent
  · have hback :=
      hobstacle.congr hparent.symm
        fun location bytes hpre => (hfile location bytes (hparent ▸ hpre)).symm
    cases (ha.ensureDirectories_of_obstacle hjob.parent hback).symm.trans hensureA
  have hsameA := hmadeA.sameFor ha hjob
  have hsame : SameFor job.output madeA madeB :=
    (hsameA.symm.trans h).trans (hmadeB.sameFor hb hjob)
  rw [writeText, writeText, hensureA, hensureB]
  refine hsame.write text ?_
  by_cases hlong : job.output.TooLong
  · exact .inr ⟨_, resolve_of_tooLong hjob hlong, resolve_of_tooLong hjob hlong⟩
  · rw [hsameA.place]
    exact .inl ⟨hmadeA.resolve ha hjob hlong, h.place ▸ hmadeB.resolve hb hjob hlong⟩

end Document
end CatalogPress
