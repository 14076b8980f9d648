import CatalogPress.Log.Session
import CatalogPress.Proofs.Files.Moving
import Mathlib.Logic.Relation

/-!
What writing to a log file can do to a session, step by step: the file is closed or opened, a backup
is removed or passed on, and at last the text is added. Whatever holds after each of these holds
after writing.
-/
namespace CatalogPress

namespace Stream
variable {stream : Stream} {location source target : Location} {size : Nat}

theorem of_without {place : Location} (h : stream.without location size = .opened place) :
    stream = .opened place := by
  rw [without] at h
  split at h
  · cases h
  · exact h

theorem exists_of_moved (h : stream.moved source target = .opened location) :
    ∃ place, stream = .opened place ∧ place.moved source target = location := by
  cases stream with
  | closed | removed => cases h
  | opened place =>
    cases h
    exact ⟨place, rfl, rfl⟩

end Stream

namespace Session
open FileSystem Fallible Relation

variable {session before middle after : Session} {number backups : Nat} {path text : Text}

theorem backup_zero (path : Text) : backup path 0 = path :=
  rfl

theorem of_setStream {stream : Stream} {other : Nat} {location : Location}
    (h : (session.setStream number stream).streams other = .opened location) :
    (other = number ∧ stream = .opened location) ∨ session.streams other = .opened location := by
  change (if other = number then stream else session.streams other) = _ at h
  split at h
  · rename_i hnumber
    exact .inl ⟨hnumber, h⟩
  · exact .inr h

/-- One step of making room in the file of a handler. -/
inductive Touches (number : Nat) (path : Text) (backups : Nat) (session : Session) : Session → Prop
  | closed : Touches number path backups session (session.setStream number .closed)
  | opened {location : Location} {files : FileSystem} :
      session.files.openFile path id = .ok (location, files) →
      Touches number path backups session
        ({ session with files }.setStream number (.opened location))
  | cleared {backup : Nat} {location : Location} {files : FileSystem} : backup ≤ backups →
      session.files.remove (Session.backup path backup) = .ok (location, files) →
      Touches number path backups session { session with
        files
        streams := fun number =>
          (session.streams number).without location (session.sizeAt location) }
  | passed {backup : Nat} {source target : Location} {files : FileSystem} : backup < backups →
      session.files.rename (Session.backup path backup) (Session.backup path (backup + 1)) =
        .ok (source, target, files) →
      Touches number path backups session { session with
        files
        streams := fun number => (session.streams number).moved source target }

abbrev MakesRoom (number : Nat) (path : Text) (backups : Nat) : Session → Session → Prop :=
  ReflTransGen (Touches number path backups)

theorem makesRoom_openStream (h : session.openStream number path = .ok after) :
    MakesRoom number path backups session after := by
  obtain ⟨⟨location, files⟩, hopen, heq⟩ := bind_eq_ok.mp h
  cases heq
  exact .single (.opened hopen)

theorem makesRoom_ensureOpen (h : session.ensureOpen number path = .ok after) :
    MakesRoom number path backups session after := by
  rw [ensureOpen] at h
  split at h
  · exact makesRoom_openStream h
  · cases h
    exact .refl

theorem makesRoom_clear {backup : Nat} (hle : backup ≤ backups)
    (h : session.clear (Session.backup path backup) = .ok after) :
    MakesRoom number path backups session after := by
  rw [clear] at h
  split at h
  · obtain ⟨⟨location, files⟩, hremove, heq⟩ := bind_eq_ok.mp h
    cases heq
    exact .single (.cleared hle hremove)
  · cases h
    exact .refl

theorem makesRoom_passOn {backup : Nat} (hlt : backup < backups)
    (h : session.passOn path backup = .ok after) :
    MakesRoom number path backups session after := by
  rw [passOn] at h
  split at h
  · obtain ⟨⟨source, target, files⟩, hrename, heq⟩ := bind_eq_ok.mp h
    cases heq
    exact .single (.passed hlt hrename)
  · cases h
    exact .refl

theorem makesRoom_makeWay {backup : Nat} (hlt : backup < backups)
    (h : session.makeWay path backup = .ok after) :
    MakesRoom number path backups session after := by
  rw [makeWay] at h
  split at h
  · exact makesRoom_clear hlt h
  · cases h
    exact .refl

theorem makesRoom_passBackups {count : Nat} (hlt : count < backups) :
    ∀ step ∈ passBackups path count, ∀ before after, step before = .ok after →
      MakesRoom number path backups before after := by
  induction count with
  | zero => exact nofun
  | succ count ih =>
    refine List.forall_mem_cons.mpr ⟨fun _ _ => makesRoom_makeWay hlt, ?_⟩
    exact List.forall_mem_cons.mpr ⟨fun _ _ => makesRoom_passOn hlt, ih (Nat.lt_of_succ_lt hlt)⟩

theorem makesRoom_rotate (number : Nat) (path : Text) (backups : Nat) :
    ∀ step ∈ rotate number path backups, ∀ before after, step before = .ok after →
      MakesRoom number path backups before after := by
  have hclose (before after : Session) (h : before.close number = .ok after) :
      MakesRoom number path backups before after := by
    cases h
    exact .single .closed
  cases backups with
  | zero =>
    refine List.forall_mem_cons.mpr ⟨hclose, ?_⟩
    exact List.forall_mem_singleton.mpr fun _ _ => makesRoom_openStream
  | succ backups =>
    refine List.forall_mem_cons.mpr ⟨hclose, List.forall_mem_append.mpr ⟨?_, ?_⟩⟩
    · exact makesRoom_passBackups (Nat.lt_succ_self backups)
    · refine List.forall_mem_cons.mpr ⟨fun _ _ => makesRoom_clear (Nat.le_add_left 1 backups), ?_⟩
      refine List.forall_mem_cons.mpr ⟨fun _ _ => makesRoom_passOn (Nat.zero_lt_succ backups), ?_⟩
      exact List.forall_mem_singleton.mpr fun _ _ => makesRoom_openStream

theorem makesRoom_perform {steps : List (Session → Except FileError Session)}
    (h : ∀ step ∈ steps, ∀ before after, step before = .ok after →
      MakesRoom number path backups before after)
    (session : Session) : MakesRoom number path backups session (perform steps session) := by
  induction steps generalizing session with
  | nil => exact .refl
  | cons step steps ih =>
    obtain ⟨hstep, hsteps⟩ := List.forall_mem_cons.mp h
    rw [perform]
    split
    · rename_i next hnext
      exact (hstep session next hnext).trans (ih hsteps next)
    · exact .refl

theorem perform_append (steps : List (Session → Except FileError Session))
    (last : Session → Session) (session : Session) :
    perform (steps ++ [fun session => .ok (last session)]) session = perform steps session ∨
      perform (steps ++ [fun session => .ok (last session)]) session =
        last (perform steps session) := by
  induction steps generalizing session with
  | nil => exact .inr rfl
  | cons step steps ih =>
    rw [List.cons_append, perform, perform]
    split
    · exact ih _
    · exact .inl rfl

/-- Writing makes room where that is needed, and then adds the text or loses it. -/
theorem writeFile_cases (number : Nat) (path : Text) (backups : Nat)
    (text : Text) (session : Session) :
    ∃ middle, MakesRoom number path backups session middle ∧
      (session.writeFile number path backups text = middle ∨
        session.writeFile number path backups text = middle.addText number text) := by
  rw [writeFile]
  split
  · exact ⟨session, .refl, .inl rfl⟩
  rename_i opened hopen
  have hsteps : ∀ step ∈ if opened.isFull number path text then rotate number path backups else [],
      ∀ before after, step before = .ok after → MakesRoom number path backups before after := by
    split
    · exact makesRoom_rotate number path backups
    · exact nofun
  exact ⟨_, (makesRoom_ensureOpen hopen).trans (makesRoom_perform hsteps opened),
    perform_append _ _ opened⟩

end Session
end CatalogPress
