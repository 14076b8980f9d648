import CatalogPress.Proofs.Files.Kept
import CatalogPress.Proofs.Log.Places
import CatalogPress.Proofs.Log.Slots

/-!
Writing to a log file whose backups can all be reached, none of them a directory. What the file and
its backups hold afterwards depends on what they held before and on the line only.
-/
namespace CatalogPress

/-- Where a log file and its backups are: at places none of which is below another. -/
structure Lies (path : Text) (backups : Nat) (spot : Nat → Location) : Prop where
  down : ∀ count ≤ backups, ∀ name ∈ (Path.ofText (Session.backup path count)).names, name ≠ ".."
  place : ∀ (files : FileSystem), ∀ count ≤ backups,
    files.place (Path.ofText (Session.backup path count)) = spot count
  apart : ∀ count ≤ backups, ∀ other ≤ backups, spot count <+: spot other → count = other

structure FileSystem.Holds (path : Text) (backups : Nat) (spot : Nat → Location)
    (slots : Slots) (files : FileSystem) : Prop where
  sound : files.Sound
  resolve : ∀ count ≤ backups, files.resolve (Session.backup path count) = .ok (spot count)
  node : ∀ count ≤ backups, files.node? (spot count) = (slots count).map .file

variable {path : Text} {backups : Nat} {spot : Nat → Location}

namespace FileSystem.Holds
open Function (update_apply)
variable {files after : FileSystem} {slots slots' : Slots} {count : Nat}

theorem of_changes (h : Holds path backups spot slots files) (hlies : Lies path backups spot)
    {within : Location → Prop} (hchanges : Changes within (fun _ => False) files after)
    (hwithin : ∀ location, within location →
      ∀ count ≤ backups, location <+: spot count → location = spot count)
    (hnode : ∀ count ≤ backups, after.node? (spot count) = (slots' count).map .file) :
    Holds path backups spot slots' after where
  sound := hchanges.sound
  resolve := by
    intro count hle
    refine resolve_of_kept hchanges.workingDirectory (hlies.down count hle)
      (fun way hway hdirectory => ?_) (h.resolve count hle)
    obtain hsame | hplace | ⟨hmade, -⟩ := hchanges.node way
    · exact hsame.trans hdirectory
    · rw [hwithin way hplace count hle hway, h.node count hle] at hdirectory
      cases hslot : slots count <;> rw [hslot] at hdirectory <;> cases hdirectory
    · exact hmade.elim
  node := hnode

theorem node_ne_directory (h : Holds path backups spot slots files) (hle : count ≤ backups) :
    files.node? (spot count) ≠ some .directory := by
  rw [h.node count hle]
  cases slots count <;> nofun

theorem lookup (h : Holds path backups spot slots files) (hle : count ≤ backups) :
    files.lookup (Session.backup path count) = .ok ((slots count).map .file) := by
  rw [FileSystem.lookup, h.resolve count hle, ← h.node count hle]
  rfl

theorem holds_eq (h : Holds path backups spot slots files) (hle : count ≤ backups) :
    files.holds (Session.backup path count) = (slots count).isSome := by
  rw [FileSystem.holds, h.lookup hle]
  cases slots count <;> rfl

theorem isDirectory_eq (h : Holds path backups spot slots files) (hle : count ≤ backups) :
    files.isDirectory (Session.backup path count) = false := by
  rw [FileSystem.isDirectory, h.lookup hle]
  cases slots count <;> rfl

variable (hlies : Lies path backups spot)
include hlies

theorem prefix_iff {other : Nat} (hle : count ≤ backups) (hother : other ≤ backups) :
    spot count <+: spot other ↔ other = count :=
  ⟨fun hpre => (hlies.apart count hle other hother hpre).symm, fun heq => heq ▸ List.prefix_rfl⟩

theorem spot_eq_iff {other : Nat} (hle : count ≤ backups) (hother : other ≤ backups) :
    spot other = spot count ↔ other = count :=
  ⟨fun heq => (prefix_iff hlies hle hother).mp (heq ▸ List.prefix_rfl), fun heq => heq ▸ rfl⟩

theorem put (h : Holds path backups spot slots files) (hle : count ≤ backups)
    (hin : files.InDirectory (spot count)) (bytes : ByteArray) :
    Holds path backups spot (Function.update slots count (some bytes))
      (files.put (spot count) (.file bytes)) := by
  have hput : Changes (· = spot count) (fun _ => False) files
      (files.put (spot count) (.file bytes)) :=
    changes_put h.sound hin (h.node_ne_directory hle) (.inl rfl)
  refine h.of_changes hlies hput (fun location hplace other hother hpre => ?_)
    fun other hother => ?_
  · subst hplace
    exact congrArg spot ((prefix_iff hlies hle hother).mp hpre).symm
  · rw [node?_put hin.ne_nil, update_apply]
    simp only [spot_eq_iff hlies hle hother]
    split
    · rfl
    · exact h.node other hother

theorem erase (h : Holds path backups spot slots files) (hle : count ≤ backups) :
    Holds path backups spot (Function.update slots count none) (files.erase (spot count)) := by
  have hnot := h.node_ne_directory hle
  have herase : Changes (· = spot count) (fun _ => False) files (files.erase (spot count)) :=
    changes_erase h.sound hnot rfl
  refine h.of_changes hlies herase (fun location hplace other hother hpre => ?_)
    fun other hother => ?_
  · subst hplace
    exact congrArg spot ((prefix_iff hlies hle hother).mp hpre).symm
  · rw [node?_erase (Sound.ne_nil hnot), update_apply]
    simp only [spot_eq_iff hlies hle hother]
    split
    · rfl
    · exact h.node other hother

theorem move (h : Holds path backups spot slots files) (hlt : count < backups)
    (hmovable : files.Movable (spot count) (spot (count + 1))) :
    Holds path backups spot
      (Function.update (Function.update slots (count + 1) (slots count)) count none)
        (files.move (spot count) (spot (count + 1))) := by
  have hle := Nat.le_of_lt hlt
  -- Below the two places there is nothing, so that only the places themselves matter.
  have hmove : Changes (fun location => spot count <+: location ∨ spot (count + 1) <+: location)
      (fun _ => False) files (files.move (spot count) (spot (count + 1))) :=
    hmovable.changes h.sound fun _ => id
  refine h.of_changes hlies hmove (fun location hplace other hother hpre => ?_)
    fun other hother => ?_
  · obtain hplace | hplace := hplace
    · have heq := (prefix_iff hlies hle hother).mp (hplace.trans hpre)
      exact hpre.eq_of_length_le (heq ▸ hplace.length_le)
    · have heq := (prefix_iff hlies hlt hother).mp (hplace.trans hpre)
      exact hpre.eq_of_length_le (heq ▸ hplace.length_le)
  · rw [hmovable.node?_move h.sound, update_apply, update_apply]
    simp only [prefix_iff hlies hle hother, prefix_iff hlies hlt hother]
    by_cases hnext : other = count + 1
    · rw [if_pos hnext, if_neg (by omega), if_pos hnext, hnext, List.drop_length,
        List.append_nil, h.node count hle]
    · rw [if_neg hnext, if_neg hnext]
      split
      · rfl
      · exact h.node other hother

end FileSystem.Holds

namespace Session
open FileSystem Fallible

variable {session middle after : Session} {slots : Slots} {number count : Nat} {line : Text}

/-- Steps that all succeed, whatever comes after them. -/
def Performs (steps : List (Session → Except FileError Session)) (session after : Session) : Prop :=
  ∀ rest, perform (steps ++ rest) session = perform rest after

theorem Performs.nil (session : Session) : Performs [] session session :=
  fun _ => rfl

theorem Performs.cons {step : Session → Except FileError Session}
    {steps : List (Session → Except FileError Session)} (h : step session = .ok middle)
    (hsteps : Performs steps middle after) : Performs (step :: steps) session after := by
  intro rest
  rw [List.cons_append, perform, h]
  exact hsteps rest

theorem Performs.append {steps others : List (Session → Except FileError Session)}
    (h : Performs steps session middle) (hothers : Performs others middle after) :
    Performs (steps ++ others) session after := by
  intro rest
  rw [List.append_assoc, h, hothers]

variable (hlies : Lies path backups spot)
include hlies

theorem exists_clear (count : Nat) (h : Holds path backups spot slots session.files)
    (hle : count ≤ backups) :
    ∃ after, session.clear (backup path count) = .ok after ∧
      Holds path backups spot (Function.update slots count none) after.files := by
  rw [clear, h.holds_eq hle]
  cases hslot : slots count with
  | none =>
    refine ⟨session, rfl, ?_⟩
    rwa [Function.update_eq_self_iff.mpr hslot.symm]
  | some bytes =>
    have hremove : session.files.remove (backup path count) =
        .ok (spot count, session.files.erase (spot count)) := by
      rw [remove, h.resolve count hle]
      dsimp only [bind, Except.bind]
      rw [h.node count hle, hslot]
      rfl
    rw [hremove]
    exact ⟨_, rfl, h.erase hlies hle⟩

theorem exists_passOn (count : Nat) (h : Holds path backups spot slots session.files)
    (hlt : count < backups) (hfree : (slots count).isSome → slots (count + 1) = none) :
    ∃ after, session.passOn path count = .ok after ∧
    Holds path backups spot (slots.passed count) after.files := by
  have hle := Nat.le_of_lt hlt
  rw [passOn, h.holds_eq hle, Slots.passed]
  cases hslot : slots count with
  | none => exact ⟨session, rfl, h⟩
  | some bytes =>
    have hold : session.files.node? (spot count) = some (.file bytes) := by
      rw [h.node count hle, hslot]; rfl
    have hnew : session.files.node? (spot (count + 1)) = none := by
      rw [h.node _ hlt, hfree (by rw [hslot]; rfl)]
      rfl
    have hbusy : ¬ (spot count <+: spot (count + 1) ∨ spot count <+: session.files.base) := by
      rintro (hpre | hpre)
      · exact absurd (hlies.apart count hle _ hlt hpre) (Nat.ne_of_lt (Nat.lt_succ_self count))
      · cases hold.symm.trans (h.sound.directory_above h.sound.there hpre)
    have hrename : session.files.rename (backup path count) (backup path (count + 1)) =
        .ok (spot count, spot (count + 1), session.files.move (spot count) (spot (count + 1))) := by
      rw [rename, h.resolve count hle, h.resolve _ hlt]
      change (if _ = none then _ else if _ ≠ none then _ else if _ then _ else _) = _
      rw [if_neg (by simp [hold]), if_neg (not_not.mpr hnew), if_neg hbusy]
    obtain ⟨-, -, hmovable, -⟩ := rename_eq_ok h.sound hrename
    rw [hrename, ← hslot]
    refine ⟨_, if_pos (hslot ▸ rfl), ?_⟩
    rw [if_pos (hslot ▸ rfl)]
    exact h.move hlies hlt hmovable

theorem exists_passed (h : Holds path backups spot slots session.files) (hlt : count < backups) :
    ∃ after, Performs [makeWay path count, passOn path count] session after ∧
      Holds path backups spot (slots.passed count) after.files := by
  have hway : ∃ middle, session.makeWay path count = .ok middle ∧ Holds path backups spot
      (if (slots count).isSome then Function.update slots (count + 1) none else slots)
      middle.files := by
    rw [makeWay, h.holds_eq (Nat.le_of_lt hlt)]
    split
    · exact exists_clear hlies _ h hlt
    · exact ⟨session, rfl, h⟩
  obtain ⟨middle, hmiddle, hcleared⟩ := hway
  have hne : count ≠ count + 1 := Nat.ne_of_lt (Nat.lt_succ_self count)
  have hsame : Slots.passed count
      (if (slots count).isSome then Function.update slots (count + 1) none else slots) =
        slots.passed count := by
    cases hslot : slots count with
    | none => rfl
    | some bytes => simp [Slots.passed, hslot]
  obtain ⟨after, hafter, hpassed⟩ := exists_passOn hlies _ hcleared hlt (by
    cases hslot : slots count with
    | none => simp [hslot]
    | some bytes => simp)
  exact ⟨after, .cons hmiddle (.cons hafter (.nil after)), hsame ▸ hpassed⟩

theorem exists_passBackups (session : Session) (h : Holds path backups spot slots session.files)
    (hlt : count < backups) :
    ∃ after, Performs (passBackups path count) session after ∧
      Holds path backups spot (slots.passedFrom count) after.files := by
  induction count generalizing session slots with
  | zero => exact ⟨session, .nil session, h⟩
  | succ count ih =>
    obtain ⟨middle, hfirst, hmiddle⟩ := exists_passed hlies h hlt
    obtain ⟨after, hrest, hafter⟩ := ih _ hmiddle (Nat.lt_of_succ_lt hlt)
    exact ⟨after, hfirst.append hrest, hafter⟩

theorem exists_openStream (number : Nat) (h : Holds path backups spot slots session.files) :
    ∃ after, session.openStream number path = .ok after ∧
      Holds path backups spot (Function.update slots 0 (some slots.current)) after.files ∧
      after.streams number = .opened (spot 0) := by
  have hresolve := h.resolve 0 (Nat.zero_le _)
  rw [backup_zero] at hresolve
  have hin := (h.sound.resolve hresolve).2.resolve_left (h.node_ne_directory (Nat.zero_le _))
  have hopen : session.files.openFile path id =
      .ok (spot 0, session.files.put (spot 0) (.file slots.current)) := by
    have hnode := h.node 0 (Nat.zero_le _)
    rw [openFile, hresolve]
    change (session.files.update path id >>= fun opened => .ok (spot 0, opened)) = _
    rw [update_of_ok hresolve, hnode, Slots.current]
    cases slots 0 <;> rfl
  rw [openStream, hopen]
  exact ⟨_, rfl, h.put hlies (Nat.zero_le _) hin _, if_pos rfl⟩

theorem exists_rotate (number : Nat) (h : Holds path backups spot slots session.files)
    (hthere : (slots 0).isSome) (hpos : 0 < backups) :
    ∃ after, Performs (rotate number path backups) session after ∧
      Holds path backups spot (slots.rotated backups) after.files ∧
      after.streams number = .opened (spot 0) := by
  obtain ⟨last, rfl⟩ : ∃ last, backups = last + 1 := ⟨backups - 1, by omega⟩
  have hfirst : Slots.passedFrom last slots 0 = slots 0 := Slots.passedFrom_zero slots last
  obtain ⟨passed, hpassed, hbackups⟩ :=
    exists_passBackups hlies (session.setStream number .closed) h (Nat.lt_succ_self last)
  obtain ⟨cleared, hcleared, hfree⟩ := exists_clear hlies 1 hbackups (Nat.le_add_left 1 last)
  have hzero : Function.update (Slots.passedFrom last slots) 1 none 0 = slots 0 :=
    (Function.update_of_ne Nat.zero_ne_one _ _).trans hfirst
  obtain ⟨moved, hmoved, hfile⟩ := exists_passOn hlies 0 hfree (Nat.succ_pos last) fun _ =>
    Function.update_self ..
  have hpassedFile :
      Slots.passed 0 (Function.update (Slots.passedFrom last slots) 1 none) =
        Function.update (Function.update (Function.update (Slots.passedFrom last slots) 1 none)
          1 (slots 0)) 0 none := by
    rw [Slots.passed, hzero, if_pos hthere]
  rw [hpassedFile] at hfile
  obtain ⟨after, hafter, hslots, hstream⟩ := exists_openStream hlies number hfile
  rw [Slots.current, Function.update_self] at hslots
  rw [Slots.rotated_eq hthere]
  refine ⟨after, ?_, hslots, hstream⟩
  exact .cons rfl (hpassed.append (.cons hcleared (.cons hmoved (.cons hafter (.nil after)))))

end Session

/-- A handler has its log file open, and the file and its backups hold this. -/
structure Session.Stands (number : Nat) (path : Text) (backups : Nat)
    (spot : Nat → Location) (slots : Slots) (session : Session) : Prop where
  holds : session.files.Holds path backups spot slots
  there : (slots 0).isSome
  stream : session.streams number = .opened (spot 0)

namespace Session.Stands
variable {session after : Session} {slots : Slots} {number : Nat} {line : Text} {kept : Nat}

theorem exists_bytes (h : Stands number path backups spot slots session) :
    ∃ bytes, slots 0 = some bytes ∧ session.files.node? (spot 0) = some (.file bytes) := by
  obtain ⟨bytes, hbytes⟩ := Option.isSome_iff_exists.mp h.there
  have hnode := h.holds.node 0 (Nat.zero_le _)
  rw [hbytes] at hnode
  exact ⟨bytes, hbytes, hnode⟩

theorem isFull_eq (h : Stands number path backups spot slots session) (line : Text) :
    session.isFull number path line = decide (sizeLimit ≤ slots.current.size + line.length) := by
  obtain ⟨bytes, hbytes, hnode⟩ := h.exists_bytes
  have hdirectory := h.holds.isDirectory_eq (Nat.zero_le _)
  rw [backup_zero] at hdirectory
  have hsize : session.streamSize number = slots.current.size := by
    rw [streamSize, h.stream, Slots.current, hbytes]
    simp only [sizeAt, hnode, Option.getD_some]
  rw [isFull, hdirectory, hsize]
  rfl

theorem writeFile_eq (h : Stands number path backups spot slots session)
    (kept : Nat) (line : Text) :
    session.writeFile number path kept line =
      perform
        ((if sizeLimit ≤ slots.current.size + line.length then rotate number path kept else []) ++
          [fun session => .ok (session.addText number line)]) session := by
  have hopen : session.ensureOpen number path = .ok session := by
    simp [ensureOpen, h.stream]
  rw [writeFile, hopen]
  dsimp only
  rw [h.isFull_eq]
  simp only [decide_eq_true_eq]

variable (hlies : Lies path backups spot)
include hlies

theorem addText (h : Stands number path backups spot slots session) (line : Text) :
    Stands number path backups spot (slots.added line.bytes) (session.addText number line) := by
  obtain ⟨bytes, hbytes, hnode⟩ := h.exists_bytes
  have hin := (h.holds.sound.resolve (h.holds.resolve 0 (Nat.zero_le _))).2.resolve_left
    (h.holds.node_ne_directory (Nat.zero_le _))
  rw [Session.addText, h.stream, Text.bytes]
  cases Utf8.encode line with
  | error fault =>
    change Stands number path backups spot (slots.added .empty) session
    rwa [Slots.added_empty h.there]
  | ok added =>
    have halter : session.files.alter (spot 0) (· ++ added) =
        session.files.put (spot 0) (.file (slots.current ++ added)) := by
      rw [FileSystem.alter, hnode, Slots.current, hbytes]
      rfl
    refine ⟨?_, by rw [Slots.added, Function.update_self]; rfl, h.stream⟩
    change FileSystem.Holds path backups spot _ (session.files.alter (spot 0) (· ++ added))
    rw [halter]
    exact h.holds.put hlies (Nat.zero_le _) hin _

theorem writeFile_of_room (h : Stands number path backups spot slots session) (kept : Nat)
    (hroom : slots.current.size + line.length < sizeLimit) :
    Stands number path backups spot (slots.added line.bytes)
      (session.writeFile number path kept line) := by
  rw [h.writeFile_eq kept, if_neg (Nat.not_le.mpr hroom)]
  exact h.addText hlies line

/-- Where all backups can be reached, the file is rotated before it would get too large. -/
theorem writeFile (h : Stands number path backups spot slots session)
    (hpos : 0 < backups) (line : Text) :
    Stands number path backups spot (slots.written backups line)
      (session.writeFile number path backups line) := by
  by_cases hlimit : sizeLimit ≤ slots.current.size + line.length
  · obtain ⟨after, hrotate, hslots, hstream⟩ := exists_rotate hlies number h.holds h.there hpos
    have hafter : Stands number path backups spot (slots.rotated backups) after :=
      ⟨hslots, rfl, hstream⟩
    rw [h.writeFile_eq backups, if_pos hlimit, hrotate, Slots.written, if_pos hlimit]
    exact hafter.addText hlies line
  · rw [Slots.written, if_neg hlimit]
    exact h.writeFile_of_room hlies backups (Nat.not_le.mp hlimit)

theorem of_confined {other : Nat} {within : Location → Prop}
    (h : Stands number path backups spot slots session)
    (hconfined : Confined other within session after) (hother : number ≠ other)
    (haway : ∀ location, within location → ∀ count ≤ backups, ¬ location <+: spot count) :
    Stands number path backups spot slots after where
  holds := by
    refine h.holds.of_changes hlies hconfined.changes
      (fun location hplace count hle hpre => absurd hpre (haway location hplace count hle))
      fun count hle => ?_
    obtain hsame | hplace | ⟨hmade, -⟩ := hconfined.changes.node (spot count)
    · rw [hsame, h.holds.node count hle]
    · exact absurd List.prefix_rfl (haway _ hplace count hle)
    · exact hmade.elim
  there := h.there
  stream := hconfined.kept number hother _ h.stream fun hplace =>
    haway _ hplace 0 (Nat.zero_le _) List.prefix_rfl

end Session.Stands
end CatalogPress
