import CatalogPress.Proofs.Log.SetUp
import Mathlib.Logic.Function.Iterate

/-!
How often a record is written. Handlers of one log file write to that file and its backups only, and
each adds the line of a record once to one file. A file that is passed on keeps what it holds, so
that none gets the line more often than there are handlers of its log file.
-/
namespace CatalogPress

namespace LogFile
variable {file : LogFile} {location source target : Location}

/-- A location whose last name is that of a log file, or of one of its backups. -/
def Owns (file : LogFile) (location : Location) : Prop :=
  ∃ count ≤ file.backups, location.getLast? = some (Utf8.nameBytes (file.backupName count))

instance (file : LogFile) (location : Location) : Decidable (file.Owns location) :=
  inferInstanceAs (Decidable (∃ count ≤ _, _))

/-- The log file that a location is for by its last name, whatever directory it is in. -/
def at? (location : Location) : Option LogFile :=
  if main.Owns location then some main else if errors.Owns location then some errors else none

theorem not_owns_errors (h : main.Owns location) : ¬ errors.Owns location := by
  rintro ⟨other, hother, hlast⟩
  obtain ⟨count, hcount, heq⟩ := h
  obtain ⟨hsame, -⟩ :=
    backupName_inj (.inl rfl) (.inr rfl) hcount hother (Option.some.inj (heq.symm.trans hlast))
  exact absurd hsame (by decide)

theorem at?_of_owns (h : file.IsKnown) (howns : file.Owns location) : at? location = some file := by
  obtain rfl | rfl := h
  · exact if_pos howns
  · rw [at?, if_neg fun hmain => not_owns_errors hmain howns, if_pos howns]

theorem at?_cases (location : Location) : at? location = none ∨ at? location = some main ∨
    at? location = some errors := by
  unfold at?
  split
  · exact .inr (.inl rfl)
  · split
    · exact .inr (.inr rfl)
    · exact .inl rfl

theorem at?_append (location : Location) {rest : Location} (h : rest ≠ []) :
    at? (location ++ rest) = at? rest := by
  have howns (file : LogFile) : file.Owns (location ++ rest) ↔ file.Owns rest := by
    unfold Owns
    rw [List.getLast?_append_of_ne_nil location h]
  simp only [at?, howns]

theorem at?_moved (h : at? target = at? source) :
    at? (location.moved source target) = at? location := by
  by_cases hpre : source <+: location
  · obtain ⟨rest, rfl⟩ := hpre
    rw [Location.moved_append]
    by_cases hrest : rest = []
    · rw [hrest, List.append_nil, List.append_nil, h]
    · rw [at?_append _ hrest, at?_append _ hrest]
  · rw [Location.moved_of_not_below hpre]

end LogFile

namespace Handler
variable {handler : Handler} {file other : LogFile}

def isConsole (handler : Handler) : Bool :=
  handler.sink = .console

def isFor (file : LogFile) (handler : Handler) : Bool :=
  match handler.sink with
  | .console => false
  | .file path _ => (Path.ofText path).name = file.name

def Belongs (file : LogFile) (handler : Handler) : Prop :=
  file.IsKnown ∧ ∃ (files : FileSystem) (directory : String), files.Sound ∧
    handler = file.handler files directory

namespace Belongs

theorem isFor_eq (h : handler.Belongs file) (other : LogFile) :
    handler.isFor other = decide ((file.name : Text) = other.name) := by
  obtain ⟨hfile, files, directory, hsound, rfl⟩ := h
  have hlast : (Path.ofText (files.logPath directory file.name)).name = file.name := by
    rw [Path.name, (hsound.ofText_logPath directory (LogFile.plainName hfile)).2.2,
      List.getLast?_concat, Option.getD_some]
  change decide ((Path.ofText (files.logPath directory file.name)).name = other.name) = _
  rw [hlast]

theorem at?_place (h : handler.Belongs file) {path : Text} {backups : Nat}
    (hsink : handler.sink = .file path backups) (files : FileSystem)
    {count : Nat} (hle : count ≤ backups) :
    LogFile.at? (files.place (Path.ofText (Session.backup path count))) = some file := by
  obtain ⟨hfile, other, directory, hsound, rfl⟩ := h
  cases hsink
  rw [hsound.place_backup files directory hfile hle]
  exact LogFile.at?_of_owns hfile ⟨count, hle, List.getLast?_concat⟩

end Belongs
end Handler

/-- Every file holds what some file for the same held before, or nothing, and after that some bytes,
so many times. -/
def FileSystem.Gains (added : ByteArray) (times : Option LogFile → Nat)
    (before after : FileSystem) : Prop :=
  ∀ location bytes, after.node? location = some (.file bytes) →
    ∃ count ≤ times (LogFile.at? location), ∃ old,
      (old = .empty ∨ ∃ origin,
        LogFile.at? origin = LogFile.at? location ∧ before.node? origin = some (.file old)) ∧
      bytes = (· ++ added)^[count] old

namespace FileSystem
variable {added : ByteArray} {times times' : Option LogFile → Nat}
  {files before middle after : FileSystem}

theorem Gains.of_origins
    (h : ∀ location bytes, after.node? location = some (.file bytes) →
      bytes = .empty ∨ ∃ origin,
        LogFile.at? origin = LogFile.at? location ∧ before.node? origin = some (.file bytes)) :
    Gains added times before after :=
  fun location bytes hfile => ⟨0, Nat.zero_le _, bytes, h location bytes hfile, rfl⟩

theorem Gains.refl (files : FileSystem) : Gains added times files files :=
  .of_origins fun location _ hfile => .inr ⟨location, rfl, hfile⟩

theorem Gains.trans (h : Gains added times before middle)
    (hnext : Gains added times' middle after) :
    Gains added (fun file => times' file + times file) before after := by
  intro location bytes hfile
  obtain ⟨count, hcount, old, rfl | ⟨origin, horigin, hold⟩, rfl⟩ := hnext location bytes hfile
  · exact ⟨count, Nat.le_add_right_of_le hcount, .empty, .inl rfl, rfl⟩
  · obtain ⟨first, hfirst, oldest, holdest, rfl⟩ := h origin old hold
    rw [horigin] at hfirst holdest
    exact ⟨count + first, Nat.add_le_add hcount hfirst, oldest, holdest,
      (Function.iterate_add_apply ..).symm⟩

theorem Gains.mono (h : Gains added times before after)
    (hle : ∀ location, times (LogFile.at? location) ≤ times' (LogFile.at? location)) :
    Gains added times' before after := by
  intro location bytes hfile
  obtain ⟨count, hcount, hold⟩ := h location bytes hfile
  exact ⟨count, hcount.trans (hle _), hold⟩

theorem gains_update {path : Text} (h : files.Sound) (hok : files.update path id = .ok after) :
    Gains added times files after := by
  obtain ⟨place, old, -, hin, hold, rfl⟩ := update_eq_ok h hok
  refine .of_origins fun location bytes hfile => ?_
  rw [node?_put hin.ne_nil] at hfile
  split at hfile
  · rename_i heq
    cases hfile
    exact hold.imp And.right fun hthere => ⟨location, rfl, heq ▸ hthere⟩
  · exact .inr ⟨location, rfl, hfile⟩

theorem gains_erase {place : Location} (hne : place ≠ []) :
    Gains added times files (files.erase place) := by
  refine .of_origins fun location bytes hfile => .inr ⟨location, rfl, ?_⟩
  rw [node?_erase hne] at hfile
  split at hfile
  · cases hfile
  · exact hfile

theorem gains_move {source target : Location} (h : files.Sound)
    (hmovable : files.Movable source target) (hsame : LogFile.at? target = LogFile.at? source) :
    Gains added times files (files.move source target) := by
  refine .of_origins fun location bytes hfile => .inr ?_
  rw [hmovable.node?_move h] at hfile
  split at hfile
  · rename_i hpre
    obtain ⟨rest, rfl⟩ := hpre
    rw [List.drop_left] at hfile
    refine ⟨source ++ rest, ?_, hfile⟩
    rw [← Location.moved_append source target rest, LogFile.at?_moved hsame]
  · split at hfile
    · cases hfile
    · exact ⟨location, rfl, hfile⟩

theorem gains_alter (files : FileSystem) (place : Location) (added : ByteArray) :
    Gains added (fun file => if file = LogFile.at? place then 1 else 0) files
      (files.alter place (· ++ added)) := by
  rw [alter]
  split
  swap
  · exact .refl files
  rename_i old hold
  have hne : place ≠ [] := by
    rintro rfl
    cases hold
  intro location bytes hfile
  rw [node?_put hne] at hfile
  split at hfile
  · rename_i heq
    cases hfile
    exact ⟨1, heq ▸ Nat.le_of_eq (if_pos rfl).symm, old, .inr ⟨place, by rw [heq], hold⟩, rfl⟩
  · exact ⟨0, Nat.zero_le _, bytes, .inr ⟨location, rfl, hfile⟩, rfl⟩

end FileSystem

namespace Session
open FileSystem

variable {session before middle after : Session} {line path : Text}
  {handler : Handler} {handlers : List Handler} {number backups : Nat} {file : LogFile}

/-- Every handler of a file belongs to one of the log files, and what it has open is for that. -/
def Anchored (session : Session) : Prop :=
  ∀ number handler, session.logging.handlers[number]? = some handler → handler.sink = .console ∨
    ∃ file, handler.Belongs file ∧
      ∀ location, session.streams number = .opened location → LogFile.at? location = some file

def writers (handlers : List Handler) : Option LogFile → Nat
  | none => 0
  | some file => handlers.countP (Handler.isFor file)

structure Copies (line : Text) (handlers : List Handler) (before after : Session) : Prop where
  sound : after.files.Sound
  logging : after.logging = before.logging
  anchored : after.Anchored
  console : ∃ count ≤ handlers.countP Handler.isConsole,
    after.console = (· ++ line.shown)^[count] before.console
  files : Gains ((Utf8.encode line).toOption.getD .empty)
    (writers handlers) before.files after.files

theorem Copies.refl (h : session.files.Sound) (hanchored : session.Anchored) (line : Text)
    (handlers : List Handler) :
    Copies line handlers session session :=
  ⟨h, rfl, hanchored, ⟨0, Nat.zero_le _, rfl⟩, .refl _⟩

theorem writers_append (first rest : List Handler) (file : Option LogFile) :
    writers (first ++ rest) file = writers rest file + writers first file := by
  cases file with
  | none => rfl
  | some file => rw [writers, List.countP_append, Nat.add_comm]; rfl

theorem Copies.trans {rest : List Handler} (h : Copies line handlers before middle)
    (hrest : Copies line rest middle after) : Copies line (handlers ++ rest) before after where
  sound := hrest.sound
  logging := hrest.logging.trans h.logging
  anchored := hrest.anchored
  console := by
    obtain ⟨first, hfirst, hmiddle⟩ := h.console
    obtain ⟨count, hcount, hafter⟩ := hrest.console
    refine ⟨count + first, ?_, ?_⟩
    · rw [List.countP_append, Nat.add_comm]
      exact Nat.add_le_add hfirst hcount
    · rw [hafter, hmiddle, Function.iterate_add_apply]
  files := (h.files.trans hrest.files).mono
    fun _ => Nat.le_of_eq (writers_append handlers rest _).symm

theorem Anchored.of_streams (h : before.Anchored) (hlogging : after.logging = before.logging)
    (hstreams : ∀ number location, after.streams number = .opened location →
      (∀ handler file, before.logging.handlers[number]? = some handler → handler.Belongs file →
        LogFile.at? location = some file) ∨
      ∃ old, before.streams number = .opened old ∧ LogFile.at? location = LogFile.at? old) :
    after.Anchored := by
  intro number handler hhandler
  rw [hlogging] at hhandler
  refine (h number handler hhandler).imp_right ?_
  rintro ⟨file, hbelongs, hopen⟩
  refine ⟨file, hbelongs, fun location hopened => ?_⟩
  obtain hat | ⟨old, hold, hat⟩ := hstreams number location hopened
  · exact hat handler file hhandler hbelongs
  · rw [hat, hopen old hold]

theorem Anchored.setStream (h : session.Anchored) {stream : Stream}
    (hstream : ∀ location, stream = .opened location → ∀ handler file,
      session.logging.handlers[number]? = some handler → handler.Belongs file →
      LogFile.at? location = some file) :
    (session.setStream number stream).Anchored := by
  refine h.of_streams rfl fun other location hopened => ?_
  obtain ⟨rfl, hset⟩ | hsame := of_setStream hopened
  · exact .inl (hstream location hset)
  · exact .inr ⟨location, hsame, rfl⟩

theorem Anchored.belongs (h : session.Anchored)
    (hhandler : session.logging.handlers[number]? = some handler)
    (hsink : handler.sink = .file path backups) : ∃ file, handler.Belongs file ∧
      ∀ location, session.streams number = .opened location → LogFile.at? location = some file :=
  (h number handler hhandler).resolve_left (by simp [hsink])

theorem copies_touches (h : session.files.Sound) (hanchored : session.Anchored)
    (hhandler : session.logging.handlers[number]? = some handler)
    (hsink : handler.sink = .file path backups)
    (htouches : Touches number path backups session after) : Copies line [] session after := by
  obtain ⟨file, hbelongs, -⟩ := hanchored.belongs hhandler hsink
  have hplace {count : Nat} (hle : count ≤ backups) := hbelongs.at?_place hsink session.files hle
  have hconsole : ∃ count ≤ 0, session.console = (· ++ line.shown)^[count] session.console :=
    ⟨0, Nat.le_refl 0, rfl⟩
  cases htouches with
  | closed => exact ⟨h, rfl, hanchored.setStream (by simp), hconsole, .refl _⟩
  | @opened place files hopen =>
    obtain ⟨heq, hupdate⟩ := openFile_eq_ok h hopen
    have hchanges : Changes _ (fun _ => False) session.files files := changes_update h hupdate
    refine ⟨hchanges.sound, rfl, Anchored.setStream hanchored ?_, hconsole, gains_update h hupdate⟩
    intro location hopened other file' hother hbelongs'
    cases hopened
    cases hother.symm.trans hhandler
    have hat := hbelongs'.at?_place hsink session.files (Nat.zero_le backups)
    rw [backup_zero] at hat
    rw [heq, hat]
  | @cleared count place files hle hremove =>
    obtain ⟨rfl, ⟨bytes, hnode⟩, rfl⟩ := remove_eq_ok h hremove
    have hnot : session.files.node? (session.files.place (Path.ofText (backup path count))) ≠
        some .directory := by
      rw [hnode]
      exact nofun
    refine ⟨h.erase hnot, rfl, hanchored.of_streams rfl
      fun other location hopened => .inr ?_, hconsole, gains_erase (Sound.ne_nil hnot)⟩
    exact ⟨location, Stream.of_without hopened, rfl⟩
  | @passed count source target files hlt hrename =>
    obtain ⟨rfl, rfl, hmovable, rfl⟩ := rename_eq_ok h hrename
    have hsame := (hplace (Nat.succ_le_of_lt hlt)).trans (hplace (Nat.le_of_lt hlt)).symm
    refine ⟨hmovable.sound h, rfl, hanchored.of_streams rfl
      fun other location hopened => .inr ?_, hconsole, gains_move h hmovable hsame⟩
    obtain ⟨place, hstream, rfl⟩ := Stream.exists_of_moved hopened
    exact ⟨place, hstream, LogFile.at?_moved hsame⟩

theorem copies_makesRoom (h : session.files.Sound) (hanchored : session.Anchored)
    (hhandler : session.logging.handlers[number]? = some handler)
    (hsink : handler.sink = .file path backups)
    (hroom : MakesRoom number path backups session after) : Copies line [] session after := by
  induction hroom with
  | refl => exact .refl h hanchored line []
  | tail _ htouches ih =>
    exact ih.trans (copies_touches ih.sound ih.anchored (ih.logging ▸ hhandler) hsink htouches)

theorem copies_addText (h : session.files.Sound) (hanchored : session.Anchored)
    (hhandler : session.logging.handlers[number]? = some handler)
    (hsink : handler.sink = .file path backups) (line : Text) :
    Copies line [handler] session (session.addText number line) := by
  obtain ⟨file, hbelongs, hopen⟩ := hanchored.belongs hhandler hsink
  rw [addText]
  split
  · rename_i bytes location hencode hstream
    have hwrites : handler.isFor file = true := hbelongs.isFor_eq file ▸ decide_eq_true rfl
    have halter := gains_alter session.files location bytes
    have hchanges : Changes (fun _ => True) (fun _ => False) session.files
        (session.files.alter location (· ++ bytes)) := changes_alter h _ trivial
    refine ⟨hchanges.sound, rfl, hanchored, ⟨0, Nat.zero_le _, rfl⟩, ?_⟩
    rw [hencode]
    refine halter.mono fun place => ?_
    split
    · rename_i heq
      rw [heq, hopen location hstream, writers, List.countP_singleton, hwrites]
      exact Nat.le_refl 1
    · exact Nat.zero_le _
  · exact ⟨h, rfl, hanchored.setStream (by simp), ⟨0, Nat.zero_le _, rfl⟩, .refl _⟩
  · exact .refl h hanchored line _

theorem copies_handle (h : session.files.Sound) (hanchored : session.Anchored)
    (hhandler : session.logging.handlers[number]? = some handler) (level : Int) (line : Text) :
    Copies line [handler] session (session.handle level line (handler, number)) := by
  rw [handle]
  split
  swap
  · exact .refl h hanchored line _
  cases hsink : handler.sink with
  | console =>
    have hone : [handler].countP Handler.isConsole = 1 := by simp [Handler.isConsole, hsink]
    exact ⟨h, rfl, hanchored, ⟨1, Nat.le_of_eq hone.symm, rfl⟩, .refl _⟩
  | file path backups =>
    obtain ⟨middle, hroom, hlost | hadded⟩ := writeFile_cases number path backups line session
    · rw [write, hlost]
      have hmiddle : Copies line [] session middle :=
        copies_makesRoom h hanchored hhandler hsink hroom
      exact hmiddle.trans (.refl hmiddle.sound hmiddle.anchored line [handler])
    · have hmiddle : Copies line [] session middle :=
        copies_makesRoom h hanchored hhandler hsink hroom
      rw [write, hadded]
      exact hmiddle.trans
        (copies_addText hmiddle.sound hmiddle.anchored (hmiddle.logging ▸ hhandler) hsink line)

theorem copies_foldl (session : Session) (h : session.files.Sound) (hanchored : session.Anchored)
    (level : Int) (line : Text) {entries : List (Handler × Nat)}
    (hentries : ∀ entry ∈ entries, session.logging.handlers[entry.2]? = some entry.1) :
    Copies line (entries.map (·.1)) session (entries.foldl (handle level line) session) := by
  induction entries generalizing session with
  | nil => exact .refl h hanchored line []
  | cons entry entries ih =>
    obtain ⟨hentry, hentries⟩ := List.forall_mem_cons.mp hentries
    have hfirst := copies_handle h hanchored hentry level line
    exact hfirst.trans (ih _ hfirst.sound hfirst.anchored (hfirst.logging ▸ hentries))

def nextLine (session : Session) (record : LogRecord) : Text :=
  record.line (session.logging.stamps session.taken.length)

/-- What is shown of a record: its line, or only its message where no handlers are set up. -/
def shownText (session : Session) (record : LogRecord) : Text :=
  if session.logging.handlers.isEmpty then record.message ++ "\n" else session.nextLine record

structure Logged (record : LogRecord) (before after : Session) : Prop where
  sound : after.files.Sound
  logging : after.logging = before.logging
  anchored : after.Anchored
  console : ∃ count ≤ max 1 (before.logging.handlers.countP Handler.isConsole),
    after.console = (· ++ (before.shownText record).shown)^[count] before.console
  files : Gains ((Utf8.encode (before.nextLine record)).toOption.getD .empty)
    (writers before.logging.handlers) before.files after.files

theorem logged_log (h : session.files.Sound) (hanchored : session.Anchored) (record : LogRecord) :
    Logged record session (session.log record) := by
  rw [log]
  split
  swap
  · exact ⟨h, rfl, hanchored, ⟨0, Nat.zero_le _, rfl⟩, .refl _⟩
  dsimp only
  split
  · rename_i hempty
    split
    · refine ⟨h, rfl, hanchored, ⟨1, Nat.le_max_left _ _, ?_⟩, .refl _⟩
      rw [shownText, if_pos hempty]
      rfl
    · exact ⟨h, rfl, hanchored, ⟨0, Nat.zero_le _, rfl⟩, .refl _⟩
  · rename_i hhandlers
    have hcopies := copies_foldl { session with taken := session.taken ++ [record] } h hanchored
      record.level (session.nextLine record) fun _ => List.mem_zipIdx_iff_getElem?.mp
    rw [List.zipIdx_map_fst] at hcopies
    obtain ⟨count, hcount, hconsole⟩ := hcopies.console
    refine ⟨hcopies.sound, hcopies.logging, hcopies.anchored,
      ⟨count, hcount.trans (Nat.le_max_right _ _), ?_⟩, hcopies.files⟩
    rw [shownText, if_neg hhandlers]
    exact hconsole

end Session
end CatalogPress
