import CatalogPress.Proofs.Log.Taking

/-!
What the outputs have received once logging has been set up with a log directory and any number of
records has been logged.
-/
namespace CatalogPress.Session
open FileSystem Fallible

variable {session before after : Session} {path : Text} {backups number count : Nat}
  {spot : Nat → Location} {slots : Slots} {level : Int} {files : FileSystem} {directory : String}
  {file : LogFile}

def held (session : Session) (path : Text) : Slots := fun count =>
  match session.files.lookup (backup path count) with
  | .ok (some (.file bytes)) => some bytes
  | _ => none

/-- A log file and its backups can be reached, and none of them is a directory. -/
def CanRotate (session : Session) (path : Text) (backups : Nat) : Prop :=
  ∀ count ≤ backups, (session.files.lookup (backup path count)).isOk = true ∧
    session.files.isDirectory (backup path count) = false

instance (path : Text) (backups : Nat) : Decidable (session.CanRotate path backups) :=
  inferInstanceAs (Decidable (∀ count ≤ _, _))

theorem held_eq (h : session.files.Holds path backups spot slots) (hle : count ≤ backups) :
    session.held path count = slots count := by
  rw [held, h.lookup hle]
  cases slots count <;> rfl

theorem stands_of_canRotate (hlies : Lies path backups spot)
    (h : Stands number path 0 spot slots session) (hrotate : session.CanRotate path backups) :
    Stands number path backups spot (session.held path) session where
  holds := by
    have hlookup (count : Nat) (hle : count ≤ backups) :
        session.files.resolve (backup path count) = .ok (spot count) ∧
          session.files.node? (spot count) = (session.held path count).map .file := by
      obtain ⟨hok, hdirectory⟩ := hrotate count hle
      obtain ⟨node, hnode⟩ := exists_of_isOk hok
      obtain ⟨location, hresolve, hthere⟩ := map_eq_ok.mp hnode
      have hplace := (h.holds.sound.resolve hresolve).1
      rw [hlies.place _ count hle] at hplace
      subst hplace
      refine ⟨hresolve, hthere.trans ?_⟩
      rw [isDirectory, hnode] at hdirectory
      rw [held, hnode]
      rcases node with _ | _ | _
      · rfl
      · rfl
      · cases hdirectory
    exact ⟨h.holds.sound, fun count hle => (hlookup count hle).1,
      fun count hle => (hlookup count hle).2⟩
  there := by
    rw [held_eq h.holds (Nat.le_refl 0)]
    exact h.there
  stream := h.stream

theorem Stands.read_eq (h : Stands number path backups spot slots session) :
    session.files.read path = .ok slots.current := by
  obtain ⟨bytes, hbytes, hnode⟩ := h.exists_bytes
  have hresolve := h.holds.resolve 0 (Nat.zero_le _)
  rw [backup_zero] at hresolve
  rw [read_of_file hresolve hnode, Slots.current, hbytes]
  rfl

/-- How a log file receives lines. While it stays below the limit they are added to its end. When it
does not, it is passed on to its backups, and the lines are found in these and in the file. -/
structure Receives (path : Text) (backups : Nat) (lines : List Text) (before after : Session) :
    Prop where
  there : ∃ bytes, before.files.read path = .ok bytes
  plain : ∀ bytes, before.files.read path = .ok bytes → Slots.Fit bytes.size lines →
    after.files.read path = .ok (bytes ++ Text.allBytes lines)
  rotated : before.CanRotate path backups → ∀ count ≤ backups,
    after.held path count = lines.foldl (Slots.written backups) (before.held path) count
  /-- Nothing but the oldest that was held is given up then, and all else stays in order. -/
  kept : before.CanRotate path backups → ∃ dropped,
    dropped ++ Slots.joined backups (after.held path) =
      Slots.joined backups (before.held path) ++ Text.allBytes lines

theorem receives_of_takes {lines : List Text} (hlies : Lies path backups spot) (hpos : 0 < backups)
    (h : Stands number path 0 spot slots before)
    (htakes : Takes number path backups spot lines before after) :
    Receives path backups lines before after where
  there := ⟨_, h.read_eq⟩
  plain := by
    intro bytes hread hfit
    cases h.read_eq.symm.trans hread
    rw [(htakes.plain slots h hfit).read_eq, Slots.current_added]
  rotated := fun hrotate _ hle =>
    held_eq (htakes.rotating _ (stands_of_canRotate hlies h hrotate)).holds hle
  kept := by
    intro hrotate
    have hstands := stands_of_canRotate hlies h hrotate
    obtain ⟨dropped, hdropped⟩ := Slots.exists_dropped _ hpos hstands.there lines
    refine ⟨dropped, ?_⟩
    rw [← hdropped, Slots.joined_congr fun _ hle => held_eq (htakes.rotating _ hstands).holds hle]

def Has (number : Nat) (file : LogFile) (files : FileSystem) (directory : String)
    (session : Session) : Prop :=
  ∃ slots, Stands number (files.logPath directory file.name) 0 (file.spot files directory) slots
    session

structure Owns (number : Nat) (file : LogFile) (files : FileSystem) (directory : String)
    (session : Session) : Prop where
  keeps : Keeps number file files directory session
  has : Has number file files directory session

theorem Owns.congr (h : Owns number file files directory before)
    (hfiles : after.files = before.files) (hstreams : after.streams = before.streams) :
    Owns number file files directory after where
  keeps := ⟨hfiles ▸ h.keeps.place, hstreams ▸ h.keeps.opened⟩
  has := by
    obtain ⟨slots, hstands⟩ := h.has
    exact ⟨slots, hfiles ▸ hstands.holds, hstands.there, hstreams ▸ hstands.stream⟩

theorem Owns.of_confined {other : LogFile} {number' : Nat}
    (h : Owns number file files directory before) (hfiles : files.Sound) (hfile : file.IsKnown)
    (hother : other.IsKnown) (hne : other ≠ file) (hnumber : number ≠ number')
    (hconfined : Confined number' (Within other files directory) before after) :
    Owns number file files directory after where
  keeps := h.keeps.elsewhere hconfined hnumber
    fun _ hplace => hplace.not_within hfile hother hne.symm
  has := by
    obtain ⟨slots, hstands⟩ := h.has
    refine ⟨slots, hstands.of_confined ((LogFile.lies hfile hfiles directory).mono (Nat.zero_le _))
      hconfined hnumber fun _ hplace count hle => ?_⟩
    exact hplace.away hother hfile hne count (hle.trans (Nat.zero_le _))

theorem has_of_openFile {place : Location} {opened : FileSystem} (h : session.files.Sound)
    (hlies : Lies path 0 spot)
    (hopen : session.files.openFile path id = .ok (place, opened)) :
    ∃ slots, Stands number path 0 spot slots
      (({ session with files := opened } : Session).setStream number (.opened place)) := by
  obtain ⟨hplace, hupdate⟩ := openFile_eq_ok h hopen
  obtain ⟨location, old, hresolve, -, hold, -⟩ := update_eq_ok h hupdate
  have hlocation := (h.resolve hresolve).1
  have hspot := hlies.place session.files 0 (Nat.le_refl 0)
  rw [backup_zero] at hspot
  rw [hspot] at hlocation
  subst hlocation
  obtain ⟨slots, hslots⟩ : ∃ slots : Slots,
      session.files.node? (spot 0) = (slots 0).map .file := by
    obtain ⟨hnone, -⟩ | hfile := hold
    · exact ⟨fun _ => none, hnone⟩
    · exact ⟨fun _ => some old, hfile⟩
  have hholds : Holds path 0 spot slots session.files := by
    refine ⟨h, fun count hle => ?_, fun count hle => ?_⟩
    · rw [Nat.le_zero.mp hle, backup_zero]
      exact hresolve
    · rw [Nat.le_zero.mp hle]
      exact hslots
  obtain ⟨after, hafter, hstands, hstream⟩ := exists_openStream hlies number hholds
  rw [openStream, hopen] at hafter
  cases hafter
  exact ⟨_, hstands, by rw [Function.update_self]; rfl, hstream⟩

/-- Opening a log file for a new handler gives it to that handler, and takes nothing from others. -/
structure HasOpened (number : Nat) (file : LogFile) (files : FileSystem) (directory : String)
    (before after : Session) : Prop where
  owns : Owns number file files directory after
  changes : Changes (Within file files directory) (fun _ => False) before.files after.files
  logging : after.logging = { before.logging with
    handlers := before.logging.handlers ++ [file.handler files directory] }
  others : ∀ other : LogFile, other.IsKnown → file ≠ other → ∀ number' ≠ number,
    Owns number' other files directory before → Owns number' other files directory after

theorem hasOpened_addFile (session : Session) (directory : String) (h : session.files.Sound)
    (hfile : file.IsKnown) (hfiles : files.Sound)
    (hbase : session.files.workingDirectory = files.workingDirectory)
    (hok : (session.addFile directory file).1 = .ok ()) :
    HasOpened session.logging.handlers.length file files directory session
      (session.addFile directory file).2 := by
  obtain ⟨error, herror⟩ | ⟨place, opened, hopen, hadded⟩ := session.addFile_cases directory file
  · rw [herror] at hok
    cases hok
  rw [hadded, LogFile.handler_congr hbase]
  rw [logPath_congr hbase] at hopen
  have hlies := LogFile.lies hfile hfiles directory
  have hspot := hlies.place session.files 0 (Nat.zero_le _)
  rw [backup_zero] at hspot
  obtain ⟨hplace, hupdate⟩ := openFile_eq_ok h hopen
  have hwithin : Within file files directory place :=
    ⟨0, Nat.zero_le _, (hplace.trans hspot) ▸ List.prefix_rfl⟩
  have hchanges : Changes (Within file files directory) (fun _ => False) session.files opened :=
    (changes_update h hupdate).mono (fun location heq => heq.trans hplace.symm ▸ hwithin)
      fun _ => id
  -- The handler itself makes no difference to what is open.
  generalize hopened : ({ session with files := opened } : Session).setStream
    session.logging.handlers.length (.opened place) = after
  have hconfined : Confined session.logging.handlers.length (Within file files directory) session
      after := by
    refine hopened ▸ .setStream (fun location hopened => ?_) hchanges
    cases hopened
    exact hwithin
  have hkeeps : Keeps session.logging.handlers.length file files directory after := by
    refine ⟨fun count hle location hpre => ⟨count, hle, ?_⟩, fun location hstream => ?_⟩
    · rwa [hlies.place _ count hle] at hpre
    · subst hopened
      cases (if_pos rfl).symm.trans hstream
      exact hwithin
  have howns : Owns session.logging.handlers.length file files directory after :=
    ⟨hkeeps, hopened ▸ has_of_openFile h (hlies.mono (Nat.zero_le _)) hopen⟩
  rw [withFile, hopened]
  constructor
  · exact howns.congr rfl rfl
  · exact hopened ▸ hchanges
  · exact hopened ▸ rfl
  · intro other hother hne number hnumber hother'
    exact (hother'.of_confined hfiles hother hfile hne hnumber hconfined).congr rfl rfl

theorem ready_addFiles (session : Session) (level : Int) (directory : String)
    (h : session.files.Sound)
    (hhandlers : session.logging.handlers = [⟨.console, level⟩])
    (hthreshold : session.logging.threshold = level)
    (hok : (session.addFiles directory).1 = .ok ()) :
    Ready level session.files directory (session.addFiles directory).2 ∧
      Has 1 .main session.files directory (session.addFiles directory).2 ∧
      Has 2 .errors session.files directory (session.addFiles directory).2 := by
  have hmade : Changes (fun _ => False) (session.files.Through (Path.ofText directory))
      session.files (session.files.ensureTree directory).2 := changes_ensureFromTop h _ directory
  rw [addFiles] at hok ⊢
  generalize session.files.ensureTree directory = tree at hmade hok ⊢
  obtain ⟨outcome, made⟩ := tree
  cases outcome with
  | error error => cases hok
  | ok =>
    dsimp only at hmade hok ⊢
    have hmain :=
      hasOpened_addFile { session with files := made } directory hmade.sound
        (.inl rfl) h hmade.workingDirectory
    generalize Session.addFile directory .main _ = first at hmain hok ⊢
    obtain ⟨outcome, middle⟩ := first
    cases outcome with
    | error error => cases hok
    | ok =>
      dsimp only at hmain hok ⊢
      replace hmain := hmain rfl
      rw [hhandlers] at hmain
      have hbase := hmain.changes.workingDirectory.trans hmade.workingDirectory
      have herrors := hasOpened_addFile middle directory hmain.changes.sound (.inr rfl) h hbase hok
      have hlogging := hmain.logging
      dsimp only at hlogging
      rw [hhandlers] at hlogging
      rw [hlogging] at herrors
      change HasOpened 2 .errors session.files directory middle _ at herrors
      have howns := herrors.others .main (.inl rfl) (by decide) 1 (by decide) hmain.owns
      refine ⟨⟨herrors.changes.sound, ?_, ?_, howns.keeps, herrors.owns.keeps⟩, howns.has,
        herrors.owns.has⟩
      · rw [herrors.logging, hlogging]
        exact hthreshold
      · rw [herrors.logging, hlogging]
        rfl

theorem ready_setUpLogging (h : session.files.Sound) (hhandlers : session.logging.handlers = [])
    (hconfigured : session.logging.configured = false) {levelName : String} (hne : directory ≠ "")
    (hok : (session.setUpLogging (some directory) levelName).1 = .ok ()) :
    ∃ level, Level.ofName levelName = .level level ∧
      Ready level session.files directory (session.setUpLogging (some directory) levelName).2 ∧
      Has 1 .main session.files directory (session.setUpLogging (some directory) levelName).2 ∧
      Has 2 .errors session.files directory
        (session.setUpLogging (some directory) levelName).2 := by
  have hdirectory : (some directory).filter (!·.isEmpty) = some directory :=
    Option.filter_some_pos (by simpa using hne)
  rw [setUpLogging, hconfigured, if_neg Bool.false_ne_true, hdirectory] at hok ⊢
  cases hlevel : Level.ofName levelName with
  | text text =>
    rw [hlevel] at hok
    cases hok
  | table shown =>
    rw [hlevel] at hok
    cases hok
  | level level =>
    rw [hlevel] at hok
    dsimp only at hok ⊢
    generalize hstart : Session.addHandler _ _ = start at hok ⊢
    have hready := ready_addFiles start level directory (hstart ▸ h)
      (hstart ▸ congrArg (· ++ _) hhandlers) (hstart ▸ rfl)
    have hfiles : start.files = session.files := hstart ▸ rfl
    rw [hfiles] at hready
    generalize start.addFiles directory = added at hok hready ⊢
    obtain ⟨outcome, after⟩ := added
    cases outcome with
    | error error => cases hok
    | ok =>
      obtain ⟨hready, hmain, herrors⟩ := hready rfl
      refine ⟨level, rfl, ⟨hready.sound, hready.threshold, hready.handlers, ?_, ?_⟩, ?_, ?_⟩
      · exact ⟨hready.main.place, hready.main.opened⟩
      · exact ⟨hready.errors.place, hready.errors.opened⟩
      · obtain ⟨slots, hstands⟩ := hmain
        exact ⟨slots, hstands.holds, hstands.there, hstands.stream⟩
      · obtain ⟨slots, hstands⟩ := herrors
        exact ⟨slots, hstands.holds, hstands.there, hstands.stream⟩

structure Received (level : Int) (files : FileSystem) (directory : String)
    (records : List LogRecord) (before after : Session) : Prop where
  logging : after.logging = before.logging
  main : Receives (files.logPath directory LogFile.main.name) LogFile.main.backups
    (before.linesFor level LogFile.main.level records) before after
  errors : Receives (files.logPath directory LogFile.errors.name) LogFile.errors.backups
    (before.linesFor level LogFile.errors.level records) before after
  console : after.console = (before.linesFor level level records).foldl
    (fun console line => console ++ line.shown) before.console

end CatalogPress.Session
