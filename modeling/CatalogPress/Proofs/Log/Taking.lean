import CatalogPress.Proofs.Log.Copies
import CatalogPress.Proofs.Log.Rotation

/-!
Taking records while the console and both log files are set up. The threshold is the chosen level
and comes before the level of every handler, so a log file gets the records that reach both, and
neither file is concerned when the other is written.
-/
namespace CatalogPress

theorem Lies.mono {path : Text} {backups kept : Nat} {spot : Nat → Location}
    (h : Lies path backups spot) (hle : kept ≤ backups) : Lies path kept spot where
  down := fun count hcount => h.down count (hcount.trans hle)
  place := fun files count hcount => h.place files count (hcount.trans hle)
  apart := fun count hcount other hother =>
    h.apart count (hcount.trans hle) other (hother.trans hle)

namespace LogFile
variable {file other : LogFile} {files : FileSystem}

def spot (file : LogFile) (files : FileSystem) (directory : String) (count : Nat) : Location :=
  files.place (Path.ofText directory) ++ [Utf8.nameBytes (file.backupName count)]

theorem spot_prefix_spot (h : file.IsKnown) (hother : other.IsKnown)
    (directory : String) {count number : Nat} (hle : count ≤ file.backups)
    (hle' : number ≤ other.backups)
    (hpre : file.spot files directory count <+: other.spot files directory number) :
    file = other ∧ count = number := by
  have hname := List.append_cancel_left (hpre.eq_of_length (by simp [spot]))
  exact backupName_inj h hother hle hle' (List.singleton_inj.mp hname)

theorem lies (h : file.IsKnown) (hsound : files.Sound) (directory : String) :
    Lies (files.logPath directory file.name) file.backups (file.spot files directory) where
  down := by
    intro count hle
    rw [FileSystem.backup_logPath files directory h hle]
    exact (hsound.ofText_logPath directory (plainName_backupName h hle)).2.1
  place := fun other count hle => hsound.place_backup other directory h hle
  apart := fun _ hle _ hle' hpre => (spot_prefix_spot h h directory hle hle' hpre).2

end LogFile

namespace Session
open FileSystem Fallible

variable {session before middle after : Session} {path : Text}
  {backups number count : Nat} {spot : Nat → Location} {slots : Slots}
  {lines more : List Text} {level : Int}

/-- A log file gets lines: with rotations where all backups can be reached, and in any case as long
as it does not get too large. -/
structure Takes (number : Nat) (path : Text) (backups : Nat)
    (spot : Nat → Location) (lines : List Text) (before after : Session) : Prop where
  rotating : ∀ slots, Stands number path backups spot slots before →
    Stands number path backups spot (lines.foldl (Slots.written backups) slots) after
  plain : ∀ slots, Stands number path 0 spot slots before → Slots.Fit slots.current.size lines →
    Stands number path 0 spot (slots.added (Text.allBytes lines)) after

namespace Takes

theorem of_stands (h : ∀ kept ≤ backups, ∀ slots, Stands number path kept spot slots before →
    Stands number path kept spot slots after) : Takes number path backups spot [] before after where
  rotating := h backups (Nat.le_refl _)
  plain := by
    intro slots hstands _
    rw [show Text.allBytes [] = .empty from rfl, Slots.added_empty hstands.there]
    exact h 0 (Nat.zero_le _) slots hstands

theorem trans (h : Takes number path backups spot lines before middle)
    (hnext : Takes number path backups spot more middle after) :
    Takes number path backups spot (lines ++ more) before after where
  rotating := by
    intro slots hstands
    rw [List.foldl_append]
    exact hnext.rotating _ (h.rotating slots hstands)
  plain := by
    intro slots hstands hfit
    obtain ⟨hfit, hfits⟩ := Slots.fit_append.mp hfit
    rw [Text.allBytes_append, ← Slots.added_added]
    refine hnext.plain _ (h.plain slots hstands hfit) ?_
    rwa [Slots.current_added, ByteArray.size_append]

theorem own (hlies : Lies path backups spot) (hpos : 0 < backups) (line : Text) :
    Takes number path backups spot [line] session (session.writeFile number path backups line) where
  rotating := fun slots hstands => hstands.writeFile hlies hpos line
  plain := by
    intro slots hstands hfit
    have hall : Text.allBytes [line] = line.bytes := ByteArray.append_empty
    rw [hall]
    exact hstands.writeFile_of_room (hlies.mono (Nat.zero_le _)) backups hfit.1

theorem other (hlies : Lies path backups spot) {other : Nat}
    {within : Location → Prop} (hne : number ≠ other)
    (hconfined : Confined other within before after)
    (haway : ∀ location, within location → ∀ count ≤ backups, ¬ location <+: spot count) :
    Takes number path backups spot [] before after :=
  of_stands fun _ hkept _ hstands => hstands.of_confined (hlies.mono hkept) hconfined hne
    fun location hplace count hle => haway location hplace count (hle.trans hkept)

end Takes

section Handles
variable {own : Int} {within : Location → Prop}

theorem takes_handle (hlies : Lies path backups spot) (hpos : 0 < backups)
    (own level : Int) (line : Text) (session : Session) :
    Takes number path backups spot (if own ≤ level then [line] else []) session
      (session.handle level line (⟨.file path backups, own⟩, number)) := by
  rw [handle]
  by_cases hlevel : own ≤ level
  · rw [if_pos hlevel, if_pos hlevel]
    exact .own hlies hpos line
  · rw [if_neg hlevel, if_neg hlevel]
    exact .of_stands fun _ _ _ => id

theorem confined_handle (h : session.files.Sound)
    (hin : Contained number path backups within session) (level : Int) (line : Text) :
    Confined number within session (session.handle level line (⟨.file path backups, own⟩,
    number)) := by
  rw [handle]
  split
  · exact confined_writeFile h hin line
  · exact .refl h

end Handles

/-- The lines of the records that a handler of some level writes, after the threshold has let them
pass. -/
def linesFor (session : Session) (level own : Int) (records : List LogRecord) : List Text :=
  (((records.filter (·.reaches level)).zipIdx session.taken.length).filter (own ≤ ·.1.level)).map
    fun (record, number) => record.line (session.logging.stamps number)

theorem linesFor_append {records records' : List LogRecord}
    (hlogging : middle.logging = before.logging)
    (htaken : middle.taken = before.taken ++ records.filter (·.reaches level)) (own : Int) :
    before.linesFor level own (records ++ records') =
      before.linesFor level own records ++ middle.linesFor level own records' := by
  unfold linesFor
  rw [List.filter_append, List.zipIdx_append, List.filter_append, List.map_append, hlogging, htaken,
    List.length_append]

theorem linesFor_of_reaches {record : LogRecord} (h : record.reaches level = true) (own : Int) :
    session.linesFor level own [record] = if own ≤ record.level then [session.nextLine record]
      else [] := by
  rw [linesFor, List.filter_cons_of_pos h]
  split
  · rename_i hlevel
    simp [hlevel, nextLine]
  · rename_i hlevel
    simp [hlevel]

theorem linesFor_of_below {record : LogRecord} (h : ¬ record.reaches level = true) (own : Int) :
    session.linesFor level own [record] = [] := by
  rw [linesFor, List.filter_cons_of_neg h]
  rfl

variable {files : FileSystem} {directory : String} {file other : LogFile}
  {records records' : List LogRecord}

def Within (file : LogFile) (files : FileSystem) (directory : String)
    (location : Location) : Prop :=
  ∃ count ≤ file.backups, file.spot files directory count <+: location

abbrev Keeps (number : Nat) (file : LogFile) (files : FileSystem) (directory : String)
    (session : Session) : Prop :=
  Contained number (files.logPath directory file.name) file.backups
    (Within file files directory) session

abbrev Gets (number : Nat) (file : LogFile) (files : FileSystem)
    (directory : String) (lines : List Text) (before after : Session) : Prop :=
  Takes number (files.logPath directory file.name) file.backups
    (file.spot files directory) lines before after

structure Handles (number : Nat) (file : LogFile) (number' : Nat)
    (other : LogFile) (files : FileSystem) (directory : String) (lines : List Text)
    (before after : Session) : Prop where
  sound : after.files.Sound
  logging : after.logging = before.logging
  console : after.console = before.console
  taken : after.taken = before.taken
  keeps : Keeps number file files directory after
  keeps' : Keeps number' other files directory after
  gets : Gets number file files directory lines before after
  gets' : Gets number' other files directory [] before after

theorem Within.away {location : Location}
    (hplace : Within file files directory location) (h : file.IsKnown)
    (hother : other.IsKnown) (hne : file ≠ other) :
    ∀ number ≤ other.backups, ¬ location <+: other.spot files directory number := by
  rintro number hle hpre
  obtain ⟨count, hcount, hspot⟩ := hplace
  exact hne (LogFile.spot_prefix_spot h hother directory hcount hle (hspot.trans hpre)).1

theorem Within.not_within {location : Location}
    (hplace : Within file files directory location) (h : file.IsKnown) (hother : other.IsKnown)
    (hne : file ≠ other) : ¬ Within other files directory location := by
  rintro ⟨number, hle, hspot⟩
  obtain ⟨count, hcount, hpre⟩ := hplace
  obtain hway | hway := List.prefix_or_prefix_of_prefix hpre hspot
  · exact hne (LogFile.spot_prefix_spot h hother directory hcount hle hway).1
  · exact hne (LogFile.spot_prefix_spot hother h directory hle hcount hway).1.symm

theorem handles_of_confined {number number' : Nat} {lines : List Text}
    (hfiles : files.Sound) (hfile : file.IsKnown) (hother : other.IsKnown) (hne : file ≠ other)
    (hnumber : number ≠ number') (hkeeps : Keeps number file files directory before)
    (hkeeps' : Keeps number' other files directory before)
    (hconfined : Confined number (Within file files directory) before after)
    (hgets : Gets number file files directory lines before after) :
    Handles number file number' other files directory lines before after where
  sound := hconfined.changes.sound
  logging := hconfined.logging
  console := hconfined.console
  taken := hconfined.taken
  keeps := hconfined.contained hkeeps
  keeps' := hkeeps'.elsewhere hconfined hnumber.symm
    fun _ hplace => hplace.not_within hother hfile hne.symm
  gets := hgets
  gets' := .other (LogFile.lies hother hfiles directory) hnumber.symm hconfined fun _ hplace =>
    hplace.away hfile hother hne

theorem handles_handle (session : Session) {number number' : Nat}
    (h : session.files.Sound) (hfiles : files.Sound) (hfile : file.IsKnown) (hother : other.IsKnown)
    (hne : file ≠ other) (hnumber : number ≠ number')
    (hkeeps : Keeps number file files directory session)
    (hkeeps' : Keeps number' other files directory session) (level : Int) (line : Text) :
    Handles number file number' other files directory
      (if file.level ≤ level then [line] else []) session
      (session.handle level line (file.handler files directory, number)) := by
  have hpos : 0 < file.backups := by
    obtain rfl | rfl := hfile <;> decide
  exact handles_of_confined hfiles hfile hother hne hnumber hkeeps hkeeps'
    (confined_handle h hkeeps level line)
    (takes_handle (LogFile.lies hfile hfiles directory) hpos file.level level line session)

structure Ready (level : Int) (files : FileSystem) (directory : String)
    (session : Session) : Prop where
  sound : session.files.Sound
  threshold : session.logging.threshold = level
  handlers : session.logging.handlers =
    [⟨.console, level⟩, LogFile.main.handler files directory,
      LogFile.errors.handler files directory]
  main : Keeps 1 .main files directory session
  errors : Keeps 2 .errors files directory session

structure Logs (level : Int) (files : FileSystem) (directory : String) (records : List LogRecord)
    (before after : Session) : Prop where
  logging : after.logging = before.logging
  taken : after.taken = before.taken ++ records.filter (·.reaches level)
  console : after.console =
    (before.linesFor level level records).foldl (fun console line => console ++
      line.shown) before.console
  main : Gets 1 .main files directory (before.linesFor level LogFile.main.level records) before
    after
  errors : Gets 2 .errors files directory (before.linesFor level LogFile.errors.level records)
    before after

theorem Logs.refl (level : Int) (files : FileSystem) (directory : String) (session : Session) :
    Logs level files directory [] session session :=
  ⟨rfl, (List.append_nil _).symm, rfl, .of_stands fun _ _ _ => id, .of_stands fun _ _ _ => id⟩

theorem Logs.trans (h : Logs level files directory records before middle)
    (hnext : Logs level files directory records' middle after) :
    Logs level files directory (records ++ records') before after where
  logging := hnext.logging.trans h.logging
  taken := by rw [hnext.taken, h.taken, List.filter_append, List.append_assoc]
  console := by rw [hnext.console, h.console, linesFor_append h.logging h.taken, List.foldl_append]
  main := linesFor_append h.logging h.taken _ ▸ h.main.trans hnext.main
  errors := linesFor_append h.logging h.taken _ ▸ h.errors.trans hnext.errors

theorem Ready.log_of_below (h : Ready level files directory session) {record : LogRecord}
    (hbelow : ¬ record.reaches level = true) :
    session.log record = session ∧ Logs level files directory [record] session session := by
  refine ⟨by rw [Session.log, h.threshold, if_neg hbelow], rfl, ?_, ?_, ?_, ?_⟩
  · rw [List.filter_cons_of_neg hbelow, List.filter_nil, List.append_nil]
  · rw [linesFor_of_below hbelow]
    rfl
  all_goals
    rw [linesFor_of_below hbelow]
    exact .of_stands fun _ _ _ => id

def showing (session : Session) (record : LogRecord) : Session :=
  { session with
    taken := session.taken ++ [record]
    console := session.console ++ (session.nextLine record).shown }

theorem Ready.log_of_reaches (h : Ready level files directory session) {record : LogRecord}
    (hreaches : record.reaches level = true) : session.log record =
      handle record.level (session.nextLine record)
        (handle record.level (session.nextLine record) (session.showing record)
          (LogFile.main.handler files directory, 1))
        (LogFile.errors.handler files directory, 2) := by
  have hlevel : level ≤ record.level := of_decide_eq_true ((Bool.and_eq_true _ _).mp hreaches).2
  have hconsole : handle record.level (session.nextLine record)
      { session with taken := session.taken ++ [record] } (⟨.console, level⟩, 0) =
        session.showing record :=
    if_pos hlevel
  rw [Session.log, h.threshold, if_pos hreaches]
  dsimp only
  rw [h.handlers, List.isEmpty_cons, if_neg Bool.false_ne_true, ← nextLine]
  change List.foldl _ (handle record.level (session.nextLine record) _ (⟨.console, level⟩, 0)) _ = _
  rw [hconsole]
  rfl

theorem Ready.log (h : Ready level files directory session)
    (hfiles : files.Sound) (record : LogRecord) :
    Ready level files directory (session.log record) ∧
      Logs level files directory [record] session (session.log record) := by
  by_cases hreaches : record.reaches level = true
  swap
  · obtain ⟨hsame, hlogs⟩ := h.log_of_below hreaches
    rw [hsame]
    exact ⟨h, hlogs⟩
  have hlevel : level ≤ record.level := of_decide_eq_true ((Bool.and_eq_true _ _).mp hreaches).2
  have hshown {number : Nat} {file : LogFile} :
      Gets number file files directory [] session (session.showing record) :=
    .of_stands fun _ _ _ hstands => ⟨hstands.holds, hstands.there, hstands.stream⟩
  -- The two files are written one after the other, and neither is concerned when the other is
  -- written.
  have hne : LogFile.main ≠ .errors := by decide
  have hmain := handles_handle (session.showing record) h.sound hfiles (.inl rfl) (.inr rfl) hne
    (by decide : 1 ≠ 2) ⟨h.main.place, h.main.opened⟩ ⟨h.errors.place, h.errors.opened⟩ record.level
    (session.nextLine record)
  have herrors :=
    handles_handle _ hmain.sound hfiles (.inr rfl) (.inl rfl) hne.symm (by decide : 2 ≠ 1)
      hmain.keeps' hmain.keeps record.level (session.nextLine record)
  rw [h.log_of_reaches hreaches]
  generalize handle _ _ (session.showing record) _ = middle at hmain herrors ⊢
  generalize handle _ _ middle _ = after at herrors ⊢
  have hlogging : after.logging = session.logging := herrors.logging.trans hmain.logging
  constructor
  · exact ⟨herrors.sound, hlogging ▸ h.threshold, hlogging ▸ h.handlers,
      herrors.keeps', herrors.keeps⟩
  · refine ⟨hlogging, ?_, ?_, ?_, ?_⟩
    · rw [herrors.taken, hmain.taken, List.filter_cons_of_pos hreaches]
      rfl
    · rw [herrors.console, hmain.console, linesFor_of_reaches hreaches, if_pos hlevel]
      rfl
    · rw [linesFor_of_reaches hreaches, ← List.append_nil (ite _ _ _)]
      exact (hshown.trans hmain.gets).trans herrors.gets'
    · rw [linesFor_of_reaches hreaches]
      exact (hshown.trans hmain.gets').trans herrors.gets

theorem Ready.logAll (h : Ready level files directory session) (hfiles : files.Sound)
    (records : List LogRecord) :
    Logs level files directory records session (session.logAll records) := by
  induction records generalizing session with
  | nil => exact .refl level files directory session
  | cons record records ih =>
    obtain ⟨hready, hlogs⟩ := h.log hfiles record
    exact hlogs.trans (ih hready)

end Session
end CatalogPress
