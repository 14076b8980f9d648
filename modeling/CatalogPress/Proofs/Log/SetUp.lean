import CatalogPress.Log.SetUp
import CatalogPress.Proofs.Files.Making
import CatalogPress.Proofs.Files.Tree
import CatalogPress.Proofs.Log.Places

/-!
Setting up logging. Whether it succeeds or not, the two files in the log directory are all that is
written, and apart from them directories are made that the path of the log directory leads through.
-/
namespace CatalogPress

namespace Path
variable {path : Path}

def Clean (path : Path) : Prop :=
  ∀ name ∈ path.names, name ≠ "" ∧ name ≠ "." ∧ slash ∉ name.points

theorem clean_ofText (text : Text) : (ofText text).Clean := by
  intro name hname
  rw [ofText_names, List.mem_filter, decide_eq_true_iff] at hname
  obtain ⟨hmem, hne, hpoint⟩ := hname
  obtain ⟨part, hpart, rfl⟩ := List.mem_map.mp hmem
  exact ⟨hne, hpoint, Text.not_mem_of_mem_splitList hpart⟩

theorem names_slashes_append (count : Nat) (points : List CodePoint) :
    (ofText ⟨List.replicate count slash ++ points⟩).names = (ofText ⟨points⟩).names := by
  induction count with
  | zero => rfl
  | succ count ih =>
    rw [List.replicate_succ]
    exact (names_append_slash [] _).trans ih

theorem names_intercalate (names : List Text)
    (h : ∀ name ∈ names, name ≠ "" ∧ name ≠ "." ∧ slash ∉ name.points) :
    (ofText ⟨[slash].intercalate (names.map Text.points)⟩).names = names := by
  by_cases hnames : names = []
  · rw [hnames]
    rfl
  · have hparts : ∀ part ∈ names.map Text.points, slash ∉ part :=
      List.forall_mem_map.mpr fun name hname => (h name hname).2.2
    rw [ofText_names, Text.splitList_intercalate (by rwa [ne_eq, List.map_eq_nil_iff]) hparts,
      List.map_map]
    refine (congrArg _ (List.map_id names)).trans (List.filter_eq_self.mpr fun name hname => ?_)
    exact decide_eq_true ⟨(h name hname).1, (h name hname).2.1⟩

theorem ofText_text (h : path.Clean) (habsolute : path.isAbsolute = true) :
    (ofText path.text).names = path.names ∧ (ofText path.text).isAbsolute = true := by
  have hslashes : path.slashes ≠ 0 := of_decide_eq_true habsolute
  have htext : path.text =
        ⟨List.replicate path.slashes slash ++ [slash].intercalate (path.names.map Text.points)⟩ :=
    if_neg fun hempty => hslashes hempty.1
  constructor
  · rw [htext, names_slashes_append, names_intercalate path.names h]
  · rw [isAbsolute_ofText, htext]
    obtain ⟨count, hcount⟩ := Nat.exists_eq_succ_of_ne_zero hslashes
    rw [hcount]
    rfl

theorem mem_foldl_enter {names start : List Text} {name : Text}
    (h : name ∈ names.foldl enter start) :
    name ∈ start ∨ (name ∈ names ∧ name ≠ "..") := by
  induction names generalizing start with
  | nil => exact .inl h
  | cons first names ih =>
    obtain hstart | ⟨hnames, hne⟩ := ih h
    · rw [enter] at hstart
      split at hstart
      · exact .inl (List.dropLast_subset _ hstart)
      · rename_i hfirst
        obtain hstart | heq := List.mem_append.mp hstart
        · exact .inl hstart
        · rw [List.mem_singleton.mp heq]
          exact .inr ⟨List.mem_cons_self, hfirst⟩
    · exact .inr ⟨List.mem_cons_of_mem _ hnames, hne⟩

theorem isAbsolute_append {base : Path} (h : base.isAbsolute = true) (path : Path) :
    (base ++ path).isAbsolute = true := by
  change (append base path).isAbsolute = true
  rw [append]
  split
  · assumption
  · exact h

theorem Clean.append {base : Path} (h : base.Clean) (hpath : path.Clean) :
    (base ++ path).Clean := by
  change (Path.append base path).Clean
  rw [Path.append]
  split
  · exact hpath
  · exact fun name hname => (List.mem_append.mp hname).elim (h name) (hpath name)

theorem Clean.withoutParents (h : path.Clean) : path.withoutParents.Clean := by
  intro name hname
  obtain hstart | ⟨hnames, -⟩ := mem_foldl_enter hname
  · cases hstart
  · exact h name hnames

end Path

def PlainName (name : String) : Prop :=
  Path.ofText name = ⟨0, [name]⟩ ∧ (name : Text) ≠ ".."

namespace LogFile

def IsKnown (file : LogFile) : Prop :=
  file = main ∨ file = errors

/-- The name of a backup. The log file itself has the number 0. -/
def backupName (file : LogFile) (count : Nat) : String :=
  if count = 0 then file.name else file.name ++ "." ++ toString count

theorem plainName_backupName {file : LogFile} (h : file.IsKnown) {count : Nat}
    (hle : count ≤ file.backups) :
    PlainName (file.backupName count) := by
  have hmain :
      ∀ count ≤ main.backups, Path.ofText (main.backupName count) = ⟨0, [main.backupName count]⟩ ∧
      (main.backupName count : Text) ≠ ".." := by decide +kernel
  have herrors :
      ∀ count ≤ errors.backups, Path.ofText (errors.backupName count) =
        ⟨0, [errors.backupName count]⟩ ∧
      (errors.backupName count : Text) ≠ ".." := by decide +kernel
  obtain rfl | rfl := h
  · exact hmain count hle
  · exact herrors count hle

theorem backupName_inj {file other : LogFile} (h : file.IsKnown)
    (hother : other.IsKnown) {count number : Nat} (hle : count ≤ file.backups)
    (hle' : number ≤ other.backups)
    (heq : Utf8.nameBytes (file.backupName count) = Utf8.nameBytes (other.backupName number)) :
    file = other ∧ count = number := by
  have hnames : ∀ file ∈ [main, errors], ∀ other ∈ [main, errors], ∀ count ≤ file.backups,
      ∀ number ≤ other.backups,
        Utf8.nameBytes (file.backupName count) = Utf8.nameBytes (other.backupName number) →
          file = other ∧ count = number := by decide +kernel
  exact hnames file (List.mem_pair.mpr h) other (List.mem_pair.mpr hother) count hle number hle' heq

theorem plainName {file : LogFile} (h : file.IsKnown) : PlainName file.name := by
  have hzero : PlainName (file.backupName 0) := plainName_backupName h (Nat.zero_le _)
  exact hzero

end LogFile

namespace FileSystem
variable {files : FileSystem} {directory name : String}

theorem Sound.ofText_logPath (h : files.Sound) (directory : String) (hname : PlainName name) :
    (Path.ofText (files.logPath directory name)).isAbsolute = true ∧
    (∀ other ∈ (Path.ofText (files.logPath directory name)).names, other ≠ "..") ∧
    (Path.ofText (files.logPath directory name)).names =
      (files.workingDirectory ++ Path.ofText directory).names.foldl Path.enter [] ++
        [(name : Text)] := by
  obtain ⟨hname, hne⟩ := hname
  have hbase : files.workingDirectory.Clean := fun name hname =>
    ⟨(h.named name hname).ne_empty, (h.named name hname).ne_here, (h.named name hname).no_slash⟩
  have habsolute := Path.isAbsolute_append h.absolute (Path.ofText directory)
  have hclean := hbase.append (Path.clean_ofText directory)
  rw [logPath, hname]
  generalize files.workingDirectory ++ Path.ofText directory = base at habsolute hclean
  have hnames : (base ++ (⟨0, [name]⟩ : Path)).withoutParents.names =
      base.names.foldl Path.enter [] ++ [(name : Text)] := by
    change (base.names ++ [(name : Text)]).foldl Path.enter [] = _
    rw [List.foldl_append, List.foldl_cons, List.foldl_nil, Path.enter, if_neg hne]
  have hfile := hclean.append (Path.clean_ofText name)
  rw [hname] at hfile
  obtain ⟨hread, hslash⟩ :=
    Path.ofText_text hfile.withoutParents (Path.isAbsolute_append habsolute ⟨0, [name]⟩)
  have hparents : ∀ other ∈ (base ++ (⟨0, [name]⟩ : Path)).withoutParents.names, other ≠ ".." := by
    intro other hother
    obtain hstart | ⟨-, hne⟩ := Path.mem_foldl_enter hother
    · cases hstart
    · exact hne
  rw [hread]
  exact ⟨hslash, hparents, hnames⟩

theorem Sound.place_logPath (h : files.Sound) (other : FileSystem) (directory : String)
    (hname : PlainName name) :
    other.place (Path.ofText (files.logPath directory name)) =
      files.place (Path.ofText directory) ++ [Utf8.nameBytes name] := by
  obtain ⟨hslash, hparents, hnames⟩ := h.ofText_logPath directory hname
  rw [place_of_absolute hslash, Path.foldl_enter hparents, hnames, List.nil_append, List.map_append]
  rfl

theorem logPath_congr {other : FileSystem} (h : other.workingDirectory = files.workingDirectory) :
    other.logPath = files.logPath := by
  funext directory name
  rw [logPath, logPath, h]

/-- Files in the log directory have paths that differ at the end only. -/
theorem exists_logPath (files : FileSystem) (directory : String) : ∃ front, ∀ name, PlainName name →
    (files.logPath directory name).points = front ++ (name : Text).points := by
  generalize hbase : files.workingDirectory ++ Path.ofText directory = base
  have hnames (name : String) (hname : PlainName name) :
      (base ++ Path.ofText name).withoutParents =
        ⟨base.slashes, base.names.foldl Path.enter [] ++ [(name : Text)]⟩ := by
    rw [hname.1]
    change (⟨base.slashes, (base.names ++ [(name : Text)]).foldl Path.enter []⟩ : Path) = _
    rw [List.foldl_append, List.foldl_cons, List.foldl_nil, Path.enter, if_neg hname.2]
  generalize base.names.foldl Path.enter [] = above at hnames
  by_cases hempty : above = []
  · refine ⟨List.replicate base.slashes Path.slash, fun name hname => ?_⟩
    rw [logPath, hbase, hnames name hname, hempty, Path.points_text, if_neg
      fun h => List.cons_ne_nil _ _ h.2]
    exact congrArg _ (List.append_nil _)
  · refine ⟨(Path.text ⟨base.slashes, above⟩).points ++ [Path.slash], fun name hname => ?_⟩
    rw [logPath, hbase, hnames name hname, Path.points_text_concat _ hempty, List.append_assoc]
    rfl

theorem backup_logPath (files : FileSystem) (directory : String) {file : LogFile}
    (h : file.IsKnown) {count : Nat} (hle : count ≤ file.backups) :
    Session.backup (files.logPath directory file.name) count =
      files.logPath directory (file.backupName count) := by
  obtain ⟨front, hfront⟩ := files.exists_logPath directory
  by_cases hzero : count = 0
  · rw [Session.backup, if_pos hzero, LogFile.backupName, if_pos hzero]
  · refine Text.ext ?_
    rw [hfront _ (LogFile.plainName_backupName h hle), Session.backup, if_neg hzero,
      LogFile.backupName, if_neg hzero, Text.ofString_append, Text.ofString_append]
    simp only [Text.points_append, hfront _ (LogFile.plainName h), List.append_assoc]

theorem Sound.place_backup (h : files.Sound) (other : FileSystem)
    (directory : String) {file : LogFile} (hfile : file.IsKnown) {count : Nat}
    (hle : count ≤ file.backups) :
    other.place (Path.ofText (Session.backup (files.logPath directory file.name) count)) =
      files.place (Path.ofText directory) ++ [Utf8.nameBytes (file.backupName count)] := by
  rw [backup_logPath files directory hfile hle,
    h.place_logPath other directory (LogFile.plainName_backupName hfile hle)]

end FileSystem

theorem LogFile.handler_congr {files after : FileSystem}
    (h : after.workingDirectory = files.workingDirectory) (file : LogFile) :
    file.handler after = file.handler files := by
  funext directory
  rw [handler, handler, FileSystem.logPath_congr h]

namespace Session
open FileSystem Fallible

variable {files : FileSystem} {session : Session} {directory : String} {location : Location}

/-- The places in the log directory that belong to a log file or a backup of it, or lie below
that. -/
def InLogs (files : FileSystem) (directory? : Option String) (location : Location) : Prop :=
  ∃ directory file count, directory? = some directory ∧ directory ≠ "" ∧
    LogFile.IsKnown file ∧ count ≤ file.backups ∧
    files.place (Path.ofText directory) ++ [Utf8.nameBytes (file.backupName count)] <+: location

def LogWay (files : FileSystem) (directory? : Option String) (location : Location) : Prop :=
  ∃ directory, directory? = some directory ∧ directory ≠ "" ∧
    files.Through (Path.ofText directory) location

structure Opens (files : FileSystem) (directory? : Option String) (session : Session) : Prop where
  changes : Changes (InLogs files directory?) (LogWay files directory?) files session.files
  logged : ∀ location, session.LogPlace location → InLogs files directory? location

variable {directory? : Option String}

theorem Opens.congr {other : Session} (h : Opens files directory? session)
    (hfiles : other.files = session.files)
    (hlogs : ∀ location, other.LogPlace location → session.LogPlace location) :
    Opens files directory? other where
  changes := hfiles ▸ h.changes
  logged := fun location hlog => h.logged location (hlogs location hlog)

theorem Opens.trans {after : Session} (h : Opens files directory? session)
    (halters : Alters (fun _ => False) (fun _ => False) session after) :
    Changes (InLogs files directory?) (LogWay files directory?) files after.files :=
  h.changes.trans
    (halters.changes.mono (fun location hlog => h.logged location (hlog.resolve_left id))
      fun _ => False.elim)

def withFile (session : Session) (location : Location) (files : FileSystem)
    (handler : Handler) : Session :=
  ({ session with files }.setStream session.logging.handlers.length (.opened location)).addHandler
    handler

theorem addFile_cases (session : Session) (directory : String) (file : LogFile) :
    (∃ error, session.addFile directory file = (.error error, session)) ∨
    ∃ location opened,
    session.files.openFile (session.files.logPath directory file.name) id = .ok (location, opened) ∧
      session.addFile directory file =
        (.ok (), session.withFile location opened (file.handler session.files directory)) := by
  unfold addFile
  cases hopen :
    session.openStream session.logging.handlers.length
      (session.files.logPath directory file.name) with
  | error error => exact .inl ⟨error, rfl⟩
  | ok after =>
    obtain ⟨⟨location, opened⟩, hopened, heq⟩ := bind_eq_ok.mp hopen
    cases heq
    exact .inr ⟨location, opened, hopened, rfl⟩

theorem logPlace_withFile {opened : FileSystem} {path : Text} {backups : Nat}
    {level : Int} {place : Location}
    (hbase : opened.workingDirectory = session.files.workingDirectory)
    (hlog : (session.withFile place opened ⟨.file path backups, level⟩).LogPlace location) :
    session.LogPlace location ∨ location = place ∨
      ∃ count ≤ backups, session.files.place (Path.ofText (backup path count)) <+: location := by
  obtain ⟨number, file, backups', ⟨handler, hhandler, hsink⟩, hplace⟩ := hlog
  change (session.logging.handlers ++ [_])[number]? = some handler at hhandler
  rw [List.getElem?_append] at hhandler
  split at hhandler
  · rename_i hlt
    refine .inl ⟨number, file, backups', ⟨handler, hhandler, hsink⟩,
      hplace.imp ?_ fun hstream => ?_⟩
    · exact fun ⟨count, hle, hpre⟩ => ⟨count, hle, place_congr hbase _ ▸ hpre⟩
    · exact (if_neg (Nat.ne_of_lt hlt)).symm.trans hstream
  · rename_i hge
    obtain ⟨hzero, hhandler⟩ := List.getElem?_eq_some_iff.mp hhandler
    rw [List.getElem_singleton] at hhandler
    subst hhandler
    cases hsink
    obtain ⟨count, hle, hpre⟩ | hstream := hplace
    · exact .inr (.inr ⟨count, hle, place_congr hbase _ ▸ hpre⟩)
    · have hnumber : number = session.logging.handlers.length := by
        rw [List.length_singleton] at hzero
        omega
      cases (if_pos hnumber).symm.trans hstream
      exact .inr (.inl rfl)

theorem Opens.addFile (h : Opens files (some directory) session)
    (hne : directory ≠ "") {file : LogFile} (hfile : file.IsKnown) :
    Opens files (some directory) (session.addFile directory file).2 := by
  have hsound := h.changes.sound
  have hlogs {location : Location} {count : Nat} (hle : count ≤ file.backups)
      (hpre : session.files.place
        (Path.ofText (backup (session.files.logPath directory file.name) count)) <+: location) :
      InLogs files (some directory) location := by
    refine ⟨directory, file, count, rfl, hne, hfile, hle, ?_⟩
    rwa [hsound.place_backup _ directory hfile hle, place_congr h.changes.workingDirectory] at hpre
  have hitself : InLogs files (some directory)
      (session.files.place (Path.ofText (session.files.logPath directory file.name))) := by
    have hzero := backup_zero (session.files.logPath directory file.name)
    exact hlogs (Nat.zero_le file.backups) (hzero.symm ▸ List.prefix_rfl)
  obtain ⟨error, herror⟩ | ⟨place, opened, hopen, hadded⟩ := session.addFile_cases directory file
  · rw [herror]
    exact h
  · obtain ⟨hplace, hupdate⟩ := openFile_eq_ok hsound hopen
    rw [← hplace] at hitself
    have hchanges :
        Changes (InLogs files (some directory)) (LogWay files (some directory)) session.files
        opened := by
      exact (changes_update hsound hupdate).mono (fun _ heq => heq.trans hplace.symm ▸ hitself)
        fun _ => id
    rw [hadded]
    refine ⟨h.changes.trans hchanges, fun location hlog => ?_⟩
    obtain hold | heq | ⟨count, hle, hpre⟩ := logPlace_withFile hchanges.workingDirectory hlog
    · exact h.logged location hold
    · exact heq ▸ hitself
    · exact hlogs hle hpre

theorem Opens.addFiles (h : Opens files (some directory) session) (hne : directory ≠ "") :
    Opens files (some directory) (session.addFiles directory).2 := by
  have hchanges :
      Changes (InLogs files (some directory)) (LogWay files (some directory)) session.files
      (session.files.ensureTree directory).2 := by
    refine (changes_ensureFromTop h.changes.sound _ directory).mono (fun _ => id)
      fun location hthrough => ?_
    rw [through_congr h.changes.workingDirectory] at hthrough
    exact ⟨directory, rfl, hne, hthrough⟩
  rw [Session.addFiles]
  generalize session.files.ensureTree directory = result at hchanges
  obtain ⟨outcome, made⟩ := result
  have hmade : Opens files (some directory) { session with files := made } := by
    refine ⟨h.changes.trans hchanges, fun location hlog => h.logged location ?_⟩
    exact (Alters.files hchanges).logPlace location hlog
  cases outcome with
  | error error => exact hmade
  | ok =>
    dsimp only
    have hfirst := hmade.addFile hne (.inl rfl)
    split
    · rename_i heq
      rwa [heq] at hfirst
    · rename_i heq
      rw [heq] at hfirst
      exact hfirst.addFile hne (.inr rfl)

theorem logPlace_console {level : Int} {location : Location}
    (hlog : (session.addHandler ⟨.console, level⟩).LogPlace location) :
    session.LogPlace location := by
  obtain ⟨number, file, backups, ⟨handler, hhandler, hsink⟩, hplace⟩ := hlog
  change (session.logging.handlers ++ [_])[number]? = some handler at hhandler
  rw [List.getElem?_append] at hhandler
  split at hhandler
  · exact ⟨number, file, backups, ⟨handler, hhandler, hsink⟩, hplace⟩
  · obtain ⟨_, rfl⟩ := List.getElem?_eq_some_iff.mp hhandler
    simp at hsink

theorem opens_setUpLogging (h : session.files.Sound) (hhandlers : session.logging.handlers = [])
    (directory? : Option String) (levelName : String) :
    Opens session.files directory? (session.setUpLogging directory? levelName).2 := by
  have hstart : Opens session.files directory? session := by
    refine ⟨.refl h, ?_⟩
    rintro location ⟨number, file, backups, ⟨handler, hhandler, -⟩, -⟩
    rw [hhandlers] at hhandler
    cases hhandler
  rw [setUpLogging]
  split
  · exact hstart
  split
  · exact hstart
  · exact hstart
  · rename_i level _
    have hleveled : Opens session.files directory?
        { session with logging := { session.logging with threshold := level } } :=
        hstart.congr rfl fun _ => id
    have hconsole : Opens session.files directory? (addHandler ⟨.console, level⟩
        { session with logging := { session.logging with threshold := level } }) :=
      hleveled.congr rfl fun _ => logPlace_console
    dsimp only
    split
    · exact hconsole.congr rfl fun _ => id
    · rename_i directory hfilter
      obtain ⟨rfl, hne⟩ := Option.filter_eq_some_iff.mp hfilter
      have hfiles := hconsole.addFiles fun hempty => by
        rw [hempty] at hne
        cases hne
      split
      · rename_i heq
        rw [heq] at hfiles
        exact hfiles.congr rfl fun _ => id
      · rename_i heq
        rwa [heq] at hfiles

end Session
end CatalogPress
