import CatalogPress.Proofs.Log.Copies

/-!
Calls that set logging up, one after the other. A call that fails leaves the handlers that it had
added so far, and the next call adds its own to them: the console has as many handlers as there were
calls that came to add any.
-/
namespace CatalogPress

/-- Whether a name stands for a level, and not for something else that has this name. -/
def Level.denotes (name : String) : Bool :=
  match ofName name with
  | .level _ => true
  | _ => false

def Logging.extended (logging : Logging) (level : Int) (opened : List Handler)
    (configured : Bool) : Logging :=
  { logging with
    threshold := level
    handlers := logging.handlers ++ ⟨.console, level⟩ :: opened
    configured }

def FileSystem.logHandlers (files : FileSystem) (directory? : Option String) : List Handler :=
  match directory?.filter (!·.isEmpty) with
  | none => []
  | some directory => [LogFile.main.handler files directory, LogFile.errors.handler files directory]

theorem LogFile.belongs_handler {file : LogFile} (h : file.IsKnown)
    {files : FileSystem} (hsound : files.Sound) (directory : String) :
    (file.handler files directory).Belongs file :=
  ⟨h, files, directory, hsound, rfl⟩

namespace Session
open FileSystem Fallible

variable {session after : Session} {files : FileSystem} {directory? : Option String}
  {directory levelName : String} {file : LogFile}

theorem Anchored.addHandler {handler : Handler} (h : session.Anchored)
    (hhandler : handler.sink = .console ∨ ∃ file, handler.Belongs file ∧ ∀ location,
      session.streams session.logging.handlers.length = .opened location →
      LogFile.at? location = some file) :
    (session.addHandler handler).Anchored := by
  intro number other hother
  change (session.logging.handlers ++ [handler])[number]? = some other at hother
  rw [List.getElem?_append] at hother
  split at hother
  · exact h number other hother
  · obtain ⟨hlt, hother⟩ := List.getElem?_eq_some_iff.mp hother
    rw [List.getElem_singleton] at hother
    rw [List.length_singleton] at hlt
    have hnumber : number = session.logging.handlers.length := by omega
    rw [hnumber, ← hother]
    exact hhandler

theorem Anchored.withFile (h : session.Anchored) {handler : Handler}
    (hbelongs : handler.Belongs file) {place : Location}
    (hplace : LogFile.at? place = some file) (opened : FileSystem) :
    (session.withFile place opened handler).Anchored := by
  refine Anchored.addHandler (fun number other hother => ?_) (.inr ⟨file, hbelongs,
    fun location hopened => ?_⟩)
  · change session.logging.handlers[number]? = some other at hother
    have hne : number ≠ session.logging.handlers.length :=
      Nat.ne_of_lt (List.getElem?_eq_some_iff.mp hother).1
    refine (h number other hother).imp_right ?_
    rintro ⟨file, hbelongs, hopen⟩
    exact ⟨file, hbelongs, fun location hopened => hopen location ((if_neg hne).symm.trans hopened)⟩
  · cases (if_pos rfl).symm.trans hopened
    exact hplace

inductive AddsFile (directory : String) (file : LogFile) (session : Session) :
    Except FileError Unit → Session → Prop
  | failed {error : FileError} : AddsFile directory file session (.error error) session
  | added {after : Session} : after.files.Sound →
      after.files.workingDirectory = session.files.workingDirectory → after.Anchored →
      after.logging = { session.logging with
        handlers := session.logging.handlers ++ [file.handler session.files directory] } →
      AddsFile directory file session (.ok ()) after

theorem addsFile (session : Session) (file : LogFile) (h : session.files.Sound)
    (hanchored : session.Anchored) (hfile : file.IsKnown) (directory : String) :
    AddsFile directory file session (session.addFile directory file).1
      (session.addFile directory file).2 := by
  obtain ⟨error, herror⟩ | ⟨place, opened, hopen, hadded⟩ := session.addFile_cases directory file
  · rw [herror]
    exact .failed
  · obtain ⟨heq, hupdate⟩ := openFile_eq_ok h hopen
    have hchanges : Changes _ (fun _ => False) session.files opened := changes_update h hupdate
    have hbelongs := LogFile.belongs_handler hfile h directory
    have hat := hbelongs.at?_place rfl session.files (Nat.zero_le _)
    rw [backup_zero, ← heq] at hat
    rw [hadded]
    exact .added hchanges.sound hchanges.workingDirectory
      (hanchored.withFile hbelongs hat opened) rfl

/-- How a call that sets logging up ends: it does nothing, because that has been done; or it fails,
because the level is none, or with some handlers added, at least that of the console; or it adds
all. -/
inductive SetsUp (directory? : Option String) (levelName : String) (session : Session) :
    Except Failure Unit → Logging → Prop
  | again : session.logging.configured = true →
      SetsUp directory? levelName session (.ok ()) session.logging
  | refused {failure : Failure} : session.logging.configured = false →
      Level.denotes levelName = false →
      SetsUp directory? levelName session (.error failure) session.logging
  | failed {level : Int} {opened : List Handler} {failure : Failure} :
      session.logging.configured = false → Level.ofName levelName = .level level →
      opened <+: (session.files.logHandlers directory?).dropLast →
      SetsUp directory? levelName session (.error failure)
        (session.logging.extended level opened false)
  | done {level : Int} :
      session.logging.configured = false → Level.ofName levelName = .level level →
      SetsUp directory? levelName session (.ok ())
        (session.logging.extended level (session.files.logHandlers directory?) true)

theorem addFiles_cases (h : session.files.Sound)
    (hanchored : session.Anchored) (hne : directory ≠ "") :
    (session.addFiles directory).2.Anchored ∧ ∃ opened,
      (session.addFiles directory).2.logging = { session.logging with
        handlers := session.logging.handlers ++ opened } ∧
      ((∃ error, (session.addFiles directory).1 = .error error ∧
          opened <+: (session.files.logHandlers (some directory)).dropLast) ∨
        (session.addFiles directory).1 = .ok () ∧
          opened = session.files.logHandlers (some directory)) := by
  have hhandlers : session.files.logHandlers (some directory) =
      [LogFile.main.handler session.files directory,
      LogFile.errors.handler session.files directory] := by
    rw [logHandlers, Option.filter_some_pos (by simpa using hne)]
  have hchanges :
      Changes (fun _ => False) (session.files.Through (Path.ofText directory)) session.files
      (session.files.ensureTree directory).2 := changes_ensureFromTop h _ directory
  have hnone :
      session.logging = { session.logging with handlers := session.logging.handlers ++ [] } := by
    rw [List.append_nil]
  rw [hhandlers, addFiles]
  generalize session.files.ensureTree directory = tree at hchanges
  obtain ⟨outcome, made⟩ := tree
  cases outcome with
  | error error => exact ⟨hanchored, [], hnone, .inl ⟨error, rfl, List.nil_prefix⟩⟩
  | ok =>
    dsimp only at hchanges ⊢
    have hmain := addsFile { session with files := made } .main hchanges.sound hanchored
      (.inl rfl) directory
    generalize Session.addFile directory .main { session with files := made } = first at hmain
    obtain ⟨outcome, middle⟩ := first
    cases hmain with
    | failed => exact ⟨hanchored, [], hnone, .inl ⟨_, rfl, List.nil_prefix⟩⟩
    | added hsound hbase hmiddle hlogging =>
      rw [LogFile.handler_congr hchanges.workingDirectory] at hlogging
      dsimp only at hsound hbase hmiddle hlogging ⊢
      have herrors := addsFile middle .errors hsound hmiddle (.inr rfl) directory
      generalize Session.addFile directory .errors middle = second at herrors
      obtain ⟨outcome, last⟩ := second
      cases herrors with
      | failed => exact ⟨hmiddle, _, hlogging, .inl ⟨_, rfl, List.prefix_rfl⟩⟩
      | added _ _ hlast hlogging' =>
        rw [hlogging, LogFile.handler_congr (hbase.trans hchanges.workingDirectory)] at hlogging'
        refine ⟨hlast, _, hlogging'.trans ?_, .inr ⟨rfl, rfl⟩⟩
        rw [List.append_assoc]
        rfl

theorem setsUp_setUpLogging (session : Session) (h : session.files.Sound)
    (hanchored : session.Anchored) (directory? : Option String) (levelName : String) :
    (session.setUpLogging directory? levelName).2.Anchored ∧
      SetsUp directory? levelName session (session.setUpLogging directory? levelName).1
        (session.setUpLogging directory? levelName).2.logging := by
  rw [setUpLogging]
  split
  · rename_i hconfigured
    exact ⟨hanchored, .again hconfigured⟩
  rename_i hconfigured
  rw [Bool.not_eq_true] at hconfigured
  split
  · rename_i text hlevel
    exact ⟨hanchored, .refused hconfigured (by rw [Level.denotes, hlevel])⟩
  · rename_i shown hlevel
    exact ⟨hanchored, .refused hconfigured (by rw [Level.denotes, hlevel])⟩
  rename_i level hlevel
  dsimp only
  generalize hstart : Session.addHandler _ _ = start
  have hshown : start.Anchored := hstart ▸ Anchored.addHandler hanchored (.inl rfl)
  have hfiles : start.files = session.files := hstart ▸ rfl
  have hlogging (opened : List Handler) :
      ({ start.logging with handlers := start.logging.handlers ++ opened } : Logging) =
        session.logging.extended level opened session.logging.configured := by
    rw [← hstart]
    change Logging.mk _ ((session.logging.handlers ++ [_]) ++ opened) _ _ = _
    rw [List.append_assoc]
    rfl
  split
  · rename_i hnone
    have hhandlers : session.files.logHandlers directory? = [] := by rw [logHandlers, hnone]
    have hdone : SetsUp directory? levelName session (.ok ())
        (session.logging.extended level (session.files.logHandlers directory?) true) :=
        .done hconfigured hlevel
    refine ⟨hshown, ?_⟩
    rw [hhandlers] at hdone
    rw [← hstart]
    exact hdone
  · rename_i directory hfilter
    obtain ⟨rfl, hne⟩ := Option.filter_eq_some_iff.mp hfilter
    replace hne : directory ≠ "" := by simpa using hne
    obtain ⟨hafter, opened, hopened, hends⟩ := addFiles_cases (hfiles ▸ h) hshown hne
    rw [hlogging] at hopened
    rw [hfiles] at hends
    generalize start.addFiles directory = result at hafter hopened hends
    obtain ⟨outcome, after⟩ := result
    obtain ⟨error, hfailed, hpre⟩ | ⟨hok, rfl⟩ := hends
    · cases hfailed
      refine ⟨hafter, ?_⟩
      dsimp only at hopened ⊢
      rw [hopened, hconfigured]
      exact .failed hconfigured hlevel hpre
    · cases hok
      refine ⟨hafter, ?_⟩
      dsimp only at hopened ⊢
      rw [hopened]
      exact .done hconfigured hlevel

structure SetUpCall where
  files : FileSystem
  directory? : Option String
  levelName : String

def callSetUp (session : Session) (call : SetUpCall) : Session :=
  ({ session with files := call.files }.setUpLogging call.directory? call.levelName).2

def callSetUps (session : Session) (calls : List SetUpCall) : Session :=
  calls.foldl callSetUp session

def attempted (session : Session) (call : SetUpCall) : Bool :=
  !session.logging.configured && Level.denotes call.levelName

/-- How many calls come to add handlers. Those after one that succeeds do not, nor do those without
a level. -/
def attempts (session : Session) : List SetUpCall → Nat
  | [] => 0
  | call :: calls =>
    (if session.attempted call then 1 else 0) + attempts (session.callSetUp call) calls

variable {call : SetUpCall} {calls : List SetUpCall}

theorem callSetUp_cases (h : call.files.Sound) (hanchored : session.Anchored) :
    (session.attempted call = false ∧ (session.callSetUp call).logging = session.logging) ∨
    session.attempted call = true ∧ session.logging.configured = false ∧ ∃ level opened,
      (session.callSetUp call).logging.handlers =
        session.logging.handlers ++ ⟨.console, level⟩ :: opened ∧
      ((session.callSetUp call).logging.configured = false ∧
          opened <+: (call.files.logHandlers call.directory?).dropLast ∨
        (session.callSetUp call).logging.configured = true ∧
          opened = call.files.logHandlers call.directory?) := by
  obtain ⟨-, hends⟩ := setsUp_setUpLogging { session with files := call.files } h hanchored
    call.directory? call.levelName
  have hdenotes {level : Int} (hlevel : Level.ofName call.levelName = .level level) :
      Level.denotes call.levelName = true := by rw [Level.denotes, hlevel]
  rw [attempted, callSetUp]
  generalize Session.setUpLogging call.directory? call.levelName _ = result at hends ⊢
  obtain ⟨outcome, after⟩ := result
  dsimp only at hends ⊢
  generalize after.logging = logging at hends
  cases hends with
  | again hconfigured => exact .inl ⟨by rw [hconfigured]; rfl, rfl⟩
  | refused hconfigured hlevel => exact .inl ⟨by rw [hlevel, Bool.and_false], rfl⟩
  | failed hconfigured hlevel hpre =>
    exact .inr ⟨by rw [hconfigured, hdenotes hlevel]; rfl, hconfigured, _, _, rfl, .inl ⟨rfl, hpre⟩⟩
  | done hconfigured hlevel =>
    exact .inr ⟨by rw [hconfigured, hdenotes hlevel]; rfl, hconfigured, _, _, rfl, .inr ⟨rfl, rfl⟩⟩

theorem anchored_callSetUp (h : call.files.Sound) (hanchored : session.Anchored) :
    (session.callSetUp call).Anchored :=
  (setsUp_setUpLogging { session with files := call.files } h hanchored call.directory?
    call.levelName).1

theorem anchored_callSetUps (hcalls : ∀ call ∈ calls, call.files.Sound)
    (hanchored : session.Anchored) :
    (session.callSetUps calls).Anchored := by
  induction calls generalizing session with
  | nil => exact hanchored
  | cons call calls ih =>
    obtain ⟨hcall, hcalls⟩ := List.forall_mem_cons.mp hcalls
    exact ih hcalls (anchored_callSetUp hcall hanchored)

/-- How many of the handlers are of some kind that one call adds: at most `often` if it fails, and
at most `last` more if it succeeds. -/
structure Counts (p : Handler → Bool) (often last : Nat) : Prop where
  failed : ∀ (files : FileSystem) (directory : String) (level : Int), files.Sound →
    [⟨.console, level⟩, LogFile.main.handler files directory].countP p ≤ often
  done : ∀ (files : FileSystem) (directory : String) (level : Int), files.Sound →
    [⟨.console, level⟩, LogFile.main.handler files directory,
      LogFile.errors.handler files directory].countP p ≤ often + last

variable {p : Handler → Bool} {often last : Nat}

theorem logHandlers_cases (files : FileSystem) (directory? : Option String) :
    files.logHandlers directory? = [] ∨ ∃ directory, files.logHandlers directory? =
      [LogFile.main.handler files directory, LogFile.errors.handler files directory] := by
  rw [logHandlers]
  split
  · exact .inl rfl
  · exact .inr ⟨_, rfl⟩

theorem Counts.added (h : Counts p often last) (hsound : files.Sound)
    (directory? : Option String) (level : Int) :
    (⟨.console, level⟩ :: (files.logHandlers directory?).dropLast).countP p ≤ often ∧
      (⟨.console, level⟩ :: files.logHandlers directory?).countP p ≤ often + last := by
  obtain hnone | ⟨directory, hsome⟩ := logHandlers_cases files directory?
  · have hconsole : [⟨.console, level⟩].countP p ≤ often :=
      List.Sublist.countP_le ((List.nil_sublist _).cons_cons _) |>.trans
        (h.failed files "" level hsound)
    rw [hnone]
    exact ⟨hconsole, Nat.le_add_right_of_le hconsole⟩
  · rw [hsome]
    exact ⟨h.failed files directory level hsound, h.done files directory level hsound⟩

theorem Counts.callSetUps (h : Counts p often last) (hcalls : ∀ call ∈ calls, call.files.Sound)
    (hanchored : session.Anchored) :
    (session.callSetUps calls).logging.handlers.countP p ≤ session.logging.handlers.countP p +
      often * session.attempts calls + if session.logging.configured then 0 else last := by
  induction calls generalizing session with
  | nil => exact Nat.le_add_right _ _
  | cons call calls ih =>
    obtain ⟨hcall, hcalls⟩ := List.forall_mem_cons.mp hcalls
    have hrest := ih hcalls (anchored_callSetUp hcall hanchored)
    rw [attempts]
    change ((session.callSetUp call).callSetUps calls).logging.handlers.countP p ≤ _
    obtain ⟨hidle, hlogging⟩ | ⟨hattempted, hconfigured, level, opened, hhandlers, hends⟩ :=
      callSetUp_cases hcall hanchored
    · rw [hlogging] at hrest
      simpa [hidle] using hrest
    obtain ⟨hfailed, hdone⟩ := h.added hcall call.directory? level
    rw [hhandlers, List.countP_append] at hrest
    rw [hattempted, hconfigured]
    simp only [if_true, Bool.false_eq_true, if_false, Nat.mul_add, Nat.mul_one]
    obtain ⟨hafter, hpre⟩ | ⟨hafter, rfl⟩ := hends
    · have hopened := ((hpre.sublist.cons_cons ⟨.console, level⟩).countP_le (p := p)).trans hfailed
      rw [hafter] at hrest
      simp only [Bool.false_eq_true, if_false] at hrest
      omega
    · rw [hafter] at hrest
      simp only [if_true] at hrest
      omega

theorem attempts_le_countP (hcalls : ∀ call ∈ calls, call.files.Sound)
    (hanchored : session.Anchored) :
    session.logging.handlers.countP Handler.isConsole + session.attempts calls ≤
      (session.callSetUps calls).logging.handlers.countP Handler.isConsole := by
  induction calls generalizing session with
  | nil => exact Nat.le_refl _
  | cons call calls ih =>
    obtain ⟨hcall, hcalls⟩ := List.forall_mem_cons.mp hcalls
    have hrest := ih hcalls (anchored_callSetUp hcall hanchored)
    rw [attempts]
    change _ ≤ ((session.callSetUp call).callSetUps calls).logging.handlers.countP _
    obtain ⟨hidle, hlogging⟩ | ⟨hattempted, -, level, opened, hhandlers, -⟩ :=
      callSetUp_cases hcall hanchored
    · rw [hlogging] at hrest
      simpa [hidle] using hrest
    · rw [hhandlers, List.countP_append, List.countP_cons_of_pos rfl] at hrest
      rw [hattempted, if_pos rfl]
      omega

theorem counts_isConsole : Counts Handler.isConsole 1 0 := by
  constructor <;> exact fun files directory level _ => Nat.le_refl 1

theorem counts_isFor (hmain : often = if file.name = LogFile.main.name then 1 else 0)
    (herrors : last = if file.name = LogFile.errors.name then 1 else 0) :
    Counts (Handler.isFor file) often last := by
  have hfirst {files : FileSystem} (h : files.Sound) (directory : String) :=
    (LogFile.belongs_handler (.inl rfl) h directory).isFor_eq file
  have hsecond {files : FileSystem} (h : files.Sound) (directory : String) :=
    (LogFile.belongs_handler (.inr rfl) h directory).isFor_eq file
  have hconsole (level : Int) : Handler.isFor file ⟨.console, level⟩ = false := rfl
  subst hmain herrors
  constructor
  case failed =>
    intro files directory level h
    simp only [List.countP_cons, List.countP_nil, hconsole, hfirst h,
      Text.ofString_inj_iff, eq_comm]
    simp
  case done =>
    intro files directory level h
    simp only [List.countP_cons, List.countP_nil, hconsole, hfirst h, hsecond h,
      Text.ofString_inj_iff, eq_comm]
    simp [Nat.add_comm]

theorem counts_isFor_main : Counts (Handler.isFor .main) 1 0 :=
  counts_isFor rfl rfl

theorem counts_isFor_errors : Counts (Handler.isFor .errors) 0 1 :=
  counts_isFor rfl rfl

/-- How often a record may be added to a file: not more than once to the file of errors or a backup
of it, and never to a file that is no log file. -/
def timesAt (times : Nat) : Option LogFile → Nat
  | none => 0
  | some file => if file = .errors then 1 else times

/-- Where a record goes when it is logged: at most so often to the console and to a log file, and
not more than once to the file of errors. -/
structure Repeated (times : Nat) (record : LogRecord) (before after : Session) : Prop where
  console : ∃ count ≤ max 1 times,
    after.console = (· ++ (before.shownText record).shown)^[count] before.console
  files : Gains ((Utf8.encode (before.nextLine record)).toOption.getD .empty) (timesAt times)
    before.files after.files
  logging : after.logging = before.logging
  sound : after.files.Sound
  anchored : after.Anchored

/-- What is left of some calls: how many handlers of which kind, and how often these write what is
logged later, whatever has become of the files. -/
structure SetUpBy (session : Session) (calls : List SetUpCall) (after : Session) : Prop where
  console : after.logging.handlers.countP Handler.isConsole = session.attempts calls
  main : after.logging.handlers.countP (Handler.isFor .main) ≤ session.attempts calls
  errors : after.logging.handlers.countP (Handler.isFor .errors) ≤ 1
  anchored : after.Anchored
  log : ∀ later : Session, later.logging = after.logging → later.files.Sound →
    later.Anchored → ∀ record,
    Repeated (session.attempts calls) record later (later.log record)

/-- Calls that set logging up leave one console handler, and at most one handler of a kind, if only
one of them came to add handlers; in general there are as many as calls that did. -/
theorem callSetUps_handlers (session : Session) (calls : List SetUpCall)
    (hhandlers : session.logging.handlers = []) (hcalls : ∀ call ∈ calls, call.files.Sound) :
    SetUpBy session calls (session.callSetUps calls) := by
  have hstart : session.Anchored := by
    intro number handler hhandler
    rw [hhandlers] at hhandler
    cases hhandler
  have hcount {p : Handler → Bool} {often last : Nat} (h : Counts p often last) :
      (session.callSetUps calls).logging.handlers.countP p ≤
        often * session.attempts calls + last := by
    have hle := h.callSetUps hcalls hstart
    rw [hhandlers, List.countP_nil, Nat.zero_add] at hle
    refine hle.trans (Nat.add_le_add_left ?_ _)
    split
    · exact Nat.zero_le _
    · exact Nat.le_refl _
  have hones {p : Handler → Bool} (h : Counts p 1 0) :
      (session.callSetUps calls).logging.handlers.countP p ≤ session.attempts calls := by
    simpa using hcount h
  have hlast : (session.callSetUps calls).logging.handlers.countP (Handler.isFor .errors) ≤ 1 := by
    simpa using hcount counts_isFor_errors
  have hconsole := attempts_le_countP hcalls hstart
  rw [hhandlers, List.countP_nil, Nat.zero_add] at hconsole
  constructor
  case console => exact Nat.le_antisymm (hones counts_isConsole) hconsole
  case main => exact hones counts_isFor_main
  case errors => exact hlast
  case anchored => exact anchored_callSetUps hcalls hstart
  case log =>
    intro later hlogging hsound hanchored record
    have hlogged := logged_log hsound hanchored record
    constructor
    case console =>
      obtain ⟨count, hle, hshown⟩ := hlogged.console
      rw [hlogging] at hle
      have hconsole := hones counts_isConsole
      exact ⟨count, by omega, hshown⟩
    case files =>
      refine hlogged.files.mono fun location => ?_
      rw [hlogging]
      obtain hat | hat | hat := LogFile.at?_cases location <;> rw [hat]
      · exact Nat.le_refl 0
      · exact hones counts_isFor_main
      · exact hlast
    case logging => exact hlogged.logging
    case sound => exact hlogged.sound
    case anchored => exact hlogged.anchored

/-- Of three calls the first has no level, the second sets logging up and the third comes too
late. -/
theorem callSetUps_handlers_once :
    let session := sample []
    let calls : List SetUpCall := [⟨session.files, some "logs", "basic_format"⟩,
      ⟨session.files, some "logs", "INFO"⟩, ⟨session.files, none, "DEBUG"⟩]
    session.attempts calls = 1 ∧ SetUpBy session calls (session.callSetUps calls) := by
  intro session calls
  refine ⟨by decide +kernel, callSetUps_handlers session calls rfl ?_⟩
  intro call hcall
  simp only [calls, List.mem_cons, List.not_mem_nil, or_false] at hcall
  obtain rfl | rfl | rfl := hcall <;> exact sound_sample []

/-- After a call that fails, because its log directory is a file, a call without one shows an error
twice. Where a directory stands in the way of the log file of errors, two calls write one twice to
the main log file. -/
theorem callSetUps_twice :
    let session := sample [("x", [])]
    let files := (session.files.ensureDirectories (Path.ofText "logs/shaderdocs_errors.log")).2
    let shown :=
      session.callSetUps [⟨session.files, some "x", "INFO"⟩, ⟨session.files, none, "INFO"⟩]
    let written := session.callSetUps [⟨files, some "logs", "INFO"⟩, ⟨files, some "logs", "INFO"⟩]
    session.logging.handlers = [] ∧
      shown.logging.handlers.countP Handler.isConsole = 2 ∧
      (shown.log ⟨LogRecord.errorLevel, "a", "m"⟩).console =
        "[] ERROR    [a:] m\n[] ERROR    [a:] m\n" ∧
      written.logging.handlers.countP (Handler.isFor .main) = 2 ∧
      ((written.log ⟨LogRecord.errorLevel, "a", "m"⟩).files.readText
        "logs/shaderdocs.log").toOption =
        some "[] ERROR    [a:] m\n[] ERROR    [a:] m\n" := by
  decide +kernel

end Session
end CatalogPress
