import CatalogPress.CommandLine
import CatalogPress.Proofs.Catalog.Load
import CatalogPress.Proofs.Document.Pool
import CatalogPress.Proofs.Log.SetUp
import CatalogPress.Proofs.Project.Load
import CatalogPress.Proofs.Run

/-!
What the exit code stands for and what a run leaves behind. Arguments that do not pair up change
nothing; a project or a catalog that cannot be loaded leaves logs only; otherwise the documents are
rendered, and the exit code says whether all of them were.
-/
namespace CatalogPress
open Fallible

namespace Arguments

def paired : List String → List Job
  | template :: output :: rest => ⟨Path.ofText template, Path.ofText output⟩ :: paired rest
  | _ => []

def asked : List String → Arguments
  | [] => {}
  | [catalog] => { catalog := some (Path.ofText catalog) }
  | catalog :: pairs => { catalog := some (Path.ofText catalog), documents := some (paired pairs) }

def request (given : Arguments) : Request where
  catalog := given.catalog
  documents := given.documents

def Unpaired (arguments : List String) : Prop :=
  ∃ catalog rest, arguments = catalog :: rest ∧ rest.length % 2 = 1

theorem jobs_eq (texts : List String) :
    jobs texts = if texts.length % 2 = 1 then .error .unpaired else .ok (paired texts) := by
  induction texts using jobs.induct with
  | case1 => rfl
  | case2 text => rfl
  | case3 template output rest ih =>
    have hlength : (template :: output :: rest).length % 2 = rest.length % 2 :=
      Nat.add_mod_right rest.length 2
    rw [jobs, ih, hlength]
    split <;> rfl

theorem read_of_unpaired {arguments : List String} (h : Unpaired arguments) :
    read arguments = .error .unpaired := by
  obtain ⟨catalog, rest, rfl, hodd⟩ := h
  cases rest with
  | nil => cases hodd
  | cons text rest =>
    rw [read, jobs_eq, if_pos hodd]
    · rfl
    · exact nofun

theorem read_of_paired {arguments : List String} (h : ¬ Unpaired arguments) :
    read arguments = .ok (asked arguments) := by
  match arguments with
  | [] => rfl
  | [catalog] => rfl
  | catalog :: text :: rest =>
    rw [read, jobs_eq, if_neg fun hodd => h ⟨catalog, text :: rest, rfl, hodd⟩]
    · rfl
    · exact nofun

end Arguments

namespace CommandLine
open Session

variable {settings : Settings} {schedule : Nat → Nat} {arguments : List String} {session : Session}

def started (settings : Settings) (session : Session) : Session :=
  (session.setUpLogging settings.logDirectory settings.logLevel).2

def loaded (settings : Settings) (arguments : List String) (session : Session) :
    Except Failure (Project × Catalog) :=
  Run.load settings (Arguments.asked arguments).request (started settings session)

def jobs (arguments : List String) (project : Project) : List Job :=
  (Arguments.asked arguments).documents.getD project.documents

def IsExpected (failure : Failure) : Prop :=
  Catalog.IsCatalogFault failure ∨ Project.IsConfigFault failure

/-- Logging can be set up and what is loaded has no other faults than expected, if it comes to that,
and no path of a document holds a NUL. -/
structure Regular (settings : Settings) (arguments : List String) (session : Session) : Prop where
  sound : session.files.Sound
  handlers : session.logging.handlers = []
  help : asksForHelp arguments = false
  setUp : ¬ Arguments.Unpaired arguments →
    (session.setUpLogging settings.logDirectory settings.logLevel).1 = .ok ()
  load : ¬ Arguments.Unpaired arguments → FailsWith IsExpected (loaded settings arguments session)
  nulFree : ∀ project catalog, loaded settings arguments session = .ok (project, catalog) →
    ∀ job ∈ jobs arguments project, job.All CodePoint.NotNul

structure Reports (jobs : List Job) (results : List DocumentResult) (after : Session)
    (run : Except Failure Report × Session) : Prop where
  order : results.map (·.job) = jobs
  succeeded : run.1 = .ok { exitCode := 0 } ↔ ∀ result ∈ results, result.isSuccess = true
  failed : run.1 = .ok { exitCode := 1 } ↔ ∃ result ∈ results, result.isSuccess = false
  logged : run.2 = after.logAll (Summary.log ⟨results⟩)

def ready (settings : Settings) (arguments : List String) (project : Project)
    (session : Session) : Session :=
  Run.ready settings (Arguments.asked arguments).request (jobs arguments project)
    (started settings session)

def rendered (settings : Settings) (schedule : Nat → Nat)
    (arguments : List String) (project : Project) (catalog : Catalog) (session : Session) :
    Except Failure (List DocumentResult) × Session :=
  Document.renderPooled settings.renderDepth (Run.contextOf project catalog).scope settings.workers
    schedule (jobs arguments project) (ready settings arguments project session)

/-- A document comes to be written with a surrogate in it. -/
def Spoils (settings : Settings) (schedule : Nat → Nat)
    (arguments : List String) (project : Project) (catalog : Catalog) (session : Session) : Prop :=
  Document.Spoils settings.renderDepth (Run.contextOf project catalog).scope settings.workers
    schedule (jobs arguments project) (ready settings arguments project session)

instance (project : Project) (catalog : Catalog) :
    Decidable (Spoils settings schedule arguments project catalog session) :=
  inferInstanceAs (Decidable (Document.Spoils ..))

/-- What comes of the documents once everything is loaded. There are results unless a path has code
points without bytes or a document is spoilt, and they are reported in the order of the jobs. -/
structure Renders (settings : Settings) (schedule : Nat → Nat)
    (arguments : List String) (project : Project) (catalog : Catalog)
    (session : Session) : Prop where
  logged : Alters (fun _ => False) (fun _ => False) (started settings session)
    (ready settings arguments project session)
  fails : FailsWith Document.IsUnencodable
    (rendered settings schedule arguments project catalog session).1
  returns : (∀ job ∈ jobs arguments project, job.All CodePoint.Nameable) →
    ¬ Spoils settings schedule arguments project catalog session →
      ∃ results, (rendered settings schedule arguments project catalog session).1 = .ok results
  reports : ∀ results after,
    rendered settings schedule arguments project catalog session = (.ok results, after) →
    Reports (jobs arguments project) results after (execute settings schedule arguments session)

/-- The code 2 stands for arguments that do not pair up, when nothing happens at all, and for what
cannot be loaded, when nothing is left behind but logs and the way to them. -/
structure Agrees (settings : Settings) (schedule : Nat → Nat)
    (arguments : List String) (session : Session) : Prop where
  refused : (∃ report, (execute settings schedule arguments session).1 = .ok report ∧
    report.exitCode = 2) ↔
      Arguments.Unpaired arguments ∨ ∃ failure, loaded settings arguments session = .error failure
  unpaired : Arguments.Unpaired arguments →
    (execute settings schedule arguments session).2 = session
  aborted : ∀ failure, loaded settings arguments session = .error failure →
    FileSystem.Changes (InLogs session.files settings.logDirectory)
      (LogWay session.files settings.logDirectory) session.files
      (execute settings schedule arguments session).2.files
  renders : ¬ Arguments.Unpaired arguments → ∀ project catalog,
    loaded settings arguments session = .ok (project, catalog) →
      Renders settings schedule arguments project catalog session

theorem execute_of_unpaired (settings : Settings) (schedule : Nat → Nat) (session : Session)
    (hhelp : asksForHelp arguments = false) (h : Arguments.Unpaired arguments) :
    ∃ output, execute settings schedule arguments session =
      (.ok { exitCode := 2, output := output }, session) := by
  rw [execute, if_neg (Bool.eq_false_iff.mp hhelp), Arguments.read_of_unpaired h]
  exact ⟨_, rfl⟩

theorem execute_of_paired (hhelp : asksForHelp arguments = false)
    (h : ¬ Arguments.Unpaired arguments)
    (hsetUp : (session.setUpLogging settings.logDirectory settings.logLevel).1 = .ok ()) :
    execute settings schedule arguments session =
      runWith settings schedule (Arguments.asked arguments) (started settings session) := by
  rw [execute, if_neg (Bool.eq_false_iff.mp hhelp), Arguments.read_of_paired h, started]
  generalize session.setUpLogging settings.logDirectory settings.logLevel = result at hsetUp
  obtain ⟨outcome, after⟩ := result
  cases hsetUp
  rfl

theorem runWith_of_error (schedule : Nat → Nat) {given : Arguments} {failure : Failure}
    (hsound : session.files.Sound)
    (h : Run.load settings given.request session = .error failure)
    (hexpected : IsExpected failure) :
    (runWith settings schedule given session).1 = .ok { exitCode := 2 } ∧
      Alters (fun _ => False) (fun _ => False) session
        (runWith settings schedule given session).2 := by
  have halters : Alters (fun _ => False) (fun _ => False) session _ :=
    Run.alters_prepare settings given.request hsound
  have hrun : Run.run settings schedule
      { catalog := given.catalog, documents := given.documents } session = _ :=
    Run.run_of_error h
  unfold runWith
  dsimp only
  rw [hrun]
  obtain ⟨error, rfl⟩ | ⟨error, rfl⟩ := hexpected
  all_goals
    dsimp only
    exact ⟨rfl, halters.log _⟩

theorem execute_of_loaded (schedule : Nat → Nat) {project : Project} {catalog : Catalog}
    (h : Regular settings arguments session)
    (hpaired : ¬ Arguments.Unpaired arguments)
    (hloaded : loaded settings arguments session = .ok (project, catalog)) :
    let rendered := rendered settings schedule arguments project catalog session
    (∃ results, rendered.1 = .ok results ∧ execute settings schedule arguments session =
      (.ok { exitCode := if (Summary.mk results).isOk then 0 else 1 },
        rendered.2.logAll (Summary.log ⟨results⟩))) ∨
    ∃ fault, rendered.1 = .error (.file (.unencodable fault)) ∧
      execute settings schedule arguments session =
        (.error (.file (.unencodable fault)), rendered.2) := by
  have hfails : FailsWith Document.IsUnencodable
      (rendered settings schedule arguments project catalog session).1 :=
    Document.failsWith_renderPooled_of_notNul (h.nulFree project catalog hloaded)
  have hrun :
      Run.run settings schedule (Arguments.asked arguments).request (started settings session) =
        Run.summarised (rendered settings schedule arguments project catalog session) :=
    Run.run_of_ok hloaded
  rw [Arguments.request] at hrun
  rw [execute_of_paired h.help hpaired (h.setUp hpaired)]
  unfold runWith
  dsimp only
  rw [hrun]
  generalize rendered settings schedule arguments project catalog session = rendered at hfails
  obtain ⟨outcome, after⟩ := rendered
  cases outcome with
  | ok results => exact .inl ⟨results, rfl, rfl⟩
  | error failure =>
    obtain ⟨fault, rfl⟩ := hfails failure rfl
    exact .inr ⟨fault, rfl, rfl⟩

theorem reports_of_results {jobs : List Job} {results : List DocumentResult} {after : Session}
    {run : Except Failure Report × Session} (horder : results.map (·.job) = jobs)
    (hrun : run = (.ok { exitCode := if (Summary.mk results).isOk then 0 else 1 },
      after.logAll (Summary.log ⟨results⟩))) :
    Reports jobs results after run := by
  subst hrun
  have hok : (Summary.mk results).isOk = true ↔
      ∀ result ∈ results, result.isSuccess = true := Summary.isOk_iff
  constructor
  case order => exact horder
  case succeeded =>
    rw [← hok]
    by_cases h : (Summary.mk results).isOk = true <;> simp [h]
  case failed =>
    have hnot : (∃ result ∈ results, result.isSuccess = false) ↔
        ¬ (Summary.mk results).isOk = true := by
      rw [hok]
      simp
    rw [hnot]
    by_cases h : (Summary.mk results).isOk = true <;> simp [h]
  case logged => rfl

theorem Regular.opens (h : Regular settings arguments session) :
    Opens session.files settings.logDirectory (started settings session) :=
  opens_setUpLogging h.sound h.handlers settings.logDirectory settings.logLevel

theorem agrees_of_unpaired (h : Regular settings arguments session)
    (hunpaired : Arguments.Unpaired arguments) :
    Agrees settings schedule arguments session := by
  obtain ⟨output, hexecute⟩ := execute_of_unpaired settings schedule session h.help hunpaired
  constructor
  case refused =>
    exact iff_of_true ⟨{ exitCode := 2, output := output }, by rw [hexecute], rfl⟩ (.inl hunpaired)
  case unpaired =>
    intro _
    rw [hexecute]
  case aborted =>
    intro failure _
    rw [hexecute]
    exact .refl h.sound
  case renders => exact fun hpaired => absurd hunpaired hpaired

theorem agrees_of_error {failure : Failure} (h : Regular settings arguments session)
    (hpaired : ¬ Arguments.Unpaired arguments)
    (hloaded : loaded settings arguments session = .error failure) :
    Agrees settings schedule arguments session := by
  have hopens := h.opens
  obtain ⟨hcode, halters⟩ := runWith_of_error schedule hopens.changes.sound hloaded
    (h.load hpaired failure hloaded)
  rw [← execute_of_paired h.help hpaired (h.setUp hpaired)] at hcode halters
  constructor
  case refused => exact iff_of_true ⟨_, hcode, rfl⟩ (.inr ⟨failure, hloaded⟩)
  case unpaired => exact fun hunpaired => absurd hunpaired hpaired
  case aborted => exact fun _ _ => hopens.trans halters
  case renders => exact fun _ project catalog hok => nomatch hloaded.symm.trans hok

theorem renders_of_loaded {project : Project} {catalog : Catalog}
    (h : Regular settings arguments session) (hpaired : ¬ Arguments.Unpaired arguments)
    (hloaded : loaded settings arguments session = .ok (project, catalog)) :
    Renders settings schedule arguments project catalog session := by
  constructor
  case logged => exact Run.alters_ready settings _ _ h.opens.changes.sound
  case fails => exact Document.failsWith_renderPooled_of_notNul (h.nulFree project catalog hloaded)
  case returns => exact fun hnames hspoils => (Document.exists_renderPooled_iff hnames).mpr hspoils
  case reports =>
    intro results after hresults
    have hfst := congrArg Prod.fst hresults
    have hsnd := congrArg Prod.snd hresults
    obtain ⟨results', hresults', hexecute⟩ | ⟨fault, hfault, -⟩ :=
      execute_of_loaded schedule h hpaired hloaded
    · cases hresults'.symm.trans hfst
      exact reports_of_results (Document.renderPooled_jobs hfst)
        (hexecute.trans (congrArg (_, logAll _ ·) hsnd))
    · cases hfault.symm.trans hfst

theorem agrees_of_ok {project : Project} {catalog : Catalog}
    (h : Regular settings arguments session) (hpaired : ¬ Arguments.Unpaired arguments)
    (hloaded : loaded settings arguments session = .ok (project, catalog)) :
    Agrees settings schedule arguments session := by
  constructor
  case refused =>
    refine iff_of_false ?_ (not_or.mpr ⟨hpaired,
      fun ⟨_, herror⟩ => nomatch hloaded.symm.trans herror⟩)
    rintro ⟨report, hreport, hcode⟩
    obtain ⟨results, -, hexecute⟩ | ⟨fault, -, hexecute⟩ :=
      execute_of_loaded schedule h hpaired hloaded
    · rw [hexecute] at hreport
      cases hreport
      split at hcode <;> cases hcode
    · rw [hexecute] at hreport
      cases hreport
  case unpaired => exact fun hunpaired => absurd hunpaired hpaired
  case aborted => exact fun _ herror => nomatch hloaded.symm.trans herror
  case renders =>
    intro _ _ _ hok
    cases hloaded.symm.trans hok
    exact renders_of_loaded h hpaired hloaded

/-- The exit code and the files agree with what happened, whatever the schedule of the workers. -/
theorem execute_agrees (settings : Settings) (schedule : Nat → Nat)
    (arguments : List String) (session : Session) (h : Regular settings arguments session) :
    Agrees settings schedule arguments session := by
  by_cases hunpaired : Arguments.Unpaired arguments
  · exact agrees_of_unpaired h hunpaired
  · cases hloaded : loaded settings arguments session with
    | error failure => exact agrees_of_error h hunpaired hloaded
    | ok input => exact agrees_of_ok h hunpaired hloaded

/-- The catalog holds a surrogate, which neither of the documents shows; the template of the second
is missing. -/
theorem execute_agrees_missing :
    let settings : Settings := { logDirectory := some "logs" }
    let arguments := ["c", "t", "out/a", "u", "b"]
    let session := sample [
      ("c", ("[\x7b\"name\":\"n\",\"filename\":\"f\",\"type\":\"BGX\"," ++
        "\"x\":\"\\ud800\"\x7d]").toUTF8.data.toList),
      ("t", "\x7b\x7bstatistics.total\x7d\x7d".toUTF8.data.toList)]
    Regular settings arguments session ∧ Agrees settings id arguments session ∧
      (∃ project catalog results, loaded settings arguments session = .ok (project, catalog) ∧
        (rendered settings id arguments project catalog session).1 = .ok results) ∧
      (execute settings id arguments session).1 = .ok { exitCode := 1 } := by
  intro settings arguments session
  have hrun : (session.setUpLogging settings.logDirectory settings.logLevel).1 = .ok () ∧
      ((loaded settings arguments session).toOption.any fun input =>
        ¬ Spoils settings id arguments input.1 input.2 session) = true ∧
      (execute settings id arguments session).1 = .ok { exitCode := 1 } := by decide +kernel
  obtain ⟨hsetUp, hunspoilt, hcode⟩ := hrun
  obtain ⟨⟨project, catalog⟩, hloaded, hspoils⟩ := exists_of_any hunspoilt
  have hregular : Regular settings arguments session := by
    constructor
    case sound => exact sound_sample _
    case handlers => rfl
    case help => decide
    case setUp => exact fun _ => hsetUp
    case load => exact fun _ failure herror => nomatch hloaded.symm.trans herror
    case nulFree =>
      intro project _ _
      change ∀ job ∈ Arguments.paired ["t", "out/a", "u", "b"], job.All CodePoint.NotNul
      decide +kernel
  have hagrees := execute_agrees settings id arguments session hregular
  have hnames : ∀ job ∈ jobs arguments project, job.All CodePoint.Nameable := by
    change ∀ job ∈ Arguments.paired ["t", "out/a", "u", "b"], job.All CodePoint.Nameable
    decide +kernel
  have hpaired : ¬ Arguments.Unpaired arguments := by
    rintro ⟨_, _, heq, hodd⟩
    injection heq with hcatalog hrest
    subst hrest
    cases hodd
  have hrenders := hagrees.renders hpaired project catalog hloaded
  obtain ⟨results, hresults⟩ := hrenders.returns hnames (of_decide_eq_true hspoils)
  exact ⟨hregular, hagrees, ⟨project, catalog, results, hloaded, hresults⟩, hcode⟩

/-- Without a catalog the exit code is 2, and yet a directory is made that the log directory does
not lie in and that does not lie in it, because two points lead out of it again. -/
theorem execute_makes_directory :
    let settings : Settings := { logDirectory := some "x/../logs" }
    let session := sample []
    let location := [Utf8.nameBytes "work", Utf8.nameBytes "x"]
    (session.setUpLogging settings.logDirectory settings.logLevel).1 = .ok () ∧
      (execute settings id [] session).1 = .ok { exitCode := 2 } ∧
      session.files.place (Path.ofText "x/../logs") =
        [Utf8.nameBytes "work", Utf8.nameBytes "logs"] ∧
      session.files.node? location = none ∧
      (execute settings id [] session).2.files.node? location = some .directory := by
  decide +kernel

end CommandLine
end CatalogPress
