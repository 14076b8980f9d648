import CatalogPress.Document.Render

/-!
Rendering documents with several workers. Each worker takes the next document that nobody has begun,
in the order of the jobs, and takes another when that has ended. Work is cut into steps of one
operation on the files or one record, which follow each other in the order that a schedule chooses.
-/
namespace CatalogPress.Document

inductive Stage where
  | waiting
  | read (source : String)
  /-- Directories are still to be made, the first one now. If what is above it is missing, that may
  be made before it or not. -/
  | making (text : Text) (directories : List (Path × Bool))
  | opened (text : Text) (location : Location)
  | written (characters : Nat)
  | failing (fault : DocumentFault)
  | ended (result : Except Failure DocumentResult)
deriving Inhabited

namespace Stage

def ofFileError : FileError → Stage
  | .system fault path => .failing (.file fault path)
  | error => .ended (.error (.file error))

def isEnded : Stage → Bool
  | .ended _ => true
  | _ => false

def directorySteps : List (Path × Bool) → Nat
  | [] => 0
  | (path, climbs) :: rest =>
    (if climbs then 2 * path.names.length + 1 else 1) + directorySteps rest

def remaining (job : Job) : Stage → Nat
  | .waiting => directorySteps [(job.output.parent, true)] + 5
  | .read _ => directorySteps [(job.output.parent, true)] + 4
  | .making _ directories => directorySteps directories + 3
  | .opened .. => 2
  | .written _ | .failing _ => 1
  | .ended _ => 0

end Stage

def overwrite (bytes old : ByteArray) : ByteArray :=
  bytes ++ old.extract bytes.size old.size

def makeStep (text : Text) (path : Path) (climbs : Bool) (rest : List (Path × Bool))
    (session : Session) : Stage × Session :=
  match session.files.ensureDirectory path.text with
  | .ok files => (.making text rest, { session with files })
  | .error error =>
    if climbs ∧ path.names ≠ [] ∧ error = .system .notFound path.text then
      (.making text ((path.parent, true) :: (path, false) :: rest), session)
    else (.ofFileError error, session)

def step (limit : Int) (scope : Value) (job : Job) (session : Session) : Stage → Stage × Session
  | .waiting =>
    match readSource session.files job with
    | .error error => (.ofFileError error, session)
    | .ok (.error fault) => (.failing fault, session)
    | .ok (.ok source) => (.read source, session)
  | .read source =>
    match renderText limit scope source with
    | .error fault => (.failing fault, session)
    | .ok result =>
      (.making result.text [(job.output.parent, true)],
        session.logAll (sanitizerLog job.template.text result))
  | .making text [] =>
    match session.files.openFile job.output.text fun _ => .empty with
    | .error error => (.ofFileError error, session)
    | .ok (location, files) => (.opened text location, { session with files })
  | .making text ((path, climbs) :: rest) => makeStep text path climbs rest session
  | .opened text location =>
    match Utf8.encode text with
    | .error fault => (.ended (.error (.file (.unencodable fault))), session)
    | .ok bytes =>
      (.written text.length,
        { session with files := session.files.alter location (overwrite bytes) })
  | .written characters =>
    (.ended (.ok ⟨job, .rendered characters⟩), session.log (successLog job characters))
  | .failing fault => (.ended (.ok ⟨job, .failed fault⟩), session.log (failureLog job fault))
  | .ended result => (.ended result, session)

structure Task where
  job : Job
  stage : Stage
deriving Inhabited

namespace Task

def result? (task : Task) : Option (Except Failure DocumentResult) :=
  match task.stage with
  | .ended result => some result
  | _ => none

def step (limit : Int) (scope : Value) (task : Task) (session : Session) : Task × Session :=
  let (stage, session) := Document.step limit scope task.job session task.stage
  (⟨task.job, stage⟩, session)

end Task

/-- The numbers of the first tasks that have not ended, one for each worker. -/
def underway (workers : Nat) (tasks : List Task) : List Nat :=
  ((tasks.zipIdx.filter (!·.1.stage.isEnded)).map (·.2)).take workers

/-- One step of the chosen one of the tasks under way. -/
def advance (limit : Int) (scope : Value) (workers choice : Nat) (tasks : List Task)
    (session : Session) : List Task × Session :=
  let numbers := underway workers tasks
  match numbers[choice % numbers.length]? with
  | none => (tasks, session)
  | some number =>
    match tasks[number]? with
    | none => (tasks, session)
    | some task =>
      let (task, session) := task.step limit scope session
      (tasks.set number task, session)

def runTasks (limit : Int) (scope : Value) (workers : Nat) (schedule : Nat → Nat)
    (tasks : List Task) (session : Session) : Nat → List Task × Session
  | 0 => (tasks, session)
  | count + 1 =>
    let (tasks, session) := runTasks limit scope workers schedule tasks session count
    advance limit scope workers (schedule count) tasks session

def start (jobs : List Job) : List Task :=
  jobs.map (⟨·, .waiting⟩)

def totalSteps : List Task → Nat
  | [] => 0
  | task :: tasks => task.stage.remaining task.job + totalSteps tasks

def crew (workers : Int) (jobs : List Job) : Nat :=
  (max 1 (min workers jobs.length)).toNat

/-- The results of all jobs, in their order. The first failure in that order ends the batch, when
all work has ended. -/
def renderPooled (limit : Int) (scope : Value) (workers : Int) (schedule : Nat → Nat)
    (jobs : List Job) (session : Session) : Except Failure (List DocumentResult) × Session :=
  if jobs.isEmpty then (.ok [], session.log emptyLog)
  else
    let (tasks, session) :=
      runTasks limit scope (crew workers jobs) schedule (start jobs)
        session (totalSteps (start jobs))
    ((tasks.filterMap Task.result?).mapM id, session)

end CatalogPress.Document
