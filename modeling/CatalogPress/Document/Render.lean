import CatalogPress.Log.Session
import CatalogPress.Project.Basic
import CatalogPress.Render.Evaluate
import CatalogPress.Render.Sanitize
import CatalogPress.Template.Parser

/-!
Rendering documents. A document is read, rendered in the scope of the context, sanitized and
written; directories that its output needs are made. What goes wrong with one document is recorded
and does not concern the others.
-/
namespace CatalogPress

inductive DocumentFault where
  | template (error : TemplateError)
  | depth (error : DepthError)
  | undecodable (fault : Utf8.Fault)
  | file (fault : SystemFault) (path : Text)
deriving DecidableEq, Inhabited, Repr

namespace DocumentFault

def message : DocumentFault → String
  | template error => "parse error: " ++ error.message
  | depth error => "depth limit: " ++ error.message
  | undecodable fault => "decode error: " ++ fault.message
  | file fault path => "I/O error: " ++ (FileError.system fault path).message

def logMessage (job : Job) : DocumentFault → Text
  | template error => "Parse error in " ++ job.template.text ++ ": " ++ error.message
  | depth error => "Render depth exceeded in " ++ job.template.text ++ ": " ++ error.message
  | undecodable fault =>
    "Template " ++ job.template.text ++ " is not valid UTF-8: " ++ fault.message
  | file fault path =>
    "I/O error for " ++ job.template.text ++ " -> " ++ job.output.text ++ ": " ++
      (FileError.system fault path).message

end DocumentFault

inductive Outcome where
  | rendered (characters : Nat)
  | failed (fault : DocumentFault)
deriving DecidableEq, Inhabited, Repr

structure DocumentResult where
  job : Job
  outcome : Outcome
deriving DecidableEq, Inhabited, Repr

namespace DocumentResult

def fault? (result : DocumentResult) : Option DocumentFault :=
  match result.outcome with
  | .failed fault => some fault
  | .rendered _ => none

def isSuccess (result : DocumentResult) : Bool :=
  result.fault?.isNone

def characters (result : DocumentResult) : Nat :=
  match result.outcome with
  | .rendered characters => characters
  | .failed _ => 0

end DocumentResult

namespace Document

def logger : String := "shaderdocs.consumers.orchestrator"
def sanitizerLogger : String := "shaderdocs.templates.evaluator"

def renderText (limit : Int) (scope : Value) (source : String) :
    Except DocumentFault Sanitized := do
  let template ← (Template.parse source).mapError .template
  let text ← (template.render scope limit).mapError .depth
  return sanitize text

def readSource (files : FileSystem) (job : Job) :
    Except FileError (Except DocumentFault String) :=
  match files.readText job.template.text with
  | .ok source => .ok (.ok source)
  | .error (.undecodable fault) => .ok (.error (.undecodable fault))
  | .error (.file error) => .error error

def writeText (files : FileSystem) (job : Job) (text : Text) :
    Except FileError Unit × FileSystem :=
  match files.ensureDirectories job.output.parent with
  | (.error error, files) => (.error error, files)
  | (.ok (), files) => files.write job.output.text text

def sanitizerLog (name : Text) (result : Sanitized) : List LogRecord :=
  (result.warning? name).toList.map (⟨LogRecord.warningLevel, sanitizerLogger, ·⟩)

def failureLog (job : Job) (fault : DocumentFault) : LogRecord :=
  ⟨LogRecord.errorLevel, logger, fault.logMessage job⟩

def successLog (job : Job) (characters : Nat) : LogRecord :=
  ⟨LogRecord.debugLevel, logger,
    "Rendered " ++ job.template.text ++ " -> " ++ job.output.text ++
      " (" ++ toString characters ++ " chars)"⟩

def emptyLog : LogRecord :=
  ⟨LogRecord.warningLevel, logger, "No documents to render"⟩

def fail (job : Job) (fault : DocumentFault) (session : Session) :
    Except Failure DocumentResult × Session :=
  (.ok ⟨job, .failed fault⟩, session.log (failureLog job fault))

/-- A file operation of a job failed. The run ends if it was for a path that no file can have or a
text that no file can hold. -/
def failFile (job : Job) (error : FileError) (session : Session) :
    Except Failure DocumentResult × Session :=
  match error with
  | .system fault path => fail job (.file fault path) session
  | error => (.error (.file error), session)

def render (limit : Int) (scope : Value) (job : Job) (session : Session) :
    Except Failure DocumentResult × Session :=
  match readSource session.files job with
  | .error error => failFile job error session
  | .ok (.error fault) => fail job fault session
  | .ok (.ok source) =>
    match renderText limit scope source with
    | .error fault => fail job fault session
    | .ok result =>
      let session := session.logAll (sanitizerLog job.template.text result)
      match writeText session.files job result.text with
      | (.error error, files) => failFile job error { session with files }
      | (.ok (), files) =>
        let characters := result.text.length
        (.ok ⟨job, .rendered characters⟩, { session with files }.log (successLog job characters))

/-- Renders jobs one after another, all of them even if one ends the run. -/
def renderEach (limit : Int) (scope : Value) :
    List Job → Session → List (Except Failure DocumentResult) × Session
  | [], session => ([], session)
  | job :: jobs, session =>
    let (result, session) := render limit scope job session
    let (results, session) := renderEach limit scope jobs session
    (result :: results, session)

def renderAll (limit : Int) (scope : Value) (jobs : List Job) (session : Session) :
    Except Failure (List DocumentResult) × Session :=
  if jobs.isEmpty then (.ok [], session.log emptyLog)
  else
    let (results, session) := renderEach limit scope jobs session
    (results.mapM id, session)

end Document
end CatalogPress
