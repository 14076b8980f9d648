import CatalogPress.Catalog.Basic
import CatalogPress.Context.Basic
import CatalogPress.Document.Pool

/-!
A run: the project and the catalog are loaded, the context is built once and every document is
rendered in it. Nothing is rendered if the project or the catalog is faulty.
-/
namespace CatalogPress

/-- The results of the documents of a run, in the order of their jobs. -/
structure Summary where
  results : List DocumentResult := []
deriving DecidableEq, Inhabited, Repr

namespace Summary

def succeeded (summary : Summary) : List DocumentResult :=
  summary.results.filter (·.isSuccess)

def failed (summary : Summary) : List DocumentResult :=
  summary.results.filter (!·.isSuccess)

def isOk (summary : Summary) : Bool :=
  summary.failed.isEmpty

def log (summary : Summary) : List LogRecord :=
  let failed := summary.failed
  let failures :=
    if failed.isEmpty then "" else " (" ++ toString failed.length ++ " failed)"
  ⟨LogRecord.infoLevel, Document.logger,
    "Rendered " ++ toString summary.succeeded.length ++ "/" ++
      toString summary.results.length ++ " documents" ++ failures⟩ ::
  (summary.succeeded.map fun result => ⟨LogRecord.infoLevel, Document.logger,
    "  OK     " ++ result.job.output.text ++ " (" ++ toString result.characters ++ " chars)"⟩) ++
  failed.map fun result => ⟨LogRecord.errorLevel, Document.logger,
    "  FAILED " ++ result.job.template.text ++ ": " ++
      ((result.fault?.map DocumentFault.message).getD "")⟩

end Summary

structure Request where
  catalog : Option Path := none
  project : Option Path := none
  documents : Option (List Job) := none
deriving DecidableEq, Inhabited, Repr

namespace Run

def prepare (settings : Settings) (request : Request) (session : Session) :
    Except Failure (Project × Context) × Session :=
  match Project.load session.files settings request.project with
  | .error failure => (.error failure, session)
  | .ok (project, log) =>
    let session := session.logAll log
    let path := request.catalog.getD (Path.ofText settings.catalogPath)
    match Catalog.load session.files path project.categories with
    | .error failure => (.error failure, session)
    | .ok catalog =>
      let session := session.logAll (Catalog.log path catalog)
      let context :=
        Context.ofCatalog project.licenceDefaults project.categories catalog project.version
      (.ok (project, context), session.logAll context.log)

def startLog (jobs : List Job) : LogRecord :=
  ⟨LogRecord.infoLevel, Document.logger, "Rendering " ++ toString jobs.length ++ " document(s)"⟩

/-- Renders the documents with as many workers as the settings say, whose steps follow each other as
scheduled. -/
def run (settings : Settings) (schedule : Nat → Nat) (request : Request) (session : Session) :
    Except Failure Summary × Session :=
  match prepare settings request session with
  | (.error failure, session) => (.error failure, session)
  | (.ok (project, context), session) =>
    let jobs := request.documents.getD project.documents
    match Document.renderPooled settings.renderDepth context.scope settings.workers schedule jobs
        (session.log (startLog jobs)) with
    | (.error failure, session) => (.error failure, session)
    | (.ok results, session) =>
      let summary : Summary := ⟨results⟩
      (.ok summary, session.logAll summary.log)

end Run
end CatalogPress
