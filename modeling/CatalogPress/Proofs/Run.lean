import CatalogPress.Proofs.Log.Places
import CatalogPress.Run

/-!
A run as loading and rendering. Whether it renders anything depends on what the project and the
catalog are loaded as, and up to there nothing but logging happens.
-/
namespace CatalogPress

theorem Summary.isOk_iff {summary : Summary} :
    summary.isOk = true ↔ ∀ result ∈ summary.results, result.isSuccess = true := by
  simp [isOk, failed]

namespace Run
open Session Fallible

variable {settings : Settings} {request : Request} {session : Session}
  {written made : Location → Prop}

def load (settings : Settings) (request : Request) (session : Session) :
    Except Failure (Project × Catalog) := do
  let (project, log) ← Project.load session.files settings request.project
  let path := request.catalog.getD (Path.ofText settings.catalogPath)
  let catalog ← Catalog.load (session.logAll log).files path project.categories
  return (project, catalog)

def contextOf (project : Project) (catalog : Catalog) : Context :=
  Context.ofCatalog project.licenceDefaults project.categories catalog project.version

theorem prepare_fst (settings : Settings) (request : Request) (session : Session) :
    (prepare settings request session).1 =
      (load settings request session).map
        fun (project, catalog) => (project, contextOf project catalog) := by
  rw [prepare, load]
  cases Project.load session.files settings request.project with
  | error failure => rfl
  | ok loaded =>
    obtain ⟨project, log⟩ := loaded
    change _ = Except.map _ (Catalog.load (session.logAll log).files _ project.categories >>=
      fun catalog =>
      .ok (project, catalog))
    dsimp only
    cases Catalog.load (session.logAll log).files _ project.categories <;> rfl

theorem alters_prepare (settings : Settings) (request : Request) (h : session.files.Sound) :
    Alters written made session (prepare settings request session).2 := by
  rw [prepare]
  split
  · exact .refl h
  · rename_i project log _
    have hproject : Alters written made session (session.logAll log) := alters_logAll h log
    dsimp only
    split
    · exact hproject
    · exact (hproject.logAll _).logAll _

def ready (settings : Settings) (request : Request) (jobs : List Job)
    (session : Session) : Session :=
  (prepare settings request session).2.log (startLog jobs)

theorem alters_ready (settings : Settings) (request : Request) (jobs : List Job)
    (h : session.files.Sound) :
    Alters written made session (ready settings request jobs session) :=
  (alters_prepare settings request h).log _

variable {schedule : Nat → Nat}

theorem run_of_error {failure : Failure} (h : load settings request session = .error failure) :
    run settings schedule request session =
      (.error failure, (prepare settings request session).2) := by
  have hprepare := prepare_fst settings request session
  rw [h] at hprepare
  rw [run]
  generalize prepare settings request session = prepared at hprepare
  obtain ⟨outcome, after⟩ := prepared
  cases hprepare
  rfl

def summarised : Except Failure (List DocumentResult) × Session → Except Failure Summary × Session
  | (.error failure, after) => (.error failure, after)
  | (.ok results, after) => (.ok ⟨results⟩, after.logAll (Summary.log ⟨results⟩))

theorem run_of_ok {project : Project} {catalog : Catalog}
    (h : load settings request session = .ok (project, catalog)) :
    let jobs := request.documents.getD project.documents
    run settings schedule request session =
      summarised (Document.renderPooled settings.renderDepth (contextOf project catalog).scope
        settings.workers schedule jobs (ready settings request jobs session)) := by
  have hprepare := prepare_fst settings request session
  rw [h] at hprepare
  rw [run]
  unfold ready
  generalize prepare settings request session = prepared at hprepare
  obtain ⟨outcome, after⟩ := prepared
  cases hprepare
  rfl

end Run
end CatalogPress
