import CatalogPress.Proofs.Document.Pool
import Mathlib.Logic.Relation

/-!
A single worker. It ends each document before it takes the next one, so that the documents are
rendered one after another, whatever the schedule.
-/
namespace CatalogPress

theorem Table.put_put {κ α : Type} [DecidableEq κ] (key : κ)
    (first second : α) (table : Table κ α) :
    put key second (put key first table) = put key second table := by
  fun_induction put key first table with
  | case1 => simp [put]
  | case2 => simp [put]
  | case3 k old rest h ih => simp [put, h, ih]

namespace FileSystem
variable {files opened : FileSystem} {location : Location} {path text : Text}

theorem update_const (files : FileSystem) (path : Text) (bytes : ByteArray) :
    files.update path (fun _ => bytes) = files.resolve path >>= fun location =>
      if files.node? location = some .directory then .error (.system .isADirectory path)
      else .ok (files.put location (.file bytes)) := by
  unfold update
  congr 1
  funext location
  split <;> simp [*]

theorem write_eq (files : FileSystem) (path text : Text) : files.write path text =
    match files.openFile path fun _ => .empty with
    | .error error => (.error error, files)
    | .ok (location, opened) =>
      match Utf8.encode text with
      | .error fault => (.error (.unencodable fault), opened)
      | .ok bytes => (.ok (), opened.alter location (Document.overwrite bytes)) := by
  unfold write openFile
  dsimp only
  rw [update_const, update_const]
  cases files.resolve path with
  | error error => rfl
  | ok location =>
    by_cases hdirectory : files.node? location = some .directory
    · simp [bind, Except.bind, hdirectory]
    · have hne : location ≠ [] := by
        rintro rfl
        exact hdirectory rfl
      simp only [bind, Except.bind, hdirectory, if_false]
      cases Utf8.encode text with
      | error fault => rfl
      | ok bytes =>
        have hempty : Document.overwrite bytes .empty = bytes := by
          rw [Document.overwrite, ByteArray.size_empty,
            ByteArray.extract_eq_empty_iff.mpr (Nat.zero_le _)]
          exact ByteArray.append_empty
        have hnode : (files.put location (.file .empty)).node? location = some (.file .empty) := by
          simp [node?, put, hne]
        change (Except.ok (), files.put location (.file bytes)) =
          (Except.ok (),
          (files.put location (.file .empty)).alter location (Document.overwrite bytes))
        rw [alter, hnode]
        dsimp only
        rw [hempty, put, put, put, Table.put_put]

end FileSystem

namespace Document
open FileSystem Relation

variable {limit : Int} {scope : Value} {job : Job} {jobs : List Job}
  {session : Session} {stage : Stage} {workers : Int} {schedule : Nat → Nat}
  {tasks done : List Task} {task : Task}

/-- The steps of one document that nobody else interrupts. -/
def Leads (limit : Int) (scope : Value) (job : Job) : Stage × Session → Stage × Session → Prop :=
  ReflTransGen fun now next => now.1.isEnded = false ∧ next = step limit scope job now.2 now.1

theorem Leads.trans {first next last : Stage × Session} (h : Leads limit scope job first next)
    (hnext : Leads limit scope job next last) : Leads limit scope job first last :=
  ReflTransGen.trans h hnext

theorem leads_step (limit : Int) (scope : Value) (job : Job) (session : Session) (stage : Stage)
    (h : stage.isEnded = false) :
    Leads limit scope job (stage, session) (step limit scope job session stage) :=
  .single ⟨h, rfl⟩

def made (text : Text) (rest : List (Path × Bool)) (session : Session) :
    Except FileError Unit × FileSystem → Stage × Session
  | (.ok (), files) => (.making text rest, { session with files })
  | (.error error, files) => (.ofFileError error, { session with files })

theorem leads_ensureNames (limit : Int) (scope : Value) (job : Job) (text : Text) (slashes : Nat)
    (names : List Text) (rest : List (Path × Bool)) (session : Session) :
    Leads limit scope job (.making text ((⟨slashes, names.reverse⟩, true) :: rest), session)
      (made text rest session (ensureNames slashes names session.files)) := by
  induction names generalizing rest with
  | nil =>
    have hstep := leads_step limit scope job session
      (.making text ((⟨slashes, [].reverse⟩, true) :: rest)) rfl
    rw [step, makeStep] at hstep
    rw [ensureNames]
    cases hmade : session.files.ensureDirectory (Path.text ⟨slashes, []⟩) with
    | ok files => simpa [hmade, made] using hstep
    | error error => simpa [hmade, made] using hstep
  | cons name above ih =>
    obtain ⟨path, hpath⟩ : ∃ path : Path, path = ⟨slashes, (name :: above).reverse⟩ := ⟨_, rfl⟩
    have hnames : path.names ≠ [] := by simp [hpath]
    have hparent : path.parent = ⟨slashes, above.reverse⟩ := by simp [hpath, Path.parent]
    have hstep := leads_step limit scope job session
      (.making text ((path, true) :: rest)) rfl
    rw [step, makeStep] at hstep
    rw [ensureNames, ← hpath]
    cases hmade : session.files.ensureDirectory path.text with
    | ok files =>
      rw [hmade] at hstep
      exact hstep
    | error error =>
      rw [hmade] at hstep
      dsimp only at hstep ⊢
      by_cases hmissing : error = .system .notFound path.text
      · rw [if_pos ⟨rfl, hnames, hmissing⟩, hparent] at hstep
        rw [if_pos hmissing]
        refine hstep.trans ((ih ((path, false) :: rest)).trans ?_)
        generalize ensureNames slashes above session.files = climbed
        obtain ⟨outcome, files⟩ := climbed
        cases outcome with
        | error error => exact .refl
        | ok =>
          have hlast := leads_step limit scope job { session with files }
            (.making text ((path, false) :: rest)) rfl
          rw [step, makeStep] at hlast
          dsimp only [made] at hlast ⊢
          cases hagain : files.ensureDirectory path.text with
          | ok files => simpa [hagain] using hlast
          | error error => simpa [hagain] using hlast
      · rw [if_neg (by simp [hmissing])] at hstep
        rw [if_neg hmissing]
        exact hstep

theorem leads_failFile (job : Job) (error : FileError) (session : Session) :
    Leads limit scope job (.ofFileError error, session)
      (.ended (failFile job error session).1, (failFile job error session).2) := by
  cases error with
  | system fault path => exact leads_step limit scope job session (.failing (.file fault path)) rfl
  | nulInPath | unencodable => exact .refl

theorem leads_write (limit : Int) (scope : Value) (job : Job) (text : Text) (session : Session) :
    Leads limit scope job (.making text [], session)
      (match session.files.write job.output.text text with
      | (.error error, files) =>
        (.ended (failFile job error { session with files }).1,
          (failFile job error { session with files }).2)
      | (.ok (), files) =>
        (.ended (.ok ⟨job, .rendered text.length⟩),
          { session with files }.log (successLog job text.length))) := by
  have hopen := leads_step limit scope job session (.making text []) rfl
  rw [step] at hopen
  rw [write_eq]
  cases hopened : session.files.openFile job.output.text fun _ => .empty with
  | error error =>
    rw [hopened] at hopen
    exact hopen.trans (leads_failFile job error session)
  | ok result =>
    obtain ⟨location, files⟩ := result
    rw [hopened] at hopen
    refine hopen.trans ?_
    have hwrite := leads_step limit scope job { session with files } (.opened text location) rfl
    rw [step] at hwrite
    cases hencode : Utf8.encode text with
    | error fault =>
      rw [hencode] at hwrite
      exact hwrite
    | ok bytes =>
      rw [hencode] at hwrite
      exact hwrite.trans (leads_step limit scope job _ (.written text.length) rfl)

/-- A document that nobody interrupts is rendered as by `render`. -/
theorem leads_render (job : Job) (session : Session) :
    Leads limit scope job (.waiting, session)
      (.ended (render limit scope job session).1, (render limit scope job session).2) := by
  have hread := leads_step limit scope job session .waiting rfl
  rw [step] at hread
  rw [render]
  cases hsource : readSource session.files job with
  | error error =>
    rw [hsource] at hread
    exact hread.trans (leads_failFile job error session)
  | ok outcome =>
    rw [hsource] at hread
    cases outcome with
    | error fault => exact hread.trans (leads_step limit scope job _ (.failing fault) rfl)
    | ok source =>
      refine hread.trans ?_
      dsimp only
      have hrender := leads_step limit scope job session (.read source) rfl
      rw [step] at hrender
      cases htext : renderText limit scope source with
      | error fault =>
        rw [htext] at hrender
        exact hrender.trans (leads_step limit scope job _ (.failing fault) rfl)
      | ok result =>
        rw [htext] at hrender
        refine hrender.trans ?_
        dsimp only
        generalize session.logAll (sanitizerLog job.template.text result) = logged
        have hmake :=
          leads_ensureNames limit scope job result.text job.output.parent.slashes
            job.output.parent.names.reverse [] logged
        rw [List.reverse_reverse] at hmake
        refine hmake.trans ?_
        rw [writeText, ensureDirectories]
        generalize ensureNames job.output.parent.slashes
          job.output.parent.names.reverse logged.files = climbed
        obtain ⟨outcome, files⟩ := climbed
        cases outcome with
        | error error => exact leads_failFile job error _
        | ok =>
          have hwrite := leads_write limit scope job result.text { logged with files }
          dsimp only at hwrite ⊢
          generalize files.write job.output.text result.text = written at hwrite ⊢
          obtain ⟨outcome, files⟩ := written
          cases outcome <;> exact hwrite

/-- What a single worker does next, whatever is scheduled. -/
def Follows (limit : Int) (scope : Value) : List Task × Session → List Task × Session → Prop :=
  ReflTransGen fun now next => ∀ choice, advance limit scope 1 choice now.1 now.2 = next

theorem advance_one (hdone : ∀ task ∈ done, task.stage.isEnded = true)
    (h : task.stage.isEnded = false) (choice : Nat) :
    advance limit scope 1 choice (done ++ task :: tasks) session =
      (done ++ (task.step limit scope session).1 :: tasks, (task.step limit scope session).2) := by
  have hnumbers : underway 1 (done ++ task :: tasks) = [done.length] := by
    have hnone : done.zipIdx.filter (!·.1.stage.isEnded) = [] := by
      rw [List.filter_eq_nil_iff]
      rintro ⟨other, number⟩ hmem
      simp [hdone other (List.fst_mem_of_mem_zipIdx hmem)]
    simp [underway, List.zipIdx_append, hnone, h]
  simp [advance, hnumbers, Nat.mod_one]

theorem follows_of_leads (hdone : ∀ task ∈ done, task.stage.isEnded = true)
    {now next : Stage × Session} (h : Leads limit scope job now next) :
    Follows limit scope (done ++ ⟨job, now.1⟩ :: tasks, now.2) (done ++ ⟨job, next.1⟩ :: tasks,
    next.2) := by
  refine ReflTransGen.lift (fun state : Stage × Session =>
    (done ++ ⟨job, state.1⟩ :: tasks, state.2)) ?_ _ _ h
  rintro now _ ⟨hended, rfl⟩ choice
  exact advance_one hdone hended choice

theorem follows_renderEach (limit : Int) (scope : Value) (jobs : List Job)
    (hdone : ∀ task ∈ done, task.stage.isEnded = true) (session : Session) :
    ∃ tasks, Follows limit scope (done ++ start jobs, session) (done ++ tasks,
    (renderEach limit scope jobs session).2) ∧
      (∀ task ∈ tasks, task.stage.isEnded = true) ∧
      tasks.filterMap Task.result? = (renderEach limit scope jobs session).1 := by
  induction jobs generalizing done session with
  | nil => exact ⟨[], .refl, nofun, rfl⟩
  | cons job jobs ih =>
    let first : Task := ⟨job, .ended (render limit scope job session).1⟩
    have hfirst : Follows limit scope (done ++ start (job :: jobs), session)
        (done ++ first :: start jobs, (render limit scope job session).2) :=
      follows_of_leads hdone (leads_render job session)
    have hmore : ∀ task ∈ done ++ [first], task.stage.isEnded = true :=
      List.forall_mem_append.mpr ⟨hdone, List.forall_mem_singleton.mpr rfl⟩
    obtain ⟨tasks, hrest, hended, hresults⟩ := ih hmore (render limit scope job session).2
    rw [List.append_assoc, List.append_assoc] at hrest
    refine ⟨first :: tasks, hfirst.trans hrest, List.forall_mem_cons.mpr ⟨rfl, hended⟩, ?_⟩
    have hresult : first.result? = some (render limit scope job session).1 := rfl
    rw [List.filterMap_cons_some hresult, hresults]
    rfl

theorem exists_runTasks_of_follows {now next : List Task × Session}
    (h : Follows limit scope now next) (schedule : Nat → Nat) :
    ∃ count, runTasks limit scope 1 schedule now.1 now.2 count = next := by
  induction h with
  | refl => exact ⟨0, rfl⟩
  | tail _ hstep ih =>
    obtain ⟨count, rfl⟩ := ih
    exact ⟨count + 1, hstep (schedule count)⟩

/-- One worker renders a batch as if documents were rendered one after another. -/
theorem renderPooled_of_one (schedule : Nat → Nat) (session : Session) (h : crew workers jobs = 1) :
    renderPooled limit scope workers schedule jobs session =
      renderAll limit scope jobs session := by
  rw [renderPooled, renderAll]
  split
  · rfl
  · obtain ⟨tasks, hfollows, hended, hresults⟩ :=
      follows_renderEach limit scope jobs (List.forall_mem_nil _) session
    obtain ⟨count, hcount⟩ := exists_runTasks_of_follows hfollows schedule
    rw [List.nil_append, List.nil_append] at hcount
    have hthen : ∀ task ∈ (runTasks limit scope 1 schedule (start jobs) session count).1,
        task.stage.isEnded = true := by rwa [hcount]
    have hend :=
      all_ended limit scope schedule session Nat.one_pos (Nat.le_refl (totalSteps (start jobs)))
    have hsame : runTasks limit scope 1 schedule (start jobs) session (totalSteps (start jobs)) =
        runTasks limit scope 1 schedule (start jobs) session count := by
      obtain hle | hle := Nat.le_total count (totalSteps (start jobs))
      · exact runTasks_of_ended Nat.one_pos hle hthen
      · exact (runTasks_of_ended Nat.one_pos hle hend).symm
    rw [h, hsame, hcount]
    dsimp only
    rw [hresults]

end Document
end CatalogPress
