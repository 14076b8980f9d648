import CatalogPress.Document.Pool
import CatalogPress.Proofs.Document.Batch
import CatalogPress.Proofs.Files.Guards

/-!
Documents rendered by several workers. Whatever the schedule, all of them end, their results come in
the order of the jobs, and there are results unless a path has code points without bytes or a
document comes to be written with a surrogate in it.
-/
namespace CatalogPress

structure Job.All (q : CodePoint → Prop) (job : Job) : Prop where
  template : job.template.All q
  output : job.output.All q

instance {q : CodePoint → Prop} [DecidablePred q] (job : Job) : Decidable (job.All q) :=
  decidable_of_iff ((∀ name ∈ job.template.names, ∀ point ∈ name.points, q point) ∧
    ∀ name ∈ job.output.names, ∀ point ∈ name.points, q point) ⟨fun h => ⟨h.1, h.2⟩,
    fun h => ⟨h.template, h.output⟩⟩

theorem Job.all_true (job : Job) : job.All fun _ => True :=
  ⟨fun _ _ _ _ => trivial, fun _ _ _ _ => trivial⟩

theorem Path.All.parent {q : CodePoint → Prop} {path : Path} (h : path.All q) : path.parent.All q :=
  fun name hname => h name (List.dropLast_subset _ hname)

namespace Document
open FileSystem Fallible

variable {q : CodePoint → Prop} {p : FileError → Prop} {limit : Int} {scope : Value}
  {job : Job} {jobs : List Job} {stage : Stage} {session : Session} {workers : Nat}
  {schedule : Nat → Nat} {tasks : List Task} {task : Task}

namespace Stage

def Fits (q : CodePoint → Prop) : Stage → Prop
  | .making _ directories => ∀ directory ∈ directories, directory.1.All q
  | _ => True

def isSpoiled : Stage → Bool
  | .opened text _ => text.points.any (·.isSurrogate)
  | _ => false

theorem fits_ofFileError (error : FileError) : (ofFileError error).Fits q := by
  cases error <;> trivial

theorem remaining_ofFileError_le (job : Job) (error : FileError) :
    (ofFileError error).remaining job ≤ 1 := by
  cases error <;> simp [ofFileError, remaining]

theorem isEnded_iff : stage.isEnded = true ↔ ∃ result, stage = .ended result := by
  cases stage <;> simp [isEnded]

theorem remaining_pos (job : Job) (h : stage.isEnded = false) : 0 < stage.remaining job := by
  cases stage <;> simp_all [remaining, isEnded]

theorem exists_of_isSpoiled (h : stage.isSpoiled = true) : ∃ text location fault,
    stage = .opened text location ∧ Utf8.encode text = .error fault := by
  cases stage with
  | opened text location =>
    obtain ⟨point, hpoint, hsurrogate⟩ := List.any_eq_true.mp h
    cases hencode : Utf8.encode text with
    | error fault => exact ⟨text, location, fault, rfl, hencode⟩
    | ok bytes =>
      cases (Utf8.encode_eq_ok_iff.mp ⟨bytes, hencode⟩ point hpoint).symm.trans hsurrogate
  | _ => cases h

theorem isSpoiled_of_error {text : Text} {location : Location} {fault : Utf8.Unencodable}
    (h : Utf8.encode text = .error fault) : (opened text location).isSpoiled = true := by
  by_contra hnot
  have hpoints : ∀ point ∈ text.points, point.isSurrogate = false := by simpa [isSpoiled] using hnot
  obtain ⟨bytes, hbytes⟩ := Utf8.encode_eq_ok_iff.mpr hpoints
  cases hbytes.symm.trans h

end Stage

theorem remaining_step_lt (limit : Int) (scope : Value) (job : Job) (session : Session)
    (h : stage.isEnded = false) :
    (step limit scope job session stage).1.remaining job < stage.remaining job := by
  have hsmall {n : Nat} (error : FileError) (hn : 1 < n) :
      (Stage.ofFileError error).remaining job < n :=
    Nat.lt_of_le_of_lt (Stage.remaining_ofFileError_le job error) hn
  cases stage with
  | waiting =>
    rw [step]
    split
    · exact hsmall _ (by simp [Stage.remaining])
    · simp [Stage.remaining]
    · simp [Stage.remaining]
  | read source =>
    rw [step]
    split <;> simp [Stage.remaining]
  | making text directories =>
    cases directories with
    | nil =>
      rw [step]
      split
      · exact hsmall _ (by simp [Stage.remaining])
      · simp [Stage.remaining]
    | cons directory rest =>
      obtain ⟨path, climbs⟩ := directory
      rw [step, makeStep]
      split
      · simp only [Stage.remaining, Stage.directorySteps]
        split <;> omega
      · split
        · rename_i error _ hclimbs
          obtain ⟨rfl, hnames, -⟩ := hclimbs
          have hlength : path.parent.names.length + 1 = path.names.length := by
            rw [Path.parent, List.length_dropLast]
            exact Nat.sub_add_cancel (List.length_pos_iff.mpr hnames)
          simp only [Stage.remaining, Stage.directorySteps, if_true, Bool.false_eq_true, if_false]
          omega
        · exact hsmall _ (by simp [Stage.remaining])
  | opened text location =>
    rw [step]
    split <;> simp [Stage.remaining]
  | written characters => simp [step, Stage.remaining]
  | failing fault => simp [step, Stage.remaining]
  | ended result => cases h

/-- Why a step ends a task without a result: an operation failed, other than for a reason of the
file system, or a surrogate was to be written. -/
inductive Breaks (p : FileError → Prop) (stage : Stage) : Failure → Prop
  | guarded {error : FileError} : ¬ error.IsSystem → p error → Breaks p stage (.file error)
  | spoiled {fault : Utf8.Unencodable} : stage.isSpoiled = true →
      Breaks p stage (.file (.unencodable fault))

def EndsWith (p : FileError → Prop) (job : Job) (stage : Stage)
    (result : Except Failure DocumentResult) : Prop :=
  (∃ outcome, result = .ok ⟨job, outcome⟩) ∨
    ∃ failure, result = .error failure ∧ Breaks p stage failure

theorem endsWith_of_ofFileError {error : FileError}
    {result : Except Failure DocumentResult} (h : p error)
    (hended : Stage.ofFileError error = .ended result) : EndsWith p job stage result := by
  cases error with
  | system fault path => cases hended
  | nulInPath | unencodable =>
    cases hended
    exact .inr ⟨_, rfl, .guarded nofun h⟩

theorem failsWith_openFile (h : Guards q p) (files : FileSystem) {text : Text}
    (htext : ∀ point ∈ text.points, q point) (change : ByteArray → ByteArray) :
    FailsWith p (files.openFile text change) := by
  refine failsWith_bind.mpr ⟨h.resolve files text htext, fun location _ => ?_⟩
  exact failsWith_bind.mpr ⟨h.update files htext change, fun _ _ => failsWith_ok⟩

theorem step_guarded (h : Guards q p) (limit : Int) (scope : Value)
    (hjob : job.All q) (session : Session) (hstage : stage.Fits q) :
    (step limit scope job session stage).1.Fits q ∧
      ∀ result, (step limit scope job session stage).1 = .ended result →
        stage = .ended result ∨ EndsWith p job stage result := by
  have hfile {error : FileError} (herror : p error) : (Stage.ofFileError error).Fits q ∧
      ∀ result, Stage.ofFileError error = .ended result → stage = .ended result ∨
      EndsWith p job stage result :=
    ⟨Stage.fits_ofFileError error, fun _ hended => .inr (endsWith_of_ofFileError herror hended)⟩
  cases stage with
  | waiting =>
    rw [step]
    split
    · rename_i error herror
      exact hfile
        (failsWith_readSource.mpr (h.read session.files (h.pathText hjob.template)) error herror)
    · exact ⟨trivial, nofun⟩
    · exact ⟨trivial, nofun⟩
  | read source =>
    rw [step]
    split
    · exact ⟨trivial, nofun⟩
    · exact ⟨List.forall_mem_singleton.mpr hjob.output.parent, nofun⟩
  | making text directories =>
    cases directories with
    | nil =>
      rw [step]
      split
      · rename_i error herror
        exact hfile (failsWith_openFile h _ (h.pathText hjob.output) _ error herror)
      · exact ⟨trivial, nofun⟩
    | cons directory rest =>
      obtain ⟨path, climbs⟩ := directory
      obtain ⟨hpath, hrest⟩ := List.forall_mem_cons.mp hstage
      rw [step, makeStep]
      split
      · exact ⟨hrest, nofun⟩
      · rename_i error herror
        split
        · exact ⟨List.forall_mem_cons.mpr ⟨hpath.parent, List.forall_mem_cons.mpr ⟨hpath, hrest⟩⟩,
            nofun⟩
        · exact hfile (h.ensureDirectory _ (h.pathText hpath) error herror)
  | opened text location =>
    rw [step]
    split
    · rename_i fault hfault
      refine ⟨trivial, fun result hended => ?_⟩
      cases hended
      exact .inr (.inr ⟨_, rfl, .spoiled (Stage.isSpoiled_of_error hfault)⟩)
    · exact ⟨trivial, nofun⟩
  | written characters | failing fault =>
    refine ⟨trivial, fun result hended => ?_⟩
    cases hended
    exact .inr (.inl ⟨_, rfl⟩)
  | ended other => exact ⟨trivial, fun result hended => .inl hended⟩

/-- What a schedule does next: nothing, if all tasks have ended, or a step of one that has not. -/
theorem advance_cases (limit : Int) (scope : Value) (hworkers : 0 < workers)
    (choice : Nat) (tasks : List Task) (session : Session) :
    ((∀ task ∈ tasks, task.stage.isEnded = true) ∧
      advance limit scope workers choice tasks session = (tasks, session)) ∨
    ∃ number task, tasks[number]? = some task ∧ task.stage.isEnded = false ∧
      advance limit scope workers choice tasks session =
        (tasks.set number (task.step limit scope session).1,
        (task.step limit scope session).2) := by
  have hmem (number : Nat) : number ∈ ((tasks.zipIdx.filter (!·.1.stage.isEnded)).map (·.2)) ↔
      ∃ task, tasks[number]? = some task ∧ task.stage.isEnded = false := by
    simp [List.mem_zipIdx_iff_getElem?]
  unfold advance underway
  generalize ((tasks.zipIdx.filter (!·.1.stage.isEnded)).map (·.2)) = numbers at hmem
  dsimp only
  cases numbers with
  | nil =>
    refine .inl ⟨fun task htask => ?_, by rw [List.take_nil, List.getElem?_nil]⟩
    obtain ⟨number, hlt, rfl⟩ := List.getElem_of_mem htask
    by_contra hnot
    have hthere : tasks[number]? = some tasks[number] := List.getElem?_eq_getElem hlt
    exact absurd ((hmem number).mpr ⟨_, hthere, Bool.eq_false_iff.mpr hnot⟩) List.not_mem_nil
  | cons first numbers =>
    have hpos : 0 < ((first :: numbers).take workers).length := by
      rw [List.length_take, List.length_cons]
      omega
    have hlt := Nat.mod_lt choice hpos
    rw [List.getElem?_eq_getElem hlt]
    obtain ⟨task, htask, hended⟩ := (hmem _).mp (List.mem_of_mem_take (List.getElem_mem hlt))
    refine .inr ⟨_, task, htask, hended, ?_⟩
    dsimp only
    rw [htask]

theorem totalSteps_set {number : Nat} (h : tasks[number]? = some task) (other : Task) :
    totalSteps (tasks.set number other) + task.stage.remaining task.job =
      totalSteps tasks + other.stage.remaining other.job := by
  induction tasks generalizing number with
  | nil => cases h
  | cons first tasks ih =>
    cases number with
    | zero =>
      cases h
      simp only [List.set_cons_zero, totalSteps]
      omega
    | succ number =>
      have hrest := ih h
      simp only [List.set_cons_succ, totalSteps]
      omega

theorem remaining_le_totalSteps (h : task ∈ tasks) :
    task.stage.remaining task.job ≤ totalSteps tasks := by
  induction tasks with
  | nil => cases h
  | cons first tasks ih =>
    rw [totalSteps]
    obtain rfl | h := List.mem_cons.mp h
    · exact Nat.le_add_right _ _
    · exact Nat.le_add_left_of_le (ih h)

theorem runTasks_of_ended (hworkers : 0 < workers) {count later : Nat} (hle : count ≤ later)
    (h : ∀ task ∈ (runTasks limit scope workers schedule tasks session count).1,
      task.stage.isEnded = true) :
    runTasks limit scope workers schedule tasks session later =
      runTasks limit scope workers schedule tasks session count := by
  induction hle with
  | refl => rfl
  | @step later _ ih =>
    rw [runTasks, ih]
    obtain ⟨-, hsame⟩ | ⟨number, task, htask, hended, -⟩ :=
      advance_cases limit scope hworkers (schedule later)
        (runTasks limit scope workers schedule tasks session count).1
        (runTasks limit scope workers schedule tasks session count).2
    · exact hsame
    · cases hended.symm.trans (h task (List.mem_of_getElem? htask))

/-- After so many steps either all tasks have ended, or so many steps fewer are left. -/
theorem ended_or_totalSteps_le (limit : Int) (scope : Value) (schedule : Nat → Nat)
    (tasks : List Task) (session : Session) (hworkers : 0 < workers) (count : Nat) :
    (∀ task ∈ (runTasks limit scope workers schedule tasks session count).1,
      task.stage.isEnded = true) ∨
      totalSteps (runTasks limit scope workers schedule tasks session count).1 + count ≤
        totalSteps tasks := by
  induction count with
  | zero => exact .inr (Nat.le_refl _)
  | succ count ih =>
    rw [runTasks]
    generalize runTasks limit scope workers schedule tasks session count = state at ih
    obtain ⟨now, later⟩ := state
    dsimp only at ih ⊢
    obtain ⟨hall, hsame⟩ | ⟨number, task, htask, hended, hnext⟩ :=
      advance_cases limit scope hworkers (schedule count) now later
    · rw [hsame]
      exact .inl hall
    · have hle :=
        ih.resolve_left
          fun hall => by cases hended.symm.trans (hall task (List.mem_of_getElem? htask))
      have hlt := remaining_step_lt limit scope task.job later hended
      have hset := totalSteps_set htask (task.step limit scope later).1
      rw [hnext]
      change _ = _ + (step limit scope task.job later task.stage).1.remaining task.job at hset
      dsimp only
      exact .inr (by omega)

theorem all_ended (limit : Int) (scope : Value) (schedule : Nat → Nat) (session : Session)
    (hworkers : 0 < workers) {count : Nat} (hcount : totalSteps tasks ≤ count) :
    ∀ task ∈ (runTasks limit scope workers schedule tasks session count).1,
      task.stage.isEnded = true := by
  obtain hall | hle := ended_or_totalSteps_le limit scope schedule tasks session
    hworkers count
  · exact hall
  · intro task htask
    by_contra hnot
    have hpos := Stage.remaining_pos task.job (Bool.eq_false_iff.mpr hnot)
    have hsum := remaining_le_totalSteps htask
    omega

def Moves (limit : Int) (scope : Value) (session : Session) (task next : Task) : Prop :=
  next = task ∨ (task.stage.isEnded = false ∧ next = (task.step limit scope session).1)

theorem forall₂_set {R : Task → Task → Prop} (hrefl : ∀ task, R task task) {number : Nat}
    (h : tasks[number]? = some task) {other : Task} (hother : R task other) :
    List.Forall₂ R tasks (tasks.set number other) := by
  induction tasks generalizing number with
  | nil => cases h
  | cons first tasks ih =>
    cases number with
    | zero =>
      cases h
      exact .cons hother (List.forall₂_same.mpr fun task _ => hrefl task)
    | succ number => exact .cons (hrefl first) (ih h)

theorem moves_advance (limit : Int) (scope : Value) (hworkers : 0 < workers)
    (choice : Nat) (tasks : List Task) (session : Session) :
    List.Forall₂ (Moves limit scope session) tasks
      (advance limit scope workers choice tasks session).1 := by
  obtain ⟨-, hsame⟩ | ⟨number, task, htask, hended, hnext⟩ :=
    advance_cases limit scope hworkers choice tasks session
  · rw [hsame]
    exact List.forall₂_same.mpr fun task _ => .inl rfl
  · rw [hnext]
    exact forall₂_set (fun task => .inl rfl) htask (.inr ⟨hended, rfl⟩)

theorem job_of_moves {next : Task} (h : Moves limit scope session task next) :
    next.job = task.job := by
  obtain rfl | ⟨-, rfl⟩ := h <;> rfl

theorem map_job_runTasks (hworkers : 0 < workers) (count : Nat) :
    (runTasks limit scope workers schedule tasks session count).1.map (·.job) =
      tasks.map (·.job) := by
  induction count with
  | zero => rfl
  | succ count ih =>
    rw [runTasks, ← ih]
    have hmoves := moves_advance limit scope hworkers (schedule count)
      (runTasks limit scope workers schedule tasks session count).1
      (runTasks limit scope workers schedule tasks session count).2
    refine (List.forall₂_eq_eq_eq ▸
      List.forall₂_map_left_iff.mpr (List.forall₂_map_right_iff.mpr ?_) :
      _ = _).symm
    exact hmoves.imp fun _ _ h => (job_of_moves h).symm

theorem forall_runTasks {P : Task → Prop} (hworkers : 0 < workers) {count : Nat}
    (h : ∀ task ∈ tasks, P task)
    (hstep : ∀ done < count,
      ∀ task ∈ (runTasks limit scope workers schedule tasks session done).1, P task →
      task.stage.isEnded = false →
        P (task.step limit scope (runTasks limit scope workers schedule tasks session done).2).1) :
    ∀ task ∈ (runTasks limit scope workers schedule tasks session count).1, P task := by
  induction count with
  | zero => exact h
  | succ count ih =>
    have hnow := ih fun done hlt => hstep done (Nat.lt_succ_of_lt hlt)
    intro next hnext
    rw [runTasks] at hnext
    obtain ⟨task, htask, rfl | ⟨hended, rfl⟩⟩ :=
      exists_of_forall₂ (moves_advance limit scope hworkers _ _ _) next hnext
    · exact hnow next htask
    · exact hstep count (Nat.lt_succ_self count) task htask (hnow task htask) hended

theorem exists_runTasks {P : Task → Prop} (hworkers : 0 < workers)
    (hstep : ∀ task session, P task → P (task.step limit scope session).1)
    {done count : Nat} (hle : done ≤ count)
    (h : ∃ task ∈ (runTasks limit scope workers schedule tasks session done).1, P task) :
    ∃ task ∈ (runTasks limit scope workers schedule tasks session count).1, P task := by
  induction hle with
  | refl => exact h
  | step _ ih =>
    obtain ⟨task, htask, hP⟩ := ih
    obtain ⟨next, hnext, rfl | ⟨-, rfl⟩⟩ :=
      exists_of_forall₂_left (moves_advance limit scope hworkers _ _ _) task htask
    · exact ⟨next, hnext, hP⟩
    · exact ⟨_, hnext, hstep _ _ hP⟩

/-- Paths that are guarded, and an end with a result of the job or with one of these failures. -/
structure Task.Guarded (q : CodePoint → Prop) (p : Failure → Prop) (task : Task) : Prop where
  job : task.job.All q
  stage : task.stage.Fits q
  ends : ∀ result, task.stage = .ended result →
    (∃ outcome, result = .ok ⟨task.job, outcome⟩) ∨ ∃ failure, result = .error failure ∧ p failure

theorem guarded_start {p : Failure → Prop} (h : ∀ job ∈ jobs, job.All q) :
    ∀ task ∈ start jobs, task.Guarded q p :=
  List.forall_mem_map.mpr fun job hjob => ⟨h job hjob, trivial, nofun⟩

theorem Task.Guarded.step {r : Failure → Prop} (hguards : Guards q p) (h : task.Guarded q r)
    (hbreaks : ∀ failure, Breaks p task.stage failure → r failure) (session : Session) :
    (task.step limit scope session).1.Guarded q r := by
  obtain ⟨hfits, hends⟩ := step_guarded hguards limit scope h.job session h.stage
  refine ⟨h.job, hfits, fun result hresult => ?_⟩
  obtain hsame | houtcome | ⟨failure, rfl, hfailure⟩ := hends result hresult
  · exact h.ends result hsame
  · exact .inl houtcome
  · exact .inr ⟨failure, rfl, hbreaks failure hfailure⟩

theorem forall₂_result? (h : ∀ task ∈ tasks, task.stage.isEnded = true) :
    List.Forall₂ (fun task outcome => task.stage = .ended outcome) tasks
      (tasks.filterMap Task.result?) := by
  induction tasks with
  | nil => exact .nil
  | cons task tasks ih =>
    obtain ⟨hended, hrest⟩ := List.forall_mem_cons.mp h
    obtain ⟨outcome, houtcome⟩ := Stage.isEnded_iff.mp hended
    have hresult : task.result? = some outcome := by rw [Task.result?, houtcome]
    rw [List.filterMap_cons_some hresult]
    exact .cons houtcome (ih hrest)

theorem crew_pos (workers : Int) (jobs : List Job) : 0 < crew workers jobs := by
  unfold crew
  omega

section Batch
variable (limit : Int) (scope : Value) (workers : Int) (schedule : Nat → Nat)
  (jobs : List Job) (session : Session)

def tasksAfter (count : Nat) : List Task :=
  (runTasks limit scope (crew workers jobs) schedule (start jobs) session count).1

/-- A document comes to be written with a surrogate in it. -/
def Spoils : Prop :=
  ∃ count < totalSteps (start jobs),
    ∃ task ∈ tasksAfter limit scope workers schedule jobs session count,
    task.stage.isSpoiled = true

instance : Decidable (Spoils limit scope workers schedule jobs session) :=
  inferInstanceAs (Decidable (∃ count < _, ∃ task ∈ _, _))

theorem renderPooled_fst : (renderPooled limit scope workers schedule jobs session).1 =
    ((tasksAfter limit scope workers schedule jobs session (totalSteps (start jobs))).filterMap
      Task.result?).mapM id := by
  cases jobs <;> rfl

theorem ended_tasksAfter :
    ∀ task ∈ tasksAfter limit scope workers schedule jobs session (totalSteps (start jobs)),
    task.stage.isEnded = true :=
  all_ended limit scope schedule session (crew_pos workers jobs) (Nat.le_refl _)

theorem map_job_tasksAfter (count : Nat) :
    (tasksAfter limit scope workers schedule jobs session count).map (·.job) = jobs := by
  rw [tasksAfter, map_job_runTasks (crew_pos workers jobs), start, List.map_map]
  exact List.map_id jobs

end Batch

def IsGrave (p : FileError → Prop) (failure : Failure) : Prop :=
  ∃ error, failure = .file error ∧ p error ∧ ¬ error.IsSystem

def IsUnencodable (failure : Failure) : Prop :=
  ∃ fault, failure = .file (.unencodable fault)

section Batch
variable {limit : Int} {scope : Value} {workers : Int} {schedule : Nat → Nat}
  {jobs : List Job} {session : Session}

theorem guarded_tasksAfter (h : Guards q p) (hjobs : ∀ job ∈ jobs, job.All q) :
    ∀ task ∈ tasksAfter limit scope workers schedule jobs session (totalSteps (start jobs)),
      task.Guarded q fun failure =>
        IsGrave p failure ∨
          (Spoils limit scope workers schedule jobs session ∧ IsUnencodable failure) := by
  refine forall_runTasks (crew_pos workers jobs) (guarded_start hjobs)
    fun done hdone task htask hguarded _ => ?_
  refine hguarded.step h (fun failure hbreaks => ?_) _
  cases hbreaks with
  | guarded hsystem herror => exact .inl ⟨_, rfl, herror, hsystem⟩
  | spoiled hspoiled => exact .inr ⟨⟨done, hdone, task, htask, hspoiled⟩, _, rfl⟩

theorem failsWith_renderPooled (h : Guards q p) (hjobs : ∀ job ∈ jobs, job.All q) :
    FailsWith (fun failure =>
        IsGrave p failure ∨
          (Spoils limit scope workers schedule jobs session ∧ IsUnencodable failure))
      (renderPooled limit scope workers schedule jobs session).1 := by
  intro failure hfailure
  rw [renderPooled_fst] at hfailure
  obtain ⟨outcome, houtcome, hfails⟩ := exists_of_mapM_eq_error hfailure
  obtain ⟨task, htask, hended⟩ := exists_of_forall₂
    (forall₂_result? (ended_tasksAfter limit scope workers schedule jobs session)) outcome houtcome
  change outcome = .error failure at hfails
  subst hfails
  obtain ⟨_, hok⟩ | ⟨_, heq, hreason⟩ := (guarded_tasksAfter h hjobs task htask).ends _ hended
  · cases hok
  · cases heq
    exact hreason

theorem failsWith_renderPooled_of_notNul (hjobs : ∀ job ∈ jobs, job.All CodePoint.NotNul) :
    FailsWith IsUnencodable (renderPooled limit scope workers schedule jobs session).1 := by
  intro failure hfailure
  obtain ⟨error, rfl, hnul, hsystem⟩ | ⟨-, hunencodable⟩ :=
    failsWith_renderPooled guards_notNul hjobs failure hfailure
  · cases error with
    | system fault path => exact absurd ⟨fault, path, rfl⟩ hsystem
    | nulInPath => exact absurd rfl hnul
    | unencodable fault => exact ⟨fault, rfl⟩
  · exact hunencodable

theorem exists_error_of_spoils (h : Spoils limit scope workers schedule jobs session) :
    ∃ task ∈ tasksAfter limit scope workers schedule jobs session (totalSteps (start jobs)),
      ∃ failure, task.stage = .ended (.error failure) := by
  obtain ⟨done, hdone, hspoiled⟩ := h
  have hstep : ∀ (task : Task) (session : Session),
      task.stage.isSpoiled = true ∨ (∃ failure, task.stage = .ended (.error failure)) →
        (task.step limit scope session).1.stage.isSpoiled = true ∨
          ∃ failure, (task.step limit scope session).1.stage = .ended (.error failure) := by
    rintro ⟨job, stage⟩ session (hspoiled | ⟨failure, rfl⟩)
    · obtain ⟨text, location, fault, rfl, hencode⟩ := Stage.exists_of_isSpoiled hspoiled
      refine .inr ⟨.file (.unencodable fault), ?_⟩
      simp only [Task.step, step, hencode]
    · exact .inr ⟨failure, rfl⟩
  obtain ⟨task, htask, hends⟩ := exists_runTasks (crew_pos workers jobs) hstep (Nat.le_of_lt hdone)
    (hspoiled.imp fun _ => And.imp_right .inl)
  refine ⟨task, htask, hends.resolve_left fun hspoiled => ?_⟩
  obtain ⟨text, location, fault, hopened, -⟩ := Stage.exists_of_isSpoiled hspoiled
  have hended := ended_tasksAfter limit scope workers schedule jobs session task htask
  rw [hopened] at hended
  cases hended

/-- A batch whose paths all have bytes has results unless a document comes to be written with a
surrogate in it. -/
theorem exists_renderPooled_iff (hjobs : ∀ job ∈ jobs, job.All CodePoint.Nameable) :
    (∃ results, (renderPooled limit scope workers schedule jobs session).1 = .ok results) ↔
      ¬ Spoils limit scope workers schedule jobs session := by
  constructor
  · rintro ⟨results, hresults⟩ hspoils
    obtain ⟨task, htask, failure, hended⟩ := exists_error_of_spoils hspoils
    rw [renderPooled_fst, mapM_eq_ok_iff] at hresults
    obtain ⟨outcome, houtcome, hsame⟩ := exists_of_forall₂_left
      (forall₂_result? (ended_tasksAfter limit scope workers schedule jobs session)) task htask
    cases hended.symm.trans hsame
    obtain ⟨result, -, hok⟩ := exists_of_forall₂_left hresults _ houtcome
    cases hok
  · intro hspoils
    refine (failsWith_iff.mp (failsWith_renderPooled guards_nameable hjobs)).resolve_right ?_
    rintro ⟨_, -, ⟨error, -, hsystem, hnot⟩ | ⟨hspoiled, -⟩⟩
    · exact hnot hsystem
    · exact hspoils hspoiled

theorem renderPooled_jobs {results : List DocumentResult}
    (h : (renderPooled limit scope workers schedule jobs session).1 = .ok results) :
    results.map (·.job) = jobs := by
  rw [renderPooled_fst] at h
  refine map_job_of_mapM ?_ h
  have hended := forall₂_result? (ended_tasksAfter limit scope workers schedule jobs session)
  have hguarded : ∀ task ∈ tasksAfter limit scope workers schedule jobs session
      (totalSteps (start jobs)), task.Guarded _ _ :=
    guarded_tasksAfter guards_any fun job _ => job.all_true
  conv_lhs =>
    rw [← map_job_tasksAfter limit scope workers schedule jobs session (totalSteps (start jobs))]
  refine List.forall₂_map_left_iff.mpr (forall₂_imp_of_mem hended
    fun task htask outcome _ hstage result hok => ?_)
  subst hok
  obtain ⟨outcome, hresult⟩ | ⟨failure, herror, -⟩ := (hguarded task htask).ends _ hstage
  · cases hresult
    rfl
  · cases herror

end Batch

end Document
end CatalogPress
