import CatalogPress.Context.Basic
import CatalogPress.Proofs.Document.Isolation

/-!
A batch as a whole: when it has results, what they are, and what is left of the files. How one
document of it comes to a result is said first.
-/
namespace CatalogPress

namespace Document
open FileSystem Session Fallible

variable {limit : Int} {scope : Value} {job : Job} {jobs : List Job}
  {session : Session} {result : DocumentResult}

theorem exists_failFile_iff {error : FileError} :
    (∃ result, (failFile job error session).1 = .ok result) ↔ error.IsSystem := by
  cases error with
  | system fault path => exact iff_of_true ⟨_, rfl⟩ ⟨fault, path, rfl⟩
  | nulInPath | unencodable => exact iff_of_false nofun nofun

/-- A document that comes to be written with a surrogate in it, where an empty one could be
written. -/
def Spoiled (limit : Int) (scope : Value) (files : FileSystem) (job : Job) : Prop :=
  ∃ source result, readSource files job = .ok (.ok source) ∧
    renderText limit scope source = .ok result ∧
    (writeText files job "").1 = .ok () ∧ ∃ point ∈ result.text.points, point.isSurrogate = true

theorem failsWith_readSource {p : FileError → Prop} {files : FileSystem} :
    FailsWith p (readSource files job) ↔ FailsWith p (files.read job.template.text) := by
  rw [readSource]
  cases hread : files.read job.template.text with
  | error error =>
    have htext : files.readText job.template.text = .error (.file error) := by
      rw [readText, hread]
      rfl
    rw [htext]
    exact failsWith_error.trans failsWith_error.symm
  | ok bytes =>
    have htext : files.readText job.template.text =
        (Utf8.decode bytes).mapError .undecodable >>=
          fun text => .ok (String.ofList (Text.unifyNewlines text)) := by
      rw [readText, hread]
      rfl
    rw [htext]
    cases Utf8.decode bytes <;> exact iff_of_true failsWith_ok failsWith_ok

theorem exists_render_iff (limit : Int) (scope : Value)
    (h : session.files.Sound) (hjob : job.Descending) (hlogs : session.Unlogged job.output) :
    (∃ result, (render limit scope job session).1 = .ok result) ↔
      ¬ Spoiled limit scope session.files job := by
  rw [render]
  split
  · rename_i error hsource
    have hsystem := failsWith_readSource.mpr
      ((failsWith_read session.files _).mpr (Path.nameable_text hjob.template)) error hsource
    refine iff_of_true (exists_failFile_iff.mpr hsystem) ?_
    rintro ⟨source, _, hok, -⟩
    cases hok.symm.trans hsource
  · rename_i fault hsource
    refine iff_of_true ⟨_, rfl⟩ ?_
    rintro ⟨source, _, hok, -⟩
    cases hok.symm.trans hsource
  · rename_i source hsource
    split
    · rename_i fault hrender
      refine iff_of_true ⟨_, rfl⟩ ?_
      rintro ⟨_, _, hok, hresult, -⟩
      cases hok.symm.trans hsource
      cases hresult.symm.trans hrender
    · rename_i result hrender
      have halters : Alters (fun _ => False) (fun _ => False) session
          (session.logAll (sanitizerLog job.template.text result)) := alters_logAll h _
      have hsame := (halters.alikeFor h hlogs (fun _ _ => id) id).same
      have hsound := halters.changes.sound
      have hempty := (writeText_congr h hsound hjob.output hsame "").1
      have hfails := failsWith_writeText hsound hjob.output result.text
      rw [hempty] at hfails
      have hspoiled : ¬ Spoiled limit scope session.files job ↔
          ((writeText session.files job "").1 = .ok () →
            ∀ point ∈ result.text.points, point.isSurrogate = false) := by
        constructor
        · intro h hok point hpoint
          rw [← Bool.not_eq_true]
          exact fun hsurrogate => h ⟨source, result, hsource, hrender, hok,
            point, hpoint, hsurrogate⟩
        · rintro h ⟨_, _, hsource', hrender', hok, point, hpoint, hsurrogate⟩
          cases hsource'.symm.trans hsource
          cases hrender'.symm.trans hrender
          exact Bool.false_ne_true ((h hok point hpoint).symm.trans hsurrogate)
      rw [hspoiled, ← hfails]
      dsimp only
      generalize writeText (session.logAll _).files job result.text = written
      obtain ⟨outcome, files⟩ := written
      cases outcome with
      | error error =>
        exact exists_failFile_iff.trans failsWith_error.symm
      | ok => exact iff_of_true ⟨_, rfl⟩ failsWith_ok

/-- How a document comes to its result: it was not rendered, or rendered and not written, or
written. -/
inductive Ends (limit : Int) (scope : Value) (job : Job) (session : Session) :
    DocumentResult → Session → Prop
  | unrendered {fault : DocumentFault} {record : LogRecord} :
      Ends limit scope job session ⟨job, .failed fault⟩ (session.log record)
  | unwritten {text : Text} {fault : SystemFault} {path : Text} {files : FileSystem}
      {records : List LogRecord} {record : LogRecord} :
      writeText (session.logAll records).files job text = (.error (.system fault path), files) →
      Ends limit scope job session ⟨job, .failed (.file fault path)⟩
        ({ session.logAll records with files }.log record)
  | written {source : String} {sanitized : Sanitized} {files : FileSystem}
      {records : List LogRecord} {record : LogRecord} :
      session.files.readText job.template.text = .ok source →
      renderText limit scope source = .ok sanitized →
      writeText (session.logAll records).files job sanitized.text = (.ok (), files) →
      Ends limit scope job session ⟨job, .rendered sanitized.text.length⟩
        ({ session.logAll records with files }.log record)

theorem readText_of_readSource {files : FileSystem} {source : String}
    (h : readSource files job = .ok (.ok source)) :
    files.readText job.template.text = .ok source := by
  rw [readSource] at h
  split at h
  · rename_i heq
    cases h
    exact heq
  · cases h
  · cases h

theorem exists_of_failFile {error : FileError} (h : (failFile job error session).1 = .ok result) :
    ∃ fault path record, error = .system fault path ∧ result = ⟨job, .failed (.file fault path)⟩ ∧
      (failFile job error session).2 = session.log record := by
  cases error with
  | system fault path =>
    cases h
    exact ⟨fault, path, _, rfl, rfl, rfl⟩
  | nulInPath | unencodable => cases h

theorem ends_of_render (h : (render limit scope job session).1 = .ok result) :
    Ends limit scope job session result (render limit scope job session).2 := by
  rw [render] at h ⊢
  split at h
  · obtain ⟨fault, path, record, -, rfl, hafter⟩ := exists_of_failFile h
    rw [hafter]
    exact .unrendered
  · cases h
    exact .unrendered
  · rename_i source hsource
    split at h
    · cases h
      exact .unrendered
    · rename_i sanitized hrender
      dsimp only at h ⊢
      split at h
      · rename_i error files hwrite
        obtain ⟨fault, path, record, rfl, rfl, hafter⟩ := exists_of_failFile h
        rw [hafter]
        exact .unwritten hwrite
      · rename_i files hwrite
        cases h
        exact .written (readText_of_readSource hsource) hrender hwrite

theorem render_job (h : (render limit scope job session).1 = .ok result) : result.job = job := by
  have hends := ends_of_render h
  generalize (render limit scope job session).2 = after at hends
  cases hends <;> rfl

theorem renderAll_fst (limit : Int) (scope : Value) (jobs : List Job) (session : Session) :
    (renderAll limit scope jobs session).1 = (renderEach limit scope jobs session).1.mapM id := by
  cases jobs <;> rfl

theorem map_job_of_mapM {outcomes : List (Except Failure DocumentResult)}
    {results : List DocumentResult}
    (houtcomes : List.Forall₂ (fun job outcome => ∀ result, outcome = .ok result → result.job = job)
      jobs outcomes) (h : outcomes.mapM id = .ok results) : results.map (·.job) = jobs := by
  rw [mapM_eq_ok_iff] at h
  induction houtcomes generalizing results with
  | nil =>
    cases h
    rfl
  | cons hjob _ ih =>
    cases h with
    | cons hresult hresults => rw [List.map_cons, hjob _ hresult, ih hresults]

theorem renderEach_jobs (limit : Int) (scope : Value) (jobs : List Job) (session : Session) :
    List.Forall₂ (fun job outcome => ∀ result, outcome = .ok result → result.job = job) jobs
      (renderEach limit scope jobs session).1 := by
  induction jobs generalizing session with
  | nil => exact .nil
  | cons job jobs ih => exact .cons (fun _ => render_job) (ih _)

theorem renderAll_jobs {results : List DocumentResult}
    (h : (renderAll limit scope jobs session).1 = .ok results) :
    results.map (·.job) = jobs :=
  map_job_of_mapM (renderEach_jobs limit scope jobs session)
    (renderAll_fst limit scope jobs session ▸ h)

theorem renderAll_of_ne_nil (limit : Int) (scope : Value) (hne : jobs ≠ []) (session : Session) :
    (renderAll limit scope jobs session).2 = (renderEach limit scope jobs session).2 := by
  cases jobs with
  | nil => exact absurd rfl hne
  | cons job jobs => rfl

theorem alters_renderAll (limit : Int) (scope : Value) (h : session.files.Sound)
    (hjobs : ∀ job ∈ jobs, job.output.Descending) :
    Alters (fun location => ∃ job ∈ jobs, location = session.files.place job.output) (fun _ => True)
      session (renderAll limit scope jobs session).2 := by
  by_cases hne : jobs = []
  · subst hne
    exact alters_log h _
  · rw [renderAll_of_ne_nil limit scope hne]
    exact alters_renderEach limit scope h hjobs

/-- Each document of a batch has the result and the output that it would have on its own, and all
have results unless one of them is spoilt. -/
structure Isolated (limit : Int) (scope : Value) (jobs : List Job) (session : Session) : Prop where
  results : (renderAll limit scope jobs session).1 = jobs.mapM
    fun job => (render limit scope job session).1
  returns : (∃ results, (renderAll limit scope jobs session).1 = .ok results) ↔
    ∀ job ∈ jobs, ¬ Spoiled limit scope session.files job
  order : ∀ results, (renderAll limit scope jobs session).1 = .ok results →
    results.map (·.job) = jobs
  outputs : ∀ job ∈ jobs, (renderAll limit scope jobs session).2.files.read job.output.text =
    (render limit scope job session).2.files.read job.output.text
  others : ∀ location bytes, (∀ job ∈ jobs, location ≠ session.files.place job.output) →
    ¬ session.LogPlace location → session.files.node? location = some (.file bytes) →
      (renderAll limit scope jobs session).2.files.node? location = some (.file bytes)

theorem renderAll_isolates (limit : Int) (scope : Value) (jobs : List Job) (session : Session)
    (h : session.files.Sound) (hjobs : ∀ job ∈ jobs, job.Ordinary)
    (hapart : jobs.Pairwise Job.Apart) (hlogs : ∀ job ∈ jobs, job.Unlogged session) :
    Isolated limit scope jobs session := by
  obtain ⟨hresults, houtputs⟩ := renderEach_alike limit scope h hjobs hapart hlogs
  have hmapM : (renderAll limit scope jobs session).1 = jobs.mapM
      fun job => (render limit scope job session).1 := by
    rw [renderAll_fst, hresults, List.mapM_map]
    rfl
  constructor
  case results => exact hmapM
  case returns =>
    simp only [hmapM, mapM_eq_ok_iff, exists_forall₂_iff]
    exact forall₂_congr fun job hjob =>
      exists_render_iff limit scope h (hjobs job hjob).descending (hlogs job hjob).output
  case order => exact fun results => renderAll_jobs
  case outputs =>
    intro job hjob
    rw [renderAll_of_ne_nil limit scope (List.ne_nil_of_mem hjob)]
    have halike := houtputs job hjob
    exact halike.same.read halike.sound halike.sound' (hjobs job hjob).output.descending
  case others =>
    intro location bytes hplace hlog hfile
    have halters :=
      alters_renderAll limit scope h fun job hjob => (hjobs job hjob).output.descending
    refine halters.changes.file (not_or.mpr ⟨?_, hlog⟩) hfile
    rintro ⟨job, hjob, heq⟩
    exact hplace job hjob heq

/-- The second template is missing, and the third document goes below the directory of the first. -/
theorem renderAll_isolates_missing :
    let jobs : List Job :=
      [⟨Path.ofText "t", Path.ofText "out/a"⟩, ⟨Path.ofText "m", Path.ofText "b"⟩,
      ⟨Path.ofText "t", Path.ofText "out/c/d"⟩]
    let session := sample [("t", [0x79])]
    session.files.Sound ∧ (∀ job ∈ jobs, job.Ordinary) ∧ jobs.Pairwise Job.Apart ∧
      (∀ job ∈ jobs, job.Unlogged session) ∧ Isolated 32 (.record []) jobs session := by
  intro jobs session
  have hsound := sound_sample [("t", [0x79])]
  have hjobs : ∀ job ∈ jobs, job.Ordinary := by decide +kernel
  have hapart : jobs.Pairwise Job.Apart := by decide +kernel
  have hlogs : ∀ job ∈ jobs, job.Unlogged session :=
    fun job _ => ⟨unlogged_sample _ _, unlogged_sample _ _⟩
  exact ⟨hsound, hjobs, hapart, hlogs,
    renderAll_isolates 32 (.record []) jobs session hsound hjobs hapart hlogs⟩

/-- A surrogate in one document ends the batch, though the next job has its result. -/
theorem renderAll_spoiled :
    let jobs : List Job := [⟨Path.ofText "t", Path.ofText "a"⟩, ⟨Path.ofText "u", Path.ofText "b"⟩]
    let session :=
      sample [("t", "\x7b\x7bversion\x7d\x7d".toList.map (UInt8.ofNat ·.toNat)), ("u", [0x79])]
    let context : Context := ⟨[], [], [], [], some ⟨[.surrogate 0]⟩⟩
    (renderAll 32 context.scope jobs session).1 =
      .error (.file (.unencodable ⟨0, 1, .surrogate 0⟩)) ∧
      (render 32 context.scope ⟨Path.ofText "u", Path.ofText "b"⟩ session).1 =
        .ok ⟨⟨Path.ofText "u", Path.ofText "b"⟩, .rendered 1⟩ := by
  decide +kernel

end Document
end CatalogPress
