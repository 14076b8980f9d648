import CatalogPress.Proofs.Document.Writing
import CatalogPress.Proofs.Log.Places

/-!
Documents of a batch do not concern each other. Jobs with ordinary paths, of which no output lies on
the way to another one's paths or below them, end as if each of them were alone, whatever becomes of
the others. The batch has results unless one of its documents comes to be written with a surrogate
in it.
-/
namespace CatalogPress

def Path.Apart (a b : Path) : Prop :=
  ¬ a.names.map Utf8.nameBytes <+: b.names.map Utf8.nameBytes ∧
    ¬ b.names.map Utf8.nameBytes <+: a.names.map Utf8.nameBytes

namespace Job

structure Descending (job : Job) : Prop where
  template : job.template.Descending
  output : job.output.Descending

structure Ordinary (job : Job) : Prop where
  template : job.template.Ordinary
  output : job.output.Ordinary

theorem Ordinary.descending {job : Job} (h : job.Ordinary) : job.Descending :=
  ⟨h.template.descending, h.output.descending⟩

/-- The output of neither job is on the way to a path of the other, or below it. -/
structure Apart (a b : Job) : Prop where
  outputs : a.output.Apart b.output
  template : a.output.Apart b.template
  template' : b.output.Apart a.template

instance (a b : Path) : Decidable (a.Apart b) :=
  inferInstanceAs (Decidable (_ ∧ _))

instance (job : Job) : Decidable job.Descending :=
  decidable_of_iff (job.template.Descending ∧ job.output.Descending)
    ⟨fun h => ⟨h.1, h.2⟩, fun h => ⟨h.template, h.output⟩⟩

instance (job : Job) : Decidable job.Ordinary :=
  decidable_of_iff (job.template.Ordinary ∧ job.output.Ordinary)
    ⟨fun h => ⟨h.1, h.2⟩, fun h => ⟨h.template, h.output⟩⟩

instance (a b : Job) : Decidable (a.Apart b) :=
  decidable_of_iff (a.output.Apart b.output ∧ a.output.Apart b.template ∧ b.output.Apart a.template)
    ⟨fun h => ⟨h.1, h.2.1, h.2.2⟩, fun h => ⟨h.outputs, h.template, h.template'⟩⟩

structure Unlogged (session : Session) (job : Job) : Prop where
  template : session.Unlogged job.template
  output : session.Unlogged job.output

end Job

namespace Path
variable {a b : Path}

theorem Apart.symm (h : a.Apart b) : b.Apart a :=
  ⟨h.2, h.1⟩

theorem Apart.place {files : FileSystem} (h : a.Apart b) (hfiles : files.Sound) (ha : a.Ordinary)
    (hb : b.Ordinary) : ¬ files.place a <+: files.place b ∧ ¬ files.place b <+: files.place a := by
  rw [hfiles.place_of_descending ha.descending, hfiles.place_of_descending hb.descending,
    files.origin_of_ordinary ha, files.origin_of_ordinary hb, List.prefix_append_right_inj,
      List.prefix_append_right_inj]
  exact h

end Path

namespace Document
open FileSystem Session Fallible

variable {limit : Int} {scope : Value} {job : Job} {jobs : List Job}
  {session a b : Session} {path : Path}

theorem alters_fail {written made : Location → Prop} (h : session.files.Sound)
    (job : Job) (fault : DocumentFault) :
    Alters written made session (fail job fault session).2 :=
  alters_log h _

theorem alters_failFile {written made : Location → Prop} (h : session.files.Sound)
    (job : Job) (error : FileError) :
    Alters written made session (failFile job error session).2 := by
  cases error with
  | system fault path => exact alters_fail h job _
  | nulInPath | unencodable => exact .refl h

theorem alters_render (limit : Int) (scope : Value) (h : session.files.Sound)
    (hjob : job.output.Descending) :
    Alters (· = session.files.place job.output) (· <+: session.files.place job.output) session
      (render limit scope job session).2 := by
  rw [render]
  split
  · exact alters_failFile h job _
  · exact alters_fail h job _
  · rename_i source _
    split
    · exact alters_fail h job _
    · rename_i result _
      have hlogged :
          Alters (· = session.files.place job.output) (· <+: session.files.place job.output) session
          (session.logAll (sanitizerLog job.template.text result)) := alters_logAll h _
      have hsound := hlogged.changes.sound
      have hchanges := changes_writeText hsound hjob result.text
      rw [hlogged.place] at hchanges
      have hwritten := hlogged.trans (.files hchanges)
      dsimp only
      split
      · rename_i error files heq
        rw [heq] at hwritten
        exact hwritten.trans (alters_failFile hwritten.changes.sound job error)
      · rename_i files heq
        rw [heq] at hwritten
        exact hwritten.log _

theorem fail_alike (h : AlikeFor path a b) (job : Job) (fault : DocumentFault) :
    (fail job fault b).1 = (fail job fault a).1 ∧
    AlikeFor path (fail job fault a).2 (fail job fault b).2 :=
  ⟨rfl, h.log _⟩

theorem failFile_alike (h : AlikeFor path a b) (job : Job) (error : FileError) :
    (failFile job error b).1 = (failFile job error a).1 ∧
      AlikeFor path (failFile job error a).2 (failFile job error b).2 := by
  cases error with
  | system fault path => exact fail_alike h job _
  | nulInPath | unencodable => exact ⟨rfl, h⟩

/-- Sessions that the paths of a job cannot tell from each other give the same result and the same
output. -/
theorem render_alike (limit : Int) (scope : Value) (hjob : job.Descending)
    (htemplate : AlikeFor job.template a b) (houtput : AlikeFor job.output a b) :
    (render limit scope job b).1 = (render limit scope job a).1 ∧
      AlikeFor job.output (render limit scope job a).2 (render limit scope job b).2 := by
  have hread : readSource b.files job = readSource a.files job := by
    rw [readSource, readSource,
      htemplate.same.readText htemplate.sound htemplate.sound' hjob.template]
  rw [render, render, hread]
  split
  · exact failFile_alike houtput job _
  · exact fail_alike houtput job _
  · rename_i source _
    split
    · exact fail_alike houtput job _
    · rename_i result _
      have hlogged := houtput.logAll (sanitizerLog job.template.text result)
      obtain ⟨hresult, hsame⟩ :=
        writeText_congr hlogged.sound hlogged.sound' hjob.output hlogged.same result.text
      have ha := changes_writeText hlogged.sound hjob.output result.text
      have hb := changes_writeText hlogged.sound' hjob.output result.text
      dsimp only
      generalize writeText (a.logAll _).files job result.text = writtenA at hresult hsame ha ⊢
      generalize writeText (b.logAll _).files job result.text = writtenB at hresult hsame hb ⊢
      obtain ⟨outcome, filesA⟩ := writtenA
      obtain ⟨_, filesB⟩ := writtenB
      cases hresult
      have halike :
          AlikeFor job.output
          { a.logAll (sanitizerLog job.template.text result) with files := filesA }
          { b.logAll (sanitizerLog job.template.text result) with files := filesB } :=
        ⟨ha.sound, hb.sound, hsame, (Alters.files ha).unlogged hlogged.unlogged,
          (Alters.files hb).unlogged hlogged.unlogged'⟩
      cases outcome with
      | error error => exact failFile_alike halike job error
      | ok => exact ⟨rfl, halike.log _⟩

theorem alike_render (limit : Int) (scope : Value) (h : session.files.Sound)
    (hjob : job.output.Ordinary) (hpath : path.Ordinary) (hapart : job.output.Apart path)
    (hlogs : session.Unlogged path) :
    AlikeFor path session (render limit scope job session).2 := by
  obtain ⟨houtput, hplace⟩ := hapart.place h hjob hpath
  have halters := alters_render limit scope h hjob.descending
  exact halters.alikeFor h hlogs (fun location hpre heq => houtput (heq ▸ hpre)) hplace

/-- A batch leaves a session alike for the paths that all its outputs are apart from. -/
theorem alike_renderEach (limit : Int) (scope : Value) (h : session.files.Sound)
    (hjobs : ∀ job ∈ jobs, job.output.Ordinary) (hpath : path.Ordinary)
    (hapart : ∀ job ∈ jobs, job.output.Apart path) (hlogs : session.Unlogged path) :
    AlikeFor path session (renderEach limit scope jobs session).2 := by
  induction jobs generalizing session with
  | nil => exact ⟨h, h, ⟨rfl, rfl, fun _ _ _ => Iff.rfl⟩, hlogs, hlogs⟩
  | cons first jobs ih =>
    obtain ⟨hfirst, hjobs⟩ := List.forall_mem_cons.mp hjobs
    obtain ⟨hfirstApart, hapart⟩ := List.forall_mem_cons.mp hapart
    have hnext := alike_render limit scope h hfirst hpath hfirstApart hlogs
    exact hnext.trans (ih hnext.sound' hjobs hapart hnext.unlogged')

theorem renderEach_alike (limit : Int) (scope : Value) (h : session.files.Sound)
    (hjobs : ∀ job ∈ jobs, job.Ordinary) (hapart : jobs.Pairwise Job.Apart)
    (hlogs : ∀ job ∈ jobs, job.Unlogged session) :
    (renderEach limit scope jobs session).1 =
        jobs.map (fun job => (render limit scope job session).1) ∧
      ∀ job ∈ jobs, AlikeFor job.output (render limit scope job session).2
        (renderEach limit scope jobs session).2 := by
  induction jobs generalizing session with
  | nil => exact ⟨rfl, nofun⟩
  | cons first jobs ih =>
    obtain ⟨hfirst, hrest⟩ := List.forall_mem_cons.mp hjobs
    obtain ⟨hfirstApart, hapart⟩ := List.pairwise_cons.mp hapart
    obtain ⟨hfirstLogs, hlogs⟩ := List.forall_mem_cons.mp hlogs
    have hnext := alters_render limit scope h hfirst.output.descending
    -- The other jobs cannot tell whether the first one ran.
    have halike (job : Job) (hjob : job ∈ jobs) :
        AlikeFor job.template session (render limit scope first session).2 ∧
          AlikeFor job.output session (render limit scope first session).2 :=
      ⟨alike_render limit scope h hfirst.output (hrest job hjob).template
        (hfirstApart job hjob).template
          (hlogs job hjob).template,
        alike_render limit scope h hfirst.output (hrest job hjob).output
          (hfirstApart job hjob).outputs (hlogs job hjob).output⟩
    have hrender (job : Job) (hjob : job ∈ jobs) :=
      render_alike limit scope (hrest job hjob).descending (halike job hjob).1 (halike job hjob).2
    obtain ⟨hresults, houtputs⟩ := ih hnext.changes.sound hrest hapart fun job hjob =>
      ⟨hnext.unlogged (hlogs job hjob).template, hnext.unlogged (hlogs job hjob).output⟩
    constructor
    · rw [renderEach, List.map_cons]
      refine congrArg _ (hresults.trans (List.map_congr_left fun job hjob => (hrender job hjob).1))
    · intro job hjob
      obtain rfl | hjob := List.mem_cons.mp hjob
      · exact alike_renderEach limit scope hnext.changes.sound
          (fun other hother => (hrest other hother).output) hfirst.output
          (fun other hother => (hfirstApart other hother).outputs.symm)
          (hnext.unlogged hfirstLogs.output)
      · exact (hrender job hjob).2.trans (houtputs job hjob)

theorem alters_renderEach (limit : Int) (scope : Value) (h : session.files.Sound)
    (hjobs : ∀ job ∈ jobs, job.output.Descending) :
    Alters (fun location => ∃ job ∈ jobs, location = session.files.place job.output) (fun _ => True)
      session (renderEach limit scope jobs session).2 := by
  induction jobs generalizing session with
  | nil => exact .refl h
  | cons first jobs ih =>
    obtain ⟨hfirst, hjobs⟩ := List.forall_mem_cons.mp hjobs
    have hnext := alters_render limit scope h hfirst
    have hrest := ih hnext.changes.sound hjobs
    refine (hnext.mono (fun location heq => ⟨first, List.mem_cons_self, heq⟩)
      fun _ _ => trivial).trans ?_
    refine hrest.mono (fun location hplace => ?_) fun _ => id
    obtain ⟨job, hjob, heq⟩ := hplace
    exact ⟨job, List.mem_cons_of_mem _ hjob, heq.trans (hnext.place job.output)⟩

end Document
end CatalogPress
