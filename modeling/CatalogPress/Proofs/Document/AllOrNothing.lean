import CatalogPress.Proofs.Document.Batch

/-!
A single document is written as a whole or not at all. What can go wrong goes wrong before anything
is changed, but for two things that are found out too late: that the text has no bytes, when the
output was opened already, and that the path of the output is too long, when the directories above
it were made.
-/
namespace CatalogPress.Document
open FileSystem Session Fallible

variable {limit : Int} {scope : Value} {job : Job}
  {session after : Session} {result : DocumentResult}

theorem Ends.alters_of_failed {fault : DocumentFault} (h : session.files.Sound)
    (hjob : job.output.Descending)
    (hends : Ends limit scope job session ⟨job, .failed fault⟩ after) :
    Alters (fun _ => False) (fun location => job.output.TooLong ∧
    location <+: session.files.place job.output.parent)
      session after := by
  cases hends with
  | unrendered => exact alters_log h _
  | @unwritten _ _ _ _ records _ hwrite =>
    have hlogged : Alters (fun _ => False) (fun location => job.output.TooLong ∧
        location <+: session.files.place job.output.parent) session (session.logAll records) :=
        alters_logAll h records
    have hchanges := changes_of_not_written hlogged.changes.sound hjob hwrite
    rw [hlogged.place] at hchanges
    exact (hlogged.trans (.files hchanges)).log _

theorem Written.log {bytes : ByteArray}
    (hwritten : Written job session.files bytes) (h : session.files.Sound)
    (hjob : job.output.Descending) (hlogs : session.Unlogged job.output) (record : LogRecord) :
    Written job (session.log record).files bytes := by
  have halters : Alters (fun _ => False) (fun _ => False) session (session.log record) :=
    alters_log h record
  have halike := halters.alikeFor h hlogs (fun _ _ => id) id
  constructor
  case read => rw [halike.same.read halike.sound halike.sound' hjob, hwritten.read]
  case above =>
    rw [halters.place]
    intro location hpre hne
    obtain hsame | hlog | ⟨hfalse, -⟩ := halters.changes.node location
    · rw [hsame, hwritten.above location hpre hne]
    · exact absurd hpre (hlogs location (hlog.resolve_left id))
    · exact hfalse.elim

/-- The output holds what was rendered from the template, with directories all the way to it. Log
files apart, only those of them that were missing are new, and all else is as before. -/
structure Rendered (limit : Int) (scope : Value) (job : Job) (before after : Session)
    (characters : Nat) : Prop where
  text : ∃ source sanitized bytes, before.files.readText job.template.text = .ok source ∧
    renderText limit scope source = .ok sanitized ∧ characters = sanitized.text.length ∧
    Utf8.encode sanitized.text = .ok bytes ∧ after.files.read job.output.text = .ok bytes
  above : ∀ location, location <+: before.files.place job.output →
    location ≠ before.files.place job.output →
    after.files.node? location = some .directory
  others : ∀ location, ¬ before.LogPlace location → location ≠ before.files.place job.output →
    after.files.node? location = before.files.node? location ∨
      (location <+: before.files.place job.output ∧ before.files.node? location = none ∧
        after.files.node? location = some .directory)

theorem Ends.rendered {characters : Nat} (h : session.files.Sound) (hjob : job.output.Descending)
    (hlogs : session.Unlogged job.output)
    (hends : Ends limit scope job session ⟨job, .rendered characters⟩ after) :
    Rendered limit scope job session after characters := by
  cases hends with
  | @written source sanitized files records record hsource hrender hwrite =>
    have hlogged :
        Alters (· = session.files.place job.output) (· <+: session.files.place job.output) session
        (session.logAll records) := alters_logAll h records
    have hchanges := changes_writeText hlogged.changes.sound hjob sanitized.text
    rw [hwrite, hlogged.place] at hchanges
    have hafter := hlogged.trans (.files hchanges)
    obtain ⟨bytes, hencode, hwritten⟩ := exists_written hlogged.changes.sound hjob hwrite
    -- The record of the success is logged last, and no log file is at the output or on the way to
    -- it.
    have hlast := Written.log hwritten hafter.changes.sound hjob (hafter.unlogged hlogs) record
    have hfinal := hafter.log record
    constructor
    case text => exact ⟨source, sanitized, bytes, hsource, hrender, rfl, hencode, hlast.read⟩
    case above =>
      intro location hpre hne
      rw [← hfinal.place job.output] at hpre hne
      exact hlast.above location hpre hne
    case others =>
      intro location hlog hplace
      obtain hsame | hwritten | hmade := hfinal.changes.node location
      · exact .inl hsame
      · exact absurd hwritten (not_or.mpr ⟨hplace, hlog⟩)
      · exact .inr hmade

theorem read_of_spoiled (h : session.files.Sound) (hjob : job.output.Descending)
    (hlogs : session.Unlogged job.output) (hspoiled : Spoiled limit scope session.files job) :
    (render limit scope job session).2.files.read job.output.text = .ok .empty := by
  obtain ⟨source, sanitized, hsource, hrender, hempty, point, hpoint, hsurrogate⟩ := hspoiled
  have halters : Alters (fun _ => False) (fun _ => False) session
      (session.logAll (sanitizerLog job.template.text sanitized)) := alters_logAll h _
  have halike := halters.alikeFor h hlogs (fun _ _ => id) id
  -- What can be opened for an empty text is opened for this one.
  have hwritable := (writeText_congr h halike.sound' hjob halike.same "").1.trans hempty
  rw [render, hsource]
  dsimp only
  rw [hrender]
  dsimp only
  generalize session.logAll (sanitizerLog job.template.text sanitized) = logged at halike hwritable
  obtain ⟨fault, path, hfails⟩ | hwritten := fails_or_written halike.sound' hjob
  · cases hwritable.symm.trans (hfails "")
  · obtain ⟨hresult, hwritten⟩ := hwritten sanitized.text
    generalize writeText logged.files job sanitized.text = written at hresult hwritten
    obtain ⟨outcome, files⟩ := written
    cases hencode : Utf8.encode sanitized.text with
    | ok bytes =>
      cases (Utf8.encode_eq_ok_iff.mp ⟨bytes, hencode⟩ point hpoint).symm.trans hsurrogate
    | error fault =>
      rw [hencode] at hresult hwritten
      cases hresult
      exact hwritten.read

structure AllOrNothing (limit : Int) (scope : Value) (job : Job) (session : Session) : Prop where
  returns : (∃ result, (render limit scope job session).1 = .ok result) ↔
    ¬ Spoiled limit scope session.files job
  spoiled : Spoiled limit scope session.files job →
    (render limit scope job session).2.files.read job.output.text = .ok .empty
  failed : ∀ result, (render limit scope job session).1 = .ok result → result.isSuccess = false →
    ∀ location, ¬ session.LogPlace location →
      (render limit scope job session).2.files.node? location = session.files.node? location ∨
        (job.output.TooLong ∧ location <+: session.files.place job.output.parent ∧
          session.files.node? location = none ∧
          (render limit scope job session).2.files.node? location = some .directory)
  rendered : ∀ result, (render limit scope job session).1 = .ok result → result.isSuccess = true →
    Rendered limit scope job session (render limit scope job session).2 result.characters

/-- Documents with a result are written as a whole or leave all as it was. -/
theorem render_all_or_nothing (limit : Int) (scope : Value) (job : Job) (session : Session)
    (h : session.files.Sound) (hjob : job.Descending) (hlogs : session.Unlogged job.output) :
    AllOrNothing limit scope job session := by
  constructor
  case returns => exact exists_render_iff limit scope h hjob hlogs
  case spoiled => exact read_of_spoiled h hjob.output hlogs
  case failed =>
    intro result hresult hfailed location hlog
    have hends := ends_of_render hresult
    obtain ⟨other, outcome⟩ := result
    obtain rfl := render_job hresult
    cases outcome with
    | rendered => cases hfailed
    | failed fault =>
      obtain hsame | hwritten | ⟨⟨hlong, hpre⟩, hmade⟩ :=
        (hends.alters_of_failed h hjob.output).changes.node location
      · exact .inl hsame
      · exact absurd (hwritten.resolve_left id) hlog
      · exact .inr ⟨hlong, hpre, hmade⟩
  case rendered =>
    intro result hresult hsuccess
    have hends := ends_of_render hresult
    obtain ⟨other, outcome⟩ := result
    obtain rfl := render_job hresult
    cases outcome with
    | failed => cases hsuccess
    | rendered characters => exact hends.rendered h hjob.output hlogs

/-- A document that goes below the root, where its directory is missing. -/
theorem render_all_or_nothing_below_root :
    let job : Job := ⟨Path.ofText "t", Path.ofText "/out/a"⟩
    let session := sample [("t", [0x79])]
    (render 32 (.record []) job session).1 = .ok ⟨job, .rendered 1⟩ ∧
      AllOrNothing 32 (.record []) job session := by
  intro job session
  have hsound := sound_sample [("t", [0x79])]
  have hjob : job.Descending := by decide +kernel
  have hlogs := unlogged_sample [("t", [0x79])] job.output
  exact ⟨by decide +kernel, render_all_or_nothing 32 (.record []) job session hsound hjob hlogs⟩

/-- A document with a surrogate has no result, and an empty output where there was none. -/
theorem render_spoiled :
    let job : Job := ⟨Path.ofText "t", Path.ofText "a"⟩
    let session := sample [("t", "\x7b\x7bversion\x7d\x7d".toList.map (UInt8.ofNat ·.toNat))]
    let context : Context := ⟨[], [], [], [], some ⟨[.surrogate 0]⟩⟩
    (render 32 context.scope job session).1 = .error (.file (.unencodable ⟨0, 1, .surrogate 0⟩)) ∧
      session.files.node? (session.files.place job.output) = none ∧
      (render 32 context.scope job session).2.files.node? (session.files.place job.output) =
        some (.file .empty) := by
  decide +kernel

end CatalogPress.Document
