import CatalogPress.Proofs.Files.Descending
import CatalogPress.Proofs.Log.Writing

/-!
What logging does to the files: it writes to the files of the handlers, their backups and what the
handlers have open, and leaves all others alone, and it changes no handler. A path that leads
neither to such a file nor through one is none the wiser.
-/
namespace CatalogPress.Session
open FileSystem Fallible

variable {session before middle after a b : Session} {path : Path} {written made : Location → Prop}
  {number backups : Nat} {file text : Text}

def HasFile (session : Session) (number : Nat) (file : Text) (backups : Nat) : Prop :=
  ∃ handler, session.logging.handlers[number]? = some handler ∧ handler.sink = .file file backups

/-- A place that logging may write to: that of a backup or below it, or what a handler has open. -/
def LogPlace (session : Session) (location : Location) : Prop :=
  ∃ number file backups, session.HasFile number file backups ∧
    ((∃ count ≤ backups, session.files.place (Path.ofText (backup file count)) <+: location) ∨
      session.streams number = .opened location)

/-- All that is different afterwards was logged, written at other places or made. -/
structure Alters (written made : Location → Prop) (before after : Session) : Prop where
  changes : Changes (fun location => written location ∨ before.LogPlace location)
    made before.files after.files
  logging : after.logging = before.logging
  logPlace : ∀ location, after.LogPlace location → before.LogPlace location

theorem logPlace_of_streams (hlogging : after.logging = before.logging)
    (hfiles : after.files.workingDirectory = before.files.workingDirectory)
    (hstreams : ∀ number file backups location, before.HasFile number file backups →
      after.streams number = .opened location → before.LogPlace location) :
    ∀ location, after.LogPlace location → before.LogPlace location := by
  rintro location ⟨number, file, backups, ⟨handler, hhandler, hsink⟩, hplace⟩
  have hfile : before.HasFile number file backups := ⟨handler, hlogging ▸ hhandler, hsink⟩
  obtain ⟨count, hle, hpre⟩ | hopened := hplace
  · exact ⟨number, file, backups, hfile, .inl ⟨count, hle, place_congr hfiles _ ▸ hpre⟩⟩
  · exact hstreams number file backups location hfile hopened

namespace Alters
variable {written' made' : Location → Prop}

theorem refl (h : session.files.Sound) : Alters written made session session :=
  ⟨.refl h, rfl, fun _ => id⟩

theorem place (h : Alters written made before after) (path : Path) :
    after.files.place path = before.files.place path :=
  place_congr h.changes.workingDirectory path

theorem trans (h : Alters written made before middle) (hnext : Alters written made middle after) :
    Alters written made before after where
  changes := h.changes.trans
    (hnext.changes.mono (fun location => Or.imp_right (h.logPlace location)) fun _ => id)
  logging := hnext.logging.trans h.logging
  logPlace := fun location hplace => h.logPlace location (hnext.logPlace location hplace)

theorem mono (h : Alters written made before after)
    (hwritten : ∀ location, written location → written' location)
    (hmade : ∀ location, made location → made' location) : Alters written' made' before after where
  changes := h.changes.mono (fun location => Or.imp_left (hwritten location)) hmade
  logging := h.logging
  logPlace := h.logPlace

theorem files {files : FileSystem} (h : Changes written made session.files files) :
    Alters written made session { session with files } where
  changes := h.mono (fun _ => .inl) fun _ => id
  logging := rfl
  logPlace := logPlace_of_streams rfl h.workingDirectory fun number file backups _ hfile hopened =>
    ⟨number, file, backups, hfile, .inr hopened⟩

end Alters

/-- Nothing has changed but files at some places, and what a handler and those with files at such
places have open. -/
structure Confined (number : Nat) (within : Location → Prop) (before after : Session) : Prop where
  changes : Changes within (fun _ => False) before.files after.files
  logging : after.logging = before.logging
  console : after.console = before.console
  taken : after.taken = before.taken
  opened : ∀ other location, after.streams other = .opened location →
    before.streams other = .opened location ∨ within location ∧
      (other = number ∨ ∃ old, before.streams other = .opened old ∧ within old)
  kept : ∀ other ≠ number, ∀ location, before.streams other = .opened location → ¬ within location →
    after.streams other = .opened location

structure Contained (number : Nat) (file : Text) (backups : Nat)
    (within : Location → Prop) (session : Session) : Prop where
  place : ∀ count ≤ backups,
    ∀ location, session.files.place (Path.ofText (backup file count)) <+: location →
    within location
  opened : ∀ location, session.streams number = .opened location → within location

variable {within : Location → Prop}

namespace Confined

theorem refl (h : session.files.Sound) : Confined number within session session :=
  ⟨.refl h, rfl, rfl, rfl, fun _ _ => .inl, fun _ _ _ hopened _ => hopened⟩

theorem trans (h : Confined number within before middle)
    (hnext : Confined number within middle after) :
    Confined number within before after where
  changes := h.changes.trans hnext.changes
  logging := hnext.logging.trans h.logging
  console := hnext.console.trans h.console
  taken := hnext.taken.trans h.taken
  opened := by
    intro other location hopened
    obtain hsame | ⟨hplace, hnumber | ⟨old, hold, hwithin⟩⟩ := hnext.opened other location hopened
    · exact h.opened other location hsame
    · exact .inr ⟨hplace, .inl hnumber⟩
    · refine .inr ⟨hplace, ?_⟩
      obtain hsame | ⟨-, hstart⟩ := h.opened other old hold
      · exact .inr ⟨old, hsame, hwithin⟩
      · exact hstart
  kept := fun other hne location hopened hnot =>
    hnext.kept other hne location (h.kept other hne location hopened hnot) hnot

theorem contained (h : Confined number within before after)
    (hin : Contained number file backups within before) :
    Contained number file backups within after where
  place := fun count hle location hpre =>
    hin.place count hle location (place_congr h.changes.workingDirectory _ ▸ hpre)
  opened := fun location hopened =>
    (h.opened number location hopened).elim (hin.opened location) And.left

theorem setStream {stream : Stream}
    (hstream : ∀ location, stream = .opened location → within location) {files : FileSystem}
    (hchanges : Changes within (fun _ => False) session.files files) :
    Confined number within session ({ session with files }.setStream number stream) where
  changes := hchanges
  logging := rfl
  console := rfl
  taken := rfl
  opened := by
    intro other location hopened
    obtain ⟨hnumber, hset⟩ | hsame := of_setStream hopened
    · exact .inr ⟨hstream location hset, .inl hnumber⟩
    · exact .inl hsame
  kept := fun other hne location hopened _ => (if_neg hne).trans hopened

end Confined

theorem confined_touches (h : session.files.Sound)
    (hin : Contained number file backups within session)
    (htouches : Touches number file backups session after) :
    Confined number within session after := by
  cases htouches with
  | closed => exact .setStream nofun (.refl h)
  | @opened place files hopen =>
    obtain ⟨heq, hupdate⟩ := openFile_eq_ok h hopen
    have hplace : within place := hin.place 0 (Nat.zero_le _) place (heq ▸ List.prefix_rfl)
    refine .setStream (fun location hopened => ?_) ((changes_update h hupdate).mono ?_ fun _ => id)
    · cases hopened
      exact hplace
    · rintro _ rfl
      exact heq ▸ hplace
  | @cleared count place files hle hremove =>
    obtain ⟨heq, ⟨bytes, hnode⟩, rfl⟩ := remove_eq_ok h hremove
    have hplace : within place := hin.place count hle place (heq ▸ List.prefix_rfl)
    refine ⟨changes_erase h (hnode ▸ nofun) hplace, rfl, rfl, rfl,
      fun _ _ hopened => .inl (Stream.of_without hopened), fun other _ location hopened hnot => ?_⟩
    change (session.streams other).without _ _ = _
    rw [Stream.without, hopened, if_neg]
    rintro ⟨⟩
    exact hnot hplace
  | @passed count source target files hlt hrename =>
    obtain ⟨hsource, htarget, hmovable, rfl⟩ := rename_eq_ok h hrename
    have hold (location : Location) (hpre : source <+: location) : within location :=
      hin.place count (Nat.le_of_lt hlt) location (hsource ▸ hpre)
    have hnew (location : Location) (hpre : target <+: location) : within location :=
      hin.place (count + 1) hlt location (htarget ▸ hpre)
    refine ⟨hmovable.changes h
      fun location hpre => hpre.elim (hold location) (hnew location), rfl, rfl, rfl,
      fun other location hopened => ?_, fun other _ location hopened hnot => ?_⟩
    · obtain ⟨place, hstream, rfl⟩ := Stream.exists_of_moved hopened
      by_cases hpre : source <+: place
      · rw [Location.moved_of_below hpre]
        exact .inr ⟨hnew _ (List.prefix_append _ _), .inr ⟨place, hstream, hold place hpre⟩⟩
      · rw [Location.moved_of_not_below hpre]
        exact .inl hstream
    · change (session.streams other).moved _ _ = _
      rw [hopened]
      exact congrArg Stream.opened (Location.moved_of_not_below
        fun hpre => hnot (hold location hpre))

theorem confined_makesRoom (h : session.files.Sound)
    (hin : Contained number file backups within session)
    (hroom : MakesRoom number file backups session after) :
    Confined number within session after := by
  induction hroom with
  | refl => exact .refl h
  | tail _ htouches ih =>
    exact ih.trans (confined_touches ih.changes.sound (ih.contained hin) htouches)

theorem confined_addText (h : session.files.Sound)
    (hin : Contained number file backups within session) (text : Text) :
    Confined number within session (session.addText number text) := by
  rw [addText]
  split
  · rename_i bytes location _ hstream
    exact ⟨changes_alter h _ (hin.opened location hstream), rfl, rfl, rfl, fun _ _ => .inl,
      fun _ _ _ hopened _ => hopened⟩
  · exact .setStream nofun (.refl h)
  · exact .refl h

/-- What one handler does elsewhere takes nothing that another has open anywhere. -/
theorem Contained.elsewhere {other : Nat} {elsewhere : Location → Prop}
    (h : Contained number file backups within before)
    (hconfined : Confined other elsewhere before after) (hne : number ≠ other)
    (hapart : ∀ location, within location → ¬ elsewhere location) :
    Contained number file backups within after where
  place := fun count hle location hpre =>
    h.place count hle location (place_congr hconfined.changes.workingDirectory _ ▸ hpre)
  opened := by
    intro location hopened
    obtain hsame | ⟨-, hnumber | ⟨old, hold, hplace⟩⟩ := hconfined.opened number location hopened
    · exact h.opened location hsame
    · exact absurd hnumber hne
    · exact absurd hplace (hapart old (h.opened old hold))

theorem confined_writeFile (h : session.files.Sound)
    (hin : Contained number file backups within session) (text : Text) :
    Confined number within session (session.writeFile number file backups text) := by
  obtain ⟨middle, hroom, hlost | hadded⟩ := writeFile_cases number file backups text session
  · rw [hlost]
    exact confined_makesRoom h hin hroom
  · have hmiddle := confined_makesRoom h hin hroom
    rw [hadded]
    exact hmiddle.trans (confined_addText hmiddle.changes.sound (hmiddle.contained hin) text)

theorem alters_write (h : session.files.Sound) {handler : Handler}
    (hhandler : session.logging.handlers[number]? = some handler) (text : Text) :
    Alters written made session (session.write number text handler.sink) := by
  cases hsink : handler.sink with
  | console => exact ⟨.refl h, rfl, fun _ => id⟩
  | file file backups =>
    have hfile : session.HasFile number file backups := ⟨handler, hhandler, hsink⟩
    have hin : Contained number file backups (fun location => (∃ count ≤ backups,
        session.files.place (Path.ofText (backup file count)) <+: location) ∨
          session.streams number = .opened location) session :=
      ⟨fun count hle _ hpre => .inl ⟨count, hle, hpre⟩, fun _ => .inr⟩
    have hconfined := confined_writeFile h hin text
    refine ⟨hconfined.changes.mono (fun _ hplace => .inr ⟨number, file, backups, hfile, hplace⟩)
      fun _ => False.elim, hconfined.logging,
      logPlace_of_streams hconfined.logging hconfined.changes.workingDirectory ?_⟩
    intro other file' backups' location hother hopened
    obtain hsame | ⟨hplace, -⟩ := hconfined.opened other location hopened
    · exact ⟨other, file', backups', hother, .inr hsame⟩
    · exact ⟨number, file, backups, hfile, hplace⟩

theorem alters_foldl (h : session.files.Sound) (level : Int) (line : Text)
    {entries : List (Handler × Nat)}
    (hentries : ∀ entry ∈ entries, session.logging.handlers[entry.2]? = some entry.1) :
    Alters written made session (entries.foldl (handle level line) session) := by
  induction entries generalizing session with
  | nil => exact .refl h
  | cons entry entries ih =>
    obtain ⟨hentry, hentries⟩ := List.forall_mem_cons.mp hentries
    have hfirst : Alters written made session (session.handle level line entry) := by
      rw [handle]
      split
      · exact alters_write h hentry line
      · exact .refl h
    refine hfirst.trans (ih hfirst.changes.sound ?_)
    rw [hfirst.logging]
    exact hentries

theorem alters_log (h : session.files.Sound) (record : LogRecord) :
    Alters written made session (session.log record) := by
  have htaken : Alters written made session { session with taken := session.taken ++ [record] } :=
    ⟨.refl h, rfl, fun _ => id⟩
  rw [log]
  split
  · dsimp only
    split
    · split
      · exact ⟨.refl h, rfl, fun _ => id⟩
      · exact htaken
    · refine htaken.trans (alters_foldl htaken.changes.sound record.level _ fun entry hentry => ?_)
      exact List.mem_zipIdx_iff_getElem?.mp hentry
  · exact .refl h

theorem alters_logAll (h : session.files.Sound) (records : List LogRecord) :
    Alters written made session (session.logAll records) := by
  induction records generalizing session with
  | nil => exact .refl h
  | cons record records ih =>
    have hfirst : Alters written made session (session.log record) := alters_log h record
    exact hfirst.trans (ih hfirst.changes.sound)

theorem Alters.logAll (h : Alters written made before after) (records : List LogRecord) :
    Alters written made before (after.logAll records) :=
  h.trans (alters_logAll h.changes.sound records)

theorem Alters.log (h : Alters written made before after) (record : LogRecord) :
    Alters written made before (after.log record) :=
  h.logAll [record]

def Unlogged (session : Session) (path : Path) : Prop :=
  ∀ location, session.LogPlace location → ¬ location <+: session.files.place path

theorem Alters.unlogged (h : Alters written made before after) (hpath : before.Unlogged path) :
    after.Unlogged path := by
  intro location hlog
  rw [h.place]
  exact hpath location (h.logPlace location hlog)

/-- Two sessions that a path cannot tell from each other, and that keep their logs away from it. -/
structure AlikeFor (path : Path) (a b : Session) : Prop where
  sound : a.files.Sound
  sound' : b.files.Sound
  same : SameFor path a.files b.files
  unlogged : a.Unlogged path
  unlogged' : b.Unlogged path

theorem Alters.alikeFor (h : Alters written made before after) (hsound : before.files.Sound)
    (hpath : before.Unlogged path)
    (hwritten : ∀ location, location <+: before.files.place path → ¬ written location)
    (hmade : ¬ made (before.files.place path)) : AlikeFor path before after where
  sound := hsound
  sound' := h.changes.sound
  same := h.changes.sameFor (fun location hpre => not_or.mpr ⟨hwritten location hpre, fun hlog =>
    hpath location hlog hpre⟩) fun hplace => absurd hplace hmade
  unlogged := hpath
  unlogged' := h.unlogged hpath

namespace AlikeFor

theorem symm (h : AlikeFor path a b) : AlikeFor path b a :=
  ⟨h.sound', h.sound, h.same.symm, h.unlogged', h.unlogged⟩

theorem trans {c : Session} (h : AlikeFor path a b)
    (hnext : AlikeFor path b c) : AlikeFor path a c :=
  ⟨h.sound, hnext.sound', h.same.trans hnext.same, h.unlogged, hnext.unlogged'⟩

theorem logAll (h : AlikeFor path a b) (records : List LogRecord) :
    AlikeFor path (a.logAll records) (b.logAll records) := by
  have hlogged {session : Session} (hsound : session.files.Sound) (hpath : session.Unlogged path) :
      AlikeFor path session (session.logAll records) := by
    have halters : Alters (fun _ => False) (fun _ => False) session (session.logAll records) :=
      alters_logAll hsound records
    exact halters.alikeFor hsound hpath (fun _ _ => id) id
  exact ((hlogged h.sound h.unlogged).symm.trans h).trans (hlogged h.sound' h.unlogged')

theorem log (h : AlikeFor path a b) (record : LogRecord) :
    AlikeFor path (a.log record) (b.log record) :=
  h.logAll [record]

end AlikeFor

def sample (files : List (String × List UInt8)) : Session where
  files := {
    workingDirectory := Path.ofText "/work"
    nodes := ([Utf8.nameBytes "work"], .directory) ::
      files.map fun (name, bytes) =>
        ([Utf8.nameBytes "work", Utf8.nameBytes name], .file ⟨bytes.toArray⟩) }
  logging := { stamps := fun _ => ⟨"", ""⟩ }

theorem sound_sample (files : List (String × List UInt8)) : (sample files).files.Sound := by
  have hwork : (sample files).files.node? [Utf8.nameBytes "work"] = some .directory := rfl
  have hnames : ∀ name ∈ (Path.ofText "/work").names, name.IsName := by decide +kernel
  refine sound_of_nodes (by decide : (Path.ofText "/work").isAbsolute = true) hnames hwork ?_
  refine List.forall_mem_cons.mpr ⟨rfl, ?_⟩
  rintro _ hnode
  obtain ⟨_, -, rfl⟩ := List.mem_map.mp hnode
  exact hwork

theorem unlogged_sample (files : List (String × List UInt8)) (path : Path) :
    (sample files).Unlogged path :=
  fun _ ⟨_, _, _, ⟨_, hhandler, _⟩, _⟩ => nomatch hhandler

end CatalogPress.Session
