import CatalogPress.Proofs.Files.Sound

/-!
Paths without two points lead where they led as long as the directories on their way stay.
-/
namespace CatalogPress.FileSystem
open Fallible

variable {before after : FileSystem} {location start : Location}
  {names : List FileName} {path : Text}

theorem prefix_of_walk (hnames : FileName.above ∉ names)
    (h : before.walk start names = .ok location) :
    start <+: location := by
  rw [walk_eq_ok h]
  clear h
  induction names generalizing start with
  | nil => exact List.prefix_rfl
  | cons name names ih =>
    obtain ⟨hname, hnames⟩ := not_or.mp (mt List.mem_cons.mpr hnames)
    refine .trans ?_ (ih hnames)
    rw [FileName.follow, if_neg (Ne.symm hname)]
    split
    · exact List.prefix_rfl
    · exact List.prefix_append _ _

theorem walk_of_kept (hnames : FileName.above ∉ names)
    (hkept : ∀ way, way <+: location → before.node? way = some .directory →
      after.node? way = some .directory)
    (h : before.walk start names = .ok location) : after.walk start names = .ok location := by
  induction names generalizing start with
  | nil => exact h
  | cons name names ih =>
    have hstart := prefix_of_walk hnames h
    obtain ⟨-, hnames⟩ := not_or.mp (mt List.mem_cons.mpr hnames)
    rw [walk] at h ⊢
    split at h
    · cases h
    · cases h
    rename_i hdirectory
    rw [hkept start hstart hdirectory]
    dsimp only
    split_ifs at h ⊢ <;> exact ih hnames h

theorem resolve_of_kept (hbase : after.workingDirectory = before.workingDirectory)
    (hnames : ∀ name ∈ (Path.ofText path).names, name ≠ "..")
    (hkept : ∀ way, way <+: location → before.node? way = some .directory →
      after.node? way = some .directory)
    (h : before.resolve path = .ok location) : after.resolve path = .ok location := by
  rw [resolve, bind_eq_ok] at h ⊢
  obtain ⟨bytes, hbytes, h⟩ := h
  refine ⟨bytes, hbytes, ?_⟩
  obtain ⟨hsome, rfl⟩ := Utf8.encodeName_eq_ok_iff.mp (mapError_eq_ok.mp hbytes)
  have hdown :
      FileName.above ∉ Text.splitList FileName.separator (Utf8.bytesBy Utf8.nameBytes? path) := by
    have hsplit : Text.splitList FileName.separator (Utf8.bytesBy Utf8.nameBytes? path) = _ :=
      Utf8.splitList_nameBytes path.points
    rw [hsplit, List.mem_map]
    rintro ⟨part, hpart, habove⟩
    have hbytes : Text.HasBytes ⟨part⟩ :=
      fun point hpoint => hsome point (Text.mem_of_mem_splitList hpart hpoint)
    have hname := (Utf8.nameBytes_eq_above_iff hbytes).mp habove
    refine hnames ⟨part⟩ ?_ hname
    rw [Path.ofText_names, List.mem_filter, hname]
    exact ⟨hname ▸ List.mem_map_of_mem hpart, by decide⟩
  have hstart (bytes : List UInt8) : after.start bytes = before.start bytes := by
    rw [start, start, base, base, hbase]
  split at h
  · cases h
  split at h
  · cases h
  split at h
  · cases h
  rename_i hzero hempty hlong
  rw [if_neg hzero, if_neg hempty, if_neg hlong, hstart]
  exact mapError_eq_ok.mpr (walk_of_kept hdown hkept (mapError_eq_ok.mp h))

end CatalogPress.FileSystem
