import CatalogPress.Proofs.Files.Name

/-!
Where a path leads, if it leads anywhere. Nothing but its names and the working directory decides
that: points are dropped, and two points take away the name before them.
-/
namespace CatalogPress
open Fallible

/-- One step along a path, where every name leads somewhere. -/
def FileName.follow (location : Location) (name : FileName) : Location :=
  if name = [] ∨ name = here then location
  else if name = above then location.dropLast
  else location ++ [name]

structure Text.IsName (name : Text) : Prop where
  nameable : name.Nameable
  no_slash : Path.slash ∉ name.points
  ne_empty : name ≠ ""
  ne_here : name ≠ "."
  ne_above : name ≠ ".."
  short : (Utf8.nameBytes name).length ≤ FileName.longest

structure FileName.IsProper (name : FileName) : Prop where
  ne_nil : name ≠ []
  ne_here : name ≠ here
  ne_above : name ≠ above
  short : name.length ≤ longest

/-- A path that goes down by names of files only, from the root or from the working directory. -/
structure Path.Descending (path : Path) : Prop where
  slashes : path.slashes ≤ 2
  names : ∀ name ∈ path.names, name.IsName

structure Path.Ordinary (path : Path) : Prop where
  relative : path.slashes = 0
  names : ∀ name ∈ path.names, name.IsName

theorem Path.Ordinary.descending {path : Path} (h : path.Ordinary) : path.Descending where
  slashes := h.relative ▸ Nat.zero_le 2
  names := h.names

instance (point : CodePoint) : Decidable point.Nameable :=
  match point with
  | .char _ => inferInstanceAs (Decidable (_ ≠ _))
  | .surrogate _ => inferInstanceAs (Decidable (_ ∧ _))

instance (text : Text) : Decidable text.Nameable :=
  inferInstanceAs (Decidable (∀ point ∈ text.points, point.Nameable))

theorem Text.isName_iff {name : Text} : name.IsName ↔
    name.Nameable ∧ Path.slash ∉ name.points ∧ name ≠ "" ∧
    name ≠ "." ∧ name ≠ ".." ∧ (Utf8.nameBytes name).length ≤ FileName.longest :=
  ⟨fun h => ⟨h.1, h.2, h.3, h.4, h.5, h.6⟩,
    fun ⟨h₁, h₂, h₃, h₄, h₅, h₆⟩ => ⟨h₁, h₂, h₃, h₄, h₅, h₆⟩⟩

instance (name : Text) : Decidable name.IsName :=
  decidable_of_iff _ Text.isName_iff.symm

instance (path : Path) : Decidable path.Descending :=
  decidable_of_iff (path.slashes ≤ 2 ∧ ∀ name ∈ path.names, name.IsName)
    ⟨fun h => ⟨h.1, h.2⟩, fun h => ⟨h.slashes, h.names⟩⟩

instance (path : Path) : Decidable path.Ordinary :=
  decidable_of_iff (path.slashes = 0 ∧ ∀ name ∈ path.names, name.IsName)
    ⟨fun h => ⟨h.1, h.2⟩, fun h => ⟨h.relative, h.names⟩⟩

/-- The path has more bytes than a path may have. -/
def Path.TooLong (path : Path) : Prop :=
  FileSystem.longestPath < (Utf8.nameBytes path.text).length

instance (path : Path) : Decidable path.TooLong :=
  inferInstanceAs (Decidable (_ < _))

theorem Text.Nameable.hasBytes {text : Text} (h : text.Nameable) : text.HasBytes := by
  intro point hpoint
  obtain ⟨bytes, hbytes, -⟩ := Utf8.nameable_iff.mp (h point hpoint)
  rw [hbytes]
  rfl

theorem Text.Nameable.encodeName {text : Text} (h : text.Nameable) :
    Utf8.encodeName text = .ok (Utf8.nameBytes text) ∧ 0 ∉ Utf8.nameBytes text := by
  obtain ⟨bytes, hbytes, hzero⟩ := Utf8.nameable_iff_encodeName.mp h
  have hsame : Utf8.nameBytes text = bytes := (Utf8.encodeName_eq_ok_iff.mp hbytes).2
  rw [hsame]
  exact ⟨hbytes, hzero⟩

theorem Text.IsName.isProper {name : Text} (h : name.IsName) :
    FileName.IsProper (Utf8.nameBytes name) where
  ne_nil := fun hbytes => h.ne_empty ((Utf8.nameBytes_eq_nil_iff h.nameable.hasBytes).mp hbytes)
  ne_here := fun hbytes => h.ne_here ((Utf8.nameBytes_eq_here_iff h.nameable.hasBytes).mp hbytes)
  ne_above := fun hbytes => h.ne_above ((Utf8.nameBytes_eq_above_iff h.nameable.hasBytes).mp hbytes)
  short := h.short

namespace Path

theorem foldl_enter {names : List Text} (h : ∀ name ∈ names, name ≠ "..") (start : List Text) :
    names.foldl enter start = start ++ names := by
  induction names generalizing start with
  | nil => exact (List.append_nil start).symm
  | cons name names ih =>
    obtain ⟨hname, hnames⟩ := List.forall_mem_cons.mp h
    rw [List.foldl_cons, ih hnames, enter, if_neg hname, List.append_assoc]
    rfl

theorem ofText_names (text : Text) : (ofText text).names =
    ((Text.splitList slash text.points).map Text.mk).filter
      fun (name : Text) => name ≠ "" ∧ name ≠ "." := rfl

theorem isAbsolute_ofText (text : Text) : (ofText text).isAbsolute = true ↔
    text.points.head? = some slash := by
  rw [isAbsolute, decide_eq_true_iff]
  change (let count := (text.points.takeWhile (· = slash)).length; if count ≤ 2 then count else 1) ≠
    0 ↔ _
  cases text.points with
  | nil => simp
  | cons point points =>
    by_cases hpoint : point = slash
    · simp only [List.takeWhile_cons, hpoint, decide_true, if_true, List.length_cons,
        List.head?_cons, iff_true]
      split <;> omega
    · simp [hpoint]

end Path

namespace FileName

theorem follow_nameBytes {name : Text} (h : name.HasBytes) (names : List Text) :
    follow (names.map Utf8.nameBytes) (Utf8.nameBytes name) =
      (if name = "" ∨ name = "." then names else Path.enter names name).map Utf8.nameBytes := by
  simp only [follow, Path.enter, Utf8.nameBytes_eq_nil_iff h, Utf8.nameBytes_eq_here_iff h,
    Utf8.nameBytes_eq_above_iff h]
  split
  · rfl
  split
  · rw [List.map_dropLast]
  · rw [List.map_append]
    rfl

theorem foldl_follow {parts : List (List CodePoint)} (h : ∀ part ∈ parts, Text.HasBytes ⟨part⟩)
    (names : List Text) :
    (parts.map (Utf8.nameBytes ⟨·⟩)).foldl follow (names.map Utf8.nameBytes) =
      (((parts.map Text.mk).filter fun (name : Text) => name ≠ "" ∧
      name ≠ ".").foldl Path.enter names).map
        Utf8.nameBytes := by
  induction parts generalizing names with
  | nil => rfl
  | cons part parts ih =>
    obtain ⟨hpart, hparts⟩ := List.forall_mem_cons.mp h
    rw [List.map_cons, List.foldl_cons, List.map_cons, follow_nameBytes hpart, ih hparts]
    by_cases hdrop : (⟨part⟩ : Text) = "" ∨ (⟨part⟩ : Text) = "."
    · rw [if_pos hdrop, List.filter_cons_of_neg]
      rw [decide_eq_true_iff]
      tauto
    · rw [if_neg hdrop, List.filter_cons_of_pos, List.foldl_cons]
      rw [decide_eq_true_iff]
      tauto

end FileName

namespace FileSystem
variable {files : FileSystem} {path : Path} {text : Text} {location : Location}

/-- Where a path leads, whatever stands on the way. -/
def place (files : FileSystem) (path : Path) : Location :=
  (files.workingDirectory ++ path).withoutParents.names.map Utf8.nameBytes

def origin (files : FileSystem) (path : Path) : Location :=
  if path.isAbsolute then [] else files.base

theorem origin_of_ordinary (files : FileSystem) (h : path.Ordinary) :
    files.origin path = files.base :=
  if_neg (by rw [Path.isAbsolute, h.relative]; exact Bool.false_ne_true)

theorem walk_eq_ok {names : List FileName} {start : Location}
    (h : files.walk start names = .ok location) :
    location = names.foldl FileName.follow start := by
  induction names generalizing start with
  | nil =>
    cases h
    rfl
  | cons name names ih =>
    rw [walk] at h
    split at h
    · cases h
    · cases h
    rw [List.foldl_cons, FileName.follow]
    split at h
    · rename_i hstay
      rw [if_pos hstay]
      exact ih h
    rename_i hstay
    rw [if_neg hstay]
    split at h
    · rename_i habove
      rw [if_pos habove]
      exact ih h
    rename_i habove
    rw [if_neg habove]
    split at h
    · cases h
    exact ih h

theorem place_of_absolute (h : path.isAbsolute = true) :
    files.place path = (path.names.foldl Path.enter []).map Utf8.nameBytes := by
  unfold place
  change (Path.append files.workingDirectory path).withoutParents.names.map _ = _
  rw [Path.append, if_pos h]
  rfl

theorem place_of_relative (hbase : ∀ name ∈ files.workingDirectory.names, name ≠ "..")
    (h : path.isAbsolute = false) :
    files.place path =
      (path.names.foldl Path.enter files.workingDirectory.names).map Utf8.nameBytes := by
  unfold place
  change (Path.append files.workingDirectory path).withoutParents.names.map _ = _
  rw [Path.append, if_neg (by rw [h]; exact Bool.false_ne_true),
    Path.withoutParents, List.foldl_append, Path.foldl_enter hbase, List.nil_append]

theorem resolve_eq_ok (hbase : ∀ name ∈ files.workingDirectory.names, name ≠ "..")
    (h : files.resolve text = .ok location) : location = files.place (Path.ofText text) := by
  rw [resolve, bind_eq_ok] at h
  obtain ⟨bytes, hbytes, h⟩ := h
  obtain ⟨hsome, rfl⟩ := Utf8.encodeName_eq_ok_iff.mp (mapError_eq_ok.mp hbytes)
  split at h
  · cases h
  split at h
  · cases h
  split at h
  · cases h
  have hparts : ∀ part ∈ Text.splitList Path.slash text.points, Text.HasBytes ⟨part⟩ :=
    fun part hpart point hpoint => hsome point (Text.mem_of_mem_splitList hpart hpoint)
  have hsplit : Text.splitList FileName.separator (Utf8.bytesBy Utf8.nameBytes? text) = _ :=
    Utf8.splitList_nameBytes text.points
  have hhead := (Utf8.head?_nameBytes hsome).trans (Path.isAbsolute_ofText text).symm
  rw [walk_eq_ok (mapError_eq_ok.mp h), hsplit]
  cases habsolute : (Path.ofText text).isAbsolute with
  | true =>
    have hstart : files.start (Utf8.bytesBy Utf8.nameBytes? text) = List.map Utf8.nameBytes [] :=
      if_pos (hhead.mpr habsolute)
    rw [place_of_absolute habsolute, hstart, FileName.foldl_follow hparts, Path.ofText_names]
  | false =>
    have hstart : files.start (Utf8.bytesBy Utf8.nameBytes? text) =
        files.workingDirectory.names.map Utf8.nameBytes :=
      if_neg fun h => Bool.false_ne_true (habsolute.symm.trans (hhead.mp h))
    rw [place_of_relative hbase habsolute, hstart, FileName.foldl_follow hparts, Path.ofText_names]

theorem place_of_descending (hbase : ∀ name ∈ files.workingDirectory.names, name ≠ "..")
    (h : path.Descending) :
    files.place path = files.origin path ++ path.names.map Utf8.nameBytes := by
  have hnames : ∀ name ∈ path.names, name ≠ ".." := fun name hname => (h.names name hname).ne_above
  cases habsolute : path.isAbsolute with
  | true =>
    rw [place_of_absolute habsolute, Path.foldl_enter hnames, origin, if_pos habsolute]
    rfl
  | false =>
    rw [place_of_relative hbase habsolute, Path.foldl_enter hnames,
      List.map_append, origin, habsolute]
    rfl

end FileSystem

namespace Path
variable {path : Path}

theorem points_text (path : Path) : path.text.points =
    if path.slashes = 0 ∧ path.names = [] then Text.points "."
    else List.replicate path.slashes slash ++ [slash].intercalate (path.names.map Text.points) := by
  unfold text
  split <;> rfl

theorem splitList_text (h : path.Descending) (hnames : path.names ≠ []) :
    Text.splitList slash path.text.points = List.replicate path.slashes [] ++
      path.names.map Text.points := by
  rw [points_text, if_neg fun h => hnames h.2, Text.splitList_replicate_append,
    Text.splitList_intercalate (by rwa [ne_eq, List.map_eq_nil_iff])]
  rw [List.forall_mem_map]
  exact fun name hname => (h.names name hname).no_slash

theorem points_ne_nil (h : path.Descending) {name : Text}
    (hname : name ∈ path.names) : name.points ≠ [] :=
  fun hempty => (h.names name hname).ne_empty (Text.ext hempty)

theorem exists_text_cons (h : path.Descending) :
    ∃ point points, path.text.points = point :: points ∧
    (point = slash ↔ path.isAbsolute = true) := by
  obtain ⟨slashes, names⟩ := path
  cases slashes with
  | succ count =>
    rw [points_text, if_neg fun h => Nat.succ_ne_zero count h.1]
    exact ⟨slash, _, rfl, iff_of_true rfl rfl⟩
  | zero =>
    cases names with
    | nil => exact ⟨.char '.', [], rfl, iff_of_false (by decide) nofun⟩
    | cons name names =>
      obtain ⟨point, points, hpoints⟩ :=
        List.exists_cons_of_ne_nil (points_ne_nil h List.mem_cons_self)
      have hslash : point ≠ slash := by
        rintro rfl
        exact (h.names name List.mem_cons_self).no_slash (hpoints ▸ List.mem_cons_self)
      have hpre : name.points <+: (text ⟨0, name :: names⟩).points := by
        rw [points_text, if_neg fun h => List.cons_ne_nil _ _ h.2]
        exact Text.prefix_intercalate_cons _ _
      obtain ⟨rest, hrest⟩ := hpre
      rw [← hrest, hpoints]
      exact ⟨point, points ++ rest, rfl, iff_of_false hslash nofun⟩

theorem exists_text_concat (h : path.Descending)
    (hroot : path.isAbsolute = true → path.names ≠ []) :
    ∃ points point, path.text.points = points ++ [point] ∧ point ≠ slash := by
  obtain ⟨slashes, names⟩ := path
  obtain rfl | ⟨names, name, rfl⟩ := List.eq_nil_or_concat' names
  · obtain rfl : slashes = 0 := by simpa [isAbsolute] using hroot
    exact ⟨[], .char '.', rfl, by decide⟩
  · have hname : name ∈ names ++ [name] := List.mem_concat_self
    have hsuffix : name.points <:+ (text ⟨slashes, names ++ [name]⟩).points := by
      rw [points_text, if_neg
        fun h => List.append_ne_nil_of_right_ne_nil _ (List.cons_ne_nil _ _) h.2, List.map_append]
      exact (Text.suffix_intercalate_concat _ _).trans (List.suffix_append _ _)
    obtain ⟨front, hfront⟩ := hsuffix
    obtain hnil | ⟨points, point, hpoints⟩ := List.eq_nil_or_concat' name.points
    · exact absurd hnil (points_ne_nil h hname)
    · refine ⟨front ++ points, point, by rw [← hfront, hpoints, List.append_assoc], ?_⟩
      rintro rfl
      exact (h.names name hname).no_slash (hpoints ▸ List.mem_concat_self)

theorem nameable_text (h : path.Descending) : path.text.Nameable := by
  have hchar : ∀ c : Char, c ≠ '\x00' → (CodePoint.char c).Nameable := fun _ hc => hc
  have hslash : slash.Nameable := hchar '/' (by decide)
  intro point hpoint
  rw [points_text] at hpoint
  split at hpoint
  · rw [List.mem_singleton.mp hpoint]
    exact hchar '.' (by decide)
  obtain hpoint | hpoint := List.mem_append.mp hpoint
  · rw [List.eq_of_mem_replicate hpoint]
    exact hslash
  · obtain rfl | ⟨points, hpoints, hpoint⟩ := Text.eq_or_exists_of_mem_intercalate hpoint
    · exact hslash
    · obtain ⟨name, hname, rfl⟩ := List.mem_map.mp hpoints
      exact (h.names name hname).nameable point hpoint

end Path

namespace FileSystem
variable {files : FileSystem} {path : Path} {location : Location}

theorem walk_here {names : List FileName} (h : names ≠ []) :
    files.walk location (.here :: names) = files.walk location names := by
  obtain ⟨name, names, rfl⟩ := List.exists_cons_of_ne_nil h
  rw [walk, if_pos (.inr rfl), walk]
  split <;> rfl

theorem walk_root {name : FileName} (h : name = [] ∨ name = .here) (names : List FileName) :
    files.walk [] (name :: names) = files.walk [] names := by
  have hroot : files.node? [] = some .directory := rfl
  rw [walk, hroot]
  exact if_pos h

theorem walk_root_replicate (count : Nat) (names : List FileName) :
    files.walk [] (List.replicate count [] ++ names) = files.walk [] names := by
  induction count with
  | zero => rfl
  | succ count ih => rw [List.replicate_succ, List.cons_append, walk_root (.inl rfl), ih]

theorem walk_splitList_text (h : path.Descending) :
    files.walk (files.origin path) (Text.splitList FileName.separator (Utf8.nameBytes path.text)) =
      files.walk (files.origin path) (.here :: path.names.map Utf8.nameBytes) := by
  have hsplit : Text.splitList FileName.separator (Utf8.nameBytes path.text) = _ :=
    Utf8.splitList_nameBytes path.text.points
  rw [hsplit]
  by_cases habsolute : path.isAbsolute = true
  · have hslashes : path.slashes ≠ 0 := of_decide_eq_true habsolute
    rw [origin, if_pos habsolute, walk_root (.inr rfl)]
    by_cases hnames : path.names = []
    · rw [Path.points_text, if_neg
        fun h => hslashes h.1, Text.splitList_replicate_append, List.map_append,
        List.map_replicate, hnames]
      exact (walk_root_replicate _ _).trans (walk_root (.inl rfl) [])
    · rw [Path.splitList_text h hnames, List.map_append, List.map_replicate, List.map_map]
      exact walk_root_replicate _ _
  · have hslashes : path.slashes = 0 := by simpa [Path.isAbsolute] using habsolute
    by_cases hnames : path.names = []
    · rw [Path.points_text, if_pos ⟨hslashes, hnames⟩, hnames]
      rfl
    · rw [Path.splitList_text h hnames, hslashes, List.replicate_zero,
        List.nil_append, List.map_map, walk_here]
      · rfl
      · rwa [ne_eq, List.map_eq_nil_iff]

theorem resolve_of_descending (h : path.Descending) : files.resolve path.text =
    if path.TooLong then .error (.system .nameTooLong path.text)
    else (files.walk (files.origin path) (.here :: path.names.map Utf8.nameBytes)).mapError
      (.system · path.text) := by
  obtain ⟨hbytes, hzero⟩ := (Path.nameable_text h).encodeName
  obtain ⟨point, points, hpoints, hslash⟩ := Path.exists_text_cons h
  have hempty : Utf8.nameBytes path.text ≠ [] := by
    rw [ne_eq, Utf8.nameBytes_eq_nil_iff (Path.nameable_text h).hasBytes]
    intro htext
    cases (congrArg Text.points htext).symm.trans hpoints
  have hstart : files.start (Utf8.nameBytes path.text) = files.origin path := by
    have hhead : (Utf8.nameBytes path.text).head? = some FileName.separator ↔
        path.isAbsolute = true := by
      rw [Utf8.head?_nameBytes (Path.nameable_text h).hasBytes, hpoints,
        List.head?_cons, Option.some.injEq]
      exact hslash
    exact if_congr hhead rfl rfl
  rw [resolve_eq hbytes, if_neg fun h => hzero (List.contains_iff_mem.mp h),
    if_neg fun h => hempty (List.isEmpty_iff.mp h), hstart, walk_splitList_text h]
  rfl

end FileSystem
end CatalogPress
