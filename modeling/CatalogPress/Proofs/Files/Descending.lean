import CatalogPress.Proofs.Files.Sound

/-!
Following, reading and writing descending paths. All that matters is whether a file stands on the
way and what is at the place itself: a directory that is missing on the way is made when it is
needed, and where it is not made, nothing is found below it.
-/
namespace CatalogPress

namespace FileSystem
open Fallible

variable {files a b : FileSystem} {path : Path} {location : Location} {names : List FileName}

theorem walk_cons {name : FileName} (h : FileName.IsProper name) :
    files.walk location (name :: names) =
      match files.node? location with
      | none => .error .notFound
      | some (.file _) => .error .notADirectory
      | some .directory => files.walk (location ++ [name]) names := by
  rw [walk]
  cases files.node? location with
  | none => rfl
  | some node =>
    cases node with
    | file bytes => rfl
    | directory =>
      refine (if_neg ?_).trans ((if_neg h.ne_above).trans (if_neg (Nat.not_lt.mpr h.short)))
      exact not_or.mpr ⟨h.ne_nil, h.ne_here⟩

theorem Sound.walk_of_file (h : files.Sound) (hnames : ∀ name ∈ names, FileName.IsProper name)
    {front : List FileName} {bytes : ByteArray} (hpre : front <+: names) (hne : front ≠ names)
    (hfile : files.node? (location ++ front) = some (.file bytes)) :
    files.walk location names = .error .notADirectory := by
  induction names generalizing location front with
  | nil => exact absurd (List.prefix_nil.mp hpre) hne
  | cons name names ih =>
    obtain ⟨hname, hnames⟩ := List.forall_mem_cons.mp hnames
    rw [walk_cons hname]
    obtain rfl | ⟨rest, rfl, hrest⟩ := List.prefix_cons_iff.mp hpre
    · rw [List.append_nil] at hfile
      rw [hfile]
    · have habove : files.node? location = some .directory := by
        refine h.directory_of_prefix (List.prefix_append location (name :: rest)) ?_ (hfile ▸ nofun)
        exact fun heq => List.cons_ne_nil name rest (List.self_eq_append_right.mp heq)
      rw [habove]
      refine ih hnames hrest (fun heq => hne (heq ▸ rfl)) ?_
      rw [List.append_assoc]
      exact hfile

theorem walk_of_no_file (hnames : ∀ name ∈ names, FileName.IsProper name)
    (h : ∀ front bytes, front <+: names → front ≠ names →
      files.node? (location ++ front) ≠ some (.file bytes)) :
    files.walk location names = .ok (location ++ names) ∨
      (files.walk location names = .error .notFound ∧
        ∃ front, front <+: names ∧ front ≠ names ∧ files.node? (location ++ front) = none) := by
  induction names generalizing location with
  | nil =>
    rw [List.append_nil]
    exact .inl rfl
  | cons name names ih =>
    obtain ⟨hname, hnames⟩ := List.forall_mem_cons.mp hnames
    rw [walk_cons hname]
    have hhere (bytes : ByteArray) := h [] bytes List.nil_prefix (List.cons_ne_nil _ _).symm
    rw [List.append_nil] at hhere
    cases hnode : files.node? location with
    | none =>
      refine .inr ⟨rfl, [], List.nil_prefix, (List.cons_ne_nil _ _).symm, ?_⟩
      rw [List.append_nil, hnode]
    | some node =>
      cases node with
      | file bytes => exact absurd hnode (hhere bytes)
      | directory =>
        have hassoc (rest : List FileName) :
            location ++ [name] ++ rest = location ++ name :: rest := by
          rw [List.append_assoc]
          rfl
        have hrest := @ih (location ++ [name]) hnames
        simp only [hassoc] at hrest
        obtain hok | ⟨herror, front, hpre, hne, hnone⟩ := hrest fun front bytes hpre hne =>
          h (name :: front) bytes (List.cons_prefix_cons.mpr ⟨rfl, hpre⟩)
            (fun heq => hne (List.cons.inj heq).2)
        · exact .inl hok
        · refine .inr ⟨herror, name :: front, List.cons_prefix_cons.mpr ⟨rfl, hpre⟩, ?_, hnone⟩
          exact fun heq => hne (List.cons.inj heq).2

def Blocked (files : FileSystem) (path : Path) : Prop :=
  ∃ location bytes, location <+: files.place path ∧ location ≠ files.place path ∧
    files.node? location = some (.file bytes)

theorem blocked_congr (hplace : b.place path = a.place path)
    (hfile : ∀ location bytes, location <+: a.place path →
      (b.node? location = some (.file bytes) ↔ a.node? location = some (.file bytes))) :
    b.Blocked path ↔ a.Blocked path := by
  unfold Blocked
  rw [hplace]
  refine exists_congr fun location => exists_congr fun bytes => and_congr_right fun hpre => ?_
  exact and_congr_right fun _ => hfile location bytes hpre

theorem Sound.node?_origin (h : files.Sound) (path : Path) :
    files.node? (files.origin path) = some .directory := by
  unfold origin
  split
  · rfl
  · exact h.there

theorem Sound.resolve_of_descending (h : files.Sound) (hpath : path.Descending) :
    files.resolve path.text =
      if path.TooLong then .error (.system .nameTooLong path.text)
      else (files.walk (files.origin path) (path.names.map Utf8.nameBytes)).mapError
        (.system · path.text) := by
  have hhere : files.walk (files.origin path) (.here :: path.names.map Utf8.nameBytes) =
      files.walk (files.origin path) (path.names.map Utf8.nameBytes) := by
    rw [FileSystem.walk, h.node?_origin]
    exact if_pos (.inr rfl)
  rw [FileSystem.resolve_of_descending hpath, hhere]

theorem Sound.place_of_descending (h : files.Sound) (hpath : path.Descending) :
    files.place path = files.origin path ++ path.names.map Utf8.nameBytes :=
  FileSystem.place_of_descending h.ne_above hpath

/-- What stands on the way to a place stands below where the path starts, unless it is a
directory. -/
theorem Sound.exists_front (h : files.Sound) (hpath : path.Descending)
    (hpre : location <+: files.place path) (hnode : files.node? location ≠ some .directory) :
    ∃ front, front <+: path.names.map Utf8.nameBytes ∧ location = files.origin path ++ front := by
  rw [h.place_of_descending hpath] at hpre
  obtain habove | ⟨front, rfl⟩ := List.prefix_or_prefix_of_prefix hpre (List.prefix_append _ _)
  · exact absurd (h.directory_above (h.node?_origin path) habove) hnode
  · exact ⟨front, (List.prefix_append_right_inj _).mp hpre, rfl⟩

theorem forall_isProper (hpath : path.Descending) :
    ∀ name ∈ path.names.map Utf8.nameBytes, FileName.IsProper name :=
  List.forall_mem_map.mpr fun name hname => (hpath.names name hname).isProper

theorem Sound.resolve_of_blocked (h : files.Sound)
    (hpath : path.Descending) (hlong : ¬ path.TooLong) (hblocked : files.Blocked path) :
    files.resolve path.text = .error (.system .notADirectory path.text) := by
  obtain ⟨location, bytes, hpre, hne, hfile⟩ := hblocked
  obtain ⟨front, hfront, rfl⟩ := h.exists_front hpath hpre (hfile ▸ nofun)
  rw [h.place_of_descending hpath] at hne
  rw [h.resolve_of_descending hpath, if_neg hlong,
    h.walk_of_file (forall_isProper hpath) hfront (fun heq => hne (heq ▸ rfl)) hfile]
  rfl

theorem Sound.resolve_of_clear (h : files.Sound) (hpath : path.Descending) (hlong : ¬ path.TooLong)
    (hclear : ¬ files.Blocked path) :
    files.resolve path.text = .ok (files.place path) ∨
      (files.resolve path.text = .error (.system .notFound path.text) ∧
        ∃ location, location <+: files.place path ∧ location ≠ files.place path ∧
        files.node? location = none) := by
  have hplace := h.place_of_descending hpath
  rw [h.resolve_of_descending hpath, if_neg hlong, hplace]
  have hbelow {front : List FileName} (hfront : front <+: path.names.map Utf8.nameBytes) :
      files.origin path ++ front <+: files.origin path ++ path.names.map Utf8.nameBytes :=
    (List.prefix_append_right_inj _).mpr hfront
  obtain hwalk | ⟨hwalk, front, hfront, hne, hnone⟩ := walk_of_no_file (forall_isProper hpath)
    fun front bytes hfront hne hfile => hclear ⟨files.origin path ++ front,
    bytes, hplace ▸ hbelow hfront,
      fun heq => hne (List.append_cancel_left (heq.trans hplace)), hfile⟩
  · rw [hwalk]
    exact .inl rfl
  · rw [hwalk]
    exact .inr ⟨rfl, _, hbelow hfront, fun heq => hne (List.append_cancel_left heq), hnone⟩

theorem Sound.resolve_of_directories (h : files.Sound)
    (hpath : path.Descending) (hlong : ¬ path.TooLong)
    (hway : ∀ location, location <+: files.place path → location ≠ files.place path →
      files.node? location = some .directory) :
      files.resolve path.text = .ok (files.place path) := by
  have hclear : ¬ files.Blocked path := by
    rintro ⟨location, bytes, hpre, hne, hfile⟩
    cases (hway location hpre hne).symm.trans hfile
  obtain hok | ⟨-, location, hpre, hne, hnone⟩ := h.resolve_of_clear hpath hlong hclear
  · exact hok
  · cases (hway location hpre hne).symm.trans hnone

/-- Where no file stands on the way, reading gives what is at the place, whether it can be reached
or not. -/
theorem Sound.read_of_clear (h : files.Sound) (hpath : path.Descending) (hlong : ¬ path.TooLong)
    (hclear : ¬ files.Blocked path) : files.read path.text =
      match files.node? (files.place path) with
      | none => .error (.system .notFound path.text)
      | some .directory => .error (.system .isADirectory path.text)
      | some (.file bytes) => .ok bytes := by
  obtain hok | ⟨herror, location, hpre, hne, hnone⟩ := h.resolve_of_clear hpath hlong hclear
  · rw [read, lookup, hok]
    rfl
  · have hplace : files.node? (files.place path) = none := by
      by_contra hthere
      cases (h.directory_of_prefix hpre hne hthere).symm.trans hnone
    rw [read, lookup, herror, hplace]
    rfl

theorem resolve_of_tooLong (hpath : path.Descending) (hlong : path.TooLong) :
    files.resolve path.text = .error (.system .nameTooLong path.text) := by
  rw [FileSystem.resolve_of_descending hpath, if_pos hlong]

theorem read_of_error {error : FileError} (h : files.resolve path.text = .error error) :
    files.read path.text = .error error := by
  rw [read, lookup, h]
  rfl

theorem read_of_file {path : Text} {bytes : ByteArray} (h : files.resolve path = .ok location)
    (hfile : files.node? location = some (.file bytes)) : files.read path = .ok bytes := by
  have hlookup : files.lookup path = .ok (some (.file bytes)) := by
    rw [lookup, h]
    exact congrArg Except.ok hfile
  rw [read, hlookup]
  rfl

/-- Two file systems are the same for a path: the same files stand on its way, and at its place is
the same. -/
structure SameFor (path : Path) (a b : FileSystem) : Prop where
  workingDirectory : b.workingDirectory = a.workingDirectory
  node : b.node? (a.place path) = a.node? (a.place path)
  file : ∀ location bytes, location <+: a.place path →
    (b.node? location = some (.file bytes) ↔ a.node? location = some (.file bytes))

namespace SameFor

theorem place (h : SameFor path a b) : b.place path = a.place path :=
  place_congr h.workingDirectory path

theorem trans {c : FileSystem} (hab : SameFor path a b)
    (hbc : SameFor path b c) : SameFor path a c where
  workingDirectory := hbc.workingDirectory.trans hab.workingDirectory
  node := by
    have hnode := hbc.node
    rw [hab.place] at hnode
    exact hnode.trans hab.node
  file := by
    intro location bytes hpre
    exact (hbc.file location bytes (hab.place ▸ hpre)).trans (hab.file location bytes hpre)

theorem symm (h : SameFor path a b) : SameFor path b a where
  workingDirectory := h.workingDirectory.symm
  node := by
    rw [h.place]
    exact h.node.symm
  file := by
    rw [h.place]
    exact fun location bytes hpre => (h.file location bytes hpre).symm

theorem put (h : SameFor path a b) (hne : a.place path ≠ []) (node : FileNode) :
    SameFor path (a.put (a.place path) node) (b.put (a.place path) node) where
  workingDirectory := h.workingDirectory
  node := by
    have hplace : (a.put (a.place path) node).place path = a.place path := rfl
    rw [hplace, node?_put hne, node?_put hne, if_pos rfl, if_pos rfl]
  file := by
    intro location bytes hpre
    rw [node?_put hne, node?_put hne]
    split
    · exact Iff.rfl
    · exact h.file location bytes hpre

theorem blocked_iff (h : SameFor path a b) : b.Blocked path ↔ a.Blocked path :=
  blocked_congr h.place h.file

theorem read (h : SameFor path a b) (ha : a.Sound) (hb : b.Sound) (hpath : path.Descending) :
    b.read path.text = a.read path.text := by
  by_cases hlong : path.TooLong
  · rw [read_of_error (resolve_of_tooLong hpath hlong),
      read_of_error (resolve_of_tooLong hpath hlong)]
  by_cases hblocked : a.Blocked path
  · rw [read_of_error (ha.resolve_of_blocked hpath hlong hblocked),
      read_of_error (hb.resolve_of_blocked hpath hlong (h.blocked_iff.mpr hblocked))]
  · rw [ha.read_of_clear hpath hlong hblocked,
      hb.read_of_clear hpath hlong (mt h.blocked_iff.mp hblocked),
      h.place, h.node]

theorem readText (h : SameFor path a b) (ha : a.Sound) (hb : b.Sound) (hpath : path.Descending) :
    b.readText path.text = a.readText path.text := by
  rw [FileSystem.readText, FileSystem.readText, h.read ha hb hpath]

end SameFor

theorem Changes.sameFor {written made : Location → Prop} (h : Changes written made a b)
    (hwritten : ∀ location, location <+: a.place path → ¬ written location)
    (hmade : made (a.place path) → a.node? (a.place path) ≠ none) : SameFor path a b where
  workingDirectory := h.workingDirectory
  node := by
    obtain hsame | hplace | ⟨hplace, hnone, -⟩ := h.node (a.place path)
    · exact hsame
    · exact absurd hplace (hwritten _ List.prefix_rfl)
    · exact absurd hnone (hmade hplace)
  file := by
    intro location bytes hpre
    obtain hsame | hplace | ⟨-, hnone, hdirectory⟩ := h.node location
    · rw [hsame]
    · exact absurd hplace (hwritten _ hpre)
    · rw [hnone, hdirectory]
      exact iff_of_false nofun nofun

theorem update_of_ok {path : Text} (h : files.resolve path = .ok location)
    (change : ByteArray → ByteArray) :
    files.update path change =
      match files.node? location with
      | none => .ok (files.put location (.file (change .empty)))
      | some .directory => .error (.system .isADirectory path)
      | some (.file bytes) => .ok (files.put location (.file (change bytes))) := by
  rw [update, h]
  rfl

theorem write_of_error {path : Text} {error : FileError}
    (h : files.resolve path = .error error) (text : Text) :
    files.write path text = (.error error, files) := by
  rw [write, update, h]
  rfl

theorem write_of_directory {path : Text} (h : files.resolve path = .ok location)
    (hnode : files.node? location = some .directory) (text : Text) :
    files.write path text = (.error (.system .isADirectory path), files) := by
  rw [write, update_of_ok h, hnode]

theorem write_of_ok {path : Text} (h : files.resolve path = .ok location)
    (hnode : files.node? location ≠ some .directory) (text : Text) :
    files.write path text = (((Utf8.encode text).map fun _ => ()).mapError .unencodable,
      files.put location (.file ((Utf8.encode text).toOption.getD .empty))) := by
  rw [write, update_of_ok h]
  cases hsome : files.node? location with
  | none => rfl
  | some node =>
    cases node with
    | file bytes => rfl
    | directory => exact absurd hsome hnode

/-- Where a path leads to its place in both of two file systems, or fails in both for the same
reason, and all is the same for it, writing does the same. -/
theorem SameFor.write (h : SameFor path a b) (text : Text)
    (hresolve : (a.resolve path.text = .ok (a.place path) ∧
      b.resolve path.text = .ok (a.place path)) ∨
      ∃ error, a.resolve path.text = .error error ∧ b.resolve path.text = .error error) :
    (b.write path.text text).1 = (a.write path.text text).1 ∧
      SameFor path (a.write path.text text).2 (b.write path.text text).2 := by
  obtain ⟨ha, hb⟩ | ⟨error, ha, hb⟩ := hresolve
  · by_cases hnode : a.node? (a.place path) = some .directory
    · rw [write_of_directory ha hnode, write_of_directory hb (h.node.trans hnode)]
      exact ⟨rfl, h⟩
    · rw [write_of_ok ha hnode, write_of_ok hb (h.node ▸ hnode)]
      refine ⟨rfl, h.put ?_ _⟩
      intro hroot
      rw [hroot] at hnode
      exact hnode rfl
  · rw [write_of_error ha, write_of_error hb]
    exact ⟨rfl, h⟩

end FileSystem
end CatalogPress
