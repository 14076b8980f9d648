import CatalogPress.Proofs.Files.Descending

/-!
Making the directories of a descending path. A file anywhere on the way is the only obstacle, and
then nothing is made; otherwise every directory on the way is there afterwards.
-/
namespace CatalogPress

namespace Path
variable {path : Path} {slashes : Nat} {names : List Text} {name : Text}

theorem Descending.parent (h : path.Descending) : path.parent.Descending where
  slashes := h.slashes
  names := fun name hname => h.names name (List.dropLast_subset _ hname)

theorem parent_cases (path : Path) : (path.names = [] ∧ path.parent = path) ∨
    ∃ slashes names name, path = ⟨slashes, names ++ [name]⟩ ∧ path.parent = ⟨slashes, names⟩ := by
  obtain ⟨slashes, names⟩ := path
  obtain rfl | ⟨names, name, rfl⟩ := List.eq_nil_or_concat' names
  · exact .inl ⟨rfl, rfl⟩
  · refine .inr ⟨slashes, names, name, rfl, ?_⟩
    rw [Path.parent, List.dropLast_concat]

theorem exists_reverse (path : Path) :
    ∃ slashes, ∃ above : List Text, path = ⟨slashes, above.reverse⟩ :=
  ⟨path.slashes, path.names.reverse, by rw [List.reverse_reverse]⟩

theorem descending_empty (h : slashes ≤ 2) : (⟨slashes, []⟩ : Path).Descending :=
  ⟨h, nofun⟩

theorem Descending.of_concat (h : (⟨slashes, names ++ [name]⟩ : Path).Descending) :
    (⟨slashes, names⟩ : Path).Descending :=
  ⟨h.slashes, fun other hother => h.names other (List.mem_append_left _ hother)⟩

theorem points_text_concat (slashes : Nat) (h : names ≠ []) (name : Text) :
    (text ⟨slashes, names ++ [name]⟩).points =
      (text ⟨slashes, names⟩).points ++ slash :: name.points := by
  rw [points_text, points_text, if_neg fun hempty => List.append_ne_nil_of_left_ne_nil h _ hempty.2,
    if_neg fun hempty => h hempty.2, List.map_append, List.append_assoc]
  exact congrArg _ (Text.intercalate_concat (by rwa [ne_eq, List.map_eq_nil_iff]) _)

theorem not_tooLong_empty : ∀ {slashes : Nat}, slashes ≤ 2 → ¬ (⟨slashes, []⟩ : Path).TooLong
  | 0, _ | 1, _ | 2, _ => by decide

theorem not_tooLong_of_concat (hslashes : slashes ≤ 2)
    (hlong : ¬ (⟨slashes, names ++ [name]⟩ : Path).TooLong) :
    ¬ (⟨slashes, names⟩ : Path).TooLong := by
  by_cases hnames : names = []
  · rw [hnames]
    exact not_tooLong_empty hslashes
  · have hbytes : Utf8.nameBytes (text ⟨slashes, names ++ [name]⟩) =
        Utf8.nameBytes (text ⟨slashes, names⟩) ++ Utf8.nameBytes ⟨slash :: name.points⟩ :=
      (congrArg (Utf8.nameBytes ⟨·⟩) (points_text_concat slashes hnames name)).trans
        List.flatMap_append
    unfold TooLong at hlong ⊢
    rw [hbytes, List.length_append] at hlong
    omega

end Path

namespace FileSystem
open Fallible

variable {files made : FileSystem} {path : Path} {location : Location} {fault : SystemFault}
  {slashes : Nat} {names : List Text} {name : Text}

theorem dropTrailingSlashes_text (h : path.Descending)
    (hroot : path.isAbsolute = true → path.names ≠ []) :
    dropTrailingSlashes path.text = path.text := by
  obtain ⟨points, point, hpoints, hslash⟩ := Path.exists_text_concat h hroot
  have hkept : (path.text.points.reverse.dropWhile (· = Path.slash)).reverse =
      path.text.points := by
    rw [hpoints, List.reverse_append, List.reverse_singleton, List.singleton_append,
      List.dropWhile_cons_of_neg (by simpa using hslash), List.reverse_cons, List.reverse_reverse]
  unfold dropTrailingSlashes
  dsimp only
  rw [hkept, if_neg]
  rintro ⟨hempty, -⟩
  rw [hpoints] at hempty
  cases points <;> cases hempty

theorem resolve_empty (hslashes : slashes ≤ 2) (h : slashes ≠ 0) :
    files.resolve (Path.text ⟨slashes, []⟩) = .ok [] := by
  have habsolute : (⟨slashes, []⟩ : Path).isAbsolute = true := decide_eq_true h
  rw [resolve_of_descending (Path.descending_empty hslashes),
    if_neg (Path.not_tooLong_empty hslashes), origin, if_pos habsolute]
  rfl

theorem resolve_dropTrailingSlashes (h : path.Descending) :
    files.resolve (dropTrailingSlashes path.text) = files.resolve path.text := by
  by_cases hroot : path.isAbsolute = true → path.names ≠ []
  · rw [dropTrailingSlashes_text h hroot]
  obtain ⟨slashes, names⟩ := path
  obtain ⟨habsolute, hnames⟩ := Classical.not_imp.mp hroot
  obtain rfl : names = [] := not_not.mp hnames
  have hslashes : slashes ≠ 0 := of_decide_eq_true habsolute
  have hdrop : ∀ {slashes : Nat}, slashes ≤ 2 → slashes ≠ 0 →
      dropTrailingSlashes (Path.text ⟨slashes, []⟩) = Path.text ⟨1, []⟩
    | 0, _, h => absurd rfl h
    | 1, _, _ | 2, _, _ => rfl
  rw [hdrop h.slashes hslashes, resolve_empty (by decide) (by decide),
    resolve_empty h.slashes hslashes]

theorem makeDirectory_of_error (h : path.Descending)
    (hresolve : files.resolve path.text = .error (.system fault path.text)) :
    files.makeDirectory path.text = .error (.system fault path.text) := by
  rw [makeDirectory, resolve_dropTrailingSlashes h, hresolve]
  rfl

theorem makeDirectory_of_ok (h : path.Descending)
    (hresolve : files.resolve path.text = .ok location) :
    files.makeDirectory path.text =
      match files.node? location with
      | some _ => .error (.system .alreadyExists path.text)
      | none => .ok (files.put location .directory) := by
  rw [makeDirectory, resolve_dropTrailingSlashes h, hresolve]
  rfl

theorem ensureDirectory_of_error (h : path.Descending)
    (hresolve : files.resolve path.text = .error (.system fault path.text)) :
    files.ensureDirectory path.text = .error (.system fault path.text) := by
  rw [ensureDirectory, makeDirectory_of_error h hresolve, isDirectory, lookup, hresolve]
  rfl

theorem ensureDirectory_of_ok (h : path.Descending)
    (hresolve : files.resolve path.text = .ok location) :
    files.ensureDirectory path.text =
      match files.node? location with
      | none => .ok (files.put location .directory)
      | some .directory => .ok files
      | some (.file _) => .error (.system .alreadyExists path.text) := by
  have hlookup : files.lookup path.text = .ok (files.node? location) := by
    rw [lookup, hresolve]
    rfl
  rw [ensureDirectory, makeDirectory_of_ok h hresolve]
  cases hnode : files.node? location with
  | none => rfl
  | some node =>
    dsimp only
    rw [isDirectory, hlookup, hnode]
    cases node <;> rfl

/-- Afterwards a path leads through directories, and only those that were missing are new. -/
structure Made (path : Path) (before after : FileSystem) : Prop where
  changes : Changes (fun _ => False) (· <+: before.place path) before after
  directory : ∀ location, location <+: before.place path → after.node? location = some .directory

theorem Sound.place_empty (h : files.Sound) (hslashes : slashes ≤ 2) :
    files.place ⟨slashes, []⟩ = files.origin ⟨slashes, []⟩ := by
  rw [h.place_of_descending (Path.descending_empty hslashes)]
  exact List.append_nil _

theorem Sound.ensureDirectory_empty (h : files.Sound) (hslashes : slashes ≤ 2) :
    files.ensureDirectory (Path.text ⟨slashes, []⟩) = .ok files := by
  have hpath := Path.descending_empty hslashes
  have hresolve : files.resolve (Path.text ⟨slashes, []⟩) = .ok (files.origin ⟨slashes, []⟩) := by
    rw [h.resolve_of_descending hpath, if_neg (Path.not_tooLong_empty hslashes)]
    rfl
  rw [ensureDirectory_of_ok hpath hresolve, h.node?_origin]

theorem Sound.place_concat (h : files.Sound)
    (hpath : (⟨slashes, names ++ [name]⟩ : Path).Descending) :
    files.place ⟨slashes, names ++ [name]⟩ = files.place ⟨slashes, names⟩ ++
      [Utf8.nameBytes name] := by
  rw [h.place_of_descending hpath, h.place_of_descending hpath.of_concat,
    List.map_append, ← List.append_assoc]
  rfl

theorem Sound.directories_of_above (h : files.Sound) {above place : Location} {name : FileName}
    (hplace : place = above ++ [name]) (habove : files.node? above = some .directory) :
    ∀ location, location <+: place → location ≠ place → files.node? location = some .directory := by
  intro location hpre hne
  subst hplace
  exact h.directory_above habove ((List.prefix_concat_iff.mp hpre).resolve_left hne)

theorem Sound.exists_made (h : files.Sound) (hpath : path.Descending) (hlong : ¬ path.TooLong)
    (hway : ∀ location, location <+: files.place path → location ≠ files.place path →
      files.node? location = some .directory)
    (hplace : ∀ bytes, files.node? (files.place path) ≠ some (.file bytes)) :
    ∃ made, files.ensureDirectory path.text = .ok made ∧ Made path files made := by
  have hresolve := h.resolve_of_directories hpath hlong hway
  rw [ensureDirectory_of_ok hpath hresolve]
  obtain ⟨-, hin⟩ := h.resolve hresolve
  cases hnode : files.node? (files.place path) with
  | none =>
    have hdirectory := hin.resolve_left (hnode ▸ nofun)
    refine ⟨_, rfl, changes_put h hdirectory (hnode ▸ nofun) (.inr ⟨List.prefix_rfl, hnode, rfl⟩),
      ?_⟩
    intro location hpre
    rw [node?_put hdirectory.ne_nil]
    split
    · rfl
    · rename_i hne
      exact hway location hpre hne
  | some node =>
    cases node with
    | file bytes => exact absurd hnode (hplace bytes)
    | directory =>
      refine ⟨files, rfl, .refl h, fun location hpre => ?_⟩
      by_cases heq : location = files.place path
      · rw [heq, hnode]
      · exact hway location hpre heq

theorem Sound.directory_of_resolve (h : files.Sound) {text : Text}
    {above : Location} {name : FileName} (hresolve : files.resolve text = .ok (above ++ [name])) :
    files.node? above = some .directory := by
  obtain hdirectory | ⟨directory, last, heq, hdirectory⟩ := (h.resolve hresolve).2
  · have hthere : files.node? (above ++ [name]) ≠ none := hdirectory ▸ nofun
    exact h.grounded _ _ hthere
  · rwa [(List.append_inj' heq rfl).1]

theorem Made.exists_made {middle : FileSystem} {names : List Text} {name : Text} (h : files.Sound)
    (hmiddle : Made ⟨slashes, names⟩ files middle)
    (hpath : (⟨slashes, names ++ [name]⟩ : Path).Descending)
    (hlong : ¬ (⟨slashes, names ++ [name]⟩ : Path).TooLong)
    (hclear : ∀ bytes, files.node? (files.place ⟨slashes, names ++ [name]⟩) ≠ some (.file bytes)) :
    ∃ made, middle.ensureDirectory (Path.text ⟨slashes, names ++ [name]⟩) = .ok made ∧
      Made ⟨slashes, names ++ [name]⟩ files made := by
  have hsound := hmiddle.changes.sound
  have hsame (path : Path) : middle.place path = files.place path :=
    place_congr hmiddle.changes.workingDirectory path
  have habove : middle.node? (middle.place ⟨slashes, names⟩) = some .directory := by
    rw [hsame]
    exact hmiddle.directory _ List.prefix_rfl
  have hnofile (bytes : ByteArray) :
      middle.node? (middle.place ⟨slashes, names ++ [name]⟩) ≠ some (.file bytes) := by
    rw [hsame]
    obtain heq | hfalse | ⟨-, -, hdirectory⟩ :=
      hmiddle.changes.node (files.place ⟨slashes, names ++ [name]⟩)
    · rw [heq]
      exact hclear bytes
    · exact hfalse.elim
    · rw [hdirectory]
      exact nofun
  obtain ⟨made, hensure, hmade⟩ := hsound.exists_made hpath hlong
    (hsound.directories_of_above (hsound.place_concat hpath) habove) hnofile
  have hlast := hmade.changes
  have hdirectory := hmade.directory
  rw [hsame] at hlast hdirectory
  refine ⟨made, hensure, (hmiddle.changes.mono (fun _ => id) fun location hpre => ?_).trans hlast,
    hdirectory⟩
  exact hpre.trans (h.place_concat hpath ▸ List.prefix_append _ _)

/-- Where no file stands on the way and none at the place, all directories are made that are
missing. -/
theorem Sound.ensureNames_of_clear (h : files.Sound) {above : List Text}
    (hpath : (⟨slashes, above.reverse⟩ : Path).Descending)
    (hlong : ¬ (⟨slashes, above.reverse⟩ : Path).TooLong)
    (hclear : ∀ location bytes, location <+: files.place ⟨slashes, above.reverse⟩ →
      files.node? location ≠ some (.file bytes)) :
    ∃ made, ensureNames slashes above files = (.ok (), made) ∧
      Made ⟨slashes, above.reverse⟩ files made := by
  induction above with
  | nil =>
    have hslashes := hpath.slashes
    refine ⟨files, ?_, .refl h, fun location hpre => ?_⟩
    · rw [ensureNames, h.ensureDirectory_empty hslashes]
    · exact h.directory_above (h.node?_origin _) (h.place_empty hslashes ▸ hpre)
  | cons name above ih =>
    rw [List.reverse_cons] at hpath hlong hclear ⊢
    have hplace := h.place_concat hpath
    have hblocked : ¬ files.Blocked ⟨slashes, above.reverse ++ [name]⟩ := by
      rintro ⟨location, bytes, hpre, -, hfile⟩
      exact hclear location bytes hpre hfile
    rw [ensureNames, List.reverse_cons]
    obtain hresolve | ⟨herror, -⟩ := h.resolve_of_clear hpath hlong hblocked
    · have habove := h.directory_of_resolve (hplace ▸ hresolve)
      obtain ⟨made, hensure, hmade⟩ :=
        h.exists_made hpath hlong (h.directories_of_above hplace habove)
          (fun bytes => hclear _ bytes List.prefix_rfl)
      exact ⟨made, by rw [hensure], hmade⟩
    · obtain ⟨middle, hfirst, hmiddle⟩ :=
        ih hpath.of_concat (Path.not_tooLong_of_concat hpath.slashes hlong)
          (fun location bytes hpre =>
            hclear location bytes (hpre.trans (hplace ▸ List.prefix_append _ _)))
      obtain ⟨made, hensure, hmade⟩ := hmiddle.exists_made h hpath hlong
        (fun bytes => hclear _ bytes List.prefix_rfl)
      refine ⟨made, ?_, hmade⟩
      rw [ensureDirectory_of_error hpath herror]
      dsimp only
      rw [if_pos rfl, hfirst]
      dsimp only
      rw [hensure]

theorem ensureNames_of_error {slashes : Nat} {above : List Text} {error : FileError}
    (h : files.ensureDirectory (Path.text ⟨slashes, above.reverse⟩) = .error error)
    (hne : error ≠ .system .notFound (Path.text ⟨slashes, above.reverse⟩)) :
    ensureNames slashes above files = (.error error, files) := by
  cases above with
  | nil =>
    rw [List.reverse_nil] at h
    rw [ensureNames, h]
  | cons name above =>
    rw [ensureNames, h]
    exact if_neg hne

theorem ensureDirectories_reverse (slashes : Nat) (above : List Text) :
    files.ensureDirectories ⟨slashes, above.reverse⟩ = ensureNames slashes above files := by
  rw [ensureDirectories, List.reverse_reverse]

inductive Obstacle (files : FileSystem) (path : Path) : SystemFault → Prop
  | tooLong : path.TooLong → Obstacle files path .nameTooLong
  | blocked : ¬ path.TooLong → files.Blocked path → Obstacle files path .notADirectory
  | file {bytes : ByteArray} : ¬ path.TooLong → ¬ files.Blocked path →
      files.node? (files.place path) = some (.file bytes) → Obstacle files path .alreadyExists

theorem Sound.ensureDirectories_of_obstacle (h : files.Sound) (hpath : path.Descending)
    (hobstacle : Obstacle files path fault) :
    files.ensureDirectories path = (.error (.system fault path.text), files) := by
  have herror (h : files.ensureDirectory path.text = .error (.system fault path.text))
      (hfault : fault ≠ .notFound) :
      files.ensureDirectories path = (.error (.system fault path.text), files) := by
    obtain ⟨slashes, above, rfl⟩ := path.exists_reverse
    rw [ensureDirectories_reverse]
    exact ensureNames_of_error h fun heq => hfault (FileError.system.inj heq).1
  cases hobstacle with
  | tooLong hlong =>
    exact herror (ensureDirectory_of_error hpath (resolve_of_tooLong hpath hlong)) nofun
  | blocked hlong hblocked =>
    exact herror (ensureDirectory_of_error hpath (h.resolve_of_blocked hpath hlong hblocked)) nofun
  | file hlong hclear hfile =>
    refine herror ?_ nofun
    obtain hresolve | ⟨-, location, hpre, hne, hnone⟩ := h.resolve_of_clear hpath hlong hclear
    · rw [ensureDirectory_of_ok hpath hresolve, hfile]
    · have hthere : files.node? (files.place path) ≠ none := hfile ▸ nofun
      cases (h.directory_of_prefix hpre hne hthere).symm.trans hnone

theorem Sound.exists_obstacle_or_made (h : files.Sound) (hpath : path.Descending) :
    (∃ fault, Obstacle files path fault) ∨
      ∃ made, files.ensureDirectories path = (.ok (), made) ∧ Made path files made := by
  by_cases hlong : path.TooLong
  · exact .inl ⟨_, .tooLong hlong⟩
  by_cases hblocked : files.Blocked path
  · exact .inl ⟨_, .blocked hlong hblocked⟩
  by_cases hfile : ∃ bytes, files.node? (files.place path) = some (.file bytes)
  · obtain ⟨bytes, hfile⟩ := hfile
    exact .inl ⟨_, .file hlong hblocked hfile⟩
  refine .inr ?_
  obtain ⟨slashes, above, rfl⟩ := path.exists_reverse
  rw [ensureDirectories_reverse]
  refine h.ensureNames_of_clear hpath hlong fun location bytes hpre hnode => ?_
  by_cases heq : location = files.place ⟨slashes, above.reverse⟩
  · exact hfile ⟨bytes, heq ▸ hnode⟩
  · exact hblocked ⟨location, bytes, hpre, heq, hnode⟩

theorem Obstacle.congr {other : FileSystem} (h : Obstacle files path fault)
    (hplace : other.place path = files.place path)
    (hfile : ∀ location bytes, location <+: files.place path →
      (other.node? location = some (.file bytes) ↔ files.node? location = some (.file bytes))) :
    Obstacle other path fault := by
  have hblocked := blocked_congr hplace hfile
  cases h with
  | tooLong hlong => exact .tooLong hlong
  | blocked hlong h => exact .blocked hlong (hblocked.mpr h)
  | file hlong hclear h =>
    exact .file hlong (mt hblocked.mp hclear) (hplace ▸ (hfile _ _ List.prefix_rfl).mpr h)

theorem Sound.place_parent (h : files.Sound) (hpath : path.Descending) :
    files.place path.parent <+: files.place path := by
  obtain ⟨-, hparent⟩ | ⟨slashes, names, name, rfl, hparent⟩ := path.parent_cases
  · simp [hparent]
  · rw [hparent, h.place_concat hpath]
    exact List.prefix_append _ _

theorem Sound.prefix_parent (h : files.Sound) (hpath : path.Descending)
    (hpre : location <+: files.place path) (hne : location ≠ files.place path) :
    location <+: files.place path.parent := by
  obtain ⟨-, hparent⟩ | ⟨slashes, names, name, rfl, hparent⟩ := path.parent_cases
  · rwa [hparent]
  · rw [h.place_concat hpath] at hpre hne
    rw [hparent]
    exact (List.prefix_concat_iff.mp hpre).resolve_left hne

theorem Sound.there_of_prefix_parent (h : files.Sound) (hpath : path.Descending)
    (hpre : files.place path <+: files.place path.parent) :
    files.node? (files.place path) = some .directory := by
  obtain ⟨hnames, -⟩ | ⟨slashes, names, name, rfl, hparent⟩ := path.parent_cases
  · rw [h.place_of_descending hpath, hnames, List.map_nil, List.append_nil, h.node?_origin]
  · rw [hparent, h.place_concat hpath] at hpre
    have hlength := hpre.length_le
    rw [List.length_append, List.length_singleton] at hlength
    omega

/-- Making the directories above a path changes nothing that matters for it. -/
theorem Made.sameFor (h : files.Sound) (hpath : path.Descending)
    (hmade : Made path.parent files made) :
    SameFor path files made :=
  hmade.changes.sameFor (fun _ _ => id) fun hpre => h.there_of_prefix_parent hpath hpre ▸ nofun

theorem Made.resolve (h : files.Sound) (hpath : path.Descending) (hlong : ¬ path.TooLong)
    (hmade : Made path.parent files made) : made.resolve path.text = .ok (files.place path) := by
  have hsame := (hmade.sameFor h hpath).place
  have hway := hmade.changes.sound.resolve_of_directories hpath hlong
  rw [hsame] at hway
  exact hway fun location hpre hne => hmade.directory location (h.prefix_parent hpath hpre hne)

theorem Made.inDirectory (h : files.Sound) (hpath : path.Descending) (hlong : ¬ path.TooLong)
    (hmade : Made path.parent files made)
    (hnode : files.node? (files.place path) ≠ some .directory) :
    made.InDirectory (files.place path) ∧ made.node? (files.place path) ≠ some .directory := by
  have hsame := (hmade.sameFor h hpath).node ▸ hnode
  exact ⟨(hmade.changes.sound.resolve (hmade.resolve h hpath hlong)).2.resolve_left hsame, hsame⟩

end FileSystem
end CatalogPress
