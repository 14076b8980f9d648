import CatalogPress.Proofs.Files.Place

/-!
Which code points a path holds decides in which errors the file operations may end: those of the
file system alone if all of them have bytes and none is NUL, and without a NUL at least none that is
about one.
-/
namespace CatalogPress

def Path.All (q : CodePoint → Prop) (path : Path) : Prop :=
  ∀ name ∈ path.names, ∀ point ∈ name.points, q point

def CodePoint.NotNul (point : CodePoint) : Prop :=
  point ≠ .char '\x00'

instance : DecidablePred CodePoint.NotNul :=
  fun point => inferInstanceAs (Decidable (point ≠ _))

def FileError.NotNul (error : FileError) : Prop :=
  error ≠ .nulInPath

theorem FileError.notNul_system (fault : SystemFault) (path : Text) :
    (system fault path).NotNul := nofun

theorem FileError.notNul_unencodable (fault : Utf8.Unencodable) :
    (unencodable fault).NotNul := nofun

theorem Utf8.zero_not_mem_nameBytes {text : Text} (h : ∀ point ∈ text.points, point.NotNul) :
    0 ∉ nameBytes text := by
  intro hzero
  obtain ⟨point, hpoint, hzero⟩ := List.mem_flatMap.mp hzero
  cases hbytes : nameBytes? point with
  | none =>
    rw [hbytes] at hzero
    cases hzero
  | some bytes =>
    rw [hbytes] at hzero
    obtain ⟨c, hascii, rfl, rfl⟩ | ⟨-, hhigh⟩ := nameBytes?_cases hbytes
    · have hvalue := congrArg UInt8.toNat (List.mem_singleton.mp hzero)
      rw [toNat_ofNat (by omega)] at hvalue
      exact h _ hpoint (congrArg CodePoint.char (toNat_injective hvalue.symm))
    · have hlow := hhigh 0 hzero
      revert hlow
      decide

namespace FileSystem
open Fallible

/-- Following a path whose code points are of one kind fails with errors of one kind, among them
those of the file system. -/
structure Guards (q : CodePoint → Prop) (p : FileError → Prop) : Prop where
  slash : q Path.slash
  point : q (.char '.')
  system : ∀ fault path, p (.system fault path)
  resolve : ∀ (files : FileSystem) (text : Text), (∀ point ∈ text.points, q point) →
    FailsWith p (files.resolve text)

theorem guards_any : Guards (fun _ => True) fun _ => True where
  slash := trivial
  point := trivial
  system := fun _ _ => trivial
  resolve := fun _ _ _ _ _ => trivial

theorem guards_nameable : Guards CodePoint.Nameable FileError.IsSystem where
  slash := by decide
  point := by decide
  system := fun fault path => ⟨fault, path, rfl⟩
  resolve := fun files text => (failsWith_resolve files text).mpr

theorem guards_notNul : Guards CodePoint.NotNul FileError.NotNul where
  slash := by decide
  point := by decide
  system := FileError.notNul_system
  resolve := by
    intro files text h
    cases hbytes : Utf8.encodeName text with
    | error fault =>
      rw [FileSystem.resolve, hbytes]
      exact failsWith_error.mpr (FileError.notNul_unencodable fault)
    | ok bytes =>
      have hzero : 0 ∉ bytes :=
        (Utf8.encodeName_eq_ok_iff.mp hbytes).2 ▸ Utf8.zero_not_mem_nameBytes h
      rw [resolve_eq hbytes, if_neg fun hcontains => hzero (List.contains_iff_mem.mp hcontains)]
      split
      · exact failsWith_error.mpr (FileError.notNul_system _ _)
      split
      · exact failsWith_error.mpr (FileError.notNul_system _ _)
      · exact failsWith_mapError.mpr fun _ _ => FileError.notNul_system _ _

def ensureLast (files : FileSystem) (path : Text) : Except FileError Unit × FileSystem :=
  match files.ensureDirectory path with
  | .ok made => (.ok (), made)
  | .error error => (.error error, files)

namespace Guards
variable {q : CodePoint → Prop} {p : FileError → Prop} {files : FileSystem}
  {text : Text} {path : Path}

theorem pathText (h : Guards q p) (hpath : path.All q) : ∀ point ∈ path.text.points, q point := by
  intro point hpoint
  unfold Path.text at hpoint
  split at hpoint
  · rw [List.mem_singleton.mp hpoint]
    exact h.point
  · obtain hslashes | hnames := List.mem_append.mp hpoint
    · rw [List.eq_of_mem_replicate hslashes]
      exact h.slash
    · obtain rfl | ⟨points, hpoints, hpoint⟩ := Text.eq_or_exists_of_mem_intercalate hnames
      · exact h.slash
      · obtain ⟨name, hname, rfl⟩ := List.mem_map.mp hpoints
        exact hpath name hname point hpoint

theorem read (h : Guards q p) (files : FileSystem) (htext : ∀ point ∈ text.points, q point) :
    FailsWith p (files.read text) := by
  refine failsWith_bind.mpr ⟨failsWith_map.mpr (h.resolve files text htext), fun node _ => ?_⟩
  split
  · exact failsWith_error.mpr (h.system _ _)
  · exact failsWith_error.mpr (h.system _ _)
  · exact failsWith_ok

theorem update (h : Guards q p) (files : FileSystem) (htext : ∀ point ∈ text.points, q point)
    (change : ByteArray → ByteArray) : FailsWith p (files.update text change) := by
  refine failsWith_bind.mpr ⟨h.resolve files text htext, fun location _ => ?_⟩
  split
  · exact failsWith_ok
  · exact failsWith_error.mpr (h.system _ _)
  · exact failsWith_ok

theorem dropTrailingSlashes (h : Guards q p) (htext : ∀ point ∈ text.points, q point) :
    ∀ point ∈ (dropTrailingSlashes text).points, q point := by
  intro point hpoint
  unfold FileSystem.dropTrailingSlashes at hpoint
  dsimp only at hpoint
  split at hpoint
  · rw [List.mem_singleton.mp hpoint]
    exact h.slash
  · exact htext point
      (List.mem_reverse.mp ((List.dropWhile_sublist _).subset (List.mem_reverse.mp hpoint)))

theorem ensureDirectory (h : Guards q p) (files : FileSystem)
    (htext : ∀ point ∈ text.points, q point) :
    FailsWith p (files.ensureDirectory text) := by
  have hmake : FailsWith p (files.makeDirectory text) := by
    refine failsWith_bind.mpr ⟨failsWith_mapError.mpr fun error herror => ?_, fun location _ => ?_⟩
    · have hresolve := h.resolve files _ (h.dropTrailingSlashes htext) error herror
      cases error with
      | system fault path => exact h.system _ _
      | nulInPath | unencodable => exact hresolve
    · split
      · exact failsWith_error.mpr (h.system _ _)
      · exact failsWith_ok
  rw [FileSystem.ensureDirectory]
  split
  · exact failsWith_ok
  · rename_i error herror
    split
    · exact failsWith_ok
    · exact failsWith_error.mpr (hmake error herror)

theorem ensureLast (h : Guards q p) (files : FileSystem) (htext : ∀ point ∈ text.points, q point) :
    FailsWith p (files.ensureLast text).1 := by
  unfold FileSystem.ensureLast
  split
  · exact failsWith_ok
  · rename_i error herror
    exact failsWith_error.mpr (h.ensureDirectory files htext error herror)

theorem ensureNames (h : Guards q p) (slashes : Nat) {above : List Text} (files : FileSystem)
    (hnames : ∀ name ∈ above, ∀ point ∈ name.points, q point) :
    FailsWith p (ensureNames slashes above files).1 := by
  have hpath : (⟨slashes, above.reverse⟩ : Path).All q :=
    fun name hname => hnames name (List.mem_reverse.mp hname)
  induction above with
  | nil => exact h.ensureLast files (h.pathText hpath)
  | cons name above ih =>
    have htext := h.pathText hpath
    have hfirst := h.ensureDirectory files htext
    obtain ⟨-, habove⟩ := List.forall_mem_cons.mp hnames
    have hrest := ih habove fun name hname => habove name (List.mem_reverse.mp hname)
    rw [FileSystem.ensureNames]
    split
    · exact failsWith_ok
    · rename_i error herror
      split
      · split
        · exact h.ensureLast _ htext
        · rename_i heq
          rwa [heq] at hrest
      · exact failsWith_error.mpr (hfirst error herror)

end Guards
end FileSystem
end CatalogPress
