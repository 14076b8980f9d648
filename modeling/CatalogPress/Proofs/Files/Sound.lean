import CatalogPress.Proofs.Files.Place
import CatalogPress.Proofs.Table
import Mathlib.Data.List.Induction

/-!
What keeps a file system in order: everything in it lies in a directory, and operations only add
directories or change what a file holds, at the places that they are for.
-/
namespace CatalogPress.FileSystem
open Fallible

/-- The working directory is there, its path holds names only, and whatever is there lies in a
directory. -/
structure Sound (files : FileSystem) : Prop where
  absolute : files.workingDirectory.isAbsolute = true
  named : ∀ name ∈ files.workingDirectory.names, name.IsName
  there : files.node? files.base = some .directory
  grounded : ∀ location name, files.node? (location ++ [name]) ≠ none →
    files.node? location = some .directory

variable {files before middle after : FileSystem} {location : Location}
  {node : FileNode} {text : Text}

theorem Sound.ne_above (h : files.Sound) : ∀ name ∈ files.workingDirectory.names, name ≠ ".." :=
  fun name hname => (h.named name hname).ne_above

theorem sound_of_nodes (absolute : files.workingDirectory.isAbsolute = true)
    (named : ∀ name ∈ files.workingDirectory.names, name.IsName)
    (there : files.node? files.base = some .directory)
    (above : ∀ node ∈ files.nodes, files.node? node.1.dropLast = some .directory) :
    files.Sound where
  absolute := absolute
  named := named
  there := there
  grounded := by
    intro location name hthere
    have hnode : files.node? (location ++ [name]) = Table.get? (location ++ [name]) files.nodes :=
      if_neg (List.append_ne_nil_of_right_ne_nil _ (List.cons_ne_nil _ _))
    obtain ⟨node, hsome⟩ := Option.ne_none_iff_exists'.mp hthere
    have habove := above _ (Table.mem_of_get? (hnode.symm.trans hsome))
    rwa [List.dropLast_concat] at habove

theorem Sound.directory_of_prefix (h : files.Sound)
    {above below : Location} (hpre : above <+: below) (hne : above ≠ below)
    (hthere : files.node? below ≠ none) : files.node? above = some .directory := by
  obtain ⟨rest, rfl⟩ := hpre
  induction rest using List.reverseRecOn with
  | nil => exact absurd (List.append_nil above).symm hne
  | append_singleton rest name ih =>
    rw [← List.append_assoc] at hthere
    have hrest := h.grounded _ _ hthere
    by_cases hnil : rest = []
    · rwa [hnil, List.append_nil] at hrest
    · refine ih (fun heq => hnil (List.self_eq_append_right.mp heq)) ?_
      rw [hrest]
      exact Option.some_ne_none _

theorem Sound.directory_above (h : files.Sound) {above below : Location}
    (hbelow : files.node? below = some .directory) (hpre : above <+: below) :
    files.node? above = some .directory := by
  by_cases heq : above = below
  · rw [heq, hbelow]
  · exact h.directory_of_prefix hpre heq (hbelow ▸ nofun)

theorem node?_put (hne : location ≠ []) (node : FileNode) (other : Location) :
    (files.put location node).node? other =
      if other = location then some node else files.node? other := by
  unfold node? put
  split_ifs with hroot hsame hsame
  · exact absurd (hsame.symm.trans hroot) hne
  · rfl
  · rw [hsame, Table.get?_put_self]
  · exact Table.get?_put_of_ne hsame _ _

def InDirectory (files : FileSystem) (location : Location) : Prop :=
  ∃ above name, location = above ++ [name] ∧ files.node? above = some .directory

theorem InDirectory.ne_nil (h : files.InDirectory location) : location ≠ [] := by
  obtain ⟨above, name, rfl, -⟩ := h
  exact List.append_ne_nil_of_right_ne_nil _ (List.cons_ne_nil _ _)

theorem Sound.put (h : files.Sound) (hin : files.InDirectory location)
    (hnode : files.node? location ≠ some .directory) (node : FileNode) :
    (files.put location node).Sound where
  absolute := h.absolute
  named := h.named
  there := by
    have hbase : files.base ≠ location := fun heq => hnode (heq ▸ h.there)
    exact (node?_put hin.ne_nil node _).trans ((if_neg hbase).trans h.there)
  grounded := by
    intro above name hthere
    have habove : files.node? above = some .directory := by
      rw [node?_put hin.ne_nil] at hthere
      split at hthere
      · rename_i heq
        obtain ⟨directory, last, rfl, hdirectory⟩ := hin
        rwa [(List.append_inj' heq rfl).1]
      · exact h.grounded above name hthere
    have hne : above ≠ location := by
      rintro rfl
      exact hnode habove
    rw [node?_put hin.ne_nil, if_neg hne, habove]

theorem Sound.walk (h : files.Sound) {names : List FileName} {start : Location}
    (hwalk : files.walk start names = .ok location) (hnames : names ≠ []) :
    files.node? location = some .directory ∨ files.InDirectory location := by
  induction names generalizing start with
  | nil => exact absurd rfl hnames
  | cons name names ih =>
    have hnext {next : Location} (hrest : files.walk next names = .ok location)
        (hnext : files.node? next = some .directory ∨ files.InDirectory next) :
        files.node? location = some .directory ∨ files.InDirectory location := by
      cases names with
      | nil =>
        cases hrest
        exact hnext
      | cons second names => exact ih hrest (List.cons_ne_nil _ _)
    rw [FileSystem.walk] at hwalk
    split at hwalk
    · cases hwalk
    · cases hwalk
    rename_i hstart
    split at hwalk
    · exact hnext hwalk (.inl hstart)
    split at hwalk
    · refine hnext hwalk (.inl ?_)
      obtain rfl | ⟨above, name, rfl⟩ := List.eq_nil_or_concat' start
      · rfl
      · rw [List.dropLast_concat]
        exact h.grounded above name (hstart ▸ Option.some_ne_none _)
    split at hwalk
    · cases hwalk
    · exact hnext hwalk (.inr ⟨start, name, rfl, hstart⟩)

theorem Sound.resolve (h : files.Sound) (hresolve : files.resolve text = .ok location) :
    location = files.place (Path.ofText text) ∧
      (files.node? location = some .directory ∨ files.InDirectory location) := by
  refine ⟨resolve_eq_ok h.ne_above hresolve, ?_⟩
  rw [FileSystem.resolve, bind_eq_ok] at hresolve
  obtain ⟨bytes, -, hresolve⟩ := hresolve
  split at hresolve
  · cases hresolve
  split at hresolve
  · cases hresolve
  split at hresolve
  · cases hresolve
  exact h.walk (mapError_eq_ok.mp hresolve) (Text.splitList_ne_nil _ _)

/-- All that is different afterwards: files at places where something was written, and directories
that were made where nothing was. -/
structure Changes (written made : Location → Prop) (before after : FileSystem) : Prop where
  sound : after.Sound
  workingDirectory : after.workingDirectory = before.workingDirectory
  node : ∀ location, after.node? location = before.node? location ∨ written location ∨
    (made location ∧ before.node? location = none ∧ after.node? location = some .directory)

namespace Changes
variable {written made written' made' : Location → Prop}

theorem refl (h : files.Sound) : Changes written made files files where
  sound := h
  workingDirectory := rfl
  node := fun _ => .inl rfl

theorem mono (h : Changes written made before after)
    (hwritten : ∀ location, written location → written' location)
    (hmade : ∀ location, made location → made' location) : Changes written' made' before after where
  sound := h.sound
  workingDirectory := h.workingDirectory
  node := fun location => (h.node location).imp_right
    (Or.imp (hwritten location) (And.imp_left (hmade location)))

theorem trans (h : Changes written made before middle) (hnext : Changes written made middle after) :
    Changes written made before after where
  sound := hnext.sound
  workingDirectory := hnext.workingDirectory.trans h.workingDirectory
  node := by
    intro location
    obtain hsame | hwritten | ⟨hmade, hnone, hdirectory⟩ := hnext.node location
    · rw [hsame]
      exact h.node location
    · exact .inr (.inl hwritten)
    · obtain hfirst | hwritten | ⟨-, -, hthere⟩ := h.node location
      · exact .inr (.inr ⟨hmade, hfirst ▸ hnone, hdirectory⟩)
      · exact .inr (.inl hwritten)
      · cases hthere.symm.trans hnone

theorem file (h : Changes written made before after) (hnot : ¬ written location) {bytes : ByteArray}
    (hfile : before.node? location = some (.file bytes)) :
    after.node? location = some (.file bytes) := by
  obtain hsame | hwritten | ⟨-, hnone, -⟩ := h.node location
  · exact hsame.trans hfile
  · exact absurd hwritten hnot
  · cases hnone.symm.trans hfile

end Changes

theorem place_congr (h : after.workingDirectory = before.workingDirectory) (path : Path) :
    after.place path = before.place path := by
  rw [place, place, h]

theorem changes_put {written made : Location → Prop} (h : files.Sound)
    (hin : files.InDirectory location) (hnode : files.node? location ≠ some .directory)
    (hallowed : written location ∨ made location ∧
      files.node? location = none ∧ node = .directory) :
    Changes written made files (files.put location node) where
  sound := h.put hin hnode node
  workingDirectory := rfl
  node := by
    intro other
    rw [node?_put hin.ne_nil]
    split
    · rename_i heq
      subst heq
      refine .inr (hallowed.imp_right ?_)
      rintro ⟨hmade, hnone, rfl⟩
      exact ⟨hmade, hnone, rfl⟩
    · exact .inl rfl

theorem changes_update {made : Location → Prop} {change : ByteArray → ByteArray} (h : files.Sound)
    (hupdate : files.update text change = .ok after) :
    Changes (· = files.place (Path.ofText text)) made files after := by
  rw [update, bind_eq_ok] at hupdate
  obtain ⟨location, hlocation, hupdate⟩ := hupdate
  obtain ⟨rfl, hplace⟩ := h.resolve hlocation
  split at hupdate
  · rename_i hnone
    cases hupdate
    have hnot : files.node? (files.place (Path.ofText text)) ≠ some .directory := hnone ▸ nofun
    exact changes_put h (hplace.resolve_left hnot) hnot (.inl rfl)
  · cases hupdate
  · rename_i bytes hfile
    cases hupdate
    have hnot : files.node? (files.place (Path.ofText text)) ≠ some .directory := hfile ▸ nofun
    exact changes_put h (hplace.resolve_left hnot) hnot (.inl rfl)

end CatalogPress.FileSystem
