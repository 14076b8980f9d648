import CatalogPress.Proofs.Files.Sound

/-!
Removing files, and moving what is at one place to another where nothing is. All else stays where it
is, and everything still lies in a directory.
-/
namespace CatalogPress

namespace Location
variable {location source target : Location}

theorem moved_of_below (h : source <+: location) :
    location.moved source target = target ++ location.drop source.length :=
  if_pos h

theorem moved_of_not_below (h : ¬ source <+: location) : location.moved source target = location :=
  if_neg h

theorem moved_append (source target rest : Location) :
    (source ++ rest).moved source target = target ++ rest := by
  rw [moved_of_below (List.prefix_append _ _), List.drop_left]

end Location

namespace FileSystem
open Fallible

variable {files after : FileSystem} {location source target : Location} {path : Text}

theorem node?_erase (hne : location ≠ []) (other : Location) :
    (files.erase location).node? other = if other = location then none else files.node? other := by
  unfold node? erase
  split_ifs with hroot hsame hsame
  · exact absurd (hsame.symm.trans hroot) hne
  · rfl
  · rw [hsame]
    exact (Table.get?_filter (decide <| · ≠ location) _ _).trans (by simp)
  · exact (Table.get?_filter (decide <| · ≠ location) _ _).trans (by simp [hsame])

theorem Sound.node?_below (h : files.Sound) (hfile : files.node? location ≠ some .directory)
    {below : Location} (hpre : location <+: below) (hne : location ≠ below) :
    files.node? below = none := by
  by_contra hthere
  exact hfile (h.directory_of_prefix hpre hne hthere)

theorem Sound.ne_nil (h : files.node? location ≠ some .directory) : location ≠ [] := by
  rintro rfl
  exact h rfl

theorem Sound.erase (h : files.Sound) (hnode : files.node? location ≠ some .directory) :
    (files.erase location).Sound where
  absolute := h.absolute
  named := h.named
  there := by
    have hbase : files.base ≠ location := fun heq => hnode (heq ▸ h.there)
    exact (node?_erase (Sound.ne_nil hnode) _).trans ((if_neg hbase).trans h.there)
  grounded := by
    intro above name hthere
    rw [node?_erase (Sound.ne_nil hnode)] at hthere ⊢
    split at hthere
    · exact absurd rfl hthere
    · have habove := h.grounded above name hthere
      rwa [if_neg]
      rintro rfl
      exact hnode habove

theorem changes_erase {written made : Location → Prop} (h : files.Sound)
    (hnode : files.node? location ≠ some .directory) (hwritten : written location) :
    Changes written made files (files.erase location) where
  sound := h.erase hnode
  workingDirectory := rfl
  node := by
    intro other
    rw [node?_erase (Sound.ne_nil hnode)]
    split
    · rename_i heq
      exact .inr (.inl (heq ▸ hwritten))
    · exact .inl rfl

structure Movable (files : FileSystem) (source target : Location) : Prop where
  there : files.node? source ≠ none
  free : files.node? target = none
  inDirectory : files.InDirectory target
  apart : ¬ source <+: target
  base : ¬ source <+: files.base

namespace Movable
variable (h : files.Movable source target)
include h

theorem source_ne_nil : source ≠ [] := by
  rintro rfl
  exact h.apart List.nil_prefix

theorem node?_below (hsound : files.Sound) (hpre : target <+: location) :
    files.node? location = none := by
  by_cases heq : target = location
  · rw [← heq, h.free]
  · exact hsound.node?_below (h.free ▸ nofun) hpre heq

theorem node?_move (hsound : files.Sound) (location : Location) :
    (files.move source target).node? location =
      if target <+: location then files.node? (source ++ location.drop target.length)
      else if source <+: location then none
      else files.node? location := by
  have hkeys (key : Location) (hkey : key ∈ Table.keys files.nodes) (hpre : target <+: key) :
      False := by
    have hnone := h.node?_below hsound hpre
    have hne : key ≠ [] := fun heq => h.inDirectory.ne_nil (List.prefix_nil.mp (heq ▸ hpre))
    rw [node?, if_neg hne] at hnone
    exact Table.get?_eq_none_iff.mp hnone hkey
  by_cases hroot : location = []
  · subst hroot
    rw [if_neg fun hpre => h.inDirectory.ne_nil (List.prefix_nil.mp hpre),
      if_neg fun hpre => h.source_ne_nil (List.prefix_nil.mp hpre)]
    rfl
  have hnode (files : FileSystem) {location : Location} (hne : location ≠ []) :
      files.node? location = Table.get? location files.nodes := if_neg hne
  rw [hnode _ hroot]
  split
  · rename_i hpre
    obtain ⟨rest, rfl⟩ := hpre
    rw [List.drop_left, hnode _ (List.append_ne_nil_of_left_ne_nil h.source_ne_nil _)]
    refine Table.get?_map_keys (f := (Location.moved · source target)) fun key hkey => ?_
    by_cases hsource : source <+: key
    · obtain ⟨below, rfl⟩ := hsource
      rw [Location.moved_append, List.append_cancel_left_eq, List.append_cancel_left_eq]
    · rw [Location.moved_of_not_below hsource]
      refine iff_of_false (fun heq => hkeys key hkey (heq ▸ List.prefix_append _ _)) ?_
      rintro rfl
      exact hsource (List.prefix_append _ _)
  · rename_i htarget
    split
    · rename_i hsource
      refine Table.get?_map_keys_eq_none (f := (Location.moved · source target)) fun key _ heq => ?_
      by_cases hkey : source <+: key
      · rw [Location.moved_of_below hkey] at heq
        exact htarget (heq ▸ List.prefix_append _ _)
      · rw [Location.moved_of_not_below hkey] at heq
        exact hkey (heq ▸ hsource)
    · rename_i hsource
      rw [hnode _ hroot]
      refine Table.get?_map_keys (f := (Location.moved · source target)) fun key _ => ?_
      by_cases hkey : source <+: key
      · rw [Location.moved_of_below hkey]
        refine iff_of_false (fun heq => htarget (heq ▸ List.prefix_append _ _)) ?_
        rintro rfl
        exact hsource hkey
      · rw [Location.moved_of_not_below hkey]

theorem sound (hsound : files.Sound) : (files.move source target).Sound where
  absolute := hsound.absolute
  named := hsound.named
  there := by
    have hbase : ¬ target <+: files.base := by
      intro hpre
      cases (h.node?_below hsound hpre).symm.trans hsound.there
    exact (h.node?_move hsound _).trans ((if_neg hbase).trans ((if_neg h.base).trans hsound.there))
  grounded := by
    intro above name hthere
    rw [h.node?_move hsound] at hthere ⊢
    by_cases htarget : target <+: above
    · -- Inside what was moved, the directory was moved as well.
      obtain ⟨rest, rfl⟩ := htarget
      rw [if_pos (List.append_assoc target rest _ ▸ List.prefix_append _ _),
        List.append_assoc, List.drop_left, ← List.append_assoc] at hthere
      rw [if_pos (List.prefix_append _ _), List.drop_left]
      exact hsound.grounded _ _ hthere
    rw [if_neg htarget]
    obtain ⟨directory, last, htarget', hdirectory⟩ := h.inDirectory
    by_cases heq : above ++ [name] = target
    · obtain ⟨rfl, -⟩ := List.append_inj' (heq.trans htarget') rfl
      rw [if_neg fun hpre => h.apart (heq ▸ hpre.trans (List.prefix_append _ _))]
      exact hdirectory
    · have hnot : ¬ target <+: above ++ [name] := fun hpre =>
        (List.prefix_concat_iff.mp hpre).elim (fun h => heq h.symm) htarget
      rw [if_neg hnot] at hthere
      split at hthere
      · exact absurd rfl hthere
      · rename_i hsource
        rw [if_neg fun hpre => hsource (hpre.trans (List.prefix_append _ _))]
        exact hsound.grounded _ _ hthere

theorem changes {written made : Location → Prop} (hsound : files.Sound)
    (hwritten : ∀ location, source <+: location ∨ target <+: location → written location) :
    Changes written made files (files.move source target) where
  sound := h.sound hsound
  workingDirectory := rfl
  node := by
    intro location
    rw [h.node?_move hsound]
    split
    · rename_i hpre
      exact .inr (.inl (hwritten location (.inr hpre)))
    split
    · rename_i hpre
      exact .inr (.inl (hwritten location (.inl hpre)))
    · exact .inl rfl

end Movable

theorem remove_eq_ok (h : files.Sound) (hok : files.remove path = .ok (location, after)) :
    location = files.place (Path.ofText path) ∧
    (∃ bytes, files.node? location = some (.file bytes)) ∧
      after = files.erase location := by
  rw [remove, bind_eq_ok] at hok
  obtain ⟨found, hfound, hok⟩ := hok
  split at hok
  · cases hok
  · cases hok
  · rename_i bytes hfile
    cases hok
    exact ⟨(h.resolve hfound).1, ⟨bytes, hfile⟩, rfl⟩

theorem rename_eq_ok {other : Text} (h : files.Sound)
    (hok : files.rename path other = .ok (source, target, after)) :
    source = files.place (Path.ofText path) ∧ target = files.place (Path.ofText other) ∧
      files.Movable source target ∧ after = files.move source target := by
  rw [rename, bind_eq_ok] at hok
  obtain ⟨old, hold, hok⟩ := hok
  obtain ⟨new, hnew, hok⟩ := bind_eq_ok.mp hok
  split at hok
  · cases hok
  rename_i hthere
  split at hok
  · cases hok
  rename_i hfree
  rw [not_not] at hfree
  split at hok
  · cases hok
  rename_i hbusy
  cases hok
  obtain ⟨hplace, -⟩ := h.resolve hold
  obtain ⟨hplace', hin⟩ := h.resolve hnew
  refine ⟨hplace, hplace', ⟨hthere, hfree, hin.resolve_left (hfree ▸ nofun), ?_, ?_⟩, rfl⟩
  · exact fun hpre => hbusy (.inl hpre)
  · exact fun hpre => hbusy (.inr hpre)

theorem openFile_eq_ok {change : ByteArray → ByteArray} (h : files.Sound)
    (hok : files.openFile path change = .ok (location, after)) :
    location = files.place (Path.ofText path) ∧ files.update path change = .ok after := by
  rw [openFile, bind_eq_ok] at hok
  obtain ⟨found, hfound, hok⟩ := hok
  obtain ⟨opened, hopened, hok⟩ := bind_eq_ok.mp hok
  cases hok
  exact ⟨(h.resolve hfound).1, hopened⟩

theorem update_eq_ok {change : ByteArray → ByteArray} (h : files.Sound)
    (hok : files.update path change = .ok after) :
    ∃ location old, files.resolve path = .ok location ∧ files.InDirectory location ∧
      (files.node? location = none ∧ old = .empty ∨ files.node? location = some (.file old)) ∧
      after = files.put location (.file (change old)) := by
  rw [update, bind_eq_ok] at hok
  obtain ⟨location, hlocation, hok⟩ := hok
  obtain ⟨-, hplace⟩ := h.resolve hlocation
  split at hok
  · rename_i hnone
    cases hok
    exact ⟨location, .empty, hlocation, hplace.resolve_left (by simp [hnone]), .inl ⟨hnone, rfl⟩,
      rfl⟩
  · cases hok
  · rename_i bytes hfile
    cases hok
    exact ⟨location, bytes, hlocation, hplace.resolve_left (by simp [hfile]), .inr hfile, rfl⟩

theorem changes_alter {written made : Location → Prop} (h : files.Sound)
    (change : ByteArray → ByteArray) (hwritten : written location) :
    Changes written made files (files.alter location change) := by
  rw [alter]
  split
  · rename_i bytes hfile
    have hnot : files.node? location ≠ some .directory := hfile ▸ nofun
    obtain ⟨above, name, rfl⟩ := (List.eq_nil_or_concat' location).resolve_left (Sound.ne_nil hnot)
    exact changes_put h ⟨above, name, rfl,
      h.grounded above name (hfile ▸ nofun)⟩ hnot (.inl hwritten)
  · exact .refl h

end FileSystem
end CatalogPress
