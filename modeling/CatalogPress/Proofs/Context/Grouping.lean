import CatalogPress.Context.Basic
import CatalogPress.Proofs.Table
import Mathlib.Data.List.Perm.Basic

/-!
Grouping in one equation: the keys of the order come first and then those that are met, each of them
once, and every key holds what is given under it, in the order in which it is given.
-/
namespace CatalogPress.Groups

def under (given : Groups) (key : Text) : List Entry :=
  (given.filter (·.1 = key)).flatMap (·.2)

def ofTypes (entries : List Entry) : Groups :=
  entries.map fun entry => (entry.type, [entry])

def orderedKeys (keys : List Text) (given : Groups) : List Text :=
  (keys ++ Table.keys given).eraseDups

def listed (keys : List Text) (given : Groups) : List Entry :=
  (orderedKeys keys given).flatMap (under given)

theorem under_append (a b : Groups) (key : Text) :
    under (a ++ b) key = under a key ++ under b key := by
  simp [under]

theorem under_singleton (group : Text × List Entry) (key : Text) :
    under [group] key = if group.1 = key then group.2 else [] := by
  by_cases h : group.1 = key <;> simp [under, h]

theorem under_of_not_mem {given : Groups} {key : Text} (h : key ∉ Table.keys given) :
    under given key = [] := by
  have hnone : given.filter (·.1 = key) = [] := by
    rw [List.filter_eq_nil_iff]
    rintro ⟨other, entries⟩ hmem hkey
    cases of_decide_eq_true hkey
    exact h (Table.mem_keys_of_mem hmem)
  rw [under, hnone, List.flatMap_nil]

theorem under_ofTypes (entries : List Entry) (key : Text) :
    under (ofTypes entries) key = entries.filter (·.type = key) := by
  induction entries with
  | nil => rfl
  | cons entry entries ih =>
    have hcons : ofTypes (entry :: entries) = [(entry.type, [entry])] ++ ofTypes entries := rfl
    rw [hcons, under_append, under_singleton, ih, List.filter_cons]
    by_cases h : entry.type = key <;> simp [h]

theorem flatMap_ofTypes (entries : List Entry) : (ofTypes entries).flatMap (·.2) = entries := by
  simp [ofTypes, List.flatMap_map]

@[simp] theorem keys_ofTypes (entries : List Entry) :
    Table.keys (ofTypes entries) = entries.map (·.type) := by
  simp [Table.keys, ofTypes]

@[simp] theorem keys_map (f : Entry → Entry) (given : Groups) :
    Table.keys (given.map fun (key, entries) => (key, entries.map f)) = Table.keys given := by
  simp [Table.keys]

theorem under_map (f : Entry → Entry) (given : Groups) (key : Text) :
    under (given.map fun (key, entries) => (key, entries.map f)) key = (under given key).map f := by
  simp [under, List.filter_map, List.flatMap_map, List.map_flatMap, Function.comp_def]

theorem nodup_orderedKeys (keys : List Text) (given : Groups) : (orderedKeys keys given).Nodup :=
  Table.nodup_eraseDups _

theorem mem_orderedKeys {keys : List Text} {given : Groups} {key : Text} :
    key ∈ orderedKeys keys given ↔ key ∈ keys ∨ key ∈ Table.keys given := by
  rw [orderedKeys, List.mem_eraseDups, List.mem_append]

theorem orderedKeys_append_singleton (keys : List Text) (given : Groups)
    (group : Text × List Entry) :
    orderedKeys keys (given ++ [group]) =
      if group.1 ∈ orderedKeys keys given then orderedKeys keys given else orderedKeys keys given ++
        [group.1] := by
  unfold orderedKeys
  rw [Table.keys_append, ← List.append_assoc]
  simp only [List.mem_eraseDups]
  exact Table.eraseDups_append_singleton _ _

theorem empty_eq (keys : List Text) : empty keys = Table.ofKeys keys.eraseDups fun _ => [] := by
  induction keys using List.reverseRecOn with
  | nil => rfl
  | append_singleton keys key ih =>
    have hput : empty (keys ++ [key]) = Table.put key [] (empty keys) := by
      simp [empty, Table.ofList, List.foldl_append]
    rw [hput, ih, Table.put_ofKeys (Table.nodup_eraseDups keys), Table.eraseDups_append_singleton,
      Function.update_eq_self]
    simp only [List.mem_eraseDups]

theorem ofGroups_eq (keys : List Text) (given : Groups) :
    ofGroups keys given = Table.ofKeys (orderedKeys keys given) (under given) := by
  induction given using List.reverseRecOn with
  | nil => simp [ofGroups, empty_eq, orderedKeys, under, Table.ofKeys]
  | append_singleton given group ih =>
    have hextend : ofGroups keys (given ++ [group]) =
        (ofGroups keys given).extend group.1 group.2 := by
      simp [ofGroups, List.foldl_append]
    -- A key that is not there yet holds nothing, so extending it is like extending an empty group.
    have hheld :
        (Table.get? group.1 (Table.ofKeys (orderedKeys keys given) (under given))).getD [] =
          under given group.1 := by
      rw [Table.get?_ofKeys]
      split
      · rfl
      · rename_i hkey
        exact (under_of_not_mem fun h => hkey (mem_orderedKeys.mpr (.inr h))).symm
    rw [hextend, ih, extend, hheld, Table.put_ofKeys (nodup_orderedKeys keys given),
      ← orderedKeys_append_singleton]
    refine Table.ofKeys_congr fun key _ => ?_
    rw [under_append, under_singleton]
    by_cases h : group.1 = key
    · simp [h]
    · simp [h, Function.update_of_ne (Ne.symm h)]

theorem flatMap_ofGroups (keys : List Text) (given : Groups) :
    (ofGroups keys given).flatMap (·.2) = listed keys given := by
  rw [ofGroups_eq, Table.ofKeys, List.flatMap_map, listed]

theorem ofGroups_map (f : Entry → Entry) (keys : List Text) (given : Groups) :
    ofGroups keys (given.map fun (key, entries) => (key, entries.map f)) =
      Table.ofKeys (orderedKeys keys given) fun key => (under given key).map f := by
  rw [ofGroups_eq, orderedKeys, keys_map]
  exact Table.ofKeys_congr fun key _ => under_map f given key

theorem flatMap_ofKeys_under {α : Type} (f : Entry → α) (keys : List Text) (given : Groups) :
    (Table.ofKeys (orderedKeys keys given) fun key => (under given key).map f).flatMap (·.2) =
      (listed keys given).map f := by
  rw [Table.ofKeys, List.flatMap_map, listed, List.map_flatMap]

theorem ofEntries_eq (keys : List Text) (entries : List Entry) :
    ofEntries keys entries = ofGroups keys (ofTypes entries) := by
  rw [ofEntries, ofGroups, ofTypes, List.foldl_map]

theorem orderedKeys_eq_append (keys : List Text) (given : Groups) :
    orderedKeys keys given = keys.eraseDups ++ ((Table.keys given).removeAll keys).eraseDups :=
  List.eraseDups_append

theorem orderedKeys_of_subset {keys : List Text} {given : Groups}
    (h : ∀ key ∈ Table.keys given, key ∈ keys) : orderedKeys keys given = keys.eraseDups := by
  have hnone : (Table.keys given).removeAll keys = [] := by
    rw [List.removeAll, List.filter_eq_nil_iff]
    intro key hkey
    simpa using h key hkey
  rw [orderedKeys_eq_append, hnone, List.eraseDups_nil, List.append_nil]

theorem flatMap_ite_eq {keys : List Text} (hkeys : keys.Nodup) {key : Text} (h : key ∈ keys)
    (entries : List Entry) : keys.flatMap (fun other => if key = other then entries else []) =
      entries := by
  induction keys with
  | nil => cases h
  | cons first keys ih =>
    obtain ⟨hfirst, hkeys⟩ := List.nodup_cons.mp hkeys
    rw [List.flatMap_cons]
    by_cases hkey : key = first
    · have hrest : keys.flatMap (fun other => if key = other then entries else []) = [] := by
        rw [List.flatMap_eq_nil_iff]
        intro other hother
        exact if_neg (by rintro rfl; exact hfirst (hkey ▸ hother))
      rw [if_pos hkey, hrest, List.append_nil]
    · rw [if_neg hkey, ih hkeys ((List.mem_cons.mp h).resolve_left hkey), List.nil_append]

theorem flatMap_under_perm {keys : List Text} (hkeys : keys.Nodup) {given : Groups}
    (h : ∀ key ∈ Table.keys given, key ∈ keys) :
    (keys.flatMap (under given)).Perm (given.flatMap (·.2)) := by
  induction given with
  | nil => simp [under]
  | cons group given ih =>
    obtain ⟨hgroup, hgiven⟩ := List.forall_mem_cons.mp h
    have hsplit : under (group :: given) = fun key => under [group] key ++ under given key :=
      funext fun key => under_append [group] given key
    have hfirst : keys.flatMap (under [group]) = group.2 := by
      rw [funext (under_singleton group)]
      exact flatMap_ite_eq hkeys hgroup group.2
    calc
      keys.flatMap (under (group :: given))
        = keys.flatMap fun key => under [group] key ++ under given key := by rw [hsplit]
      _ |>.Perm (keys.flatMap (under [group]) ++ keys.flatMap (under given)) :=
          (List.flatMap_append_perm keys _ _).symm
      _ |>.Perm (group.2 ++ given.flatMap (·.2)) := by
          rw [hfirst]
          exact (ih hgiven).append_left group.2

theorem listed_perm (keys : List Text) (given : Groups) :
    (listed keys given).Perm (given.flatMap (·.2)) :=
  flatMap_under_perm (nodup_orderedKeys keys given) fun _ h => mem_orderedKeys.mpr (.inr h)

end CatalogPress.Groups
