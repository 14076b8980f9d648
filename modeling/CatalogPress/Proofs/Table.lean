import CatalogPress.Table
import Mathlib.Data.List.Induction
import Mathlib.Data.List.Nodup
import Mathlib.Data.List.Perm.Basic
import Mathlib.Data.List.Forall2
import Mathlib.Logic.Function.Basic

/-!
Tables as lists: which keys a table has, in which order, and what writing does to a table that is
given by its keys and a function.
-/
namespace CatalogPress

@[simp] theorem Text.ofString_inj_iff {a b : String} : Text.ofString a = Text.ofString b ↔ a = b :=
  ⟨Text.ofString_inj, congrArg _⟩

namespace Table
variable {κ α β : Type}

theorem eraseDups_append_singleton [DecidableEq κ] (ks : List κ) (key : κ) :
    (ks ++ [key]).eraseDups = if key ∈ ks then ks.eraseDups else ks.eraseDups ++ [key] := by
  rw [List.eraseDups_append]
  by_cases h : key ∈ ks <;> simp [List.removeAll, h, List.eraseDups_cons]

theorem nodup_eraseDups [DecidableEq κ] (ks : List κ) : ks.eraseDups.Nodup := by
  induction ks using List.reverseRecOn with
  | nil => simp
  | append_singleton ks key ih =>
    rw [eraseDups_append_singleton]
    split
    · exact ih
    · rename_i hkey
      simp [List.nodup_append, ih]
      exact fun other hother h => hkey (h ▸ hother)

@[simp] theorem keys_nil : keys ([] : Table κ α) = [] := rfl

@[simp] theorem keys_cons (binding : κ × α) (table : Table κ α) :
    keys (binding :: table) = binding.1 :: keys table := rfl

@[simp] theorem keys_append (a b : Table κ α) : keys (a ++ b) = keys a ++ keys b :=
  List.map_append

theorem mem_keys_of_mem {key : κ} {value : α} {table : Table κ α} (h : (key, value) ∈ table) :
    key ∈ keys table :=
  List.mem_map_of_mem h

def ofKeys (keys : List κ) (f : κ → α) : Table κ α :=
  keys.map fun key => (key, f key)

@[simp] theorem keys_ofKeys (ks : List κ) (f : κ → α) : keys (ofKeys ks f) = ks := by
  rw [keys, ofKeys, List.map_map]
  exact List.map_id ks

theorem ofKeys_congr {ks : List κ} {f g : κ → α} (h : ∀ key ∈ ks, f key = g key) :
    ofKeys ks f = ofKeys ks g :=
  List.map_congr_left fun key hkey => by rw [h key hkey]

variable [DecidableEq κ]

theorem get?_eq_none_iff {key : κ} {table : Table κ α} : get? key table = none ↔
    key ∉ keys table := by
  fun_induction get? key table with
  | case1 => simp
  | case2 => simp
  | case3 k value rest h ih => simp [ih, Ne.symm h]

theorem mem_of_get? {key : κ} {value : α} {table : Table κ α} (h : get? key table = some value) :
    (key, value) ∈ table := by
  fun_induction get? key table with
  | case1 => cases h
  | case2 => simp_all
  | case3 k value rest _ ih => exact List.mem_cons_of_mem _ (ih h)

theorem get?_map (f : α → β) (key : κ) (table : Table κ α) :
    get? key (table.map fun (k, value) => (k, f value)) = (get? key table).map f := by
  induction table with
  | nil => rfl
  | cons binding rest ih =>
    simp only [List.map_cons, get?]
    split
    · rfl
    · exact ih

theorem get?_ofKeys (ks : List κ) (f : κ → α) (key : κ) :
    get? key (ofKeys ks f) = if key ∈ ks then some (f key) else none := by
  induction ks with
  | nil => rfl
  | cons k ks ih =>
    by_cases h : k = key
    · simp [ofKeys, get?, h]
    · have hget : get? key (ofKeys (k :: ks) f) = get? key (ofKeys ks f) := by
        simp [ofKeys, get?, h]
      simp [hget, ih, Ne.symm h]

theorem get?_append (a b : Table κ α) (key : κ) :
    get? key (a ++ b) = (get? key a).or (get? key b) := by
  induction a with
  | nil => rfl
  | cons binding a ih =>
    rw [List.cons_append, get?, get?]
    split
    · rfl
    · exact ih

theorem get?_filter (p : κ → Bool) (table : Table κ α) (key : κ) :
    get? key (table.filter (p ·.1)) = if p key then get? key table else none := by
  induction table with
  | nil => simp
  | cons binding table ih =>
    by_cases hkey : binding.1 = key
    · subst hkey
      cases hp : p binding.1 <;> simp [hp, get?, ih]
    · cases hp : p binding.1 <;> simp [hp, get?, hkey, ih]

theorem get?_map_keys {f : κ → κ} {table : Table κ α} {key source : κ}
    (h : ∀ k ∈ keys table, f k = key ↔ k = source) :
    get? key (table.map fun (k, value) => (f k, value)) = get? source table := by
  induction table with
  | nil => rfl
  | cons binding table ih =>
    obtain ⟨hhead, htail⟩ := List.forall_mem_cons.mp h
    simp only [List.map_cons, get?, hhead]
    rw [ih htail]

theorem get?_map_keys_eq_none {f : κ → κ} {table : Table κ α} {key : κ}
    (h : ∀ k ∈ keys table, f k ≠ key) :
    get? key (table.map fun (k, value) => (f k, value)) = none := by
  rw [get?_eq_none_iff]
  intro hmem
  obtain ⟨_, hbinding, heq⟩ := List.mem_map.mp hmem
  obtain ⟨⟨k, value⟩, hk, rfl⟩ := List.mem_map.mp hbinding
  exact h k (mem_keys_of_mem hk) heq

theorem get?_filterMap_present {bindings : Table κ (Option α)}
    (h : (keys bindings).Nodup) (key : κ) :
    get? key (bindings.filterMap fun binding => binding.2.map (binding.1, ·)) =
      (get? key bindings).join := by
  induction bindings with
  | nil => rfl
  | cons binding bindings ih =>
    obtain ⟨k, value⟩ := binding
    obtain ⟨hk, hrest⟩ := List.nodup_cons.mp h
    cases value with
    | some value => by_cases hkey : k = key <;> simp [get?, hkey, ih hrest]
    | none =>
      by_cases hkey : k = key
      · subst hkey
        simp [get?, ih hrest, get?_eq_none_iff.mpr hk]
      · simp [get?, hkey, ih hrest]

theorem get?_eq_of_perm {as bs : Table κ α} (h : as.Perm bs) (hkeys : (keys as).Nodup) (key : κ) :
    get? key as = get? key bs := by
  induction h with
  | nil => rfl
  | cons binding _ ih => rw [get?, get?, ih (List.nodup_cons.mp hkeys).2]
  | swap a b rest =>
    have hne : b.1 ≠ a.1 := List.ne_of_not_mem_cons (List.nodup_cons.mp hkeys).1
    simp only [get?]
    split <;> split <;> simp_all
  | trans hab _ ihab ihbc =>
    have hsame := hab.map Prod.fst
    exact (ihab hkeys).trans (ihbc (hsame.nodup_iff.mp hkeys))

theorem rel_get? {R : α → β → Prop} {as : Table κ α} {bs : Table κ β} (hkeys : keys as = keys bs)
    (h : List.Forall₂ R (as.map (·.2)) (bs.map (·.2))) (key : κ) :
    Option.Rel R (get? key as) (get? key bs) := by
  induction as generalizing bs with
  | nil =>
    cases bs with
    | nil => exact .none
    | cons => cases hkeys
  | cons a as ih =>
    cases bs with
    | nil => cases hkeys
    | cons b bs =>
      rw [keys_cons, keys_cons] at hkeys
      obtain ⟨hkey, hkeys⟩ := List.cons.inj hkeys
      obtain ⟨hvalue, hvalues⟩ := List.forall₂_cons.mp h
      rw [get?, get?, hkey]
      split
      · exact .some hvalue
      · exact ih hkeys hvalues

theorem put_of_not_mem {key : κ} {table : Table κ α} (h : key ∉ keys table) (value : α) :
    put key value table = table ++ [(key, value)] := by
  fun_induction put key value table with
  | case1 => rfl
  | case2 => simp at h
  | case3 k old rest _ ih => simp_all

theorem nodup_keys_put {table : Table κ α} (h : (keys table).Nodup) (key : κ) (value : α) :
    (keys (put key value table)).Nodup := by
  rw [keys_put]
  split
  · exact h
  · rename_i hkey
    exact List.concat_eq_append ▸ h.concat hkey

theorem mem_of_mem_put {key : κ} {value : α} {table : Table κ α} {binding : κ × α}
    (h : binding ∈ put key value table) : binding = (key, value) ∨ binding ∈ table := by
  fun_induction put key value table with
  | case1 => exact .inl (List.mem_singleton.mp h)
  | case2 =>
    obtain rfl | h := List.mem_cons.mp h
    · exact .inl rfl
    · exact .inr (List.mem_cons_of_mem _ h)
  | case3 k old rest _ ih =>
    obtain rfl | h := List.mem_cons.mp h
    · exact .inr List.mem_cons_self
    · exact (ih h).imp_right (List.mem_cons_of_mem _)

theorem put_ofKeys {ks : List κ} (hks : ks.Nodup) (f : κ → α) (key : κ) (value : α) :
    put key value (ofKeys ks f) =
      ofKeys (if key ∈ ks then ks else ks ++ [key]) (Function.update f key value) := by
  induction ks with
  | nil => simp [ofKeys, put]
  | cons k ks ih =>
    obtain ⟨hk, hks⟩ := List.nodup_cons.mp hks
    by_cases h : k = key
    · subst h
      have hrest : ofKeys ks (Function.update f k value) = ofKeys ks f :=
        ofKeys_congr fun other hother => by
          rw [Function.update_of_ne (by rintro rfl; exact hk hother)]
      simp only [ofKeys] at hrest
      simp [ofKeys, put, hrest]
    · have hput : put key value (ofKeys (k :: ks) f) = (k, f k) :: put key value (ofKeys ks f) := by
        simp [ofKeys, put, h]
      rw [hput, ih hks]
      by_cases hmem : key ∈ ks <;> simp [ofKeys, hmem, h, Ne.symm h]

theorem filter_put_of_neg {p : κ → Bool} {key : κ} (h : p key = false)
    (value : α) (table : Table κ α) :
    (put key value table).filter (p ·.1) = table.filter (p ·.1) := by
  fun_induction put key value table with
  | case1 => simp [h]
  | case2 => simp [h]
  | case3 k old rest _ ih => simp [List.filter_cons, ih]

theorem foldl_putIfSome {bindings : Table κ (Option α)} (hkeys : (keys bindings).Nodup)
    {table : Table κ α} (hnew : ∀ key ∈ keys bindings, key ∉ keys table) :
    bindings.foldl (fun table binding => putIfSome binding.1 binding.2 table) table =
      table ++ bindings.filterMap fun binding => binding.2.map (binding.1, ·) := by
  induction bindings generalizing table with
  | nil => simp
  | cons binding rest ih =>
    obtain ⟨key, value⟩ := binding
    obtain ⟨hkey, hrest⟩ := List.nodup_cons.mp hkeys
    obtain ⟨hfresh, hothers⟩ := List.forall_mem_cons.mp hnew
    rw [List.foldl_cons, List.filterMap_cons]
    cases value with
    | none => exact ih hrest hothers
    | some value =>
      have hput : putIfSome key (some value) table = table ++ [(key, value)] :=
        put_of_not_mem hfresh value
      rw [hput, ih hrest ?_, List.append_assoc, List.singleton_append]
      · rfl
      intro other hother
      rw [keys_append, List.mem_append, not_or]
      refine ⟨hothers other hother, ?_⟩
      rintro hmem
      cases List.mem_singleton.mp hmem
      exact hkey hother

end Table
end CatalogPress
