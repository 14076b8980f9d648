import CatalogPress.Proofs.Catalog.Field
import CatalogPress.Proofs.Catalog.Valid
import Mathlib.Data.List.Pairwise

/-!
Objects in which every field stands under its own key. What was given under a second key is moved
there, unless something is there already; then it stays, as a field that is not known.
-/
namespace CatalogPress.FieldName

def keys (name : FieldName) : List String :=
  name.key :: name.alternative.toList

def Distinct (names : List FieldName) : Prop :=
  (names.flatMap keys).Nodup

instance (names : List FieldName) : Decidable (Distinct names) :=
  inferInstanceAs (Decidable (List.Nodup _))

def HasAlternative (key : Text) (name : FieldName) : Prop :=
  name.alternative.map Text.ofString = some key

instance (key : Text) : DecidablePred (HasAlternative key) :=
  fun name => inferInstanceAs (Decidable (name.alternative.map Text.ofString = some key))

/-- The key under which a field of an object belongs. -/
def properKey (names : List FieldName) (fields : Fields Json) (key : Text) : Text :=
  match names.find? (HasAlternative key ·) with
  | some name => if Table.has (name.key : Text) fields then key else name.key
  | none => key

def normalise (names : List FieldName) (fields : Fields Json) : Fields Json :=
  fields.map fun (key, data) => (properKey names fields key, data)

variable {names : List FieldName} {name other : FieldName} {fields : Fields Json} {key : Text}

theorem Distinct.eq_of_mem (h : Distinct names) (hname : name ∈ names)
    (hother : other ∈ names) {key : String} (hkey : key ∈ name.keys) (hkey' : key ∈ other.keys) :
    name = other := by
  have : Std.Symm (Function.onFun List.Disjoint keys) :=
    ⟨fun _ _ h _ hfirst hsecond => h hsecond hfirst⟩
  by_contra hne
  exact (List.nodup_flatMap.mp h).2.forall hname hother hne hkey hkey'

theorem Distinct.eq_of_key_eq (h : Distinct names) (hname : name ∈ names) (hother : other ∈ names)
    (hkey : (name.key : Text) = other.key) : name = other :=
  h.eq_of_mem hname hother List.mem_cons_self (Text.ofString_inj hkey ▸ List.mem_cons_self)

theorem Distinct.alternative_ne (h : Distinct names) (hname : name ∈ names)
    (hother : other ∈ names) :
    name.alternative ≠ some other.key := by
  intro halternative
  have hkey : other.key ∈ name.keys := List.mem_cons_of_mem _ (Option.mem_toList.mpr halternative)
  obtain rfl := h.eq_of_mem hname hother hkey List.mem_cons_self
  have hnodup := (List.nodup_flatMap.mp h).1 name hname
  rw [keys, halternative] at hnodup
  simp at hnodup

theorem Distinct.eq_of_hasAlternative (h : Distinct names)
    (hname : name ∈ names) (hother : other ∈ names) (hkey : HasAlternative key name)
    (hkey' : HasAlternative key other) : name = other := by
  obtain ⟨first, hfirst, rfl⟩ := Option.map_eq_some_iff.mp hkey
  obtain ⟨second, hsecond, heq⟩ := Option.map_eq_some_iff.mp hkey'
  cases Text.ofString_inj heq
  exact h.eq_of_mem hname hother (List.mem_cons_of_mem _ (Option.mem_toList.mpr hfirst))
    (List.mem_cons_of_mem _ (Option.mem_toList.mpr hsecond))

theorem Distinct.not_hasAlternative (h : Distinct names) (hname : name ∈ names)
    (hother : other ∈ names) :
    ¬ HasAlternative other.key name := by
  intro halternative
  obtain ⟨key, hkey, heq⟩ := Option.map_eq_some_iff.mp halternative
  cases Text.ofString_inj heq
  exact h.alternative_ne hname hother hkey

theorem properKey_cases (names : List FieldName) (fields : Fields Json) (key : Text) :
    properKey names fields key = key ∨ ∃ name ∈ names, HasAlternative key name ∧
      (name.key : Text) ∉ Table.keys fields ∧ properKey names fields key = name.key := by
  unfold properKey
  split
  · rename_i name hfind
    split
    · exact .inl rfl
    · rename_i hhas
      refine .inr ⟨name,
        List.mem_of_find?_eq_some hfind, by simpa using List.find?_some hfind, ?_, rfl⟩
      rw [← Table.get?_eq_none_iff]
      simpa [Table.has] using hhas
  · exact .inl rfl

theorem properKey_of_hasAlternative (h : Distinct names) (hname : name ∈ names)
    (hkey : HasAlternative key name) (hmissing : (name.key : Text) ∉ Table.keys fields) :
    properKey names fields key = name.key := by
  have hfind : names.find? (HasAlternative key ·) = some name := by
    cases hfind : names.find? (HasAlternative key ·) with
    | none => exact absurd hkey (by simpa using List.find?_eq_none.mp hfind name hname)
    | some other =>
      have hother : HasAlternative key other := by simpa using List.find?_some hfind
      rw [h.eq_of_hasAlternative hname (List.mem_of_find?_eq_some hfind) hkey hother]
  rw [properKey, hfind]
  refine if_neg ?_
  rw [Table.has, Table.get?_eq_none_iff.mpr hmissing]
  exact Bool.false_ne_true

theorem get?_normalise_key (h : Distinct names) (hname : name ∈ names) :
    Fields.get? name.key (normalise names fields) = name.given? fields := by
  unfold given? normalise Fields.get?
  cases hmain : Table.get? (name.key : Text) fields with
  | some data =>
    have hmem := Table.mem_keys_of_mem (Table.mem_of_get? hmain)
    have hsource : ∀ k ∈ Table.keys fields, properKey names fields k = name.key ↔ k = name.key := by
      intro k _
      obtain heq | ⟨other, hother, halternative, hmissing, heq⟩ := properKey_cases names fields k
      · rw [heq]
      · refine iff_of_false (fun hsame => hmissing ?_) ?_
        · rwa [← heq, hsame]
        · rintro rfl
          exact h.not_hasAlternative hother hname halternative
    rw [Table.get?_map_keys hsource, hmain]
    rfl
  | none =>
    have hmissing := Table.get?_eq_none_iff.mp hmain
    -- With the own key missing, what comes to stand there is what the second key holds.
    have hmoved : ∀ k ∈ Table.keys fields, properKey names fields k = name.key ↔
        HasAlternative k name := by
      intro k hk
      refine ⟨fun hsame => ?_,
        fun halternative => properKey_of_hasAlternative h hname halternative hmissing⟩
      obtain heq | ⟨other, hother, halternative, -, heq⟩ := properKey_cases names fields k
      · rw [← hsame, heq] at hmissing
        exact absurd hk hmissing
      · rwa [h.eq_of_key_eq hname hother (hsame.symm.trans heq)]
    cases halternative : name.alternative with
    | none =>
      refine Table.get?_map_keys_eq_none fun k hk hsame => ?_
      have hnone := (hmoved k hk).mp hsame
      rw [HasAlternative, halternative] at hnone
      cases hnone
    | some alternative =>
      have hsource : ∀ k ∈ Table.keys fields, properKey names fields k = name.key ↔
          k = alternative := by
        intro k hk
        rw [hmoved k hk, HasAlternative, halternative, Option.map_some, Option.some_inj, eq_comm]
      rw [Table.get?_map_keys hsource]
      rfl

theorem mem_readKeys_iff (hkey : key ∉ names.map (Text.ofString ·.key)) :
    key ∈ readKeys names fields ↔ key ∈ Table.keys fields ∧
      ∃ name ∈ names, HasAlternative key name ∧ (name.key : Text) ∉ Table.keys fields := by
  rw [readKeys, List.mem_filterMap]
  constructor
  · rintro ⟨name, hname, hread⟩
    obtain ⟨⟨key, data⟩, hsupplied, rfl⟩ := Option.map_eq_some_iff.mp hread
    unfold supplied? at hsupplied
    split at hsupplied
    · cases hsupplied
      exact absurd (List.mem_map.mpr ⟨name, hname, rfl⟩) hkey
    · rename_i hmissing
      obtain ⟨alternative, halternative, hsecond⟩ := Option.bind_eq_some_iff.mp hsupplied
      obtain ⟨_, hget, heq⟩ := Option.map_eq_some_iff.mp hsecond
      cases heq
      refine ⟨Table.mem_keys_of_mem (Table.mem_of_get? hget), name, hname, ?_,
        Table.get?_eq_none_iff.mp hmissing⟩
      rw [HasAlternative, halternative]
      rfl
  · rintro ⟨hmem, name, hname, hsecond, hmissing⟩
    obtain ⟨alternative, halternative, rfl⟩ := Option.map_eq_some_iff.mp hsecond
    obtain ⟨data, hdata⟩ :=
      Option.ne_none_iff_exists'.mp (mt Table.get?_eq_none_iff.mp (not_not.mpr hmem))
    refine ⟨name, hname, ?_⟩
    rw [supplied?, Fields.get?, Table.get?_eq_none_iff.mpr hmissing, halternative, Option.bind_some,
      Fields.get?, hdata]
    rfl

theorem get?_normalise_of_not_mem (h : Distinct names)
    (hkey : key ∉ names.map (Text.ofString ·.key)) :
    Fields.get? key (normalise names fields) = Fields.get? key (unknown names fields) := by
  have hown {k : Text} (heq : properKey names fields k = key) : k = key := by
    obtain hsame | ⟨name, hname, -, -, hmoved⟩ := properKey_cases names fields k
    · exact hsame.symm.trans heq
    · exact absurd (List.mem_map.mpr ⟨name, hname, hmoved.symm.trans heq⟩) hkey
  have hunknown : Table.get? key (unknown names fields) =
      if (!(readKeys names fields).contains key) = true then Table.get? key fields else none := by
    rw [unknown_eq_filter, Table.get?_filter (fun k => !(readKeys names fields).contains k)]
  unfold normalise Fields.get?
  rw [hunknown]
  by_cases hread : key ∈ readKeys names fields
  · obtain ⟨-, name, hname, halternative, hmissing⟩ := (mem_readKeys_iff hkey).mp hread
    rw [if_neg (by simpa using hread)]
    refine Table.get?_map_keys_eq_none fun k _ heq => ?_
    cases hown heq
    rw [properKey_of_hasAlternative h hname halternative hmissing] at heq
    exact hkey (List.mem_map.mpr ⟨name, hname, heq⟩)
  · rw [if_pos (by simpa using hread)]
    refine Table.get?_map_keys fun k hk => ⟨hown, ?_⟩
    rintro rfl
    obtain hsame | ⟨name, hname, halternative, hmissing, -⟩ := properKey_cases names fields k
    · exact hsame
    · exact absurd ((mem_readKeys_iff hkey).mpr ⟨hk, name, hname, halternative, hmissing⟩) hread

end CatalogPress.FieldName
