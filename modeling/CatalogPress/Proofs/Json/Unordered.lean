import CatalogPress.Json.Reader
import CatalogPress.Proofs.Fallible
import CatalogPress.Proofs.Table

/-!
Data up to the order of fields and up to fields that are null. A record of which no field comes
twice is a function of its keys, so with null fields dropped, reordered records agree under every
key.
-/
namespace CatalogPress.Json
open Fallible

/-- No record, however deep inside, has two fields of one name. -/
inductive WellKeyed : Json → Prop
  | null : WellKeyed .null
  | bool (value : Bool) : WellKeyed (.bool value)
  | num (value : Number) : WellKeyed (.num value)
  | str (value : Text) : WellKeyed (.str value)
  | list {items : List Json} : (∀ item ∈ items, WellKeyed item) → WellKeyed (.list items)
  | record {fields : List (Text × Json)} :
      (Table.keys fields).Nodup → (∀ field ∈ fields, WellKeyed field.2) → WellKeyed (.record fields)

attribute [simp] WellKeyed.null WellKeyed.bool WellKeyed.num WellKeyed.str

@[simp] theorem wellKeyed_list {items : List Json} : WellKeyed (.list items) ↔
    ∀ item ∈ items, WellKeyed item :=
  ⟨fun h => by cases h; assumption, .list⟩

@[simp] theorem wellKeyed_record {fields : Fields Json} :
    WellKeyed (.record fields) ↔ (Table.keys fields).Nodup ∧ ∀ field ∈ fields, WellKeyed field.2 :=
  ⟨fun h => by cases h; exact ⟨‹_›, ‹_›⟩, fun h => .record h.1 h.2⟩

mutual
/-- Drops the fields that are null, at every depth. Items of lists keep their places, null or
not. -/
def withoutNulls : Json → Json
  | .null => .null
  | .bool value => .bool value
  | .num value => .num value
  | .str value => .str value
  | .list items => .list (itemsWithoutNulls items)
  | .record fields => .record (fieldsWithoutNulls fields)

def itemsWithoutNulls : List Json → List Json
  | [] => []
  | item :: rest => withoutNulls item :: itemsWithoutNulls rest

def fieldsWithoutNulls : List (Text × Json) → List (Text × Json)
  | [] => []
  | (_, .null) :: rest => fieldsWithoutNulls rest
  | (name, data) :: rest => (name, withoutNulls data) :: fieldsWithoutNulls rest
end

inductive Reordered : Json → Json → Prop
  | refl (data : Json) : Reordered data data
  | list {as bs : List Json} : List.Forall₂ Reordered as bs → Reordered (.list as) (.list bs)
  | record {as bs cs : List (Text × Json)} : Table.keys as = Table.keys bs →
      List.Forall₂ Reordered (as.map (·.2)) (bs.map (·.2)) → bs.Perm cs →
      Reordered (.record as) (.record cs)

def held? : Json → Option Json
  | .null => none
  | data => some data.withoutNulls

theorem bind_held?_eq_none {data : Option Json} (h : data.bind held? = none) :
    data = none ∨ data = some .null := by
  cases data with
  | none => exact .inl rfl
  | some data =>
    cases data with
    | null => exact .inr rfl
    | _ => cases h

theorem bind_held?_eq_some {data : Option Json} {held : Json} (h : data.bind held? = some held) :
    ∃ given, data = some given ∧ given.withoutNulls = held := by
  cases data with
  | none => cases h
  | some data =>
    cases data with
    | null => cases h
    | _ => exact ⟨_, rfl, Option.some.inj h⟩

theorem itemsWithoutNulls_eq_map (items : List Json) :
    itemsWithoutNulls items = items.map withoutNulls := by
  induction items with
  | nil => rfl
  | cons item items ih => rw [itemsWithoutNulls, ih, List.map_cons]

theorem fieldsWithoutNulls_eq_filterMap (fields : Fields Json) : fieldsWithoutNulls fields =
    (fields.map fun (name, data) => (name, data.held?)).filterMap
      fun field => field.2.map (field.1, ·) := by
  induction fields with
  | nil => rfl
  | cons field fields ih =>
    obtain ⟨name, data⟩ := field
    cases data <;> simp [fieldsWithoutNulls, held?, ih]

theorem keys_fieldsWithoutNulls_sublist (fields : Fields Json) :
    (Table.keys (fieldsWithoutNulls fields)).Sublist (Table.keys fields) := by
  induction fields with
  | nil => exact .refl _
  | cons field fields ih =>
    obtain ⟨name, data⟩ := field
    cases data with
    | null => exact ih.cons _
    | _ => exact ih.cons_cons name

theorem get?_fieldsWithoutNulls {fields : Fields Json}
    (h : (Table.keys fields).Nodup) (name : Text) :
    Table.get? name (fieldsWithoutNulls fields) = (Table.get? name fields).bind held? := by
  have hkeys : Table.keys (fields.map fun (name, data) => (name, data.held?)) =
      Table.keys fields := by
    simp [Table.keys, Function.comp_def]
  rw [fieldsWithoutNulls_eq_filterMap,
    Table.get?_filterMap_present (hkeys ▸ h), Table.get?_map held?]
  cases Table.get? name fields <;> rfl

namespace Reordered

theorem of_list {as : List Json} {b : Json} (h : Reordered (.list as) b) :
    ∃ bs, b = .list bs ∧ List.Forall₂ Reordered as bs := by
  cases h with
  | refl => exact ⟨as, rfl, List.forall₂_same.mpr fun item _ => .refl item⟩
  | list hitems => exact ⟨_, rfl, hitems⟩

theorem of_record {as : Fields Json} {b : Json} (h : Reordered (.record as) b)
    (hkeys : (Table.keys as).Nodup) :
    ∃ bs : Fields Json, b = .record bs ∧
      ∀ name, Option.Rel Reordered (Table.get? name as) (Table.get? name bs) := by
  cases h with
  | refl =>
    refine ⟨as, rfl, fun name => ?_⟩
    cases Table.get? name as with
    | none => exact .none
    | some data => exact .some (.refl data)
  | @record _ bs cs hsame hvalues hperm =>
    refine ⟨cs, rfl, fun name => ?_⟩
    have hlookup : Table.get? name bs = Table.get? name cs :=
      Table.get?_eq_of_perm hperm (hsame ▸ hkeys) name
    exact hlookup ▸ Table.rel_get? hsame hvalues name

end Reordered

namespace Reader
variable {limits : Limits} {state next : State} {stack : List Frame} {token : Token} {data : Json}

inductive Frame.WellKeyed : Frame → Prop
  | list {items : List Json} : (∀ item ∈ items, Json.WellKeyed item) → WellKeyed (.list items)
  | record {fields : Fields Json} {key : Text} : Json.WellKeyed (.record fields) →
      WellKeyed (.record fields key)

def Goal.WellKeyed : Goal → Prop
  | .key fields | .colon fields _ => Json.WellKeyed (.record fields)
  | .finished result => result.WellKeyed
  | _ => True

structure State.WellKeyed (state : State) : Prop where
  goal : state.goal.WellKeyed
  stack : ∀ frame ∈ state.stack, frame.WellKeyed

theorem wellKeyed_put {fields : Fields Json} (h : Json.WellKeyed (.record fields)) (key : Text)
    (hdata : data.WellKeyed) : Json.WellKeyed (.record (Table.put key data fields)) := by
  rw [wellKeyed_record] at h ⊢
  refine ⟨Table.nodup_keys_put h.1 key data, fun field hfield => ?_⟩
  obtain rfl | hfield := Table.mem_of_mem_put hfield
  · exact hdata
  · exact h.2 field hfield

theorem wellKeyed_settle (hdata : data.WellKeyed) (hstack : ∀ frame ∈ stack, frame.WellKeyed) :
    (settle data stack).WellKeyed := by
  cases stack with
  | nil => exact ⟨hdata, hstack⟩
  | cons frame stack =>
    obtain ⟨hframe, hrest⟩ := List.forall_mem_cons.mp hstack
    cases hframe with
    | list hitems =>
      exact ⟨trivial,
        List.forall_mem_cons.mpr ⟨.list (List.forall_mem_cons.mpr ⟨hdata, hitems⟩), hrest⟩⟩
    | record hfields =>
      exact ⟨trivial, List.forall_mem_cons.mpr ⟨.record (wellKeyed_put hfields _ hdata), hrest⟩⟩

theorem wellKeyed_number {numeral : Numeral} (h : number limits numeral = .ok data) :
    data.WellKeyed := by
  unfold number at h
  split at h
  · split at h <;> cases h
    exact .num _
  · cases h
    exact .num _

theorem wellKeyed_value (hstack : ∀ frame ∈ stack, frame.WellKeyed)
    (h : value limits stack token = .ok next) :
    next.WellKeyed := by
  cases token with
  | openList =>
    rw [value] at h
    split at h <;> cases h
    exact ⟨trivial, List.forall_mem_cons.mpr ⟨.list nofun, hstack⟩⟩
  | openRecord =>
    rw [value] at h
    split at h <;> cases h
    exact ⟨trivial, hstack⟩
  | numeral numeral =>
    obtain ⟨data, hnumber, rfl⟩ := map_eq_ok.mp h
    exact wellKeyed_settle (wellKeyed_number hnumber) hstack
  | closeList | closeRecord | comma | colon | malformed => cases h
  | _ =>
    cases h
    exact wellKeyed_settle (by simp) hstack

theorem wellKeyed_of_list {items : List Json} (h : (Frame.list items).WellKeyed) :
    Json.WellKeyed (.list items) := by
  cases h
  exact .list ‹_›

theorem wellKeyed_of_record {fields : Fields Json} {key : Text}
    (h : (Frame.record fields key).WellKeyed) :
    Json.WellKeyed (.record fields) := by
  cases h
  assumption

theorem wellKeyed_step (hstate : state.WellKeyed) (h : step limits state token = .ok next) :
    next.WellKeyed := by
  obtain ⟨goal, stack⟩ := state
  obtain ⟨hgoal, hstack⟩ := hstate
  dsimp only at hgoal hstack
  unfold step at h
  split at h
  case h_1 | h_3 => exact wellKeyed_value hstack h
  case h_4 | h_5 =>
    cases h
    first | exact wellKeyed_settle (by simp) hstack | exact ⟨by simp [Goal.WellKeyed], hstack⟩
  case h_6 hkey =>
    cases h
    obtain rfl : goal = _ := hkey
    exact ⟨hgoal, hstack⟩
  case h_7 hcolon =>
    cases h
    obtain rfl : goal = _ := hcolon
    exact ⟨trivial, List.forall_mem_cons.mpr ⟨.record hgoal, hstack⟩⟩
  case h_12 => cases h
  -- What is left works on the innermost open list or record.
  all_goals
    rename_i hopen
    obtain rfl : stack = _ := hopen
    obtain ⟨hframe, hrest⟩ := List.forall_mem_cons.mp hstack
    cases h
  case h_2 => exact wellKeyed_settle (.list nofun) hrest
  case h_8 => exact ⟨trivial, hstack⟩
  case h_9 => exact wellKeyed_settle (by simpa using wellKeyed_of_list hframe) hrest
  case h_10 => exact ⟨wellKeyed_of_record hframe, hrest⟩
  case h_11 => exact wellKeyed_settle (wellKeyed_of_record hframe) hrest

theorem wellKeyed_run {tokens : List Token} (hstate : state.WellKeyed)
    (h : tokens.foldlM (step limits) state = .ok next) : next.WellKeyed := by
  induction tokens generalizing state with
  | nil =>
    cases h
    exact hstate
  | cons token tokens ih =>
    rw [List.foldlM_cons, bind_eq_ok] at h
    obtain ⟨middle, hstep, hrun⟩ := h
    exact ih (wellKeyed_step hstate hstep) hrun

end Reader

theorem wellKeyed_of_read {limits : Limits} {text : String} {data : Json}
    (h : read limits text = .ok data) :
    data.WellKeyed := by
  have hstart : (⟨.value, []⟩ : Reader.State).WellKeyed := ⟨trivial, nofun⟩
  obtain ⟨final, hrun, hresult⟩ := bind_eq_ok.mp h
  obtain ⟨hgoal, -⟩ := Reader.wellKeyed_run hstart hrun
  obtain ⟨goal, stack⟩ := final
  cases goal with
  | finished result =>
    cases hresult
    exact hgoal
  | _ => cases hresult

end CatalogPress.Json
