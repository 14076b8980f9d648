import CatalogPress.Json.Reader
import CatalogPress.Proofs.Fallible

/-!
When reading data fails for the length of an integer: one with too many digits stands where, after
all that stands before it, a value has to come. That a value has to come there is said without the
reader's state: with null in its place, the tokens up to there can be continued to data.
-/
namespace CatalogPress.Json
open Fallible Reader

structure Numeral.Overlong (limits : Limits) (numeral : Numeral) : Prop where
  fraction : numeral.fraction = []
  exponent : numeral.exponent = none
  digits : limits.digits < numeral.whole.length

namespace Reader

def State.result (state : State) : Except Fault Json :=
  match state.goal with
  | .finished result => .ok result
  | _ => .error .malformed

def readTokens (limits : Limits) (tokens : List Token) : Except Fault Json :=
  tokens.foldlM (step limits) ⟨.value, []⟩ >>= State.result

def State.Awaits (state : State) : Prop :=
  state.goal = .value ∨ state.goal = .itemOrClose

variable {limits : Limits} {state : State} {stack : List Frame} {token : Token} {digits : Nat}

theorem number_eq_error_iff {numeral : Numeral} :
    number limits numeral = .error (.integerTooLong digits) ↔
      numeral.Overlong limits ∧ digits = numeral.whole.length := by
  have hoverlong : numeral.Overlong limits ↔
      (numeral.fraction.isEmpty && numeral.exponent.isNone) = true ∧
      limits.digits < numeral.whole.length := by
    rw [Bool.and_eq_true, List.isEmpty_iff, Option.isNone_iff_eq_none, and_assoc]
    exact ⟨fun h => ⟨h.fraction, h.exponent, h.digits⟩, fun h => ⟨h.1, h.2.1, h.2.2⟩⟩
  rw [hoverlong, number]
  split
  · rename_i hinteger
    split
    · rename_i hdigits
      simp [hinteger, hdigits, eq_comm]
    · rename_i hdigits
      simp [hdigits]
  · rename_i hinteger
    simp [hinteger]

theorem value_eq_error_iff : value limits stack token = .error (.integerTooLong digits) ↔
    ∃ numeral, token = .numeral numeral ∧
    number limits numeral = .error (.integerTooLong digits) := by
  constructor
  · intro h
    cases token with
    | numeral numeral => exact ⟨numeral, rfl, map_eq_error.mp h⟩
    | openList | openRecord =>
      simp only [value] at h
      split at h <;> cases h
    | _ => cases h
  · rintro ⟨numeral, rfl, h⟩
    exact map_eq_error.mpr h

theorem step_cases (limits : Limits) (state : State) (token : Token) :
    (state.Awaits ∧ step limits state token = value limits state.stack token) ∨
      (token ≠ .null ∧ ∃ next, step limits state token = .ok next) ∨
      step limits state token = .error .malformed := by
  unfold step
  split
  case h_1 hgoal => exact .inl ⟨.inl hgoal, rfl⟩
  case h_3 hgoal _ => exact .inl ⟨.inr hgoal, rfl⟩
  case h_12 => exact .inr (.inr rfl)
  all_goals exact .inr (.inl ⟨nofun, _, rfl⟩)

theorem step_of_awaits (h : state.Awaits) (hclose : token ≠ .closeList) :
    step limits state token = value limits state.stack token := by
  obtain ⟨goal, stack⟩ := state
  obtain rfl | rfl := h
  · rfl
  · unfold step
    split <;> simp_all

theorem awaits_of_step_null {next : State} (h : step limits state .null = .ok next) :
    state.Awaits := by
  obtain ⟨hawaits, -⟩ | ⟨hnull, -⟩ | hmalformed := step_cases limits state .null
  · exact hawaits
  · exact absurd rfl hnull
  · rw [hmalformed] at h
    cases h

theorem step_eq_error_iff : step limits state token = .error (.integerTooLong digits) ↔
    state.Awaits ∧ ∃ numeral, token = .numeral numeral ∧ numeral.Overlong limits ∧
      digits = numeral.whole.length := by
  simp only [← number_eq_error_iff]
  constructor
  · intro h
    obtain ⟨hawaits, hvalue⟩ | ⟨-, next, hnext⟩ | hmalformed := step_cases limits state token
    · exact ⟨hawaits, value_eq_error_iff.mp (hvalue.symm.trans h)⟩
    · rw [hnext] at h
      cases h
    · rw [hmalformed] at h
      cases h
  · rintro ⟨hawaits, numeral, rfl, hnumber⟩
    have hclose : Token.numeral numeral ≠ .closeList := nofun
    rw [step_of_awaits hawaits hclose]
    exact value_eq_error_iff.mpr ⟨numeral, rfl, hnumber⟩

/-- What is open can be closed: once a value is complete, some tokens complete the data. -/
theorem exists_completion (limits : Limits) (data : Json) (stack : List Frame) :
    ∃ (rest : List Token) (result : Json),
      rest.foldlM (step limits) (settle data stack) = .ok ⟨.finished result, []⟩ := by
  induction stack generalizing data with
  | nil => exact ⟨[], data, rfl⟩
  | cons frame stack ih =>
    cases frame with
    | list items =>
      obtain ⟨rest, result, hrest⟩ := ih (.list (data :: items).reverse)
      exact ⟨.closeList :: rest, result, hrest⟩
    | record fields key =>
      obtain ⟨rest, result, hrest⟩ := ih (.record (Table.put key data fields))
      exact ⟨.closeRecord :: rest, result, hrest⟩

/-- A value may come after a row of tokens exactly if null does, and the row can then be
completed. -/
theorem exists_data_iff {before : List Token} :
    (∃ rest data, readTokens limits (before ++ .null :: rest) = .ok data) ↔
      ∃ state, before.foldlM (step limits) ⟨.value, []⟩ = .ok state ∧ state.Awaits := by
  constructor
  · rintro ⟨rest, data, h⟩
    obtain ⟨final, hrun, -⟩ := bind_eq_ok.mp h
    rw [List.foldlM_append, bind_eq_ok] at hrun
    obtain ⟨state, hbefore, hafter⟩ := hrun
    rw [List.foldlM_cons, bind_eq_ok] at hafter
    obtain ⟨next, hnull, -⟩ := hafter
    exact ⟨state, hbefore, awaits_of_step_null hnull⟩
  · rintro ⟨state, hbefore, hawaits⟩
    have hnull : step limits state .null = .ok (settle .null state.stack) :=
      step_of_awaits hawaits nofun
    obtain ⟨rest, data, hrest⟩ := exists_completion limits .null state.stack
    refine ⟨rest, data, bind_eq_ok.mpr ⟨⟨.finished data, []⟩, ?_, rfl⟩⟩
    rw [List.foldlM_append, bind_eq_ok]
    refine ⟨state, hbefore, ?_⟩
    rw [List.foldlM_cons, bind_eq_ok]
    exact ⟨_, hnull, hrest⟩

theorem readTokens_eq_error {tokens : List Token} {fault : Fault} (hfault : fault ≠ .malformed) :
    readTokens limits tokens = .error fault ↔
      ∃ before token after state, tokens = before ++ token :: after ∧
        before.foldlM (step limits) ⟨.value, []⟩ = .ok state ∧
        step limits state token = .error fault := by
  rw [← foldlM_eq_error_iff, readTokens, bind_eq_error]
  refine or_iff_left ?_
  rintro ⟨final, -, hfinal⟩
  unfold State.result at hfinal
  split at hfinal <;> cases hfinal
  exact hfault rfl

end Reader

/-- Somewhere in a row of tokens stands an integer that is too long, and with null in its place the
tokens up to there can be continued to data. -/
def Overlong (limits : Limits) (tokens : List Token) : Prop :=
  ∃ before numeral after, tokens = before ++ .numeral numeral :: after ∧ numeral.Overlong limits ∧
    ∃ rest data, readTokens limits (before ++ .null :: rest) = .ok data

theorem readTokens_eq_error_iff {limits : Limits} {tokens : List Token} :
    (∃ digits, readTokens limits tokens = .error (.integerTooLong digits)) ↔
      Overlong limits tokens := by
  have hfault {digits : Nat} : Fault.integerTooLong digits ≠ .malformed := nofun
  simp only [Overlong, exists_data_iff]
  constructor
  · rintro ⟨digits, h⟩
    obtain ⟨before, _, after, state, rfl, hbefore, hstep⟩ := (readTokens_eq_error hfault).mp h
    obtain ⟨hawaits, numeral, rfl, hoverlong, -⟩ := step_eq_error_iff.mp hstep
    exact ⟨before, numeral, after, rfl, hoverlong, state, hbefore, hawaits⟩
  · rintro ⟨before, numeral, after, rfl, hoverlong, state, hbefore, hawaits⟩
    have hstep := step_eq_error_iff.mpr ⟨hawaits, numeral, rfl, hoverlong, rfl⟩
    exact ⟨_, (readTokens_eq_error hfault).mpr ⟨before, _, after, state, rfl, hbefore, hstep⟩⟩

/-- Reading a text fails for the length of an integer exactly if its tokens hold one that counts. -/
theorem read_eq_error_iff {limits : Limits} {text : String} :
    (∃ digits, read limits text = .error (.integerTooLong digits)) ↔
      Overlong limits (Token.ofText text) :=
  readTokens_eq_error_iff

end CatalogPress.Json
