import CatalogPress.Proofs.Json.Overlong

/-!
When reading data fails for its nesting: a list or a record is opened where a value has to come,
inside of as many others as there may be. How many are open is counted from the tokens before it.
-/
namespace CatalogPress.Json
open Fallible Reader

namespace Token

def opens : Token → Bool
  | openList | openRecord => true
  | _ => false

def closes : Token → Bool
  | closeList | closeRecord => true
  | _ => false

end Token

namespace Reader
variable {limits : Limits} {state next : State} {stack : List Frame} {token : Token}

def State.depth (state : State) : Nat :=
  match state.goal with
  | .keyOrClose | .key _ | .colon _ _ => state.stack.length + 1
  | _ => state.stack.length

theorem depth_settle (data : Json) (stack : List Frame) :
    (settle data stack).depth = stack.length := by
  cases stack with
  | nil => rfl
  | cons frame stack => cases frame <;> rfl

theorem depth_of_awaits (h : state.Awaits) : state.depth = state.stack.length := by
  obtain ⟨goal, stack⟩ := state
  obtain rfl | rfl := h <;> rfl

theorem depth_of_value (h : value limits stack token = .ok next) :
    token.closes = false ∧ next.depth = stack.length + if token.opens then 1 else 0 := by
  cases token with
  | openList | openRecord =>
    rw [value] at h
    split at h <;> cases h
    exact ⟨rfl, rfl⟩
  | numeral numeral =>
    obtain ⟨data, -, rfl⟩ := map_eq_ok.mp h
    exact ⟨rfl, depth_settle data stack⟩
  | closeList | closeRecord | comma | colon | malformed => cases h
  | _ =>
    cases h
    exact ⟨rfl, depth_settle _ stack⟩

theorem depth_step (h : step limits state token = .ok next) :
    next.depth + (if token.closes then 1 else 0) = state.depth + if token.opens then 1 else 0 := by
  obtain ⟨goal, stack⟩ := state
  unfold step at h
  split at h
  case h_1 hgoal | h_3 hgoal _ =>
    obtain ⟨hcloses, hdepth⟩ := depth_of_value h
    rw [hcloses, hdepth, depth_of_awaits (by simp_all [State.Awaits])]
    rfl
  case h_2 | h_4 | h_9 | h_11 =>
    cases h
    rw [depth_settle]
    simp_all [State.depth, Token.opens, Token.closes]
  case h_12 => cases h
  all_goals
    cases h
    simp_all [State.depth, Token.opens, Token.closes]

theorem depth_run {tokens : List Token} (h : tokens.foldlM (step limits) state = .ok next) :
    next.depth + tokens.countP Token.closes = state.depth + tokens.countP Token.opens := by
  induction tokens generalizing state with
  | nil =>
    cases h
    rfl
  | cons token tokens ih =>
    rw [List.foldlM_cons, bind_eq_ok] at h
    obtain ⟨middle, hstep, hrun⟩ := h
    have hfirst := depth_step hstep
    have hrest := ih hrun
    rw [List.countP_cons, List.countP_cons]
    omega

theorem step_eq_overdeep_iff : step limits state token = .error .nestedTooDeeply ↔
    state.Awaits ∧ token.opens = true ∧ limits.nesting ≤ state.depth := by
  have hvalue : value limits state.stack token = .error .nestedTooDeeply ↔
      token.opens = true ∧ limits.nesting ≤ state.stack.length := by
    cases token with
    | openList | openRecord => simp [value, Token.opens]
    | numeral numeral =>
      refine iff_of_false (fun h => ?_) fun h => Bool.false_ne_true h.1
      have hnumber := map_eq_error.mp h
      unfold number at hnumber
      split at hnumber
      · split at hnumber <;> cases hnumber
      · cases hnumber
    | _ => simp [value, Token.opens]
  constructor
  · intro h
    obtain ⟨hawaits, hstep⟩ | ⟨-, next, hnext⟩ | hmalformed := step_cases limits state token
    · rw [depth_of_awaits hawaits]
      exact ⟨hawaits, hvalue.mp (hstep.symm.trans h)⟩
    · cases hnext.symm.trans h
    · cases hmalformed.symm.trans h
  · rintro ⟨hawaits, hopens, hdepth⟩
    have hclose : token ≠ .closeList := by
      rintro rfl
      cases hopens
    rw [step_of_awaits hawaits hclose, hvalue, ← depth_of_awaits hawaits]
    exact ⟨hopens, hdepth⟩

end Reader

/-- Somewhere in a row of tokens a list or a record is opened inside of as many as there may be, and
with null in its place the tokens up to there can be continued to data. -/
def Overdeep (limits : Limits) (tokens : List Token) : Prop :=
  ∃ before token after, tokens = before ++ token :: after ∧ token.opens = true ∧
    limits.nesting + before.countP Token.closes ≤ before.countP Token.opens ∧
    ∃ rest data, readTokens limits (before ++ .null :: rest) = .ok data

theorem read_eq_overdeep_iff {limits : Limits} {text : String} :
    read limits text = .error .nestedTooDeeply ↔ Overdeep limits (Token.ofText text) := by
  simp only [Overdeep, exists_data_iff]
  have hfault : Fault.nestedTooDeeply ≠ .malformed := nofun
  refine (readTokens_eq_error hfault).trans ?_
  have hdepth {before : List Token} {state : State}
      (hrun : before.foldlM (step limits) ⟨.value, []⟩ = .ok state) :
      limits.nesting ≤ state.depth ↔
        limits.nesting + before.countP Token.closes ≤ before.countP Token.opens := by
    have hcount : state.depth + before.countP Token.closes = 0 + before.countP Token.opens :=
      depth_run hrun
    omega
  constructor
  · rintro ⟨before, token, after, state, htokens, hrun, hstep⟩
    obtain ⟨hawaits, hopens, hnesting⟩ := step_eq_overdeep_iff.mp hstep
    exact ⟨before, token, after, htokens, hopens, (hdepth hrun).mp hnesting, state, hrun, hawaits⟩
  · rintro ⟨before, token, after, htokens, hopens, hnesting, state, hrun, hawaits⟩
    exact ⟨before, token, after, state, htokens, hrun,
      step_eq_overdeep_iff.mpr ⟨hawaits, hopens, (hdepth hrun).mpr hnesting⟩⟩

end CatalogPress.Json
