import CatalogPress.Json.Basic
import CatalogPress.Json.Token

/-!
Reading interchanged data from its tokens. Open lists and records stand on a stack, so the depth of
nesting is the height of the stack and can be bounded; so can the length of integers. Of several
faults the leftmost is reported.
-/
namespace CatalogPress.Json

structure Limits where
  nesting : Nat
  digits : Nat

def Limits.file : Limits :=
  ⟨990, 4300⟩

inductive Fault where
  | malformed
  | nestedTooDeeply
  | integerTooLong (digits : Nat)
deriving DecidableEq, Repr

namespace Reader

/-- A list or record that is still open; a record waits for the value of `key`. -/
inductive Frame where
  | list (itemsReversed : List Json)
  | record (fields : Fields Json) (key : Text)

inductive Goal where
  | value
  | itemOrClose
  | key (fields : Fields Json)
  | keyOrClose
  | colon (fields : Fields Json) (key : Text)
  | delimiter
  | finished (result : Json)

structure State where
  goal : Goal
  stack : List Frame

def settle (value : Json) : List Frame → State
  | [] => ⟨.finished value, []⟩
  | .list items :: stack => ⟨.delimiter, .list (value :: items) :: stack⟩
  | .record fields key :: stack => ⟨.delimiter, .record (Table.put key value fields) key :: stack⟩

def number (limits : Limits) (numeral : Numeral) : Except Fault Json :=
  if numeral.fraction.isEmpty && numeral.exponent.isNone then
    if limits.digits < numeral.whole.length then .error (.integerTooLong numeral.whole.length)
    else
      let magnitude : Int := Token.digitsValue numeral.whole
      .ok (.int (if numeral.negative then -magnitude else magnitude))
  else
    .ok <| .num <| .float <| Binary64.ofDecimal numeral.negative
      (Token.digitsValue (numeral.whole ++ numeral.fraction))
      (numeral.exponent.getD 0 - numeral.fraction.length)

def value (limits : Limits) (stack : List Frame) : Token → Except Fault State
  | .openList =>
    if stack.length < limits.nesting then .ok ⟨.itemOrClose, .list [] :: stack⟩
    else .error .nestedTooDeeply
  | .openRecord =>
    if stack.length < limits.nesting then .ok ⟨.keyOrClose, stack⟩ else .error .nestedTooDeeply
  | .null => .ok (settle .null stack)
  | .bool value => .ok (settle (.bool value) stack)
  | .str value => .ok (settle (.str value) stack)
  | .infinity negative => .ok (settle (.num (.float (.infinite negative))) stack)
  | .undefined => .ok (settle (.num (.float .undefined)) stack)
  | .numeral numeral => (number limits numeral).map (settle · stack)
  | _ => .error .malformed

def step (limits : Limits) (state : State) (token : Token) : Except Fault State :=
  match state.goal, token, state.stack with
  | .value, token, stack => value limits stack token
  | .itemOrClose, .closeList, .list [] :: stack => .ok (settle (.list []) stack)
  | .itemOrClose, token, stack => value limits stack token
  | .keyOrClose, .closeRecord, stack => .ok (settle (.record []) stack)
  | .keyOrClose, .str key, stack => .ok ⟨.colon [] key, stack⟩
  | .key fields, .str key, stack => .ok ⟨.colon fields key, stack⟩
  | .colon fields key, .colon, stack => .ok ⟨.value, .record fields key :: stack⟩
  | .delimiter, .comma, .list items :: stack => .ok ⟨.value, .list items :: stack⟩
  | .delimiter, .closeList, .list items :: stack => .ok (settle (.list items.reverse) stack)
  | .delimiter, .comma, .record fields _ :: stack => .ok ⟨.key fields, stack⟩
  | .delimiter, .closeRecord, .record fields _ :: stack => .ok (settle (.record fields) stack)
  | _, _, _ => .error .malformed

end Reader

def read (limits : Limits) (text : String) : Except Fault Json := do
  let final ← (Token.ofText text).foldlM (Reader.step limits) ⟨.value, []⟩
  match final.goal with
  | .finished result => .ok result
  | _ => .error .malformed

end CatalogPress.Json
