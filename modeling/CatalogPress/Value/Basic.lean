import CatalogPress.Json.Basic

/-!
Values, all that a template can see: data in which null has become the absent value. What a record
does not hold is absent too, so looking up a path never fails.
-/
namespace CatalogPress

inductive Value where
  | absent
  | bool (value : Bool)
  | num (value : Number)
  | str (value : Text)
  | list (items : List Value)
  | record (fields : List (Text × Value))
deriving BEq, Inhabited, Repr

namespace Value

mutual
def ofJson : Json → Value
  | .null => absent
  | .bool value => bool value
  | .num value => num value
  | .str value => str value
  | .list items => list (ofItems items)
  | .record fields => record (ofFields fields)

def ofItems : List Json → List Value
  | [] => []
  | item :: rest => ofJson item :: ofItems rest

def ofFields : List (Text × Json) → List (Text × Value)
  | [] => []
  | (name, data) :: rest => (name, ofJson data) :: ofFields rest
end

mutual
def toJson : Value → Json
  | absent => .null
  | bool value => .bool value
  | num value => .num value
  | str value => .str value
  | list items => .list (toItems items)
  | record fields => .record (toFields fields)

def toItems : List Value → List Json
  | [] => []
  | item :: rest => toJson item :: toItems rest

def toFields : List (Text × Value) → List (Text × Json)
  | [] => []
  | (name, value) :: rest => (name, toJson value) :: toFields rest
end

theorem ofItems_eq_map (items : List Json) : ofItems items = items.map ofJson := by
  induction items with
  | nil => rfl
  | cons item items ih => rw [ofItems, ih, List.map_cons]

theorem ofFields_eq_map (fields : Fields Json) :
    ofFields fields = fields.map fun (key, data) => (key, ofJson data) := by
  induction fields with
  | nil => rfl
  | cons field fields ih => rw [ofFields, ih, List.map_cons]

def int (value : Int) : Value :=
  num (.int value)

def isAbsent : Value → Bool
  | absent => true
  | _ => false

/-- Only the absent value, false and the empty text are not truthy; zero and empty lists are. -/
def isTruthy : Value → Bool
  | absent => false
  | bool value => value
  | str value => !value.isEmpty
  | _ => true

def field (name : String) : Value → Value
  | record fields => (Fields.get? name fields).getD absent
  | _ => absent

def lookup (value : Value) (path : List String) : Value :=
  path.foldl (fun value name => value.field name) value

def items : Value → List Value
  | list items => items
  | _ => []

def size : Value → Nat
  | list items => items.length
  | record fields => fields.length
  | _ => 0

@[simp] theorem lookup_nil (value : Value) : value.lookup [] = value := rfl

@[simp] theorem lookup_cons (value : Value) (name : String) (path : List String) :
    value.lookup (name :: path) = (value.field name).lookup path := rfl

theorem lookup_append (value : Value) (p q : List String) :
    value.lookup (p ++ q) = (value.lookup p).lookup q :=
  List.foldl_append ..

@[simp] theorem field_absent (name : String) : absent.field name = absent := rfl

@[simp] theorem lookup_absent (path : List String) : absent.lookup path = absent := by
  induction path with
  | nil => rfl
  | cons name path ih => simpa using ih

end Value
end CatalogPress
