import CatalogPress.Json.Basic
import CatalogPress.Value.Basic

/-!
The text of a value in a document, the text that shows it in full, and equality of values.
-/
namespace CatalogPress.Value

mutual
/-- Absent values and records have no text; the items of a list are joined by commas. -/
def render : Value → Text
  | absent => ""
  | bool true => "true"
  | bool false => "false"
  | num value => value.render
  | str value => value
  | list items => Text.intercalate "," (renderItems items)
  | record _ => ""

def renderItems : List Value → List Text
  | [] => []
  | item :: rest => item.render :: renderItems rest
end

def kindName : Value → String
  | absent => "ABSENT"
  | bool _ => "BOOL"
  | num _ => "NUM"
  | str _ => "STR"
  | list _ => "LIST"
  | record _ => "RECORD"

def inspect (value : Value) : String :=
  match value with
  | absent => "Value.ABSENT"
  | value => "Value(" ++ value.kindName ++ ", " ++ value.toJson.inspect ++ ")"

mutual
/-- Equality of values: numbers by value, lists in order, records whatever the order of their
fields. -/
def same : Value → Value → Bool
  | absent, absent => true
  | bool a, bool b => a == b
  | num a, num b => a.same b
  | str a, str b => a == b
  | list a, list b => sameItems a b
  | record a, record b => a.length == b.length && sameFields a b
  | _, _ => false

def sameItems : List Value → List Value → Bool
  | [], [] => true
  | a :: as, b :: bs => same a b && sameItems as bs
  | _, _ => false

def sameFields : List (Text × Value) → List (Text × Value) → Bool
  | [], _ => true
  | (name, value) :: rest, fields =>
    (match Table.get? name fields with
      | some other => same value other
      | none => false) && sameFields rest fields
end

end CatalogPress.Value
