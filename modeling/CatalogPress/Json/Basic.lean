import CatalogPress.Number.Text
import CatalogPress.Table
import CatalogPress.Text.Quoted

/-!
Data as it is interchanged: null, booleans, numbers, texts, lists and records. The fields of a
record keep their order, and reading never gives a record two fields of one name. Shown in full,
texts are quoted, lists stand in brackets and records in braces.
-/
namespace CatalogPress

inductive Json where
  | null
  | bool (value : Bool)
  | num (value : Number)
  | str (value : Text)
  | list (items : List Json)
  | record (fields : List (Text × Json))
deriving BEq, Inhabited, Repr

namespace Json

def int (value : Int) : Json :=
  num (.int value)

def str? : Json → Option Text
  | str value => some value
  | _ => none

def record? : Json → Option (Fields Json)
  | record fields => some fields
  | _ => none

def list? : Json → Option (List Json)
  | list items => some items
  | _ => none

def field? (name : Text) (data : Json) : Option Json :=
  data.record?.bind (Fields.get? name)

def typeName : Json → String
  | null => "NoneType"
  | bool _ => "bool"
  | num (.int _) => "int"
  | num (.float _) => "float"
  | str _ => "str"
  | list _ => "list"
  | record _ => "dict"

def braced (inner : String) : String :=
  "\x7b" ++ inner ++ "\x7d"

mutual
def inspect : Json → String
  | null => "None"
  | bool true => "True"
  | bool false => "False"
  | num value => value.text
  | str value => Text.quoted value
  | list items => "[" ++ ", ".intercalate (inspectItems items) ++ "]"
  | record fields => braced (", ".intercalate (inspectFields fields))

def inspectItems : List Json → List String
  | [] => []
  | item :: rest => item.inspect :: inspectItems rest

def inspectFields : List (Text × Json) → List String
  | [] => []
  | (name, value) :: rest => (Text.quoted name ++ ": " ++ value.inspect) :: inspectFields rest
end

/-- A datum that is itself a text is displayed as it stands. -/
def display : Json → Text
  | str value => value
  | data => data.inspect

end Json
end CatalogPress
