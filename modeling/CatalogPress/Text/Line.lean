/-!
Lines of a text. A carriage return ends a line, with or without a line feed after it; reading a text
turns every line end into a single line feed. Lines and columns are counted from one, and every
character but a line feed takes one column.
-/
namespace CatalogPress

def Text.unifyNewlines : List Char → List Char
  | '\r' :: '\n' :: rest => '\n' :: unifyNewlines rest
  | '\r' :: rest => '\n' :: unifyNewlines rest
  | c :: rest => c :: unifyNewlines rest
  | [] => []

structure Position where
  line : Nat
  column : Nat
deriving DecidableEq, BEq, Inhabited, Repr

namespace Position

def start : Position :=
  ⟨1, 1⟩

def next (position : Position) (c : Char) : Position :=
  if c = '\n' then ⟨position.line + 1, 1⟩ else ⟨position.line, position.column + 1⟩

def after (position : Position) (text : List Char) : Position :=
  text.foldl next position

@[simp] theorem after_nil (position : Position) : position.after [] = position := rfl

theorem after_append (position : Position) (a b : List Char) :
    position.after (a ++ b) = (position.after a).after b :=
  List.foldl_append ..

def text (position : Position) : String :=
  "line " ++ toString position.line ++ ", column " ++ toString position.column

end Position
end CatalogPress
