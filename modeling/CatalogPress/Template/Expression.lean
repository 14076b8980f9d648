import CatalogPress.Text.Class
import CatalogPress.Text.Split

/-!
Expressions, the inside of a directive: a path of field names, a comparison of a field with a
literal, or neither. Every text reads as exactly one expression.
-/
namespace CatalogPress

/-- Only `eq` and `ne` are written in templates. Any other name counts as `ne`. -/
inductive Operator where
  | eq
  | ne
  | other (name : String)
deriving DecidableEq, BEq, Inhabited, Repr

inductive Expression where
  /-- Field names to follow from the scope; none of them is the scope itself. -/
  | path (parts : List String)
  | comparison (operator : Operator) (field literal : String)
  | invalid (raw : String)
deriving DecidableEq, BEq, Inhabited, Repr

namespace Operator

def name : Operator → String
  | eq => "eq"
  | ne => "ne"
  | other name => name

end Operator

namespace Expression
open Text

def selfNames : List (List Char) :=
  ["this".toList, ".".toList]

def pathText (parts : List String) : String :=
  if parts.isEmpty then "this" else ".".intercalate parts

def isPartChar (c : Char) : Bool :=
  isWord c || c == '-'

def isFieldChar (c : Char) : Bool :=
  isPartChar c || c == '.'

def isPart (part : List Char) : Bool :=
  !part.isEmpty && part.all isPartChar

def isPathStart (c : Char) : Bool :=
  isAsciiLetter c || c == '_'

/-- Names separated by points, the first of which starts with an ASCII letter or an underscore. -/
def isDottedPath (text : List Char) : Bool :=
  text.head?.any isPathStart && (splitList '.' text).all isPart

def gap? : List Char → Option (List Char)
  | c :: rest => if isBlank c then some (rest.dropWhile isBlank) else none
  | [] => none

def operands? (operator : Operator) (text : List Char) : Option Expression := do
  let text ← gap? text
  let field := text.takeWhile isFieldChar
  guard (!field.isEmpty)
  match ← gap? (text.dropWhile isFieldChar) with
  | '"' :: text =>
    let literal := text.takeWhile (· != '"')
    match text.dropWhile (· != '"') with
    | '"' :: text =>
      guard (text.dropWhile isBlank == [')'])
      some (.comparison operator (String.ofList field) (String.ofList literal))
    | _ => none
  | _ => none

def comparison? : List Char → Option Expression
  | '(' :: text =>
    match text.dropWhile isBlank with
    | 'e' :: 'q' :: text => operands? .eq text
    | 'n' :: 'e' :: text => operands? .ne text
    | _ => none
  | _ => none

def ofTrimmed (text : List Char) : Expression :=
  if selfNames.contains text then .path []
  else if isDottedPath text then .path ((splitList '.' text).map String.ofList)
  else (comparison? text).getD (.invalid (String.ofList text))

def read (raw : List Char) : Expression :=
  ofTrimmed (trim raw)

end Expression
end CatalogPress
