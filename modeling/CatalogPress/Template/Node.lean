import CatalogPress.Template.Expression
import CatalogPress.Text.Line

/-!
Templates as trees. A literal is written as it stands, an interpolation writes the text of a value,
an `each` block repeats its body for the items of a list, and a conditional block writes its body if
its predicate holds. A text that gives no tree has a fault, which is put into words here.
-/
namespace CatalogPress

inductive Node where
  | literal (text : String)
  | interpolation (expression : Expression) (position : Position)
  | each (path : List String) (body : List Node) (position : Position)
  | conditional (predicate : Expression) (body : List Node) (position : Position)
deriving BEq, Inhabited, Repr

structure Template where
  nodes : List Node
  name : String := "<template>"
deriving BEq, Inhabited, Repr

inductive Tag where
  | each
  | conditional
deriving DecidableEq, Inhabited, Repr

namespace Tag

def name : Tag → String
  | each => "each"
  | conditional => "if"

def ofName? (name : List Char) : Option Tag :=
  if name = "each".toList then some each
  else if name = "if".toList then some conditional
  else none

end Tag

inductive TemplateFault where
  | unterminatedDirective
  | reservedElse
  | unknownTag (marker : Char) (name : String)
  | argumentMissing (tag : Tag)
  | nestedEach (outerLine : Nat)
  | pathExpected (argument : String)
  | closerArgument (tag : Tag)
  | unexpectedCloser (tag : Tag)
  | mismatchedCloser (closer opener : Tag) (opened : Position)
  | unclosed (tag : Tag)
deriving DecidableEq, Inhabited, Repr

namespace TemplateFault

def opening (tag : Tag) : String :=
  "'\x7b\x7b#" ++ tag.name ++ "\x7d\x7d'"

def closing (tag : Tag) : String :=
  "'\x7b\x7b/" ++ tag.name ++ "\x7d\x7d'"

def message : TemplateFault → String
  | unterminatedDirective => "Unterminated directive"
  | reservedElse => "\x7b\x7belse\x7d\x7d is not supported"
  | unknownTag marker name => "Unknown block tag '" ++ marker.toString ++ name ++ "'"
  | argumentMissing tag => "'#" ++ tag.name ++ "' requires an argument"
  | nestedEach outerLine =>
    "Nested " ++ opening .each ++ " is not supported (outer block at line " ++
      toString outerLine ++ ")"
  | pathExpected argument => "'#each' expects a path, got '" ++ argument ++ "'"
  | closerArgument tag => "Closing tag '/" ++ tag.name ++ "' takes no argument"
  | unexpectedCloser tag => "Unexpected " ++ closing tag
  | mismatchedCloser closer opener opened =>
    closing closer ++ " closes " ++ opening opener ++ " opened at " ++ opened.text
  | unclosed tag => "Unclosed " ++ opening tag

end TemplateFault

structure TemplateError where
  fault : TemplateFault
  position : Position
deriving DecidableEq, Inhabited, Repr

def TemplateError.message (error : TemplateError) : String :=
  error.fault.message ++ " (" ++ error.position.text ++ ")"

end CatalogPress
