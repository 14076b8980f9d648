import CatalogPress.Template.Directive
import CatalogPress.Template.Node

/-!
Building the tree of a template from its pieces, from left to right. The blocks that are open stand
on a stack, innermost first; each remembers the nodes before it.
-/
namespace CatalogPress
namespace Template
open Text

structure OpenBlock where
  tag : Tag
  argument : Expression
  position : Position
  before : Array Node
deriving Inhabited

structure Progress where
  nodes : Array Node
  blocks : List OpenBlock
deriving Inhabited

def Progress.start : Progress :=
  ⟨#[], []⟩

def Progress.add (progress : Progress) (node : Node) : Progress :=
  { progress with nodes := progress.nodes.push node }

def trimLiteral (trim : List Char → List Char) : Node → Node
  | .literal text => .literal (String.ofList (trim text.toList))
  | node => node

def modifyLast (f : Node → Node) (nodes : List Node) : List Node :=
  (nodes.reverse.modifyHead f).reverse

def isEmptyLiteral : Node → Bool
  | .literal text => text.isEmpty
  | _ => false

def trimBody (body : List Node) : List Node :=
  (modifyLast (trimLiteral trimEnd) (body.modifyHead (trimLiteral trimStart))).filter
    (!isEmptyLiteral ·)

def OpenBlock.close (block : OpenBlock) (body : List Node) : Node :=
  match block.tag, block.argument with
  | .each, .path parts => .each parts (trimBody body) block.position
  | _, predicate => .conditional predicate body block.position

def openBlock (tag : Tag) (argument : List Char) (position : Position) (progress : Progress) :
    Except TemplateFault Progress :=
  let expression := Expression.read argument
  let opened : Progress := ⟨#[], ⟨tag, expression, position, progress.nodes⟩ :: progress.blocks⟩
  if (trim argument).isEmpty then .error (.argumentMissing tag)
  else
    match tag with
    | .conditional => .ok opened
    | .each =>
      match progress.blocks.find? (·.tag = .each), expression with
      | some outer, _ => .error (.nestedEach outer.position.line)
      | none, .path _ => .ok opened
      | none, _ => .error (.pathExpected (String.ofList (trim argument)))

def closeBlock (tag : Tag) (argument : List Char) (progress : Progress) :
    Except TemplateFault Progress :=
  if !(trim argument).isEmpty then .error (.closerArgument tag)
  else
    match progress.blocks with
    | [] => .error (.unexpectedCloser tag)
    | block :: blocks =>
      if block.tag = tag then .ok ⟨block.before.push (block.close progress.nodes.toList), blocks⟩
      else .error (.mismatchedCloser tag block.tag block.position)

def apply (directive : Directive) (position : Position) (progress : Progress) :
    Except TemplateFault Progress :=
  match directive with
  | .interpolation expression => .ok (progress.add (.interpolation expression position))
  | .opener tag argument => openBlock tag argument position progress
  | .closer tag argument => closeBlock tag argument progress
  | .unknownBlock marker name => .error (.unknownTag marker (String.ofList name))
  | .reserved => .error .reservedElse

def step (progress : Progress) : Piece → Except TemplateError Progress
  | .literal text => .ok (progress.add (.literal (String.ofList text)))
  | .directive inside position =>
    (apply (Directive.read inside) position progress).mapError (⟨·, position⟩)
  | .unterminated position => .error ⟨.unterminatedDirective, position⟩

def finish (progress : Progress) : Except TemplateError (List Node) :=
  match progress.blocks with
  | [] => .ok progress.nodes.toList
  | block :: _ => .error ⟨.unclosed block.tag, block.position⟩

def nodesOf (text : List Char) : Except TemplateError (List Node) :=
  ((Piece.cut text).foldlM step .start).bind finish

def parse (text : String) (name : String := "<template>") : Except TemplateError Template :=
  (nodesOf text.toList).map (⟨·, name⟩)

end Template
end CatalogPress
