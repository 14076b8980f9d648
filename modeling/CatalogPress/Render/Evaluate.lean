import CatalogPress.Template.Node
import CatalogPress.Value.Text

/-!
Evaluating a template in a scope, in two phases. First every `each` block outside other `each`
blocks becomes the text of its rows, under conditional blocks too; then the conditional blocks and
interpolations that are left are evaluated. Each phase counts the depth of the blocks that it meets.
A block nested deeper than the limit is an error, and the only one.
-/
namespace CatalogPress

structure DepthError where
  depth : Nat
  limit : Int
  position : Position
deriving DecidableEq, Inhabited, Repr

def DepthError.message (error : DepthError) : String :=
  "Nesting depth " ++ toString error.depth ++ " exceeds limit " ++ toString error.limit ++
    " (" ++ error.position.text ++ ")"

namespace Expression

/-- Whether a comparison or the truth of a path holds in a scope. An absent field equals nothing. -/
def holds (scope : Value) : Expression → Bool
  | path parts => (scope.lookup parts).isTruthy
  | comparison operator field literal =>
    let value := scope.field field
    let equal := !value.isAbsent && value.render == literal
    if operator = .eq then equal else !equal
  | invalid _ => false

def render (scope : Value) : Expression → Text
  | path parts => (scope.lookup parts).render
  | comparison operator field literal =>
    if holds scope (comparison operator field literal) then "true" else "false"
  | invalid _ => ""

end Expression

namespace Render

def rowSeparator : Text := "\n"

def defaultDepth : Int := 32

def checkDepth (limit : Int) (depth : Nat) (position : Position) : Except DepthError Unit :=
  if limit < depth then .error ⟨depth, limit, position⟩ else .ok ()

mutual
def nodes (limit : Int) (scope : Value) (depth : Nat) : List Node → Except DepthError Text
  | [] => .ok ""
  | first :: rest => do
    let head ← node limit scope depth first
    let tail ← nodes limit scope depth rest
    return head ++ tail

def node (limit : Int) (scope : Value) (depth : Nat) : Node → Except DepthError Text
  | .literal text => .ok text
  | .interpolation expression _ => .ok (expression.render scope)
  | .conditional predicate body position => do
    checkDepth limit (depth + 1) position
    if predicate.holds scope then nodes limit scope (depth + 1) body else return ""
  | .each path body position => do
    checkDepth limit (depth + 1) position
    let rows ← (scope.lookup path).items.mapM fun item => nodes limit item (depth + 1) body
    return Text.intercalate rowSeparator rows
end

/-- What the first phase leaves of a node. -/
inductive Unrolled where
  | text (content : Text)
  | interpolation (expression : Expression)
  | conditional (predicate : Expression) (body : List Unrolled) (position : Position)
deriving Inhabited, Repr

mutual
def unroll (limit : Int) (scope : Value) (depth : Nat) :
    List Node → Except DepthError (List Unrolled)
  | [] => .ok []
  | first :: rest => do
    let head ← unrollNode limit scope depth first
    let tail ← unroll limit scope depth rest
    return head :: tail

def unrollNode (limit : Int) (scope : Value) (depth : Nat) : Node → Except DepthError Unrolled
  | .each path body position => do
    return .text (← node limit scope depth (.each path body position))
  | .conditional predicate body position => do
    checkDepth limit (depth + 1) position
    return .conditional predicate (← unroll limit scope (depth + 1) body) position
  | .literal text => .ok (.text text)
  | .interpolation expression _ => .ok (.interpolation expression)
end

namespace Unrolled

mutual
def renderAll (limit : Int) (scope : Value) (depth : Nat) : List Unrolled → Except DepthError Text
  | [] => .ok ""
  | first :: rest => do
    let head ← first.render limit scope depth
    let tail ← renderAll limit scope depth rest
    return head ++ tail

def render (limit : Int) (scope : Value) (depth : Nat) : Unrolled → Except DepthError Text
  | text content => .ok content
  | interpolation expression => .ok (expression.render scope)
  | conditional predicate body position => do
    checkDepth limit (depth + 1) position
    if predicate.holds scope then renderAll limit scope (depth + 1) body else return ""
end

end Unrolled
end Render

def Template.render (template : Template) (scope : Value) (limit : Int := Render.defaultDepth) :
    Except DepthError Text := do
  let unrolled ← Render.unroll limit scope 0 template.nodes
  Render.Unrolled.renderAll limit scope 0 unrolled

end CatalogPress
