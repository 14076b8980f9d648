import CatalogPress.Template.Node

/-!
Template text cut into literals and directives. A directive runs from the leftmost `{{` to the
leftmost `}}` after it, and what lies between directives is literal text. Every directive knows
where it starts.

A directive that starts with `#` or `/` and a word opens or closes the block which that word names;
what follows the word is its argument. Every other directive is an interpolation, except the word
`else`, which is reserved.
-/
namespace CatalogPress

inductive Piece where
  | literal (text : List Char)
  | directive (inside : List Char) (position : Position)
  /-- An opening pair without a closing one; nothing after it is looked at. -/
  | unterminated (position : Position)
deriving DecidableEq, Inhabited, Repr

namespace Piece

def literals (text : List Char) : List Piece :=
  if text.isEmpty then [] else [literal text]

mutual
/-- The pieces of a text, after a literal whose characters so far are given last first. -/
def outside (position : Position) (seen : List Char) : List Char → List Piece
  | '{' :: '{' :: rest =>
    literals seen.reverse ++ inside position (position.after ['{', '{']) [] rest
  | c :: rest => outside (position.next c) (c :: seen) rest
  | [] => literals seen.reverse

def inside (opening position : Position) (seen : List Char) : List Char → List Piece
  | '}' :: '}' :: rest =>
    directive seen.reverse opening :: outside (position.after ['}', '}']) [] rest
  | c :: rest => inside opening (position.next c) (c :: seen) rest
  | [] => [unterminated opening]
end

def cut (text : List Char) : List Piece :=
  outside .start [] text

end Piece

inductive Directive where
  | interpolation (expression : Expression)
  | opener (tag : Tag) (argument : List Char)
  | closer (tag : Tag) (argument : List Char)
  | unknownBlock (marker : Char) (name : List Char)
  | reserved
deriving DecidableEq, Inhabited, Repr

namespace Directive
open Text

def ofBlock (marker : Char) (name argument : List Char) : Directive :=
  match Tag.ofName? name with
  | none => .unknownBlock marker name
  | some tag => if marker = '#' then .opener tag argument else .closer tag argument

def ofTrimmed : List Char → Directive
  | [] => .interpolation (Expression.ofTrimmed [])
  | marker :: rest =>
    let text := marker :: rest
    if text = "else".toList then .reserved
    else if marker = '#' ∨ marker = '/' then
      let rest := rest.dropWhile isBlank
      let name := rest.takeWhile isWord
      if name.isEmpty then .interpolation (Expression.ofTrimmed text)
      else ofBlock marker name ((rest.dropWhile isWord).dropWhile isBlank)
    else .interpolation (Expression.ofTrimmed text)

def read (inside : List Char) : Directive :=
  ofTrimmed (trim inside)

end Directive
end CatalogPress
