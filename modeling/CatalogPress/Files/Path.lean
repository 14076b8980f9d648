import CatalogPress.Text.Split

/-!
Paths of files, read from text and put back into a normal form: repeated and trailing slashes and
names that are a single point are dropped, two points stay. A path that starts with a slash is
absolute; exactly two leading slashes are kept as two.
-/
namespace CatalogPress

structure Path where
  /-- The leading slashes: none for a relative path, otherwise one or two. -/
  slashes : Nat
  names : List Text
deriving DecidableEq, BEq, Inhabited, Repr

namespace Path

def slash : CodePoint := .char '/'

def ofText (text : Text) : Path where
  slashes :=
    let count := (text.points.takeWhile (· = slash)).length
    if count ≤ 2 then count else 1
  names :=
    ((Text.splitList slash text.points).map Text.mk).filter fun name => name ≠ "" ∧ name ≠ "."

def ofText? (text : Text) : Option Path :=
  if text.isEmpty then none else some (ofText text)

def isAbsolute (path : Path) : Bool :=
  path.slashes ≠ 0

/-- The text of a path; the empty relative path is a point. -/
def text (path : Path) : Text :=
  if path.slashes = 0 ∧ path.names = [] then "."
  else ⟨List.replicate path.slashes slash⟩ ++ Text.intercalate "/" path.names

/-- An absolute path stands for itself wherever it is looked up. -/
def append (base path : Path) : Path :=
  if path.isAbsolute then path else { base with names := base.names ++ path.names }

instance : Append Path := ⟨append⟩

def parent (path : Path) : Path :=
  { path with names := path.names.dropLast }

/-- Names with one more. Two points take the name before them away, if there is one. -/
def enter (names : List Text) (name : Text) : List Text :=
  if name = ".." then names.dropLast else names ++ [name]

def withoutParents (path : Path) : Path :=
  { path with names := path.names.foldl enter [] }

def name (path : Path) : Text :=
  path.names.getLast?.getD ""

end Path
end CatalogPress
