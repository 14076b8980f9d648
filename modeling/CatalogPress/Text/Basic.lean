/-!
Texts. A text is a row of code points. Nearly all of them are characters, but data can also spell
out a surrogate that has no partner. Such a code point is no character: a text that holds one can be
counted, compared and joined like any other, but it cannot be written.
-/
namespace CatalogPress

/-- A character, or a surrogate without a partner, which is one of 2048 code points. -/
inductive CodePoint where
  | char (c : Char)
  | surrogate (offset : Fin 0x800)
deriving DecidableEq, Inhabited, Repr

namespace CodePoint

def firstSurrogate : Nat := 0xd800

def value : CodePoint → Nat
  | char c => c.toNat
  | surrogate offset => firstSurrogate + offset

def char? : CodePoint → Option Char
  | char c => some c
  | surrogate _ => none

def isSurrogate (point : CodePoint) : Bool :=
  point.char?.isNone

end CodePoint

@[ext] structure Text where
  points : List CodePoint
deriving DecidableEq, Inhabited, Repr

namespace Text

def ofChars (chars : List Char) : Text :=
  ⟨chars.map .char⟩

def ofString (text : String) : Text :=
  ofChars text.toList

instance : Coe String Text := ⟨ofString⟩

def append (a b : Text) : Text :=
  ⟨a.points ++ b.points⟩

instance : Append Text := ⟨append⟩

def length (text : Text) : Nat :=
  text.points.length

def isEmpty (text : Text) : Bool :=
  text.points.isEmpty

def intercalate (separator : Text) (texts : List Text) : Text :=
  ⟨separator.points.intercalate (texts.map points)⟩

def string? (text : Text) : Option String :=
  (text.points.mapM CodePoint.char?).map String.ofList

@[simp] theorem points_ofChars (chars : List Char) : (ofChars chars).points = chars.map .char := rfl

@[simp] theorem points_append (a b : Text) : (a ++ b).points = a.points ++ b.points := rfl

theorem ofString_append (a b : String) : ofString (a ++ b) = ofString a ++ ofString b := by
  apply Text.ext
  simp [ofString, ofChars]

@[simp] theorem string?_ofString (text : String) : (ofString text).string? = some text := by
  have h (chars : List Char) : (chars.map CodePoint.char).mapM CodePoint.char? = some chars := by
    induction chars with
    | nil => rfl
    | cons c rest ih => simp [CodePoint.char?, ih]
  simp [string?, ofString, h]

theorem ofString_inj {a b : String} (h : ofString a = ofString b) : a = b := by
  have := congrArg string? h
  simpa using this

end Text
end CatalogPress
