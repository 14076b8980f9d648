import CatalogPress.Number.Binary64
import CatalogPress.Text.Basic

/-!
Tokens of interchanged data. Blanks are space, tab, line feed and carriage return. The lexemes of a
text are read lazily from the left: where no token can be read, the list ends in `malformed`, and
all that follows is left alone.
-/
namespace CatalogPress.Json

/-- A written number. It is an integer if it has neither a fraction nor an exponent. -/
structure Numeral where
  negative : Bool
  whole : List Char
  fraction : List Char
  exponent : Option Int
deriving Repr

inductive Token where
  | openList | closeList | openRecord | closeRecord | comma | colon
  | null | bool (value : Bool) | numeral (value : Numeral)
  | infinity (negative : Bool) | undefined
  | str (value : Text)
  | malformed
deriving Repr

namespace Token

def isSpace (c : Char) : Bool :=
  c == ' ' || c == '\t' || c == '\n' || c == '\r'

def digitsValue (digits : List Char) : Nat :=
  digits.foldl (fun value c => 10 * value + (c.toNat - 48)) 0

def hexValue? (c : Char) : Option Nat :=
  if c.isDigit then some (c.toNat - 48)
  else if 'a' ≤ c ∧ c ≤ 'f' then some (c.toNat - 87)
  else if 'A' ≤ c ∧ c ≤ 'F' then some (c.toNat - 55)
  else none

def escapeValue? : Char → Option Nat
  | '"' => some 0x22
  | '\\' => some 0x5c
  | '/' => some 0x2f
  | 'b' => some 0x08
  | 'f' => some 0x0c
  | 'n' => some 0x0a
  | 'r' => some 0x0d
  | 't' => some 0x09
  | _ => none

/-- The code units of a text after its opening quote, and what follows the closing one. Control
characters must be escaped. -/
def readUnits : List Char → Option (List Nat × List Char)
  | [] => none
  | '"' :: rest => some ([], rest)
  | '\\' :: 'u' :: a :: b :: c :: d :: rest => do
    let unit :=
      (← hexValue? a) * 4096 + (← hexValue? b) * 256 + (← hexValue? c) * 16 + (← hexValue? d)
    let (units, rest) ← readUnits rest
    some (unit :: units, rest)
  | '\\' :: c :: rest => do
    let unit ← escapeValue? c
    let (units, rest) ← readUnits rest
    some (unit :: units, rest)
  | c :: rest =>
    if c = '\\' ∨ c.toNat < 0x20 then none
    else do
      let (units, rest) ← readUnits rest
      some (c.toNat :: units, rest)

def isHighSurrogate (unit : Nat) : Bool :=
  0xd800 ≤ unit && unit < 0xdc00

def isLowSurrogate (unit : Nat) : Bool :=
  0xdc00 ≤ unit && unit < 0xe000

def pointOfUnit (unit : Nat) : CodePoint :=
  if isHighSurrogate unit || isLowSurrogate unit then
    .surrogate (Fin.ofNat 0x800 (unit - CodePoint.firstSurrogate))
  else .char (Char.ofNat unit)

/-- The code points of code units. A high surrogate and the low one after it make one character. -/
def pointsOfUnits : List Nat → List CodePoint
  | high :: low :: rest =>
    if isHighSurrogate high && isLowSurrogate low then
      .char (Char.ofNat (0x10000 + (high - 0xd800) * 0x400 + (low - 0xdc00))) :: pointsOfUnits rest
    else pointOfUnit high :: pointsOfUnits (low :: rest)
  | units => units.map pointOfUnit

def readFraction : List Char → List Char × List Char
  | '.' :: c :: rest =>
    if c.isDigit then ((c :: rest).takeWhile Char.isDigit, (c :: rest).dropWhile Char.isDigit)
    else ([], '.' :: c :: rest)
  | text => ([], text)

def readExponentDigits (negative : Bool) (text : List Char) : Option (Int × List Char) :=
  let digits := text.takeWhile Char.isDigit
  if digits.isEmpty then none
  else
    let value : Int := digitsValue digits
    some (if negative then -value else value, text.dropWhile Char.isDigit)

def readExponent : List Char → Option (Int × List Char)
  | mark :: rest =>
    if mark = 'e' ∨ mark = 'E' then
      match rest with
      | '-' :: rest => readExponentDigits true rest
      | '+' :: rest => readExponentDigits false rest
      | rest => readExponentDigits false rest
    else none
  | [] => none

/-- A number without its sign. A leading zero stands alone. -/
def readNumeral (negative : Bool) (text : List Char) : Option (Numeral × List Char) :=
  let whole :=
    match text with
    | '0' :: _ => ['0']
    | _ => text.takeWhile Char.isDigit
  if whole.isEmpty then none
  else
    let (fraction, rest) := readFraction (text.drop whole.length)
    match readExponent rest with
    | some (exponent, rest) => some (⟨negative, whole, fraction, some exponent⟩, rest)
    | none => some (⟨negative, whole, fraction, none⟩, rest)

def words : List (List Char × Token) := [
  ("null".toList, null), ("true".toList, bool true), ("false".toList, bool false),
  ("NaN".toList, undefined), ("Infinity".toList, infinity false),
    ("-Infinity".toList, infinity true)]

def marks : List (Char × Token) := [
  ('[', openList), (']', closeList), ('\x7b', openRecord), ('\x7d', closeRecord),
  (',', comma), (':', colon)]

def next? (text : List Char) : Option (Token × List Char) :=
  match words.find? (·.1.isPrefixOf text) with
  | some (word, token) => some (token, text.drop word.length)
  | none =>
    match text with
    | [] => none
    | '"' :: rest => (readUnits rest).map fun (units, rest) =>
        (str ⟨pointsOfUnits units⟩, rest)
    | '-' :: rest => (readNumeral true rest).map fun (value, rest) => (numeral value, rest)
    | c :: rest =>
      match marks.find? (·.1 = c) with
      | some (_, token) => some (token, rest)
      | none => (readNumeral false (c :: rest)).map fun (value, rest) => (numeral value, rest)

def scan : Nat → List Char → List Token
  | 0, _ => []
  | count + 1, text =>
    match text.dropWhile isSpace with
    | [] => []
    | c :: rest =>
      match next? (c :: rest) with
      | none => [malformed]
      | some (token, rest) => token :: scan count rest

/-- A token takes at least one character, so their number is bounded by the length of the text. -/
def ofText (text : String) : List Token :=
  scan text.length text.toList

end Token
end CatalogPress.Json
