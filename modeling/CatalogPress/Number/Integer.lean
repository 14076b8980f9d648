import CatalogPress.Text.Class
import CatalogPress.Text.Quoted

/-!
Integers written by people: an optional sign and decimal digits of any script, which single
underscores may separate, with blanks around. The information separators do not count as blanks
here.
-/
namespace CatalogPress

inductive IntegerFault where
  | notAnInteger (text : String)
  | tooLong (digits : Nat)
deriving DecidableEq, Inhabited, Repr

namespace IntegerFault

def digitLimit : Nat := 4300

/-- How much of a faulty text is shown, quotes included. -/
def shownLength : Nat := 200

def message : IntegerFault → String
  | notAnInteger text =>
    "invalid literal for int() with base 10: " ++
      String.ofList ((Text.quoted text).toList.take shownLength)
  | tooLong digits =>
    "Exceeds the limit (" ++ toString digitLimit ++
      " digits) for integer string conversion: value has " ++ toString digits ++
      " digits; use sys.set_int_max_str_digits() to increase the limit"

end IntegerFault

namespace Integer
open Text

def isSpace (c : Char) : Bool :=
  isBlank c && !(0x1c ≤ c.toNat && c.toNat ≤ 0x1f)

def isDigitChar (c : Char) : Bool :=
  (digitValue? c).isSome || c == '_'

def separates : List Char → Bool
  | '_' :: _ => false
  | [] => false
  | text => go text
where
  go : List Char → Bool
    | ['_'] => false
    | '_' :: '_' :: _ => false
    | _ :: rest => go rest
    | [] => true

def value (digits : List Nat) : Nat :=
  digits.foldl (fun value digit => 10 * value + digit) 0

def sign : List Char → Bool × List Char
  | '-' :: rest => (true, rest)
  | '+' :: rest => (false, rest)
  | text => (false, text)

def read (text : String) : Except IntegerFault Int :=
  let (negative, unsigned) := sign (text.toList.dropWhile isSpace)
  let written := unsigned.takeWhile isDigitChar
  let digits := written.filterMap digitValue?
  if !separates written then .error (.notAnInteger text)
  else if IntegerFault.digitLimit < digits.length then .error (.tooLong digits.length)
  else if !((unsigned.dropWhile isDigitChar).dropWhile isSpace).isEmpty then
    .error (.notAnInteger text)
  else
    let magnitude : Int := value digits
    .ok (if negative then -magnitude else magnitude)

end Integer
end CatalogPress
