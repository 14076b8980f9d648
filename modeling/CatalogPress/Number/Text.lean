import CatalogPress.Number.Binary64

/-!
Numbers of the data and their text. An integer is written in full. A floating-point number is
written with the fewest digits that read back, by position or with an exponent, and always looks
like one: it has a point or an exponent.

The shortest decimal numeral that reads back as a given floating-point number. A numeral of `k`
digits lies on the grid of multiples of a power of ten; if the interval of numerals that read back
holds a point of that grid, it holds one of the two neighbours of the number itself.
-/
namespace CatalogPress

structure Decimal where
  digits : Nat
  scale : Int
deriving DecidableEq, Repr

namespace Decimal

def compareBinary (d : Nat) (e : Int) (x : Nat) (q : Int) : Ordering :=
  compare (d * power 10 e * power 2 (-q)) (x * power 2 q * power 10 (-e))

/-- Whether `d * 10 ^ e` reads back as `m * 2 ^ q`: it lies between the midpoints to the neighbours,
and a midpoint itself goes to the even significand. -/
def readsBack (m : Nat) (q : Int) (d : Nat) (e : Int) : Bool :=
  let below := if m = Nat.pow 2 52 ∧ Binary64.leastExponent < q then 4 * m - 1 else 4 * m - 2
  let above := 4 * m + 2
  let low := compareBinary d e below (q - 2)
  let high := compareBinary d e above (q - 2)
  if m % 2 = 0 then low != .lt && high != .gt else low == .gt && high == .lt

/-- The neighbour of `m * 2 ^ q` among the multiples of `10 ^ e` that reads back; of two the nearer,
and of two equally near the even one. -/
def onGrid (m : Nat) (q : Int) (e : Int) : Option Decimal :=
  let num := m * power 2 q * power 10 (-e)
  let den := power 2 (-q) * power 10 e
  let floor := num / den
  match readsBack m q floor e, readsBack m q (floor + 1) e with
  | false, false => none
  | true, false => some ⟨floor, e⟩
  | false, true => some ⟨floor + 1, e⟩
  | true, true => some ⟨roundHalfEven num den, e⟩

/-- The shortest numeral for `m * 2 ^ q`, where `m` is not zero. Seventeen digits always suffice. -/
def shortest (m : Nat) (q : Int) : Decimal :=
  let num := m * power 2 q
  let den := power 2 (-q)
  let size := floorLog 10 (decimalLength num - decimalLength den) num den
  ((List.range 18).findSome? fun count : Nat => onGrid m q (size + 1 - count)).getD
    ⟨roundHalfEven (num * power 10 (16 - size)) (den * power 10 (size - 16)), size - 16⟩

end Decimal

inductive Number where
  | int (value : Int)
  | float (value : Binary64)
deriving DecidableEq, Inhabited, Repr

structure FloatLayout where
  /-- Least decimal exponent that is written by position. -/
  positionalFrom : Int
  /-- Least decimal exponent above it that is not. -/
  positionalBelow : Int
  exponentDigits : Nat
  infinity : String
  undefined : String

def FloatLayout.data : FloatLayout :=
  ⟨-4, 16, 2, "inf", "nan"⟩

namespace FloatLayout

def signed (negative : Bool) (text : String) : String :=
  if negative then "-" ++ text else text

def padded (count : Nat) (digits : List Char) : List Char :=
  List.replicate (count - digits.length) '0' ++ digits

def positional (digits : List Char) (point : Int) : List Char :=
  if point ≤ 0 then
    ['0', '.'] ++ List.replicate (-point).toNat '0' ++ digits
  else if digits.length ≤ point then
    digits ++ List.replicate (point.toNat - digits.length) '0' ++ ['.', '0']
  else
    digits.take point.toNat ++ ['.'] ++ digits.drop point.toNat

def scientific (layout : FloatLayout) (digits : List Char) (exponent : Int) : List Char :=
  let fraction := if digits.length ≤ 1 then [] else '.' :: digits.drop 1
  let sign := if exponent < 0 then '-' else '+'
  digits.take 1 ++ fraction ++ ['e', sign] ++
    padded layout.exponentDigits (Nat.toDigits 10 exponent.natAbs)

def decimal (layout : FloatLayout) (numeral : Decimal) : String :=
  let digits := Nat.toDigits 10 numeral.digits
  let point := digits.length + numeral.scale
  let positionally := layout.positionalFrom ≤ point - 1 ∧ point - 1 < layout.positionalBelow
  String.ofList <|
    if positionally then positional digits point else layout.scientific digits (point - 1)

def text (layout : FloatLayout) : Binary64 → String
  | .undefined => layout.undefined
  | .infinite negative => signed negative layout.infinity
  | .finite negative m q =>
    signed negative (if m = 0 then "0.0" else layout.decimal (Decimal.shortest m q))

end FloatLayout

namespace Number

def text : Number → String
  | int value => toString value
  | float value => FloatLayout.data.text value

/-- The text of a number in a document: a floating-point number without a fraction is written as an
integer, in full. -/
def render : Number → String
  | int value => toString value
  | float value => (value.integer?.map toString).getD (FloatLayout.data.text value)

def same : Number → Number → Bool
  | int a, int b => a == b
  | int a, float b => b.integer? == some a
  | float a, int b => a.integer? == some b
  | float a, float b => a.same b

end Number
end CatalogPress
