/-!
Floating-point numbers of 64 bits, held as the values they stand for: a signed significand times a
power of two, an infinity, or the undefined number. Significands are below 2 ^ 53 and exponents lie
between -1074 and 971. Decimal numerals are read by rounding once, a half to the even neighbour.
-/
namespace CatalogPress

def roundHalfEven (num den : Nat) : Nat :=
  let quotient := num / den
  let rest := 2 * (num % den)
  if rest < den then quotient
  else if den < rest then quotient + 1
  else quotient + quotient % 2

/-- A power, where a negative exponent counts as zero. -/
def power (base : Nat) (exponent : Int) : Nat :=
  Nat.pow base exponent.toNat

/-- The greatest `k` with `base ^ k ≤ num / den`, given an estimate that is right or one too
large. -/
def floorLog (base : Nat) (estimate : Int) (num den : Nat) : Int :=
  if den * power base estimate ≤ num * power base (-estimate) then estimate else estimate - 1

def decimalLength (n : Nat) : Nat :=
  (Nat.toDigits 10 n).length

/-- `finite negative m q` stands for `m * 2 ^ q` with its sign; zero has two signs. -/
inductive Binary64 where
  | finite (negative : Bool) (significand : Nat) (exponent : Int)
  | infinite (negative : Bool)
  | undefined
deriving DecidableEq, Inhabited, Repr

namespace Binary64

def leastExponent : Int := -1074
def greatestExponent : Int := 971

def zero (negative : Bool) : Binary64 :=
  finite negative 0 leastExponent

def ofRatio (negative : Bool) (num den : Nat) : Binary64 :=
  if num = 0 then zero negative
  else
    let size := floorLog 2 (num.log2 - den.log2) num den
    let exponent := max (size - 52) leastExponent
    let rounded := roundHalfEven (num * power 2 (-exponent)) (den * power 2 exponent)
    let (significand, exponent) :=
      if rounded = Nat.pow 2 53 then (Nat.pow 2 52, exponent + 1) else (rounded, exponent)
    if greatestExponent < exponent then infinite negative
    else finite negative significand exponent

/-- The number nearest to `digits * 10 ^ scale`. Magnitudes beyond 10 ^ 310 and below 10 ^ -330 are
decided by their length, so that no large power is computed. -/
def ofDecimal (negative : Bool) (digits : Nat) (scale : Int) : Binary64 :=
  let size := decimalLength digits + scale
  if digits = 0 ∨ size < -330 then zero negative
  else if 310 < size then infinite negative
  else ofRatio negative (digits * power 10 scale) (power 10 (-scale))

def ratio? : Binary64 → Option (Int × Nat)
  | finite negative m q =>
    let magnitude : Int := (m * power 2 q : Nat)
    some (if negative then -magnitude else magnitude, power 2 (-q))
  | _ => none

def integer? (x : Binary64) : Option Int :=
  x.ratio?.bind fun (num, den) => if num % den = 0 then some (num / den) else none

/-- Equality of the numbers: the zeros are equal, and the undefined number equals nothing. -/
def same : Binary64 → Binary64 → Bool
  | infinite a, infinite b => a == b
  | x, y =>
    match x.ratio?, y.ratio? with
    | some (num, den), some (num', den') => num * den' == num' * den
    | _, _ => false

end Binary64
end CatalogPress
