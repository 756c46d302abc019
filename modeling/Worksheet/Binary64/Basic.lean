-- SUMMARY: Binary floating-point values and their correctly rounded arithmetic.
import Worksheet.Decimal.Basic

/-!
# Binary64 Values

Serial dates are computed in binary floating point: 53 binary digits, and a
range that ends just below `2 ^ 1024`. A finite value is the rational number
that it stands for. Every operation is exact and then rounded to the nearest
value, ties to the even neighbour.
-/

namespace Worksheet

inductive Binary64 where
  | finite (value : Rat)
  | infinity (negative : Bool)
  | nan
deriving DecidableEq

namespace Binary64

/-- The integer nearest to a number, the even one of two. -/
def nearestInt (q : Rat) : Int :=
  let n := q.floor
  let r := q - n
  if r < 1 / 2 then n else if 1 / 2 < r then n + 1 else n + n % 2

/-- A power of two. -/
def twoPow (e : Int) : Rat :=
  if 0 ≤ e then (Nat.pow 2 e.toNat : Nat) else mkRat 1 (Nat.pow 2 (-e).toNat)

/-- A number without its sign. -/
def magnitude (q : Rat) : Rat := if q < 0 then -q else q

/-- The exponent of the leading binary digit of a number other than zero. -/
def leadingExponent (q : Rat) : Int :=
  let e : Int := (q.num.natAbs.log2 : Int) - (q.den.log2 : Int)
  if twoPow e ≤ magnitude q then e else e - 1

/-- The distance between neighbouring values around a number. -/
def spacing (q : Rat) : Rat := twoPow (max (leadingExponent q - 52) (-1074))

/-- The nearest number with 53 binary digits, the even one of two. -/
def round (q : Rat) : Rat := nearestInt (q / spacing q) * spacing q

/-- The value that a number is rounded to; too large a number becomes infinite. -/
def ofRat (q : Rat) : Binary64 :=
  let r := round q
  if twoPow 1024 ≤ magnitude r then .infinity (r < 0) else .finite r

/-- A value times a positive number that is itself a binary64 value. -/
def times (x : Binary64) (k : Rat) : Binary64 :=
  match x with
  | .finite q => ofRat (q * k)
  | x => x

/-- A value divided by a positive number that is itself a binary64 value. -/
def dividedBy (x : Binary64) (k : Rat) : Binary64 :=
  match x with
  | .finite q => ofRat (q / k)
  | x => x

/-- The nearest integer to a value, the even one of two. -/
def nearest? : Binary64 → Option Int
  | .finite q => some (nearestInt q)
  | _ => none

/-- The quotient of two integers, the divisor positive. -/
def quotient (n : Int) (k : Nat) : Binary64 := ofRat (mkRat n k)

end Binary64

/-- The binary64 value of a decimal. Exponents far outside the range are decided
    without computing the power of ten. -/
def Decimal.toBinary64 (d : Decimal) : Binary64 :=
  if d.isZero ∨ d.adjusted < -400 then .finite 0
  else if 400 < d.adjusted then .infinity d.negative
  else .ofRat d.value

end Worksheet
