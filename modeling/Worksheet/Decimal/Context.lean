-- SUMMARY: Decimal arithmetic to a limited precision and exponent range.
import Worksheet.Decimal.Basic

/-!
# Decimal Arithmetic in a Context

A context fixes how many digits a result keeps and how it is rounded. Every
operation computes the exact result and then fits it into the context: the
coefficient is rounded to the precision, a result that is too small loses
digits at the bottom of the exponent range, and one that is too large is an
overflow.
-/

namespace Worksheet.Decimal

/-- Where a number goes that lies between two neighbours: to the nearer one,
    and half way to the even one or away from zero. -/
inductive Rounding where
  | halfEven
  | halfUp
deriving DecidableEq, Repr

/-- Why an operation has no result. -/
inductive Signal where
  | overflow
  | invalidOperation
deriving DecidableEq, Repr

structure Context where
  precision : Nat
  rounding : Rounding
deriving DecidableEq, Repr

/-- The largest exponent of a leading digit. -/
def maxExponent : Int := 999999

/-- The smallest exponent of a leading digit at full precision. -/
def minExponent : Int := -999999

/-- Divide by `10 ^ k` and round. A number of fewer than `k` digits is less than
    half of `10 ^ k` and rounds to zero. -/
def Rounding.drop (r : Rounding) (n k : Nat) : Nat :=
  if Digits.count n < k then 0
  else
    let unit := Nat.pow 10 k
    let q := n / unit
    let twice := 2 * (n % unit)
    if twice < unit then q
    else if unit < twice then q + 1
    else match r with
      | .halfUp => q + 1
      | .halfEven => q + q % 2

namespace Context

/-- Twenty-eight digits, ties to even: what is in force when nothing else is said. -/
def standard : Context := ⟨28, .halfEven⟩

/-- The smallest exponent that any result has. -/
def least (c : Context) : Int := minExponent - c.precision + 1

/-- Fit an exact number into the context. -/
def fit (c : Context) (d : Decimal) : Except Signal Decimal :=
  if d.coefficient = 0 then
    .ok { d with exponent := max c.least (min maxExponent d.exponent) }
  else if maxExponent < d.adjusted then .error .overflow
  else
    let e := max d.exponent (max c.least (d.adjusted - c.precision + 1))
    let n := c.rounding.drop d.coefficient (e - d.exponent).toNat
    let r : Decimal :=
      if n = Nat.pow 10 c.precision then ⟨d.negative, Nat.pow 10 (c.precision - 1), e + 1⟩
      else ⟨d.negative, n, e⟩
    if r.coefficient ≠ 0 ∧ maxExponent < r.adjusted then .error .overflow else .ok r

/-- The number without its sign. -/
def abs (c : Context) (d : Decimal) : Except Signal Decimal := c.fit { d with negative := false }

/-- The product of two numbers. -/
def mul (c : Context) (a b : Decimal) : Except Signal Decimal :=
  c.fit ⟨a.negative != b.negative, a.coefficient * b.coefficient, a.exponent + b.exponent⟩

/-- The number times `10 ^ k`. -/
def scale (c : Context) (d : Decimal) (k : Int) : Except Signal Decimal := c.fit (d.shift k)

/-- The number rounded half up to the exponent `e`. The result must have that
    exponent and no more digits than the precision allows. -/
def quantize (c : Context) (d : Decimal) (e : Int) : Except Signal Decimal :=
  if e < c.least ∨ maxExponent < e then .error .invalidOperation
  else if d.coefficient = 0 then .ok { d with exponent := e }
  else if (c.precision : Int) < d.digitCount + (d.exponent - e) then .error .invalidOperation
  else
    let n :=
      if e ≤ d.exponent then d.coefficient * Nat.pow 10 (d.exponent - e).toNat
      else Rounding.halfUp.drop d.coefficient (e - d.exponent).toNat
    let r : Decimal := ⟨d.negative, n, e⟩
    if c.precision < r.digitCount ∨ maxExponent < r.adjusted then .error .invalidOperation
    else .ok r

/-- The number rounded half up to a number of decimal places. The precision grows
    so that there is room for every digit before the point and for the places. -/
def roundHalfUp (c : Context) (d : Decimal) (places : Nat) : Except Signal Decimal :=
  let precision := max c.precision (d.adjusted + places + 2).toNat
  { c with precision }.quantize d (-(places : Int))

end Context

end Worksheet.Decimal
