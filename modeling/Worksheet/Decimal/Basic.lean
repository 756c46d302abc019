-- SUMMARY: Exact decimal numbers: sign, coefficient and exponent.
import Worksheet.Text.Digits

/-!
# Decimal Numbers

A decimal number is kept as it was written: `1.50` and `1.5` are equal in
value and differ as decimals. Zero has a sign and an exponent too.
-/

namespace Worksheet

/-- The number `± coefficient · 10 ^ exponent`. -/
structure Decimal where
  negative : Bool
  coefficient : Nat
  exponent : Int
deriving DecidableEq, Repr

namespace Decimal

/-- A natural number as a decimal. -/
def ofNat (n : Nat) : Decimal := ⟨false, n, 0⟩

def isZero (d : Decimal) : Bool := d.coefficient = 0

/-- Whether the number is below zero; a negative zero is not. -/
def isNegative (d : Decimal) : Bool := d.negative && !d.isZero

/-- How many digits the coefficient has. -/
def digitCount (d : Decimal) : Nat := Digits.count d.coefficient

/-- The exponent of the leading digit. -/
def adjusted (d : Decimal) : Int := d.exponent + d.digitCount - 1

/-- The value without its sign. -/
def magnitude (d : Decimal) : Rat :=
  if 0 ≤ d.exponent then (d.coefficient * Nat.pow 10 d.exponent.toNat : Nat)
  else mkRat d.coefficient (Nat.pow 10 (-d.exponent).toNat)

/-- The value of a decimal. -/
def value (d : Decimal) : Rat := if d.negative then -d.magnitude else d.magnitude

/-- The whole part of the value without its sign. -/
def wholePart (d : Decimal) : Nat :=
  if 0 ≤ d.exponent then d.coefficient * Nat.pow 10 d.exponent.toNat
  else d.coefficient / Nat.pow 10 (-d.exponent).toNat

/-- The digits before the point when the number is written without an exponent. -/
def integerDigits (d : Decimal) : List Char := Digits.ofNat d.wholePart

/-- The digits after the point when the number is written without an exponent. -/
def fractionDigits (d : Decimal) : List Char := Digits.fraction (-d.exponent).toNat d.coefficient

/-- The number written without an exponent. -/
def plain (d : Decimal) : List Char :=
  (if d.negative then ['-'] else []) ++ d.integerDigits ++
    (if d.exponent < 0 then '.' :: d.fractionDigits else [])

/-- The number times a power of ten. -/
def shift (d : Decimal) (k : Int) : Decimal := { d with exponent := d.exponent + k }

/-- Move trailing zeros of a coefficient into its exponent. -/
def stripZeros (c : Nat) (e : Int) : Nat × Int :=
  if h : c ≠ 0 ∧ c % 10 = 0 then stripZeros (c / 10) (e + 1) else (c, e)
termination_by c
decreasing_by omega

/-- The shortest form of a number: no trailing zeros, and exponent 0 for zero. -/
def reduce (d : Decimal) : Decimal :=
  if d.isZero then { d with exponent := 0 }
  else
    let r := stripZeros d.coefficient d.exponent
    { d with coefficient := r.1, exponent := r.2 }

end Decimal

end Worksheet
