-- SUMMARY: The fraction with a limited denominator that is nearest to a number.

/-!
# Fractions with a Limited Denominator

The continued fraction of a number gives its convergents, and the nearest
fraction with a denominator up to a limit is the last convergent within the
limit or the last fraction between it and the next one. Of two fractions that
are equally near, it is the convergent.
-/

namespace Worksheet

/-- A fraction, not necessarily of a number other than infinity. -/
structure Ratio where
  numerator : Nat
  denominator : Nat
deriving DecidableEq, Repr

namespace Ratio

/-- The fraction `k` steps from `a` in direction of `b`. -/
def step (a b : Ratio) (k : Nat) : Ratio :=
  ⟨a.numerator + k * b.numerator, a.denominator + k * b.denominator⟩

/-- The last two convergents with denominators up to `limit`, of a number whose
    continued fraction goes on with that of `n / d`. -/
def convergents (limit : Nat) (previous last : Ratio) (n d : Nat) : Ratio × Ratio :=
  if d = 0 then (previous, last)
  else
    let next := step previous last (n / d)
    if limit < next.denominator then (previous, last)
    else convergents limit last next d (n % d)
termination_by d
decreasing_by exact Nat.mod_lt _ (by omega)

/-- The distance between a fraction and a number. -/
def distance (r : Ratio) (q : Rat) : Rat :=
  let x := mkRat r.numerator r.denominator - q
  if x < 0 then -x else x

/-- The nearest fraction to a number that is not negative, with a denominator
    from 1 to `limit`. -/
def nearest (q : Rat) (limit : Nat) : Ratio :=
  if q.den ≤ limit then ⟨q.num.toNat, q.den⟩
  else
    let found := convergents limit ⟨0, 1⟩ ⟨1, 0⟩ q.num.toNat q.den
    let k := (limit - found.1.denominator) / found.2.denominator
    let between := step found.1 found.2 k
    if found.2.distance q ≤ between.distance q then found.2 else between

end Ratio

end Worksheet
