-- SUMMARY: Numbers in the General format.
import Worksheet.Fault

/-!
# The General Format

General shows a number with up to eleven digits, rounded half up and without
trailing zeros. Numbers below `10 ^ -9` or from `10 ^ 11` on have an exponent.
-/

namespace Worksheet.Format.General

/-- How many digits are shown. -/
def digits : Nat := 11

/-- The arithmetic that rounds to the digits shown. -/
def context : Decimal.Context := ⟨digits, .halfUp⟩

/-- A number without trailing zeros, other than zero, written out. -/
def layout (d : Decimal) : List Char :=
  let e := d.adjusted
  if -10 < e ∧ e < digits then d.plain
  else
    let mantissa : Decimal := { d with exponent := d.exponent - e }
    mantissa.plain ++ ['E', if e < 0 then '-' else '+'] ++ Digits.padded 2 e.natAbs

/-- A number in the General format. -/
def text (d : Decimal) : Except Fault (List Char) := do
  let r ← Decimal.lift (context.fit d)
  if r.isZero then pure ['0'] else pure (layout r.reduce)

end Worksheet.Format.General
