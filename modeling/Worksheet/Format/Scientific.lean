-- SUMMARY: Numbers shown with a mantissa and an exponent.
import Worksheet.Fault
import Worksheet.Format.Filling

/-!
# Scientific Notation

The mantissa has as many digits before the point as there are places for them,
and at least one. It is rounded half up to its places after the point; if that
gives it one digit too many, it is taken anew with the next exponent.
-/

namespace Worksheet.Format.Scientific

/-- The parts of a section's body around the mark of the exponent. -/
structure Shape where
  /-- Places of the mantissa before the point. -/
  whole : List Placeholder
  /-- Places of the mantissa after the point, if it has a point. -/
  fraction? : Option (List Placeholder)
  /-- Places of the exponent. -/
  exponent : List Placeholder
  upper : Bool
  /-- A positive exponent has a sign. -/
  signed : Bool

/-- The shape of a body, if it has the mark of an exponent. -/
def Shape.ofBody? (body : List NumberToken) : Option Shape :=
  let mantissa := body.takeWhile (!·.isMark)
  match body.dropWhile (!·.isMark) with
  | .exponent upper signed :: rest =>
    some {
      whole := NumberToken.places (NumberToken.beforePoint mantissa)
      fraction? := (NumberToken.afterPoint? mantissa).map NumberToken.places
      exponent := NumberToken.places rest
      upper, signed }
  | _ => none

/-- How many digits the mantissa has before the point. -/
def Shape.width (s : Shape) : Nat := max s.whole.length 1

/-- How many digits the mantissa has after the point. -/
def Shape.places (s : Shape) : Nat := (s.fraction?.getD []).length

/-- The mantissa for an exponent. -/
def mantissa (c : Decimal.Context) (d : Decimal) (places : Nat) (exponent : Int) :
    Except Decimal.Signal Decimal := do
  c.roundHalfUp (← c.scale d (-exponent)) places

/-- Mantissa and exponent of a number. -/
def split (c : Decimal.Context) (d : Decimal) (s : Shape) : Except Decimal.Signal (Decimal × Int) :=
  if d.isZero then return (← c.roundHalfUp d s.places, 0)
  else do
    let exponent := d.adjusted - ((s.width : Int) - 1)
    let m ← mantissa c d s.places exponent
    if m.coefficient < Nat.pow 10 (s.width + s.places) then return (m, exponent)
    else return (← mantissa c d s.places (exponent + 1), exponent + 1)

/-- A mantissa and an exponent written out. -/
def layout (m : Decimal) (exponent : Int) (s : Shape) : List Char :=
  let whole := orZero (fillWhole m.integerDigits s.whole)
  let fraction := match s.fraction? with
    | none => []
    | some ps => '.' :: (fractionCells (m.fractionDigits.zip ps)).flatten
  let sign := if exponent < 0 then ['-'] else if s.signed then ['+'] else []
  whole ++ fraction ++ (if s.upper then 'E' else 'e') :: sign
    ++ Digits.padded (max s.exponent.length 1) exponent.natAbs

/-- A number without sign in a shape. -/
def text (c : Decimal.Context) (d : Decimal) (s : Shape) : Except Fault (List Char) := do
  let r ← Decimal.lift (split c d s)
  pure (layout r.1 r.2 s)

end Worksheet.Format.Scientific
