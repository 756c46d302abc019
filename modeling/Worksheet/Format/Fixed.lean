-- SUMMARY: Numbers shown with a fixed number of decimal places.
import Worksheet.Fault
import Worksheet.Format.Filling

/-!
# Fixed-Point Numbers

The number is rounded half up to as many decimal places as there are places
after the point. A comma before the point asks for thousands separators.
-/

namespace Worksheet.Format.Fixed

/-- The places for digits after the point. -/
def fractionPlaces (body : List NumberToken) : List Placeholder :=
  NumberToken.places ((NumberToken.afterPoint? body).getD [])

/-- A rounded number in the tokens of a section's body. -/
def layout (rounded : Decimal) (body : List NumberToken) : List Char :=
  let whole := NumberToken.beforePoint body
  let wholeText := fillTokens rounded.integerDigits whole (whole.contains .comma)
  match NumberToken.afterPoint? body with
  | none => wholeText
  | some fraction =>
    let cells := fractionCells (rounded.fractionDigits.zip (NumberToken.places fraction))
    wholeText ++ '.' :: layCells fraction cells

/-- A number without sign in the tokens of a section's body. -/
def text (c : Decimal.Context) (d : Decimal) (body : List NumberToken) :
    Except Fault (List Char) := do
  let rounded ← Decimal.lift (c.roundHalfUp d (fractionPlaces body).length)
  pure (layout rounded body)

end Worksheet.Format.Fixed
