-- SUMMARY: Numerals of binary64 values.
import Worksheet.Text.Case
import Worksheet.Decimal.Numeral
import Worksheet.Binary64.Basic

/-!
# Numerals of Binary64 Values

A value is typed as a decimal numeral, which is rounded once, or by one of the
names of infinity and of not-a-number, with an optional sign and in any case.
Spaces may stand around it, and a single underscore between two digits.
-/

namespace Worksheet.Binary64

/-- Drop the underscores between two digits; there may be no others. The flag says
    that the character before is a digit. -/
def withoutUnderscores? : Bool → List Char → Option (List Char)
  | _, [] => some []
  | afterDigit, c :: rest =>
    if c = '_' then
      match rest with
      | [] => none
      | d :: _ =>
        if afterDigit && (Text.digitValue? d).isSome then withoutUnderscores? false rest else none
    else (withoutUnderscores? (Text.digitValue? c).isSome rest).map (c :: ·)

/-- The value with this name. -/
def named? (negative : Bool) (s : List Char) : Option Binary64 :=
  let name := Text.lowerAll s
  if name = "inf".toList ∨ name = "infinity".toList then some (.infinity negative)
  else if name = "nan".toList then some .nan
  else none

/-- The value that a numeral without spaces and underscores denotes. -/
def bare? (s : List Char) : Option Binary64 :=
  match Decimal.signed? s with
  | some d => some d.toBinary64
  | none =>
    match s with
    | '-' :: rest => named? true rest
    | '+' :: rest => named? false rest
    | rest => named? false rest

/-- The value that a numeral denotes. -/
def parse? (s : List Char) : Option Binary64 :=
  (withoutUnderscores? false (Text.trimSpaces s)).bind bare?

end Worksheet.Binary64
