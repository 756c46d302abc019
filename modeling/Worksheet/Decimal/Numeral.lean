-- SUMMARY: Decimal numerals as they are typed into a cell.
import Worksheet.Text.Blank
import Worksheet.Text.Digit
import Worksheet.Text.Integer
import Worksheet.Decimal.Basic

/-!
# Decimal Numerals

A numeral may stand between blanks. It is an optional sign, decimal digits of
any script with at most one point among them, and an optional exponent. It is
read exactly: the coefficient holds every digit after the leading zeros, and
the exponent is the written one less the number of digits after the point.
-/

namespace Worksheet.Decimal

/-- Split off the leading digits, by value. -/
def spanDigits : List Char → List Nat × List Char
  | [] => ([], [])
  | c :: rest =>
    match Text.digitValue? c with
    | some d => (d :: (spanDigits rest).1, (spanDigits rest).2)
    | none => ([], c :: rest)

/-- The natural number of a text that is all digits, and at least one. -/
def wholeNumber? (s : List Char) : Option Nat :=
  match spanDigits s with
  | ([], _) => none
  | (ds, []) => some (Integer.ofDigits ds)
  | (_, _ :: _) => none

/-- The exponent written at the end of a numeral; none written is zero. -/
def exponent? : List Char → Option Int
  | [] => some 0
  | c :: rest =>
    if c = 'e' ∨ c = 'E' then
      match rest with
      | '-' :: s => (wholeNumber? s).map (fun n => -(n : Int))
      | '+' :: s => (wholeNumber? s).map (fun n => (n : Int))
      | s => (wholeNumber? s).map (fun n => (n : Int))
    else none

/-- The digits after the point, and what follows them. -/
def spanFraction : List Char → List Nat × List Char
  | '.' :: rest => spanDigits rest
  | s => ([], s)

/-- A numeral without its sign. -/
def unsigned? (negative : Bool) (s : List Char) : Option Decimal :=
  let whole := spanDigits s
  let fraction := spanFraction whole.2
  if whole.1.isEmpty && fraction.1.isEmpty then none
  else (exponent? fraction.2).map fun e =>
    ⟨negative, Integer.ofDigits (whole.1 ++ fraction.1), e - fraction.1.length⟩

/-- The largest exponent of a leading digit that a numeral may have. -/
def largestWritten : Int := 999999999999999999

/-- The smallest exponent that a numeral may have. -/
def smallestWritten : Int := -1999999999999999997

/-- The number that a numeral without blanks denotes, however large its exponent is. -/
def signed? : List Char → Option Decimal
  | '-' :: rest => unsigned? true rest
  | '+' :: rest => unsigned? false rest
  | rest => unsigned? false rest

/-- The number that a numeral denotes, however large its exponent is. -/
def numeral? (s : List Char) : Option Decimal := signed? (Text.trim s)

/-- Whether the exponents of a number are within bounds. -/
def isWritable (d : Decimal) : Bool := d.adjusted ≤ largestWritten && smallestWritten ≤ d.exponent

/-- The number that a numeral denotes, if its exponent is within bounds. -/
def parse? (s : List Char) : Option Decimal := (numeral? s).filter isWritable

end Worksheet.Decimal
