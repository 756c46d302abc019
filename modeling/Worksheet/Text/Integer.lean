-- SUMMARY: Integer numerals as they are typed.
import Worksheet.Text.Blank
import Worksheet.Text.Digit
import Worksheet.Text.Digits

/-!
# Integer Numerals

An integer numeral may stand between spaces. It has at most one sign and then
decimal digits of any script, where a single underscore may stand between two
digits, and no more than `Digits.limit` digits.
-/

namespace Worksheet.Integer

/-- Digits of any script with single underscores between them, by value. The
    flag says that the next character must be a digit. -/
def digits? : Bool → List Char → Option (List Nat)
  | true, [] => none
  | false, [] => some []
  | needed, c :: rest =>
    match Text.digitValue? c with
    | some d => (digits? false rest).map (d :: ·)
    | none => if c = '_' && !needed then digits? true rest else none

/-- The number with these digits. -/
def ofDigits (ds : List Nat) : Nat := ds.foldl (fun n d => 10 * n + d) 0

/-- The natural number that an unsigned numeral denotes. -/
def natural? (s : List Char) : Option Nat :=
  match digits? true s with
  | some ds => if ds.length ≤ Digits.limit then some (ofDigits ds) else none
  | none => none

/-- The integer that a numeral denotes. -/
def parse? (s : List Char) : Option Int :=
  match Text.trimSpaces s with
  | '-' :: rest => (natural? rest).map (fun n => -(n : Int))
  | '+' :: rest => (natural? rest).map (fun n => (n : Int))
  | rest => (natural? rest).map (fun n => (n : Int))

end Worksheet.Integer
