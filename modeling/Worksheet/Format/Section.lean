-- SUMMARY: The sections of a pattern, the choice among them, and their cleaning.
import Worksheet.Text.Case
import Worksheet.Text.Pieces
import Worksheet.Fault

/-!
# Sections of a Pattern

A pattern has up to four sections between semicolons: for positive numbers, for
negative numbers, for zero, and for text. A number is shown by the section of
its sign. The section for negative numbers has its own way to show the sign, so
it is given the number without it.
-/

namespace Worksheet

/-- The sign of a number; a negative zero is a zero. -/
def Decimal.sign (d : Decimal) : Sign :=
  if d.isZero then .zero else if d.negative then .negative else .positive

namespace Format

/-- The sections of a pattern; what follows the fourth one is ignored. -/
def sections (pattern : List Char) : List (List Char) := (Text.pieces ';' pattern).take 4

/-- The section that a number is shown by. -/
structure Choice where
  text : List Char
  /-- The section shows the sign itself. -/
  absolute : Bool
  /-- The pattern has no section for the sign, and this is its first one. -/
  isFallback : Bool
deriving DecidableEq

/-- Whether a section is the word General, in any case and between blanks. -/
def isGeneral (s : List Char) : Bool := Text.lowerAll (Text.trim s) = "general".toList

/-- Choose the section for a sign. A pattern that is only General serves every
    sign. Otherwise a missing section is an error if the choice is strict, and
    the first section takes its place if it is not. -/
def choose (strict : Bool) (pattern : String) (sign : Sign) : Except Fault Choice :=
  let all := sections pattern.toList
  match all[sign.place]? with
  | some text => .ok ⟨text, sign = .negative, false⟩
  | none =>
    let first := all.headD []
    if all.length = 1 ∧ isGeneral first then .ok ⟨first, false, false⟩
    else if strict then .error (.noSection pattern sign)
    else .ok ⟨first, false, true⟩

/-! ## Cleaning -/

/-- Whether a character marks a filler: it and the next one only fill space. -/
def isFillerMark (c : Char) : Bool := c = '_' || c = '*'

/-- Drop the fillers of a section. -/
def stripFillers : List Char → List Char
  | [] => []
  | [c] => if isFillerMark c then [] else [c]
  | c :: d :: rest =>
    if isFillerMark c then stripFillers rest else c :: stripFillers (d :: rest)

/-- Drop the quotes of a section; what stands in them is kept. -/
def stripQuotes (s : List Char) : List Char := s.filter (· ≠ '"')

/-- A section without fillers and quotes. -/
def clean (s : List Char) : List Char := stripQuotes (stripFillers s)

end Format

end Worksheet
