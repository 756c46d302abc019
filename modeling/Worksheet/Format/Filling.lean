-- SUMMARY: Digits in the places that a section holds for them.
import Worksheet.Format.NumberToken

/-!
# Filling Places with Digits

The digits before the point fill the places from the right; the leftmost place
takes all digits that are left, and places without a digit show their padding.
The digits after the point fill the places from the left, and trailing zeros
show only in zero places.
-/

namespace Worksheet.Format

/-- The digits that a whole part shows on its own: none for zero. -/
def shownDigits (ds : List Char) : List Char := if ds = ['0'] then [] else ds

/-- Digits in places that stand side by side. -/
def fillWhole (ds : List Char) (ps : List Placeholder) : List Char :=
  let ds := shownDigits ds
  (ps.take (ps.length - ds.length)).flatMap Placeholder.padding ++ ds

/-- A whole part, or a zero where it would show nothing. -/
def orZero : List Char → List Char
  | [] => ['0']
  | s => s

/-! ## Places among other tokens -/

/-- A character of a filled whole part: from a place, or literal. -/
inductive Piece where
  | filled (c : Char)
  | literal (c : Char)
deriving DecidableEq, Repr

namespace Piece

def char : Piece → Char
  | .filled c => c
  | .literal c => c

/-- Put the digits into the places, last token first and last digit first. -/
def ofReversed : List NumberToken → List Char → List Piece
  | [], _ => []
  | .literal c :: ts, ds => .literal c :: ofReversed ts ds
  | .digit p :: ts, ds =>
    let taken := if ts.any NumberToken.isPlace then ds.take 1 else ds
    let shown := if taken.isEmpty then p.padding else taken
    shown.map .filled ++ ofReversed ts (ds.drop taken.length)
  | _ :: ts, ds => ofReversed ts ds

/-- The characters with a comma before every third digit, last piece first. The
    number says how many digits there are already. -/
def grouped : Nat → List Piece → List Char
  | _, [] => []
  | n, .literal c :: rest => c :: grouped n rest
  | n, .filled c :: rest =>
    if c.isDigit then
      if n ≠ 0 ∧ n % 3 = 0 then ',' :: c :: grouped (n + 1) rest else c :: grouped (n + 1) rest
    else c :: grouped n rest

end Piece

/-- Digits in the places of a whole part, its literals kept where they are. -/
def fillTokens (ds : List Char) (ts : List NumberToken) (thousands : Bool) : List Char :=
  let pieces := Piece.ofReversed ts.reverse (shownDigits ds).reverse
  (if thousands then Piece.grouped 0 pieces else pieces.map Piece.char).reverse

/-! ## Places after the point -/

/-- Whether a digit does not show in its place if only such digits follow it. -/
def isTrimmed (cell : Char × Placeholder) : Bool := cell.1 = '0' && cell.2 ≠ .zero

/-- What each place after the point shows. -/
def fractionCells : List (Char × Placeholder) → List (List Char)
  | [] => []
  | cell :: rest =>
    (if isTrimmed cell && rest.all isTrimmed then cell.2.padding else [cell.1])
      :: fractionCells rest

/-- Cells in their places among the literals of a fraction part. -/
def layCells : List NumberToken → List (List Char) → List Char
  | .digit _ :: ts, cell :: cells => cell ++ layCells ts cells
  | .literal c :: ts, cells => c :: layCells ts cells
  | _ :: ts, cells => layCells ts cells
  | [], _ => []

end Worksheet.Format
