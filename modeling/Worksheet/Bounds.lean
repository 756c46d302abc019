-- SUMMARY: The range of cells that a table takes up.
import Worksheet.Text.Pieces
import Worksheet.Address

/-!
# Table Bounds

The bounds of a table are its first and its last cell. The first row holds the
headers and the rows below it the data. If the last cell lies above or to the
left of the first one, the table has no data.
-/

namespace Worksheet

structure Bounds where
  start : Address
  stop : Address
deriving DecidableEq

namespace Bounds

/-- One side of a range. A side that is no address makes the range malformed. -/
def side (range : String) (s : List Char) : Except Fault Address :=
  match Address.parse (String.ofList s) with
  | .error (.addressFormat given) => .error (.rangeSide range (.addressFormat given))
  | .error (.rowIndex n) => .error (.rangeSide range (.rowIndex n))
  | r => r

/-- The bounds that a range such as `A1:B2` denotes. -/
def parse (s : String) : Except Fault Bounds :=
  match Text.pieces ':' s.toList with
  | [l, r] => do
    let start ← side s l
    let stop ← side s r
    pure ⟨start, stop⟩
  | _ => .error (.rangeFormat s)

/-- The range written out. -/
def chars (b : Bounds) : List Char := b.start.chars ++ ':' :: b.stop.chars

/-- The range as text; its row numbers must not be too long to be written. -/
def text (b : Bounds) : Except Fault String := do
  let start ← b.start.text
  let stop ← b.stop.text
  pure (start ++ ":" ++ stop)

/-- The row of the headers. -/
def headerRow (b : Bounds) : Int := b.start.row

/-- The first row of data, right below the headers. -/
def firstDataRow (b : Bounds) : Int := b.start.row + 1

/-- The last row of data. -/
def lastDataRow (b : Bounds) : Int := b.stop.row

/-- How many columns there are; not positive if the last cell lies to the left. -/
def columnCount (b : Bounds) : Int := b.stop.column - b.start.column + 1

/-- Whether a row holds data of the table. -/
def containsRow (b : Bounds) (row : Int) : Bool := b.firstDataRow ≤ row && row ≤ b.lastDataRow

/-- Whether a column is one of the table. -/
def containsColumn (b : Bounds) (column : Int) : Bool :=
  b.start.column ≤ column && column ≤ b.stop.column

/-- The position of a cell's column in the table, counted from zero. -/
def columnPosition (b : Bounds) (a : Address) : Int := a.column - b.start.column

theorem containsRow_iff (b : Bounds) (row : Int) :
    b.containsRow row = true ↔ b.start.row + 1 ≤ row ∧ row ≤ b.stop.row := by
  simp [containsRow]; rfl

theorem containsColumn_iff (b : Bounds) (column : Int) :
    b.containsColumn column = true ↔ b.start.column ≤ column ∧ column ≤ b.stop.column := by
  simp [containsColumn]

end Bounds

end Worksheet
