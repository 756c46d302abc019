-- SUMMARY: Cells and rows as a sheet stores them.
import Worksheet.Address

/-!
# Stored Cells

A stored cell has its raw text and says how to get from it to the text that is
displayed. Rows hold only the cells that are there, in no particular order.
-/

namespace Worksheet

/-- How raw text becomes the text that is displayed. -/
inductive CellKind where
  /-- The raw text is displayed. -/
  | text
  /-- The raw text is the position of a shared string. -/
  | sharedString
  /-- The raw text is displayed in the format of the cell's style. -/
  | styled
  /-- The raw text is displayed; it may be a number. -/
  | plain
deriving DecidableEq, Repr

def CellKind.ofName? (name : String) : Option CellKind :=
  if name = "text" then some .text
  else if name = "shared_string_ref" then some .sharedString
  else if name = "styled" then some .styled
  else if name = "plain" then some .plain
  else none

structure Cell where
  address : Address
  kind : CellKind
  raw : String
  style : Option Int

namespace Cell

def checkKind : Value → Checked CellKind
  | .text name =>
    match CellKind.ofName? name with
    | some k => .ok k
    | none => Checked.fail .notCellKind
  | _ => Checked.fail .notCellKind

def checkStyle : Value → Checked (Option Int)
  | .null => .ok none
  | v => (Schema.looseIntegerFrom 0 v).map some

/-- The cell at a reference that untyped fields describe. A bad reference is
    complained about before the fields are looked at. -/
def ofFields (reference : Value) (fields : Fields) : Except Fault Cell := do
  let address ← Address.ofValue reference
  let ((kind, raw), style) ← (Checked.both
    (Checked.both (Schema.optional fields "data_kind" .plain checkKind)
      (Schema.optional fields "raw_text" "" Schema.text))
    (Schema.optional fields "style_index" none checkStyle)).mapError Fault.invalid
  pure { address, kind, raw, style }

end Cell

/-- The number of a row. A row that was not checked may have a real number, or
    something that cannot be compared with row numbers at all. -/
inductive RowNumber where
  | whole (n : Int)
  | real (x : Binary64)
  | unordered
deriving DecidableEq

/-- The number of a row that is not checked. -/
def RowNumber.ofValue (v : Value) : RowNumber :=
  match v.whole?, v.number? with
  | some n, _ => .whole n
  | none, some x => .real x
  | none, none => .unordered

structure Row where
  number : RowNumber
  cells : List Cell

namespace Row

/-- A row whose number is checked. -/
def checked (number : Value) (cells : List Cell) : Except Fault Row := do
  let n ← (Checked.within "row_index" (Schema.looseIntegerFrom 1 number)).mapError Fault.invalid
  pure ⟨.whole n, cells⟩

/-- A row taken as it is. -/
def unchecked (number : Value) (cells : List Cell) : Row := ⟨.ofValue number, cells⟩

end Row

end Worksheet
