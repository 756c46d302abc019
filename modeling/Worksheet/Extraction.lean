-- SUMMARY: Tables taken from the cells of a sheet.
import Worksheet.Cell
import Worksheet.Format.Display
import Worksheet.Log.Traced
import Worksheet.Lookups
import Worksheet.Table

/-!
# Extraction

A table is filled from the rows between its header row and its last row, in the
order in which they arrive. A cell goes to the header at its distance from the
first column; if a row has two cells for one header, the later one counts.
Headers without a cell have the empty value.
-/

namespace Worksheet

/-- What a table is extracted with. -/
structure Extractor where
  lookups : Lookups
  /-- A number format without a section for a number's sign is an error. -/
  strict : Bool
  /-- The value of a header without a cell. A table only takes a text, but that is
      found out when one is made. -/
  emptyValue : Value

namespace Extractor

/-! ## Single cells -/

/-- The format of a styled cell, by id and pattern. -/
def format (x : Extractor) (cell : Cell) : Except Fault (Int × String) :=
  match cell.style with
  | none => Lookups.miss .cellFormats .null
  | some style => do
    let id ← x.lookups.formatOfStyle style
    return (id, ← x.lookups.pattern id)

/-- The text that a cell displays. -/
def display (x : Extractor) (cell : Cell) : Except Fault String :=
  match cell.kind with
  | .text => .ok cell.raw
  | .plain => .ok cell.raw
  | .sharedString =>
    match Integer.parse? cell.raw.toList with
    | some n => x.lookups.sharedString n
    | none => Lookups.miss .sharedStrings (.text cell.raw)
  | .styled => do
    let f ← x.format cell
    Format.Display.text x.strict cell.raw f.1 f.2

/-- What is remarked when a cell is displayed. -/
def remark? (x : Extractor) (cell : Cell) : Option String :=
  match cell.kind, x.format cell with
  | .styled, .ok f => Format.Display.remark? x.strict cell.raw f.2
  | _, _ => none

/-- Display a cell and log the remark on it. -/
def displayLogged (x : Extractor) (cell : Cell) : Traced String := do
  match x.remark? cell with
  | some m => Traced.note .debug m
  | none => pure ()
  Traced.ofResult (x.display cell)

/-! ## Rows -/

/-- What is remarked on a cell in a column of a table that has no header there. -/
def unheaded (name : Value) (cell : Cell) : Except Fault String := do
  let address ← cell.address.text
  let table ← name.shown
  return "Cell " ++ address ++ " has no header in table " ++ table

/-- Write the cells of a row over values, one for each header. -/
def fillRow (x : Extractor) (name : Value) (b : Bounds) :
    List Cell → List Value → Traced (List Value)
  | [], values => pure values
  | cell :: rest, values =>
    if !b.containsColumn cell.address.column then fillRow x name b rest values
    else do
      let position := (b.columnPosition cell.address).toNat
      if values.length ≤ position then
        Traced.logShown .debug (unheaded name cell)
        fillRow x name b rest values
      else
        let v ← x.displayLogged cell
        fillRow x name b rest (values.set position (.text v))

/-- Whether a row holds data of a table. -/
def selects (b : Bounds) (row : Row) : Except Fault Bool :=
  match row.number with
  | .whole n => .ok (b.containsRow n)
  | .real (.finite q) => .ok ((b.firstDataRow : Rat) ≤ q && q ≤ (b.lastDataRow : Rat))
  | .real _ => .ok false
  | .unordered => .error .unfitKind

/-- The values of all rows that hold data. -/
def fillRows (x : Extractor) (name : Value) (headers : List Value) (b : Bounds) :
    List Row → Traced (List (List Value))
  | [] => pure []
  | row :: rest => do
    if ← Traced.ofResult (selects b row) then
      let values ← fillRow x name b row.cells (headers.map (fun _ => x.emptyValue))
      if !headers.all Dictionary.isKey then Traced.ofResult (.error .unfitKind)
      return values :: (← fillRows x name headers b rest)
    else fillRows x name headers b rest

/-! ## Tables -/

/-- The position of the first header that is missing. -/
def missingHeader? (headers : List Value) : Option Nat :=
  headers.findIdx? fun
    | .null => true
    | _ => false

/-- What is remarked when the rows of a table have been filled. -/
def summary (name : Value) (b : Bounds) (rows : Nat) : Except Fault String := do
  let table ← name.shown
  let range ← b.text
  return "Extracted " ++ String.ofList (Digits.ofNat rows) ++ " rows for table " ++ table
    ++ " (" ++ range ++ ")"

/-- Extract the table with these headers within bounds. -/
def extract (x : Extractor) (name : Value) (headers : List Value) (b : Bounds) (rows : List Row) :
    Traced Table :=
  match missingHeader? headers with
  | some position => Traced.ofResult (.error (.headerMissing position))
  | none => do
    let values ← fillRows x name headers b rows
    Traced.logShown .debug (summary name b values.length)
    Traced.ofResult ((Table.assemble name headers values).mapError Fault.invalid)

/-- Extract a table within the bounds of its declaration. -/
def extractWithin (x : Extractor) (d : Declaration) (b : Bounds) (rows : List Row) :
    Traced Table :=
  x.extract (.text d.name) (d.headers.map .text) b rows

/-- Extract a declared table. -/
def extractDeclared (x : Extractor) (d : Declaration) (rows : List Row) : Traced Table := do
  let b ← Traced.ofResult d.bounds
  x.extractWithin d b rows

end Extractor

end Worksheet
