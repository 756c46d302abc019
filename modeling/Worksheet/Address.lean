-- SUMMARY: Addresses of cells, such as `B7`.
import Worksheet.Column

/-!
# Cell Addresses

An address is a column and a row, both counted from one. It is written as the
name of the column followed by the number of the row.
-/

namespace Worksheet

structure Address where
  column : Int
  row : Int
  column_pos : 1 ≤ column := by omega
  row_pos : 1 ≤ row := by omega
deriving DecidableEq

namespace Address

/-- The letters of the column. -/
def columnName (a : Address) : List Char := Column.name a.column.toNat

/-- The address written out. -/
def chars (a : Address) : List Char := a.columnName ++ Digits.ofInt a.row

/-- The address as text; its row number must not be too long to be written. -/
def text (a : Address) : Except Fault String :=
  if Digits.exceedsLimit a.row.natAbs then .error .unreadableNumeral
  else .ok (String.ofList a.chars)

/-- The address at a column and a row. The column is complained about first. -/
def create (column row : Int) : Except Fault Address :=
  if hc : column < 1 then .error (Fault.naming (.integer column) (.columnIndex column))
  else if hr : row < 1 then .error (Fault.naming (.integer row) (.rowIndex row))
  else .ok { column, row }

/-- Split a reference into its letters and its digits. -/
def split? (s : List Char) : Option (List Char × List Char) :=
  let letters := s.takeWhile Column.isLetter
  let digits := s.dropWhile Column.isLetter
  if letters.isEmpty || digits.isEmpty || !digits.all Char.isDigit then none
  else some (letters, digits)

/-- The address that a text refers to. Blanks around it do not matter. -/
def parse (s : String) : Except Fault Address :=
  let t := Text.trim s.toList
  match split? t with
  | none => .error (.addressFormat (.text (String.ofList t)))
  | some (letters, digits) =>
    if Digits.limit < digits.length then .error .unreadableNumeral
    else create (Column.index letters) (Digits.value digits)

/-- The address that a value refers to; only texts do. -/
def ofValue : Value → Except Fault Address
  | .text s => parse s
  | v => .error (Fault.naming v (.addressFormat v))

/-- Row and column counted from zero. -/
def zeroBased (a : Address) : Int × Int := (a.row - 1, a.column - 1)

/-- The address some rows down and some columns to the right. -/
def offset (a : Address) (rows columns : Int) : Except Fault Address :=
  create (a.column + columns) (a.row + rows)

/-- The results of offsets that are applied one after another. A step that fails
    leaves the address where it was. -/
def walk (a : Address) : List (Int × Int) → List (Except Fault Address)
  | [] => []
  | (rows, columns) :: rest =>
    match a.offset rows columns with
    | .ok b => .ok b :: walk b rest
    | .error e => .error e :: walk a rest

/-! ## Addresses from untyped fields -/

/-- What is wrong with a row in front of the first one. If its number is too long to be
    written, just that is said. -/
def rowRule (row : Int) : String :=
  if (Value.integer row).isWritable then
    "Row index should be greater than zero, got " ++ String.ofList (Digits.ofInt row)
  else "Exceeds the limit (" ++ String.ofList (Digits.ofNat Digits.limit)
    ++ " digits) for integer string conversion; "
    ++ "use sys.set_int_max_str_digits() to increase the limit"

/-- The address with this column name and row. -/
def ofName (name : String) (row : Int) : Checked Address :=
  if hn : Column.isName name.toList then
    if hr : row < 1 then Checked.fail (.rule (rowRule row))
    else .ok { column := Column.index name.toList, row, column_pos := Column.one_le_index hn }
  else Checked.fail (.rule ("Column name must be letters A-Z, got " ++ Text.quoted name))

/-- Check a given column number. It is not looked at if the name says which
    column it is. -/
def checkGivenIndex (fields : Fields) : Checked Int :=
  match fields.lookup "column_name" with
  | some (.text _) => .ok 0
  | _ => Schema.optional fields "column_index" 0 Schema.strictInteger

/-- The address that untyped fields describe. -/
def ofFields (fields : Fields) : Checked Address := do
  let ((name, row), _) ← Checked.both
    (Checked.both (Schema.required fields "column_name" Schema.nonemptyText)
      (Schema.required fields "row_index" Schema.strictInteger))
    (checkGivenIndex fields)
  ofName name row

end Address

end Worksheet
