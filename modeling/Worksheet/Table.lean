-- SUMMARY: Extracted tables and their declarations.
import Worksheet.Bounds
import Worksheet.Dictionary

/-!
# Tables

A table has named columns and rows that map the names to texts. A name that
occurs twice has one value in each row, which is the one of its last column.
-/

namespace Worksheet

structure Table where
  name : String
  columns : List String
  rows : List (Mapping String String)
deriving DecidableEq, Repr

namespace Table

/-- The numbers of rows and of columns. -/
def shape (t : Table) : Nat × Nat := (t.rows.length, t.columns.length)

/-- The values of a row in the order of the columns; a missing one is empty. -/
def record (t : Table) (row : Mapping String String) : List String :=
  t.columns.map (fun c => (row.get? c).getD "")

/-- The values of all rows. -/
def records (t : Table) : List (List String) := t.rows.map t.record

/-- The table that untyped fields describe. -/
def ofFields (fields : Fields) : Checked Table := do
  let ((name, columns), rows) ← Checked.both
    (Checked.both (Schema.required fields "name" Schema.text)
      (Schema.optional fields "columns" [] (Schema.list Schema.text)))
    (Schema.optional fields "rows" [] (Schema.list (Schema.dictionary Schema.text)))
  pure { name, columns, rows }

/-! ## Tables from untyped headers and values -/

/-- A row with a value for each header. -/
def checkRow (headers values : List Value) : Checked (Mapping String String) :=
  Dictionary.check Schema.text Schema.text (Dictionary.ofPairs (headers.zip values))

/-- The table with these headers and rows of values. -/
def assemble (name : Value) (headers : List Value) (rows : List (List Value)) : Checked Table := do
  let ((name, columns), rows) ← Checked.both
    (Checked.both (Checked.within "name" (Schema.text name))
      (Checked.within "columns" (Checked.items Schema.text headers)))
    (Checked.within "rows" (Checked.all (rows.zipIdx.map fun r =>
      Checked.within (String.ofList (Digits.ofNat r.2)) (checkRow headers r.1))))
  pure { name, columns, rows }

end Table

/-- A table as a sheet declares it. -/
structure Declaration where
  name : String
  headers : List String
  reference : String
deriving DecidableEq, Repr

namespace Declaration

/-- The range of cells that the declaration refers to. -/
def bounds (d : Declaration) : Except Fault Bounds := Bounds.parse d.reference

/-- The declaration that untyped fields describe. -/
def ofFields (fields : Fields) : Checked Declaration := do
  let ((name, headers), reference) ← Checked.both
    (Checked.both (Schema.required fields "name" Schema.text)
      (Schema.required fields "header_names" (Schema.list Schema.text)))
    (Schema.required fields "reference" Schema.text)
  pure { name, headers, reference }

end Declaration

end Worksheet
