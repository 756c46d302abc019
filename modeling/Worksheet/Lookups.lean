-- SUMMARY: The tables of a workbook that cells refer to.
import Worksheet.Dictionary
import Worksheet.Fault
import Worksheet.Format.Builtin

/-!
# Lookups

A workbook keeps three tables: its shared strings and its cell formats, which
are counted from zero, and its own number formats by id. What is not in a table
is missing; nothing is guessed.
-/

namespace Worksheet

structure Lookups where
  sharedStrings : List String
  /-- The workbook's own patterns, by format id. -/
  customFormats : Mapping Int String
  /-- The format ids of the cell styles. -/
  cellFormats : List Int

namespace Lookups

/-- The lookups of a workbook without any entries. -/
def empty : Lookups := ⟨[], [], []⟩

/-- There is no entry under a key, which the fault names. -/
def miss {α : Type} (table : Lookup) (key : Value) : Except Fault α :=
  .error (Fault.naming key (.missingEntry table key))

/-- The entry at a position that may be out of range. -/
def entryAt? {α : Type} (entries : List α) (n : Int) : Option α :=
  if n < 0 then none else entries[n.toNat]?

/-- A shared string. -/
def sharedString (l : Lookups) (n : Int) : Except Fault String :=
  match entryAt? l.sharedStrings n with
  | some s => .ok s
  | none => miss .sharedStrings (.integer n)

/-- The format id of a cell style. -/
def formatOfStyle (l : Lookups) (n : Int) : Except Fault Int :=
  match entryAt? l.cellFormats n with
  | some id => .ok id
  | none => miss .cellFormats (.integer n)

/-- The pattern of a format; the workbook's own formats go first. -/
def pattern (l : Lookups) (id : Int) : Except Fault String :=
  match l.customFormats.get? id with
  | some p => .ok p
  | none =>
    match Format.builtin? id with
    | some p => .ok p
    | none => miss .numberFormats (.integer id)

/-! ## Untyped keys -/

/-- The entry at an untyped position. Only whole numbers are positions, but other
    numbers are at least seen to be out of range. -/
def entryAtKey (table : Lookup) {α : Type} (entries : List α) (key : Value) : Except Fault α :=
  match key.whole?, key.number? with
  | some n, _ => match entryAt? entries n with
    | some a => .ok a
    | none => miss table key
  | none, some (.finite q) =>
    if 0 ≤ q ∧ q < (entries.length : Rat) then .error .unfitKind else miss table key
  | none, some _ => miss table key
  | none, none => .error .unfitKind

/-- The shared string at an untyped position. -/
def sharedStringAt (l : Lookups) (key : Value) : Except Fault String :=
  entryAtKey .sharedStrings l.sharedStrings key

/-- The format id of the cell style at an untyped position. -/
def formatOfStyleAt (l : Lookups) (key : Value) : Except Fault Int :=
  entryAtKey .cellFormats l.cellFormats key

/-- The id that an untyped key is equal to, if there is one. -/
def formatId? (key : Value) : Option Int :=
  match key.number? with
  | some (.finite q) => if q.den = 1 then some q.num else none
  | _ => none

/-- The pattern of the format with an untyped id. -/
def patternAt (l : Lookups) (key : Value) : Except Fault String :=
  if !Dictionary.isKey key then .error .unfitKind
  else
    match (formatId? key).map l.pattern with
    | some (.ok p) => .ok p
    | _ => miss .numberFormats key

/-! ## Lookups from untyped fields -/

/-- Check the patterns, each under its id. Ids that denote the same number are one
    id, and the last of them counts. -/
def checkFormats (formats : List (Value × Value)) : Checked (Mapping Int String) :=
  (Dictionary.check Schema.looseInteger Schema.text (Dictionary.ofPairs formats)).map Mapping.ofList

/-- Check the tables that untyped fields describe. -/
def check (fields : Fields) (formats : List (Value × Value)) : Checked Lookups := do
  let ((sharedStrings, customFormats), cellFormats) ← Checked.both
    (Checked.both (Schema.optional fields "shared_strings" [] (Schema.tuple Schema.text))
      (Checked.within "custom_formats" (checkFormats formats)))
    (Schema.optional fields "cell_formats" [] (Schema.tuple Schema.looseInteger))
  pure { sharedStrings, customFormats, cellFormats }

/-- The lookups that untyped tables describe. The ids of patterns must be fit for
    keys before anything else is looked at. -/
def ofFields (fields : Fields) (formats : List (Value × Value)) : Except Fault Lookups :=
  if formats.all (fun f => Dictionary.isKey f.1) then (check fields formats).mapError Fault.invalid
  else .error .unfitKind

end Lookups

end Worksheet
