-- SUMMARY: Sessions: a workbook, its settings, and the extraction of its tables.
import Worksheet.Extraction
import Worksheet.Settings

/-!
# Sessions

A session extracts single tables and whole sheets of one workbook. While it
works, its log messages name the workbook, the sheet and the table.
-/

namespace Worksheet

structure Session where
  preferences : Preferences
  lookups : Lookups
  /-- The name of the workbook, if log messages are to show it. -/
  workbook : Option Value

namespace Session

/-- Start a session with settings and overrides. Its log needs a level that it can
    be started with, and tells all settings; overrides may have put anything in
    their place. -/
def start (settings : Settings) (overrides : Fields) (lookups : Lookups)
    (workbook : Option Value) : Except Fault Session :=
  let preferences := Preferences.ofSettings settings overrides
  if Preferences.canStart preferences.logLevel then
    if preferences.isWritable then .ok ⟨preferences, lookups, workbook⟩
    else .error .unreadableNumeral
  else .error (.unknownLevel preferences.logLevel)

/-- What the tables of the session are extracted with. -/
def extractor (s : Session) : Extractor :=
  ⟨s.lookups, s.preferences.strictSections.isTrue, s.preferences.emptyValue⟩

/-- Work on the workbook. -/
def inWorkbook {α : Type} (s : Session) (work : Traced α) : Traced α :=
  match s.workbook with
  | some name => Traced.within .workbook name work
  | none => work

/-- Work on the extraction of a table. -/
def inTable {α : Type} (s : Session) (name : String) (work : Traced α) : Traced α :=
  s.inWorkbook <| Traced.within .table (.text name) <|
    Traced.within .operation (.text "extract") work

/-- What is reported about a table that has been extracted from a range. -/
def report (b : Bounds) (table : Table) : Except Fault String := do
  let range ← b.text
  return "Extracted " ++ String.ofList (Digits.ofNat table.rows.length) ++ " rows from " ++ range

/-- Extract a declared table. -/
def extractTable (s : Session) (d : Declaration) (rows : List Row) : Traced Table :=
  s.inTable d.name do
    let b ← Traced.ofResult d.bounds
    let table ← s.extractor.extractWithin d b rows
    Traced.logShown .info (report b table)
    return table

/-- Extract declared tables one after another. -/
def extractTables (s : Session) (rows : List Row) : List Declaration → Traced (List Table)
  | [] => pure []
  | d :: rest => do
    let table ← s.extractTable d rows
    return table :: (← extractTables s rows rest)

/-- Extract all tables that are declared in a sheet. -/
def extractSheet (s : Session) (sheet : Value) (ds : List Declaration) (rows : List Row) :
    Traced (List Table) :=
  s.inWorkbook <| Traced.within .sheet sheet do
    Traced.log .info ("Extracting " ++ String.ofList (Digits.ofNat ds.length)
      ++ " tables from " ++ String.ofList (Digits.ofNat rows.length) ++ " rows")
    s.extractTables rows ds

end Session

end Worksheet
