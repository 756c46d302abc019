-- SUMMARY: The tables of a sheet, what is reported about them, and the scope that is left.
import Worksheet.Proofs.Bounds
import Worksheet.Proofs.Extraction.Stepwise
import Worksheet.Proofs.Reports
import Worksheet.Proofs.Traversal
import Worksheet.Session

/-!
# Sheets of a Session

An extraction makes no reports and does not look at the scope. So the tables of a sheet are
those that each declaration has on its own, up to the first one that fails, and the reports
are one for the sheet and one for each of these tables: `Session.extractSheet_tables`.
-/

namespace Worksheet

/-! ## Results in front of the first fault -/

section Successes

variable {ε α β : Type}

/-- The items in front of the first one with a fault, each with its result. -/
def successes (f : α → Except ε β) : List α → List (α × β)
  | [] => []
  | a :: rest =>
    match f a with
    | .ok b => (a, b) :: successes f rest
    | .error _ => []

theorem forall₂_successes (f : α → Except ε β) (l : List α) :
    List.Forall₂ (fun a p => p.1 = a ∧ f a = .ok p.2) (l.takeWhile fun a => (f a).isOk)
      (successes f l) := by
  induction l with
  | nil => exact .nil
  | cons a l ih =>
    unfold successes
    cases ha : f a with
    | error e => simp [ha, Except.isOk, Except.toBool]
    | ok b => simpa [ha, Except.isOk, Except.toBool] using ih

end Successes

/-! ## Extractions are quiet -/

/-- As a relation, being quiet says nothing about the other side. -/
theorem Traced.stepwise_quiet : Stepwise fun _ work _ => work.Quiet where
  ofResult _ := quiet_ofResult _
  log := quiet_log
  bind := Quiet.bind

namespace Extractor

variable (x : Extractor)

theorem quiet_displayLogged (cell : Cell) : (x.displayLogged cell).Quiet := by
  unfold displayLogged
  cases x.remark? cell with
  | none => exact (Traced.quiet_pure ()).bind fun _ => Traced.quiet_ofResult _
  | some m => exact (Traced.quiet_note m).bind fun _ => Traced.quiet_ofResult _

theorem quiet_extract (name : Value) (b : Bounds) (headers : List Value) (rows : List Row) :
    (x.extract name headers b rows).Quiet :=
  extract_related Traced.stepwise_quiet (quiet_displayLogged x) rfl name headers b rows

/-- Extract a declared table, and keep the range that it was extracted from. -/
def extractPlaced (rows : List Row) (d : Declaration) : Traced (Bounds × Table) := do
  let b ← Traced.ofResult d.bounds
  let table ← x.extractWithin d b rows
  return (b, table)

theorem quiet_extractPlaced (rows : List Row) (d : Declaration) :
    (x.extractPlaced rows d).Quiet := by
  refine (Traced.quiet_ofResult _).bind fun b => ?_
  exact (quiet_extract x _ b _ rows).bind fun table => Traced.quiet_pure _

/-- What is extracted with its range: the range comes first, and the table needs it. -/
theorem result_extractPlaced_eq_ok_iff {rows : List Row} {d : Declaration} {b : Bounds}
    {table : Table} : (x.extractPlaced rows d).result = .ok (b, table) ↔
      d.bounds = .ok b ∧ (x.extractWithin d b rows).result = .ok table := by
  have hresult := ((Traced.reports_ofResult d.bounds).bind fun b =>
    Traced.Reports.bind (quiet_extract x (.text d.name) b (d.headers.map .text) rows)
      fun table => Traced.reports_pure (b, table)).result_eq
  change (x.extractPlaced rows d).result = _ at hresult
  rw [hresult, bind_eq_ok_iff]
  constructor
  · rintro ⟨b', hb, h⟩
    obtain ⟨table', htable, h⟩ := bind_eq_ok_iff.1 h
    cases h
    exact ⟨hb, htable⟩
  · rintro ⟨hb, htable⟩
    exact ⟨b, hb, bind_eq_ok_iff.2 ⟨table, htable, rfl⟩⟩

theorem result_extractDeclared (rows : List Row) (d : Declaration) :
    (x.extractDeclared d rows).result =
      (x.extractPlaced rows d).result >>= fun p => pure p.2 := by
  have hplaced : x.extractDeclared d rows = x.extractPlaced rows d >>= fun p => pure p.2 := by
    simp only [extractDeclared, extractPlaced, bind_assoc, pure_bind, bind_pure]
  rw [hplaced]
  exact (Traced.Reports.bind (quiet_extractPlaced x rows d) fun p =>
    Traced.reports_pure p.2).result_eq

end Extractor

/-! ## Tables of a session -/

namespace Session

open Extractor

variable (s : Session) {α : Type} {work : Traced α} {r : Except Fault α}
  {reports : Log.Scope → List Log.Entry}

/-- The scope in which the workbook is named, if the session has a name for it. -/
def workbookScope (outer : Log.Scope) : Log.Scope :=
  { outer with workbook := s.workbook <|> outer.workbook }

/-- The scope in which a table is extracted. -/
def tableScope (name : String) (outer : Log.Scope) : Log.Scope :=
  { s.workbookScope outer with table := some (.text name), operation := some (.text "extract") }

/-- The workbook is entered for the sheet and again for each table, under the same name. -/
theorem tableScope_in_sheet (sheet : Value) (name : String) (outer : Log.Scope) :
    s.tableScope name ((s.workbookScope outer).set .sheet (some sheet)) =
      ⟨s.workbook <|> outer.workbook, some sheet, some (.text name), some (.text "extract")⟩ := by
  simp only [tableScope, workbookScope, Log.Scope.set]
  cases s.workbook with
  | none => rfl
  | some w => rfl

/-- What is reported about a table that has been extracted from a range. -/
def tableReport (b : Bounds) (table : Table) : String :=
  "Extracted " ++ String.ofList (Digits.ofNat table.rows.length) ++ " rows from "
    ++ String.ofList b.chars

/-- A range that has been read can be written. -/
theorem report_eq {d : Declaration} {b : Bounds} (h : d.bounds = .ok b) (table : Table) :
    report b table = .ok (tableReport b table) := by
  rw [report, Bounds.text_of_isWritable (Bounds.isWritable_of_parse h)]
  rfl

/-- What is reported about a sheet before its tables are extracted. -/
def sheetReport (ds : List Declaration) (rows : List Row) : String :=
  "Extracting " ++ String.ofList (Digits.ofNat ds.length) ++ " tables from "
    ++ String.ofList (Digits.ofNat rows.length) ++ " rows"

theorem reports_inWorkbook (h : work.Reports r reports) :
    (s.inWorkbook work).Reports r fun outer => reports (s.workbookScope outer) := by
  unfold inWorkbook workbookScope
  cases s.workbook with
  | none => exact h
  | some name => exact h.within .workbook name

theorem reports_inTable (h : work.Reports r reports) (name : String) :
    (s.inTable name work).Reports r fun outer => reports (s.tableScope name outer) :=
  reports_inWorkbook s ((h.within .operation (.text "extract")).within .table (.text name))

/-- Extracting a declared table reports the number of its rows and its range. -/
theorem reports_extractTable (d : Declaration) (rows : List Row) :
    (s.extractTable d rows).Reports (s.extractor.extractDeclared d rows).result fun outer =>
      Traced.afterwards (s.extractor.extractPlaced rows d).result fun p =>
        [⟨.info, (s.tableScope d.name outer).decorate (tableReport p.1 p.2)⟩] := by
  have hbody : s.extractTable d rows = s.inTable d.name (s.extractor.extractPlaced rows d >>=
      fun p => Traced.log .info (tableReport p.1 p.2) >>= fun _ => pure p.2) := by
    simp only [extractTable, extractPlaced, bind_assoc, pure_bind]
    refine congrArg (s.inTable d.name) (Traced.ofResult_bind_congr fun b hb => ?_)
    simp only [report_eq hb]
    rfl
  rw [hbody, result_extractDeclared]
  have hreport (p : Bounds × Table) :=
    (Traced.reports_log .info (tableReport p.1 p.2)).bind fun _ => Traced.reports_pure p.2
  exact s.reports_inTable (Traced.Reports.bind (s.extractor.quiet_extractPlaced rows d) hreport)
    d.name

theorem reports_extractTables (rows : List Row) (ds : List Declaration) :
    (s.extractTables rows ds).Reports
      (ds.mapM fun d => (s.extractor.extractDeclared d rows).result) fun outer =>
        (successes (fun d => (s.extractor.extractPlaced rows d).result) ds).map fun p =>
          ⟨.info, (s.tableScope p.1.name outer).decorate (tableReport p.2.1 p.2.2)⟩ := by
  induction ds with
  | nil => exact Traced.reports_pure []
  | cons d ds ih =>
    unfold extractTables
    have h := (s.reports_extractTable d rows).bind fun table =>
      ih.bind fun tables => Traced.reports_pure (table :: tables)
    rw [List.mapM_cons]
    refine h.congr rfl fun outer => ?_
    rw [result_extractDeclared, successes]
    -- A table that is missing ends the reports, and one that is there has the first of them.
    cases (s.extractor.extractPlaced rows d).result with
    | error e => rfl
    | ok p =>
      change _ :: ([] ++ (_ ++ Traced.afterwards _ fun _ => [])) = _
      rw [Traced.afterwards_nil, List.append_nil, List.nil_append, List.map_cons]

/-- Extracting a sheet gives its tables in the order of their declarations. It reports how many
    tables and rows there are, and then each table that it has extracted. -/
theorem reports_extractSheet (sheet : Value) (ds : List Declaration) (rows : List Row) :
    (s.extractSheet sheet ds rows).Reports
      (ds.mapM fun d => (s.extractor.extractDeclared d rows).result) fun outer =>
        let inSheet := (s.workbookScope outer).set .sheet (some sheet)
        ⟨.info, inSheet.decorate (sheetReport ds rows)⟩ ::
          (successes (fun d => (s.extractor.extractPlaced rows d).result) ds).map fun p =>
            ⟨.info, (s.tableScope p.1.name inSheet).decorate (tableReport p.2.1 p.2.2)⟩ := by
  have h := (Traced.reports_log .info (sheetReport ds rows)).bind fun _ =>
    s.reports_extractTables rows ds
  exact s.reports_inWorkbook (h.within .sheet sheet)

/-- The tables of a sheet are those that its declarations have on their own, in their order. If
    one of them has none, the sheet fails with the fault of the first such declaration. The
    sheet is reported in the scope of its workbook, and each table in front of that
    declaration in a scope of its own. At the end the scope is as it was at the start. -/
theorem extractSheet_tables (s : Session) (sheet : Value) (ds : List Declaration)
    (rows : List Row) (t : Log.Trace) :
    let x : Extractor :=
      ⟨s.lookups, s.preferences.strictSections.isTrue, s.preferences.emptyValue⟩
    let own (d : Declaration) := (x.extractDeclared d rows).result
    let done := (s.extractSheet sheet ds rows).runFrom t
    let workbook := s.workbook <|> t.scope.workbook
    let inSheet : Log.Scope := { t.scope with workbook := workbook, sheet := some sheet }
    let inTable (d : Declaration) : Log.Scope :=
      ⟨workbook, some sheet, some (.text d.name), some (.text "extract")⟩
    (∀ tables, done.1 = .ok tables ↔ List.Forall₂ (fun d table => own d = .ok table) ds tables) ∧
    (∀ e, done.1 = .error e ↔ ∃ before d after, ds = before ++ d :: after ∧
      (∀ c ∈ before, ∃ table, own c = .ok table) ∧ own d = .error e) ∧
    done.2.scope = t.scope ∧
    ∃ entries tableEntries, done.2.entries = t.entries ++ entries ∧
      entries.filter (·.level = .info) =
        ⟨.info, inSheet.decorate ("Extracting " ++ String.ofList (Digits.ofNat ds.length)
          ++ " tables from " ++ String.ofList (Digits.ofNat rows.length) ++ " rows")⟩
          :: tableEntries ∧
      List.Forall₂ (fun d entry => ∃ b table, d.bounds = .ok b ∧ own d = .ok table ∧
        entry = ⟨.info, (inTable d).decorate
          ("Extracted " ++ String.ofList (Digits.ofNat table.rows.length) ++ " rows from "
            ++ String.ofList b.chars)⟩)
        (ds.takeWhile fun d => (own d).isOk) tableEntries := by
  intro x own done workbook inSheet inTable
  obtain ⟨entries, hdone, hentries⟩ := s.reports_extractSheet sheet ds rows t
  have hresult : done.1 = ds.mapM own := congrArg Prod.fst hdone
  have htrace : done.2 = { t with entries := t.entries ++ entries } := congrArg Prod.snd hdone
  refine ⟨fun tables => ?_, fun e => ?_, ?_, entries, _, ?_, hentries, ?_⟩
  · rw [hresult, mapM_eq_ok_iff]
  · rw [hresult, mapM_eq_error_iff]
  · rw [htrace]
  · rw [htrace]
  · have hown (d : Declaration) : own d = (x.extractPlaced rows d).result >>= fun p => pure p.2 :=
      x.result_extractDeclared rows d
    have hplaced (d : Declaration) : (own d).isOk = (x.extractPlaced rows d).result.isOk := by
      rw [hown]
      cases (x.extractPlaced rows d).result <;> rfl
    have hscope (d : Declaration) :
        s.tableScope d.name ((s.workbookScope t.scope).set .sheet (some sheet)) = inTable d :=
      tableScope_in_sheet s sheet d.name t.scope
    -- The entries are about the declarations in front of the first fault, one for each.
    simp only [hplaced, List.forall₂_map_right_iff]
    refine (forall₂_successes _ ds).imp ?_
    rintro d ⟨_, b, table⟩ ⟨rfl, hd⟩
    refine ⟨b, table, ((x.result_extractPlaced_eq_ok_iff).1 hd).1, ?_, ?_⟩
    · rw [hown, hd]
      rfl
    · rw [hscope]
      rfl

end Session

end Worksheet
