-- SUMMARY: The cells that count for a table, and what the rows of a table are filled with.
import Mathlib.Data.List.Induction
import Mathlib.Data.Rat.Cast.Order
import Worksheet.Extraction
import Worksheet.Proofs.Traversal

/-!
# Selected Cells

Of all the rows that arrive, a table takes the ones that hold its data, and of their
cells the ones that stand below a header. These cells are selected. What stands beside
them in a column of the table is only remarked on: `yields_fillRows` says that what the
rows are filled with depends on nothing else.
-/

namespace Worksheet

/-- The address that lies so many columns and rows behind the first one. -/
def Address.behind (columns rows : Nat) : Address := { column := columns + 1, row := rows + 1 }

/-! ## Selection -/

/-- The number of a row, if it has one that can be compared with row numbers. -/
def RowNumber.value? : RowNumber → Option Rat
  | .whole n => some n
  | .real (.finite q) => some q
  | .real _ => none
  | .unordered => none

namespace Bounds

/-- Whether a row lies below the headers and not behind the last row. -/
def holdsData (b : Bounds) (row : Row) : Bool :=
  row.number.value?.any fun q => (b.start.row : Rat) + 1 ≤ q && q ≤ (b.stop.row : Rat)

/-- Whether a cell lies in a column of the table. -/
def isInColumns (b : Bounds) (cell : Cell) : Bool := b.containsColumn cell.address.column

/-- Whether a cell lies in a column of the table that has one of `n` headers. -/
def selectsCell (b : Bounds) (n : Nat) (cell : Cell) : Bool :=
  b.containsColumn cell.address.column && b.columnPosition cell.address < n

/-- The cells in the columns of the table, of each row that holds data. -/
def visited (b : Bounds) (rows : List Row) : List (List Cell) :=
  (rows.filter b.holdsData).map (fun row => row.cells.filter b.isInColumns)

/-- The selected cells of each row that holds data, if there are `n` headers. -/
def selection (b : Bounds) (n : Nat) (rows : List Row) : List (List Cell) :=
  (rows.filter b.holdsData).map (fun row => row.cells.filter (b.selectsCell n))

/-- The place of a cell among the values of a row. -/
def place (b : Bounds) (cell : Cell) : Nat := (b.columnPosition cell.address).toNat

theorem selectsCell_iff {b : Bounds} {n : Nat} {cell : Cell} :
    b.selectsCell n cell = true ↔
      b.containsColumn cell.address.column = true ∧ b.place cell < n := by
  rw [selectsCell, Bool.and_eq_true, decide_eq_true_eq]
  refine and_congr_right fun h => ?_
  rw [containsColumn_iff] at h
  simp only [place, columnPosition]
  omega

/-- Selected cells are in the columns of the table. -/
theorem filter_isInColumns {b : Bounds} {n : Nat} (cells : List Cell) :
    (cells.filter b.isInColumns).filter (b.selectsCell n) = cells.filter (b.selectsCell n) := by
  rw [List.filter_filter]
  refine List.filter_congr fun cell _ => Bool.and_eq_left_iff_imp.2 ?_
  exact fun hs => (selectsCell_iff.1 hs).1

end Bounds

namespace Extractor

theorem selects_eq {b : Bounds} {row : Row} (h : row.number ≠ .unordered) :
    selects b row = .ok (b.holdsData row) := by
  cases hn : row.number with
  | whole n =>
    have hq : ((b.start.row : Rat) + 1 ≤ n) = (b.start.row + 1 ≤ n) := by
      rw [← Int.cast_one, ← Int.cast_add, Int.cast_le]
    simp only [selects, hn, Bounds.holdsData, RowNumber.value?, Option.any_some, hq, Int.cast_le]
    rfl
  | real x =>
    cases x with
    | finite q =>
      have hq : ((b.firstDataRow : Int) : Rat) = (b.start.row : Rat) + 1 := by
        simp [Bounds.firstDataRow]
      simp only [selects, Bounds.holdsData, RowNumber.value?, hn, Option.any_some, hq]
      rfl
    | infinity s => simp [selects, Bounds.holdsData, RowNumber.value?, hn]
    | nan => simp [selects, Bounds.holdsData, RowNumber.value?, hn]
  | unordered => exact absurd hn h

/-! ## Texts of cells -/

/-- The text that a cell in a column of a table with `n` headers gives: the one that it displays
    if it is selected, and a remark if it has no header. -/
def textFor (x : Extractor) (name : Value) (b : Bounds) (n : Nat) (cell : Cell) :
    Except Fault String :=
  if b.selectsCell n cell then x.display cell else unheaded name cell

/-- The texts that cells give, each with its cell. -/
def texts (x : Extractor) (name : Value) (b : Bounds) (n : Nat) (cells : List Cell) :
    Except Fault (List (Cell × String)) :=
  cells.mapM fun cell => do return (cell, ← x.textFor name b n cell)

/-- Write the text of a cell over the value in its place. -/
def overwrite (b : Bounds) (values : List Value) (p : Cell × String) : List Value :=
  values.set (b.place p.1) (.text p.2)

/-- Write the texts of the selected cells over the values, one after another. -/
def writeSelected (b : Bounds) (values : List Value) (ps : List (Cell × String)) : List Value :=
  (ps.filter fun p => b.selectsCell values.length p.1).foldl (overwrite b) values

/-- The values of a row with `n` headers that has these cells in the columns of the table. -/
def rowValues (x : Extractor) (name : Value) (b : Bounds) (n : Nat) (cells : List Cell) :
    Except Fault (List Value) := do
  return writeSelected b (List.replicate n x.emptyValue) (← x.texts name b n cells)

variable {x : Extractor} {name : Value} {b : Bounds} {n : Nat}

theorem texts_cons (cell : Cell) (cells : List Cell) :
    x.texts name b n (cell :: cells) = x.textFor name b n cell >>= fun s =>
      x.texts name b n cells >>= fun ps => pure ((cell, s) :: ps) := by
  simp [texts]

theorem texts_eq_ok_iff {cells : List Cell} {ps : List (Cell × String)} :
    x.texts name b n cells = .ok ps ↔
      ps.map Prod.fst = cells ∧ ∀ p ∈ ps, x.textFor name b n p.1 = .ok p.2 := by
  induction cells generalizing ps with
  | nil => cases ps <;> simp [texts, pure, Except.pure]
  | cons cell cells ih =>
    rw [texts_cons, bind_eq_ok_iff]
    constructor
    · rintro ⟨s, hs, h⟩
      obtain ⟨rest, hrest, h⟩ := bind_eq_ok_iff.1 h
      cases h
      obtain ⟨rfl, hshown⟩ := ih.1 hrest
      exact ⟨rfl, List.forall_mem_cons.2 ⟨hs, hshown⟩⟩
    · rintro ⟨hcells, hshown⟩
      cases ps with
      | nil => cases hcells
      | cons p ps =>
        obtain ⟨rfl, rfl⟩ := List.cons.inj hcells
        obtain ⟨hp, hps⟩ := List.forall_mem_cons.1 hshown
        exact ⟨p.2, hp, bind_eq_ok_iff.2 ⟨ps, ih.2 ⟨rfl, hps⟩, rfl⟩⟩

theorem yields_displayLogged (x : Extractor) (cell : Cell) :
    (x.displayLogged cell).Yields (x.display cell) := by
  unfold displayLogged
  cases x.remark? cell with
  | none => exact Traced.yields_ofResult _
  | some m => exact (Traced.yields_note .debug m).bind_ok (Traced.yields_ofResult _)

theorem writeSelected_cons_pos {cell : Cell} {values : List Value}
    (h : b.selectsCell values.length cell = true) (s : String) (ps : List (Cell × String)) :
    writeSelected b values ((cell, s) :: ps) =
      writeSelected b (values.set (b.place cell) (.text s)) ps := by
  simp [writeSelected, overwrite, h]

theorem writeSelected_cons_neg {cell : Cell} {values : List Value}
    (h : ¬b.selectsCell values.length cell = true) (s : String) (ps : List (Cell × String)) :
    writeSelected b values ((cell, s) :: ps) = writeSelected b values ps := by
  simp [writeSelected, h]

/-- Filling a row goes through its cells in the columns of the table, and writes the texts of those
    that are selected over the values. -/
theorem yields_fillRow (x : Extractor) (name : Value) (b : Bounds) (cells : List Cell)
    (values : List Value) :
    (x.fillRow name b cells values).Yields
      (x.texts name b values.length (cells.filter b.isInColumns) >>= fun ps =>
        pure (writeSelected b values ps)) := by
  induction cells generalizing values with
  | nil => exact Traced.yields_pure values
  | cons cell cells ih =>
    unfold fillRow
    split
    · rename_i hc
      have hc : ¬b.isInColumns cell = true := by simpa [Bounds.isInColumns] using hc
      rw [List.filter_cons_of_neg hc]
      exact ih values
    · rename_i hc
      have hc : b.isInColumns cell = true := by simpa [Bounds.isInColumns] using hc
      rw [List.filter_cons_of_pos hc, texts_cons, bind_assoc]
      simp only [bind_assoc, pure_bind]
      split
      · rename_i hp
        have hs : ¬b.selectsCell values.length cell = true := by
          rw [Bounds.selectsCell_iff]
          exact fun h => Nat.not_lt.2 hp h.2
        rw [textFor, if_neg hs]
        simp only [writeSelected_cons_neg hs]
        exact Traced.yields_logShown_bind _ _ (ih values)
      · rename_i hp
        have hs : b.selectsCell values.length cell = true :=
          Bounds.selectsCell_iff.2 ⟨hc, Nat.not_le.1 hp⟩
        rw [textFor, if_pos hs]
        refine (yields_displayLogged x cell).bind fun s _ => ?_
        simp only [writeSelected_cons_pos hs]
        have hrest := ih (values.set (b.place cell) (.text s))
        rw [List.length_set] at hrest
        exact hrest

/-! ## Rows -/

theorem all_isKey_text (headers : List String) :
    (headers.map Value.text).all Dictionary.isKey = true := by
  simp [List.all_eq_true, Dictionary.isKey]

/-- The rows of a table are filled from those that hold data, in order. -/
theorem yields_fillRows (x : Extractor) (name : Value) (headers : List String) (b : Bounds)
    {rows : List Row} (h : ∀ row ∈ rows, row.number ≠ .unordered) :
    (x.fillRows name (headers.map .text) b rows).Yields
      ((b.visited rows).mapM (x.rowValues name b headers.length)) := by
  induction rows with
  | nil => exact Traced.yields_pure []
  | cons row rows ih =>
    unfold fillRows
    have hrow : selects b row = .ok (b.holdsData row) := selects_eq (h row List.mem_cons_self)
    have hrest := ih fun r hr => h r (List.mem_cons_of_mem _ hr)
    rw [hrow]
    refine (Traced.yields_ofResult _).bind_ok ?_
    by_cases hd : b.holdsData row = true
    · have hvalues := yields_fillRow x name b row.cells
        ((headers.map Value.text).map fun _ => x.emptyValue)
      have hempty : (headers.map Value.text).map (fun _ => x.emptyValue)
          = List.replicate headers.length x.emptyValue := by
        simp [Function.comp_def]
      rw [hempty, List.length_replicate] at hvalues
      have hvisited :
          b.visited (row :: rows) = row.cells.filter b.isInColumns :: b.visited rows := by
        rw [Bounds.visited, List.filter_cons_of_pos hd, List.map_cons, Bounds.visited]
      rw [hvisited, List.mapM_cons, hempty]
      simp only [hd, all_isKey_text, if_true]
      exact hvalues.bind fun values _ => hrest.bind fun rest _ => Traced.yields_pure _
    · have hvisited : b.visited (row :: rows) = b.visited rows := by
        rw [Bounds.visited, List.filter_cons_of_neg hd, Bounds.visited]
      rw [hvisited]
      simp only [hd]
      exact hrest

theorem ordered_of_fillRows_ok {x : Extractor} {name : Value} {headers : List String} {b : Bounds}
    {rows : List Row} {t : Log.Trace} {values : List (List Value)}
    (h : ((x.fillRows name (headers.map .text) b rows).runFrom t).1 = .ok values) :
    ∀ row ∈ rows, row.number ≠ .unordered := by
  induction rows generalizing t values with
  | nil => intro row hrow; cases hrow
  | cons row rows ih =>
    unfold fillRows at h
    obtain ⟨sel, t', hsel, h⟩ := Traced.exists_of_runFrom_bind_ok h
    have hfirst : row.number ≠ .unordered := by
      intro hn
      simp [selects, hn] at hsel
    have hrest : ∃ t' values',
        ((x.fillRows name (headers.map .text) b rows).runFrom t').1 = .ok values' := by
      cases sel with
      | false => exact ⟨t', values, h⟩
      | true =>
        simp only [if_true, all_isKey_text] at h
        obtain ⟨vs, t₁, -, h⟩ := Traced.exists_of_runFrom_bind_ok h
        obtain ⟨rest, t₂, hrest, -⟩ := Traced.exists_of_runFrom_bind_ok h
        exact ⟨t₁, rest, congrArg Prod.fst hrest⟩
    obtain ⟨t', values', hrest⟩ := hrest
    intro r hr
    rcases List.mem_cons.1 hr with rfl | hr
    · exact hfirst
    · exact ih hrest r hr

/-! ## Tables -/

theorem missingHeader?_text (headers : List String) :
    missingHeader? (headers.map .text) = none := by
  simp [missingHeader?]

/-- The table is made from the values of its rows, after a remark on it. -/
theorem yields_extract (x : Extractor) (name : Value) (headers : List String) (b : Bounds)
    {rows : List Row} (h : ∀ row ∈ rows, row.number ≠ .unordered) :
    (x.extract name (headers.map .text) b rows).Yields
      ((b.visited rows).mapM (x.rowValues name b headers.length) >>= fun values =>
        summary name b values.length >>= fun _ =>
          (Table.assemble name (headers.map .text) values).mapError Fault.invalid) := by
  unfold extract
  rw [missingHeader?_text]
  refine (yields_fillRows x name headers b h).bind fun values _ => ?_
  exact Traced.yields_logShown_bind _ _ (Traced.yields_ofResult _)

theorem ordered_of_extract_ok {x : Extractor} {name : Value} {headers : List String} {b : Bounds}
    {rows : List Row} {t : Log.Trace} {table : Table}
    (h : ((x.extract name (headers.map .text) b rows).runFrom t).1 = .ok table) :
    ∀ row ∈ rows, row.number ≠ .unordered := by
  unfold extract at h
  rw [missingHeader?_text] at h
  obtain ⟨values, t', hvalues, -⟩ := Traced.exists_of_runFrom_bind_ok h
  exact ordered_of_fillRows_ok (congrArg Prod.fst hvalues)

end Extractor

end Worksheet
