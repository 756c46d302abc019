-- SUMMARY: An extraction fails only at a selected cell or where a message cannot be written, and depends on no other cell.
import Worksheet.Proofs.Bounds
import Worksheet.Proofs.Selection
import Worksheet.Proofs.Table

/-!
# Where an Extraction Fails

Cells that are not selected are never displayed. A cell in a column without a header is named
in a remark, and so is the range at the end, whether or not the remarks are kept. So an
extraction fails if a selected cell cannot be displayed, or if the number of a row is too long
for a remark: `Extractor.extract_local`. Where no number is, two sheets with the same selected
cells give the same table or the same fault.
-/

namespace Worksheet

namespace Bounds

variable {b : Bounds} {n : Nat} {rows : List Row}

/-- Everything that the remarks on a table with `n` headers name can be written: the range, and
    each cell in a column without a header. -/
structure IsNameable (b : Bounds) (n : Nat) (rows : List Row) : Prop where
  range : b.IsWritable
  beside : ∀ cell ∈ (b.visited rows).flatten, b.selectsCell n cell = false →
    Digits.count cell.address.row.natAbs ≤ Digits.limit

theorem selection_eq :
    b.selection n rows = (b.visited rows).map (List.filter (b.selectsCell n)) := by
  simp only [selection, visited, List.map_map, Function.comp_def, filter_isInColumns]

theorem flatten_selection :
    (b.selection n rows).flatten = (b.visited rows).flatten.filter (b.selectsCell n) := by
  rw [selection_eq, List.filter_flatten]

end Bounds

namespace Extractor

variable {x : Extractor} {b : Bounds} {n : Nat} {name : String} {cells : List Cell}

/-! ## Rows of texts -/

/-- Where the empty value is a text, a row is filled with texts. -/
theorem foldl_overwrite_text (ps : List (Cell × String)) (values : List String) :
    ps.foldl (overwrite b) (values.map .text) =
      (ps.foldl (fun values p => values.set (b.place p.1) p.2) values).map .text := by
  induction ps generalizing values with
  | nil => rfl
  | cons p ps ih => rw [List.foldl_cons, overwrite, ← List.map_set, ih, List.foldl_cons]

theorem exists_text_of_rowValues {empty : String} (hx : x.emptyValue = .text empty)
    {rows : List (List Cell)} {values : List (List Value)}
    (h : rows.mapM (x.rowValues (.text name) b n) = .ok values) :
    ∃ texts : List (List String), values = texts.map (List.map .text) := by
  rw [mapM_eq_ok_iff] at h
  induction h with
  | nil => exact ⟨[], rfl⟩
  | cons hrow _ ih =>
    obtain ⟨ps, -, hps⟩ := bind_eq_ok_iff.1 hrow
    cases hps
    obtain ⟨texts, rfl⟩ := ih
    rw [hx, ← List.map_replicate, writeSelected, foldl_overwrite_text]
    exact ⟨_ :: texts, rfl⟩

/-! ## Faults -/

/-- What is found out about a cell in a column of the table: the text that it displays if it is
    selected, and otherwise how its address is written. -/
def inspect (x : Extractor) (b : Bounds) (n : Nat) (cell : Cell) : Except Fault String :=
  if b.selectsCell n cell then x.display cell else cell.address.text

theorem textFor_eq_error_iff {cell : Cell} {e : Fault} :
    x.textFor (.text name) b n cell = .error e ↔ x.inspect b n cell = .error e := by
  unfold textFor inspect
  split
  · exact Iff.rfl
  · exact bind_pure_eq_error_iff

theorem texts_eq : x.texts (.text name) b n cells =
    cells.mapM (x.textFor (.text name) b n) >>= fun ss => pure (cells.zip ss) := by
  induction cells with
  | nil => rfl
  | cons cell cells ih =>
    rw [texts_cons, ih, List.mapM_cons]
    simp only [bind_assoc, pure_bind, List.zip_cons_cons]

/-- Filling rows fails as inspecting their cells one after another does. -/
theorem mapM_rowValues_eq_error_iff {rows : List (List Cell)} {e : Fault} :
    rows.mapM (x.rowValues (.text name) b n) = .error e ↔
      rows.flatten.mapM (x.inspect b n) = .error e := by
  rw [mapM_flatten_eq_error_iff]
  refine mapM_eq_error_congr fun cells e => ?_
  rw [rowValues, bind_pure_eq_error_iff, texts_eq, bind_pure_eq_error_iff]
  exact mapM_eq_error_congr fun cell e => textFor_eq_error_iff

theorem summary_eq_error_iff {count : Nat} {e : Fault} :
    summary (.text name) b count = .error e ↔ ¬b.IsWritable ∧ e = .unreadableNumeral := by
  rw [← Bounds.text_eq_error_iff, summary, Value.shown_text, pure_bind]
  exact bind_pure_eq_error_iff

/-- An extraction fails as inspecting the cells in the columns of the table does, and at last if the
    range cannot be written. -/
theorem extract_eq_error_iff {empty : String} (hx : x.emptyValue = .text empty)
    {headers : List String} {rows : List Row} (h : ∀ row ∈ rows, row.number ≠ .unordered)
    {t : Log.Trace} {e : Fault} :
    let inspected := (b.visited rows).flatten.mapM (x.inspect b headers.length)
    ((x.extract (.text name) (headers.map .text) b rows).runFrom t).1 = .error e ↔
      inspected = .error e ∨
        (∃ texts, inspected = .ok texts) ∧ ¬b.IsWritable ∧ e = .unreadableNumeral := by
  intro inspected
  rw [yields_extract x (.text name) headers b h t, bind_eq_error_iff, mapM_rowValues_eq_error_iff]
  refine or_congr_right ?_
  have hvalues : (∃ values,
      (b.visited rows).mapM (x.rowValues (.text name) b headers.length) = .ok values) ↔
        ∃ texts, inspected = .ok texts :=
    exists_eq_ok_congr fun e => mapM_rowValues_eq_error_iff
  rw [← hvalues, ← exists_and_right]
  refine exists_congr fun values => and_congr_right fun hrows => ?_
  rw [bind_eq_error_iff, summary_eq_error_iff, or_iff_left_iff_imp]
  -- A row of texts always makes a table.
  rintro ⟨_, -, htable⟩
  obtain ⟨texts, rfl⟩ := exists_text_of_rowValues hx hrows
  obtain ⟨table, hok⟩ := Table.exists_assemble_text name headers texts
  rw [hok] at htable
  cases htable

/-! ## Cells beside the selected ones -/

/-- Cells without a header leave no trace in a row if they can be named. -/
theorem rowValues_filter (h : ∀ cell ∈ cells, b.selectsCell n cell = false →
      Digits.count cell.address.row.natAbs ≤ Digits.limit) :
    x.rowValues (.text name) b n cells =
      x.rowValues (.text name) b n (cells.filter (b.selectsCell n)) := by
  suffices hwrite : ∀ values : List Value, values.length = n →
      (x.texts (.text name) b n cells >>= fun ps => pure (writeSelected b values ps)) =
        x.texts (.text name) b n (cells.filter (b.selectsCell n)) >>= fun ps =>
          pure (writeSelected b values ps) from
    hwrite _ (List.length_replicate)
  induction cells with
  | nil => exact fun _ _ => rfl
  | cons cell cells ih =>
    obtain ⟨hcell, hcells⟩ := List.forall_mem_cons.1 h
    intro values hlength
    rw [texts_cons]
    simp only [bind_assoc, pure_bind]
    by_cases hs : b.selectsCell n cell = true
    · rw [List.filter_cons_of_pos hs, texts_cons]
      simp only [bind_assoc, pure_bind]
      refine bind_congr fun s => ?_
      simp only [writeSelected_cons_pos (hlength ▸ hs)]
      exact ih hcells _ (by rw [List.length_set, hlength])
    · have htext : ∃ s, x.textFor (.text name) b n cell = .ok s := by
        rw [exists_eq_ok_iff]
        intro e he
        rw [textFor_eq_error_iff, inspect, if_neg hs, Address.text_eq_error_iff] at he
        exact absurd (hcell (Bool.eq_false_iff.2 hs)) (Nat.not_le.2 he.1)
      obtain ⟨s, hs'⟩ := htext
      rw [List.filter_cons_of_neg hs, hs']
      simp only [writeSelected_cons_neg (hlength ▸ hs)]
      exact ih hcells values hlength

/-- Where everything can be named, the values of the rows depend on the selected cells only. -/
theorem mapM_rowValues_visited {rows : List Row} (h : b.IsNameable n rows) :
    (b.visited rows).mapM (x.rowValues (.text name) b n) =
      (b.selection n rows).mapM (x.rowValues (.text name) b n) := by
  rw [Bounds.selection_eq, List.mapM_map]
  refine mapM_congr fun cells hcells => rowValues_filter fun cell hcell => ?_
  exact h.beside cell (List.mem_flatten_of_mem hcells hcell)

theorem mapM_inspect_selection {rows : List Row} :
    (b.selection n rows).flatten.mapM (x.inspect b n) =
      (b.selection n rows).flatten.mapM x.display := by
  refine mapM_congr fun cell hcell => if_pos ?_
  rw [Bounds.flatten_selection] at hcell
  exact (List.mem_filter.1 hcell).2

/-- Inspecting fails at a selected cell that cannot be displayed, and at a cell without a header
    that cannot be named. -/
theorem exists_inspect_eq_error_iff {rows : List Row} :
    (∃ cell ∈ (b.visited rows).flatten, ∃ e, x.inspect b n cell = .error e) ↔
      (∃ cell ∈ (b.selection n rows).flatten, ∃ e, x.display cell = .error e) ∨
      ∃ cell ∈ (b.visited rows).flatten, b.selectsCell n cell = false ∧
        Digits.limit < Digits.count cell.address.row.natAbs := by
  simp only [Bounds.flatten_selection, List.mem_filter, inspect]
  constructor
  · rintro ⟨cell, hcell, e, he⟩
    split at he
    · rename_i hs
      exact .inl ⟨cell, ⟨hcell, hs⟩, e, he⟩
    · rename_i hs
      exact .inr ⟨cell, hcell, Bool.eq_false_iff.2 hs, (Address.text_eq_error_iff.1 he).1⟩
  · rintro (⟨cell, ⟨hcell, hs⟩, e, he⟩ | ⟨cell, hcell, hs, hlong⟩)
    · exact ⟨cell, hcell, e, by rw [if_pos hs, he]⟩
    · refine ⟨cell, hcell, .unreadableNumeral, ?_⟩
      rw [hs, if_neg Bool.false_ne_true]
      exact Address.text_eq_error_iff.2 ⟨hlong, rfl⟩

theorem exists_extract_eq_error_iff {empty : String} (hx : x.emptyValue = .text empty)
    {headers : List String} {rows : List Row} (h : ∀ row ∈ rows, row.number ≠ .unordered)
    {t : Log.Trace} :
    (∃ e, ((x.extract (.text name) (headers.map .text) b rows).runFrom t).1 = .error e) ↔
      (∃ cell ∈ (b.selection headers.length rows).flatten, ∃ e, x.display cell = .error e) ∨
        ¬b.IsNameable headers.length rows := by
  simp only [extract_eq_error_iff hx h]
  constructor
  · rintro ⟨e, hcells | ⟨-, hrange, -⟩⟩
    · rcases exists_inspect_eq_error_iff.1 (exists_mapM_eq_error_iff.1 ⟨e, hcells⟩) with
        hselected | ⟨cell, hcell, hs, hlong⟩
      · exact .inl hselected
      · exact .inr fun hname => Nat.not_le.2 hlong (hname.beside cell hcell hs)
    · exact .inr fun hname => hrange hname.range
  · intro hfails
    by_cases hcells : ∃ e, (b.visited rows).flatten.mapM (x.inspect b headers.length) = .error e
    · obtain ⟨e, he⟩ := hcells
      exact ⟨e, .inl he⟩
    · refine ⟨_, .inr ⟨exists_eq_ok_iff.2 (not_exists.1 hcells), fun hrange => ?_, rfl⟩⟩
      rw [exists_mapM_eq_error_iff, exists_inspect_eq_error_iff, not_or] at hcells
      refine hfails.resolve_left hcells.1 ⟨hrange, fun cell hcell hs => ?_⟩
      exact Nat.not_lt.1 fun hlong => hcells.2 ⟨cell, hcell, hs, hlong⟩

/-! ## Extractions -/

/-- An extraction fails exactly if a selected cell cannot be displayed, or if something that its
    remarks name cannot be written. The fault is the first one that comes up, cell by cell and then
    for the range. If everything can be named, it is the one of the first selected cell that cannot
    be displayed, even if a later cell of its row would have been shown in its place; and rows with
    the same selected cells give the same table or the same fault. -/
theorem extract_local {lookups : Lookups} {strict : Bool} {empty name : String}
    {headers : List String} {b : Bounds} {rows : List Row}
    (h : ∀ row ∈ rows, row.number ≠ .unordered) (t : Log.Trace) :
    let x : Extractor := ⟨lookups, strict, .text empty⟩
    let n := headers.length
    let result rows t := ((x.extract (.text name) (headers.map .text) b rows).runFrom t).1
    let cells := (b.selection n rows).flatten
    let visited := (b.visited rows).flatten
    ((∃ e, result rows t = .error e) ↔
      (∃ cell ∈ cells, ∃ e, x.display cell = .error e) ∨ ¬b.IsNameable n rows) ∧
    (∀ e, result rows t = .error e ↔
      (∃ before cell after, visited = before ++ cell :: after ∧
        (∀ c ∈ before, ∃ s, x.inspect b n c = .ok s) ∧ x.inspect b n cell = .error e) ∨
      (∀ c ∈ visited, ∃ s, x.inspect b n c = .ok s) ∧ ¬b.IsWritable ∧ e = .unreadableNumeral) ∧
    (b.IsNameable n rows →
      (∀ e, result rows t = .error e ↔ ∃ before cell after, cells = before ++ cell :: after ∧
        (∀ c ∈ before, ∃ s, x.display c = .ok s) ∧ x.display cell = .error e) ∧
      ∀ rows' t', (∀ row ∈ rows', row.number ≠ .unordered) → b.IsNameable n rows' →
        b.selection n rows' = b.selection n rows → result rows' t' = result rows t) := by
  intro x n result cells visited
  have hfault (e : Fault) : result rows t = .error e ↔ _ := extract_eq_error_iff rfl h
  refine ⟨exists_extract_eq_error_iff rfl h, fun e => ?_, fun hname => ⟨fun e => ?_, ?_⟩⟩
  · rw [hfault, mapM_eq_error_iff, exists_mapM_eq_ok_iff]
  · have hselected : visited.mapM (x.inspect b n) = .error e ↔ cells.mapM x.display = .error e := by
      rw [← @mapM_rowValues_eq_error_iff x b n name, mapM_rowValues_visited hname,
        mapM_rowValues_eq_error_iff, mapM_inspect_selection]
    rw [hfault, ← mapM_eq_error_iff, ← hselected, or_iff_left_iff_imp]
    exact fun hrange => absurd hname.range hrange.2.1
  · intro rows' t' h' hname' hsel
    have hrows := yields_extract x (.text name) headers b h t
    have hrows' := yields_extract x (.text name) headers b h' t'
    rw [mapM_rowValues_visited hname] at hrows
    rw [mapM_rowValues_visited hname', hsel] at hrows'
    exact hrows'.trans hrows.symm

/-- A dangling shared string counts below a header, even where a later cell is in its place, and
    nowhere else. -/
theorem extract_local_overwritten :
    let x : Extractor := ⟨⟨["p"], [], []⟩, true, .text ""⟩
    let b : Bounds := ⟨.behind 0 0, .behind 1 1⟩
    let shown : Cell := ⟨.behind 0 1, .text, "u", none⟩
    let dangling : Cell := ⟨.behind 0 1, .sharedString, "7", none⟩
    let beside : Cell := ⟨.behind 1 1, .sharedString, "8", none⟩
    let rows : List Row := [⟨.whole 2, [beside, shown, dangling, shown]⟩]
    let rows' : List Row := [⟨.whole 3, [beside, dangling]⟩, ⟨.whole 2, [shown, dangling, shown]⟩]
    let result rows := ((x.extract (.text "T") (["a"].map .text) b rows).runFrom .start).1
    (∀ row ∈ rows, row.number ≠ .unordered) ∧ (b.IsNameable 1 rows ∧ b.IsNameable 1 rows') ∧
      result rows = .error (.missingEntry .sharedStrings (.integer 7)) ∧
        result rows' = result rows := by
  intro x b shown dangling beside rows rows' result
  have h : ∀ row ∈ rows, row.number ≠ .unordered := by decide
  have h' : ∀ row ∈ rows', row.number ≠ .unordered := by decide
  have hrange : b.IsWritable := ⟨by decide, by decide⟩
  have hname : b.IsNameable 1 rows := ⟨hrange, by decide +kernel⟩
  have hname' : b.IsNameable 1 rows' := ⟨hrange, by decide +kernel⟩
  have hsel : b.selection 1 rows = [[shown, dangling, shown]] := by with_unfolding_all rfl
  have hsel' : b.selection 1 rows' = [[shown, dangling, shown]] := by with_unfolding_all rfl
  have hcells : (b.selection 1 rows).flatten = [shown] ++ dangling :: [shown] := by
    rw [hsel]
    rfl
  have hindex : Integer.parse? "7".toList = some 7 := by decide
  have hmiss : (Lookups.miss .sharedStrings (.integer 7) : Except Fault String) =
      .error (.missingEntry .sharedStrings (.integer 7)) := by
    rw [Lookups.miss, Fault.naming_integer, if_pos (by decide)]
  have hfail : x.display dangling = .error (.missingEntry .sharedStrings (.integer 7)) := by
    simp only [display, dangling, hindex]
    exact hmiss
  have hbefore : ∀ c ∈ [shown], ∃ s, x.display c = .ok s := by
    intro c hc
    obtain rfl := List.mem_singleton.1 hc
    exact ⟨"u", rfl⟩
  obtain ⟨-, -, hlocal⟩ := @extract_local ⟨["p"], [], []⟩ true "" "T" ["a"] b rows h .start
  obtain ⟨hfirst, hsame⟩ := hlocal hname
  have hfault := (hfirst (.missingEntry .sharedStrings (.integer 7))).2
    ⟨[shown], dangling, [shown], hcells, hbefore, hfail⟩
  exact ⟨h, ⟨hname, hname'⟩, hfault, hsame rows' .start h' hname' (hsel'.trans hsel.symm)⟩

/-- A cell beside the only header stops the extraction if its row number is too long for the remark
    on it, although no cell is selected. -/
theorem extract_unnameable :
    let x : Extractor := ⟨.empty, true, .text ""⟩
    let b : Bounds := ⟨.behind 0 0, .behind 1 1⟩
    let beside : Cell := ⟨.behind 1 (10 ^ Digits.limit), .plain, "x", none⟩
    let rows : List Row := [⟨.whole 2, [beside]⟩]
    let rows' : List Row := [⟨.whole 2, []⟩]
    let result rows := ((x.extract (.text "T") (["h"].map .text) b rows).runFrom .start).1
    (b.selection 1 rows = [[]] ∧ result rows = .error .unreadableNumeral) ∧
      b.selection 1 rows' = [[]] ∧ result rows' = .ok ⟨"T", ["h"], [[("h", "")]]⟩ := by
  intro x b beside rows rows' result
  have h : ∀ row ∈ rows, row.number ≠ .unordered := by
    intro row hrow
    obtain rfl := List.mem_singleton.1 hrow
    exact nofun
  have hvisited : (b.visited rows).flatten = [] ++ beside :: [] := by with_unfolding_all rfl
  have hrow (rows : Nat) : (Address.behind 1 rows).row.natAbs = rows + 1 := rfl
  have hlong : Digits.limit < Digits.count (Address.behind 1 (10 ^ Digits.limit)).row.natAbs := by
    rw [hrow, Digits.lt_count_iff (by decide)]
    exact Nat.le_add_right _ 1
  have hs : b.selectsCell 1 beside = false := by with_unfolding_all rfl
  have hfail : x.inspect b 1 beside = .error .unreadableNumeral := by
    rw [inspect, hs, if_neg Bool.false_ne_true]
    exact Address.text_eq_error_iff.2 ⟨hlong, rfl⟩
  refine ⟨⟨?_, ?_⟩, ?_, by decide +kernel⟩
  · with_unfolding_all rfl
  · refine (extract_eq_error_iff rfl h).2 (.inl (mapM_eq_error_iff.2 ?_))
    exact ⟨[], beside, [], hvisited, nofun, hfail⟩
  · with_unfolding_all rfl

end Extractor

end Worksheet
