-- SUMMARY: Which rows and which values an extracted table has, said without going through the cells one by one.
import Worksheet.Proofs.Selection
import Worksheet.Proofs.Table

/-!
# The Table that is Extracted

A header shows the last cell of its column, and the empty value if there is none. A name
that several headers share stands for the last of them. `Extractor.extract_rows` says that
the rows of an extracted table are just that, for the rows that hold data.
-/

namespace Worksheet

/-- The cell that the header at a position shows: the last one in its column, if the column
    does not lie behind the last one. -/
def Bounds.shownCell? (b : Bounds) (cells : List Cell) (j : Nat) : Option Cell :=
  (cells.filter fun cell =>
    cell.address.column = b.start.column + j ∧ cell.address.column ≤ b.stop.column).getLast?

/-- The last position of a header. -/
def IsRightmost (headers : List String) (h : String) (k : Nat) : Prop :=
  headers[k]? = some h ∧ ∀ i, k < i → headers[i]? ≠ some h

theorem exists_isRightmost {headers : List String} {h : String} (hm : h ∈ headers) :
    ∃ k, IsRightmost headers h k := by
  induction headers with
  | nil => cases hm
  | cons a rest ih =>
    by_cases hr : h ∈ rest
    · obtain ⟨k, hk, hlast⟩ := ih hr
      refine ⟨k + 1, by simpa using hk, ?_⟩
      intro i hi
      cases i with
      | zero => omega
      | succ i => simpa using hlast i (by omega)
    · have ha : h = a := by simpa [hr] using hm
      refine ⟨0, by simp [ha], ?_⟩
      intro i hi hs
      cases i with
      | zero => omega
      | succ i => exact hr (List.mem_of_getElem? (by simpa using hs))

/-- The last item of a class is the one behind which there is no other. -/
theorem getLast?_filter_of_last {α : Type} {p : α → Bool} {l : List α} {a : α} {k : Nat}
    (ha : l[k]? = some a) (hp : p a = true)
    (hlast : ∀ i c, k < i → l[i]? = some c → ¬p c = true) :
    (l.filter p).getLast? = some a := by
  have hk : k < l.length := by
    obtain ⟨hk, -⟩ := List.getElem?_eq_some_iff.1 ha
    exact hk
  have hdrop : (l.drop (k + 1)).filter p = [] := by
    rw [List.filter_eq_nil_iff]
    intro c hc
    obtain ⟨i, hi⟩ := List.mem_iff_getElem?.1 hc
    rw [List.getElem?_drop] at hi
    exact hlast (k + 1 + i) c (by omega) hi
  have hl : l = l.take k ++ (a :: l.drop (k + 1)) := by
    have hget := List.drop_eq_getElem_cons hk
    rw [(List.getElem?_eq_some_iff.1 ha).2] at hget
    rw [← hget, List.take_append_drop]
  rw [hl, List.filter_append, List.filter_cons_of_pos hp, hdrop]
  simp

namespace Extractor

variable {x : Extractor} {b : Bounds}

/-! ## The values of a row -/

/-- What the header at a position shows of the cells of a row. -/
def ShowsAt (x : Extractor) (b : Bounds) (cells : List Cell) (j : Nat) (v : Value) : Prop :=
  match b.shownCell? cells j with
  | some cell => ∃ s, x.display cell = .ok s ∧ v = .text s
  | none => v = x.emptyValue

theorem length_foldl_overwrite (ps : List (Cell × String)) (values : List Value) :
    (ps.foldl (overwrite b) values).length = values.length := by
  induction ps generalizing values with
  | nil => rfl
  | cons p ps ih => rw [List.foldl_cons, ih, overwrite, List.length_set]

/-- Of all texts that are written to a place, the last one stays. -/
theorem getElem?_foldl_overwrite (ps : List (Cell × String)) (values : List Value) {j : Nat}
    (hj : j < values.length) :
    (ps.foldl (overwrite b) values)[j]? =
      some (match (ps.filter fun p => b.place p.1 = j).getLast? with
        | some p => .text p.2
        | none => values[j]) := by
  induction ps using List.reverseRecOn with
  | nil => simp [hj]
  | append_singleton ps p ih =>
    rw [List.foldl_append, List.filter_append]
    by_cases hp : b.place p.1 = j
    · subst hp
      simp [overwrite, length_foldl_overwrite, hj]
    · simp [overwrite, hp, ih]

/-- The selected cells in a place are the cells in the column of its header. -/
theorem filter_place_eq (cells : List Cell) {n j : Nat} (hj : j < n) :
    (cells.filter (b.selectsCell n)).filter (fun cell => b.place cell = j) =
      cells.filter fun cell =>
        cell.address.column = b.start.column + j ∧ cell.address.column ≤ b.stop.column := by
  rw [List.filter_filter]
  refine List.filter_congr fun cell _ => ?_
  rw [Bool.eq_iff_iff]
  simp only [Bool.and_eq_true, decide_eq_true_eq, Bounds.selectsCell_iff, Bounds.containsColumn_iff]
  simp only [Bounds.place, Bounds.columnPosition]
  omega

theorem rowValues_showsAt {name : Value} {n : Nat} {cells : List Cell} {values : List Value}
    (h : x.rowValues name b n (cells.filter b.isInColumns) = .ok values) :
    values.length = n ∧ ∀ j < n, ∃ v, values[j]? = some v ∧ x.ShowsAt b cells j v := by
  obtain ⟨all, hall, hvalues⟩ := bind_eq_ok_iff.1 h
  cases hvalues
  obtain ⟨hvisited, htexts⟩ := texts_eq_ok_iff.1 hall
  rw [writeSelected, List.length_replicate]
  generalize hps : (all.filter fun p => b.selectsCell n p.1) = ps
  have hcells : ps.map Prod.fst = cells.filter (b.selectsCell n) := by
    rw [← Bounds.filter_isInColumns, ← hvisited, List.filter_map, ← hps]
    rfl
  have hshown : ∀ p ∈ ps, x.display p.1 = .ok p.2 := by
    intro p hp
    rw [← hps] at hp
    obtain ⟨hp, hs⟩ := List.mem_filter.1 hp
    rw [← htexts p hp, textFor, if_pos hs]
  refine ⟨by simp [length_foldl_overwrite], ?_⟩
  intro j hj
  refine ⟨_, getElem?_foldl_overwrite ps _ (by simpa using hj), ?_⟩
  have hlast : b.shownCell? cells j =
      ((ps.filter fun p => b.place p.1 = j).getLast?).map Prod.fst := by
    rw [Bounds.shownCell?, ← filter_place_eq cells hj, ← hcells, List.filter_map,
      List.getLast?_map]
    rfl
  unfold ShowsAt
  rw [hlast]
  cases hp : (ps.filter fun p => b.place p.1 = j).getLast? with
  | none => simp
  | some p =>
    have hm : p ∈ ps := List.mem_of_mem_filter (List.mem_of_getLast? hp)
    exact ⟨p.2, hshown p hm, rfl⟩

/-! ## The rows of the table -/

/-- What the row of a table is for the cells of a row of the sheet. -/
structure RowShows (x : Extractor) (b : Bounds) (headers : List String) (cells : List Cell)
    (row : Mapping String String) : Prop where
  keys : row.keys = headers.eraseDups
  value : ∀ h ∈ headers, ∃ k s, IsRightmost headers h k ∧ row.get? h = some s ∧
    x.ShowsAt b cells k (.text s)

/-- What the record of a row is for the cells of a row of the sheet. -/
structure RecordShows (x : Extractor) (b : Bounds) (headers : List String) (cells : List Cell)
    (record : List String) : Prop where
  length : record.length = headers.length
  entry : ∀ (j : Nat) (h : String), headers[j]? = some h → ∃ k s, IsRightmost headers h k ∧
    record[j]? = some s ∧ x.ShowsAt b cells k (.text s)

/-- A header has the value at its last position. -/
theorem get?_zip_of_isRightmost {headers : List String} {values : List Value} {h : String} {k : Nat}
    {v : Value} (hk : IsRightmost headers h k) (hv : values[k]? = some v) :
    (Mapping.ofList (headers.zip values)).get? h = some v := by
  have hp : (headers.zip values)[k]? = some (h, v) := by
    rw [List.getElem?_zip_eq_some]
    exact ⟨hk.1, hv⟩
  rw [Mapping.get?_ofList, getLast?_filter_of_last hp (by simp)]
  · rfl
  · intro i p hi hip
    rw [List.getElem?_zip_eq_some] at hip
    intro hh
    have hh : p.1 = h := by simpa using hh
    exact hk.2 i hi (hh ▸ hip.1)

theorem rowShows_of_rowValues {name : Value} {headers : List String} {cells : List Cell}
    {values : List Value} {row : Mapping String String}
    (hvalues : x.rowValues name b headers.length (cells.filter b.isInColumns) = .ok values)
    (hrow : Mapping.ofList (headers.zip values) = Table.untyped row) :
    x.RowShows b headers cells row := by
  obtain ⟨hlen, hshown⟩ := rowValues_showsAt hvalues
  constructor
  · have hkeys := congrArg Mapping.keys hrow
    rw [Mapping.keys_ofList, List.map_fst_zip (by omega)] at hkeys
    rw [hkeys, Table.untyped, Mapping.keys_mapValues]
  · intro h hm
    obtain ⟨k, hk⟩ := exists_isRightmost hm
    obtain ⟨hkn, -⟩ := List.getElem?_eq_some_iff.1 hk.1
    obtain ⟨v, hv, hs⟩ := hshown k hkn
    have hget := get?_zip_of_isRightmost hk hv
    rw [hrow, Table.untyped, Mapping.get?_mapValues, Option.map_eq_some_iff] at hget
    obtain ⟨s, hget, rfl⟩ := hget
    exact ⟨k, s, hk, hget, hs⟩

theorem RowShows.record {table : Table} {cells : List Cell} {row : Mapping String String}
    (h : x.RowShows b table.columns cells row) :
    x.RecordShows b table.columns cells (table.record row) := by
  constructor
  · simp [Table.record]
  · intro j c hj
    obtain ⟨k, s, hk, hget, hs⟩ := h.value c (List.mem_of_getElem? hj)
    exact ⟨k, s, hk, by simp [Table.record, hj, hget], hs⟩

/-- An extracted table has one row for each row that holds data, in the order of arrival. It
    maps each name to what the last header of that name shows, and its record has that value
    at each header of the name. -/
theorem extract_rows {name : Value} {headers : List String} {rows : List Row} {t : Log.Trace}
    {table : Table} (h : ((x.extract name (headers.map .text) b rows).runFrom t).1 = .ok table) :
    name = .text table.name ∧ table.columns = headers ∧
      List.Forall₂ (fun row m => x.RowShows b headers row.cells m)
        (rows.filter b.holdsData) table.rows ∧
      List.Forall₂ (fun row record => x.RecordShows b headers row.cells record)
        (rows.filter b.holdsData) table.records := by
  have hy := yields_extract x name headers b (ordered_of_extract_ok h) t
  rw [h] at hy
  obtain ⟨values, hvalues, hmade⟩ := bind_eq_ok_iff.1 hy.symm
  obtain ⟨_, -, htable⟩ := bind_eq_ok_iff.1 hmade
  rw [mapError_eq_ok_iff, Table.assemble_eq_ok_iff] at htable
  obtain ⟨hname, hcolumns, htable⟩ := htable
  rw [mapM_eq_ok_iff, Bounds.visited, List.forall₂_map_left_iff] at hvalues
  have hrows : List.Forall₂ (fun row m => x.RowShows b headers row.cells m)
      (rows.filter b.holdsData) table.rows :=
    forall₂_comp hvalues htable fun _ _ _ => rowShows_of_rowValues
  refine ⟨hname, hcolumns, hrows, ?_⟩
  rw [Table.records, List.forall₂_map_right_iff]
  subst hcolumns
  exact hrows.imp fun _ _ => RowShows.record

/-- Two headers with one name, a column with two cells, a column without any, and a row that
    arrives twice. -/
theorem extract_rows_repeated :
    let x : Extractor := ⟨⟨["p", "q"], [], []⟩, true, .text "-"⟩
    let b : Bounds := ⟨.behind 1 0, .behind 3 1⟩
    let row : Row := ⟨.whole 2, [⟨.behind 3 6, .text, "u", none⟩,
      ⟨.behind 1 6, .text, "v", none⟩,
      ⟨.behind 3 6, .sharedString, "1", none⟩,
      ⟨.behind 4 6, .sharedString, "9", none⟩]⟩
    let rows : List Row := [row, ⟨.whole 1, []⟩, row]
    let table : Table := ⟨"T", ["a", "b", "a"],
      [[("a", "q"), ("b", "-")], [("a", "q"), ("b", "-")]]⟩
    ((x.extract (.text "T") (["a", "b", "a"].map .text) b rows).runFrom .start).1 = .ok table ∧
      List.Forall₂ (fun row m => x.RowShows b ["a", "b", "a"] row.cells m)
        (rows.filter b.holdsData) table.rows :=
  have h := by decide +kernel
  ⟨h, (extract_rows h).2.2.1⟩

end Extractor

end Worksheet
