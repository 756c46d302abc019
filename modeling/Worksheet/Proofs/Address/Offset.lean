-- SUMMARY: Where offsets that are applied one after another lead.
import Mathlib.Algebra.BigOperators.Group.List.Basic
import Worksheet.Proofs.Address.Order

/-!
# Offsets

An offset fails if it leads out of the sheet, and then the address stays where it was. So an
address is at all times where the offsets that have not failed add up to: `isShifted_after`. It
does not matter that the letters of the column are found and read anew at each step:
`offset_eq_ok_iff_ofName`.
-/

namespace Worksheet.Address

variable {a b c : Address} {rows columns rows' columns' : Int}

/-! ## One offset -/

theorem offset_eq_ok_iff :
    a.offset rows columns = .ok b ↔ b.column = a.column + columns ∧ b.row = a.row + rows :=
  create_eq_ok_iff

/-- The column is complained about first, and each complaint names the number that the offset leads
    to. -/
theorem offset_eq_error_iff {e : Fault} : a.offset rows columns = .error e ↔
    (a.column + columns < 1 ∧
      e = Fault.naming (.integer (a.column + columns)) (.columnIndex (a.column + columns))) ∨
    (1 ≤ a.column + columns ∧ a.row + rows < 1 ∧
      e = Fault.naming (.integer (a.row + rows)) (.rowIndex (a.row + rows))) := by
  unfold offset create
  split
  · rename_i hcolumn
    simp [hcolumn, Int.not_le.2 hcolumn, eq_comm]
  · rename_i hcolumn
    split
    · rename_i hrow
      simp [hcolumn, hrow, Int.not_lt.1 hcolumn, eq_comm]
    · rename_i hrow
      simp [hcolumn, hrow]

theorem exists_offset_eq_error_iff :
    (∃ e, a.offset rows columns = .error e) ↔ a.column + columns < 1 ∨ a.row + rows < 1 := by
  simp only [offset_eq_error_iff]
  constructor
  · rintro ⟨e, ⟨hcolumn, -⟩ | ⟨-, hrow, -⟩⟩
    · exact .inl hcolumn
    · exact .inr hrow
  · intro h
    by_cases hcolumn : a.column + columns < 1
    · exact ⟨_, .inl ⟨hcolumn, rfl⟩⟩
    · exact ⟨_, .inr ⟨Int.not_lt.1 hcolumn, h.resolve_left hcolumn, rfl⟩⟩

theorem offset_zero (a : Address) : a.offset 0 0 = .ok a := by
  rw [offset_eq_ok_iff]
  exact ⟨(Int.add_zero a.column).symm, (Int.add_zero a.row).symm⟩

/-- Two offsets add up if the first one does not fail. -/
theorem offset_of_offset (h : a.offset rows columns = .ok b) (rows' columns' : Int) :
    b.offset rows' columns' = a.offset (rows + rows') (columns + columns') := by
  obtain ⟨hcolumn, hrow⟩ := offset_eq_ok_iff.1 h
  unfold offset
  rw [hcolumn, hrow, Int.add_assoc, Int.add_assoc]

theorem offset_neg (h : a.offset rows columns = .ok b) :
    b.offset (-rows) (-columns) = .ok a := by
  rw [offset_of_offset h, Int.add_right_neg, Int.add_right_neg]
  exact offset_zero a

/-! ## Offsets one after another -/

/-- Where some results lead from an address: to the last address among them. -/
def last (a : Address) (results : List (Except Fault Address)) : Address :=
  results.foldl (fun here r => match r with
    | .ok b => b
    | .error _ => here) a

/-- The address after some offsets. -/
def after (a : Address) (steps : List (Int × Int)) : Address := a.last (a.walk steps)

/-- The offsets that do not fail. -/
def succeeded (a : Address) (steps : List (Int × Int)) : List (Int × Int) :=
  ((steps.zip (a.walk steps)).filter (·.2.isOk)).map Prod.fst

variable {steps : List (Int × Int)} {step : Int × Int}

theorem walk_cons_ok (h : a.offset step.1 step.2 = .ok b) (steps : List (Int × Int)) :
    a.walk (step :: steps) = .ok b :: b.walk steps := by
  simp only [walk, h]

theorem walk_cons_error {e : Fault} (h : a.offset step.1 step.2 = .error e)
    (steps : List (Int × Int)) : a.walk (step :: steps) = .error e :: a.walk steps := by
  simp only [walk, h]

theorem after_cons_ok (h : a.offset step.1 step.2 = .ok b) (steps : List (Int × Int)) :
    a.after (step :: steps) = b.after steps := by
  rw [after, walk_cons_ok h]
  rfl

/-- An offset that fails leaves the address where it is. -/
theorem after_cons_error {e : Fault} (h : a.offset step.1 step.2 = .error e)
    (steps : List (Int × Int)) : a.after (step :: steps) = a.after steps := by
  rw [after, walk_cons_error h]
  rfl

theorem succeeded_cons_ok (h : a.offset step.1 step.2 = .ok b) (steps : List (Int × Int)) :
    a.succeeded (step :: steps) = step :: b.succeeded steps := by
  rw [succeeded, walk_cons_ok h]
  rfl

theorem succeeded_cons_error {e : Fault} (h : a.offset step.1 step.2 = .error e)
    (steps : List (Int × Int)) : a.succeeded (step :: steps) = a.succeeded steps := by
  rw [succeeded, walk_cons_error h]
  rfl

/-- Each offset goes from where those before it have led. -/
theorem walk_append (a : Address) (steps more : List (Int × Int)) :
    a.walk (steps ++ more) = a.walk steps ++ (a.after steps).walk more := by
  induction steps generalizing a with
  | nil => rfl
  | cons step steps ih =>
    cases h : a.offset step.1 step.2 with
    | ok b =>
      rw [List.cons_append, walk_cons_ok h, walk_cons_ok h, after_cons_ok h, ih b]
      rfl
    | error e =>
      rw [List.cons_append, walk_cons_error h, walk_cons_error h, after_cons_error h, ih a]
      rfl

theorem after_append (a : Address) (steps more : List (Int × Int)) :
    a.after (steps ++ more) = (a.after steps).after more := by
  rw [after, walk_append, last, List.foldl_append]
  rfl

theorem length_walk (a : Address) (steps : List (Int × Int)) :
    (a.walk steps).length = steps.length := by
  induction steps generalizing a with
  | nil => rfl
  | cons step steps ih =>
    cases h : a.offset step.1 step.2 with
    | ok b => rw [walk_cons_ok h, List.length_cons, ih b, List.length_cons]
    | error e => rw [walk_cons_error h, List.length_cons, ih a, List.length_cons]

/-- One address is as far from another as some offsets add up to. -/
structure IsShifted (a b : Address) (steps : List (Int × Int)) : Prop where
  row : b.row = a.row + (steps.map Prod.fst).sum
  column : b.column = a.column + (steps.map Prod.snd).sum

theorem IsShifted.cons (h : a.offset step.1 step.2 = .ok b) (hsteps : IsShifted b c steps) :
    IsShifted a c (step :: steps) := by
  obtain ⟨hcolumn, hrow⟩ := offset_eq_ok_iff.1 h
  constructor
  · rw [hsteps.row, hrow, List.map_cons, List.sum_cons, Int.add_assoc]
  · rw [hsteps.column, hcolumn, List.map_cons, List.sum_cons, Int.add_assoc]

/-- The offsets that have not failed add up. -/
theorem isShifted_after (a : Address) (steps : List (Int × Int)) :
    IsShifted a (a.after steps) (a.succeeded steps) := by
  induction steps generalizing a with
  | nil => exact ⟨(Int.add_zero a.row).symm, (Int.add_zero a.column).symm⟩
  | cons step steps ih =>
    cases h : a.offset step.1 step.2 with
    | ok b =>
      rw [after_cons_ok h, succeeded_cons_ok h]
      exact (ih b).cons h
    | error e =>
      rw [after_cons_error h, succeeded_cons_error h]
      exact ih a

/-! ## The letters of the column -/

/-- The letters name the column, and stand for it. -/
structure IsNamed (a : Address) (name : String) : Prop where
  nameAt : Column.nameAt a.column = .ok name
  index : Column.index name.toList = a.column

theorem isNamed (a : Address) : a.IsNamed (String.ofList a.columnName) where
  nameAt := if_neg (Int.not_lt.2 a.column_pos)
  index := by rw [String.toList_ofList, index_columnName]

theorem nameAt_eq_ok_iff {column : Int} {name : String} : Column.nameAt column = .ok name ↔
    1 ≤ column ∧ name = String.ofList (Column.name column.toNat) := by
  unfold Column.nameAt
  split
  · rename_i h
    exact iff_of_false (fun hname => nomatch hname) fun hname => Int.not_le.2 h hname.1
  · rename_i h
    rw [Except.ok.injEq, eq_comm, iff_and_self]
    exact fun _ => Int.not_lt.1 h

/-- To go to a column is to find its letters and to read them. -/
theorem offset_eq_ok_iff_ofName : a.offset rows columns = .ok b ↔
    ∃ name, Column.nameAt (a.column + columns) = .ok name ∧ ofName name (a.row + rows) = .ok b := by
  simp only [offset_eq_ok_iff, ofName_eq_ok_iff, nameAt_eq_ok_iff]
  constructor
  · rintro ⟨hcolumn, hrow⟩
    refine ⟨String.ofList b.columnName, ⟨hcolumn ▸ b.column_pos, ?_⟩, ?_⟩
    · rw [← hcolumn]
      rfl
    · rw [String.toList_ofList]
      exact ⟨isName_columnName b, rfl, hrow⟩
  · rintro ⟨name, ⟨hpos, rfl⟩, hname, hletters, hrow⟩
    rw [String.toList_ofList] at hname hletters
    refine ⟨?_, hrow⟩
    rw [(columnName_eq_iff hname).1 hletters, Column.index_name, Int.toNat_of_nonneg]
    exact Int.le_of_lt hpos

/-! ## The whole walk -/

/-- After any offsets the address is where those that have not failed add up to, and its letters
    name its column. The next one fails exactly if it leads in front of the first column or above
    the first row, and then the address stays where it is. The fault is the column or the row that
    it leads to, and the column if it is both, unless that number is too long to be written. If the
    offset does not fail, it leads to the address that the letters of the new column make. An
    offset and its opposite lead back, and two offsets add up. -/
theorem walk_shifts (a : Address) (steps rest : List (Int × Int)) (rows columns : Int) :
    let here := a.after steps
    let column := here.column + columns
    let row := here.row + rows
    (IsShifted a here (a.succeeded steps) ∧ here.IsNamed (String.ofList here.columnName)) ∧
    (a.walk (steps ++ (rows, columns) :: rest))[steps.length]? = some (here.offset rows columns) ∧
    ((∃ e, here.offset rows columns = .error e) ↔ column < 1 ∨ row < 1) ∧
    (∀ e, here.offset rows columns = .error e ↔
      (column < 1 ∧ e = if Digits.count column.natAbs ≤ Digits.limit then .columnIndex column
        else .unreadableNumeral) ∨
      (1 ≤ column ∧ row < 1 ∧ e = if Digits.count row.natAbs ≤ Digits.limit then .rowIndex row
        else .unreadableNumeral)) ∧
    (∀ b, here.offset rows columns = .ok b ↔ ∃ name,
      Column.nameAt column = .ok name ∧ ofName name row = .ok b) ∧
    (∀ e, here.offset rows columns = .error e → a.after (steps ++ [(rows, columns)]) = here) ∧
    a.offset 0 0 = .ok a ∧
    ∀ b, a.offset rows columns = .ok b → b.offset (-rows) (-columns) = .ok a ∧
      ∀ rows' columns', b.offset rows' columns' = a.offset (rows + rows') (columns + columns') := by
  intro here column row
  refine ⟨⟨isShifted_after a steps, isNamed here⟩, ?_, exists_offset_eq_error_iff, ?_, ?_, ?_,
    offset_zero a, ?_⟩
  · rw [walk_append, List.getElem?_append_right (length_walk a steps).le, length_walk,
      Nat.sub_self]
    cases h : here.offset rows columns with
    | ok b => rw [walk_cons_ok h]; rfl
    | error e => rw [walk_cons_error h]; rfl
  · intro e
    rw [← Fault.naming_integer, ← Fault.naming_integer]
    exact offset_eq_error_iff
  · intro b
    exact offset_eq_ok_iff_ofName
  · intro e h
    rw [after_append]
    exact after_cons_error h []
  · intro b h
    exact ⟨offset_neg h, offset_of_offset h⟩

/-- From C12 to AA17, and not out of the sheet on the way back to C12. -/
theorem walk_shifts_back :
    let b : Address := { column := 3, row := 12 }
    let d : Address := { column := 27, row := 17 }
    b.walk [(5, 24), (-30, -30), (-5, -24)] = [.ok d, .error (.columnIndex (-3)), .ok b] ∧
      (d.offset (-30) (-30) = .error (.columnIndex (-3)) ∧ b.after [(5, 24), (-30, -30)] = d) ∧
      d.IsNamed "AA" ∧
      (b.offset 5 24 = .ok d ∧ d.offset (-5) (-24) = .ok b ∧ d.offset 4 5 = b.offset 9 29) := by
  intro b d
  obtain ⟨⟨-, hnamed⟩, -, -, hfails, -, hstays, -⟩ := walk_shifts b [(5, 24)] [] (-30) (-30)
  obtain ⟨-, -, -, -, -, -, -, hadd⟩ := walk_shifts b [] [] 5 24
  have hfirst : b.after [(5, 24)] = d := rfl
  rw [hfirst] at hnamed hfails hstays
  have hname : d.columnName = "AA".toList := (columnName_eq_iff (by decide)).2 (by decide)
  rw [hname, String.ofList_toList] at hnamed
  have hcount : Digits.count (-3 : Int).natAbs ≤ Digits.limit := by decide
  have herror : d.offset (-30) (-30) = .error (.columnIndex (-3)) :=
    (hfails _).2 (.inl ⟨by decide, (if_pos hcount).symm⟩)
  have hd : b.offset 5 24 = .ok d := rfl
  have hback : d.offset (-5) (-24) = .ok b := (hadd d hd).1
  have hwalk : b.walk [(5, 24), (-30, -30), (-5, -24)] =
      [.ok d, .error (.columnIndex (-3)), .ok b] := by
    rw [walk_cons_ok hd, walk_cons_error herror, walk_cons_ok hback]
    rfl
  exact ⟨hwalk, ⟨herror, hstays _ herror⟩, hnamed, hd, hback, (hadd d hd).2 4 5⟩

/-- From N15 to a column so far in front of the first one that there is no complaint about it. -/
theorem offset_too_far :
    let a : Address := { column := 14, row := 15 }
    let columns : Int := -10 ^ Digits.limit - 14
    a.column + columns < 1 ∧ a.offset 0 columns = .error .unreadableNumeral ∧
      a.offset 0 columns ≠ .error (.columnIndex (a.column + columns)) := by
  intro a columns
  have hcolumn : a.column + columns = -10 ^ Digits.limit := by
    change 14 + (-10 ^ Digits.limit - 14) = _
    ring
  have hpos : (0 : Int) < 10 ^ Digits.limit := by positivity
  have hten : (10 : Int).natAbs = 10 := rfl
  have hcount : ¬Digits.count (a.column + columns).natAbs ≤ Digits.limit := by
    rw [hcolumn, Int.natAbs_neg, Int.natAbs_pow, Nat.not_le, hten,
      Digits.lt_count_iff (by decide)]
  have hout : a.column + columns < 1 := by omega
  have herror : a.offset 0 columns = .error .unreadableNumeral := by
    refine offset_eq_error_iff.2 (.inl ⟨hout, ?_⟩)
    rw [Fault.naming_integer, if_neg hcount]
  refine ⟨hout, herror, ?_⟩
  rw [herror]
  exact nofun

end Worksheet.Address
