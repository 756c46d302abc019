-- SUMMARY: The letters and numbers of an address fit together, and addresses are in a total order.
import Mathlib.Data.Prod.Lex
import Worksheet.Address.Order
import Worksheet.Proofs.Address.Reference
import Worksheet.Proofs.Table

/-!
# The Total Order of Addresses

An address that is read, made from numbers, shifted or made from fields has a column name
that stands for its column. So addresses are equal if their rows and columns are, and
comparing these in turn is a total order: `order_total`.
-/

namespace Worksheet

/-! ## Fields -/

section Schema

variable {α : Type} {fields : Fields} {name : String}

theorem Schema.required_eq_ok_iff {check : Value → Checked α} {a : α} :
    required fields name check = .ok a ↔ ∃ v, fields.lookup name = some v ∧ check v = .ok a := by
  rw [required, Checked.within_eq_ok_iff]
  cases fields.lookup name with
  | none => simp [Checked.fail]
  | some v => simp

theorem Schema.nonemptyText_eq_ok_iff {v : Value} {s : String} :
    nonemptyText v = .ok s ↔ v = .text s ∧ s.isEmpty = false := by
  unfold nonemptyText
  cases v with
  | text s' =>
    simp only [text, Value.text.injEq]
    split
    · rename_i h
      simp only [Checked.fail, reduceCtorEq, false_iff, not_and, Bool.not_eq_false]
      rintro rfl
      exact h
    · rename_i h
      rw [Except.ok.injEq]
      constructor
      · rintro rfl
        exact ⟨rfl, by simpa using h⟩
      · exact fun h => h.1
  | _ => simp [text, Checked.fail]

theorem Schema.strictInteger_eq_ok_iff {v : Value} {n : Int} :
    strictInteger v = .ok n ↔ v = .integer n := by
  cases v <;> simp [strictInteger, Checked.fail]

end Schema

namespace Address

variable {a b c : Address} {fields : Fields}

/-! ## Ways to an address -/

/-- The letters and the numbers of an address fit together. -/
structure IsSound (a : Address) : Prop where
  isName : Column.isName a.columnName = true
  column : a.column = Column.index a.columnName
  column_pos : 1 ≤ a.column
  row_pos : 1 ≤ a.row

theorem isSound (a : Address) : a.IsSound :=
  ⟨isName_columnName a, (index_columnName a).symm, a.column_pos, a.row_pos⟩

theorem ofName_eq_ok_iff {name : String} {row : Int} :
    ofName name row = .ok a ↔
      Column.isName name.toList = true ∧ a.columnName = name.toList ∧ a.row = row := by
  unfold ofName
  constructor
  · intro h
    split at h
    · rename_i hname
      split at h
      · cases h
      · cases h
        exact ⟨hname, (columnName_eq_iff hname).2 rfl, rfl⟩
    · cases h
  · rintro ⟨hname, hcolumn, rfl⟩
    have hpos := a.row_pos
    rw [dif_pos hname, dif_neg (by omega), Except.ok.injEq, ext_iff_fields]
    exact ⟨((columnName_eq_iff hname).1 hcolumn).symm, rfl⟩

/-- Fields make an address if they have a column name and a row. Its column is what the name
    says, whatever number is given for it. -/
theorem ofFields_eq_ok_iff : ofFields fields = .ok a ↔
    fields.lookup "column_name" = some (.text (String.ofList a.columnName)) ∧
      fields.lookup "row_index" = some (.integer a.row) := by
  have hsound := a.isSound
  constructor
  · intro h
    obtain ⟨⟨⟨name, row⟩, given⟩, hfields, ha⟩ := bind_eq_ok_iff.1 h
    simp only [Checked.both_eq_ok_iff, Schema.required_eq_ok_iff, Schema.nonemptyText_eq_ok_iff,
      Schema.strictInteger_eq_ok_iff] at hfields
    obtain ⟨⟨⟨_, hname, rfl, -⟩, ⟨_, hrow, rfl⟩⟩, -⟩ := hfields
    obtain ⟨-, hcolumn, rfl⟩ := ofName_eq_ok_iff.1 ha
    rw [hcolumn, String.ofList_toList]
    exact ⟨hname, hrow⟩
  · rintro ⟨hname, hrow⟩
    have hne : (String.ofList a.columnName).isEmpty = false := by
      have hletters := hsound.isName
      simp only [Column.isName, Bool.and_eq_true, Bool.not_eq_true', List.isEmpty_eq_false_iff]
        at hletters
      simpa using hletters.1
    have hgiven : checkGivenIndex fields = .ok 0 := by simp only [checkGivenIndex, hname]
    refine bind_eq_ok_iff.2 ⟨((String.ofList a.columnName, a.row), 0), ?_, ?_⟩
    · simp only [Checked.both_eq_ok_iff, Schema.required_eq_ok_iff, Schema.nonemptyText_eq_ok_iff,
        Schema.strictInteger_eq_ok_iff]
      exact ⟨⟨⟨_, hname, rfl, hne⟩, ⟨_, hrow, rfl⟩⟩, hgiven⟩
    · rw [ofName_eq_ok_iff, String.toList_ofList]
      exact ⟨hsound.isName, rfl, rfl⟩

/-! ## The order -/

theorem order_eq (a b : Address) :
    a.order b = (compare a.row b.row).then (compare a.column b.column) := by
  rw [Int.compare_eq_ite_lt, Int.compare_eq_ite_lt]
  unfold order
  split
  · rfl
  · split
    · rfl
    · rfl

theorem order_swap (a b : Address) : b.order a = (a.order b).swap := by
  rw [order_eq, order_eq, Ordering.swap_then, Int.compare_swap, Int.compare_swap]

theorem order_eq_lt_iff :
    a.order b = .lt ↔ a.row < b.row ∨ a.row = b.row ∧ a.column < b.column := by
  rw [order_eq, Ordering.then_eq_lt, Int.compare_eq_lt, Int.compare_eq_eq, Int.compare_eq_lt]

theorem order_trans (hab : a.order b = .lt) (hbc : b.order c = .lt) : a.order c = .lt := by
  rw [order_eq_lt_iff] at hab hbc ⊢
  omega

theorem order_eq_lt_iff_zeroBased :
    a.order b = .lt ↔ Prod.Lex (· < ·) (· < ·) a.zeroBased b.zeroBased := by
  rw [order_eq_lt_iff, Prod.lex_def]
  simp only [zeroBased]
  omega

/-- All ways to compare an address with something come out alike. -/
structure ComparesAs (a : Address) (c : Comparand) (o : Ordering) : Prop where
  compare : a.compareWith c = .ok o
  below : a.isBelow c = .ok (o = .lt)
  atMost : a.isAtMost c = .ok (o ≠ .gt)
  above : a.isAbove c = .ok (o = .gt)
  atLeast : a.isAtLeast c = .ok (o ≠ .lt)
  equals : a.equals c = decide (o = .eq)

theorem comparesAs_order (a b : Address) : a.ComparesAs (.address b) (a.order b) := by
  have hpasses (test : Ordering → Bool) : a.passes test (.address b) = .ok (test (a.order b)) := rfl
  have hequals : a.equals (.address b) = decide (a.order b = .eq) := by
    rw [equals, decide_eq_decide]
    exact (order_eq_iff a b).symm
  refine ⟨rfl, ?_, ?_, ?_, ?_, ?_⟩
  · rw [isBelow, hpasses]
    cases a.order b <;> rfl
  · rw [isAtMost, hpasses]
    cases a.order b <;> rfl
  · rw [isAbove, hpasses]
    cases a.order b <;> rfl
  · rw [isAtLeast, hpasses]
    cases a.order b <;> rfl
  · exact hequals

theorem comparesAs_nothing (a : Address) : a.ComparesAs .nothing .gt :=
  ⟨rfl, rfl, rfl, rfl, rfl, rfl⟩

theorem isBelow_iff : a.isBelow (.address b) = .ok true ↔ a.order b = .lt := by
  rw [(comparesAs_order a b).below, Except.ok.injEq, decide_eq_true_iff]

/-! ## Equal addresses -/

theorem order_eq_eq_iff_fields : a.order b = .eq ↔
    a.columnName = b.columnName ∧ a.row = b.row ∧ a.column = b.column := by
  rw [order_eq_iff]
  constructor
  · rintro rfl
    exact ⟨rfl, rfl, rfl⟩
  · rintro ⟨-, hr, hc⟩
    exact ext_iff_fields.2 ⟨hc, hr⟩

/-- Addresses that can be written are told apart by what is written for them. -/
theorem exists_text_eq_iff (ha : Digits.count a.row.natAbs ≤ Digits.limit)
    (hb : Digits.count b.row.natAbs ≤ Digits.limit) :
    ∃ s t, a.text = .ok s ∧ b.text = .ok t ∧ (a.order b = .eq ↔ s = t) := by
  have hs : a.text = .ok (String.ofList a.chars) := text_eq_ok_iff.2 ⟨ha, String.toList_ofList⟩
  have ht : b.text = .ok (String.ofList b.chars) := text_eq_ok_iff.2 ⟨hb, String.toList_ofList⟩
  refine ⟨_, _, hs, ht, ?_⟩
  rw [order_eq_iff]
  constructor
  · rintro rfl
    rfl
  · intro h
    have hparse := parse_of_text ht
    rw [← h, parse_of_text hs] at hparse
    exact Except.ok.inj hparse

/-- However an address is made, its letters and numbers fit together. Any two addresses compare
    in one way, by rows and then by columns, and in the opposite way when they change places.
    They are equal exactly if all their fields are, or what is written for them. Every address
    is above nothing at all. -/
theorem order_total (a b c : Address) :
    ((∀ s, parse s = .ok a → a.IsSound ∧
        ∃ letters digits, IsReference s letters digits ∧ a.Denotes letters digits) ∧
      (∀ column row, create column row = .ok a → a.IsSound ∧ a.column = column ∧ a.row = row) ∧
      (∀ rows columns, b.offset rows columns = .ok a →
        a.IsSound ∧ a.column = b.column + columns ∧ a.row = b.row + rows) ∧
      ∀ fields, ofFields fields = .ok a → a.IsSound ∧
        fields.lookup "column_name" = some (.text (String.ofList a.columnName)) ∧
        fields.lookup "row_index" = some (.integer a.row) ∧
        ∀ given, ofFields (("column_index", given) :: fields) = .ok a) ∧
    (∃ o, a.ComparesAs (.address b) o ∧ b.ComparesAs (.address a) o.swap ∧
      (o = .lt ↔ Prod.Lex (· < ·) (· < ·) a.zeroBased b.zeroBased) ∧
      (o = .eq ↔ a.columnName = b.columnName ∧ a.row = b.row ∧ a.column = b.column) ∧
      (Digits.count a.row.natAbs ≤ Digits.limit → Digits.count b.row.natAbs ≤ Digits.limit →
        ∃ s t, a.text = .ok s ∧ b.text = .ok t ∧ (o = .eq ↔ s = t))) ∧
    (a.isBelow (.address b) = .ok true → b.isBelow (.address c) = .ok true →
      a.isBelow (.address c) = .ok true) ∧
    a.ComparesAs .nothing .gt := by
  refine ⟨⟨?_, ?_, ?_, ?_⟩, ⟨a.order b, comparesAs_order a b, ?_, ?_, ?_, ?_⟩, ?_, ?_⟩
  · intro s h
    obtain ⟨letters, digits, hs, -, -, hdenotes⟩ := parse_eq_ok_iff.1 h
    exact ⟨a.isSound, letters, digits, hs, hdenotes⟩
  · intro column row h
    exact ⟨a.isSound, create_eq_ok_iff.1 h⟩
  · intro rows columns h
    exact ⟨a.isSound, create_eq_ok_iff.1 h⟩
  · intro fields h
    obtain ⟨hname, hrow⟩ := ofFields_eq_ok_iff.1 h
    refine ⟨a.isSound, hname, hrow, fun given => ?_⟩
    rw [ofFields_eq_ok_iff, List.lookup_cons, List.lookup_cons]
    exact ⟨hname, hrow⟩
  · rw [← order_swap]
    exact comparesAs_order b a
  · exact order_eq_lt_iff_zeroBased
  · exact order_eq_eq_iff_fields
  · exact exists_text_eq_iff
  · rw [isBelow_iff, isBelow_iff, isBelow_iff]
    exact order_trans
  · exact comparesAs_nothing a

/-- The last cell of a row comes before the first one of the next row. Fields make this cell,
    although they give another column. -/
theorem order_total_rows :
    let a : Address := { column := 702, row := 9 }
    let b : Address := { column := 1, row := 10 }
    let c : Address := { column := 2, row := 10 }
    let fields : Fields :=
      [("column_index", .integer 5), ("column_name", .text "ZZ"), ("row_index", .integer 9)]
    (ofFields fields = .ok a ∧ a.IsSound) ∧
      (a.isBelow (.address b) = .ok true ∧ b.isBelow (.address c) = .ok true ∧
        a.isBelow (.address c) = .ok true) ∧
      ∃ s t, a.text = .ok s ∧ b.text = .ok t ∧ s ≠ t := by
  intro a b c fields
  have hname : a.columnName = "ZZ".toList := (columnName_eq_iff (by decide)).2 (by decide)
  have hfields : ofFields fields = .ok a := by
    rw [ofFields_eq_ok_iff, hname]
    exact ⟨rfl, rfl⟩
  have hab : a.isBelow (.address b) = .ok true := rfl
  have hbc : b.isBelow (.address c) = .ok true := rfl
  obtain ⟨⟨-, -, -, hmade⟩, ⟨o, hcompare, -, -, -, htexts⟩, htrans, -⟩ := order_total a b c
  have ho : o = .lt := Except.ok.inj (hcompare.compare.symm.trans rfl)
  obtain ⟨s, t, hs, ht, hst⟩ := htexts (by decide) (by decide)
  refine ⟨⟨hfields, (hmade fields hfields).1⟩, ⟨hab, hbc, htrans hab hbc⟩, s, t, hs, ht, ?_⟩
  intro heq
  rw [← hst, ho] at heq
  cases heq

end Address

end Worksheet
