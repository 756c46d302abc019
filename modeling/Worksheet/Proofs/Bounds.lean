-- SUMMARY: Which texts are ranges, how the bounds they denote are written, and what these contain.
import Mathlib.Data.Int.Interval
import Mathlib.Data.Set.Card
import Mathlib.Data.Set.Function
import Worksheet.Bounds
import Worksheet.Proofs.Address.Reference

/-!
# Ranges

A range has one colon and a reference on each side of it. All other texts are malformed, and
the first side that is no reference says why: `parse_range`. A written range is read back as it
was, even if its last cell lies in front of its first one. Such bounds contain nothing.
-/

namespace Worksheet

/-! ## Runs of digits -/

/-- No run of digits in the text is too long to be read. -/
def Digits.HasShortRuns (s : String) : Prop :=
  ∀ ds, ds <:+: s.toList → ds.all Char.isDigit = true → ds.length ≤ limit

theorem Text.trim_infix (s : List Char) : trim s <:+: s := by
  obtain ⟨before, after, -, -, hs⟩ := isPadded_strip isBlank s
  exact ⟨before, after, hs.symm⟩

namespace Address

variable {s : String} {letters digits : List Char} {a : Address}

/-- The text is a reference to the address, whose row counts from one. -/
def RefersTo (s : String) (a : Address) : Prop :=
  ∃ letters digits, IsReference s letters digits ∧ 1 ≤ Digits.value digits ∧
    a.Denotes letters digits

theorem IsReference.length_le (h : IsReference s letters digits) (hruns : Digits.HasShortRuns s) :
    digits.length ≤ Digits.limit := by
  apply hruns digits
  · have hdigits : digits <:+: Text.trim s.toList := h.parts ▸ (List.suffix_append _ _).isInfix
    exact hdigits.trans (Text.trim_infix s.toList)
  · exact h.areDigits

theorem parse_eq_ok_iff_refersTo (hruns : Digits.HasShortRuns s) :
    parse s = .ok a ↔ RefersTo s a := by
  rw [parse_eq_ok_iff]
  constructor
  · rintro ⟨letters, digits, hs, -, hpos, ha⟩
    exact ⟨letters, digits, hs, hpos, ha⟩
  · rintro ⟨letters, digits, hs, hpos, ha⟩
    exact ⟨letters, digits, hs, hs.length_le hruns, hpos, ha⟩

/-- Why a text is not read as an address, unless it has too many digits. -/
inductive IsRefusal : Fault → Prop where
  | format (given : Value) : IsRefusal (.addressFormat given)
  | rowZero : IsRefusal (.rowIndex 0)

theorem isRefusal_of_parse {e : Fault} (hruns : Digits.HasShortRuns s) (h : parse s = .error e) :
    IsRefusal e := by
  rcases parse_eq_error_iff.1 h with
    ⟨letters, digits, -, -, -, rfl⟩ | ⟨letters, digits, hs, hlong, -⟩ | ⟨-, rfl⟩
  · exact .rowZero
  · exact absurd (hs.length_le hruns) (Nat.not_le.2 hlong)
  · exact .format _

theorem colon_notMem_chars (a : Address) : ':' ∉ a.chars := by
  rw [chars_eq, List.mem_append, not_or]
  constructor
  · intro h
    have hname := isName_columnName a
    simp only [Column.isName, Bool.and_eq_true, List.all_eq_true] at hname
    exact absurd (hname.2 ':' h) (by decide)
  · intro h
    obtain ⟨d, hd, heq⟩ := Digits.areDigits_ofNat a.row.natAbs ':' h
    revert d
    decide

end Address

namespace Bounds

variable {s t left right : String} {b : Bounds} {a : Address}

/-! ## The sides of a range -/

/-- The text has one colon, between these two sides. -/
structure IsRange (s left right : String) : Prop where
  parts : s = left ++ ":" ++ right
  colon : s.toList.count ':' = 1

theorem isRange_of_notMem (hleft : ':' ∉ left.toList) (hright : ':' ∉ right.toList) :
    IsRange (left ++ ":" ++ right) left right where
  parts := rfl
  colon := by
    have hparts : (left ++ ":" ++ right).toList = left.toList ++ ':' :: right.toList := by simp
    rw [hparts, List.count_append, List.count_cons_self, List.count_eq_zero.2 hleft,
      List.count_eq_zero.2 hright]

theorem exists_isRange_iff : (∃ left right, IsRange s left right) ↔ s.toList.count ':' = 1 := by
  constructor
  · rintro ⟨left, right, h⟩
    exact h.colon
  · intro h
    obtain ⟨l, r, hparts⟩ := List.append_of_mem (List.count_pos_iff.1 (h ▸ Nat.one_pos))
    refine ⟨String.ofList l, String.ofList r, ?_, h⟩
    rw [← String.toList_inj, hparts]
    simp

namespace IsRange

theorem toList_eq (h : IsRange s left right) : s.toList = left.toList ++ ':' :: right.toList := by
  rw [h.parts]
  simp

theorem notMem (h : IsRange s left right) : ':' ∉ left.toList ∧ ':' ∉ right.toList := by
  have hcolon := h.colon
  rw [h.toList_eq, List.count_append, List.count_cons_self] at hcolon
  rw [← List.count_eq_zero, ← List.count_eq_zero]
  omega

theorem hasShortRuns (h : IsRange s left right) (hruns : Digits.HasShortRuns s) :
    Digits.HasShortRuns left ∧ Digits.HasShortRuns right := by
  unfold Digits.HasShortRuns at hruns
  rw [h.toList_eq] at hruns
  constructor
  · intro ds hds
    exact hruns ds (hds.trans (List.prefix_append _ _).isInfix)
  · intro ds hds
    apply hruns ds
    exact hds.trans ((List.suffix_cons _ _).isInfix.trans (List.suffix_append _ _).isInfix)

/-- The sides are read from left to right. -/
theorem parse_eq (h : IsRange s left right) : parse s = (do
    let start ← side s left.toList
    let stop ← side s right.toList
    pure ⟨start, stop⟩) := by
  unfold parse
  rw [h.toList_eq, Text.pieces_append_cons h.notMem.1, Text.pieces_eq_singleton h.notMem.2]

end IsRange

theorem parse_of_not_isRange (h : s.toList.count ':' ≠ 1) : parse s = .error (.rangeFormat s) := by
  have hlength := Text.length_pieces ':' s.toList
  unfold parse
  split
  · rename_i l r hpieces
    rw [hpieces] at hlength
    exact absurd (Nat.succ.inj hlength).symm h
  · rfl

theorem side_eq_ok_iff : side s left.toList = .ok a ↔ Address.parse left = .ok a := by
  unfold side
  rw [String.ofList_toList]
  cases Address.parse left with
  | ok b => rfl
  | error e => cases e <;> exact iff_of_false (fun h => nomatch h) fun h => nomatch h

/-- A side that is refused makes the range malformed. -/
theorem side_of_error {e : Fault} (he : Address.IsRefusal e) (h : Address.parse left = .error e) :
    side s left.toList = .error (.rangeSide s e) := by
  unfold side
  rw [String.ofList_toList, h]
  cases he with
  | format given => rfl
  | rowZero => rfl

/-! ## Reading ranges -/

/-- The first side that is no reference, and why it is none. -/
inductive IsRefused (left right : String) : Fault → Prop where
  | left {e : Fault} (h : Address.parse left = .error e) : IsRefused left right e
  | right {a : Address} {e : Fault} (hleft : Address.parse left = .ok a)
      (h : Address.parse right = .error e) : IsRefused left right e

theorem IsRange.parse_eq_ok_iff (h : IsRange s left right) : parse s = .ok b ↔
    Address.parse left = .ok b.start ∧ Address.parse right = .ok b.stop := by
  rw [h.parse_eq]
  simp only [bind_eq_ok_iff, side_eq_ok_iff]
  constructor
  · rintro ⟨start, hstart, stop, hstop, hb⟩
    cases hb
    exact ⟨hstart, hstop⟩
  · rintro ⟨hstart, hstop⟩
    exact ⟨b.start, hstart, b.stop, hstop, rfl⟩

theorem parse_eq_ok_iff : parse s = .ok b ↔ ∃ left right, IsRange s left right ∧
    Address.parse left = .ok b.start ∧ Address.parse right = .ok b.stop := by
  constructor
  · intro h
    by_cases hcolon : s.toList.count ':' = 1
    · obtain ⟨left, right, hs⟩ := exists_isRange_iff.2 hcolon
      exact ⟨left, right, hs, hs.parse_eq_ok_iff.1 h⟩
    · rw [parse_of_not_isRange hcolon] at h
      cases h
  · rintro ⟨left, right, hs, hsides⟩
    exact hs.parse_eq_ok_iff.2 hsides

/-- The side that is refused first says why the range is malformed. -/
theorem IsRange.parse_of_isRefused {e : Fault} (hs : IsRange s left right)
    (hruns : Digits.HasShortRuns s) (h : IsRefused left right e) :
    parse s = .error (.rangeSide s e) := by
  obtain ⟨hleft, hright⟩ := hs.hasShortRuns hruns
  rw [hs.parse_eq]
  cases h with
  | left h => exact bind_eq_error_iff.2 (.inl (side_of_error (Address.isRefusal_of_parse hleft h) h))
  | right hstart h =>
    refine bind_eq_error_iff.2 (.inr ⟨_, side_eq_ok_iff.2 hstart, bind_eq_error_iff.2 (.inl ?_)⟩)
    exact side_of_error (Address.isRefusal_of_parse hright h) h

theorem isRefused_or_exists (left right : String) : (∃ e, IsRefused left right e) ∨
    ∃ b : Bounds, Address.parse left = .ok b.start ∧ Address.parse right = .ok b.stop := by
  cases hleft : Address.parse left with
  | error e => exact .inl ⟨e, .left hleft⟩
  | ok start =>
    cases hright : Address.parse right with
    | error e => exact .inl ⟨e, .right hleft hright⟩
    | ok stop => exact .inr ⟨⟨start, stop⟩, rfl, rfl⟩

/-- A text is a malformed range for one of two reasons: it has not exactly one colon, or one of
    its sides is no reference. -/
theorem parse_eq_error_iff {e : Fault} (hruns : Digits.HasShortRuns s) : parse s = .error e ↔
    (s.toList.count ':' ≠ 1 ∧ e = .rangeFormat s) ∨
      ∃ left right cause, IsRange s left right ∧ IsRefused left right cause ∧
        e = .rangeSide s cause := by
  constructor
  · intro h
    by_cases hcolon : s.toList.count ':' = 1
    · obtain ⟨left, right, hs⟩ := exists_isRange_iff.2 hcolon
      rcases isRefused_or_exists left right with ⟨cause, hcause⟩ | ⟨b, hb⟩
      · rw [hs.parse_of_isRefused hruns hcause] at h
        cases h
        exact .inr ⟨left, right, cause, hs, hcause, rfl⟩
      · rw [hs.parse_eq_ok_iff.2 hb] at h
        cases h
    · rw [parse_of_not_isRange hcolon] at h
      cases h
      exact .inl ⟨hcolon, rfl⟩
  · rintro (⟨hcolon, rfl⟩ | ⟨left, right, cause, hs, hcause, rfl⟩)
    · exact parse_of_not_isRange hcolon
    · exact hs.parse_of_isRefused hruns hcause

/-- A written range is read back as it was. -/
theorem parse_of_text (h : b.text = .ok t) : parse t = .ok b := by
  unfold text at h
  simp only [bind_eq_ok_iff] at h
  obtain ⟨left, hleft, right, hright, ht⟩ := h
  cases ht
  have hnone {a : Address} {side : String} (hside : a.text = .ok side) : ':' ∉ side.toList := by
    rw [(Address.text_eq_ok_iff.1 hside).2]
    exact a.colon_notMem_chars
  apply (isRange_of_notMem (hnone hleft) (hnone hright)).parse_eq_ok_iff.2
  exact ⟨Address.parse_of_text hleft, Address.parse_of_text hright⟩

/-- The row numbers of both cells are not too long to be written. -/
def IsWritable (b : Bounds) : Prop :=
  Digits.count b.start.row.natAbs ≤ Digits.limit ∧ Digits.count b.stop.row.natAbs ≤ Digits.limit

theorem text_of_isWritable (h : b.IsWritable) : b.text = .ok (String.ofList b.chars) := by
  have hside {a : Address} (ha : Digits.count a.row.natAbs ≤ Digits.limit) :
      a.text = .ok (String.ofList a.chars) :=
    Address.text_eq_ok_iff.2 ⟨ha, String.toList_ofList⟩
  unfold text
  rw [hside h.1, hside h.2]
  refine congrArg Except.ok (String.toList_inj.1 ?_)
  simp [chars]

/-- A range that cannot be written fails at the first of its cells that cannot. -/
theorem text_eq_error_iff {e : Fault} :
    b.text = .error e ↔ ¬b.IsWritable ∧ e = .unreadableNumeral := by
  by_cases h : b.IsWritable
  · rw [text_of_isWritable h]
    exact iff_of_false nofun fun he => he.1 h
  · have herror : b.text = .error .unreadableNumeral := by
      unfold text
      rw [bind_eq_error_iff, Address.text_eq_error_iff]
      by_cases hstart : Digits.count b.start.row.natAbs ≤ Digits.limit
      · have hstop : Digits.limit < Digits.count b.stop.row.natAbs :=
          Nat.not_le.1 fun hstop => h ⟨hstart, hstop⟩
        refine .inr ⟨_, Address.text_eq_ok_iff.2 ⟨hstart, String.toList_ofList⟩, ?_⟩
        exact bind_eq_error_iff.2 (.inl (Address.text_eq_error_iff.2 ⟨hstop, rfl⟩))
      · exact .inl ⟨Nat.not_le.1 hstart, rfl⟩
    rw [herror, Except.error.injEq]
    simp [h, eq_comm]

theorem isWritable_of_parse (h : parse s = .ok b) : b.IsWritable := by
  obtain ⟨left, right, -, hleft, hright⟩ := parse_eq_ok_iff.1 h
  exact ⟨Address.count_row_le_of_parse hleft, Address.count_row_le_of_parse hright⟩

/-! ## Rows and columns -/

/-- The rows and columns that bounds contain, counted and put in order. -/
structure Spans (b : Bounds) : Prop where
  /-- All rows below the first one, down to the last one. -/
  rows : {row | b.containsRow row = true}.encard = (max 0 (b.stop.row - b.start.row)).toNat
  /-- In each row, the columns have the positions from zero on. -/
  columns : ∀ row, 1 ≤ row →
    Set.BijOn b.columnPosition {a | a.row = row ∧ b.containsColumn a.column = true}
      {p | 0 ≤ p ∧ p < b.columnCount}
  empty : b.columnCount ≤ 0 → ∀ column, b.containsColumn column = false

theorem encard_containsRow (b : Bounds) :
    {row | b.containsRow row = true}.encard = (max 0 (b.stop.row - b.start.row)).toNat := by
  have hrows : {row | b.containsRow row = true} = Finset.Icc (b.start.row + 1) b.stop.row := by
    ext row
    rw [Set.mem_ofPred_eq, containsRow_iff, Finset.coe_Icc, Set.mem_Icc]
  rw [hrows, Set.encard_coe_eq_coe_finsetCard, Int.card_Icc]
  congr 1
  omega

theorem bijOn_columnPosition (b : Bounds) {row : Int} (hrow : 1 ≤ row) :
    Set.BijOn b.columnPosition {a | a.row = row ∧ b.containsColumn a.column = true}
      {p | 0 ≤ p ∧ p < b.columnCount} := by
  simp only [containsColumn_iff]
  refine ⟨?_, ?_, ?_⟩
  · rintro a ⟨-, hstart, hstop⟩
    unfold columnPosition columnCount
    exact ⟨by omega, by omega⟩
  · rintro a ⟨ha, -⟩ c ⟨hc, -⟩ heq
    unfold columnPosition at heq
    exact Address.ext_iff_fields.2 ⟨by omega, ha.trans hc.symm⟩
  · rintro p ⟨hlow, hhigh⟩
    unfold columnCount at hhigh
    have hpos := b.start.column_pos
    refine ⟨{ column := b.start.column + p, row }, ⟨rfl, ?_, ?_⟩, ?_⟩
    · exact Int.le_add_of_nonneg_right hlow
    · show b.start.column + p ≤ b.stop.column
      omega
    · exact add_sub_cancel_left b.start.column p

theorem spans (b : Bounds) : b.Spans where
  rows := encard_containsRow b
  columns row hrow := bijOn_columnPosition b hrow
  empty h column := by
    rw [Bool.eq_false_iff, Ne, containsColumn_iff]
    unfold columnCount at h
    omega

/-- Without too long runs of digits a text is read as bounds exactly if it has one colon and a
    reference on both sides, which are the first and the last cell as they stand. All other texts
    are malformed ranges, for the reason that the first side gives which is no reference. What is
    written for bounds is read back as these, and they contain the rows and columns between their
    cells. -/
theorem parse_range (s : String) (hruns : Digits.HasShortRuns s) :
    (∀ b, parse s = .ok b ↔ ∃ left right, IsRange s left right ∧
      Address.parse left = .ok b.start ∧ Address.parse right = .ok b.stop) ∧
    (∀ left right, IsRange s left right → ∀ a,
      (Address.parse left = .ok a ↔ Address.RefersTo left a) ∧
      (Address.parse right = .ok a ↔ Address.RefersTo right a)) ∧
    (∀ e, parse s = .error e ↔ (s.toList.count ':' ≠ 1 ∧ e = .rangeFormat s) ∨
      ∃ left right cause, IsRange s left right ∧ IsRefused left right cause ∧
        e = .rangeSide s cause) ∧
    (∀ left right cause, IsRange s left right → IsRefused left right cause →
      Address.IsRefusal cause) ∧
    (∀ b : Bounds, Digits.count b.start.row.natAbs ≤ Digits.limit →
      Digits.count b.stop.row.natAbs ≤ Digits.limit → ∃ t, b.text = .ok t ∧ parse t = .ok b) ∧
    ∀ b : Bounds, b.Spans := by
  refine ⟨fun b => parse_eq_ok_iff, ?_, fun e => parse_eq_error_iff hruns, ?_, ?_, spans⟩
  · intro left right hs a
    obtain ⟨hleft, hright⟩ := hs.hasShortRuns hruns
    exact ⟨Address.parse_eq_ok_iff_refersTo hleft, Address.parse_eq_ok_iff_refersTo hright⟩
  · intro left right cause hs hcause
    obtain ⟨hleft, hright⟩ := hs.hasShortRuns hruns
    cases hcause with
    | left h => exact Address.isRefusal_of_parse hleft h
    | right _ h => exact Address.isRefusal_of_parse hright h
  · intro b hstart hstop
    have ht := text_of_isWritable ⟨hstart, hstop⟩
    exact ⟨_, ht, parse_of_text ht⟩

theorem hasShortRuns_of_length (h : s.toList.length ≤ Digits.limit) : Digits.HasShortRuns s :=
  fun _ hds _ => hds.length_le.trans h

/-- The last cell lies in front of the first one, with blanks around it. Of the other text both
    sides are no references, and the first one says why. -/
theorem parse_range_inverted :
    let b : Bounds := ⟨{ column := 5, row := 8 }, { column := 4, row := 6 }⟩
    (Digits.HasShortRuns "E8: D06 " ∧ parse "E8: D06 " = .ok b) ∧
      (∃ t, b.text = .ok t ∧ parse t = .ok b) ∧
      ({row | b.containsRow row = true} = ∅ ∧ ∀ column, b.containsColumn column = false) ∧
      Digits.HasShortRuns "A0:1B" ∧
      parse "A0:1B" = .error (.rangeSide "A0:1B" (.rowIndex 0)) := by
  intro b
  have hruns : Digits.HasShortRuns "E8: D06 " := hasShortRuns_of_length (by decide)
  have hruns' : Digits.HasShortRuns "A0:1B" := hasShortRuns_of_length (by decide)
  have hs : IsRange "E8: D06 " "E8" " D06 " := ⟨by decide, by decide⟩
  have hs' : IsRange "A0:1B" "A0" "1B" := ⟨by decide, by decide⟩
  have hzero : Address.IsReference "A0" ['A'] ['0'] :=
    ⟨by decide, by decide, by decide, by decide⟩
  have hleft : Address.parse "A0" = .error (.rowIndex 0) :=
    Address.parse_eq_error_iff.2 (.inl ⟨_, _, hzero, by decide, rfl, rfl⟩)
  obtain ⟨hparse, -, -, -, htexts, hspans⟩ := parse_range "E8: D06 " hruns
  obtain ⟨-, -, herror, -⟩ := parse_range "A0:1B" hruns'
  refine ⟨⟨hruns, ?_⟩, htexts b (by decide) (by decide), ⟨?_, ?_⟩, hruns', ?_⟩
  · exact (hparse b).2 ⟨_, _, hs, rfl, rfl⟩
  · apply Set.encard_eq_zero.1
    exact (hspans b).rows
  · exact (hspans b).empty (by decide)
  · exact (herror _).2 (.inr ⟨_, _, _, hs', .left hleft, rfl⟩)

end Bounds

end Worksheet
