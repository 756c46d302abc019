-- SUMMARY: Sets of code points given as ascending lists of closed ranges.

/-!
# Ranges of Code Points

A property of characters that no formula describes is a table: closed ranges
of code points, ascending and apart.
-/

namespace Worksheet.Text

/-- A closed range of code points, first and last. -/
abbrev Range := Nat × Nat

/-- Whether a code point lies in one of the ranges. -/
def inRanges (ranges : List Range) (n : Nat) : Bool :=
  ranges.any (fun r => r.1 ≤ n && n ≤ r.2)

/-- Ranges that ascend and do not touch. -/
def ascending : List Range → Bool
  | [] => true
  | [r] => r.1 ≤ r.2
  | r :: s :: rest => r.1 ≤ r.2 && r.2 + 1 < s.1 && ascending (s :: rest)

theorem inRanges_iff {ranges : List Range} {n : Nat} :
    inRanges ranges n = true ↔ ∃ r ∈ ranges, r.1 ≤ n ∧ n ≤ r.2 := by
  simp [inRanges]

end Worksheet.Text
