-- SUMMARY: A code in brackets is dropped by a layout and kept by General.
import Worksheet.Proofs.Format.General
import Worksheet.Proofs.Format.Scan

/-!
# Codes in Brackets

Colors, conditions and locales stand in brackets, and no token comes of them. General does not
look at tokens: it keeps the text around its word as it is, brackets and all. So a code in front
of a section changes what is shown exactly if General is in the section: `text_bracketed_iff`.
-/

namespace Worksheet

namespace Format

variable {c s : List Char} {v : Decimal}

/-! ## The code in front of a section -/

/-- A section behind a code in brackets. -/
def bracketed (c s : List Char) : List Char := '[' :: (c ++ ']' :: s)

theorem ofSection_bracketed (h : ']' ∉ c) (s : List Char) :
    NumberToken.ofSection (bracketed c s) = NumberToken.ofSection s :=
  (NumberToken.scan_bracket _).trans (NumberToken.scan_true_append h s)

/-- General is found behind the code, as far behind it as without the code. -/
theorem find?_bracketed (h : Text.find? "general".toList (Text.lowerAll c) = none)
    (s : List Char) :
    Text.find? "general".toList (Text.lowerAll (bracketed c s)) =
      (Text.find? "general".toList (Text.lowerAll s)).map
        (· + ((Text.lowerAll c).length + 2)) := by
  have hlower : Text.lowerAll (bracketed c s) =
      [] ++ '[' :: (Text.lowerAll c ++ ']' :: Text.lowerAll s) := by
    rw [bracketed, Text.lowerAll_cons, Text.lowerAll_append, Text.lowerAll_cons]
    rfl
  rw [hlower, Text.find?_append_cons (by decide) (by decide) rfl,
    Text.find?_append_cons (by decide) (by decide) h, Option.map_map]
  rfl

theorem General.exists_text_of_adjusted (hv : v.adjusted.natAbs < 100000) :
    ∃ t, General.text v = .ok t := by
  obtain ⟨c, rest, ht, -⟩ := exists_text_cons hv
  exact ⟨c :: rest, ht⟩

/-- A code in brackets changes nothing exactly if General is not in the section. -/
theorem text_bracketed_iff (s : List Char) (hv : v.adjusted.natAbs < 100000) (hc : ']' ∉ c)
    (hgeneral : Text.find? "general".toList (Text.lowerAll c) = none) :
    Number.text v (bracketed c s) = Number.text v s ↔
      Text.find? "general".toList (Text.lowerAll s) = none := by
  have hfind := find?_bracketed hgeneral s
  have hlength := Text.length_le_length_lowerAll c
  obtain ⟨t, ht⟩ := General.exists_text_of_adjusted hv
  unfold Number.text inSection
  rw [hfind, ofSection_bracketed hc]
  cases Text.find? "general".toList (Text.lowerAll s) with
  | none => simp
  | some i =>
    -- The text with the code is longer.
    simp only [Option.map_some, ht, reduceCtorEq, iff_false]
    intro heq
    have hsame := congrArg List.length (Except.ok.inj heq)
    simp only [bracketed, List.length_append, List.length_take, List.length_drop,
      List.length_cons] at hsame
    omega

/-- A color in front of a section with places. -/
theorem text_bracketed_iff_red :
    (⟨false, 15, -1⟩ : Decimal).adjusted.natAbs < 100000 ∧ ']' ∉ "Red".toList ∧
      Text.find? "general".toList (Text.lowerAll "Red".toList) = none ∧
      Number.text ⟨false, 15, -1⟩ "[Red]0.00".toList = Number.text ⟨false, 15, -1⟩ "0.00".toList :=
  ⟨by decide, by decide, by decide,
    (text_bracketed_iff (c := "Red".toList) (v := ⟨false, 15, -1⟩) "0.00".toList (by decide)
      (by decide) (by decide)).2 (by decide)⟩

/-- General keeps the color in front of its word. -/
theorem text_red_general :
    Number.text ⟨false, 15, -1⟩ "[Red]General".toList = .ok "[Red]1.5".toList ∧
      Number.text ⟨false, 15, -1⟩ "General".toList = .ok "1.5".toList := by
  constructor
  · with_unfolding_all rfl
  · with_unfolding_all rfl

end Format

end Worksheet
