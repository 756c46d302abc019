-- SUMMARY: Cutting a text at a separator.

/-!
# Pieces of a Text

A text with `n` separators has `n + 1` pieces, which may be empty.
-/

namespace Worksheet.Text

/-- The pieces of a text between separators. -/
def pieces (sep : Char) : List Char → List (List Char)
  | [] => [[]]
  | c :: rest =>
    if c = sep then [] :: pieces sep rest
    else match pieces sep rest with
      | [] => [[c]]
      | p :: ps => (c :: p) :: ps

theorem pieces_ne_nil (sep : Char) (s : List Char) : pieces sep s ≠ [] := by
  induction s with
  | nil => simp [pieces]
  | cons c s ih =>
    simp only [pieces]
    split
    · simp
    · split <;> simp

@[simp] theorem length_pieces (sep : Char) (s : List Char) :
    (pieces sep s).length = s.count sep + 1 := by
  induction s with
  | nil => rfl
  | cons c s ih =>
    simp only [pieces]
    split
    · rename_i h; simp [h, ih]
    · rename_i h
      have hne := pieces_ne_nil sep s
      cases hp : pieces sep s with
      | nil => exact absurd hp hne
      | cons p ps =>
        simp [hp] at ih
        simp [h, ih]

theorem pieces_eq_singleton {sep : Char} {s : List Char} (h : sep ∉ s) :
    pieces sep s = [s] := by
  induction s with
  | nil => rfl
  | cons c s ih =>
    obtain ⟨hc, hs⟩ := not_or.1 (mt List.mem_cons.2 h)
    simp only [pieces, ih hs, if_neg (Ne.symm hc)]

theorem pieces_append_cons {sep : Char} {a : List Char} (h : sep ∉ a) (rest : List Char) :
    pieces sep (a ++ sep :: rest) = a :: pieces sep rest := by
  induction a with
  | nil => simp [pieces]
  | cons c a ih =>
    obtain ⟨hc, ha⟩ := not_or.1 (mt List.mem_cons.2 h)
    simp only [List.cons_append, pieces, ih ha, if_neg (Ne.symm hc)]

end Worksheet.Text
