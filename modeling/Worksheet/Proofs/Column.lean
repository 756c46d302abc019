-- SUMMARY: The names of columns and their positions determine each other.
import Mathlib.Data.List.Induction
import Worksheet.Column

/-!
# Column Names and Positions

One division tells the last letter of a name from the letters before it, as there is a
letter for each remainder: `name_append`. So both directions go letter by letter, for names
of any length: `index_name` and `name_index`.
-/

namespace Worksheet.Column

/-! ## Letters -/

theorem isLetter_letter : ∀ d < 26, isLetter (letter d) = true := by decide

theorem letterValue_letter : ∀ d < 26, letterValue (letter d) = d + 1 := by decide

/-- Each letter is the letter of its value. -/
theorem exists_letter {c : Char} (h : isLetter c = true) : ∃ d < 26, c = letter d := by
  obtain ⟨hlow, hhigh⟩ := letterValue_bounds h
  simp only [letterValue] at hlow hhigh
  refine ⟨c.toNat - 65, by omega, ?_⟩
  rw [letter, show 65 + (c.toNat - 65) = c.toNat by omega, Char.ofNat_toNat]

/-! ## Names -/

/-- A name with one more letter. -/
theorem name_append (m : Nat) {d : Nat} (hd : d < 26) :
    name (26 * m + (d + 1)) = name m ++ [letter d] := by
  have hdiv : (26 * m + (d + 1) - 1) / 26 = m := by omega
  have hmod : (26 * m + (d + 1) - 1) % 26 = d := by omega
  rw [name, if_neg (by omega), hdiv, hmod]

/-- Positions come about like names, letter by letter. -/
@[elab_as_elim]
theorem position_induction {motive : Nat → Prop} (zero : motive 0)
    (append : ∀ m d, d < 26 → motive m → motive (26 * m + (d + 1))) (n : Nat) : motive n := by
  induction n using name.induct with
  | case1 => exact zero
  | case2 n hn ih =>
    have hd : (n - 1) % 26 < 26 := Nat.mod_lt _ (by decide)
    have hsplit : 26 * ((n - 1) / 26) + ((n - 1) % 26 + 1) = n := by omega
    rw [← hsplit]
    exact append _ _ hd ih

@[simp] theorem name_zero : name 0 = [] := by
  rw [name, if_pos rfl]

theorem all_isLetter_name (n : Nat) : (name n).all isLetter = true := by
  induction n using position_induction with
  | zero => simp
  | append m d hd ih => simp [name_append m hd, ih, isLetter_letter d hd]

theorem isName_name {n : Nat} (hn : 0 < n) : isName (name n) = true := by
  cases n using position_induction with
  | zero => exact absurd hn (Nat.lt_irrefl 0)
  | append m d hd _ =>
    have hm := all_isLetter_name m
    simp [isName, name_append m hd, hm, isLetter_letter d hd]

/-- A name stands for the position that it is the name of. -/
theorem index_name (n : Nat) : index (name n) = n := by
  induction n using position_induction with
  | zero => simp
  | append m d hd ih =>
    rw [name_append m hd, index_append_singleton, ih, letterValue_letter d hd]
    omega

/-- Letters are the name of the position that they stand for. -/
theorem exists_name_eq {s : List Char} (h : s.all isLetter = true) : ∃ n : Nat, s = name n := by
  induction s using List.reverseRecOn with
  | nil => exact ⟨0, name_zero.symm⟩
  | append_singleton s c ih =>
    simp only [List.all_append, List.all_cons, List.all_nil, Bool.and_true, Bool.and_eq_true] at h
    obtain ⟨m, hm⟩ := ih h.1
    obtain ⟨d, hd, rfl⟩ := exists_letter h.2
    exact ⟨26 * m + (d + 1), by rw [name_append m hd, hm]⟩

theorem name_index {s : List Char} (h : isName s = true) : name (index s).toNat = s := by
  have hletters : s.all isLetter = true := by
    simp only [isName, Bool.and_eq_true] at h
    exact h.2
  obtain ⟨n, rfl⟩ := exists_name_eq hletters
  rw [index_name, Int.toNat_natCast]

/-- Each position from one on has a name, which stands for it. Each name stands for a position
    from one on, which has this name. -/
theorem names_count_positions :
    (∀ n : Int, 1 ≤ n →
      ∃ s, nameAt n = .ok s ∧ isName s.toList = true ∧ index s.toList = n) ∧
      ∀ s : String, isName s.toList = true →
        1 ≤ index s.toList ∧ nameAt (index s.toList) = .ok s := by
  constructor
  · intro n hn
    refine ⟨String.ofList (name n.toNat), ?_, ?_, ?_⟩
    · rw [nameAt, if_neg (by omega)]
    · rw [String.toList_ofList]
      exact isName_name (by omega)
    · rw [String.toList_ofList, index_name]
      omega
  · intro s hs
    have hpos := one_le_index hs
    refine ⟨hpos, ?_⟩
    rw [nameAt, if_neg (by omega), name_index hs, String.ofList_toList]

/-- The last name of three letters and the first one of four. -/
theorem names_count_positions_zzz :
    (∃ s, nameAt 18278 = .ok s ∧ isName s.toList = true ∧ index s.toList = 18278) ∧
      index "ZZZ".toList = 18278 ∧ index "AAAA".toList = 18279 ∧ nameAt 18279 = .ok "AAAA" :=
  have h : index "AAAA".toList = 18279 := by decide
  ⟨names_count_positions.1 18278 (by decide), by decide, h,
    h ▸ (names_count_positions.2 "AAAA" (by decide)).2⟩

end Worksheet.Column
