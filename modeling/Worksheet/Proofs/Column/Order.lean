-- SUMMARY: The order of columns is the order of their names, where shorter names come first.
import Mathlib.Data.Char
import Mathlib.Data.List.Shortlex
import Worksheet.Proofs.Column

/-!
# The Order of Columns

The names of one length stand for an interval of positions, from the name that has only the
letter A to the one that has only the letter Z, and the interval of the next length begins right
behind it: `index_bounds`. So a shorter name comes first. Of two names of one length the first
letter in which they differ decides, since it outweighs all letters behind it:
`index_lt_of_lex`.
-/

namespace Worksheet.Column

variable {s t : List Char} {c d : Char}

/-! ## Names of one length -/

/-- The position of the first name of a length. -/
def firstIndex : Nat → Int
  | 0 => 0
  | n + 1 => 26 * firstIndex n + 1

theorem firstIndex_nonneg (n : Nat) : 0 ≤ firstIndex n := by
  induction n with
  | zero => exact Int.le_refl 0
  | succ n ih =>
    rw [firstIndex]
    omega

theorem pow_eq_firstIndex (n : Nat) : (26 : Int) ^ n = 25 * firstIndex n + 1 := by
  induction n with
  | zero => rfl
  | succ n ih =>
    rw [Int.pow_succ, ih, firstIndex]
    omega

theorem firstIndex_mono {m n : Nat} (h : m ≤ n) : firstIndex m ≤ firstIndex n := by
  induction h with
  | refl => exact Int.le_refl _
  | @step n _ ih =>
    have hpos := firstIndex_nonneg n
    rw [firstIndex]
    omega

/-- The positions of the names of one length. -/
theorem index_bounds (h : s.all isLetter = true) :
    firstIndex s.length ≤ index s ∧ index s ≤ 26 * firstIndex s.length := by
  induction s using List.reverseRecOn with
  | nil => exact ⟨Int.le_refl 0, Int.le_refl 0⟩
  | append_singleton s c ih =>
    simp only [List.all_append, List.all_cons, List.all_nil, Bool.and_true, Bool.and_eq_true] at h
    obtain ⟨hlow, hhigh⟩ := ih h.1
    obtain ⟨hone, hlast⟩ := letterValue_bounds h.2
    rw [index_append_singleton, List.length_append, List.length_singleton, firstIndex]
    constructor <;> omega

theorem index_lt_of_length_lt (hs : s.all isLetter = true) (ht : t.all isLetter = true)
    (h : s.length < t.length) : index s < index t := by
  have hlast := (index_bounds hs).2
  have hfirst := (index_bounds ht).1
  have hnext : firstIndex (s.length + 1) ≤ firstIndex t.length := firstIndex_mono h
  rw [firstIndex] at hnext
  omega

/-! ## The first letter that differs -/

theorem foldl_index (s : List Char) (n : Int) :
    s.foldl (fun n c => 26 * n + letterValue c) n = n * 26 ^ s.length + index s := by
  induction s using List.reverseRecOn with
  | nil => simp
  | append_singleton s c ih =>
    rw [index_append_singleton, List.foldl_append, ih, List.length_append, List.length_singleton,
      Int.pow_succ, ← Int.mul_assoc]
    simp only [List.foldl_cons, List.foldl_nil]
    omega

/-- The first letter of a name counts most. -/
theorem index_cons (c : Char) (s : List Char) :
    index (c :: s) = letterValue c * 26 ^ s.length + index s := by
  have hfirst : 26 * (0 : Int) + letterValue c = letterValue c := Int.zero_add _
  rw [index, List.foldl_cons, hfirst, foldl_index]

theorem letterValue_lt_iff : letterValue c < letterValue d ↔ c < d := by
  rw [Char.lt_def, UInt32.lt_iff_toNat_lt]
  unfold letterValue Char.toNat
  omega

theorem index_lt_of_lex (hs : s.all isLetter = true) (ht : t.all isLetter = true)
    (hlength : s.length = t.length) (h : List.Lex (· < ·) s t) : index s < index t := by
  induction h with
  | nil => exact absurd hlength (Nat.succ_ne_zero _).symm
  | @cons c s t _ ih =>
    simp only [List.all_cons, Bool.and_eq_true] at hs ht
    have htail : s.length = t.length := Nat.succ.inj hlength
    have hrest := ih hs.2 ht.2 htail
    rw [index_cons, index_cons, htail]
    omega
  | @rel c s d t hlt =>
    simp only [List.all_cons, Bool.and_eq_true] at hs ht
    have htail : s.length = t.length := Nat.succ.inj hlength
    have hlast := (index_bounds hs.2).2
    have hfirst := (index_bounds ht.2).1
    have hstep : letterValue c + 1 ≤ letterValue d := letterValue_lt_iff.2 hlt
    have hweight : (letterValue c + 1) * 26 ^ t.length ≤ letterValue d * 26 ^ t.length :=
      Int.mul_le_mul_of_nonneg_right hstep (Int.pow_nonneg (by decide))
    rw [Int.add_mul, Int.one_mul, pow_eq_firstIndex] at hweight
    rw [htail] at hlast
    rw [index_cons, index_cons, htail, pow_eq_firstIndex]
    omega

/-! ## The order of names -/

theorem index_lt_of_shortlex (hs : s.all isLetter = true) (ht : t.all isLetter = true)
    (h : List.Shortlex (· < ·) s t) : index s < index t := by
  rcases List.shortlex_def.1 h with hlength | ⟨hlength, hlex⟩
  · exact index_lt_of_length_lt hs ht hlength
  · exact index_lt_of_lex hs ht hlength hlex

theorem index_lt_iff (hs : s.all isLetter = true) (ht : t.all isLetter = true) :
    index s < index t ↔ List.Shortlex (· < ·) s t := by
  refine ⟨fun h => ?_, index_lt_of_shortlex hs ht⟩
  rcases trichotomous_of (List.Shortlex (· < ·)) s t with hlt | rfl | hgt
  · exact hlt
  · exact absurd h (Int.lt_irrefl _)
  · exact absurd (index_lt_of_shortlex ht hs hgt) (Int.lt_asymm h)

theorem nameAt_of_pos {n : Int} (h : 1 ≤ n) :
    nameAt n = .ok (String.ofList (name n.toNat)) :=
  if_neg (Int.not_lt.2 h)

/-- Of two names the one with the smaller position is the shorter one, and if both have the same
    length it is the one that comes first in the alphabet. In the same way the order of positions
    is the order of their names. -/
theorem order_shortlex :
    (∀ a b : String, isName a.toList = true → isName b.toList = true →
      (index a.toList < index b.toList ↔ List.Shortlex (· < ·) a.toList b.toList)) ∧
      ∀ m n : Int, 1 ≤ m → 1 ≤ n → ∃ a b, nameAt m = .ok a ∧ nameAt n = .ok b ∧
        (m < n ↔ List.Shortlex (· < ·) a.toList b.toList) := by
  constructor
  · intro a b ha hb
    simp only [isName, Bool.and_eq_true] at ha hb
    exact index_lt_iff ha.2 hb.2
  · intro m n hm hn
    refine ⟨_, _, nameAt_of_pos hm, nameAt_of_pos hn, ?_⟩
    rw [String.toList_ofList, String.toList_ofList,
      ← index_lt_iff (all_isLetter_name _) (all_isLetter_name _), index_name, index_name,
      Int.toNat_of_nonneg (by omega), Int.toNat_of_nonneg (by omega)]

/-- Z comes before AA, although it is behind it in the alphabet, and AZ comes before BA. -/
theorem order_shortlex_z_aa :
    (index "Z".toList < index "AA".toList ∧ ¬"Z".toList < "AA".toList) ∧
      (index "AZ".toList < index "BA".toList ↔
        List.Shortlex (· < ·) "AZ".toList "BA".toList) ∧
      ∃ a b, nameAt 26 = .ok a ∧ nameAt 27 = .ok b ∧
        ((26 : Int) < 27 ↔ List.Shortlex (· < ·) a.toList b.toList) := by
  refine ⟨⟨?_, by decide⟩, ?_, order_shortlex.2 26 27 (by decide) (by decide)⟩
  · exact (order_shortlex.1 "Z" "AA" (by decide) (by decide)).2
      (.of_length_lt (by decide))
  · exact order_shortlex.1 "AZ" "BA" (by decide) (by decide)

end Worksheet.Column
