-- SUMMARY: Column names and the positions they stand for.
import Worksheet.Fault

/-!
# Columns

A column name is a numeral in base 26 without a zero: the letters A to Z have
the values 1 to 26. So the names `A`, …, `Z`, `AA`, … count the positions from
one without gaps.
-/

namespace Worksheet.Column

/-- The value of a letter as a digit: 1 for A and 26 for Z. Other characters
    keep their distance from A. -/
def letterValue (c : Char) : Int := (c.toNat : Int) - 64

/-- The position that a name stands for. -/
def index (name : List Char) : Int := name.foldl (fun n c => 26 * n + letterValue c) 0

/-- The letter with the value `d + 1`. -/
def letter (d : Nat) : Char := Char.ofNat (65 + d)

/-- The name of a position; position 0 has the empty name. -/
def name (n : Nat) : List Char :=
  if n = 0 then [] else name ((n - 1) / 26) ++ [letter ((n - 1) % 26)]
termination_by n
decreasing_by omega

def isLetter (c : Char) : Bool := 'A' ≤ c && c ≤ 'Z'

/-- Whether a text is a column name: letters only, and at least one. -/
def isName (s : List Char) : Bool := !s.isEmpty && s.all isLetter

/-- The name of a position, which counts from one. -/
def nameAt (n : Int) : Except Fault String :=
  if n < 1 then .error (Fault.naming (.integer n) (.columnIndex n))
  else .ok (String.ofList (name n.toNat))

@[simp] theorem index_nil : index [] = 0 := rfl

theorem index_append_singleton (s : List Char) (c : Char) :
    index (s ++ [c]) = 26 * index s + letterValue c := by
  simp [index]

theorem letterValue_bounds {c : Char} (h : isLetter c = true) :
    1 ≤ letterValue c ∧ letterValue c ≤ 26 := by
  simp only [isLetter, Bool.and_eq_true, decide_eq_true_eq, Char.le_def,
    UInt32.le_iff_toNat_le] at h
  have : ('A' : Char).val.toNat = 65 := rfl
  have : ('Z' : Char).val.toNat = 90 := rfl
  simp only [letterValue, Char.toNat]
  omega

private theorem foldl_le {s : List Char} (h : s.all isLetter = true) {n : Int} (hn : 0 ≤ n) :
    n ≤ s.foldl (fun n c => 26 * n + letterValue c) n := by
  induction s generalizing n with
  | nil => simp
  | cons c s ih =>
    simp only [List.all_cons, Bool.and_eq_true] at h
    have := letterValue_bounds h.1
    have := ih h.2 (n := 26 * n + letterValue c) (by omega)
    simp only [List.foldl_cons]
    omega

/-- The positions of names count from one. -/
theorem one_le_index {s : List Char} (h : isName s = true) : 1 ≤ index s := by
  cases s with
  | nil => simp [isName] at h
  | cons c s =>
    simp only [isName, List.all_cons, Bool.and_eq_true] at h
    have := letterValue_bounds h.2.1
    have := foldl_le h.2.2 (n := 26 * 0 + letterValue c) (by omega)
    simp only [index, List.foldl_cons]
    omega

end Worksheet.Column
