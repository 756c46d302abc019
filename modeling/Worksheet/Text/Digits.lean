-- SUMMARY: The decimal digits of natural numbers, in both directions.

/-!
# Decimal Digits of a Natural Number

`Digits.ofNat` writes a number without leading zeros, `Digits.padded` writes a
number in a fixed width, and `Digits.value` reads digits back. A number is cut
in halves of `2 ^ k` digits, so that long numbers are written in few divisions.
-/

namespace Worksheet.Digits

/-- The character of a digit below ten. -/
def char (d : Nat) : Char := Char.ofNat (48 + d)

/-- The value of an ASCII digit. -/
def charValue (c : Char) : Nat := c.toNat - 48

/-- The number that a run of ASCII digits denotes. -/
def value (ds : List Char) : Nat := ds.foldl (fun n c => 10 * n + charValue c) 0

/-- The last `2 ^ k` digits of a number, zeros included. -/
def block : Nat → Nat → List Char
  | 0, n => [char (n % 10)]
  | k + 1, n => block k (n / Nat.pow 10 (Nat.pow 2 k)) ++ block k (n % Nat.pow 10 (Nat.pow 2 k))

/-- An exponent `k` such that the number has at most `2 ^ k` digits: a number of
    `b` binary digits has at most `b / 3 + 1` decimal ones. -/
def level (n : Nat) : Nat := ((n.log2 + 1) / 3).log2 + 1

/-- The digits of a number, the last one kept even if it is zero. -/
def ofNat (n : Nat) : List Char :=
  match (block (level n) n).dropWhile (· = '0') with
  | [] => ['0']
  | ds => ds

/-- How many digits a number has; zero has one. -/
def count (n : Nat) : Nat := (ofNat n).length

/-- A number in at least `width` digits. -/
def padded (width n : Nat) : List Char :=
  let ds := ofNat n
  List.replicate (width - ds.length) '0' ++ ds

/-- The last `width` digits of a number; none if the width is zero. -/
def fraction (width n : Nat) : List Char :=
  if width = 0 then [] else padded width (n % Nat.pow 10 width)

/-- An integer with its sign. -/
def ofInt (n : Int) : List Char :=
  if n < 0 then '-' :: ofNat n.natAbs else ofNat n.natAbs

/-- An integer in at least `width` characters, zeros between sign and digits. -/
def ofIntPadded (width : Nat) (n : Int) : List Char :=
  if n < 0 then '-' :: padded (width - 1) n.natAbs else padded width n.natAbs

@[simp] theorem length_block (k n : Nat) : (block k n).length = Nat.pow 2 k := by
  induction k generalizing n with
  | zero => rfl
  | succ k ih => simp [block, ih, Nat.pow_succ]; omega

/-- The longest numeral that is turned into a number or written for one. -/
def limit : Nat := 4300

/-- Whether a number has more digits than a numeral may have. -/
def exceedsLimit (n : Nat) : Bool := Nat.pow 10 limit ≤ n

end Worksheet.Digits
