-- SUMMARY: How the text of a number is read: as digits with a point, and as a whole part with a fraction.
import Mathlib.Data.List.TakeWhile
import Worksheet.Proofs.Approximation
import Worksheet.Proofs.Digits

/-!
# Reading Numbers

What a section shows of a number is judged by what a reader makes of it. Blanks only align and
commas only group, and where no digit is shown there is a zero: `natural?`, `decimal?`. A fraction
is the word in front of the slash over what follows it, and all else in front of it is the whole
part: `mixed?`.
-/

namespace Worksheet.Format.Reading

open Digits

variable {s A B ds front behind : List Char} {a b w n q : Nat}

/-- The number that digits show, with blanks among them. -/
def natural? (s : List Char) : Option Nat :=
  let ds := s.filter (· ≠ ' ')
  if ds.all Char.isDigit then some (value ds) else none

/-- How many digits a text shows. -/
def digitCount (s : List Char) : Nat := s.countP Char.isDigit

/-- What a text shows after its point. -/
def decimals (s : List Char) : List Char := (s.dropWhile (· ≠ '.')).drop 1

/-- The number that digits show, with blanks among them and commas before the point. -/
def decimal? (s : List Char) : Option Rat := do
  let n ← natural? ((s.takeWhile (· ≠ '.')).filter (· ≠ ','))
  let m ← natural? (decimals s)
  some (n + m / 10 ^ digitCount (decimals s))

/-- A whole part, which is zero if it is blank, and a fraction if there is one. -/
structure Mixed where
  whole : Nat
  fraction? : Option Ratio
deriving DecidableEq, Repr

/-- The number that a whole part and a fraction denote. -/
def Mixed.value (m : Mixed) : Rat := m.whole + (m.fraction?.map Ratio.value).getD 0

/-- The whole part and the fraction that a text shows. -/
def mixed? (s : List Char) : Option Mixed :=
  let front := (s.takeWhile (· ≠ '/')).reverse
  match s.dropWhile (· ≠ '/') with
  | [] => (natural? s).map fun w => ⟨w, none⟩
  | _ :: behind => do
    let w ← natural? (front.dropWhile (· ≠ ' ')).reverse
    let n ← natural? (front.takeWhile (· ≠ ' ')).reverse
    let q ← natural? behind
    some ⟨w, some ⟨n, q⟩⟩

example : decimal? "1,234.5 ".toList = some (2469 / 2) := by decide +kernel

example : mixed? "12  3/4 ".toList = some ⟨12, some ⟨3, 4⟩⟩ := by decide +kernel

/-! ## Digits and blanks -/

theorem notMem_of_areDigits {c : Char} (h : AreDigits ds) (hc : c.isDigit = false) : c ∉ ds := by
  intro hmem
  obtain ⟨d, hd, rfl⟩ := h c hmem
  rw [isDigit_char d hd] at hc
  cases hc

theorem filter_of_areDigits {c : Char} (h : AreDigits ds) (hc : c.isDigit = false) :
    ds.filter (· ≠ c) = ds := by
  rw [List.filter_eq_self]
  intro x hx
  exact decide_eq_true fun heq => notMem_of_areDigits h hc (heq ▸ hx)

theorem natural?_eq_some (hs : s.filter (· ≠ ' ') = ds) (h : AreDigits ds) :
    natural? s = some (value ds) := by
  unfold natural?
  rw [hs]
  exact if_pos (areDigits_iff.1 h)

theorem natural?_of_areDigits (h : AreDigits ds) : natural? ds = some (value ds) :=
  natural?_eq_some (filter_of_areDigits h (by decide)) h

theorem natural?_append_blanks (s : List Char) (i : Nat) :
    natural? (s ++ List.replicate i ' ') = natural? s := by
  simp [natural?, List.filter_append]

theorem digitCount_of_areDigits (h : AreDigits ds) : digitCount ds = ds.length :=
  List.countP_eq_length.2 (List.all_eq_true.1 (areDigits_iff.1 h))

theorem digitCount_filter {c : Char} (hc : c.isDigit = false) (s : List Char) :
    digitCount (s.filter (· ≠ c)) = digitCount s := by
  unfold digitCount
  rw [List.countP_filter]
  refine List.countP_congr fun x _ => ?_
  rw [Bool.and_eq_true, decide_eq_true_eq, and_iff_left_iff_imp]
  rintro hx rfl
  rw [hx] at hc
  cases hc

/-! ## Numbers with a point -/

theorem forall_ne_of_notMem {c : Char} (h : c ∉ s) : ∀ x ∈ s, decide (x ≠ c) = true :=
  fun _ hx => decide_eq_true fun heq => h (heq ▸ hx)

theorem decimals_of_notMem (hA : '.' ∉ A) : decimals A = [] := by
  have hdrop : A.dropWhile (· ≠ '.') = [] :=
    List.dropWhile_eq_nil_iff.2 (forall_ne_of_notMem hA)
  rw [decimals, hdrop, List.drop_nil]

theorem decimals_append (hA : '.' ∉ A) (B : List Char) : decimals (A ++ '.' :: B) = B := by
  rw [decimals, List.dropWhile_append_of_pos (forall_ne_of_notMem hA)]
  rfl

theorem decimal?_of_whole (hA : '.' ∉ A) (ha : natural? (A.filter (· ≠ ',')) = some a) :
    decimal? A = some (a : Rat) := by
  have htake : A.takeWhile (· ≠ '.') = A :=
    List.takeWhile_eq_self_iff.2 (forall_ne_of_notMem hA)
  have hnil : natural? [] = some 0 := rfl
  unfold decimal?
  rw [htake, ha, decimals_of_notMem hA, hnil]
  simp

theorem decimal?_of_point (hA : '.' ∉ A) (ha : natural? (A.filter (· ≠ ',')) = some a)
    (hb : natural? B = some b) :
    decimal? (A ++ '.' :: B) = some (a + b / 10 ^ digitCount B : Rat) := by
  have htake : ('.' :: B).takeWhile (· ≠ '.') = [] := rfl
  unfold decimal?
  rw [List.takeWhile_append_of_pos (forall_ne_of_notMem hA), htake, List.append_nil, ha,
    decimals_append hA, hb]
  rfl

/-! ## Whole parts and fractions -/

theorem mixed?_of_whole (hs : '/' ∉ s) (hw : natural? s = some w) : mixed? s = some ⟨w, none⟩ := by
  have hdrop : s.dropWhile (· ≠ '/') = [] :=
    List.dropWhile_eq_nil_iff.2 (forall_ne_of_notMem hs)
  unfold mixed?
  simp only [hdrop, hw]
  rfl

/-- The word in front of the slash is the numerator. -/
theorem mixed?_of_fraction (hslash : '/' ∉ front) (hblank : ∀ c ∈ front.getLast?, c = ' ')
    (hw : natural? front = some w) (hds : AreDigits ds) (hq : natural? behind = some q) :
    mixed? (front ++ ds ++ '/' :: behind) = some ⟨w, some ⟨value ds, q⟩⟩ := by
  have hnot : ∀ x ∈ front ++ ds, decide (x ≠ '/') = true :=
    forall_ne_of_notMem fun hmem =>
      (List.mem_append.1 hmem).elim hslash (notMem_of_areDigits hds (by decide))
  have htake : ('/' :: behind).takeWhile (· ≠ '/') = [] := rfl
  have hdrop : ('/' :: behind).dropWhile (· ≠ '/') = '/' :: behind := rfl
  have hword : ∀ x ∈ ds.reverse, decide (x ≠ ' ') = true :=
    forall_ne_of_notMem fun hmem =>
      notMem_of_areDigits hds (by decide) (List.mem_reverse.1 hmem)
  have hfront : front.reverse.takeWhile (· ≠ ' ') = [] ∧
      front.reverse.dropWhile (· ≠ ' ') = front.reverse := by
    rw [← List.head?_reverse] at hblank
    cases hreverse : front.reverse with
    | nil => exact ⟨rfl, rfl⟩
    | cons c rest =>
      obtain rfl : c = ' ' := hblank c (by rw [hreverse]; rfl)
      exact ⟨rfl, rfl⟩
  unfold mixed?
  rw [List.takeWhile_append_of_pos hnot, List.dropWhile_append_of_pos hnot, htake, hdrop,
    List.append_nil, List.reverse_append]
  simp only
  rw [List.takeWhile_append_of_pos hword, List.dropWhile_append_of_pos hword, hfront.1, hfront.2,
    List.append_nil, List.reverse_reverse, List.reverse_reverse, hw, natural?_of_areDigits hds, hq]
  rfl

end Worksheet.Format.Reading
