-- SUMMARY: Decimal arithmetic is exact where the digits of a result fit and none of them is out of range.
import Mathlib.Algebra.Order.Floor.Semifield
import Worksheet.Proofs.Rounding

/-!
# Exact Arithmetic

A context holds a number if the number is not too large and has no digit below the least
exponent. An operation whose result has no more digits than the precision neither overflows nor
underflows on such a result, and gives it exactly: `Context.exists_fit_eq`. What is said of a
result is said of its value, since a fitted number may have another exponent.
-/

namespace Worksheet.Decimal

open Digits

variable {d a b : Decimal} {c : Context} {x y : Rat}

/-! ## Values -/

theorem magnitude_pos (h0 : d.coefficient ≠ 0) : 0 < d.magnitude :=
  (ten_zpow_pos _).trans_le (ten_zpow_adjusted_le h0)

theorem magnitude_eq_zero_iff : d.magnitude = 0 ↔ d.coefficient = 0 :=
  ⟨fun h => by_contra fun h0 => (magnitude_pos h0).ne' h, magnitude_of_coefficient_eq_zero⟩

theorem value_eq_zero_iff : d.value = 0 ↔ d.coefficient = 0 := by
  rw [← magnitude_eq_zero_iff, value]
  split
  · exact neg_eq_zero
  · exact Iff.rfl

theorem isNegative_iff (d : Decimal) : d.isNegative = true ↔ d.value < 0 := by
  have hnonneg := magnitude_nonneg d
  unfold isNegative isZero value
  by_cases h0 : d.coefficient = 0
  · simp [h0, magnitude_of_coefficient_eq_zero h0]
  · have hpos := magnitude_pos h0
    cases d.negative with
    | false => simpa using hnonneg
    | true => simpa [h0] using hpos

theorem abs_value (d : Decimal) : |d.value| = d.magnitude := by
  have hnonneg := magnitude_nonneg d
  unfold value
  split
  · rw [abs_neg, abs_of_nonneg hnonneg]
  · exact abs_of_nonneg hnonneg

theorem magnitude_eq_of_value_eq (h : a.value = b.value) : a.magnitude = b.magnitude := by
  rw [← abs_value, h, abs_value]

theorem value_lt_zero_iff (h0 : d.coefficient ≠ 0) : d.value < 0 ↔ d.negative = true := by
  rw [← isNegative_iff]
  simp [isNegative, isZero, h0]

theorem negative_eq_of_value_eq (h0 : a.coefficient ≠ 0) (h : a.value = b.value) :
    a.negative = b.negative := by
  have hb0 : b.coefficient ≠ 0 := by rwa [Ne, ← value_eq_zero_iff, ← h, value_eq_zero_iff]
  rw [Bool.eq_iff_iff, ← value_lt_zero_iff h0, ← value_lt_zero_iff hb0, h]

theorem adjusted_le_iff {k : Int} (h0 : d.coefficient ≠ 0) :
    d.adjusted ≤ k ↔ d.magnitude < 10 ^ (k + 1) := by
  constructor
  · intro h
    exact (magnitude_lt_ten_zpow d).trans_le (ten_zpow_le (by omega))
  · intro h
    have hlt := (ten_zpow_adjusted_le h0).trans_lt h
    have := (zpow_lt_zpow_iff_right₀ (by norm_num : (1 : Rat) < 10)).1 hlt
    omega

/-- The exponent of the leading digit depends on the value only. -/
theorem adjusted_eq_of_magnitude_eq (h0 : a.coefficient ≠ 0) (h : a.magnitude = b.magnitude) :
    a.adjusted = b.adjusted := by
  have hb0 : b.coefficient ≠ 0 := by
    rw [Ne, ← magnitude_eq_zero_iff, ← h, magnitude_eq_zero_iff]
    exact h0
  apply le_antisymm
  · rw [adjusted_le_iff h0, h, ← adjusted_le_iff hb0]
  · rw [adjusted_le_iff hb0, ← h, ← adjusted_le_iff h0]

theorem adjusted_shift (d : Decimal) (k : Int) : (d.shift k).adjusted = d.adjusted + k := by
  simp only [adjusted, shift, digitCount]
  omega

theorem wholePart_eq_floor (d : Decimal) : d.wholePart = ⌊d.magnitude⌋₊ := by
  unfold wholePart magnitude
  split
  · exact (Nat.floor_natCast _).symm
  · rw [Rat.mkRat_eq_div, Int.cast_natCast, Nat.floor_div_eq_div]

/-! A number with a fixed count of digits after the point. -/

theorem wholePart_of_places (negative : Bool) (n f : Nat) :
    (⟨negative, n, -f⟩ : Decimal).wholePart = n / 10 ^ f := by
  unfold wholePart
  split
  · rename_i he
    obtain rfl : f = 0 := by
      simp only at he
      omega
    simp
  · simp

theorem fractionDigits_of_places (negative : Bool) (n f : Nat) :
    (⟨negative, n, -f⟩ : Decimal).fractionDigits = Digits.fraction f n := by
  simp [fractionDigits]

/-! ## Held numbers -/

namespace Context

/-- A number is not too large for a context, and it has no digit below the least exponent. -/
structure Holds (c : Context) (x : Rat) : Prop where
  lt : x < 10 ^ (maxExponent + 1)
  isMultiple : ∃ n : Nat, x = n * 10 ^ c.least

theorem holds_of_exponent (hl : c.least ≤ d.exponent)
    (hm : d.coefficient ≠ 0 → d.adjusted ≤ maxExponent) : c.Holds d.magnitude where
  lt := by
    by_cases h0 : d.coefficient = 0
    · rw [magnitude_of_coefficient_eq_zero h0]
      exact ten_zpow_pos _
    · exact (adjusted_le_iff h0).1 (hm h0)
  isMultiple := by
    obtain ⟨k, hk⟩ := Int.eq_ofNat_of_zero_le (Int.sub_nonneg.2 hl)
    refine ⟨d.coefficient * 10 ^ k, ?_⟩
    have he : d.exponent = k + c.least := by omega
    rw [magnitude_eq, he, ten_zpow_add, zpow_natCast]
    push_cast
    ring

theorem holds_shift {k : Int} (hl : c.least ≤ d.exponent + k) (hm : d.adjusted + k ≤ maxExponent) :
    c.Holds (d.magnitude * 10 ^ k) := by
  rw [← magnitude_shift]
  exact holds_of_exponent hl fun _ => adjusted_shift d k ▸ hm

theorem Holds.sub_natCast {n : Nat} (h : c.Holds x) (hl : c.least ≤ 0) (hn : (n : Rat) ≤ x) :
    c.Holds (x - n) where
  lt := (sub_le_self x (Nat.cast_nonneg n)).trans_lt h.lt
  isMultiple := by
    obtain ⟨k, hk⟩ := h.isMultiple
    obtain ⟨j, hj⟩ : ∃ j : Nat, c.least = -j := ⟨(-c.least).toNat, by omega⟩
    have hpow : (10 : Rat) ^ j * 10 ^ c.least = 1 := by
      rw [hj, ← zpow_natCast, ← ten_zpow_add, add_neg_cancel, zpow_zero]
    have hunits : (n : Rat) = (n * 10 ^ j : Nat) * 10 ^ c.least := by
      push_cast
      rw [mul_assoc, hpow, mul_one]
    have hle : n * 10 ^ j ≤ k := by
      rw [hk, hunits] at hn
      exact_mod_cast le_of_mul_le_mul_right hn (ten_zpow_pos _)
    refine ⟨k - n * 10 ^ j, ?_⟩
    rw [Nat.cast_sub hle, sub_mul, ← hunits, ← hk]

theorem Holds.mul_natCast (h : c.Holds x) (n : Nat) (hlt : x * n < 10 ^ (maxExponent + 1)) :
    c.Holds (x * n) where
  lt := hlt
  isMultiple := by
    obtain ⟨k, hk⟩ := h.isMultiple
    refine ⟨k * n, ?_⟩
    rw [hk, Nat.cast_mul]
    ring

/-- Fitting is exact on a number that is held and does not have too many digits. -/
theorem exists_fit_eq (hp : d.digitCount ≤ c.precision) (h : c.Holds d.magnitude) :
    ∃ r, c.fit d = .ok r ∧ r.negative = d.negative ∧ r.magnitude = d.magnitude ∧
      r.digitCount ≤ d.digitCount := by
  by_cases h0 : d.coefficient = 0
  · refine ⟨_, if_pos h0, rfl, ?_, le_rfl⟩
    rw [magnitude_of_coefficient_eq_zero h0]
    exact magnitude_of_coefficient_eq_zero h0
  · have hadj := (adjusted_le_iff h0).2 h.lt
    by_cases hl : c.least ≤ d.exponent
    · exact ⟨d, fit_eq_self h0 hp hl hadj, rfl, rfl, le_rfl⟩
    · -- The digits below the least exponent are zeros, and only they are dropped.
      obtain ⟨n, hn⟩ := h.isMultiple
      obtain ⟨j, he, hcoef⟩ : ∃ j : Nat, c.least = d.exponent + j ∧ d.coefficient = n * 10 ^ j := by
        rcases coefficient_cases hn with ⟨j, he, -⟩ | hcase
        · omega
        · exact hcase
      have hn0 : 0 < n := Nat.pos_of_ne_zero fun hn => h0 (by rw [hcoef, hn, Nat.zero_mul])
      have hcount : d.digitCount = count n + j := by rw [digitCount, hcoef, count_mul_pow hn0]
      have hround := c.rounded_of_dvd hcoef (by omega)
      have hmax : max d.exponent (max c.least (d.adjusted - c.precision + 1)) = d.exponent + j := by
        unfold adjusted
        omega
      have hradj : (c.rounded d j).adjusted = d.adjusted := by
        rw [hround]
        simp only [adjusted, digitCount] at hcount ⊢
        omega
      refine ⟨c.rounded d j, ?_, c.negative_rounded d j, ?_, ?_⟩
      · rw [fit_eq_rounded h0 hadj hmax]
        exact if_neg fun hlarge => absurd hlarge.2 (not_lt.2 (hradj ▸ hadj))
      · rw [hround, magnitude_eq, hn, he]
      · rw [hround]
        simp only [digitCount] at hcount ⊢
        omega

/-! ## Fitted numbers -/

/-- However many digits are dropped below the least exponent, what is left fits. -/
theorem digitCount_rounded_le_of_le (hp : 0 < c.precision) {k : Nat}
    (hk : d.digitCount ≤ c.precision + k) : (c.rounded d k).digitCount ≤ c.precision := by
  have hdrop : c.rounding.drop d.coefficient k ≤ 10 ^ c.precision := by
    refine c.rounding.drop_le_of_le ?_
    rw [← Nat.pow_add]
    exact (lt_ten_pow_of_count_le hk).le
  rw [digitCount, count_le_iff hp]
  unfold rounded
  split
  · exact Nat.pow_lt_pow_right (by decide) (by omega)
  · rename_i h
    exact lt_of_le_of_ne hdrop h

/-- A number with no more digits than the precision, no digit below the least exponent and none
    above the largest one. -/
structure Fits (c : Context) (d : Decimal) : Prop where
  digitCount_le : d.digitCount ≤ c.precision
  least_le : c.least ≤ d.exponent
  exponent_le : d.exponent ≤ maxExponent
  adjusted_le : d.coefficient ≠ 0 → d.adjusted ≤ maxExponent

theorem fits_of_fit {r : Decimal} (hp : 0 < c.precision) (h : c.fit d = .ok r) : c.Fits r := by
  have hleast := least_le hp
  have hmin : minExponent ≤ maxExponent := by decide
  by_cases h0 : d.coefficient = 0
  · rw [fit, if_pos h0] at h
    obtain rfl := Except.ok.inj h
    refine ⟨?_, le_max_left _ _, max_le (by omega) (min_le_left _ _), fun hne => absurd h0 hne⟩
    rw [digitCount, h0]
    exact hp
  · have hadjusted := adjusted_le_of_fit h0 h
    have hcount : d.adjusted = d.exponent + d.digitCount - 1 := rfl
    have hpos : 0 < d.digitCount := count_pos d.coefficient
    obtain ⟨j, hj⟩ : ∃ j : Nat,
        max d.exponent (max c.least (d.adjusted - c.precision + 1)) = d.exponent + j :=
      ⟨(max d.exponent (max c.least (d.adjusted - c.precision + 1)) - d.exponent).toNat, by omega⟩
    have hdigits := digitCount_rounded_le_of_le (d := d) (k := j) hp (by omega)
    have hexponent := c.exponent_rounded d j
    rw [fit_eq_rounded h0 hadjusted hj] at h
    split at h
    · cases h
    · rename_i hrange
      obtain rfl : c.rounded d j = r := Except.ok.inj h
      have htop : (c.rounded d j).coefficient ≠ 0 → (c.rounded d j).adjusted ≤ maxExponent :=
        fun hne => not_lt.1 fun hlt => hrange ⟨hne, hlt⟩
      refine ⟨hdigits, by omega, ?_, htop⟩
      by_cases hne : (c.rounded d j).coefficient = 0
      · unfold rounded at hne ⊢
        split at hne
        · exact absurd hne (ten_pow_pos _).ne'
        · rename_i hcarry
          rw [if_neg hcarry]
          simp only
          omega
      · have hadjusted' := htop hne
        have hpos' := count_pos (c.rounded d j).coefficient
        unfold adjusted digitCount at hadjusted'
        omega

/-- What fits is left as it is. -/
theorem Fits.fit_eq (h : c.Fits d) : c.fit d = .ok d := by
  by_cases h0 : d.coefficient = 0
  · rw [fit, if_pos h0, min_eq_right h.exponent_le, max_eq_right h.least_le]
  · exact fit_eq_self h0 h.digitCount_le h.least_le (h.adjusted_le h0)

/-! ## Operations -/

theorem exists_abs_eq (hp : d.digitCount ≤ c.precision) (h : c.Holds d.magnitude) :
    ∃ r, c.abs d = .ok r ∧ r.negative = false ∧ r.magnitude = d.magnitude ∧
      r.digitCount ≤ d.digitCount :=
  exists_fit_eq hp h

theorem exists_scale_eq {k : Int} (hp : d.digitCount ≤ c.precision)
    (h : c.Holds (d.magnitude * 10 ^ k)) :
    ∃ r, c.scale d k = .ok r ∧ r.negative = d.negative ∧ r.magnitude = d.magnitude * 10 ^ k ∧
      r.digitCount ≤ d.digitCount := by
  rw [← magnitude_shift] at h ⊢
  exact exists_fit_eq hp h

/-- Rounding a scaled number. -/
theorem roundHalfUp_shift {m : Decimal} {k : Int} {places : Nat} (hp : 0 < c.precision)
    (hplaces : (places : Int) ≤ maxExponent) (h : m.magnitude = d.magnitude * 10 ^ k)
    (hm : d.adjusted + k < maxExponent) :
    c.roundHalfUp m places =
      .ok ⟨m.negative, ⌊d.magnitude * 10 ^ k * 10 ^ places + 1 / 2⌋₊, -places⟩ := by
  rw [← h]
  refine roundHalfUp_eq hp hplaces fun h0 => ?_
  rw [← magnitude_shift] at h
  rwa [adjusted_eq_of_magnitude_eq h0 h, adjusted_shift]

/-- The digits of a product are no more than those of its factors. -/
theorem exists_mul_ofNat_eq {k n : Nat} (hp : d.digitCount + n ≤ c.precision) (hk : k < 10 ^ n)
    (h : c.Holds (d.magnitude * k)) :
    ∃ r, c.mul d (.ofNat k) = .ok r ∧ r.negative = d.negative ∧ r.magnitude = d.magnitude * k := by
  have hproduct : (⟨d.negative != false, d.coefficient * k, d.exponent + 0⟩ : Decimal).magnitude =
      d.magnitude * k := by
    simp only [magnitude_eq, Nat.cast_mul, add_zero]
    ring
  have hdigits : count (d.coefficient * k) ≤ c.precision := by
    have hpos := count_pos d.coefficient
    rw [count_le_iff (by unfold digitCount at hp; omega)]
    calc d.coefficient * k < 10 ^ d.digitCount * 10 ^ n :=
          Nat.mul_lt_mul'' (lt_pow_count _) hk
      _ = 10 ^ (d.digitCount + n) := (Nat.pow_add ..).symm
      _ ≤ 10 ^ c.precision := Nat.pow_le_pow_right (by decide) hp
  obtain ⟨r, hr, hneg, hmag, -⟩ := exists_fit_eq (c := c)
    (d := ⟨d.negative != false, d.coefficient * k, d.exponent + 0⟩) hdigits (hproduct ▸ h)
  exact ⟨r, hr, hneg.trans (Bool.xor_false _), hmag.trans hproduct⟩

end Context

end Worksheet.Decimal
