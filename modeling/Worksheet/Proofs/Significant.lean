-- SUMMARY: A context that rounds half up keeps the significant digits of a number, and without trailing zeros a number is determined by its value.
import Mathlib.Data.Int.Log
import Worksheet.Proofs.Exactness

/-!
# Significant Digits

A number is rounded to as many digits as a context has, counted from its leading one on:
`Context.exists_fit_leading`. The result depends on the value of the number only, and so do its
digits once trailing zeros are taken away: `IsReduced.ext`.
-/

namespace Worksheet.Decimal

open Digits

variable {d a b : Decimal} {c : Context}

/-! ## Rounding to significant digits -/

/-- A number above zero, rounded half up to some digits from its leading one on. -/
def leading (digits : Nat) (x : Rat) : Rat := halfUp (10 ^ (Int.log 10 x + 1 - digits)) x

/-- A number rounded to some digits from its leading one on, half way away from zero. -/
def significant (digits : Nat) (x : Rat) : Rat :=
  if x < 0 then -leading digits (-x) else leading digits x

theorem log_magnitude (h0 : d.coefficient ≠ 0) : Int.log 10 d.magnitude = d.adjusted := by
  have hpos := magnitude_pos h0
  have hlow := (Int.zpow_le_iff_le_log (b := 10) (x := d.adjusted) (by decide) hpos).1
    (by exact_mod_cast ten_zpow_adjusted_le h0)
  have hhigh := (Int.lt_zpow_iff_log_lt (b := 10) (x := d.adjusted + 1) (by decide) hpos).1
    (by exact_mod_cast magnitude_lt_ten_zpow d)
  omega

theorem leading_zero (digits : Nat) : leading digits 0 = 0 := by
  have hhalf : ⌊(1 / 2 : Rat)⌋₊ = 0 := Nat.floor_eq_zero.2 (by norm_num)
  rw [leading, halfUp, zero_div, zero_add, hhalf, Nat.cast_zero, zero_mul]

/-- A multiple of the last place is not rounded. -/
theorem halfUp_natCast_mul (n : Nat) {unit : Rat} (h : unit ≠ 0) :
    halfUp unit (n * unit) = n * unit := by
  rw [halfUp, mul_div_cancel_right₀ _ h, floor_natCast_add_half]

namespace Context

/-- Digits that a context has room for are not rounded. -/
theorem leading_of_le (h0 : d.coefficient ≠ 0) {digits : Nat} (h : d.digitCount ≤ digits) :
    leading digits d.magnitude = d.magnitude := by
  obtain ⟨j, hj⟩ : ∃ j : Nat, digits = d.digitCount + j := ⟨digits - d.digitCount, by omega⟩
  have hexponent : d.exponent = j + (d.adjusted + 1 - digits) := by
    unfold adjusted
    omega
  have hmultiple : d.magnitude =
      (d.coefficient * 10 ^ j : Nat) * (10 : Rat) ^ (d.adjusted + 1 - digits) := by
    conv_lhs => rw [magnitude_eq, hexponent, ten_zpow_add, zpow_natCast]
    push_cast
    ring
  rw [leading, log_magnitude h0]
  conv_lhs => rw [hmultiple, halfUp_natCast_mul _ (ten_zpow_pos _).ne']
  exact hmultiple.symm

/-- Digits behind the precision are rounded half up. -/
theorem magnitude_rounded_eq (hr : c.rounding = .halfUp) (hp : 0 < c.precision)
    (h0 : d.coefficient ≠ 0) (h : c.precision ≤ d.digitCount) :
    (c.rounded d (d.digitCount - c.precision)).magnitude = leading c.precision d.magnitude := by
  have hunit : d.adjusted + 1 - c.precision =
      d.exponent + (d.digitCount - c.precision : Nat) := by
    unfold adjusted
    omega
  have hratio : d.magnitude / 10 ^ (d.exponent + (d.digitCount - c.precision : Nat)) =
      d.coefficient / 10 ^ (d.digitCount - c.precision) := by
    rw [magnitude_eq, ten_zpow_add, zpow_natCast, mul_comm,
      mul_div_mul_left _ _ (ten_zpow_pos _).ne']
  rw [magnitude_rounded hp, hr, Rounding.halfUp_drop, leading, log_magnitude h0, hunit, halfUp,
    hratio]

/-- Rounding does not take the leading digit from its place. -/
theorem adjusted_le_rounded (h0 : d.coefficient ≠ 0) (hp : 0 < c.precision)
    (h : c.precision ≤ d.digitCount) :
    d.adjusted ≤ (c.rounded d (d.digitCount - c.precision)).adjusted := by
  obtain ⟨p, hp'⟩ : ∃ p, c.precision = p + 1 := ⟨c.precision - 1, by omega⟩
  have hlow : 10 ^ p ≤ c.rounding.drop d.coefficient (d.digitCount - c.precision) := by
    refine le_trans ?_ (c.rounding.div_le_drop _ _)
    rw [Nat.le_div_iff_mul_le (ten_pow_pos _), ← Nat.pow_add]
    refine le_trans (Nat.pow_le_pow_right (by decide) ?_)
      (pow_count_le (Nat.pos_of_ne_zero h0))
    unfold digitCount at h ⊢
    omega
  have hmagnitude : (10 : Rat) ^ d.adjusted ≤
      (c.rounded d (d.digitCount - c.precision)).magnitude := by
    have hadjusted : d.adjusted = p + (d.exponent + (d.digitCount - c.precision : Nat)) := by
      unfold adjusted
      omega
    rw [magnitude_rounded hp, hadjusted, ten_zpow_add, zpow_natCast]
    exact mul_le_mul_of_nonneg_right (by exact_mod_cast hlow) (ten_zpow_pos _).le
  by_contra hlt
  have hless := (adjusted_le_iff (k := d.adjusted - 1) (coefficient_rounded_ne_zero h0 hp)).1
    (by omega)
  rw [sub_add_cancel] at hless
  exact absurd hmagnitude (not_le.2 hless)

/-- A number within the range of exponents is rounded to as many digits as the context has. -/
theorem exists_fit_leading (hr : c.rounding = .halfUp) (hp : 0 < c.precision)
    (h0 : d.coefficient ≠ 0) (hl : minExponent ≤ d.adjusted) (hm : d.adjusted < maxExponent) :
    ∃ r, c.fit d = .ok r ∧ r.negative = d.negative ∧ r.coefficient ≠ 0 ∧
      r.magnitude = leading c.precision d.magnitude ∧ r.digitCount ≤ c.precision ∧
      d.adjusted ≤ r.adjusted ∧ r.adjusted ≤ d.adjusted + 1 := by
  have hexponent : d.adjusted = d.exponent + d.digitCount - 1 := rfl
  have hleast : c.least = minExponent - c.precision + 1 := rfl
  by_cases hdigits : d.digitCount ≤ c.precision
  · exact ⟨d, fit_eq_self h0 hdigits (by omega) hm.le, rfl, h0, (leading_of_le h0 hdigits).symm,
      hdigits, le_rfl, by omega⟩
  · have htop := adjusted_rounded_le h0 hp
    refine ⟨c.rounded d (d.digitCount - c.precision), ?_, c.negative_rounded _ _,
      coefficient_rounded_ne_zero h0 hp, magnitude_rounded_eq hr hp h0 (by omega),
      digitCount_rounded_le h0 hp, adjusted_le_rounded h0 hp (by omega), by omega⟩
    rw [fit_eq h0 hp (by omega) hm.le, if_neg (by omega)]

end Context

/-! ## Numbers without trailing zeros -/

/-- The coefficient does not end in a zero, so the number is not zero either. -/
def IsReduced (d : Decimal) : Prop := d.coefficient % 10 ≠ 0

theorem stripZeros_eq {n : Nat} (hn : n ≠ 0) (e : Int) :
    ∃ j : Nat, (stripZeros n e).2 = e + j ∧ n = (stripZeros n e).1 * 10 ^ j ∧
      (stripZeros n e).1 % 10 ≠ 0 := by
  fun_induction stripZeros n e with
  | case1 n e h ih =>
    obtain ⟨j, he, hdigits, hlast⟩ := ih (by omega)
    refine ⟨j + 1, ?_, ?_, hlast⟩
    · rw [he]
      push_cast
      ring
    · rw [pow_succ, ← mul_assoc, ← hdigits]
      omega
  | case2 n e h => exact ⟨0, by simp, by simp, fun hlast => h ⟨hn, hlast⟩⟩

theorem reduce_eq (h0 : d.coefficient ≠ 0) :
    d.reduce.IsReduced ∧ d.reduce.negative = d.negative ∧ d.reduce.magnitude = d.magnitude ∧
      d.reduce.digitCount ≤ d.digitCount := by
  obtain ⟨j, he, hdigits, hlast⟩ := stripZeros_eq h0 d.exponent
  have hzero : ¬d.isZero = true := by simpa [isZero] using h0
  have hreduce : d.reduce = ⟨d.negative, (stripZeros d.coefficient d.exponent).1, d.exponent + j⟩ := by
    rw [reduce, if_neg hzero, ← he]
  rw [hreduce]
  refine ⟨hlast, rfl, ?_, ?_⟩
  · conv_rhs => rw [magnitude_eq, hdigits]
    rw [magnitude_eq, add_comm, ten_zpow_add, zpow_natCast]
    push_cast
    ring
  · conv_rhs => rw [digitCount, hdigits]
    exact count_le_count (Nat.le_mul_of_pos_right _ (ten_pow_pos j))

namespace IsReduced

theorem coefficient_ne_zero (h : d.IsReduced) : d.coefficient ≠ 0 := by
  intro h0
  rw [IsReduced, h0] at h
  exact h rfl

/-- Sign and magnitude determine a number without trailing zeros. -/
theorem ext (ha : a.IsReduced) (hb : b.IsReduced) (hnegative : a.negative = b.negative)
    (h : a.magnitude = b.magnitude) : a = b := by
  obtain ⟨an, ac, ae⟩ := a
  obtain ⟨bn, bc, be⟩ := b
  obtain rfl : an = bn := hnegative
  have hlast {x y j : Nat} (hx : x % 10 ≠ 0) (hxy : x = y * 10 ^ j) : j = 0 := by
    cases j with
    | zero => rfl
    | succ j =>
      rw [pow_succ, ← mul_assoc] at hxy
      omega
  rcases Context.coefficient_cases (h.trans (magnitude_eq _)) with ⟨j, he, hcoef⟩ | ⟨j, he, hcoef⟩
  · obtain rfl := hlast hb hcoef
    simp_all
  · obtain rfl := hlast ha hcoef
    simp_all

end IsReduced

end Worksheet.Decimal
