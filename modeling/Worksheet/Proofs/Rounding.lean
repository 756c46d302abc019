-- SUMMARY: Decimal arithmetic gives a result within the range of exponents, and rounding half up is exact.
import Mathlib.Data.Nat.Cast.Order.Field
import Mathlib.Data.Rat.Floor
import Mathlib.Tactic.Linarith
import Mathlib.Tactic.Positivity
import Worksheet.Proofs.Decimal

/-!
# Results of Decimal Arithmetic

An operation has no result if the result is too large. A power of ten that bounds the exact
result bounds the rounded one too, so a bound within the range of exponents is all that is
needed: `Context.exists_fit`. Rounding to decimal places makes room for its digits. It always
gives the nearest multiple of the last place, half way the larger one: `Context.roundHalfUp_eq`.
-/

namespace Worksheet.Decimal

open Digits

variable {d : Decimal} {c : Context} {k : Int}

/-! ## Magnitudes and powers of ten -/

theorem ten_zpow_pos (k : Int) : (0 : Rat) < 10 ^ k := zpow_pos (by norm_num) k

theorem ten_zpow_le {a b : Int} (h : a ≤ b) : (10 : Rat) ^ a ≤ 10 ^ b :=
  zpow_le_zpow_right₀ (by norm_num) h

theorem ten_zpow_add (a b : Int) : (10 : Rat) ^ (a + b) = 10 ^ a * 10 ^ b :=
  zpow_add₀ (by norm_num) a b

theorem magnitude_nonneg (d : Decimal) : 0 ≤ d.magnitude := by
  rw [magnitude_eq]
  exact mul_nonneg (Nat.cast_nonneg _) (ten_zpow_pos _).le

theorem magnitude_of_coefficient_eq_zero (h : d.coefficient = 0) : d.magnitude = 0 := by
  rw [magnitude_eq, h, Nat.cast_zero, zero_mul]

theorem magnitude_shift (d : Decimal) (k : Int) :
    (d.shift k).magnitude = d.magnitude * 10 ^ k := by
  simp only [magnitude_eq, shift, ten_zpow_add, mul_assoc]

/-- The leading digit of a number other than zero stands at its adjusted exponent. -/
theorem ten_zpow_adjusted_le (h0 : d.coefficient ≠ 0) : (10 : Rat) ^ d.adjusted ≤ d.magnitude := by
  have hlow := pow_count_le (Nat.pos_of_ne_zero h0)
  have hcount := count_pos d.coefficient
  have he : d.adjusted = ((count d.coefficient - 1 : Nat) : Int) + d.exponent := by
    unfold adjusted digitCount
    omega
  rw [magnitude_eq, he, ten_zpow_add, zpow_natCast]
  exact mul_le_mul_of_nonneg_right (by exact_mod_cast hlow) (ten_zpow_pos _).le

theorem magnitude_lt_ten_zpow (d : Decimal) : d.magnitude < 10 ^ (d.adjusted + 1) := by
  have hhigh := lt_pow_count d.coefficient
  have he : d.adjusted + 1 = (count d.coefficient : Int) + d.exponent := by
    unfold adjusted digitCount
    omega
  rw [magnitude_eq, he, ten_zpow_add, zpow_natCast]
  exact mul_lt_mul_of_pos_right (by exact_mod_cast hhigh) (ten_zpow_pos _)

theorem adjusted_le (h0 : d.coefficient ≠ 0) (h : d.magnitude ≤ 10 ^ k) : d.adjusted ≤ k :=
  (zpow_le_zpow_iff_right₀ (by norm_num)).1 ((ten_zpow_adjusted_le h0).trans h)

theorem wholePart_le_magnitude (d : Decimal) : (d.wholePart : Rat) ≤ d.magnitude := by
  unfold wholePart magnitude
  split
  · exact le_rfl
  · rw [Rat.mkRat_eq_div, Int.cast_natCast]
    exact Nat.cast_div_le

/-! ## Fitting -/

/-- A multiple of the place that is rounded to stays a bound. -/
theorem Rounding.drop_le_of_le (r : Rounding) {n k b : Nat} (h : n ≤ b * 10 ^ k) :
    r.drop n k ≤ b := by
  rcases h.eq_or_lt with rfl | hlt
  · exact (r.drop_mul_pow b k).le
  · rw [Nat.mul_comm] at hlt
    exact (r.drop_le n k).trans (Nat.div_lt_of_lt_mul hlt)

namespace Context

theorem least_le (hp : 0 < c.precision) : c.least ≤ minExponent := by
  unfold least
  omega

theorem magnitude_rounded_le (hp : 0 < c.precision) {j : Nat} (hj : d.exponent + j ≤ k)
    (h : d.magnitude ≤ 10 ^ k) : (c.rounded d j).magnitude ≤ 10 ^ k := by
  obtain ⟨i, hi⟩ := Int.eq_ofNat_of_zero_le (Int.sub_nonneg.2 hj)
  have hk : k = (i : Int) + (d.exponent + j) := by omega
  have hcoef : d.coefficient ≤ 10 ^ i * 10 ^ j := by
    rw [magnitude_eq, hk, add_comm d.exponent, ← add_assoc, ten_zpow_add] at h
    have hle := le_of_mul_le_mul_right h (ten_zpow_pos d.exponent)
    rw [ten_zpow_add, zpow_natCast, zpow_natCast] at hle
    exact_mod_cast hle
  have hdrop : (c.rounding.drop d.coefficient j : Rat) ≤ 10 ^ i := by
    exact_mod_cast c.rounding.drop_le_of_le hcoef
  rw [magnitude_rounded hp, hk, ten_zpow_add i, zpow_natCast]
  exact mul_le_mul_of_nonneg_right hdrop (ten_zpow_pos _).le

/-- A number up to a power of ten within the range of exponents fits into a context, and stays
    below that power. -/
theorem exists_fit (hp : 0 < c.precision) (hl : c.least ≤ k) (hk : k ≤ maxExponent)
    (h : d.magnitude ≤ 10 ^ k) : ∃ r, c.fit d = .ok r ∧ r.magnitude ≤ 10 ^ k := by
  by_cases h0 : d.coefficient = 0
  · refine ⟨_, if_pos h0, le_of_eq_of_le (magnitude_of_coefficient_eq_zero ?_) (ten_zpow_pos k).le⟩
    exact h0
  · have hadj := adjusted_le h0 h
    have hcount := count_pos d.coefficient
    obtain ⟨j, hj⟩ : ∃ j : Nat,
        max d.exponent (max c.least (d.adjusted - c.precision + 1)) = d.exponent + j :=
      ⟨(max d.exponent (max c.least (d.adjusted - c.precision + 1)) - d.exponent).toNat, by omega⟩
    have hle : d.exponent + j ≤ k := by
      rw [← hj]
      unfold adjusted digitCount at hadj ⊢
      omega
    have hround := magnitude_rounded_le hp hle h
    have hrange : ¬((c.rounded d j).coefficient ≠ 0 ∧ maxExponent < (c.rounded d j).adjusted) :=
      fun ⟨hne, hlt⟩ => absurd ((adjusted_le hne hround).trans hk) (not_le.2 hlt)
    refine ⟨c.rounded d j, ?_, hround⟩
    rw [fit_eq_rounded h0 (hadj.trans hk) hj]
    exact if_neg hrange

theorem exists_abs (hp : 0 < c.precision) (hl : c.least ≤ k) (hk : k ≤ maxExponent)
    (h : d.magnitude ≤ 10 ^ k) : ∃ r, c.abs d = .ok r ∧ r.magnitude ≤ 10 ^ k :=
  exists_fit hp hl hk h

theorem exists_scale {e : Int} (hp : 0 < c.precision) (hl : c.least ≤ k + e)
    (hk : k + e ≤ maxExponent) (h : d.magnitude ≤ 10 ^ k) :
    ∃ r, c.scale d e = .ok r ∧ r.magnitude ≤ 10 ^ (k + e) := by
  refine exists_fit hp hl hk ?_
  rw [magnitude_shift, ten_zpow_add]
  exact mul_le_mul_of_nonneg_right h (ten_zpow_pos e).le

theorem exists_mul {a b : Decimal} {i j : Int} (hp : 0 < c.precision) (hl : c.least ≤ i + j)
    (hk : i + j ≤ maxExponent) (ha : a.magnitude ≤ 10 ^ i) (hb : b.magnitude ≤ 10 ^ j) :
    ∃ r, c.mul a b = .ok r ∧ r.magnitude ≤ 10 ^ (i + j) := by
  refine exists_fit hp hl hk ?_
  have hproduct : (⟨a.negative != b.negative, a.coefficient * b.coefficient,
      a.exponent + b.exponent⟩ : Decimal).magnitude = a.magnitude * b.magnitude := by
    simp only [magnitude_eq, Nat.cast_mul, ten_zpow_add]
    exact mul_mul_mul_comm _ _ _ _
  rw [hproduct, ten_zpow_add]
  exact mul_le_mul ha hb (magnitude_nonneg b) (ten_zpow_pos i).le

end Context

/-! ## Rounding half up -/

/-- The nearest multiple of a unit, and half way the larger one. -/
def halfUp (unit x : Rat) : Rat := ⌊x / unit + 1 / 2⌋₊ * unit

/-- Rounding to a fraction of one. -/
theorem halfUp_one_div (u x : Rat) : halfUp (1 / u) x = ⌊x * u + 1 / 2⌋₊ / u := by
  rw [halfUp, div_div_eq_mul_div, div_one, mul_one_div]

theorem floor_natCast_add_half (n : Nat) : ⌊(n : Rat) + 1 / 2⌋₊ = n :=
  (Nat.floor_eq_iff (by positivity)).2 ⟨by linarith, by linarith⟩

/-- Rounding half up keeps below an integer. -/
theorem floor_add_half_le {q : Rat} {n : Nat} (h : q ≤ n) : ⌊q + 1 / 2⌋₊ ≤ n :=
  (Nat.floor_mono (add_le_add_left h (1 / 2))).trans_eq (floor_natCast_add_half n)

/-- Dropping digits half up goes to the nearest integer, half way to the larger one. -/
theorem Rounding.halfUp_drop (n k : Nat) :
    Rounding.halfUp.drop n k = ⌊(n : Rat) / 10 ^ k + 1 / 2⌋₊ := by
  have hunit : (0 : Rat) < 10 ^ k := by positivity
  symm
  rw [Nat.floor_eq_iff (by positivity)]
  unfold drop
  split
  · rename_i hcount
    obtain ⟨j, rfl⟩ : ∃ j, k = j + 1 := ⟨k - 1, by omega⟩
    have hlt : (n : Rat) < 10 ^ j := by
      exact_mod_cast lt_ten_pow_of_count_le (Nat.le_of_lt_succ hcount)
    have hsmall : (n : Rat) / 10 ^ (j + 1) < 1 / 2 := by
      rw [div_lt_iff₀ hunit, pow_succ]
      linarith
    constructor
    · exact_mod_cast (by positivity : (0 : Rat) ≤ (n : Rat) / 10 ^ (j + 1) + 1 / 2)
    · rw [Nat.cast_zero]
      linarith
  · -- The part of a unit that is dropped.
    have hsplit : (n : Rat) / 10 ^ k = (n / 10 ^ k : Nat) + (n % 10 ^ k : Nat) / 10 ^ k := by
      have hn : (n : Rat) = 10 ^ k * (n / 10 ^ k : Nat) + (n % 10 ^ k : Nat) := by
        exact_mod_cast (Nat.div_add_mod n (10 ^ k)).symm
      rw [← mul_div_cancel_left₀ ((n / 10 ^ k : Nat) : Rat) hunit.ne', ← add_div, ← hn]
    have hrest : ((n % 10 ^ k : Nat) : Rat) / 10 ^ k < 1 := by
      rw [div_lt_one hunit]
      exact_mod_cast Nat.mod_lt n (ten_pow_pos k)
    have hrest0 : (0 : Rat) ≤ (n % 10 ^ k : Nat) / 10 ^ k := by positivity
    have hhalf : ((n % 10 ^ k : Nat) : Rat) / 10 ^ k < 1 / 2 ↔ 2 * (n % 10 ^ k) < 10 ^ k := by
      rw [div_lt_iff₀ hunit, ← Nat.cast_lt (α := Rat)]
      push_cast
      constructor <;> intro h <;> linarith
    simp only [Nat.pow_eq]
    rw [hsplit]
    by_cases hlow : 2 * (n % 10 ^ k) < 10 ^ k
    · have hlow' := hhalf.2 hlow
      rw [if_pos hlow]
      constructor <;> linarith
    · have hhigh := not_lt.1 (mt hhalf.1 hlow)
      rw [if_neg hlow, ite_self, Nat.cast_add, Nat.cast_one]
      constructor <;> linarith

namespace Context

variable {places : Nat}

/-- The digits that rounding to decimal places leaves. -/
theorem coefficient_roundHalfUp (d : Decimal) (places : Nat) :
    (if -(places : Int) ≤ d.exponent then
        d.coefficient * Nat.pow 10 (d.exponent - -(places : Int)).toNat
      else Rounding.halfUp.drop d.coefficient (-(places : Int) - d.exponent).toNat) =
      ⌊d.magnitude * 10 ^ places + 1 / 2⌋₊ := by
  have hscale : d.magnitude * 10 ^ places = d.coefficient * 10 ^ (d.exponent + places) := by
    rw [magnitude_eq, ten_zpow_add, zpow_natCast, mul_assoc]
  rw [hscale]
  split
  · obtain ⟨j, hj⟩ : ∃ j : Nat, d.exponent + places = j :=
      ⟨(d.exponent + places).toNat, by omega⟩
    have hsub : (d.exponent - -(places : Int)).toNat = j := by omega
    rw [hsub, hj, zpow_natCast, Nat.pow_eq]
    exact_mod_cast (floor_natCast_add_half (d.coefficient * 10 ^ j)).symm
  · obtain ⟨j, hj⟩ : ∃ j : Nat, d.exponent + places = -(j : Int) :=
      ⟨(-(d.exponent + places)).toNat, by omega⟩
    have hsub : (-(places : Int) - d.exponent).toNat = j := by omega
    rw [hsub, Rounding.halfUp_drop, hj, zpow_neg, zpow_natCast, div_eq_mul_inv]

theorem floor_of_coefficient_eq_zero (h0 : d.coefficient = 0) :
    ⌊d.magnitude * 10 ^ places + 1 / 2⌋₊ = 0 := by
  rw [magnitude_of_coefficient_eq_zero h0, zero_mul]
  exact_mod_cast floor_natCast_add_half 0

/-- A number that is rounded to decimal places has at most one digit more. -/
theorem count_floor_le (d : Decimal) (places : Nat) :
    count ⌊d.magnitude * 10 ^ places + 1 / 2⌋₊ ≤ (d.adjusted + places + 1).toNat + 1 := by
  have hle : d.magnitude * 10 ^ places ≤ (10 ^ (d.adjusted + places + 1).toNat : Nat) := by
    have hlt := mul_lt_mul_of_pos_right (magnitude_lt_ten_zpow d)
      (by positivity : (0 : Rat) < 10 ^ places)
    rw [← zpow_natCast 10 places, ← ten_zpow_add] at hlt
    rw [Nat.cast_pow, ← zpow_natCast 10 places, ← zpow_natCast (10 : Nat).cast]
    exact hlt.le.trans (ten_zpow_le (by omega))
  exact count_le_succ (floor_add_half_le hle)

/-- A number that is rounded to decimal places keeps the place of its leading digit. -/
theorem lt_count_floor (h0 : d.coefficient ≠ 0) (places : Nat) :
    d.adjusted + places < count ⌊d.magnitude * 10 ^ places + 1 / 2⌋₊ := by
  have hpos := count_pos ⌊d.magnitude * 10 ^ places + 1 / 2⌋₊
  rcases le_or_gt (d.adjusted + places) 0 with hle | hlt
  · omega
  · obtain ⟨k, hk⟩ := Int.eq_ofNat_of_zero_le hlt.le
    rw [hk] at hlt ⊢
    rw [Nat.cast_lt, lt_count_iff (by omega)]
    refine Nat.le_floor ?_
    have hle := mul_le_mul_of_nonneg_right (ten_zpow_adjusted_le h0)
      (by positivity : (0 : Rat) ≤ 10 ^ places)
    rw [← zpow_natCast 10 places, ← ten_zpow_add, hk, zpow_natCast] at hle
    push_cast
    exact hle.trans (by rw [zpow_natCast]; linarith)

/-- A number within the range of exponents is rounded half up to decimal places exactly if the
    precision has room for the digits that are left. -/
theorem quantize_eq (hp : 0 < c.precision) (hplaces : (places : Int) ≤ maxExponent)
    (hm : d.coefficient ≠ 0 → d.adjusted < maxExponent) :
    c.quantize d (-(places : Int)) =
      if count ⌊d.magnitude * 10 ^ places + 1 / 2⌋₊ ≤ c.precision then
        .ok ⟨d.negative, ⌊d.magnitude * 10 ^ places + 1 / 2⌋₊, -places⟩
      else .error .invalidOperation := by
  have hmax : maxExponent = 999999 := rfl
  have hmin : minExponent = -999999 := rfl
  have hleast : ¬(-(places : Int) < minExponent - c.precision + 1 ∨
      maxExponent < -(places : Int)) := by omega
  unfold quantize least
  simp only [coefficient_roundHalfUp]
  rw [if_neg hleast]
  by_cases h0 : d.coefficient = 0
  · have hroom : count 0 ≤ c.precision := hp
    rw [if_pos h0, floor_of_coefficient_eq_zero h0, if_pos hroom, ← h0]
  · have hhigh := count_floor_le d places
    have hlow := lt_count_floor h0 places
    have hadj := hm h0
    have ha : d.adjusted = d.exponent + d.digitCount - 1 := rfl
    rw [if_neg h0]
    by_cases hroom : count ⌊d.magnitude * 10 ^ places + 1 / 2⌋₊ ≤ c.precision
    · have hdigits : ¬(c.precision : Int) < d.digitCount + (d.exponent - -(places : Int)) := by
        omega
      rw [if_neg hdigits, if_pos hroom]
      refine if_neg ?_
      simp only [adjusted, digitCount] at hhigh hadj ⊢
      omega
    · rw [if_neg hroom]
      split
      · rfl
      · exact if_pos (.inl (not_le.1 hroom))

/-- Rounding to decimal places gives the nearest multiple of the last of them, and half way
    the larger one. -/
theorem roundHalfUp_eq (hp : 0 < c.precision) (hplaces : (places : Int) ≤ maxExponent)
    (hm : d.coefficient ≠ 0 → d.adjusted < maxExponent) :
    c.roundHalfUp d places =
      .ok ⟨d.negative, ⌊d.magnitude * 10 ^ places + 1 / 2⌋₊, -places⟩ := by
  have hcount := count_floor_le d places
  have hp' : 0 < max c.precision (d.adjusted + places + 2).toNat := by omega
  unfold roundHalfUp
  simp only
  rw [quantize_eq hp' hplaces hm]
  refine if_pos ?_
  simp only
  omega

/-- A number that can be rounded to decimal places is rounded to the nearest multiple. -/
theorem roundHalfUp_of_ok {r : Decimal} (h : c.roundHalfUp d places = .ok r) :
    r = ⟨d.negative, ⌊d.magnitude * 10 ^ places + 1 / 2⌋₊, -places⟩ := by
  unfold roundHalfUp quantize at h
  simp only [coefficient_roundHalfUp] at h
  split_ifs at h with hrange h0
  · rw [floor_of_coefficient_eq_zero h0, ← h0]
    exact (Except.ok.inj h).symm
  · exact (Except.ok.inj h).symm

/-- What rounding to decimal places gives has exactly that many. -/
theorem exponent_roundHalfUp {r : Decimal} (h : c.roundHalfUp d places = .ok r) :
    r.exponent = -places := by
  rw [roundHalfUp_of_ok h]

end Context

end Worksheet.Decimal
