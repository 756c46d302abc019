-- SUMMARY: What decimal arithmetic keeps of a number: all of it where the digits fit, and how many digits otherwise.
import Mathlib.Algebra.Order.Field.Power
import Mathlib.Algebra.Order.Field.Rat
import Mathlib.Data.Rat.Cast.Order
import Worksheet.Decimal.Context
import Worksheet.Proofs.Digits

/-!
# Fitting Numbers into a Context

Away from the bottom of the exponent range a context only drops digits behind its
precision: `Context.fit_eq`. Nothing is lost if these are zeros, and rounding to decimal
places changes nothing if there are no more of them.
-/

namespace Worksheet.Decimal

open Digits

variable {d : Decimal} {c : Context}

theorem magnitude_eq (d : Decimal) : d.magnitude = d.coefficient * (10 : Rat) ^ d.exponent := by
  unfold magnitude
  split
  · rename_i h
    obtain ⟨k, hk⟩ := Int.eq_ofNat_of_zero_le h
    rw [hk]
    simp
  · rename_i h
    obtain ⟨k, hk⟩ := Int.eq_ofNat_of_zero_le (by omega : 0 ≤ -d.exponent)
    have he : d.exponent = -(k : Int) := by omega
    rw [he, zpow_neg, zpow_natCast, Rat.mkRat_eq_div]
    simp [div_eq_mul_inv]

/-! ## Dropping digits -/

namespace Rounding

variable (r : Rounding)

theorem drop_mul_pow (q k : Nat) : r.drop (q * 10 ^ k) k = q := by
  unfold drop
  split
  · rename_i h
    rcases Nat.eq_zero_or_pos q with rfl | hq
    · rfl
    · rw [count_mul_pow hq] at h
      omega
  · simp [Nat.mul_div_cancel _ (ten_pow_pos k)]

theorem div_le_drop (n k : Nat) : n / 10 ^ k ≤ r.drop n k := by
  unfold drop
  split
  · rename_i h
    have hn : n < 10 ^ k := (count_le_iff (by omega)).1 h.le
    rw [Nat.div_eq_of_lt hn]
  · simp only [Nat.pow_eq]
    split
    · exact le_rfl
    · split
      · exact Nat.le_succ _
      · cases r with
        | halfUp => exact Nat.le_succ _
        | halfEven => exact Nat.le_add_right _ _

theorem drop_le (n k : Nat) : r.drop n k ≤ n / 10 ^ k + 1 := by
  unfold drop
  split
  · exact Nat.zero_le _
  · simp only [Nat.pow_eq]
    split
    · exact Nat.le_succ _
    · split
      · exact le_rfl
      · cases r with
        | halfUp => exact le_rfl
        | halfEven => exact Nat.add_le_add_left (Nat.le_of_lt_succ (Nat.mod_lt _ (by decide))) _

end Rounding

/-! ## Fitting -/

namespace Context

/-- The number without its last `k` digits. One digit too many after a carry goes too. -/
def rounded (c : Context) (d : Decimal) (k : Nat) : Decimal :=
  if c.rounding.drop d.coefficient k = 10 ^ c.precision then
    ⟨d.negative, 10 ^ (c.precision - 1), d.exponent + k + 1⟩
  else ⟨d.negative, c.rounding.drop d.coefficient k, d.exponent + k⟩

theorem drop_bounds (h0 : d.coefficient ≠ 0) (hp : 0 < c.precision) :
    0 < c.rounding.drop d.coefficient (d.digitCount - c.precision) ∧
      c.rounding.drop d.coefficient (d.digitCount - c.precision) ≤ 10 ^ c.precision := by
  have hpos : 0 < d.coefficient := Nat.pos_of_ne_zero h0
  have hlow := c.rounding.div_le_drop d.coefficient (d.digitCount - c.precision)
  have hhigh := c.rounding.drop_le d.coefficient (d.digitCount - c.precision)
  have hk : 10 ^ (d.digitCount - c.precision) ≤ d.coefficient := by
    refine le_trans (Nat.pow_le_pow_right (by decide) ?_) (pow_count_le hpos)
    unfold digitCount
    omega
  have hq : 0 < d.coefficient / 10 ^ (d.digitCount - c.precision) :=
    Nat.div_pos hk (ten_pow_pos _)
  have hlt : d.coefficient / 10 ^ (d.digitCount - c.precision) < 10 ^ c.precision := by
    rw [Nat.div_lt_iff_lt_mul (ten_pow_pos _), ← Nat.pow_add]
    apply lt_ten_pow_of_count_le
    unfold digitCount
    omega
  omega

theorem coefficient_rounded_ne_zero (h0 : d.coefficient ≠ 0) (hp : 0 < c.precision) :
    (c.rounded d (d.digitCount - c.precision)).coefficient ≠ 0 := by
  unfold rounded
  split
  · exact (ten_pow_pos _).ne'
  · exact (drop_bounds h0 hp).1.ne'

theorem negative_rounded (c : Context) (d : Decimal) (k : Nat) :
    (c.rounded d k).negative = d.negative := by
  unfold rounded
  split <;> rfl

/-- Fitting drops the digits behind the precision and those below the least exponent. -/
theorem fit_eq_rounded {j : Nat} (h0 : d.coefficient ≠ 0) (hm : d.adjusted ≤ maxExponent)
    (hj : max d.exponent (max c.least (d.adjusted - c.precision + 1)) = d.exponent + j) :
    c.fit d =
      if (c.rounded d j).coefficient ≠ 0 ∧ maxExponent < (c.rounded d j).adjusted then
        .error .overflow
      else .ok (c.rounded d j) := by
  have hsub : (d.exponent + (j : Int) - d.exponent).toNat = j := by omega
  unfold fit
  rw [if_neg h0, if_neg (not_lt.2 hm)]
  simp only [hj, hsub, Nat.pow_eq]
  rfl

/-- Above the bottom of the exponent range, fitting drops the digits behind the precision. -/
theorem fit_eq (h0 : d.coefficient ≠ 0) (hp : 0 < c.precision)
    (hl : c.least ≤ d.exponent + (d.digitCount - c.precision : Nat))
    (hm : d.adjusted ≤ maxExponent) :
    c.fit d =
      if maxExponent < (c.rounded d (d.digitCount - c.precision)).adjusted then .error .overflow
      else .ok (c.rounded d (d.digitCount - c.precision)) := by
  have he : max d.exponent (max c.least (d.adjusted - c.precision + 1))
      = d.exponent + (d.digitCount - c.precision : Nat) := by
    unfold adjusted
    omega
  have hne := coefficient_rounded_ne_zero h0 hp
  rw [fit_eq_rounded h0 hm he]
  simp only [hne, ne_eq, not_false_iff, true_and]

theorem rounded_of_le (h : d.digitCount ≤ c.precision) :
    c.rounded d (d.digitCount - c.precision) = d := by
  have hdrop : c.rounding.drop d.coefficient 0 = d.coefficient := by
    simpa using c.rounding.drop_mul_pow d.coefficient 0
  rw [rounded, Nat.sub_eq_zero_of_le h, hdrop, if_neg (lt_ten_pow_of_count_le h).ne]
  simp

/-- A number whose digits fit stays as it is. -/
theorem fit_eq_self (h0 : d.coefficient ≠ 0) (hp : d.digitCount ≤ c.precision)
    (hl : c.least ≤ d.exponent) (hm : d.adjusted ≤ maxExponent) : c.fit d = .ok d := by
  have hpos : 0 < c.precision := (count_pos d.coefficient).trans_le hp
  have hl' : c.least ≤ d.exponent + (d.digitCount - c.precision : Nat) := by omega
  rw [fit_eq h0 hpos hl' hm, rounded_of_le hp, if_neg (not_lt.2 hm)]

/-- A number that is beyond the range of exponents is an overflow. -/
theorem adjusted_le_of_fit {r : Decimal} (h0 : d.coefficient ≠ 0) (h : c.fit d = .ok r) :
    d.adjusted ≤ maxExponent := by
  by_contra hlt
  rw [fit, if_neg h0, if_pos (not_le.1 hlt)] at h
  cases h

theorem rounded_of_dvd {q k : Nat} (hd : d.coefficient = q * 10 ^ k)
    (hp : count q ≤ c.precision) : c.rounded d k = ⟨d.negative, q, d.exponent + k⟩ := by
  rw [rounded, hd, c.rounding.drop_mul_pow, if_neg (lt_ten_pow_of_count_le hp).ne]

/-- Digits behind the precision may be dropped if they are zeros. -/
theorem fit_of_dvd {q k : Nat} (hq : 0 < q) (hd : d.coefficient = q * 10 ^ k)
    (hp : count q = c.precision) (hl : c.least ≤ d.exponent) (hm : d.adjusted ≤ maxExponent) :
    c.fit d = .ok ⟨d.negative, q, d.exponent + k⟩ := by
  have hcount : d.digitCount = c.precision + k := by
    rw [digitCount, hd, count_mul_pow hq, hp]
  have h0 : d.coefficient ≠ 0 := by
    rw [hd]
    exact (mul_ten_pow_pos hq k).ne'
  have hpos : 0 < c.precision := hp ▸ count_pos q
  have hk : d.digitCount - c.precision = k := by omega
  rw [fit_eq h0 hpos (by omega) hm, hk, rounded_of_dvd hd hp.le, if_neg]
  simp only [adjusted, digitCount, hp] at hm hcount ⊢
  omega

theorem digitCount_rounded_le (h0 : d.coefficient ≠ 0) (hp : 0 < c.precision) :
    (c.rounded d (d.digitCount - c.precision)).digitCount ≤ c.precision := by
  rw [digitCount, count_le_iff hp]
  unfold rounded
  split
  · exact Nat.pow_lt_pow_right (by decide) (by omega)
  · rename_i h
    exact lt_of_le_of_ne (drop_bounds h0 hp).2 h

theorem exponent_rounded (c : Context) (d : Decimal) (k : Nat) :
    d.exponent + k ≤ (c.rounded d k).exponent := by
  unfold rounded
  split
  · exact Int.le_add_one le_rfl
  · exact le_rfl

theorem adjusted_rounded_le (h0 : d.coefficient ≠ 0) (hp : 0 < c.precision) :
    (c.rounded d (d.digitCount - c.precision)).adjusted ≤
      d.exponent + (d.digitCount - c.precision : Nat) + c.precision := by
  have hcount := digitCount_rounded_le h0 hp
  unfold adjusted
  unfold rounded at hcount ⊢
  split
  · rename_i h
    rw [if_pos h] at hcount
    simp only at hcount ⊢
    omega
  · rename_i h
    rw [if_neg h] at hcount
    simp only at hcount ⊢
    omega

theorem magnitude_rounded (hp : 0 < c.precision) (k : Nat) :
    (c.rounded d k).magnitude =
      c.rounding.drop d.coefficient k * (10 : Rat) ^ (d.exponent + k) := by
  rw [magnitude_eq]
  unfold rounded
  split
  · rename_i h
    obtain ⟨p, hp⟩ : ∃ p, c.precision = p + 1 := ⟨c.precision - 1, by omega⟩
    rw [h, hp, Nat.add_sub_cancel, zpow_add_one₀ (by norm_num)]
    push_cast
    ring
  · rfl

/-! ## Rounding to decimal places -/

/-- The digits of a number that has no more than some decimal places: either zeros are put
    behind its coefficient, or its coefficient has zeros in the end. -/
theorem coefficient_cases {N : Nat} {e : Int} (h : d.magnitude = N * (10 : Rat) ^ e) :
    (∃ j : Nat, d.exponent = e + j ∧ N = d.coefficient * 10 ^ j) ∨
      ∃ j : Nat, e = d.exponent + j ∧ d.coefficient = N * 10 ^ j := by
  have h10 : (10 : Rat) ≠ 0 := by norm_num
  rw [magnitude_eq] at h
  rcases le_total e d.exponent with he | he
  · obtain ⟨j, hj⟩ := Int.eq_ofNat_of_zero_le (Int.sub_nonneg.2 he)
    refine .inl ⟨j, by omega, ?_⟩
    have hd : d.exponent = (j : Int) + e := by omega
    rw [hd, zpow_add₀ h10, zpow_natCast, ← mul_assoc] at h
    exact_mod_cast (mul_right_cancel₀ (zpow_ne_zero e h10) h).symm
  · obtain ⟨j, hj⟩ := Int.eq_ofNat_of_zero_le (Int.sub_nonneg.2 he)
    refine .inr ⟨j, by omega, ?_⟩
    have hd : e = (j : Int) + d.exponent := by omega
    rw [hd, zpow_add₀ h10, zpow_natCast, ← mul_assoc] at h
    exact_mod_cast mul_right_cancel₀ (zpow_ne_zero d.exponent h10) h

/-- Rounding to decimal places leaves a number as it is that has no more of them. -/
theorem roundHalfUp_exact {N places : Nat} (h0 : 0 < N)
    (h : d.magnitude = N * (10 : Rat) ^ (-(places : Int))) (hlow : minExponent ≤ d.adjusted)
    (hm : d.adjusted ≤ maxExponent) :
    c.roundHalfUp d places = .ok ⟨d.negative, N, -places⟩ := by
  have hcases := coefficient_cases h
  have hcoef : 0 < d.coefficient := by
    rcases hcases with ⟨j, -, hN⟩ | ⟨j, -, hd⟩
    · exact Nat.pos_of_mul_pos_right (hN ▸ h0)
    · exact hd ▸ mul_ten_pow_pos h0 j
  have hcount : (count N : Int) = d.adjusted + places + 1 := by
    unfold adjusted digitCount
    rcases hcases with ⟨j, he, hN⟩ | ⟨j, he, hd⟩
    · rw [hN, count_mul_pow hcoef]
      omega
    · rw [hd, count_mul_pow h0]
      omega
  have hnum : (if -(places : Int) ≤ d.exponent then
        d.coefficient * Nat.pow 10 (d.exponent - -(places : Int)).toNat
      else Rounding.halfUp.drop d.coefficient (-(places : Int) - d.exponent).toNat) = N := by
    rcases hcases with ⟨j, he, hN⟩ | ⟨j, he, hd⟩
    · have hj : (d.exponent - -(places : Int)).toNat = j := by omega
      rw [if_pos (by omega), hj, hN, Nat.pow_eq]
    · split
      · obtain rfl : j = 0 := by omega
        have hj : (d.exponent - -(places : Int)).toNat = 0 := by omega
        rw [hj, hd]
        simp
      · have hj : (-(places : Int) - d.exponent).toNat = j := by omega
        rw [hj, hd, Rounding.drop_mul_pow]
  have hprec :
      d.adjusted + places + 2 ≤ (max c.precision (d.adjusted + places + 2).toNat : Nat) := by omega
  have hadj : maxExponent = 999999 ∧ minExponent = -999999 := ⟨rfl, rfl⟩
  have hfit : ¬(max c.precision (d.adjusted + places + 2).toNat < count N ∨
      maxExponent < -(places : Int) + count N - 1) := by omega
  have hroom : ¬((max c.precision (d.adjusted + places + 2).toNat : Nat) : Int) <
      d.digitCount + (d.exponent - -(places : Int)) := by
    have ha : d.adjusted = d.exponent + d.digitCount - 1 := rfl
    omega
  unfold roundHalfUp quantize least
  simp only [hnum]
  rw [if_neg (by omega), if_neg hcoef.ne', if_neg hroom]
  exact if_neg hfit

/-- A whole number keeps zeros in the places that do not fit. -/
theorem exists_whole_of_fit {e i : Nat} (he : d.exponent = e) (h0 : d.coefficient ≠ 0)
    (hp : 0 < c.precision) (hcount : d.digitCount = c.precision + i) (hl : c.least ≤ 0)
    (hm : e + c.precision + i ≤ maxExponent) :
    ∃ n, (c.fit d >>= fun r => c.roundHalfUp r 0) = .ok n ∧ 10 ^ (e + i) ∣ n.coefficient ∧
      count n.coefficient ≤ c.precision + i + e + 1 := by
  have hi : d.digitCount - c.precision = i := by omega
  obtain ⟨hdrop, hdrop'⟩ := drop_bounds h0 hp
  have hadj := adjusted_rounded_le h0 hp
  have hexp := exponent_rounded c d i
  have hvalue : (c.rounded d i).magnitude = _ := magnitude_rounded hp i
  rw [hi] at hdrop hdrop' hadj
  have hfit : c.fit d = .ok (c.rounded d i) := by
    have hd : d.adjusted ≤ maxExponent := by
      unfold adjusted
      omega
    rw [fit_eq h0 hp (by omega) hd, hi, if_neg (by omega)]
  have hwhole : (c.rounded d i).magnitude =
      (c.rounding.drop d.coefficient i * 10 ^ (e + i) : Nat) *
        (10 : Rat) ^ (-((0 : Nat) : Int)) := by
    rw [hvalue, he, ← Int.natCast_add, zpow_natCast]
    push_cast
    simp
  have hlow : minExponent ≤ (c.rounded d i).adjusted := by
    have hc := count_pos (c.rounded d i).coefficient
    have hmin : minExponent = -999999 := rfl
    unfold adjusted digitCount
    omega
  refine ⟨⟨(c.rounded d i).negative, c.rounding.drop d.coefficient i * 10 ^ (e + i), 0⟩, ?_,
    Dvd.intro_left _ rfl, ?_⟩
  · rw [hfit]
    exact roundHalfUp_exact (mul_ten_pow_pos hdrop _) hwhole hlow (by omega)
  · rw [count_mul_pow hdrop]
    have hc : count (c.rounding.drop d.coefficient i) ≤ c.precision + 1 := by
      rw [count_le_iff (Nat.succ_pos _), Nat.pow_succ]
      have hpow := ten_pow_pos c.precision
      omega
    omega

end Context

end Worksheet.Decimal
