-- SUMMARY: The nearest fraction has a denominator within the limit and a numerator to match.
import Mathlib.Algebra.Order.Ring.Nat
import Mathlib.Algebra.Order.Ring.Rat
import Mathlib.Data.Nat.Cast.Order.Field
import Mathlib.Tactic.Ring
import Worksheet.Ratio

/-!
# Bounds of the Nearest Fraction

A convergent of a number is not above the next integer, but for the first one, which has no
denominator. Each step keeps this, so the numerator of the nearest fraction is bounded by its
denominator and the number: `nearest_bounds`.
-/

namespace Worksheet.Ratio

variable {limit b : Nat} {previous last : Ratio}

/-- Two convergents in a row of a number below `b`, with denominators up to `limit`. -/
structure Bounded (limit b : Nat) (previous last : Ratio) : Prop where
  last_pos : 0 < last.denominator
  last_le_limit : last.denominator ≤ limit
  previous_le_limit : previous.denominator ≤ limit
  last_le : last.numerator ≤ b * last.denominator
  previous_le : previous.numerator ≤ b * previous.denominator + 1
  /-- The first convergent may exceed the bound by one, and the next one makes up for it. -/
  sum_le : previous.numerator + last.numerator ≤ b * (previous.denominator + last.denominator)

namespace Bounded

theorem sum_step_le (h : Bounded limit b previous last) (k : Nat) :
    previous.numerator + (k + 1) * last.numerator ≤
      b * (previous.denominator + (k + 1) * last.denominator) := by
  have hsum := h.sum_le
  have hmul := Nat.mul_le_mul_left k h.last_le
  calc previous.numerator + (k + 1) * last.numerator
      = previous.numerator + last.numerator + k * last.numerator := by ring
    _ ≤ b * (previous.denominator + last.denominator) + k * (b * last.denominator) :=
      Nat.add_le_add hsum hmul
    _ = b * (previous.denominator + (k + 1) * last.denominator) := by ring

/-- The next convergent. -/
theorem step (h : Bounded limit b previous last) {k : Nat} (hk : 0 < k)
    (hle : (step previous last k).denominator ≤ limit) :
    Bounded limit b last (step previous last k) := by
  obtain ⟨k, rfl⟩ : ∃ i, k = i + 1 := ⟨k - 1, by omega⟩
  have hsum := h.sum_step_le k
  have hnext : last.numerator + (previous.numerator + (k + 1) * last.numerator) ≤
      b * (last.denominator + (previous.denominator + (k + 1) * last.denominator)) := by
    rw [Nat.mul_add]
    exact Nat.add_le_add h.last_le hsum
  have hpos : 0 < (k + 1) * last.denominator := Nat.mul_pos (Nat.succ_pos k) h.last_pos
  exact {
    last_pos := Nat.add_pos_right _ hpos
    last_le_limit := hle
    previous_le_limit := h.last_le_limit
    last_le := hsum
    previous_le := h.last_le.trans (Nat.le_succ _)
    sum_le := hnext }

theorem convergents (h : Bounded limit b previous last) {n d : Nat} (hd : d ≤ n) :
    Bounded limit b (convergents limit previous last n d).1
      (convergents limit previous last n d).2 := by
  induction d using Nat.strong_induction_on generalizing n previous last with
  | _ d ih =>
    rw [Ratio.convergents]
    split
    · exact h
    · rename_i h0
      have hquot : 0 < n / d := Nat.div_pos hd (Nat.pos_of_ne_zero h0)
      have hrest : n % d < d := Nat.mod_lt n (Nat.pos_of_ne_zero h0)
      simp only
      split
      · exact h
      · rename_i hlimit
        exact ih (n % d) hrest (h.step hquot (not_lt.1 hlimit)) hrest.le

/-- The last fraction before the next convergent has a denominator within the limit. -/
theorem between (h : Bounded limit b previous last) :
    let r := Ratio.step previous last ((limit - previous.denominator) / last.denominator)
    r.denominator ≤ limit ∧ r.numerator ≤ b * r.denominator + 1 := by
  have hdiv := Nat.div_mul_le_self (limit - previous.denominator) last.denominator
  have hmul := Nat.mul_le_mul_left ((limit - previous.denominator) / last.denominator) h.last_le
  have hlimit := h.previous_le_limit
  refine ⟨?_, ?_⟩
  · simp only [Ratio.step]
    omega
  · calc previous.numerator + (limit - previous.denominator) / last.denominator * last.numerator
        ≤ b * previous.denominator + 1 +
          (limit - previous.denominator) / last.denominator * (b * last.denominator) :=
        Nat.add_le_add h.previous_le hmul
      _ = b * (previous.denominator +
          (limit - previous.denominator) / last.denominator * last.denominator) + 1 := by ring

end Bounded

/-- The first convergent of a number is its whole part. -/
theorem convergents_start (hl : 0 < limit) {n d : Nat} (hd : 0 < d) :
    convergents limit ⟨0, 1⟩ ⟨1, 0⟩ n d = convergents limit ⟨1, 0⟩ ⟨n / d, 1⟩ d (n % d) := by
  have hstep : step ⟨0, 1⟩ ⟨1, 0⟩ (n / d) = ⟨n / d, 1⟩ := by simp [step]
  rw [convergents, if_neg hd.ne']
  simp only [hstep]
  exact if_neg (not_lt.2 hl)

theorem bounded_start (hl : 0 < limit) (n : Nat) :
    Bounded limit (n + 1) ⟨1, 0⟩ ⟨n, 1⟩ where
  last_pos := Nat.one_pos
  last_le_limit := hl
  previous_le_limit := Nat.zero_le _
  last_le := by simp
  previous_le := by simp
  sum_le := by simp [Nat.add_comm]

theorem whole_le {q : Rat} (h0 : 0 ≤ q) : ((q.num.toNat / q.den : Nat) : Rat) ≤ q := by
  have hq : ((q.num.toNat : Nat) : Rat) / q.den = q := by
    conv_rhs => rw [← Rat.num_div_den q, ← Int.toNat_of_nonneg (Rat.num_nonneg.2 h0)]
    rfl
  exact Nat.cast_div_le.trans_eq hq

/-- The nearest fraction to a number up to `b`. -/
theorem nearest_bounds {q : Rat} (hl : 0 < limit) (h0 : 0 ≤ q) (hb : q ≤ b) :
    (nearest q limit).denominator ≤ limit ∧
      (nearest q limit).numerator ≤ (b + 1) * (nearest q limit).denominator + 1 := by
  have hwhole : q.num.toNat / q.den ≤ b := by exact_mod_cast (whole_le h0).trans hb
  have hmono (x : Nat) : (q.num.toNat / q.den + 1) * x ≤ (b + 1) * x :=
    Nat.mul_le_mul_right x (Nat.succ_le_succ hwhole)
  have hbounded := (bounded_start hl (q.num.toNat / q.den)).convergents
    (Nat.mod_lt q.num.toNat q.den_pos).le
  rw [← convergents_start hl q.den_pos] at hbounded
  unfold nearest
  split
  · rename_i hden
    have hnum := Nat.lt_mul_of_div_lt (Nat.lt_succ_self (q.num.toNat / q.den)) q.den_pos
    exact ⟨hden, (hnum.le.trans (hmono q.den)).trans (Nat.le_succ _)⟩
  · simp only
    split
    · exact ⟨hbounded.last_le_limit, (hbounded.last_le.trans (hmono _)).trans (Nat.le_succ _)⟩
    · obtain ⟨hden, hnum⟩ := hbounded.between
      exact ⟨hden, hnum.trans (Nat.succ_le_succ (hmono _))⟩

end Worksheet.Ratio
