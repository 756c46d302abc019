-- SUMMARY: A section that starts with its point shows a number rounded to an integer behind the point.
import Worksheet.Proofs.Format.FirstDigits

/-!
# Sections That Start with a Point

The body of a section reaches from its first to its last place, so a point in front of all places
is not in it. In `.00` both places are before the point as far as the body knows: the number is
rounded to an integer, and its digits stand behind the point. What is read is the number rounded
to the places only if this is zero: `text_leadingPoint`.
-/

namespace Worksheet.Format.Fixed

open Digits Reading NumberToken
open Decimal (halfUp)

/-! ## The section -/

/-- A point and so many places for zeros. -/
def leadingPoint (n : Nat) : List Char := '.' :: List.replicate n '0'

variable {n l : Nat}

theorem leadingPoint_eq (n : Nat) : leadingPoint n = texts (.point :: zeros n) := by
  rw [texts_cons, texts_zeros]
  rfl

/-- The point stands in front of the body. -/
theorem ofTokens_leadingPoint (hn : 0 < n) :
    Layout.ofTokens (.point :: zeros n) = ⟨[.point], zeros n, []⟩ := by
  have hpoint : ∀ t ∈ [NumberToken.point], t.isPlace = false := List.forall_mem_singleton.2 rfl
  have h := Layout.ofTokens_append hpoint (Layout.isCore_zeros hn) (List.forall_mem_nil _)
  rw [if_neg (by simp [zeros]), List.append_nil] at h
  exact h

/-! ## What is read -/

/-- As a number of units of the last place, a number that is not rounded to zero there is more
    than what it is rounded to as an integer. -/
theorem lt_floor_mul_pow {x : Rat} (hn : 0 < n) (h : 1 / (2 * 10 ^ n) ≤ x) :
    ⌊x + 1 / 2⌋₊ < ⌊x * 10 ^ n + 1 / 2⌋₊ := by
  have hten : (10 : Rat) ≤ 10 ^ n := by
    simpa using pow_le_pow_right₀ (by norm_num : (1 : Rat) ≤ 10) hn
  have hx : 0 < x := lt_of_lt_of_le (by positivity) h
  have hunit : 1 / 2 ≤ x * 10 ^ n := by
    rw [div_le_iff₀ (by positivity)] at h
    linarith
  refine Nat.le_floor ?_
  rcases Nat.eq_zero_or_pos ⌊x + 1 / 2⌋₊ with h0 | hpos
  · rw [h0]
    push_cast
    linarith
  · have hle := Nat.floor_le (by linarith : 0 ≤ x + 1 / 2)
    have hhalf : (1 : Rat) ≤ x + 1 / 2 := (Nat.one_le_cast.2 hpos).trans hle
    have hmul := mul_le_mul_of_nonneg_left hten hx.le
    push_cast
    linarith

/-- An integer behind a point is the number rounded to its places only if this is zero. -/
theorem eq_halfUp_iff {x : Rat} (hn : 0 < n) (hx : 0 ≤ x) (hl : n ≤ l) :
    (⌊x + 1 / 2⌋₊ : Rat) / 10 ^ l = halfUp (1 / 10 ^ n) x ↔ x < 1 / (2 * 10 ^ n) := by
  rw [Decimal.halfUp_one_div]
  constructor
  · intro heq
    by_contra hge
    have hlt := lt_floor_mul_pow hn (not_lt.1 hge)
    have hpow : (10 : Rat) ^ n ≤ 10 ^ l := pow_le_pow_right₀ (by norm_num) hl
    have hless : (⌊x + 1 / 2⌋₊ : Rat) / 10 ^ l < ⌊x * 10 ^ n + 1 / 2⌋₊ / 10 ^ n :=
      calc (⌊x + 1 / 2⌋₊ : Rat) / 10 ^ l ≤ ⌊x + 1 / 2⌋₊ / 10 ^ n :=
            div_le_div_of_nonneg_left (Nat.cast_nonneg _) (by positivity) hpow
        _ < ⌊x * 10 ^ n + 1 / 2⌋₊ / 10 ^ n :=
            div_lt_div_of_pos_right (Nat.cast_lt.2 hlt) (by positivity)
    exact hless.ne heq
  · intro hlt
    have hten : (1 : Rat) ≤ 10 ^ n := one_le_pow₀ (by norm_num)
    have hunit : x * 10 ^ n < 1 / 2 := by
      rw [lt_div_iff₀ (by positivity)] at hlt
      linarith
    have hself := mul_le_mul_of_nonneg_left hten hx
    have hinteger : ⌊x + 1 / 2⌋₊ = 0 := Nat.floor_eq_zero.2 (by linarith)
    have hrounded : ⌊x * 10 ^ n + 1 / 2⌋₊ = 0 := Nat.floor_eq_zero.2 (by linarith)
    rw [hinteger, hrounded, Nat.cast_zero, zero_div, zero_div]

theorem decimal?_leadingPoint (n k : Nat) :
    decimal? ('.' :: padded n k) = some (k / 10 ^ (padded n k).length : Rat) := by
  have hdigits := areDigits_padded n k
  have h := decimal?_of_point (A := []) (a := 0) (B := padded n k) (by simp) rfl
    (natural?_of_areDigits hdigits)
  rw [value_padded, digitCount_of_areDigits hdigits, Nat.cast_zero, zero_add] at h
  exact h

/-- The number is rounded to an integer, and its digits stand behind the point. They are read as
    the number rounded half up to the places exactly if it is less than half of the last place. -/
theorem text_leadingPoint (n : Nat) (v : Decimal) (hn : 0 < n) (hv : 0 ≤ v.value)
    (hdigits : v.digitCount < 100000) (hadjusted : v.adjusted.natAbs < 100000) :
    Number.text v (leadingPoint n) = .ok ('.' :: padded n ⌊v.value + 1 / 2⌋₊) ∧
      (decimal? ('.' :: padded n ⌊v.value + 1 / 2⌋₊) = some (halfUp (1 / 10 ^ n) v.value) ↔
        v.value < 1 / (2 * 10 ^ n)) := by
  have hmax : Decimal.maxExponent = 999999 := rfl
  have hmin : Decimal.minExponent = -999999 := rfl
  have hexponent : v.adjusted = v.exponent + v.digitCount - 1 := rfl
  have hprecision : 0 < (Number.context v).precision := Nat.add_pos_left (by decide) _
  have hleast := Decimal.Context.least_le hprecision
  have hplain : ∀ t ∈ .point :: zeros n, t.isPlain = true :=
    List.forall_mem_cons.2 ⟨rfl, forall_map_digit fun _ => rfl⟩
  have hplace : (.point :: zeros n).any isPlace = true := (Layout.isCore_zeros hn).any_isPlace
  have hpercents : (⟨[.point], zeros n, []⟩ : Layout).percents = 0 := by
    exact List.count_eq_zero.2 (by simp [zeros])
  obtain ⟨m, -, hmagnitude, -, htext⟩ := exists_text_eq (d := v) hplain
    (ofTokens_leadingPoint hn) hplace hpercents rfl
    (Decimal.Context.holds_of_exponent (by omega) (by omega))
  have hvalue : m.magnitude = v.value := by rw [hmagnitude, ← Decimal.abs_value, abs_of_nonneg hv]
  have hmark : ∀ t ∈ zeros n, t.isMark = false := forall_map_digit fun _ => rfl
  have hbody : Number.bodyText (Number.context v) m (zeros n) =
      .ok (padded n ⌊v.value + 1 / 2⌋₊) := by
    unfold Number.bodyText
    rw [Fraction.ofBody?_eq_none (by simp [zeros]), Scientific.ofBody?_eq_none hmark, ← hvalue]
    refine text_zeros hn hprecision fun h0 => ?_
    rw [Decimal.adjusted_eq_of_magnitude_eq h0 hmagnitude]
    omega
  refine ⟨?_, ?_⟩
  · rw [leadingPoint_eq, htext, hbody, signText, if_neg (not_lt.2 hv)]
    exact congrArg Except.ok (List.append_nil _)
  · rw [decimal?_leadingPoint, Option.some_inj]
    exact eq_halfUp_iff hn hv (le_length_padded n _)

/-- Less than half of the last place is shown as zero. -/
theorem text_leadingPoint_thousandths :
    0 < 2 ∧ 0 ≤ (⟨false, 4, -3⟩ : Decimal).value ∧
      (⟨false, 4, -3⟩ : Decimal).digitCount < 100000 ∧
      (⟨false, 4, -3⟩ : Decimal).adjusted.natAbs < 100000 ∧
      Number.text ⟨false, 4, -3⟩ ".00".toList = .ok ".00".toList ∧
      decimal? ".00".toList = some (halfUp (1 / 10 ^ 2) (⟨false, 4, -3⟩ : Decimal).value) := by
  have hv : 0 ≤ (⟨false, 4, -3⟩ : Decimal).value := by decide +kernel
  have hsmall : (⟨false, 4, -3⟩ : Decimal).value < 1 / (2 * 10 ^ 2) := by decide +kernel
  have hinteger : ⌊(⟨false, 4, -3⟩ : Decimal).value + 1 / 2⌋₊ = 0 := by decide +kernel
  have h := text_leadingPoint 2 ⟨false, 4, -3⟩ (by decide) hv (by decide) (by decide)
  rw [hinteger] at h
  exact ⟨by decide, hv, by decide, by decide, h.1, h.2.2 hsmall⟩

/-- A half is rounded up to an integer and shown as a hundredth. -/
theorem text_leadingPoint_half :
    0 ≤ (⟨false, 5, -1⟩ : Decimal).value ∧
      Number.text ⟨false, 5, -1⟩ ".00".toList = .ok ".01".toList ∧
      decimal? ".01".toList ≠ some (halfUp (1 / 10 ^ 2) (⟨false, 5, -1⟩ : Decimal).value) := by
  refine ⟨by decide +kernel, ?_, by decide +kernel⟩
  with_unfolding_all rfl

end Worksheet.Format.Fixed
