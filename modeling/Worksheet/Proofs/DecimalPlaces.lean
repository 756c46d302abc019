-- SUMMARY: A number that is not negative can always be rounded to decimal places, and is written with exactly as many.
import Worksheet.Proofs.Exactness
import Worksheet.Proofs.Format.Reading

/-!
# Decimal Places

Rounding to an exponent fails if the digits of the result do not fit into the precision, and
rounding may carry into a new leading digit. Rounding to decimal places asks for two digits more
than the leading digit and the places would need, so it never fails, not even on a row of nines:
`Context.roundHalfUp_succeeds`.
-/

namespace Worksheet.Decimal

open Digits Format.Reading

variable {d : Decimal} {c : Context} {places : Nat}

theorem value_of_nonneg (h : 0 ≤ d.value) : d.value = d.magnitude :=
  (abs_of_nonneg h).symm.trans (abs_value d)

/-- A number with decimal places is written with a point and all of them, and without a point if
    there are none. -/
theorem decimals_plain (negative : Bool) (n places : Nat) :
    decimals (⟨negative, n, -places⟩ : Decimal).plain = Digits.fraction places n ∧
      ('.' ∈ (⟨negative, n, -places⟩ : Decimal).plain ↔ places ≠ 0) := by
  have hwhole : '.' ∉ (if negative then ['-'] else []) ++
      (⟨negative, n, -places⟩ : Decimal).integerDigits := by
    have hdigits := notMem_of_areDigits (areDigits_ofNat
      (⟨negative, n, -places⟩ : Decimal).wholePart) (by decide : '.'.isDigit = false)
    cases negative with
    | false => exact hdigits
    | true => exact List.not_mem_cons_of_ne_of_not_mem (by decide) hdigits
  rcases Nat.eq_zero_or_pos places with rfl | hpos
  · have hplain : (⟨negative, n, -(0 : Nat)⟩ : Decimal).plain = _ := List.append_nil _
    rw [hplain]
    exact ⟨decimals_of_notMem hwhole, iff_of_false hwhole fun h => h rfl⟩
  · have hplain : (⟨negative, n, -places⟩ : Decimal).plain =
        ((if negative then ['-'] else []) ++ (⟨negative, n, -places⟩ : Decimal).integerDigits) ++
          '.' :: Digits.fraction places n := by
      rw [← fractionDigits_of_places negative]
      exact congrArg _ (if_pos (by simpa using hpos))
    rw [hplain, decimals_append hwhole]
    exact ⟨rfl, iff_of_true (by simp) hpos.ne'⟩

/-- Rounding a number that is not negative half up is rounding down after adding a half. -/
theorem value_roundHalfUp (hv : 0 ≤ d.value) :
    (⟨d.negative, ⌊d.magnitude * 10 ^ places + 1 / 2⌋₊, -places⟩ : Decimal).value =
      ⌊d.value * 10 ^ places + 1 / 2⌋ / 10 ^ places := by
  have hfloor : ((⌊d.value * 10 ^ places + 1 / 2⌋ : Int) : Rat) =
      ⌊d.magnitude * 10 ^ places + 1 / 2⌋₊ := by
    rw [← value_of_nonneg hv]
    exact (natCast_floor_eq_intCast_floor (by positivity)).symm
  have hmagnitude :
      (⟨d.negative, ⌊d.magnitude * 10 ^ places + 1 / 2⌋₊, -places⟩ : Decimal).magnitude =
        ⌊d.magnitude * 10 ^ places + 1 / 2⌋₊ / 10 ^ places := by
    rw [magnitude_eq, zpow_neg, zpow_natCast]
    exact (div_eq_mul_inv _ _).symm
  rw [hfloor, ← hmagnitude]
  cases hn : d.negative with
  | false => rfl
  | true =>
    -- The only number with a sign that is not negative is zero, which is rounded to zero.
    have h0 : d.coefficient = 0 := by
      by_contra h0
      exact absurd hv (not_le.2 ((value_lt_zero_iff h0).2 hn))
    rw [Context.floor_of_coefficient_eq_zero h0]
    exact (value_eq_zero_iff.2 rfl).trans (magnitude_of_coefficient_eq_zero rfl).symm

/-- A number that is not negative is rounded half up to decimal places in every context. The
    result has exactly that many places and is written with that many, and any precision with room
    for its digits gives it, but no smaller one. -/
theorem Context.roundHalfUp_succeeds (hp : 1 ≤ c.precision) (hv : 0 ≤ d.value)
    (hadjusted : d.coefficient ≠ 0 → d.adjusted.natAbs < 100000) (hplaces : places < 100000) :
    ∃ r, c.roundHalfUp d places = .ok r ∧ r.exponent = -places ∧
      r.value = ⌊d.value * 10 ^ places + 1 / 2⌋ / 10 ^ places ∧
      AreDigits (decimals r.plain) ∧ (decimals r.plain).length = places ∧
      ('.' ∈ r.plain ↔ places ≠ 0) ∧
      ∀ p, 1 ≤ p → (({ c with precision := p } : Context).quantize d (-places) = .ok r ↔
        r.digitCount ≤ p) := by
  have hmax : maxExponent = 999999 := rfl
  have hm : d.coefficient ≠ 0 → d.adjusted < maxExponent := fun h0 => by
    have hsmall := hadjusted h0
    omega
  obtain ⟨hdecimals, hpoint⟩ :=
    decimals_plain d.negative ⌊d.magnitude * 10 ^ places + 1 / 2⌋₊ places
  refine ⟨_, roundHalfUp_eq hp (by omega) hm, rfl, ?_, ?_, ?_, hpoint, ?_⟩
  · exact value_roundHalfUp hv
  · rw [hdecimals]
    exact areDigits_fraction places _
  · rw [hdecimals, length_fraction]
  · intro p hp'
    rw [quantize_eq (c := { c with precision := p }) hp' (by omega) hm]
    simp [digitCount]

/-- A row of nines is carried into a new leading digit, for which a precision of three has no
    room. -/
theorem Context.roundHalfUp_succeeds_nines :
    (0 : Rat) ≤ (⟨false, 9995, -3⟩ : Decimal).value ∧
      (⟨false, 9995, -3⟩ : Decimal).adjusted.natAbs < 100000 ∧
      (⟨1, .halfEven⟩ : Context).roundHalfUp ⟨false, 9995, -3⟩ 2 = .ok ⟨false, 1000, -2⟩ ∧
      (⟨false, 1000, -2⟩ : Decimal).plain = "10.00".toList ∧
      (⟨3, .halfEven⟩ : Context).quantize ⟨false, 9995, -3⟩ (-2) ≠ .ok ⟨false, 1000, -2⟩ := by
  have hv : (0 : Rat) ≤ (⟨false, 9995, -3⟩ : Decimal).value :=
    not_lt.1 (mt (isNegative_iff _).2 (by decide))
  have hadjusted : (⟨false, 9995, -3⟩ : Decimal).adjusted.natAbs < 100000 := by decide
  have hround : (⟨1, .halfEven⟩ : Context).roundHalfUp ⟨false, 9995, -3⟩ 2 =
      .ok ⟨false, 1000, -2⟩ := by rfl
  obtain ⟨r, hr, -, -, -, -, -, hroom⟩ := roundHalfUp_succeeds (c := ⟨1, .halfEven⟩)
    (by decide) hv (fun _ => hadjusted) (by decide : 2 < 100000)
  obtain rfl : r = ⟨false, 1000, -2⟩ := Except.ok.inj (hr.symm.trans hround)
  refine ⟨hv, hadjusted, hround, by rfl, fun h => ?_⟩
  exact absurd ((hroom 3 (by decide)).1 h) (by decide)

end Worksheet.Decimal
