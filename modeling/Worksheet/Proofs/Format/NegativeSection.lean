-- SUMMARY: Which numbers below zero their own section shows like the numbers above zero.
import Worksheet.Proofs.Format.Fraction
import Worksheet.Proofs.Format.Scientific
import Worksheet.Proofs.Sections

/-!
# The Section for Negative Numbers

A section for negative numbers is given the number without its sign, as the standard
arithmetic makes it. That is the number itself only if it has at most 28 digits. For a
longer number, unless it is a tiny one, some section shows the difference:
`showsMagnitude_iff`.
-/

namespace Worksheet

namespace Format.Display

open Decimal Digits

/-! ## What the two sections are given -/

variable {d : String} {v : Decimal} {strict : Bool} {id : Int} {A B : String}

theorem text_negative (h : parse? d.toList = some v) (hs : v.sign = .negative)
    (hA : ';' ∉ A.toList) (hB : ';' ∉ B.toList) :
    text strict d id (A ++ ";" ++ B) = textIn id B (Decimal.lift (Context.standard.abs v)) := by
  have hpattern : (A ++ ";" ++ B).toList = A.toList ++ ';' :: B.toList := by simp
  have hserved : served? (A ++ ";" ++ B) v.sign = some ⟨B.toList, true, false⟩ := by
    unfold served? sections
    rw [hpattern, Text.pieces_append_cons hA, Text.pieces_eq_singleton hB, hs]
    rfl
  rw [text_of_parse h hserved]
  rfl

/-! ## When they show the same -/

/-- A numeral with a minus sign is shown by the section for negative numbers as the numeral
    without it is shown by this section alone. -/
def ShowsMagnitude (d : String) : Prop :=
  ∀ (strict : Bool) (id : Int) (A B : String), ';' ∉ A.toList → ';' ∉ B.toList →
    text strict ("-" ++ d) id (A ++ ";" ++ B) = text strict d id B

/-- Of 29 digits the last one is lost, although the number above zero keeps it. -/
theorem text_of_29_digits :
    text true "-12345678901234567890123456789" 1 "0;0" = .ok "12345678901234567890123456790" ∧
      text true "12345678901234567890123456789" 1 "0" = .ok "12345678901234567890123456789" := by
  constructor
  · with_unfolding_all rfl
  · with_unfolding_all rfl

/-- A number above zero that is written without a sign and without blanks around it. -/
structure IsUnsigned (d : String) (v : Decimal) : Prop where
  trimmed : Text.trim d.toList = d.toList
  noMinus : d.toList.head? ≠ some '-'
  noPlus : d.toList.head? ≠ some '+'
  parsed : parse? d.toList = some v
  positive : 0 < v.value

namespace IsUnsigned

theorem negative (h : IsUnsigned d v) : v.negative = false :=
  (parse?_cons_minus h.trimmed h.noMinus h.noPlus h.parsed).1

theorem coefficient_ne_zero (h : IsUnsigned d v) : v.coefficient ≠ 0 := by
  intro h0
  have hpos := h.positive
  rw [Decimal.value, h.negative, magnitude_eq, h0] at hpos
  simp at hpos

theorem text_eq (h : IsUnsigned d v) (hB : ';' ∉ B.toList) :
    text strict d id B = textIn id B (.ok v) := by
  refine text_positive h.parsed ?_ hB
  simp [Decimal.sign, Decimal.isZero, h.coefficient_ne_zero, h.negative]

theorem parse?_minus (h : IsUnsigned d v) :
    parse? ("-" ++ d).toList = some { v with negative := true } := by
  obtain ⟨-, hparse⟩ := parse?_cons_minus h.trimmed h.noMinus h.noPlus h.parsed
  have hd : ("-" ++ d).toList = '-' :: d.toList := by simp
  rwa [hd]

theorem sign_minus (h : IsUnsigned d v) :
    ({ v with negative := true } : Decimal).sign = .negative := by
  simp [Decimal.sign, Decimal.isZero, h.coefficient_ne_zero]

theorem text_minus_eq (h : IsUnsigned d v) (hA : ';' ∉ A.toList) (hB : ';' ∉ B.toList) :
    text strict ("-" ++ d) id (A ++ ";" ++ B) =
      textIn id B (Decimal.lift (Context.standard.abs v)) :=
  (text_negative h.parse?_minus h.sign_minus hA hB).trans rfl

theorem showsMagnitude_of_abs (h : IsUnsigned d v) (habs : Context.standard.abs v = .ok v) :
    ShowsMagnitude d := by
  intro strict id A B hA hB
  rw [h.text_minus_eq hA hB, h.text_eq hB, habs]
  rfl

/-! ## When they do not -/

/-- A number that is shown alike has a magnitude, and all sections show both alike. -/
theorem exists_abs (h : IsUnsigned d v) (hs : ShowsMagnitude d) :
    ∃ w, Context.standard.abs v = .ok w ∧
      ∀ s, ';' ∉ s → Number.text w (clean s) = Number.text v (clean s) := by
  have hall (s : List Char) (hsep : ';' ∉ s) :
      textIn 0 (String.ofList s) (Decimal.lift (Context.standard.abs v)) =
        textIn 0 (String.ofList s) (.ok v) := by
    have hB : ';' ∉ (String.ofList s).toList := by simpa using hsep
    have heq := hs true 0 "" (String.ofList s) (by decide) hB
    rwa [h.text_minus_eq (by decide) hB, h.text_eq hB] at heq
  cases habs : Context.standard.abs v with
  | error e =>
    have hnone := hall [] (by decide)
    rw [habs] at hnone
    cases hnone
  | ok w =>
    refine ⟨w, rfl, fun s hsep => ?_⟩
    have heq := hall s hsep
    have hshow : ∀ x, textIn 0 (String.ofList s) (.ok x) =
        Number.text x (clean s) >>= fun t => pure (String.ofList t) := by
      intro x
      change showIn 0 (String.ofList s).toList x >>= _ = _
      rw [String.toList_ofList]
      rfl
    rw [habs] at heq
    change textIn 0 (String.ofList s) (.ok w) = _ at heq
    rw [hshow, hshow] at heq
    refine bind_pure_injective ?_ heq
    intro a b hab
    simpa using congrArg String.toList hab

theorem pos_of_coefficient_eq {q t : Nat} (h : IsUnsigned d v)
    (hcoef : v.coefficient = q * 10 ^ t) : 0 < q := by
  apply Nat.pos_of_ne_zero
  rintro rfl
  exact h.coefficient_ne_zero (by simpa using hcoef)

/-- Zeros dropped behind the precision are missed by a fraction with a fixed denominator. -/
theorem not_alike_of_dvd {q t : Nat} (h : IsUnsigned d v) (ht : 0 < t) (hq : count q = 28)
    (hcoef : v.coefficient = q * 10 ^ t) (hmin : minExponent + 28 ≤ v.adjusted)
    (hmax : v.adjusted ≤ maxExponent) :
    ∃ s, ';' ∉ s ∧ Number.text (Context.standard.rounded v t) (clean s) ≠
      Number.text v (clean s) := by
  have hpos := h.pos_of_coefficient_eq hcoef
  have hround : Context.standard.rounded v t = ⟨false, q, v.exponent + t⟩ := by
    rw [Context.rounded_of_dvd hcoef hq.le, h.negative]
  have hv : v = ⟨false, q * 10 ^ t, v.exponent + t - t⟩ := by
    rw [← hcoef, ← h.negative, Int.add_sub_cancel]
  have hadj : v.adjusted = v.exponent + t + 27 := by
    rw [adjusted, digitCount, hcoef, count_mul_pow hpos]
    omega
  obtain ⟨p, k, j, hne⟩ :=
    exists_text_ne (e := v.exponent + t) hpos (by omega) ht (by omega) (by omega)
  refine ⟨fixedSection p k j, ?_, ?_⟩
  · intro hmem
    exact forall_fixedSection (P := (· ≠ ';')) (by decide) (by decide) (by decide) (by decide) _
      hmem rfl
  · rw [← hv] at hne
    rw [hround]
    exact hne.symm

/-- Other digits dropped behind the precision are missed in scientific notation. -/
theorem dvd_of_alike {w : Decimal} (h : IsUnsigned d v) (hdigits : 28 ≤ v.digitCount)
    (hmin : minExponent + 28 ≤ v.adjusted) (hmax : v.adjusted ≤ maxExponent)
    (hw : w = Context.standard.rounded v (v.digitCount - 28)) (hwmax : w.adjusted ≤ maxExponent)
    (hall : ∀ s, ';' ∉ s → Number.text w (clean s) = Number.text v (clean s)) :
    10 ^ (v.digitCount - 28) ∣ v.coefficient := by
  have h0 := h.coefficient_ne_zero
  have hp : 0 < Context.standard.precision := by decide
  have hcount : w.digitCount ≤ 28 := hw ▸ Context.digitCount_rounded_le h0 hp
  have hw0 : w.coefficient ≠ 0 := hw ▸ Context.coefficient_rounded_ne_zero h0 hp
  have hneg : w.negative = false := by rw [hw, Context.negative_rounded, h.negative]
  have hwmin : minExponent ≤ w.adjusted := by
    have hexp := Context.exponent_rounded Context.standard v (v.digitCount - 28)
    have hpos := count_pos w.coefficient
    rw [← hw] at hexp
    unfold adjusted digitCount at *
    omega
  have hsep : ';' ∉ scientificSection (v.digitCount - 1) := by
    simp [scientificSection]
  have hdigits' := mantissaDigits_eq_of_text_eq h.negative hneg h0 hw0 (by omega) (by omega)
    (by omega) hwmin hmax hwmax (hall _ hsep).symm
  have hself : mantissaDigits v (v.digitCount - 1) = v.coefficient := by
    have hzero : v.digitCount - 1 + 1 - v.digitCount = 0 := by omega
    simp [mantissaDigits, hzero]
  rw [← hself, hdigits']
  exact (Nat.pow_dvd_pow 10 (by omega)).trans (Nat.dvd_mul_left _ _)

theorem abs_eq (h : IsUnsigned d v) : Context.standard.abs v = Context.standard.fit v := by
  obtain ⟨negative, coefficient, exponent⟩ := v
  obtain rfl : negative = false := h.negative
  rfl

/-- The standard arithmetic has room for no more than 28 digits. -/
theorem digitCount_le (h : IsUnsigned d v) (hmin : minExponent + 28 ≤ v.adjusted)
    (hs : ShowsMagnitude d) : v.digitCount ≤ 28 ∧ v.adjusted ≤ maxExponent := by
  obtain ⟨w, habs, hw⟩ := h.exists_abs hs
  have h0 := h.coefficient_ne_zero
  rw [h.abs_eq] at habs
  have hmax := Context.adjusted_le_of_fit h0 habs
  refine ⟨?_, hmax⟩
  by_contra hdigits
  have hleast : Context.standard.least ≤ v.exponent + (v.digitCount - 28 : Nat) := by
    have hstandard : Context.standard.least = minExponent - 28 + 1 := rfl
    unfold adjusted at hmin
    omega
  rw [Context.fit_eq h0 (by decide) hleast hmax] at habs
  split at habs
  · cases habs
  · rename_i hmax'
    obtain rfl := Except.ok.inj habs
    obtain ⟨q, hq⟩ := h.dvd_of_alike (by omega) hmin hmax rfl (not_lt.1 hmax') hw
    rw [Nat.mul_comm] at hq
    have hpos := h.pos_of_coefficient_eq hq
    have hcount : count q = 28 := by
      have hsplit : v.digitCount = count q + (v.digitCount - 28) := by
        conv_lhs => rw [digitCount, hq, count_mul_pow hpos]
      omega
    obtain ⟨s, hsep, hne⟩ := h.not_alike_of_dvd (by omega) hcount hq hmin hmax
    exact hne (hw s hsep)

end IsUnsigned

/-- A number above zero is shown alike by a section and, with a minus sign, by this section for
    negative numbers if the standard arithmetic leaves it as it is. Unless the number is at the
    bottom of the exponent range, this is so exactly if it has at most 28 digits and is not too
    large. -/
theorem showsMagnitude_iff (h : IsUnsigned d v) :
    (Context.standard.abs v = .ok v → ShowsMagnitude d) ∧
      (minExponent + 28 ≤ v.adjusted →
        (ShowsMagnitude d ↔ v.digitCount ≤ 28 ∧ v.adjusted ≤ maxExponent)) := by
  refine ⟨h.showsMagnitude_of_abs, fun hmin => ⟨h.digitCount_le hmin, ?_⟩⟩
  rintro ⟨hdigits, hmax⟩
  have hleast : Context.standard.least ≤ v.exponent := by
    have hstandard : Context.standard.least = minExponent - 28 + 1 := rfl
    unfold adjusted at hmin
    omega
  apply h.showsMagnitude_of_abs
  rw [h.abs_eq, Context.fit_eq_self h.coefficient_ne_zero hdigits hleast hmax]

theorem showsMagnitude_of_4_digits_not_of_29 :
    IsUnsigned "12.50" ⟨false, 1250, -2⟩ ∧ ShowsMagnitude "12.50" ∧
      IsUnsigned "12345678901234567890123456789" ⟨false, 12345678901234567890123456789, 0⟩ ∧
      ¬ShowsMagnitude "12345678901234567890123456789" := by
  have hshort : IsUnsigned "12.50" ⟨false, 1250, -2⟩ :=
    ⟨rfl, by decide, by decide, by decide +kernel, by decide +kernel⟩
  have hlong : IsUnsigned "12345678901234567890123456789"
      ⟨false, 12345678901234567890123456789, 0⟩ :=
    ⟨rfl, by decide, by decide, by decide +kernel, by decide +kernel⟩
  refine ⟨hshort, ?_, hlong, ?_⟩
  · exact ((showsMagnitude_iff hshort).2 (by decide)).2 (by decide)
  · intro h
    have hdigits := ((showsMagnitude_iff hlong).2 (by decide)).1 h
    exact absurd hdigits (by decide +kernel)

end Format.Display

end Worksheet
