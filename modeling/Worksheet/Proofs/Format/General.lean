-- SUMMARY: General shows the canonical numeral of a number rounded to eleven digits.
import Worksheet.Format.General
import Worksheet.Proofs.Format.Layout
import Worksheet.Proofs.Numeral
import Worksheet.Proofs.Significant

/-!
# Numbers in the General Format

General takes the trailing zeros from a rounded number, so that its sign and its value leave one
choice of digits. The text is read as the rounded number, is shown alike when it is shown again,
and does not tell equal numbers apart: `text_canonical`.
-/

namespace Worksheet

open Digits

namespace Decimal

variable {a b d : Decimal}

/-! ## Values and signs -/

/-- The rounded value has the sign of the number and its rounded magnitude. -/
theorem value_eq_significant (h0 : a.coefficient ≠ 0) {digits : Nat}
    (hnegative : b.negative = a.negative) (h : b.magnitude = leading digits a.magnitude) :
    b.value = significant digits a.value := by
  have hpos := magnitude_pos h0
  rw [value, hnegative, h, significant, value]
  cases a.negative with
  | false => simp only [Bool.false_eq_true, if_false, if_neg (not_lt.2 hpos.le)]
  | true => simp only [if_true, neg_neg, if_pos (neg_lt_zero.2 hpos)]

theorem signText_value (h0 : d.coefficient ≠ 0) :
    Format.signText d.value = if d.negative then ['-'] else [] := by
  simp only [Format.signText, value_lt_zero_iff h0]

/-! ## Numbers written without an exponent -/

namespace Numeral

/-- The digits of a number that is written without an exponent, and an exponent behind them. -/
def ofDecimal (d : Decimal) (exponent? : Option Int) : Numeral where
  whole := d.integerDigits
  decimals := d.fractionDigits
  exponent? := exponent?
  areDigits_whole := areDigits_ofNat _
  whole_ne := List.length_pos_iff.1 (count_pos _)
  areDigits_decimals := areDigits_fraction _ _

variable {x : Option Int}

theorem length_decimals (d : Decimal) (x : Option Int) :
    (ofDecimal d x).decimals.length = (-d.exponent).toNat := length_fraction _ _

theorem plain_eq (d : Decimal) (x : Option Int) :
    d.plain = (if d.negative then ['-'] else []) ++
      ((ofDecimal d x).whole ++ (ofDecimal d x).pointChars) := by
  have hnil : (ofDecimal d x).decimals = [] ↔ ¬d.exponent < 0 := by
    rw [← List.length_eq_zero_iff, length_decimals]
    omega
  by_cases he : d.exponent < 0
  · have hpoint : (ofDecimal d x).pointChars = '.' :: d.fractionDigits :=
      if_neg fun h => hnil.1 h he
    rw [hpoint, plain, if_pos he, List.append_assoc]
    rfl
  · have hpoint : (ofDecimal d x).pointChars = [] := if_pos (hnil.2 he)
    rw [hpoint, plain, if_neg he, List.append_assoc]
    rfl

theorem mantissa_ofDecimal (d : Decimal) (x : Option Int) :
    (ofDecimal d x).mantissa = d.magnitude := by
  have hwhole : Digits.value (ofDecimal d x).whole = d.wholePart := value_ofNat _
  have hdecimals : Digits.value (ofDecimal d x).decimals =
      d.coefficient % 10 ^ (-d.exponent).toNat := value_fraction _ _
  rw [mantissa, hwhole, hdecimals, length_decimals]
  unfold wholePart magnitude
  split
  · rename_i he
    have hnone : (-d.exponent).toNat = 0 := by omega
    rw [hnone, pow_zero, Nat.mod_one]
    simp
  · have hpow : (10 : Rat) ^ (-d.exponent).toNat ≠ 0 := by positivity
    have hsplit : (d.coefficient : Rat) =
        10 ^ (-d.exponent).toNat * (d.coefficient / 10 ^ (-d.exponent).toNat : Nat) +
          (d.coefficient % 10 ^ (-d.exponent).toNat : Nat) := by
      exact_mod_cast (Nat.div_add_mod _ _).symm
    rw [Rat.mkRat_eq_div, Int.cast_natCast, Nat.pow_eq, Nat.cast_pow, Nat.cast_ofNat]
    conv_rhs => rw [hsplit]
    rw [add_div, mul_div_cancel_left₀ _ hpow]

theorem head?_whole (d : Decimal) (x : Option Int) :
    (ofDecimal d x).whole = ['0'] ∨ (ofDecimal d x).whole.head? ≠ some '0' := by
  change Digits.ofNat d.wholePart = ['0'] ∨ (Digits.ofNat d.wholePart).head? ≠ some '0'
  rcases Nat.eq_zero_or_pos d.wholePart with h0 | hpos
  · exact .inl (by rw [h0]; rfl)
  · obtain ⟨k, ds, hk, hten, hdigits⟩ := head_ofNat hpos
    rw [hdigits, List.head?_cons]
    exact .inr fun h => char_ne_zero k hten hk (Option.some.inj h)

/-- The last digit after the point is the last one of the coefficient. -/
theorem getLast?_decimals (h : d.IsReduced) (x : Option Int) :
    (ofDecimal d x).decimals.getLast? ≠ some '0' := by
  intro hlast
  obtain ⟨front, hfront⟩ := List.getLast?_eq_some_iff.1 hlast
  have hlength := length_decimals d x
  have hvalue : Digits.value (ofDecimal d x).decimals =
      d.coefficient % 10 ^ (-d.exponent).toNat := value_fraction _ _
  rw [hfront, List.length_append, List.length_singleton] at hlength
  rw [hfront, value_append, ← hlength, Nat.pow_succ'] at hvalue
  have hten : d.coefficient % (10 * 10 ^ front.length) % 10 = d.coefficient % 10 :=
    Nat.mod_mul_right_mod _ _ _
  have hzero : Digits.value ['0'] = 0 := rfl
  rw [← hvalue, hzero, List.length_singleton, pow_one, Nat.add_zero, Nat.mul_mod_left] at hten
  exact h hten.symm

end Numeral

end Decimal

namespace Format.General

open Decimal

variable {a b d v : Decimal}

/-! ## Canonical numerals -/

/-- The numeral denotes the number, which is not below zero. It has an exponent only if the
    leading digit does not stand at one of the places from `-9` to `10`, and then one digit before
    the point. It has no zero in front but a single one, and none in the end after the point. -/
structure IsCanonical (n : Numeral) (x : Rat) : Prop where
  value_eq : n.value = x
  exponent?_eq : n.exponent? =
    if -10 < Int.log 10 x ∧ Int.log 10 x < digits then none else some (Int.log 10 x)
  head?_whole : n.whole = ['0'] ∨ n.whole.head? ≠ some '0'
  getLast?_decimals : n.decimals.getLast? ≠ some '0'
  normalized : n.exponent? ≠ none → 1 ≤ n.mantissa ∧ n.mantissa < 10

/-- The numeral that is shown of a number without its sign. -/
def numeral (d : Decimal) : Numeral :=
  if -10 < d.adjusted ∧ d.adjusted < digits then .ofDecimal d none
  else .ofDecimal (d.shift (-d.adjusted)) (some d.adjusted)

theorem layout_eq (d : Decimal) :
    layout d = (if d.negative then ['-'] else []) ++ (numeral d).chars := by
  unfold layout numeral
  simp only
  split
  · rw [Numeral.plain_eq d none, Numeral.chars]
    exact congrArg _ (congrArg _ (List.append_nil _).symm)
  · change (d.shift (-d.adjusted)).plain ++ _ ++ _ = _
    rw [Numeral.plain_eq _ (some d.adjusted), Numeral.chars]
    simp only [List.append_assoc]
    rfl

theorem magnitude_shift_bounds (h0 : d.coefficient ≠ 0) :
    1 ≤ (d.shift (-d.adjusted)).magnitude ∧ (d.shift (-d.adjusted)).magnitude < 10 := by
  have hzero : (d.shift (-d.adjusted)).adjusted = 0 := by
    rw [adjusted_shift]
    omega
  have hlow := ten_zpow_adjusted_le (d := d.shift (-d.adjusted)) h0
  have hhigh := magnitude_lt_ten_zpow (d.shift (-d.adjusted))
  rw [hzero] at hlow hhigh
  exact ⟨by simpa using hlow, by simpa using hhigh⟩

theorem isCanonical_numeral (h : d.IsReduced) : IsCanonical (numeral d) d.magnitude := by
  have h0 := h.coefficient_ne_zero
  have hlog := log_magnitude h0
  have hshift : (d.shift (-d.adjusted)).IsReduced := h
  unfold numeral
  split
  · rename_i hplain
    refine ⟨?_, by rw [hlog, if_pos hplain]; rfl, Numeral.head?_whole _ _,
      Numeral.getLast?_decimals h _, fun hne => absurd rfl hne⟩
    rw [Numeral.value, Numeral.mantissa_ofDecimal]
    exact mul_one _
  · rename_i hscientific
    refine ⟨?_, by rw [hlog, if_neg hscientific]; rfl, Numeral.head?_whole _ _,
      Numeral.getLast?_decimals hshift _, fun _ => ?_⟩
    · rw [Numeral.value, Numeral.mantissa_ofDecimal, magnitude_shift, mul_assoc]
      change d.magnitude * (10 ^ (-d.adjusted) * 10 ^ d.adjusted) = d.magnitude
      rw [← ten_zpow_add, neg_add_cancel, zpow_zero, mul_one]
    · rw [Numeral.mantissa_ofDecimal]
      exact magnitude_shift_bounds h0

theorem isCanonical_zero : IsCanonical (numeral ⟨false, 0, 0⟩) 0 := by
  have hplain : numeral ⟨false, 0, 0⟩ = .ofDecimal ⟨false, 0, 0⟩ none := if_pos (by decide)
  rw [hplain]
  refine ⟨?_, ?_, .inl rfl, by decide, fun hne => absurd rfl hne⟩
  · rw [Numeral.value, Numeral.mantissa_ofDecimal, magnitude_of_coefficient_eq_zero rfl]
    exact zero_mul _
  · rw [Int.log_zero_right, if_pos (by decide)]
    rfl

/-- The numeral has no digits below those of the number. -/
theorem exponent_numeral (d : Decimal) (negative : Bool) :
    min 0 d.exponent ≤ ((numeral d).decimal negative).exponent := by
  have hdigits := count_pos d.coefficient
  have hadjusted : d.adjusted = d.exponent + count d.coefficient - 1 := rfl
  unfold numeral Numeral.decimal
  split
  · rw [Numeral.length_decimals]
    change _ ≤ 0 - ((-d.exponent).toNat : Int)
    omega
  · rw [Numeral.length_decimals]
    change _ ≤ d.adjusted - ((-(d.exponent + -d.adjusted)).toNat : Int)
    omega

/-- What is shown of a number is read as this number. -/
theorem parse?_layout (h : d.IsReduced) (hl : minExponent ≤ d.adjusted)
    (hm : d.adjusted ≤ maxExponent) (hdigits : d.digitCount ≤ digits) :
    ∃ p, parse? (layout d) = some p ∧ p.value = d.value := by
  have h0 := h.coefficient_ne_zero
  have hmagnitude : ((numeral d).decimal d.negative).magnitude = d.magnitude :=
    (Numeral.magnitude_decimal _ _).trans (isCanonical_numeral h).value_eq
  have hadjusted := adjusted_eq_of_magnitude_eq h0 hmagnitude.symm
  have hexponent := exponent_numeral d d.negative
  have hwritable : isWritable ((numeral d).decimal d.negative) = true := by
    have hlimits : maxExponent ≤ largestWritten ∧
        smallestWritten ≤ minExponent - digits ∧ smallestWritten ≤ 0 := by decide
    have hd : d.adjusted = d.exponent + d.digitCount - 1 := rfl
    simp only [isWritable, Bool.and_eq_true, decide_eq_true_eq]
    omega
  refine ⟨_, layout_eq d ▸ Numeral.parse?_chars hwritable, ?_⟩
  rw [Decimal.value, hmagnitude]
  rfl

/-! ## The text of a number -/

theorem text_of_zero (h0 : d.coefficient = 0) : text d = .ok ['0'] := by
  have hfit : context.fit d = .ok { d with exponent := max context.least (min maxExponent d.exponent) } :=
    if_pos h0
  refine bind_eq_ok_iff.2 ⟨_, mapError_eq_ok_iff.2 hfit, if_pos ?_⟩
  exact decide_eq_true h0

/-- A number other than zero is rounded, and loses its trailing zeros. -/
theorem exists_text_eq (h0 : d.coefficient ≠ 0) (hl : minExponent ≤ d.adjusted)
    (hm : d.adjusted < maxExponent) :
    ∃ r, text d = .ok (layout r) ∧ r.IsReduced ∧ r.negative = d.negative ∧
      r.magnitude = leading digits d.magnitude ∧ r.digitCount ≤ digits ∧
      d.adjusted ≤ r.adjusted ∧ r.adjusted ≤ d.adjusted + 1 := by
  obtain ⟨f, hfit, hnegative, hf0, hmagnitude, hdigits, hlow, hhigh⟩ :=
    Context.exists_fit_leading (c := context) rfl (by decide) h0 hl hm
  obtain ⟨hreduced, hnegative', hmagnitude', hdigits'⟩ := reduce_eq hf0
  have hadjusted := adjusted_eq_of_magnitude_eq hreduced.coefficient_ne_zero hmagnitude'
  have hzero : ¬f.isZero = true := by simpa [isZero] using hf0
  exact ⟨f.reduce, bind_eq_ok_iff.2 ⟨f, mapError_eq_ok_iff.2 hfit, if_neg hzero⟩, hreduced,
    hnegative'.trans hnegative, hmagnitude'.trans hmagnitude, hdigits'.trans hdigits,
    hadjusted ▸ hlow, hadjusted ▸ hhigh⟩

/-- A number of ordinary size has a text, which starts with its sign or with a digit. -/
theorem exists_text_cons (hv : v.adjusted.natAbs < 100000) :
    ∃ c rest, text v = .ok (c :: rest) ∧ (c = '-' ∨ c.isDigit = true) := by
  have hmax : maxExponent = 999999 := rfl
  have hmin : minExponent = -999999 := rfl
  by_cases h0 : v.coefficient = 0
  · exact ⟨'0', [], text_of_zero h0, .inr rfl⟩
  · obtain ⟨r, hr, -⟩ := exists_text_eq h0 (by omega) (by omega)
    rw [hr, layout_eq]
    obtain ⟨c, whole, hwhole⟩ := List.exists_cons_of_ne_nil (numeral r).whole_ne
    cases r.negative with
    | true => exact ⟨'-', (numeral r).chars, rfl, .inl rfl⟩
    | false =>
      obtain ⟨d, hd, rfl⟩ := (numeral r).areDigits_whole c (hwhole ▸ List.mem_cons_self)
      refine ⟨char d, whole ++ ((numeral r).pointChars ++ (numeral r).exponentChars), ?_,
        .inr (isDigit_char d hd)⟩
      rw [Numeral.chars, hwhole]
      rfl

/-- Equal numbers are shown alike. -/
theorem text_congr (hl : a.coefficient ≠ 0 → minExponent ≤ a.adjusted)
    (hm : a.coefficient ≠ 0 → a.adjusted < maxExponent) (h : a.value = b.value) :
    text a = text b := by
  by_cases h0 : a.coefficient = 0
  · have hb0 : b.coefficient = 0 := by rwa [← value_eq_zero_iff, ← h, value_eq_zero_iff]
    rw [text_of_zero h0, text_of_zero hb0]
  · have hb0 : b.coefficient ≠ 0 := by rwa [Ne, ← value_eq_zero_iff, ← h, value_eq_zero_iff]
    have hmagnitude := magnitude_eq_of_value_eq h
    have hadjusted := adjusted_eq_of_magnitude_eq h0 hmagnitude
    obtain ⟨r, hr, hreduced, hnegative, hleading, -⟩ := exists_text_eq h0 (hl h0) (hm h0)
    obtain ⟨r', hr', hreduced', hnegative', hleading', -⟩ :=
      exists_text_eq hb0 (hadjusted ▸ hl h0) (hadjusted ▸ hm h0)
    have hsign := negative_eq_of_value_eq h0 h
    have hsame : r = r' := hreduced.ext hreduced' (by rw [hnegative, hnegative', hsign])
      (by rw [hleading, hleading', hmagnitude])
    rw [hr, hr', hsame]

/-- A number that has been rounded is shown with its own digits. -/
theorem text_of_isReduced (h : d.IsReduced) (hdigits : d.digitCount ≤ digits)
    (hl : minExponent ≤ d.adjusted) (hm : d.adjusted < maxExponent) :
    text d = .ok (layout d) := by
  obtain ⟨r, hr, hreduced, hnegative, hleading, -⟩ := exists_text_eq h.coefficient_ne_zero hl hm
  rw [Context.leading_of_le h.coefficient_ne_zero hdigits] at hleading
  rw [hr, hreduced.ext h hnegative hleading]

/-- General shows the canonical numeral of the number rounded to eleven digits. It is read as
    the rounded number, which is shown alike, and equal numbers are shown alike. -/
theorem text_canonical (v : Decimal) (hv : v.adjusted.natAbs < 900000) :
    (∃ n, IsCanonical n |significant digits v.value| ∧
      text v = .ok (signText (significant digits v.value) ++ n.chars)) ∧
    (significant digits v.value = 0 → text v = .ok ['0']) ∧
    (∃ t p, text v = .ok t ∧ parse? t = some p ∧ p.value = significant digits v.value ∧
      text p = .ok t) ∧
    ∀ w : Decimal, w.value = v.value → text w = text v := by
  have hmax : maxExponent = 999999 := rfl
  have hmin : minExponent = -999999 := rfl
  have hcongr (w : Decimal) (h : w.value = v.value) : text w = text v :=
    (text_congr (fun _ => by omega) (fun _ => by omega) h.symm).symm
  by_cases h0 : v.coefficient = 0
  · have hvalue : significant digits v.value = 0 := by
      rw [value_eq_zero_iff.2 h0, significant, if_neg (lt_irrefl _), leading_zero]
    have htext := text_of_zero h0
    rw [hvalue, abs_zero]
    exact ⟨⟨numeral ⟨false, 0, 0⟩, isCanonical_zero, htext⟩, fun _ => htext,
      ⟨['0'], ⟨false, 0, 0⟩, htext, rfl, value_eq_zero_iff.2 rfl, rfl⟩, hcongr⟩
  · obtain ⟨r, hr, hreduced, hnegative, hleading, hdigits, hlow, hhigh⟩ :=
      exists_text_eq h0 (by omega) (by omega)
    have hr0 := hreduced.coefficient_ne_zero
    have hvalue := value_eq_significant h0 hnegative hleading
    obtain ⟨p, hp, hpvalue⟩ := parse?_layout hreduced (by omega) (by omega) hdigits
    have hagain : text p = .ok (layout r) := by
      rw [← text_of_isReduced hreduced hdigits (by omega) (by omega)]
      exact (text_congr (fun _ => by omega) (fun _ => by omega) hpvalue.symm).symm
    rw [← hvalue, abs_value, signText_value hr0]
    refine ⟨⟨numeral r, isCanonical_numeral hreduced, layout_eq r ▸ hr⟩, fun hzero => ?_,
      ⟨layout r, p, hr, hp, hpvalue, hagain⟩, hcongr⟩
    exact absurd (value_eq_zero_iff.1 hzero) hr0

/-- Eleven nines and a half are rounded to the first number that has an exponent. -/
theorem text_canonical_carried :
    (⟨false, 999999999995, -1⟩ : Decimal).adjusted.natAbs < 900000 ∧
      text ⟨false, 999999999995, -1⟩ = .ok "1E+11".toList ∧
      ∃ p, parse? "1E+11".toList = some p ∧
        p.value = significant digits (⟨false, 999999999995, -1⟩ : Decimal).value ∧
        text p = .ok "1E+11".toList := by
  have hv : (⟨false, 999999999995, -1⟩ : Decimal).adjusted.natAbs < 900000 := by decide
  have htext : text ⟨false, 999999999995, -1⟩ = .ok "1E+11".toList := by
    with_unfolding_all rfl
  obtain ⟨t, p, ht, hp, hvalue, hagain⟩ := (text_canonical _ hv).2.2.1
  obtain rfl : t = "1E+11".toList := Except.ok.inj (ht.symm.trans htext)
  exact ⟨hv, htext, p, hp, hvalue, hagain⟩

end Format.General

end Worksheet
