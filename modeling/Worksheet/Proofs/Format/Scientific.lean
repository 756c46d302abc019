-- SUMMARY: Numbers in scientific notation with as many decimal places as they need.
import Worksheet.Proofs.Format.Layout

/-!
# Scientific Notation in Full

A section such as `0.000E+0` shows every digit of a number that it has room for, so two
numbers that it shows alike have the same digits: `text_scientificSection`.
-/

namespace Worksheet.Format

open Digits

/-- The section of a mantissa with `f` decimal places. -/
def scientificSection (f : Nat) : List Char :=
  '0' :: '.' :: List.replicate f '0' ++ ['E', '+', '0']

/-! ## The layout -/

/-- The tokens of the section before the mark of the exponent. -/
def mantissaTokens (f : Nat) : List NumberToken :=
  .digit .zero :: .point :: List.replicate f (.digit .zero)

/-- The tokens of the section. -/
def scientificTokens (f : Nat) : List NumberToken :=
  mantissaTokens f ++ [.exponent true true, .digit .zero]

theorem forall_mantissaTokens {P : NumberToken → Prop} {f : Nat} (hd : P (.digit .zero))
    (hp : P .point) : ∀ t ∈ mantissaTokens f, P t := by
  intro t ht
  rcases List.mem_cons.1 ht with rfl | ht
  · exact hd
  · rcases List.mem_cons.1 ht with rfl | ht
    · exact hp
    · exact List.eq_of_mem_replicate ht ▸ hd

theorem forall_scientificSection {P : Char → Prop} {f : Nat} (hzero : P '0') (hpoint : P '.')
    (hmark : P 'E') (hplus : P '+') : ∀ c ∈ scientificSection f, P c := by
  intro c hc
  rcases List.mem_append.1 hc with hc | hc
  · rcases List.mem_cons.1 hc with rfl | hc
    · exact hzero
    · rcases List.mem_cons.1 hc with rfl | hc
      · exact hpoint
      · exact List.eq_of_mem_replicate hc ▸ hzero
  · rcases List.mem_cons.1 hc with rfl | hc
    · exact hmark
    · rcases List.mem_cons.1 hc with rfl | hc
      · exact hplus
      · exact List.mem_singleton.1 hc ▸ hzero

theorem ofSection_scientificSection (f : Nat) :
    NumberToken.ofSection (scientificSection f) = scientificTokens f := by
  have hsingle : ∀ c ∈ '0' :: '.' :: List.replicate f '0', isSingle c = true := by
    intro c hc
    rcases List.mem_cons.1 hc with rfl | hc
    · decide
    · rcases List.mem_cons.1 hc with rfl | hc
      · decide
      · rw [List.eq_of_mem_replicate hc]
        decide
  have hmark : NumberToken.scan false ['E', '+', '0'] = [.exponent true true, .digit .zero] := by
    decide
  have hscan := scan_append hsingle ['E', '+', '0']
  rw [hmark] at hscan
  rw [scientificTokens, mantissaTokens, NumberToken.ofSection, scientificSection]
  simpa [NumberToken.ofChar] using hscan

theorem fraction_ofBody?_scientific (f : Nat) :
    Fraction.Shape.ofBody? (scientificTokens f) = none :=
  Fraction.ofBody?_eq_none (by simp [scientificTokens, mantissaTokens])

/-- The shape of the section. -/
def scientificShape (f : Nat) : Scientific.Shape :=
  ⟨[.zero], some (List.replicate f .zero), [.zero], true, true⟩

theorem places_replicate (f : Nat) :
    NumberToken.places (List.replicate f (.digit .zero)) = List.replicate f .zero := by
  induction f with
  | zero => rfl
  | succ f ih => exact congrArg (List.cons .zero) ih

theorem scientific_ofBody?_scientific (f : Nat) :
    Scientific.Shape.ofBody? (scientificTokens f) = some (scientificShape f) := by
  have hnot : ∀ t ∈ mantissaTokens f, (!t.isMark) = true :=
    forall_mantissaTokens (by decide) (by decide)
  have hbefore : NumberToken.beforePoint (mantissaTokens f) = [.digit .zero] := rfl
  have hafter : NumberToken.afterPoint? (mantissaTokens f) =
      some (List.replicate f (.digit .zero)) := rfl
  unfold Scientific.Shape.ofBody? scientificTokens
  rw [List.dropWhile_append_of_pos hnot, List.takeWhile_append_of_pos hnot]
  simp [NumberToken.isMark, hbefore, hafter, places_replicate]
  rfl

theorem ofTokens_scientificSection (f : Nat) :
    Layout.ofTokens (NumberToken.ofSection (scientificSection f)) =
      ⟨[], scientificTokens f, []⟩ := by
  have hcore : Layout.IsCore (scientificTokens f) :=
    ⟨⟨.zero, .point :: List.replicate f (.digit .zero) ++ [.exponent true true, .digit .zero], rfl⟩,
      ⟨mantissaTokens f ++ [.exponent true true], .zero, by simp [scientificTokens]⟩⟩
  rw [ofSection_scientificSection, ← List.append_nil (scientificTokens f),
    Layout.ofTokens_of_core hcore (by simp), List.append_nil]

theorem percents_scientificSection (f : Nat) :
    (Layout.ofTokens (NumberToken.ofSection (scientificSection f))).percents = 0 := by
  have hnot : ∀ t ∈ mantissaTokens f, t ≠ .percent :=
    forall_mantissaTokens (by decide) (by decide)
  have hcount : (mantissaTokens f).count .percent = 0 :=
    List.count_eq_zero.2 fun h => hnot _ h rfl
  rw [ofTokens_scientificSection, Layout.percents, scientificTokens]
  simp [List.count_append, hcount]

theorem commas_scientificSection (f : Nat) :
    (Layout.ofTokens (NumberToken.ofSection (scientificSection f))).commas = 0 := by
  rw [ofTokens_scientificSection]
  rfl

/-! ## Digits in zero places -/

theorem fractionCells_zero {ds : List Char} {f : Nat} (h : ds.length = f) :
    (fractionCells (ds.zip (List.replicate f .zero))).flatten = ds := by
  induction ds generalizing f with
  | nil => rfl
  | cons c ds ih =>
    subst h
    rw [List.length_cons, List.replicate_succ, List.zip_cons_cons, fractionCells]
    simp [isTrimmed, ih rfl]

/-- A single digit other than zero fills a place. -/
theorem orZero_fillWhole {n : Nat} (hn : 0 < n) (hlt : n < 10) :
    orZero (fillWhole (ofNat n) [.zero]) = ofNat n := by
  obtain ⟨d, ds, hd, hd', hs⟩ := head_ofNat hn
  have hc : count n ≤ 1 := (count_le_iff (by norm_num)).2 (by simpa using hlt)
  have hds : ds = [] := by
    rw [count, hs, List.length_cons] at hc
    exact List.length_eq_zero_iff.1 (by omega)
  rw [hs, hds]
  simp [fillWhole, shownDigits, char_ne_zero d hd' hd, orZero]

/-! ## The section -/

/-- The digits of a number, brought to `f + 1` of them. -/
def mantissaDigits (d : Decimal) (f : Nat) : Nat := d.coefficient * 10 ^ (f + 1 - d.digitCount)

variable {d : Decimal} {f : Nat}

theorem mantissaDigits_pos (h0 : d.coefficient ≠ 0) : 0 < mantissaDigits d f :=
  mul_ten_pow_pos (Nat.pos_of_ne_zero h0) _

theorem count_mantissaDigits (h0 : d.coefficient ≠ 0) (hf : d.digitCount ≤ f + 1) :
    count (mantissaDigits d f) = f + 1 := by
  rw [mantissaDigits, count_mul_pow (Nat.pos_of_ne_zero h0)]
  unfold Decimal.digitCount at hf ⊢
  omega

/-! The mantissa is the number moved so far that its first digit stands before the point. -/

theorem exponent_shift_adjusted (d : Decimal) :
    (d.shift (-d.adjusted)).exponent = 1 - (d.digitCount : Int) := by
  simp only [Decimal.shift, Decimal.adjusted]
  omega

theorem adjusted_shift_adjusted (d : Decimal) : (d.shift (-d.adjusted)).adjusted = 0 := by
  have hd : (d.shift (-d.adjusted)).digitCount = d.digitCount := rfl
  rw [Decimal.adjusted, exponent_shift_adjusted, hd]
  omega

theorem magnitude_shift_adjusted (hf : d.digitCount ≤ f + 1) :
    (d.shift (-d.adjusted)).magnitude = mantissaDigits d f * (10 : Rat) ^ (-(f : Int)) := by
  have he : ((f + 1 - d.digitCount : Nat) : Int) + -(f : Int) = 1 - d.digitCount := by omega
  rw [Decimal.magnitude_eq, exponent_shift_adjusted, mantissaDigits, ← he,
    zpow_add₀ (by norm_num), zpow_natCast]
  push_cast
  exact (mul_assoc _ _ _).symm

theorem mantissa_eq {c : Decimal.Context} (h0 : d.coefficient ≠ 0) (hf : d.digitCount ≤ f + 1)
    (hp : d.digitCount ≤ c.precision) :
    Scientific.mantissa c d f d.adjusted = .ok ⟨d.negative, mantissaDigits d f, -f⟩ := by
  have hcount := count_pos d.coefficient
  have hscale : c.scale d (-d.adjusted) = .ok (d.shift (-d.adjusted)) := by
    have hmin : Decimal.minExponent = -999999 := rfl
    refine Decimal.Context.fit_eq_self h0 hp ?_ ?_
    · rw [exponent_shift_adjusted, Decimal.Context.least]
      omega
    · rw [adjusted_shift_adjusted]
      decide
  refine bind_eq_ok_iff.2 ⟨_, hscale, ?_⟩
  apply Decimal.Context.roundHalfUp_exact (mantissaDigits_pos h0) (magnitude_shift_adjusted hf)
  · rw [adjusted_shift_adjusted]
    decide
  · rw [adjusted_shift_adjusted]
    decide

theorem split_scientificShape {c : Decimal.Context} (h0 : d.coefficient ≠ 0)
    (hf : d.digitCount ≤ f + 1) (hp : d.digitCount ≤ c.precision) :
    Scientific.split c d (scientificShape f) =
      .ok (⟨d.negative, mantissaDigits d f, -f⟩, d.adjusted) := by
  have hwidth : (scientificShape f).width = 1 := rfl
  have hplaces : (scientificShape f).places = f := List.length_replicate
  have hlt : mantissaDigits d f < Nat.pow 10 (1 + f) := by
    rw [Nat.add_comm]
    exact lt_ten_pow_of_count_le (count_mantissaDigits h0 hf).le
  have hexponent : d.adjusted - (((1 : Nat) : Int) - 1) = d.adjusted := by omega
  unfold Scientific.split
  rw [if_neg (by simpa [Decimal.isZero] using h0), hwidth, hplaces]
  simp only [hexponent]
  refine bind_eq_ok_iff.2 ⟨_, mantissa_eq h0 hf hp, ?_⟩
  exact if_pos hlt

theorem div_ten_pow_lt {n : Nat} (hn : count n = f + 1) : n / 10 ^ f < 10 := by
  have h := lt_pow_count n
  rw [hn, Nat.pow_succ] at h
  exact Nat.div_lt_of_lt_mul h

theorem layout_scientificShape {n : Nat} (h0 : 0 < n) (hn : count n = f + 1) (negative : Bool)
    (e : Int) :
    Scientific.layout ⟨negative, n, -f⟩ e (scientificShape f) =
      ofNat (n / 10 ^ f) ++ '.' :: Digits.fraction f n ++
        'E' :: (if e < 0 then '-' else '+') :: padded 1 e.natAbs := by
  have hlow : 0 < n / 10 ^ f := by
    have h := pow_count_le h0
    rw [hn, Nat.add_sub_cancel] at h
    exact Nat.div_pos h (ten_pow_pos f)
  unfold Scientific.layout
  rw [Decimal.integerDigits, Decimal.wholePart_of_places, Decimal.fractionDigits_of_places]
  simp only [scientificShape, orZero_fillWhole hlow (div_ten_pow_lt hn),
    fractionCells_zero (length_fraction f n)]
  by_cases he : e < 0
  · simp [he]
  · simp [he]

/-- The section shows all digits of a number that it has room for. -/
theorem text_scientificSection (hd : d.negative = false) (h0 : d.coefficient ≠ 0)
    (hf : d.digitCount ≤ f + 1) (hl : Decimal.minExponent ≤ d.adjusted)
    (hm : d.adjusted ≤ Decimal.maxExponent) :
    Number.text d (clean (scientificSection f)) =
      .ok (ofNat (mantissaDigits d f / 10 ^ f) ++ '.' :: Digits.fraction f (mantissaDigits d f) ++
        'E' :: (if d.adjusted < 0 then '-' else '+') :: padded 1 d.adjusted.natAbs) := by
  have hinert : ∀ c ∈ scientificSection f, isInert c = true :=
    forall_scientificSection rfl rfl rfl rfl
  have hplace : (NumberToken.ofSection (scientificSection f)).any NumberToken.isPlace = true := by
    rw [ofSection_scientificSection]
    rfl
  have hprecision : d.digitCount ≤ (Number.context d).precision := Nat.le_add_left _ _
  have hleast : (Number.context d).least ≤ d.exponent := by
    have hp : (Number.context d).precision = 60 + d.digitCount := rfl
    unfold Decimal.adjusted at hl
    unfold Decimal.Context.least
    omega
  have hmagnitude : Number.magnitude (Number.context d) d
      (Layout.ofTokens (NumberToken.ofSection (scientificSection f))) = .ok d := by
    rw [magnitude_eq_shift h0 hprecision hleast] <;>
      simp only [percents_scientificSection, commas_scientificSection]
    · obtain ⟨negative, coefficient, exponent⟩ := d
      obtain rfl : negative = false := hd
      simp
    · simpa using hleast
    · decide
    · decide
    · simpa using hm
  have hbody : Number.bodyText (Number.context d) d (scientificTokens f) =
      .ok (Scientific.layout ⟨d.negative, mantissaDigits d f, -f⟩ d.adjusted
        (scientificShape f)) := by
    unfold Number.bodyText
    rw [fraction_ofBody?_scientific, scientific_ofBody?_scientific]
    refine bind_eq_ok_iff.2 ⟨_, mapError_eq_ok_iff.2 (split_scientificShape h0 hf hprecision), rfl⟩
  rw [text_eq_inLayout hinert hplace]
  rw [ofTokens_scientificSection] at hmagnitude ⊢
  rw [inLayout_eq hd hmagnitude hbody,
    layout_scientificShape (mantissaDigits_pos h0) (count_mantissaDigits h0 hf)]
  simp [Layout.beginning, Layout.ending, NumberToken.texts]

/-- Numbers that the section shows alike have the same digits. -/
theorem mantissaDigits_eq_of_text_eq {w : Decimal} (hd : d.negative = false)
    (hw : w.negative = false) (hd0 : d.coefficient ≠ 0) (hw0 : w.coefficient ≠ 0)
    (hdf : d.digitCount ≤ f + 1) (hwf : w.digitCount ≤ f + 1)
    (hdl : Decimal.minExponent ≤ d.adjusted) (hwl : Decimal.minExponent ≤ w.adjusted)
    (hdm : d.adjusted ≤ Decimal.maxExponent) (hwm : w.adjusted ≤ Decimal.maxExponent)
    (h : Number.text d (clean (scientificSection f)) =
      Number.text w (clean (scientificSection f))) :
    mantissaDigits d f = mantissaDigits w f := by
  have hfirst (x : Decimal) (hx : x.coefficient ≠ 0) (hxf : x.digitCount ≤ f + 1) :
      (ofNat (mantissaDigits x f / 10 ^ f)).length = 1 := by
    have hlt := div_ten_pow_lt (count_mantissaDigits hx hxf)
    exact le_antisymm ((count_le_iff Nat.one_pos).2 hlt) (count_pos _)
  rw [text_scientificSection hd hd0 hdf hdl hdm, text_scientificSection hw hw0 hwf hwl hwm] at h
  have h := Except.ok.inj h
  obtain ⟨h, -⟩ := List.append_inj h (by
    simp only [List.length_append, List.length_cons, length_fraction, hfirst d hd0 hdf,
      hfirst w hw0 hwf])
  obtain ⟨hwhole, hfraction⟩ := List.append_inj h ((hfirst d hd0 hdf).trans (hfirst w hw0 hwf).symm)
  have hdiv := ofNat_injective hwhole
  have hmod := congrArg value (List.cons.inj hfraction).2
  rw [value_fraction, value_fraction] at hmod
  rw [← Nat.div_add_mod (mantissaDigits d f) (10 ^ f), hdiv, hmod, Nat.div_add_mod]

end Worksheet.Format
