-- SUMMARY: Every section shows every number of ordinary size, unless its denominator is taken for a numeral and is none.
import Worksheet.Proofs.Format.Fraction
import Worksheet.Proofs.Format.Scientific
import Worksheet.Proofs.Ratio
import Worksheet.Proofs.Rounding

/-!
# Numbers Always Show

Whatever the characters of a section are, and in whatever order, there is a text for a number
of up to 309 digits before the point: scaling stays within the range of exponents, and no
numerator or denominator becomes too long to be written. Only a denominator of digit-like
characters is read as a numeral, and if one of them has no place value, there is no text:
`Number.text_total`.
-/

namespace Worksheet

open Digits

namespace Format

open NumberToken

/-! ## Layouts -/

namespace Layout

/-- A layout has all tokens, in their order. -/
theorem append_eq (ts : List NumberToken) :
    (ofTokens ts).lead ++ ((ofTokens ts).body ++ (ofTokens ts).tail) = ts := by
  have hts := List.takeWhile_append_dropWhile (p := (!·.isPlace)) (l := ts)
  have hlast : ((ts.dropWhile (!·.isPlace)).reverse.dropWhile (!·.isPlace)).reverse ++
      ((ts.dropWhile (!·.isPlace)).reverse.takeWhile (!·.isPlace)).reverse =
        ts.dropWhile (!·.isPlace) := by
    rw [← List.reverse_append, List.takeWhile_append_dropWhile, List.reverse_reverse]
  unfold ofTokens
  simp only
  split
  · rw [List.append_assoc, List.takeWhile_append_dropWhile, hlast, hts]
  · rw [hlast, hts]

theorem lead_ofTokens (ts : List NumberToken) :
    (ofTokens ts).lead = ts.takeWhile (!·.isPlace) := by
  unfold ofTokens
  simp only
  split <;> rfl

theorem body_sublist (ts : List NumberToken) : (ofTokens ts).body.Sublist ts := by
  conv_rhs => rw [← append_eq ts]
  exact (List.sublist_append_left _ _).trans (List.sublist_append_right _ _)

theorem commas_le (ts : List NumberToken) : (ofTokens ts).commas ≤ ts.length := by
  have htail : (ofTokens ts).tail.Sublist ts := by
    conv_rhs => rw [← append_eq ts]
    exact (List.sublist_append_right _ _).trans (List.sublist_append_right _ _)
  exact ((List.takeWhile_sublist _).trans htail).length_le

theorem percents_ofTokens (ts : List NumberToken) :
    (ofTokens ts).percents = ts.count .percent := by
  rw [percents, List.append_assoc, append_eq]

theorem percents_le (ts : List NumberToken) : (ofTokens ts).percents ≤ ts.length :=
  (percents_ofTokens ts).trans_le List.count_le_length

end Layout

/-! ## Scaling -/

/-- Powers of ten that have a numeral are within the range of exponents, and their inverses. -/
theorem limit_lt_exponents : (Digits.limit : Int) < Decimal.maxExponent ∧
    Decimal.minExponent < -(Digits.limit : Int) := by decide

/-- Scaling by a section of ordinary length stays within the range of exponents. -/
theorem Number.exists_magnitude {c : Decimal.Context} {d : Decimal} {l : Layout} {k n : Nat}
    (hp : 0 < c.precision) (hpercents : l.percents ≤ n) (hcommas : l.commas ≤ n)
    (hk : k + 3 * n ≤ Digits.limit) (h : d.magnitude ≤ 10 ^ k) :
    ∃ m, Number.magnitude c d l = .ok m ∧ m.magnitude ≤ 10 ^ (k + 2 * n) := by
  have hlimits := limit_lt_exponents
  have hleast := Decimal.Context.least_le hp
  rw [← zpow_natCast] at h ⊢
  obtain ⟨a, ha, ha'⟩ := Decimal.Context.exists_abs hp (by omega) (by omega) h
  obtain ⟨b, hb, hb'⟩ := Decimal.Context.exists_scale (e := 2 * l.percents) hp (by omega)
    (by omega) ha'
  obtain ⟨m, hm, hm'⟩ := Decimal.Context.exists_scale (e := -(3 * l.commas)) hp (by omega)
    (by omega) hb'
  have hrange : ¬(Decimal.maxExponent < 2 * l.percents ∨ Decimal.maxExponent < 3 * l.commas) := by
    omega
  refine ⟨m, bind_eq_ok_iff.2 ⟨a, ha, ?_⟩, hm'.trans (Decimal.ten_zpow_le (by omega))⟩
  rw [if_neg hrange]
  exact bind_eq_ok_iff.2 ⟨b, hb, hm⟩

/-! ## Fixed-point numbers -/

theorem Fixed.length_fractionPlaces_le (body : List NumberToken) :
    (Fixed.fractionPlaces body).length ≤ body.length := by
  unfold Fixed.fractionPlaces
  cases h : afterPoint? body with
  | none => exact Nat.zero_le _
  | some rest => exact (length_places_le rest).trans (afterPoint?_sublist h).length_le

variable {c : Decimal.Context} {d : Decimal} {k : Nat}

theorem adjusted_lt_maxExponent (h : d.magnitude ≤ 10 ^ k) (hk : k ≤ Digits.limit)
    (h0 : d.coefficient ≠ 0) : d.adjusted < Decimal.maxExponent := by
  have hlimits := limit_lt_exponents
  have hadj : d.adjusted ≤ k := Decimal.adjusted_le h0 (by rwa [zpow_natCast])
  omega

theorem Fixed.exists_text (hp : 0 < c.precision) {body : List NumberToken}
    (hbody : body.length ≤ Digits.limit) (hk : k ≤ Digits.limit) (h : d.magnitude ≤ 10 ^ k) :
    ∃ t, Fixed.text c d body = .ok t := by
  have hlimits := limit_lt_exponents
  have hlength := Fixed.length_fractionPlaces_le body
  have hplaces : ((Fixed.fractionPlaces body).length : Int) ≤ Decimal.maxExponent := by omega
  have hround := Decimal.Context.roundHalfUp_eq hp hplaces (adjusted_lt_maxExponent h hk)
  exact ⟨_, bind_eq_ok_iff.2 ⟨_, mapError_eq_ok_iff.2 hround, rfl⟩⟩

/-! ## Scientific notation -/

namespace Scientific

/-- A mantissa has a result for any exponent that leaves it small. -/
theorem exists_mantissa (hp : 0 < c.precision) {places w : Nat} {e j : Int}
    (hplaces : places ≤ Digits.limit) (hj : j - e = w) (hw : w ≤ Digits.limit)
    (h : d.magnitude ≤ 10 ^ j) : ∃ m, mantissa c d places e = .ok m := by
  have hlimits := limit_lt_exponents
  have hleast := Decimal.Context.least_le hp
  obtain ⟨a, ha, ha'⟩ := Decimal.Context.exists_scale (e := -e) hp (by omega) (by omega) h
  have hsmall : a.magnitude ≤ 10 ^ w := by
    rw [← zpow_natCast, ← hj]
    exact ha'
  have hround := Decimal.Context.roundHalfUp_eq hp (by omega : (places : Int) ≤ _)
    (adjusted_lt_maxExponent hsmall hw)
  exact ⟨_, bind_eq_ok_iff.2 ⟨a, ha, hround⟩⟩

theorem exists_split (hp : 0 < c.precision) {s : Shape} (hplaces : s.places ≤ Digits.limit)
    (hwidth : s.width ≤ Digits.limit) : ∃ r, split c d s = .ok r := by
  have hlimits := limit_lt_exponents
  have hpos : 1 ≤ s.width := le_max_right _ _
  have hd := (Decimal.magnitude_lt_ten_zpow d).le
  unfold split
  by_cases h0 : d.isZero = true
  · have hzero : d.coefficient = 0 := by simpa [Decimal.isZero] using h0
    have hround := Decimal.Context.roundHalfUp_eq (d := d) hp (by omega : (s.places : Int) ≤ _)
      (fun hne => absurd hzero hne)
    rw [if_pos h0]
    exact ⟨_, bind_eq_ok_iff.2 ⟨_, hround, rfl⟩⟩
  · obtain ⟨m, hm⟩ := exists_mantissa (e := d.adjusted - ((s.width : Int) - 1)) (w := s.width)
      hp hplaces (by omega) hwidth hd
    obtain ⟨m', hm'⟩ := exists_mantissa (e := d.adjusted - ((s.width : Int) - 1) + 1)
      (w := s.width - 1) hp hplaces (by omega) (by omega) hd
    rw [if_neg h0]
    by_cases hlt : m.coefficient < Nat.pow 10 (s.width + s.places)
    · exact ⟨_, bind_eq_ok_iff.2 ⟨m, hm, if_pos hlt⟩⟩
    · exact ⟨_, bind_eq_ok_iff.2 ⟨m, hm, (if_neg hlt).trans (bind_eq_ok_iff.2 ⟨m', hm', rfl⟩)⟩⟩

theorem places_eq_fractionPlaces (ts : List NumberToken) :
    ((afterPoint? ts).map places).getD [] = Fixed.fractionPlaces ts := by
  unfold Fixed.fractionPlaces
  cases afterPoint? ts <;> rfl

theorem length_ofBody?_le {body : List NumberToken} {s : Shape} (h : Shape.ofBody? body = some s) :
    s.places ≤ body.length ∧ s.width ≤ max body.length 1 := by
  have hmantissa := (List.takeWhile_sublist (l := body) (!·.isMark)).length_le
  unfold Shape.ofBody? at h
  simp only at h
  split at h
  · cases h
    refine ⟨?_, max_le_max ?_ le_rfl⟩
    · rw [Shape.places, places_eq_fractionPlaces]
      exact (Fixed.length_fractionPlaces_le _).trans hmantissa
    · exact (length_places_le _).trans ((List.takeWhile_sublist _).length_le.trans hmantissa)
  · cases h

theorem exists_text (hp : 0 < c.precision) {body : List NumberToken} {s : Shape}
    (hs : Shape.ofBody? body = some s) (hbody : body.length ≤ Digits.limit) :
    ∃ t, text c d s = .ok t := by
  obtain ⟨hplaces, hwidth⟩ := length_ofBody?_le hs
  have hlimit : 1 ≤ Digits.limit := by decide
  obtain ⟨r, hr⟩ := exists_split (d := d) hp (hplaces.trans hbody)
    (hwidth.trans (max_le hbody hlimit))
  exact ⟨_, bind_eq_ok_iff.2 ⟨r, mapError_eq_ok_iff.2 hr, rfl⟩⟩

end Scientific

/-! ## Fractions -/

namespace Fraction

variable {s : Shape}

/-- The denominator is taken for a numeral, but one of its characters has no place value. -/
def Shape.isUnreadable (s : Shape) : Bool :=
  s.isFixed && s.denominator.any fun x => (Text.digitValue? x).isNone

theorem Shape.isFixed_iff : s.isFixed = true ↔ s.denominator ≠ [] ∧
    (∀ x ∈ s.denominator, Text.isDigitLike x = true) ∧ s.denominator.head? ≠ some '0' := by
  simp [Shape.isFixed, and_assoc]

theorem natural?_eq_none (h : s.isUnreadable = true) : Integer.natural? s.denominator = none := by
  obtain ⟨hfixed, hnone⟩ := Bool.and_eq_true_iff.1 h
  obtain ⟨x, hx, hv⟩ := List.any_eq_true.1 hnone
  exact Integer.natural?_eq_none (Shape.isFixed_iff.1 hfixed).2.1 fun hdecimals =>
    hdecimals x hx (Option.isNone_iff_eq_none.1 hv)

theorem exists_denominator (hfixed : s.isFixed = true) (h : s.isUnreadable = false)
    (hlen : s.denominator.length ≤ Digits.limit) :
    ∃ n, Integer.natural? s.denominator = some n ∧ n < 10 ^ s.denominator.length := by
  have hdecimals : Text.AreDecimals s.denominator := by
    rw [Shape.isUnreadable, hfixed, Bool.true_and] at h
    intro x hx hnone
    have hsome := List.any_eq_false.1 h x hx
    rw [hnone] at hsome
    exact hsome rfl
  exact ⟨_, Integer.natural?_of_areDecimals hdecimals (Shape.isFixed_iff.1 hfixed).1 hlen,
    Text.number_lt hdecimals⟩

theorem magnitude_remainder_le (d : Decimal) (whole : Nat) :
    (remainder d whole).magnitude ≤ d.magnitude := by
  unfold remainder
  split
  · exact le_rfl
  · split
    · rw [Decimal.magnitude_of_coefficient_eq_zero rfl]
      exact Decimal.magnitude_nonneg d
    · rw [Decimal.magnitude_eq, Decimal.magnitude_eq]
      refine mul_le_mul_of_nonneg_right ?_ (Decimal.ten_zpow_pos _).le
      exact_mod_cast Nat.sub_le _ _

/-- The fraction over a fixed denominator. -/
theorem exists_ratio_fixed (hp : 0 < c.precision) (hfixed : s.isFixed = true)
    (h : s.isUnreadable = false) (hk : k + s.denominator.length + 2 ≤ Digits.limit)
    (hd : d.magnitude ≤ 10 ^ k) :
    ∃ r, ratio c s d = .ok r ∧ count r.numerator ≤ Digits.limit ∧
      count r.denominator ≤ Digits.limit := by
  have hlimits := limit_lt_exponents
  have hleast := Decimal.Context.least_le hp
  obtain ⟨n, hn, hlt⟩ := exists_denominator hfixed h (by omega)
  have hnmag : (Decimal.ofNat n).magnitude ≤ 10 ^ (s.denominator.length : Int) := by
    rw [Decimal.magnitude_eq, zpow_natCast]
    simp only [Decimal.ofNat, zpow_zero, mul_one]
    exact_mod_cast hlt.le
  rw [← zpow_natCast] at hd
  obtain ⟨p, hp', hpmag⟩ := Decimal.Context.exists_mul hp (by omega) (by omega) hd hnmag
  rw [← Nat.cast_add, zpow_natCast] at hpmag
  have hplaces : ((0 : Nat) : Int) ≤ Decimal.maxExponent := by decide
  have hround := Decimal.Context.roundHalfUp_eq hp hplaces
    (adjusted_lt_maxExponent hpmag (by omega))
  have hfloor : ⌊p.magnitude * 10 ^ 0 + 1 / 2⌋₊ ≤ 10 ^ (k + s.denominator.length) := by
    rw [pow_zero, mul_one]
    exact Decimal.floor_add_half_le (by exact_mod_cast hpmag)
  refine ⟨⟨_, n⟩, ?_, (count_le_succ hfloor).trans (by omega), ?_⟩
  · unfold ratio
    rw [if_pos hfixed, hn]
    refine bind_eq_ok_iff.2 ⟨_, mapError_eq_ok_iff.2 (bind_eq_ok_iff.2 ⟨p, hp', hround⟩), rfl⟩
  · exact (count_le_succ hlt.le).trans (by omega)

theorem numerator_le {x n k l : Nat} (hx : x ≤ 10 ^ l) (hn : n ≤ (10 ^ k + 1) * x + 1) :
    n ≤ 10 ^ (k + l + 1) := by
  have hpow := ten_pow_pos l
  have hle := Nat.pow_le_pow_right (by decide : 0 < 10) (Nat.le_add_left l k)
  calc n ≤ (10 ^ k + 1) * 10 ^ l + 1 := hn.trans (Nat.succ_le_succ (Nat.mul_le_mul_left _ hx))
    _ = 10 ^ (k + l) + 10 ^ l + 1 := by rw [Nat.add_mul, Nat.one_mul, ← Nat.pow_add]
    _ ≤ 10 ^ (k + l) * 10 := by omega

/-- The nearest fraction. -/
theorem exists_ratio_nearest (hfixed : ¬s.isFixed = true)
    (hk : k + s.denominator.length + 3 ≤ Digits.limit) (hd : d.magnitude ≤ 10 ^ k) :
    ∃ r, ratio c s d = .ok r ∧ count r.numerator ≤ Digits.limit ∧
      count r.denominator ≤ Digits.limit := by
  have hbound : 0 < Nat.pow 10 (max s.denominator.length 1) - 1 := by
    have hpow := Nat.pow_le_pow_right (by decide : 0 < 10) (le_max_right s.denominator.length 1)
    rw [Nat.pow_eq]
    omega
  have hdigits : Nat.pow 10 (max s.denominator.length 1) - 1 ≤ 10 ^ (s.denominator.length + 1) :=
    (Nat.sub_le _ _).trans (Nat.pow_le_pow_right (by decide) (by omega))
  have hd' : d.magnitude ≤ (10 ^ k : Nat) := by exact_mod_cast hd
  obtain ⟨hden, hnum⟩ := Ratio.nearest_bounds hbound (Decimal.magnitude_nonneg d) hd'
  have hden' := hden.trans hdigits
  refine ⟨_, if_neg hfixed, ?_, (count_le_succ hden').trans (by omega)⟩
  exact (count_le_succ (numerator_le hden' hnum)).trans (by omega)

/-- A fraction of numbers that are not too long. -/
theorem exists_layout {whole : Nat} {r : Ratio} (hw : count (whole + 1) ≤ Digits.limit)
    (hw' : count whole ≤ Digits.limit) (hn : count r.numerator ≤ Digits.limit)
    (hd : count r.denominator ≤ Digits.limit) : ∃ t, layout s whole r = .ok t := by
  have hnumber (b : Bool) : ∃ ds, digits (if b = true then whole + 1 else whole) = .ok ds := by
    cases b with
    | false => exact ⟨_, digits_eq_ofNat hw'⟩
    | true => exact ⟨_, digits_eq_ofNat hw⟩
  obtain ⟨ds, hds⟩ := hnumber (!s.whole.isEmpty && r.numerator = r.denominator)
  unfold layout
  simp only
  split
  · exact ⟨_, bind_eq_ok_iff.2 ⟨ds, hds, rfl⟩⟩
  · rw [digits_eq_ofNat hn, digits_eq_ofNat hd]
    simp only [bind, Except.bind] at hds ⊢
    rw [hds]
    simp only
    split <;> exact ⟨_, rfl⟩

/-- A number has a text in a shape, unless the denominator is unreadable. -/
theorem exists_text (hp : 0 < c.precision) (h : s.isUnreadable = false)
    (hk : k + s.denominator.length + 3 ≤ Digits.limit) (hd : d.magnitude ≤ 10 ^ k) :
    ∃ t, text c d s = .ok t := by
  have hwhole : s.wholePart d ≤ 10 ^ k := by
    unfold Shape.wholePart
    split
    · exact Nat.zero_le _
    · exact_mod_cast (Decimal.wholePart_le_magnitude d).trans hd
  have hrest := (magnitude_remainder_le d (s.wholePart d)).trans hd
  obtain ⟨r, hr, hn, hden⟩ : ∃ r, ratio c s (remainder d (s.wholePart d)) = .ok r ∧
      count r.numerator ≤ Digits.limit ∧ count r.denominator ≤ Digits.limit := by
    by_cases hfixed : s.isFixed = true
    · exact exists_ratio_fixed hp hfixed h (by omega) hrest
    · exact exists_ratio_nearest hfixed hk hrest
  have hsucc : s.wholePart d + 1 ≤ 10 ^ (k + 1) := by
    have hpow := ten_pow_pos k
    rw [Nat.pow_succ]
    omega
  obtain ⟨t, ht⟩ := exists_layout (s := s) ((count_le_succ hsucc).trans (by omega))
    ((count_le_succ hwhole).trans (by omega)) hn hden
  exact ⟨t, bind_eq_ok_iff.2 ⟨r, hr, ht⟩⟩

theorem text_eq_error (h : s.isUnreadable = true) : text c d s = .error .unreadableNumeral := by
  have hfixed := (Bool.and_eq_true_iff.1 h).1
  refine bind_eq_error_iff.2 (.inl ?_)
  unfold ratio
  rw [if_pos hfixed, natural?_eq_none h]

theorem texts_ofBody?_sublist {body : List NumberToken} (h : Shape.ofBody? body = some s) :
    s.denominator.Sublist (texts body) := by
  unfold Shape.ofBody? at h
  simp only at h
  split at h
  · cases h
  · rename_i t after heq
    cases h
    exact texts_sublist (sublist_of_dropWhile heq)

end Fraction

/-! ## Places after the point -/

theorem length_fractionDigits {r : Decimal} {places : Nat} (h : c.roundHalfUp d places = .ok r) :
    r.fractionDigits.length = places := by
  have hplaces : (-r.exponent).toNat = places := by
    rw [Decimal.Context.exponent_roundHalfUp h]
    omega
  rw [Decimal.fractionDigits, length_fraction, hplaces]

/-- A mantissa has a digit for each place after the point. -/
theorem Scientific.length_fractionDigits {s : Shape} {r : Decimal × Int}
    (h : split c d s = .ok r) : r.1.fractionDigits.length = s.places := by
  have hmantissa {e : Int} {m : Decimal} (hm : mantissa c d s.places e = .ok m) :
      m.fractionDigits.length = s.places := by
    obtain ⟨a, -, ha⟩ := bind_eq_ok_iff.1 hm
    exact Format.length_fractionDigits ha
  unfold split at h
  split at h
  · obtain ⟨m, hm, hr⟩ := bind_eq_ok_iff.1 h
    cases hr
    exact Format.length_fractionDigits hm
  · obtain ⟨m, hm, hr⟩ := bind_eq_ok_iff.1 h
    split at hr
    · cases hr
      exact hmantissa hm
    · obtain ⟨m', hm', hr⟩ := bind_eq_ok_iff.1 hr
      cases hr
      exact hmantissa hm'

/-! ## Sections -/

/-- The body of a layout is a fraction with an unreadable denominator. -/
def Layout.isUnreadable (l : Layout) : Bool :=
  (Fraction.Shape.ofBody? l.body).any Fraction.Shape.isUnreadable

/-- The section shows fractions over a denominator that is taken for a numeral and is none. -/
def isUnreadable (s : List Char) : Bool :=
  (Text.find? "general".toList (Text.lowerAll s)).isNone && (ofSection s).any isPlace &&
    (Layout.ofTokens (ofSection s)).isUnreadable

/-- A section whose digit-like characters all have a place value is readable. -/
theorem isUnreadable_eq_false {s : List Char}
    (h : ∀ x ∈ s, Text.isDigitLike x = true → Text.digitValue? x ≠ none) :
    isUnreadable s = false := by
  rw [Bool.eq_false_iff]
  intro hs
  have hlayout := (Bool.and_eq_true_iff.1 hs).2
  unfold Layout.isUnreadable at hlayout
  cases hshape : Fraction.Shape.ofBody? (Layout.ofTokens (ofSection s)).body with
  | none =>
    rw [hshape] at hlayout
    cases hlayout
  | some shape =>
    rw [hshape, Option.any_some] at hlayout
    obtain ⟨hfixed, hnone⟩ := Bool.and_eq_true_iff.1 hlayout
    obtain ⟨x, hx, hv⟩ := List.any_eq_true.1 hnone
    have hsublist := (Fraction.texts_ofBody?_sublist hshape).trans
      ((texts_sublist (Layout.body_sublist _)).trans (texts_ofSection_sublist s))
    exact h x (hsublist.subset hx) ((Fraction.Shape.isFixed_iff.1 hfixed).2.1 x hx)
      (Option.isNone_iff_eq_none.1 hv)

/-- There is a text, or an unreadable numeral in place of it. -/
def IsTextUnless (unreadable : Bool) (r : Except Fault (List Char)) : Prop :=
  if unreadable = true then r = .error .unreadableNumeral else ∃ t, r = .ok t

namespace IsTextUnless

variable {unreadable : Bool} {r : Except Fault (List Char)}

theorem of_exists (hu : unreadable = false) (h : ∃ t, r = .ok t) : IsTextUnless unreadable r := by
  rw [IsTextUnless, hu, if_neg Bool.false_ne_true]
  exact h

theorem map (h : IsTextUnless unreadable r) (f : List Char → List Char) :
    IsTextUnless unreadable (r >>= fun t => pure (f t)) := by
  cases unreadable with
  | false =>
    obtain ⟨t, rfl⟩ := h
    exact ⟨f t, rfl⟩
  | true =>
    obtain rfl : r = .error .unreadableNumeral := h
    rfl

end IsTextUnless

theorem General.exists_text (hk : k ≤ Digits.limit) (h : d.magnitude ≤ 10 ^ k) :
    ∃ t, General.text d = .ok t := by
  have hlimits := limit_lt_exponents
  have hp : 0 < General.context.precision := by decide
  have hleast := Decimal.Context.least_le hp
  rw [← zpow_natCast] at h
  obtain ⟨r, hr, -⟩ := Decimal.Context.exists_fit hp (by omega) (by omega) h
  by_cases h0 : r.isZero = true
  · exact ⟨_, bind_eq_ok_iff.2 ⟨r, mapError_eq_ok_iff.2 hr, if_pos h0⟩⟩
  · exact ⟨_, bind_eq_ok_iff.2 ⟨r, mapError_eq_ok_iff.2 hr, if_neg h0⟩⟩

namespace Number

theorem isTextUnless_bodyText {body : List NumberToken} (hp : 0 < c.precision)
    (hbody : k + (texts body).length + 3 ≤ Digits.limit) (h : d.magnitude ≤ 10 ^ k) :
    IsTextUnless ((Fraction.Shape.ofBody? body).any Fraction.Shape.isUnreadable)
      (bodyText c d body) := by
  have hlength := length_le_length_texts body
  unfold bodyText
  cases hfraction : Fraction.Shape.ofBody? body with
  | some s =>
    have hden := (Fraction.texts_ofBody?_sublist hfraction).length_le
    by_cases hs : s.isUnreadable = true
    · exact (if_pos hs).mpr (Fraction.text_eq_error hs)
    · have hs := Bool.eq_false_iff.2 hs
      exact .of_exists hs (Fraction.exists_text hp hs (by omega) h)
  | none =>
    cases hscientific : Scientific.Shape.ofBody? body with
    | some s => exact .of_exists rfl (Scientific.exists_text hp hscientific (by omega))
    | none => exact .of_exists rfl (Fixed.exists_text hp (by omega) (by omega) h)

theorem isTextUnless_inLayout {l : Layout} {n : Nat} (hpercents : l.percents ≤ n)
    (hcommas : l.commas ≤ n) (hbody : (texts l.body).length ≤ n)
    (hk : k + 3 * n + 3 ≤ Digits.limit) (h : d.magnitude ≤ 10 ^ k) :
    IsTextUnless l.isUnreadable (inLayout d l) := by
  have hp : 0 < (context d).precision := Nat.add_pos_left (by decide) _
  obtain ⟨m, hm, hmag⟩ := exists_magnitude hp hpercents hcommas (by omega) h
  have hroom : k + 2 * n + (texts l.body).length + 3 ≤ Digits.limit := by omega
  have hlift : Decimal.lift (magnitude (context d) d l) = .ok m := mapError_eq_ok_iff.2 hm
  unfold inLayout
  simp only [hlift]
  exact (isTextUnless_bodyText hp hroom hmag).map _

/-- Every number below `10 ^ 309` has a text in every section of up to 255 characters, unless the
    section is unreadable. Its digits after the point are as many as the places for them. -/
theorem text_total (d : Decimal) (s : List Char) (hd : d.magnitude < 10 ^ 309)
    (hs : s.length ≤ 255) :
    (if isUnreadable s = true then text d s = .error .unreadableNumeral
      else ∃ t, text d s = .ok t) ∧
    (∀ (c : Decimal.Context) (m r : Decimal) (body : List NumberToken),
      c.roundHalfUp m (Fixed.fractionPlaces body).length = .ok r →
        r.fractionDigits.length = (Fixed.fractionPlaces body).length) ∧
    (∀ (c : Decimal.Context) (m : Decimal) (shape : Scientific.Shape) (r : Decimal × Int),
      Scientific.split c m shape = .ok r → r.1.fractionDigits.length = shape.places) := by
  refine ⟨?_, fun c m r body => length_fractionDigits, fun c m shape r =>
    Scientific.length_fractionDigits⟩
  have hlimit : Digits.limit = 4300 := rfl
  have hgeneral := General.exists_text (by omega) hd.le
  change IsTextUnless (isUnreadable s) (text d s)
  unfold text inSection
  cases hfind : Text.find? "general".toList (Text.lowerAll s) with
  | some i =>
    have hu : isUnreadable s = false := by
      rw [isUnreadable, hfind]
      rfl
    obtain ⟨t, ht⟩ := hgeneral
    exact .of_exists hu ⟨_, bind_eq_ok_iff.2 ⟨t, ht, rfl⟩⟩
  | none =>
    by_cases hplace : (ofSection s).any isPlace = true
    · have hu : isUnreadable s = (Layout.ofTokens (ofSection s)).isUnreadable := by
        rw [isUnreadable, hfind, hplace]
        rfl
      have hlength := length_ofSection_le s
      have hbody := (texts_sublist (Layout.body_sublist (ofSection s))).length_le.trans
        (texts_ofSection_sublist s).length_le
      simp only [hplace, if_true, hu]
      exact isTextUnless_inLayout ((Layout.percents_le _).trans hlength)
        ((Layout.commas_le _).trans hlength) hbody (by omega) hd.le
    · have hu : isUnreadable s = false := by
        simp only [isUnreadable, Bool.eq_false_iff.2 hplace, Bool.and_false, Bool.false_and]
      simp only [hplace, Bool.false_eq_true, if_false]
      refine .of_exists hu ?_
      split
      · obtain ⟨t, ht⟩ := hgeneral
        exact ⟨_, bind_eq_ok_iff.2 ⟨t, ht, rfl⟩⟩
      · exact ⟨_, rfl⟩

theorem magnitude_three_halves_lt : (⟨false, 15, -1⟩ : Decimal).magnitude < 10 ^ 309 := by
  have hten : (⟨false, 15, -1⟩ : Decimal).magnitude < 10 := by decide +kernel
  exact hten.trans_le (le_self_pow₀ (by norm_num) (by decide))

/-- A denominator in the digits of another script. -/
theorem text_total_three_halves :
    (⟨false, 15, -1⟩ : Decimal).magnitude < 10 ^ 309 ∧ ['#', ' ', '?', '/', '٨'].length ≤ 255 ∧
      ∃ t, text ⟨false, 15, -1⟩ ['#', ' ', '?', '/', '٨'] = .ok t := by
  have hd := magnitude_three_halves_lt
  have hs : ['#', ' ', '?', '/', '٨'].length ≤ 255 := by decide
  have hread : isUnreadable ['#', ' ', '?', '/', '٨'] = false := by decide
  have h := (text_total ⟨false, 15, -1⟩ ['#', ' ', '?', '/', '٨'] hd hs).1
  rw [hread] at h
  exact ⟨hd, hs, h⟩

/-- A superscript is digit-like, so it is taken for a denominator, and has no place value. -/
theorem text_over_superscript :
    (⟨false, 15, -1⟩ : Decimal).magnitude < 10 ^ 309 ∧ ['?', '/', '²'].length ≤ 255 ∧
      text ⟨false, 15, -1⟩ ['?', '/', '²'] = .error .unreadableNumeral := by
  refine ⟨magnitude_three_halves_lt, by decide, ?_⟩
  with_unfolding_all rfl

end Number

end Format

end Worksheet
