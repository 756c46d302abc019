-- SUMMARY: Commas and percent signs behind a section scale its number exactly, and equal numbers are shown alike.
import Worksheet.Proofs.Format.Normalized
import Worksheet.Proofs.Format.Number
import Worksheet.Proofs.Format.Scan

/-!
# Exact Scaling

How many digits a number keeps while it is scaled depends on how it is written. No digit is lost
in any case, so what a body without a slash shows depends on the value only:
`Equal.bodyText_eq`. Commas and percent signs behind the last place are factors of this value, and
the percent signs are shown behind the number: `text_scaled`.
-/

namespace Worksheet.Format

open NumberToken

variable {c c' : Decimal.Context} {m m' v w : Decimal} {s : List Char}

/-! ## The same number in two contexts -/

/-- Two decimals of one value and sign, each with room for its digits in its own context. -/
structure Equal (c : Decimal.Context) (m : Decimal) (c' : Decimal.Context) (m' : Decimal) :
    Prop where
  negative_eq : m.negative = m'.negative
  magnitude_eq : m.magnitude = m'.magnitude
  digitCount_le : m.digitCount ≤ c.precision
  digitCount_le' : m'.digitCount ≤ c'.precision
  adjusted_lt : m.coefficient ≠ 0 → m.adjusted < Decimal.maxExponent

namespace Equal

theorem coefficient_eq_zero_iff (h : Equal c m c' m') :
    m.coefficient = 0 ↔ m'.coefficient = 0 := by
  rw [← Decimal.magnitude_eq_zero_iff, h.magnitude_eq, Decimal.magnitude_eq_zero_iff]

theorem adjusted_eq (h : Equal c m c' m') (h0 : m.coefficient ≠ 0) : m.adjusted = m'.adjusted :=
  Decimal.adjusted_eq_of_magnitude_eq h0 h.magnitude_eq

theorem roundHalfUp_eq (h : Equal c m c' m') {places : Nat}
    (hplaces : (places : Int) ≤ Decimal.maxExponent) :
    c.roundHalfUp m places = c'.roundHalfUp m' places := by
  have hpos : 0 < c.precision := (Digits.count_pos _).trans_le h.digitCount_le
  have hpos' : 0 < c'.precision := (Digits.count_pos _).trans_le h.digitCount_le'
  have hadjusted' : m'.coefficient ≠ 0 → m'.adjusted < Decimal.maxExponent := by
    intro h0
    have h0' := mt h.coefficient_eq_zero_iff.1 h0
    exact h.adjusted_eq h0' ▸ h.adjusted_lt h0'
  rw [Decimal.Context.roundHalfUp_eq hpos hplaces h.adjusted_lt,
    Decimal.Context.roundHalfUp_eq hpos' hplaces hadjusted', h.negative_eq, h.magnitude_eq]

theorem text_eq (h : Equal c m c' m') {body : List NumberToken} (hbody : body.length ≤ 100000) :
    Fixed.text c m body = Fixed.text c' m' body := by
  have hmax : Decimal.maxExponent = 999999 := rfl
  have hplaces := Fixed.length_fractionPlaces_le body
  unfold Fixed.text
  rw [h.roundHalfUp_eq (by omega)]

/-- A number other than zero has the same leading digits in both contexts. -/
theorem mantissa_eq (h : Equal c m c' m') (h0 : m.coefficient ≠ 0) {places : Nat} {e : Int}
    (hplaces : places ≤ 100000) (hlow : e ≤ m.adjusted + 1) (hhigh : m.adjusted ≤ e + 100000) :
    Scientific.mantissa c m places e = Scientific.mantissa c' m' places e := by
  have hmax : Decimal.maxExponent = 999999 := rfl
  have hmin : Decimal.minExponent = -999999 := rfl
  have hadjusted := h.adjusted_eq h0
  have hle := h.digitCount_le
  have hle' := h.digitCount_le'
  have hleast : c.least = Decimal.minExponent - c.precision + 1 := rfl
  have hleast' : c'.least = Decimal.minExponent - c'.precision + 1 := rfl
  have hexponent : m.adjusted = m.exponent + m.digitCount - 1 := rfl
  have hexponent' : m'.adjusted = m'.exponent + m'.digitCount - 1 := rfl
  rw [Scientific.mantissa_eq_floor places hle (by omega) (by omega) (by omega),
    Scientific.mantissa_eq_floor places hle' (by omega) (by omega) (by omega), h.negative_eq,
    h.magnitude_eq]

theorem split_eq (h : Equal c m c' m') {s : Scientific.Shape} (hplaces : s.places ≤ 100000)
    (hwidth : s.width ≤ 100000) : Scientific.split c m s = Scientific.split c' m' s := by
  have hmax : Decimal.maxExponent = 999999 := rfl
  have hpos := s.width_pos
  unfold Scientific.split Decimal.isZero
  by_cases h0 : m.coefficient = 0
  · rw [decide_eq_true h0, decide_eq_true (h.coefficient_eq_zero_iff.1 h0), if_pos rfl, if_pos rfl,
      h.roundHalfUp_eq (by omega)]
  · have hfirst := h.mantissa_eq h0 (e := m.adjusted - (s.width - 1)) hplaces (by omega) (by omega)
    have hsecond := h.mantissa_eq h0 (e := m.adjusted - (s.width - 1) + 1) hplaces (by omega)
      (by omega)
    rw [decide_eq_false h0, decide_eq_false (mt h.coefficient_eq_zero_iff.2 h0),
      ← h.adjusted_eq h0]
    simp only [Bool.false_eq_true, if_false, hfirst, hsecond]

/-- What a body without a slash shows depends on the value of the number only. -/
theorem bodyText_eq (h : Equal c m c' m') {body : List NumberToken} (hslash : .slash ∉ body)
    (hbody : body.length < 100000) : Number.bodyText c m body = Number.bodyText c' m' body := by
  unfold Number.bodyText
  rw [Fraction.ofBody?_eq_none hslash]
  cases hshape : Scientific.Shape.ofBody? body with
  | none => exact h.text_eq hbody.le
  | some s =>
    obtain ⟨hplaces, hwidth⟩ := Scientific.length_ofBody?_le hshape
    simp only [Scientific.text]
    rw [h.split_eq (by omega) (by omega)]

/-- A body without a slash shows the number. -/
theorem exists_text (h : Equal c m c' m') {body : List NumberToken} (hslash : .slash ∉ body)
    (hbody : body.length < 100000) : ∃ t, Number.bodyText c m body = .ok t := by
  have hmax : Decimal.maxExponent = 999999 := rfl
  have hmin : Decimal.minExponent = -999999 := rfl
  have hdigits := h.digitCount_le
  have hpos : 0 < c.precision := (Digits.count_pos _).trans_le hdigits
  unfold Number.bodyText
  rw [Fraction.ofBody?_eq_none hslash]
  cases hshape : Scientific.Shape.ofBody? body with
  | none =>
    have hplaces := Fixed.length_fractionPlaces_le body
    have hround := Decimal.Context.roundHalfUp_eq hpos
      (by omega : ((Fixed.fractionPlaces body).length : Int) ≤ Decimal.maxExponent) h.adjusted_lt
    exact ⟨_, bind_eq_ok_iff.2 ⟨_, mapError_eq_ok_iff.2 hround, rfl⟩⟩
  | some s =>
    obtain ⟨hplaces, hwidth⟩ := Scientific.length_ofBody?_le hshape
    have hrest : s.rest = s.width - 1 + s.places := rfl
    have hleast : c.least = Decimal.minExponent - c.precision + 1 := rfl
    have hwidth0 := s.width_pos
    obtain ⟨r, hr⟩ : ∃ r, Scientific.split c m s = .ok r := by
      by_cases h0 : m.coefficient = 0
      · exact ⟨_, Scientific.split_eq_of_zero h0 hpos (by omega)⟩
      · obtain ⟨n, x, hsplit, -⟩ := Scientific.split_eq (s := s) h0 hdigits (by omega) (by omega)
        exact ⟨_, hsplit⟩
    exact ⟨_, bind_eq_ok_iff.2 ⟨r, mapError_eq_ok_iff.2 hr, rfl⟩⟩

end Equal

/-! ## Commas and percent signs behind a section -/

/-- So many commas, and so many percent signs behind them. -/
def scale (k p : Nat) : List Char := List.replicate k ',' ++ List.replicate p '%'

theorem forall_scale {P : Char → Prop} (hcomma : P ',') (hpercent : P '%') (k p : Nat) :
    ∀ c ∈ scale k p, P c := by
  intro c hc
  rcases List.mem_append.1 hc with hc | hc
  · exact List.eq_of_mem_replicate hc ▸ hcomma
  · exact List.eq_of_mem_replicate hc ▸ hpercent

theorem scan_scale (k p : Nat) :
    scan false (scale k p) = Layout.scaling k p := by
  have hscan := scan_append (forall_scale (P := (isSingle · = true)) rfl rfl k p) []
  simp only [List.append_nil, scan, scale, List.map_append, List.map_replicate] at hscan
  exact hscan

theorem find?_append_scale (k p : Nat)
    (h : Text.find? "general".toList (Text.lowerAll s) = none) :
    Text.find? "general".toList (Text.lowerAll (s ++ scale k p)) = none := by
  have hlower : ∀ c ∈ scale k p, Text.lower c = [c] ∧ c ∉ "general".toList :=
    forall_scale ⟨rfl, by decide⟩ ⟨rfl, by decide⟩ k p
  rw [Text.lowerAll_append]
  apply Text.find?_append_eq_none (by decide) h
  intro x hx
  obtain ⟨c, hc, hx⟩ := List.mem_flatMap.1 hx
  obtain ⟨hself, hnot⟩ := hlower c hc
  rw [hself] at hx
  exact List.mem_singleton.1 hx ▸ hnot

/-! ## The section -/

/-- The scan of the section reaches its last character, which is a place. -/
def EndsWithPlace (s : List Char) : Prop :=
  ∃ (ts : List NumberToken) (place : Placeholder), Reads s ts [place.char]

theorem scan_place (place : Placeholder) (t : List Char) :
    scan false (place.char :: t) = .digit place :: scan false t := by
  cases place with
  | zero => exact scan_cons_single rfl t
  | hash => exact scan_cons_single rfl t
  | question => exact scan_cons_single rfl t

/-- What follows a place at the end of a section is read on its own. -/
theorem EndsWithPlace.exists_ofSection (h : EndsWithPlace s) :
    ∃ ts place, ∀ t, ofSection (s ++ t) = ts ++ .digit place :: scan false t := by
  obtain ⟨ts, place, hreads⟩ := h
  refine ⟨ts, place, fun t => ?_⟩
  obtain ⟨a, rfl, hreads'⟩ := hreads.replace (t := place.char :: t) (by simp) (by simp)
  have hscan := hreads'.scan_eq
  rw [scan_place] at hscan
  rw [List.append_assoc]
  exact hscan

/-- The body of a section that ends with a place ends it, whatever scale follows. -/
theorem EndsWithPlace.exists_ofTokens (h : EndsWithPlace s) (hslash : '/' ∉ s) :
    ∃ lead core, ofSection s = lead ++ core ∧ .slash ∉ core ∧ ∀ k p,
      (ofSection (s ++ scale k p)).any isPlace = true ∧
        Layout.ofTokens (ofSection (s ++ scale k p)) =
          ⟨lead, core, Layout.scaling k p⟩ := by
  obtain ⟨ts, place, hsection⟩ := h.exists_ofSection
  obtain ⟨lead, core, hsplit, hlead, hcore⟩ := Layout.exists_lead ts place
  have hall : ofSection s = lead ++ core := by
    have hnil := hsection []
    rw [List.append_nil] at hnil
    exact hnil.trans hsplit
  have hslash' : .slash ∉ lead ++ core := by
    intro hmem
    have htexts : '/' ∈ texts (ofSection s) :=
      List.mem_flatMap.2 ⟨.slash, hall ▸ hmem, List.mem_singleton_self '/'⟩
    exact hslash ((texts_ofSection_sublist s).subset htexts)
  refine ⟨lead, core, hall, fun hmem => hslash' (List.mem_append_right lead hmem), fun k p => ?_⟩
  have htail : ∀ t ∈ Layout.scaling k p, t.isPlace = false ∧ t ≠ .slash :=
    Layout.forall_scaling ⟨rfl, by decide⟩ ⟨rfl, by decide⟩
  have hscaled : ofSection (s ++ scale k p) = lead ++ (core ++ Layout.scaling k p) := by
    rw [hsection, scan_scale, ← List.append_assoc lead, ← hsplit, List.append_assoc]
    rfl
  rw [hscaled]
  constructor
  · rw [List.any_append, List.any_append, hcore.any_isPlace, Bool.true_or, Bool.or_true]
  · apply Layout.ofTokens_of_slash_notMem hlead hcore fun t ht => (htail t ht).1
    intro hmem
    rcases List.mem_append.1 hmem with hmem | hmem
    · exact hslash' (List.mem_append_right lead hmem)
    · exact (htail _ hmem).2 rfl

theorem magnitude_scaled {k p : Nat} (h : w.value = v.value * 100 ^ p / 1000 ^ k) :
    w.magnitude = v.magnitude * 10 ^ (2 * p - 3 * k : Int) := by
  rw [← Decimal.abs_value, h, scale_factor, abs_mul, Decimal.abs_value,
    abs_of_pos (Decimal.ten_zpow_pos _)]

theorem signText_scaled {k p : Nat} (h : w.value = v.value * 100 ^ p / 1000 ^ k) :
    signText w.value = signText v.value := by
  have hsign : w.value < 0 ↔ v.value < 0 := by
    have hpos := Decimal.ten_zpow_pos (2 * p - 3 * k)
    rw [h, scale_factor]
    exact ⟨fun hlt => neg_of_mul_neg_left hlt hpos.le, fun hlt => mul_neg_of_neg_of_pos hlt hpos⟩
  simp only [signText, hsign]

/-- The scale of a layout is a factor of the number, and its percent signs are shown. -/
theorem inLayout_scaled {lead core : List NumberToken} (hslash : .slash ∉ core)
    (hcore : core.length < 50000) (hpercents : (lead ++ core).count .percent < 50000)
    {k p : Nat} (hk : k < 50000) (hp : p < 50000)
    (hw : w.value = v.value * 100 ^ p / 1000 ^ k)
    (hvdigits : v.digitCount < 50000) (hvadjusted : v.adjusted.natAbs < 50000)
    (hwdigits : w.digitCount < 50000) (hwadjusted : w.adjusted.natAbs < 50000) :
    ∃ t, Number.inLayout w ⟨lead, core, Layout.scaling 0 0⟩ = .ok t ∧
      Number.inLayout v ⟨lead, core, Layout.scaling k p⟩ = .ok (t ++ List.replicate p '%') := by
  have hmax : Decimal.maxExponent = 999999 := rfl
  obtain ⟨m, hnegative, hm, hdigits, hadjusted, htext⟩ := exists_inLayout_of_size (d := w)
    (l := ⟨lead, core, Layout.scaling 0 0⟩) (by omega) (by omega)
    (by rw [Layout.percents_scaling]; omega) (by rw [Layout.commas_scaling]; omega)
  obtain ⟨m', hnegative', hm', hdigits', -, htext'⟩ := exists_inLayout_of_size (d := v)
    (l := ⟨lead, core, Layout.scaling k p⟩) (by omega) (by omega)
    (by rw [Layout.percents_scaling]; omega) (by rw [Layout.commas_scaling]; omega)
  rw [Layout.percents_scaling, Layout.commas_scaling] at hm hm'
  -- Both layouts scale their number to the same one.
  have hequal : Equal (Number.context w) m (Number.context v) m' := by
    refine ⟨hnegative.trans hnegative'.symm, ?_, hdigits, hdigits',
      fun h0 => (hadjusted h0).trans (by omega)⟩
    rw [hm, hm', magnitude_scaled hw, mul_assoc, ← Decimal.ten_zpow_add]
    congr 2
    omega
  obtain ⟨t, ht⟩ := hequal.exists_text hslash (by omega)
  refine ⟨signText w.value ++ Layout.beginning ⟨lead, core, Layout.scaling 0 0⟩ ++ t, ?_, ?_⟩
  · rw [htext, ht]
    exact congrArg Except.ok (List.append_nil _)
  · rw [htext', ← hequal.bodyText_eq hslash (by omega), ht, signText_scaled hw,
      ← Layout.ending_scaling lead core k]
    rfl

/-- The scale is a factor of the number, and its percent signs are shown behind the number.
    Without a scale equal numbers are shown alike. -/
theorem text_scaled (h : EndsWithPlace s) (hslash : '/' ∉ s)
    (hgeneral : Text.find? "general".toList (Text.lowerAll s) = none) (hs : s.length < 50000)
    {k p : Nat} (hk : k < 50000) (hp : p < 50000)
    (hw : w.value = v.value * 100 ^ p / 1000 ^ k)
    (hvdigits : v.digitCount < 50000) (hvadjusted : v.adjusted.natAbs < 50000)
    (hwdigits : w.digitCount < 50000) (hwadjusted : w.adjusted.natAbs < 50000) :
    ∃ t, Number.text w s = .ok t ∧
      Number.text v (s ++ scale k p) = .ok (t ++ List.replicate p '%') := by
  obtain ⟨lead, core, hall, hcore, htokens⟩ := h.exists_ofTokens hslash
  obtain ⟨hplace, hlayout⟩ := htokens 0 0
  obtain ⟨hplace', hlayout'⟩ := htokens k p
  have hnil : s ++ scale 0 0 = s := List.append_nil s
  rw [hnil] at hplace hlayout
  have hsize : (lead ++ core).length < 50000 := hall ▸ (length_ofSection_le s).trans_lt hs
  have hbody : core.length < 50000 := by
    rw [List.length_append] at hsize
    omega
  rw [text_of_any_isPlace hgeneral hplace, hlayout,
    text_of_any_isPlace (find?_append_scale k p hgeneral) hplace', hlayout']
  exact inLayout_scaled hcore hbody (List.count_le_length.trans_lt hsize) hk hp hw hvdigits
    hvadjusted hwdigits hwadjusted

/-- The number is scaled to one that is carried to a fourth digit before the point. -/
theorem text_scaled_engineering :
    EndsWithPlace "##0.00E+0".toList ∧
      (⟨true, 9999995000, -6⟩ : Decimal).value =
        (⟨true, 99999950, -3⟩ : Decimal).value * 100 ^ 1 / 1000 ^ 1 ∧
      Number.text ⟨true, 99999950, -3⟩ "##0.00E+0,%".toList = .ok "-100.00E+2%".toList := by
  have hends : EndsWithPlace "##0.00E+0".toList :=
    ⟨_, .zero, .append_left (a := "##0.00".toList) (List.all_eq_true.1 rfl) (.mark rfl (.done ['0']))⟩
  have hvalue : (⟨true, 9999995000, -6⟩ : Decimal).value =
      (⟨true, 99999950, -3⟩ : Decimal).value * 100 ^ 1 / 1000 ^ 1 := by decide +kernel
  obtain ⟨t, ht, htext⟩ := text_scaled hends (by decide) (by decide +kernel) (by decide)
    (by decide) (by decide) hvalue (by decide +kernel) (by decide +kernel) (by decide +kernel)
    (by decide +kernel)
  obtain rfl : t = "-100.00E+2".toList := Except.ok.inj (ht.symm.trans (by with_unfolding_all rfl))
  exact ⟨hends, hvalue, htext⟩

end Worksheet.Format
