-- SUMMARY: A section with an exponent shows a number rounded half up to as many digits as the mantissa has places.
import Worksheet.Proofs.Format.Filling
import Worksheet.Proofs.Format.Layout

/-!
# Normalized Mantissas

The first place of the mantissa of a section such as `##0.0#E+00` is for the leading digit of the
number. If rounding gives it one digit too many, the number is just below a power of ten, and it
is rounded anew for the next exponent: to that power, as before. So the mantissa and the exponent
denote the number rounded half up once, `split_eq`, and a reader of the section's text finds them
there: `Section.text_normalized`.
-/

namespace Worksheet.Format.Scientific

open Digits Reading NumberToken
open Decimal (halfUp)

variable {c : Decimal.Context} {d : Decimal} {s : Shape}

/-! ## Rounding twice -/

section

variable {y : Rat} {j : Nat}

theorem floor_bounds (hlow : 10 ^ j ≤ y) (hhigh : y < 10 ^ (j + 1)) :
    10 ^ j ≤ ⌊y + 1 / 2⌋₊ ∧ ⌊y + 1 / 2⌋₊ ≤ 10 ^ (j + 1) := by
  constructor
  · refine Nat.le_floor ?_
    push_cast
    linarith
  · exact Decimal.floor_add_half_le (by exact_mod_cast hhigh.le)

/-- A number that is rounded to a power of ten is rounded to it with one digit less too. -/
theorem floor_div_ten (hhigh : y < 10 ^ (j + 1)) (h : 10 ^ (j + 1) ≤ ⌊y + 1 / 2⌋₊) :
    ⌊y / 10 + 1 / 2⌋₊ = 10 ^ j := by
  have hround : ((10 ^ (j + 1) : Nat) : Rat) ≤ y + 1 / 2 :=
    (Nat.le_floor_iff' (pow_pos (by decide) _).ne').1 h
  have hpos : (1 : Rat) ≤ 10 ^ j := one_le_pow₀ (by norm_num)
  push_cast at hround
  rw [pow_succ] at hround hhigh
  refine (Nat.floor_eq_iff (by linarith)).2 ⟨?_, ?_⟩
  · push_cast
    linarith
  · push_cast
    linarith

end

/-! ## Mantissa and exponent -/

theorem mantissa_eq_floor (places : Nat) {e : Int} (hp : d.digitCount ≤ c.precision)
    (hplaces : (places : Int) ≤ Decimal.maxExponent) (hl : c.least ≤ d.exponent - e)
    (hm : d.adjusted - e < Decimal.maxExponent) :
    mantissa c d places e =
      .ok ⟨d.negative, ⌊d.magnitude * 10 ^ (places - e) + 1 / 2⌋₊, -places⟩ := by
  have hprecision : 0 < c.precision := (count_pos _).trans_le hp
  obtain ⟨m, hscale, hnegative, hmagnitude, -⟩ := Decimal.Context.exists_scale_eq (k := -e) hp
    (Decimal.Context.holds_shift (by omega) (by omega))
  have hround := Decimal.Context.roundHalfUp_shift hprecision hplaces hmagnitude (by omega)
  rw [hnegative, mul_assoc, ← zpow_natCast, ← Decimal.ten_zpow_add, neg_add_eq_sub] at hround
  exact bind_eq_ok_iff.2 ⟨m, hscale, hround⟩

/-- Moved so that its leading digit stands at `j`, a number has `j + 1` digits before the point. -/
theorem magnitude_bounds (h0 : d.coefficient ≠ 0) {k : Int} {j : Nat} (h : d.adjusted + k = j) :
    10 ^ j ≤ d.magnitude * 10 ^ k ∧ d.magnitude * 10 ^ k < 10 ^ (j + 1) := by
  constructor
  · have hle := mul_le_mul_of_nonneg_right (Decimal.ten_zpow_adjusted_le h0)
      (Decimal.ten_zpow_pos k).le
    rwa [← Decimal.ten_zpow_add, h, zpow_natCast] at hle
  · have hlt := mul_lt_mul_of_pos_right (Decimal.magnitude_lt_ten_zpow d) (Decimal.ten_zpow_pos k)
    have hsum : d.adjusted + 1 + k = ((j + 1 : Nat) : Int) := by omega
    rwa [← Decimal.ten_zpow_add, hsum, zpow_natCast] at hlt

/-- A mantissa and its exponent denote a rounded number. -/
theorem halfUp_eq (x : Rat) (places : Nat) (e : Int) :
    halfUp (10 ^ (e - places)) x = ⌊x * 10 ^ (places - e) + 1 / 2⌋₊ / 10 ^ places * 10 ^ e := by
  have hdiv : x / 10 ^ (e - places) = x * 10 ^ (places - e) := by
    rw [div_eq_mul_inv, ← zpow_neg, neg_sub]
  have hunit : (10 : Rat) ^ (e - places) = 10 ^ e / 10 ^ places := by
    rw [zpow_sub₀ (by norm_num), zpow_natCast]
  rw [halfUp, hdiv, hunit, div_mul_eq_mul_div, mul_div_assoc]

/-- How many digits the mantissa has behind its first one. -/
def Shape.rest (s : Shape) : Nat := s.width - 1 + s.places

theorem Shape.width_pos (s : Shape) : 0 < s.width :=
  Nat.lt_of_lt_of_le Nat.one_pos (Nat.le_max_right _ _)

/-- A mantissa is the number moved and rounded half up, if there is one. -/
theorem mantissa_of_ok {places : Nat} {e : Int} {m : Decimal} (h0 : d.coefficient ≠ 0)
    (hp : d.digitCount ≤ c.precision) (hl : c.least ≤ d.exponent - e)
    (h : mantissa c d places e = .ok m) :
    m = ⟨d.negative, ⌊d.magnitude * 10 ^ (places - e) + 1 / 2⌋₊, -places⟩ := by
  obtain ⟨a, hscale, hround⟩ := bind_eq_ok_iff.1 h
  have hm := Decimal.Context.adjusted_le_of_fit (d := d.shift (-e)) h0 hscale
  have hself := Decimal.Context.fit_eq_self (d := d.shift (-e)) h0 hp hl hm
  rw [Decimal.Context.scale, hself] at hscale
  obtain rfl := Except.ok.inj hscale
  rw [Decimal.Context.roundHalfUp_of_ok hround, Decimal.magnitude_shift, mul_assoc,
    ← zpow_natCast, ← Decimal.ten_zpow_add, neg_add_eq_sub]
  rfl

/-- The mantissa of a number other than zero has full width, and with its exponent it denotes the
    number rounded half up to this width. -/
theorem split_of_ok {r : Decimal × Int} (h0 : d.coefficient ≠ 0) (hp : d.digitCount ≤ c.precision)
    (hl : c.least ≤ s.width - 1 - d.digitCount) (h : split c d s = .ok r) :
    ∃ n, r.1 = ⟨d.negative, n, -s.places⟩ ∧ 10 ^ s.rest ≤ n ∧ n < 10 ^ (s.rest + 1) ∧
      (n : Rat) / 10 ^ s.places * 10 ^ r.2 =
        halfUp (10 ^ (d.adjusted - s.rest)) d.magnitude := by
  have hwidth := s.width_pos
  have hrest : s.rest = s.width - 1 + s.places := rfl
  have hexponent : d.adjusted = d.exponent + d.digitCount - 1 := rfl
  obtain ⟨e, he⟩ : ∃ e : Int, d.adjusted - (s.width - 1) = e := ⟨_, rfl⟩
  have hunit : d.adjusted - s.rest = e - s.places := by omega
  have hdigits : s.width + s.places = s.rest + 1 := by omega
  obtain ⟨hlow, hhigh⟩ := magnitude_bounds h0 (k := s.places - e) (j := s.rest) (by omega)
  obtain ⟨hmin, hmax⟩ := floor_bounds hlow hhigh
  unfold split at h
  rw [if_neg (by simpa [Decimal.isZero] using h0)] at h
  simp only [he, hdigits] at h
  obtain ⟨m, hm, h⟩ := bind_eq_ok_iff.1 h
  obtain rfl := mantissa_of_ok h0 hp (by omega) hm
  rw [hunit, halfUp_eq]
  split at h
  · rename_i hcarry
    obtain rfl := Except.ok.inj h
    exact ⟨_, rfl, hmin, hcarry, rfl⟩
  · rename_i hcarry
    -- The second rounding starts from the number itself.
    have htop := le_antisymm hmax (not_lt.1 hcarry)
    have hten : d.magnitude * 10 ^ (s.places - (e + 1)) =
        d.magnitude * 10 ^ (s.places - e) / 10 := by
      rw [← sub_sub, zpow_sub_one₀ (by norm_num), ← mul_assoc, ← div_eq_mul_inv]
    obtain ⟨m, hm, h⟩ := bind_eq_ok_iff.1 h
    obtain rfl := mantissa_of_ok h0 hp (by omega) hm
    obtain rfl := Except.ok.inj h
    rw [hten, floor_div_ten hhigh htop.ge]
    refine ⟨10 ^ s.rest, rfl, le_rfl, Nat.pow_lt_pow_right (by decide) (Nat.lt_succ_self _), ?_⟩
    rw [htop, Decimal.ten_zpow_add, zpow_one]
    push_cast
    ring

/-- A number other than zero has a mantissa and an exponent within the range of exponents. -/
theorem split_eq (h0 : d.coefficient ≠ 0) (hp : d.digitCount ≤ c.precision)
    (hsize : (s.rest : Int) < Decimal.maxExponent)
    (hl : c.least ≤ s.width - 1 - d.digitCount) :
    ∃ n x, split c d s = .ok (⟨d.negative, n, -s.places⟩, x) ∧ 10 ^ s.rest ≤ n ∧
      n < 10 ^ (s.rest + 1) ∧
      (n : Rat) / 10 ^ s.places * 10 ^ x = halfUp (10 ^ (d.adjusted - s.rest)) d.magnitude := by
  have hwidth := s.width_pos
  have hrest : s.rest = s.width - 1 + s.places := rfl
  have hexponent : d.adjusted = d.exponent + d.digitCount - 1 := rfl
  obtain ⟨e, he⟩ : ∃ e : Int, d.adjusted - (s.width - 1) = e := ⟨_, rfl⟩
  have hfirst := mantissa_eq_floor s.places (e := e) hp (by omega) (by omega) (by omega)
  have hsecond := mantissa_eq_floor s.places (e := e + 1) hp (by omega) (by omega) (by omega)
  obtain ⟨r, hr⟩ : ∃ r, split c d s = .ok r := by
    unfold split
    rw [if_neg (by simpa [Decimal.isZero] using h0)]
    simp only [he, bind_eq_ok_iff, hfirst, Except.ok.injEq, exists_eq_left']
    split
    · exact ⟨_, rfl⟩
    · exact ⟨_, bind_eq_ok_iff.2 ⟨_, hsecond, rfl⟩⟩
  obtain ⟨n, hn, hbounds⟩ := split_of_ok h0 hp hl hr
  exact ⟨n, r.2, by rw [hr, ← hn], hbounds⟩

/-- Zero has the mantissa zero and the exponent zero. -/
theorem split_eq_of_zero (h0 : d.coefficient = 0) (hp : 0 < c.precision)
    (hplaces : (s.places : Int) ≤ Decimal.maxExponent) :
    split c d s = .ok (⟨d.negative, 0, -s.places⟩, 0) := by
  have hround := Decimal.Context.roundHalfUp_eq hp hplaces fun hne => absurd h0 hne
  rw [Decimal.Context.floor_of_coefficient_eq_zero h0] at hround
  unfold split
  rw [if_pos (by simpa [Decimal.isZero] using h0)]
  exact bind_eq_ok_iff.2 ⟨_, hround, rfl⟩

/-! ## The section -/

/-- A shape with places in the mantissa before the point and in the exponent. -/
structure Section extends Shape where
  whole_ne : whole ≠ []
  exponent_ne : exponent ≠ []

namespace Section

def body (s : Section) : List NumberToken :=
  s.whole.map .digit ++ pointTokens s.fraction? ++
    .exponent s.upper s.signed :: s.exponent.map .digit

def chars (s : Section) : List Char := texts s.body

/-- What stands between the mantissa and the digits of an exponent. -/
def mark (s : Section) (x : Int) : List Char :=
  (if s.upper then 'E' else 'e') :: if x < 0 then ['-'] else if s.signed then ['+'] else []

/-- The mantissa and the exponent that the section shows, and what they denote. -/
structure Shows (s : Section) (v : Decimal) (mantissa exponent : List Char) (μ : Rat) (x : Int) :
    Prop where
  /-- The mantissa has digits and blanks, and a point if the section has one. -/
  exists_parts : ∃ whole decimals, mantissa = whole ++ behindPoint s.fraction? decimals ∧
    ∀ c ∈ whole ++ decimals, c.isDigit = true ∨ c = ' '
  decimal?_mantissa : decimal? mantissa = some μ
  digitCount_decimals_le : digitCount (decimals mantissa) ≤ s.places
  areDigits_exponent : AreDigits exponent
  value_exponent : value exponent = x.natAbs
  length_le : s.exponent.length ≤ exponent.length
  of_zero : v.value = 0 → μ = 0 ∧ x = 0
  bounds : v.value ≠ 0 → 10 ^ (s.whole.length - 1) ≤ μ ∧ μ < 10 ^ s.whole.length
  mul_eq : v.value ≠ 0 → μ * 10 ^ x =
    halfUp (10 ^ (v.adjusted + 1 - (s.whole.length + s.places))) v.magnitude

theorem forall_body {s : Section} {P : NumberToken → Prop} (hplace : ∀ p, P (.digit p))
    (hpoint : P .point) (hmark : P (.exponent s.upper s.signed)) : ∀ t ∈ s.body, P t := by
  refine List.forall_mem_append.2
    ⟨List.forall_mem_append.2 ⟨?_, ?_⟩, List.forall_mem_cons.2 ⟨?_, ?_⟩⟩
  · exact forall_map_digit hplace
  · exact forall_pointTokens hplace hpoint
  · exact hmark
  · exact forall_map_digit hplace

theorem isCore_body (s : Section) : Layout.IsCore s.body := by
  constructor
  · obtain ⟨p, ps, hwhole⟩ := List.exists_cons_of_ne_nil s.whole_ne
    rw [body, hwhole]
    exact ⟨p, _, rfl⟩
  · have h := Layout.exists_append_digit
      (s.whole.map .digit ++ pointTokens s.fraction? ++ [.exponent s.upper s.signed]) s.exponent_ne
    rwa [List.append_assoc] at h

theorem ofTokens_body (s : Section) : Layout.ofTokens s.body = ⟨[], s.body, []⟩ := by
  have h : Layout.ofTokens (s.body ++ []) = _ := Layout.ofTokens_of_core s.isCore_body (by simp)
  rwa [List.append_nil] at h

theorem ofBody?_body (s : Section) : Shape.ofBody? s.body = some s.toShape := by
  have hnot : ∀ t ∈ s.whole.map .digit ++ pointTokens s.fraction?, (!t.isMark) = true := by
    refine List.forall_mem_append.2 ⟨forall_map_digit fun _ => rfl, ?_⟩
    exact forall_pointTokens (P := fun t => (!t.isMark) = true) (fun _ => rfl) rfl
  have hpoint : .point ∉ s.whole.map NumberToken.digit := by simp
  have hfraction : (s.fraction?.map (·.map NumberToken.digit)).map places = s.fraction? := by
    cases s.fraction? with
    | none => rfl
    | some ps => exact congrArg some (places_map_digit ps)
  unfold Shape.ofBody? body
  rw [List.dropWhile_append_of_pos hnot, List.takeWhile_append_of_pos hnot]
  simp only [isMark, List.dropWhile_cons, List.takeWhile_cons, Bool.not_true, Bool.false_eq_true,
    if_false, List.append_nil, beforePoint_append hpoint, afterPoint?_append hpoint,
    places_map_digit, hfraction]

theorem bodyText_eq (s : Section) (c : Decimal.Context) (m : Decimal) :
    Number.bodyText c m s.body = Scientific.text c m s.toShape := by
  have hslash : .slash ∉ s.body := fun h =>
    forall_body (P := (· ≠ .slash)) (by simp) (by simp) (by simp) _ h rfl
  unfold Number.bodyText
  rw [Fraction.ofBody?_eq_none hslash, s.ofBody?_body]

theorem width_eq (s : Section) : s.width = s.whole.length :=
  Nat.max_eq_left (List.length_pos_iff.2 s.whole_ne)

/-- A mantissa and an exponent are read as they were laid out. -/
theorem exists_layout (s : Section) (negative : Bool) (n : Nat) (x : Int) :
    ∃ mantissa exponent,
      layout ⟨negative, n, -s.places⟩ x s.toShape = mantissa ++ s.mark x ++ exponent ∧
      (∃ whole decimals, mantissa = whole ++ behindPoint s.fraction? decimals ∧
        ∀ c ∈ whole ++ decimals, c.isDigit = true ∨ c = ' ') ∧
      decimal? mantissa = some ((n : Rat) / 10 ^ s.places) ∧
      digitCount (decimals mantissa) ≤ s.places ∧ AreDigits exponent ∧
      value exponent = x.natAbs ∧ s.exponent.length ≤ exponent.length := by
  have hds := areDigits_fraction s.places n
  obtain ⟨k, j, hcells, htrims⟩ := exists_trims (length_fraction s.places n)
  have hmem : ∀ c ∈ orZero (fillWhole (ofNat (n / 10 ^ s.places)) s.whole),
      c.isDigit = true ∨ c = ' ' :=
    fun c => mem_orZero fun c => mem_fillWhole (areDigits_ofNat _)
  have hpoint : '.' ∉ orZero (fillWhole (ofNat (n / 10 ^ s.places)) s.whole) :=
    fun h => absurd (hmem '.' h) (by decide)
  have hwhole := natural?_orZero (natural?_fillWhole (n / 10 ^ s.places) s.whole)
  have hcomma : (orZero (fillWhole (ofNat (n / 10 ^ s.places)) s.whole)).filter (· ≠ ',') =
      orZero (fillWhole (ofNat (n / 10 ^ s.places)) s.whole) :=
    List.filter_eq_self.2 (forall_ne_of_notMem fun h => absurd (hmem ',' h) (by decide))
  refine ⟨orZero (fillWhole (ofNat (n / 10 ^ s.places)) s.whole) ++
    behindPoint s.fraction? ((Digits.fraction s.places n).take k ++ List.replicate j ' '),
    padded (max s.exponent.length 1) x.natAbs, ?_,
    ⟨_, _, rfl, List.forall_mem_append.2 ⟨hmem, fun c => Trims.mem_shown hds⟩⟩,
    htrims.decimal?_behindPoint hpoint (hcomma.symm ▸ hwhole) j,
    (htrims.digitCount_decimals_behindPoint hds hpoint j).trans ?_,
    areDigits_padded _ _, value_padded _ _, (Nat.le_max_left _ _).trans (le_length_padded _ _)⟩
  · unfold layout
    rw [Decimal.integerDigits, Decimal.wholePart_of_places, Decimal.fractionDigits_of_places]
    cases hfraction : s.fraction? with
    | none => simp [behindPoint, mark]
    | some ps =>
      have hps : s.fraction?.getD [] = ps := by rw [hfraction, Option.getD_some]
      rw [hps] at hcells
      simp [behindPoint, mark, hcells]
  · exact htrims.le_length.trans_eq (length_fraction _ _)

theorem length_le (s : Section) : s.whole.length + s.places ≤ s.chars.length := by
  have htexts := length_le_length_texts s.body
  have hpoint : s.places ≤ (pointTokens s.fraction?).length := by
    unfold Shape.places
    cases s.fraction? with
    | none => exact Nat.zero_le _
    | some ps => simp [pointTokens]
  simp only [body, List.length_append, List.length_map] at htexts
  exact (by omega : s.whole.length + s.places ≤ _).trans htexts

theorem bounds_of_rest {s : Section} {n : Nat} (hlow : 10 ^ s.rest ≤ n)
    (hhigh : n < 10 ^ (s.rest + 1)) :
    (10 : Rat) ^ (s.whole.length - 1) ≤ n / 10 ^ s.places ∧
      (n : Rat) / 10 ^ s.places < 10 ^ s.whole.length := by
  have hwidth := s.width_pos
  have hrest : s.rest = s.whole.length - 1 + s.places := by rw [← s.width_eq]; rfl
  have hnext : s.rest + 1 = s.whole.length + s.places := by
    rw [s.width_eq] at hwidth
    omega
  have hpos : (0 : Rat) < 10 ^ s.places := by positivity
  rw [le_div_iff₀ hpos, div_lt_iff₀ hpos, ← pow_add, ← pow_add, ← hrest, ← hnext]
  exact ⟨by exact_mod_cast hlow, by exact_mod_cast hhigh⟩

/-- What the section shows depends on the number without its sign only. -/
theorem Shows.of_magnitude_eq {s : Section} {a b : Decimal} {mantissa exponent : List Char}
    {μ : Rat} {x : Int} (h : a.magnitude = b.magnitude) (hs : s.Shows a mantissa exponent μ x) :
    s.Shows b mantissa exponent μ x := by
  have hzero : a.value = 0 ↔ b.value = 0 := by
    rw [Decimal.value_eq_zero_iff, Decimal.value_eq_zero_iff, ← Decimal.magnitude_eq_zero_iff, h,
      Decimal.magnitude_eq_zero_iff]
  refine { hs with
    of_zero := fun hb => hs.of_zero (hzero.2 hb)
    bounds := fun hb => hs.bounds (mt hzero.1 hb)
    mul_eq := fun hb => ?_ }
  have ha : a.coefficient ≠ 0 := mt Decimal.value_eq_zero_iff.2 (mt hzero.1 hb)
  rw [← Decimal.adjusted_eq_of_magnitude_eq ha h, ← h]
  exact hs.mul_eq (mt hzero.1 hb)

theorem exists_bodyText (s : Section) {m : Decimal} (hp : m.digitCount ≤ c.precision)
    (hsize : (s.rest : Int) < Decimal.maxExponent)
    (hl : c.least ≤ s.width - 1 - m.digitCount) :
    ∃ mantissa exponent μ x,
      Number.bodyText c m s.body = .ok (mantissa ++ s.mark x ++ exponent) ∧
        s.Shows m mantissa exponent μ x := by
  have hrest : s.rest = s.width - 1 + s.places := rfl
  have htext {n : Nat} {x : Int} (h : split c m s.toShape = .ok (⟨m.negative, n, -s.places⟩, x)) :
      Number.bodyText c m s.body = .ok (layout ⟨m.negative, n, -s.places⟩ x s.toShape) := by
    rw [s.bodyText_eq]
    exact bind_eq_ok_iff.2 ⟨_, mapError_eq_ok_iff.2 h, rfl⟩
  by_cases h0 : m.coefficient = 0
  · have hvalue := Decimal.value_eq_zero_iff.2 h0
    have hsplit := split_eq_of_zero (s := s.toShape) h0 ((count_pos _).trans_le hp) (by omega)
    obtain ⟨mantissa, exponent, hlayout, hparts, hmantissa, hplaces, hdigits, hexponent, hle⟩ :=
      s.exists_layout m.negative 0 0
    exact ⟨mantissa, exponent, 0, 0, hlayout ▸ htext hsplit, hparts, by simpa using hmantissa, hplaces,
      hdigits, hexponent, hle, fun _ => ⟨rfl, rfl⟩, fun hne => absurd hvalue hne,
      fun hne => absurd hvalue hne⟩
  · have hvalue := mt Decimal.value_eq_zero_iff.1 h0
    obtain ⟨n, x, hsplit, hlow, hhigh, hrounded⟩ := split_eq (s := s.toShape) h0 hp hsize hl
    obtain ⟨mantissa, exponent, hlayout, hparts, hmantissa, hplaces, hdigits, hexponent, hle⟩ :=
      s.exists_layout m.negative n x
    have hwidth := s.width_pos
    have hwidth' := s.width_eq
    have hunit : m.adjusted - s.rest = m.adjusted + 1 - (s.whole.length + s.places) := by omega
    exact ⟨mantissa, exponent, n / 10 ^ s.places, x, hlayout ▸ htext hsplit, hparts, hmantissa,
      hplaces, hdigits, hexponent, hle, fun hzero => absurd hzero hvalue, fun _ => bounds_of_rest hlow hhigh,
      fun _ => hunit ▸ hrounded⟩

/-- The section shows a number rounded half up to as many digits as its mantissa has places. -/
theorem text_normalized (s : Section) (v : Decimal) (hdigits : v.digitCount < 100000)
    (hadjusted : v.adjusted.natAbs < 100000) (hlength : s.chars.length < 100000) :
    ∃ mantissa exponent μ x,
      Number.text v s.chars = .ok (signText v.value ++ (mantissa ++ s.mark x ++ exponent)) ∧
        s.Shows v mantissa exponent μ x := by
  have hmax : Decimal.maxExponent = 999999 := rfl
  have hmin : Decimal.minExponent = -999999 := rfl
  have hsize := s.length_le
  have hwidth := s.width_eq
  have hwidth0 := s.width_pos
  have hrest : s.rest = s.width - 1 + s.places := rfl
  have hexponent : v.adjusted = v.exponent + v.digitCount - 1 := rfl
  have hleast := Decimal.Context.least_le (c := Number.context v) (Nat.add_pos_left (by decide) _)
  have hplain : ∀ t ∈ s.body, t.isPlain = true :=
    forall_body (P := (·.isPlain = true)) (fun _ => rfl) rfl rfl
  have hpercent : .percent ∉ s.body := fun h =>
    forall_body (P := (· ≠ .percent)) (by simp) (by simp) (by simp) _ h rfl
  obtain ⟨m, -, hmagnitude, hdigits', htext⟩ := exists_text_eq_of_core hplain s.ofTokens_body
    s.isCore_body.any_isPlace hpercent
    (Decimal.Context.holds_of_exponent (d := v) (by omega) (by omega))
  obtain ⟨mantissa, exponent, μ, x, hbody, hshows⟩ := s.exists_bodyText (c := Number.context v)
    (hdigits'.trans (Nat.le_add_left _ _)) (by omega) (by omega)
  refine ⟨mantissa, exponent, μ, x, ?_, hshows.of_magnitude_eq hmagnitude⟩
  rw [chars, htext, hbody]
  rfl

/-- The section `##0.0#e-00`. -/
def engineering : Section where
  whole := [.hash, .hash, .zero]
  fraction? := some [.zero, .hash]
  exponent := [.zero, .zero]
  upper := false
  signed := false
  whole_ne := by decide
  exponent_ne := by decide

/-- A mantissa of four digits before the point becomes one of three. -/
theorem text_normalized_engineering :
    (⟨true, 9999996, -1⟩ : Decimal).digitCount < 100000 ∧
      (⟨true, 9999996, -1⟩ : Decimal).adjusted.natAbs < 100000 ∧
      engineering.chars.length < 100000 ∧
      ∃ mantissa exponent μ x,
        Number.text ⟨true, 9999996, -1⟩ engineering.chars =
          .ok (signText (⟨true, 9999996, -1⟩ : Decimal).value ++
            (mantissa ++ engineering.mark x ++ exponent)) ∧
        engineering.Shows ⟨true, 9999996, -1⟩ mantissa exponent μ x :=
  ⟨by decide +kernel, by decide +kernel, by decide +kernel,
    text_normalized engineering _ (by decide +kernel) (by decide +kernel) (by decide +kernel)⟩

example : engineering.chars = "##0.0#e-00".toList := by rfl

example : Number.text ⟨true, 9999996, -1⟩ engineering.chars = .ok "-100.0e04".toList := by rfl

end Section

end Worksheet.Format.Scientific
