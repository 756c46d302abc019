-- SUMMARY: A free denominator gives a best approximation, and a written one a number rounded half up.
import Worksheet.Proofs.Approximation
import Worksheet.Proofs.Format.Mixed

/-!
# Denominators

Places behind the slash leave the denominator free up to their count, and then no fraction with
such a denominator is nearer to the number than what is shown: `FreeSection.text_best`. Digits
behind the slash are the denominator, and then the number is rounded half up to a multiple of
their fraction, although its whole part and what is left of it are rounded apart:
`WrittenSection.text_rounded`.
-/

namespace Worksheet.Format.Fraction

open Digits NumberToken
open Reading (Mixed)

variable {c : Decimal.Context} {d v : Decimal} {x : Rat}

/-! ## Free denominators -/

/-- A section such as `# ?/??`, or `?/??` without places for a whole part. -/
structure FreeSection where
  whole : List Placeholder
  numerator : List Placeholder
  denominator : List Placeholder
  numerator_ne : numerator ≠ []
  denominator_ne : denominator ≠ []

namespace FreeSection

def toSection (s : FreeSection) : Section where
  whole := s.whole
  numerator := s.numerator
  denominator := s.denominator.map .digit
  numerator_ne := s.numerator_ne
  isPlain_denominator t ht := by
    obtain ⟨p, -, rfl⟩ := List.mem_map.1 ht
    rfl
  isPlace_or t ht := by
    obtain ⟨p, -, rfl⟩ := List.mem_map.1 ht
    exact .inl rfl

/-- The largest denominator. -/
def limit (s : FreeSection) : Nat := 10 ^ s.denominator.length - 1

/-- The whole part and the fraction that stand for a number. -/
def mixed (s : FreeSection) (x : Rat) : Mixed :=
  s.toSection.shape.mixed (s.toSection.wholePart x)
    (.nearest (x - s.toSection.wholePart x) s.limit)

/-- A mixed number in lowest terms such that no fraction with a denominator within the limit is
    nearer to `x`. -/
structure IsBest (s : FreeSection) (x : Rat) (m : Mixed) : Prop where
  lowest : ∀ r ∈ m.fraction?,
    r.numerator.Coprime r.denominator ∧ 1 ≤ r.denominator ∧ r.denominator ≤ s.limit
  proper : s.whole ≠ [] → ∀ r ∈ m.fraction?, 0 < r.numerator ∧ r.numerator < r.denominator
  only_fraction : s.whole = [] → ∃ r, m = ⟨0, some r⟩
  le_abs_sub : ∀ (a : Int) (b : Nat), 1 ≤ b → b ≤ s.limit → |m.value - x| ≤ |a / b - x|

theorem limit_pos (s : FreeSection) : 0 < s.limit := by
  have hpow := Nat.one_lt_pow (List.length_pos_iff.2 s.denominator_ne).ne' (by decide : 1 < 10)
  unfold limit
  omega

theorem isNearest (s : FreeSection) (h0 : 0 ≤ x) :
    (Ratio.nearest (x - s.toSection.wholePart x) s.limit).IsNearest s.limit
      (x - s.toSection.wholePart x) :=
  Ratio.isNearest_nearest s.limit_pos (sub_nonneg.2 (s.toSection.wholePart_le h0))

theorem isBest_mixed (s : FreeSection) (h0 : 0 ≤ x) : s.IsBest x (s.mixed x) := by
  have hnearest := s.isNearest h0
  have hwhole : s.toSection.whole = [] → s.toSection.wholePart x = 0 := fun h => if_pos h
  refine ⟨fun r hr => ?_, fun hne r hr => ?_, fun hnil => ⟨_, if_pos hnil⟩, fun a b hpos hle => ?_⟩
  · obtain rfl := Shape.eq_of_mem_mixed hr
    exact ⟨hnearest.coprime, hnearest.denominator_pos, hnearest.denominator_le⟩
  · exact Shape.proper_of_mem_mixed hne
      (hnearest.numerator_le (Section.sub_wholePart_lt hne x).le) hr
  · -- Both sides are moved by the whole part.
    have hb : (b : Rat) ≠ 0 := by exact_mod_cast (by omega : b ≠ 0)
    have hmoved := hnearest.le_abs_sub (a - s.toSection.wholePart x * b) b hpos hle
    have hcast : (((a - s.toSection.wholePart x * b : Int) : Rat) / b) =
        a / b - s.toSection.wholePart x := by
      push_cast
      rw [sub_div, mul_div_cancel_right₀ _ hb]
    rw [hcast, sub_sub_sub_cancel_right] at hmoved
    rwa [mixed, Shape.value_mixed hwhole hnearest.denominator_pos, add_comm, add_sub_assoc,
      ← neg_sub x, ← sub_eq_add_neg]

theorem isFixed_shape (s : FreeSection) : s.toSection.shape.isFixed = false := by
  obtain ⟨p, ps, h⟩ := List.exists_cons_of_ne_nil s.denominator_ne
  have hdenominator : s.toSection.shape.denominator = texts (s.denominator.map .digit) := rfl
  have htexts : texts ((p :: ps).map .digit) = p.char :: texts (ps.map .digit) := rfl
  unfold Shape.isFixed
  rw [hdenominator, h, htexts]
  cases p with
  | zero => simp [Placeholder.char]
  | hash =>
    have hnot : Text.isDigitLike '#' = false := by decide
    simp [Placeholder.char, hnot]
  | question =>
    have hnot : Text.isDigitLike '?' = false := by decide
    simp [Placeholder.char, hnot]

theorem length_texts_map_digit (ps : List Placeholder) :
    (texts (ps.map .digit)).length = ps.length := by
  induction ps with
  | nil => rfl
  | cons p ps ih => exact congrArg (· + 1) ih

theorem ratio_eq (s : FreeSection) (c : Decimal.Context) (d : Decimal) :
    ratio c s.toSection.shape d = .ok (.nearest d.magnitude s.limit) := by
  have hlength : max s.toSection.shape.denominator.length 1 = s.denominator.length := by
    have hpos := List.length_pos_iff.2 s.denominator_ne
    have hlength : s.toSection.shape.denominator.length = s.denominator.length :=
      length_texts_map_digit s.denominator
    omega
  unfold ratio
  rw [s.isFixed_shape, hlength]
  rfl

/-- A free denominator gives a best approximation. -/
theorem text_best (s : FreeSection) (v : Decimal) (h : (Number.context v).Holds v.magnitude)
    (hfits : (s.mixed v.magnitude).Fits) :
    ∃ t, Number.text v s.toSection.chars = .ok (signText v.value ++ t) ∧
      Reads s.toSection.shape (s.mixed v.magnitude) t ∧
        s.IsBest v.magnitude (s.mixed v.magnitude) := by
  obtain ⟨t, htext, hreads⟩ := s.toSection.exists_text h
    (fun d _ hd => hd ▸ s.ratio_eq (Number.context v) d) hfits
  exact ⟨t, htext, hreads, s.isBest_mixed (Decimal.magnitude_nonneg v)⟩

/-- The section `# ?/??`. -/
def twoPlaces : FreeSection where
  whole := [.hash]
  numerator := [.question]
  denominator := [.question, .question]
  numerator_ne := by decide
  denominator_ne := by decide

theorem text_best_twoPlaces :
    (Number.context ⟨true, 314159, -5⟩).Holds (⟨true, 314159, -5⟩ : Decimal).magnitude ∧
      (twoPlaces.mixed (⟨true, 314159, -5⟩ : Decimal).magnitude).Fits ∧
      ∃ t, Number.text ⟨true, 314159, -5⟩ twoPlaces.toSection.chars =
          .ok (signText (⟨true, 314159, -5⟩ : Decimal).value ++ t) ∧
        Reads twoPlaces.toSection.shape
          (twoPlaces.mixed (⟨true, 314159, -5⟩ : Decimal).magnitude) t ∧
        twoPlaces.IsBest (⟨true, 314159, -5⟩ : Decimal).magnitude
          (twoPlaces.mixed (⟨true, 314159, -5⟩ : Decimal).magnitude) := by
  have hheld : (Number.context ⟨true, 314159, -5⟩).Holds (⟨true, 314159, -5⟩ : Decimal).magnitude :=
    Decimal.Context.holds_of_exponent (by decide +kernel) fun _ => by decide +kernel
  have hfits : (twoPlaces.mixed (⟨true, 314159, -5⟩ : Decimal).magnitude).Fits := by decide +kernel
  exact ⟨hheld, hfits, text_best twoPlaces _ hheld hfits⟩

example : twoPlaces.toSection.chars = "# ?/??".toList := by rfl

example : (Number.text ⟨true, 314159, -5⟩ twoPlaces.toSection.chars).toOption =
    some "-3 14/99".toList := by decide +kernel

end FreeSection

/-! ## Written denominators -/

/-- A section such as `# ?/16`, or `?/16` without places for a whole part. -/
structure WrittenSection where
  whole : List Placeholder
  numerator : List Placeholder
  denominator : List Char
  numerator_ne : numerator ≠ []
  areDigits : AreDigits denominator
  denominator_ne : denominator ≠ []
  head_ne : denominator.head? ≠ some '0'
  length_le : denominator.length ≤ 60

theorem isPlain_char : ∀ d < 10, (ofChar (char d)).isPlain = true := by decide

namespace WrittenSection

def toSection (s : WrittenSection) : Section where
  whole := s.whole
  numerator := s.numerator
  denominator := s.denominator.map ofChar
  numerator_ne := s.numerator_ne
  isPlain_denominator t ht := by
    obtain ⟨c, hc, rfl⟩ := List.mem_map.1 ht
    obtain ⟨d, hd, rfl⟩ := s.areDigits c hc
    exact isPlain_char d hd
  isPlace_or t ht := by
    obtain ⟨c, hc, rfl⟩ := List.mem_map.1 ht
    obtain ⟨d, hd, rfl⟩ := s.areDigits c hc
    exact isDenominator_char d hd

/-- The denominator. -/
def parts (s : WrittenSection) : Nat := value s.denominator

/-- The numerator of a number over the denominator, rounded half up. -/
def numeratorOf (s : WrittenSection) (x : Rat) : Nat := ⌊x * s.parts + 1 / 2⌋₊

/-- The whole part and the fraction that stand for a number. -/
def mixed (s : WrittenSection) (x : Rat) : Mixed :=
  s.toSection.shape.mixed (s.toSection.wholePart x)
    ⟨s.numeratorOf (x - s.toSection.wholePart x), s.parts⟩

/-- A mixed number that is `x` rounded half up to a multiple of one part. -/
structure IsRounded (s : WrittenSection) (x : Rat) (m : Mixed) : Prop where
  value_eq : m.value = Decimal.halfUp (1 / s.parts) x
  denominator_eq : ∀ r ∈ m.fraction?, r.denominator = s.parts
  proper : s.whole ≠ [] → ∀ r ∈ m.fraction?, 0 < r.numerator ∧ r.numerator < r.denominator
  only_fraction : s.whole = [] → ∃ r, m = ⟨0, some r⟩

theorem ofNat_parts (s : WrittenSection) : ofNat s.parts = s.denominator := by
  obtain ⟨c, ds, h⟩ := List.exists_cons_of_ne_nil s.denominator_ne
  have hdigits := s.areDigits
  have hhead := s.head_ne
  rw [h] at hdigits hhead
  rw [parts, h]
  exact ofNat_value_cons hdigits fun hzero => hhead (congrArg some hzero)

theorem parts_pos (s : WrittenSection) : 0 < s.parts := by
  refine Nat.pos_of_ne_zero fun hzero => s.head_ne ?_
  rw [← s.ofNat_parts, hzero]
  rfl

theorem parts_lt (s : WrittenSection) : s.parts < 10 ^ 60 :=
  (value_lt s.areDigits).trans_le (Nat.pow_le_pow_right (by decide) s.length_le)

theorem denominator_shape (s : WrittenSection) : s.toSection.shape.denominator = s.denominator :=
  texts_map_ofChar s.denominator

theorem isFixed_shape (s : WrittenSection) : s.toSection.shape.isFixed = true := by
  have hlike : s.denominator.all Text.isDigitLike = true := by
    rw [List.all_eq_true]
    intro c hc
    obtain ⟨d, hd, rfl⟩ := s.areDigits c hc
    exact isDigitLike_char d hd
  have hempty : s.denominator.isEmpty = false := by simpa using s.denominator_ne
  unfold Shape.isFixed
  rw [s.denominator_shape, hlike, hempty, decide_eq_true s.head_ne]
  rfl

/-- What is left of a number has no more parts than the whole has. -/
theorem numeratorOf_le (s : WrittenSection) (hx : x ≤ 1) : s.numeratorOf x ≤ s.parts :=
  Decimal.floor_add_half_le (mul_le_of_le_one_left (Nat.cast_nonneg _) hx)

theorem isRounded_mixed (s : WrittenSection) (h0 : 0 ≤ x) : s.IsRounded x (s.mixed x) := by
  have hwhole : s.toSection.whole = [] → s.toSection.wholePart x = 0 := fun h => if_pos h
  have hparts : (s.parts : Rat) ≠ 0 := by exact_mod_cast s.parts_pos.ne'
  refine ⟨?_, fun r hr => ?_, fun hne r hr => ?_, fun hnil => ⟨_, if_pos hnil⟩⟩
  · -- The whole part has a whole number of parts, so it comes out of the rounding.
    have hrest := sub_nonneg.2 (s.toSection.wholePart_le h0)
    have hsum : x * s.parts + 1 / 2 = (x - s.toSection.wholePart x) * s.parts + 1 / 2 +
        (s.toSection.wholePart x * s.parts : Nat) := by
      push_cast
      ring
    rw [mixed, Shape.value_mixed hwhole s.parts_pos, Decimal.halfUp_one_div, hsum,
      Nat.floor_add_natCast (by positivity), Nat.cast_add, Nat.cast_mul, add_div,
      mul_div_cancel_right₀ _ hparts, add_comm]
    rfl
  · rw [Shape.eq_of_mem_mixed hr]
  · exact Shape.proper_of_mem_mixed hne
      (s.numeratorOf_le (Section.sub_wholePart_lt hne x).le) hr

/-- The numerator is exact: the product has room for all digits, and is not too large. -/
theorem ratio_eq (s : WrittenSection) (hp : d.digitCount + 60 ≤ c.precision)
    (h : c.Holds d.magnitude) (hlt : d.magnitude * s.parts < 10 ^ Decimal.maxExponent) :
    ratio c s.toSection.shape d = .ok ⟨s.numeratorOf d.magnitude, s.parts⟩ := by
  have hlimit : 60 ≤ Digits.limit := by decide
  have hread := Integer.natural?_of_areDigits s.areDigits s.denominator_ne
    (s.length_le.trans hlimit)
  have hplaces : ((0 : Nat) : Int) ≤ Decimal.maxExponent := by decide
  have hheld := h.mul_natCast s.parts (hlt.trans_le (Decimal.ten_zpow_le (by omega)))
  obtain ⟨p, hproduct, -, hmagnitude⟩ := Decimal.Context.exists_mul_ofNat_eq hp s.parts_lt hheld
  have hround := Decimal.Context.roundHalfUp_eq (d := p) (c := c)
    ((by decide : 0 < 60).trans_le ((Nat.le_add_left _ _).trans hp)) hplaces fun h0 => by
      have hle := (Decimal.adjusted_le_iff (k := Decimal.maxExponent - 1) h0).2 (by
        rwa [hmagnitude, Int.sub_add_cancel])
      omega
  rw [hmagnitude, pow_zero, mul_one] at hround
  unfold ratio
  rw [if_pos s.isFixed_shape, s.denominator_shape, hread]
  exact bind_eq_ok_iff.2 ⟨_, mapError_eq_ok_iff.2 (bind_eq_ok_iff.2 ⟨p, hproduct, hround⟩), rfl⟩

/-- A number with a numerator that can be written is not too large. -/
theorem mul_parts_lt (s : WrittenSection) (h : count (s.numeratorOf x) ≤ Digits.limit) :
    x * s.parts < 10 ^ Decimal.maxExponent := by
  have hlimit : (Digits.limit : Int) ≤ Decimal.maxExponent := by decide
  have hlt := Nat.lt_floor_add_one (x * s.parts + 1 / 2)
  have hle : ((s.numeratorOf x + 1 : Nat) : Rat) ≤ (10 ^ Digits.limit : Nat) := by
    exact_mod_cast lt_ten_pow_of_count_le h
  have hpow : ((10 ^ Digits.limit : Nat) : Rat) ≤ 10 ^ Decimal.maxExponent := by
    rw [Nat.cast_pow, Nat.cast_ofNat, ← zpow_natCast]
    exact Decimal.ten_zpow_le hlimit
  rw [Nat.cast_add, Nat.cast_one] at hle
  calc x * s.parts ≤ x * s.parts + 1 / 2 := le_add_of_nonneg_right (by norm_num)
    _ < s.numeratorOf x + 1 := hlt
    _ ≤ 10 ^ Decimal.maxExponent := hle.trans hpow

/-- The numerator of what the section shows can be written. -/
theorem count_numeratorOf_le (s : WrittenSection) (hfits : (s.mixed x).Fits) :
    count (s.numeratorOf (x - s.toSection.wholePart x)) ≤ Digits.limit := by
  by_cases hwhole : s.toSection.whole = []
  · have hmixed : s.mixed x = ⟨0, some _⟩ := if_pos hwhole
    rw [hmixed] at hfits
    exact (hfits.2 _ rfl).1
  · have hlimit : 60 ≤ Digits.limit := by decide
    have hle := s.numeratorOf_le (Section.sub_wholePart_lt hwhole x).le
    exact ((count_le_iff (by decide)).2 (hle.trans_lt s.parts_lt)).trans hlimit

/-- A written denominator is shown as it is, and the number is rounded half up. -/
theorem text_rounded (s : WrittenSection) (v : Decimal)
    (h : (Number.context v).Holds v.magnitude) (hfits : (s.mixed v.magnitude).Fits) :
    ∃ t, Number.text v s.toSection.chars = .ok (signText v.value ++ t) ∧
      Reads s.toSection.shape (s.mixed v.magnitude) t ∧
        (∀ r ∈ (s.mixed v.magnitude).fraction?, ∃ front, t = front ++ '/' :: s.denominator) ∧
          s.IsRounded v.magnitude (s.mixed v.magnitude) := by
  have h0 := Decimal.magnitude_nonneg v
  have hrounded := s.isRounded_mixed h0
  have hleast : (Number.context v).least ≤ 0 := by
    have hle := Decimal.Context.least_le (c := Number.context v) (Nat.add_pos_left (by decide) _)
    exact hle.trans (by decide)
  have hheld := h.sub_natCast hleast (s.toSection.wholePart_le h0)
  obtain ⟨t, htext, hreads⟩ := s.toSection.exists_text h (fun d hdigits hd => by
    rw [← hd] at hheld
    rw [← hd]
    refine s.ratio_eq ?_ hheld ?_
    · exact (Nat.add_comm _ _).trans_le (Nat.add_le_add_left hdigits 60)
    · rw [hd]
      exact s.mul_parts_lt (s.count_numeratorOf_le hfits)) hfits
  refine ⟨t, htext, hreads, fun r hr => ?_, hrounded⟩
  obtain ⟨front, ht⟩ := hreads.exists_front s.isFixed_shape r hr
  rw [hrounded.denominator_eq r hr, s.ofNat_parts] at ht
  exact ⟨front, ht⟩

/-- The section `0 ??/100`. -/
def hundredths : WrittenSection where
  whole := [.zero]
  numerator := [.question, .question]
  denominator := "100".toList
  numerator_ne := by decide
  areDigits := areDigits_iff.2 (by decide)
  denominator_ne := by decide
  head_ne := by decide
  length_le := by decide

theorem text_rounded_hundredths :
    (Number.context ⟨true, 2545, -3⟩).Holds (⟨true, 2545, -3⟩ : Decimal).magnitude ∧
      (hundredths.mixed (⟨true, 2545, -3⟩ : Decimal).magnitude).Fits ∧
      ∃ t, Number.text ⟨true, 2545, -3⟩ hundredths.toSection.chars =
          .ok (signText (⟨true, 2545, -3⟩ : Decimal).value ++ t) ∧
        Reads hundredths.toSection.shape
          (hundredths.mixed (⟨true, 2545, -3⟩ : Decimal).magnitude) t ∧
        (∀ r ∈ (hundredths.mixed (⟨true, 2545, -3⟩ : Decimal).magnitude).fraction?,
          ∃ front, t = front ++ '/' :: hundredths.denominator) ∧
        hundredths.IsRounded (⟨true, 2545, -3⟩ : Decimal).magnitude
          (hundredths.mixed (⟨true, 2545, -3⟩ : Decimal).magnitude) := by
  have hheld : (Number.context ⟨true, 2545, -3⟩).Holds (⟨true, 2545, -3⟩ : Decimal).magnitude :=
    Decimal.Context.holds_of_exponent (by decide +kernel) fun _ => by decide +kernel
  have hfits : (hundredths.mixed (⟨true, 2545, -3⟩ : Decimal).magnitude).Fits := by decide +kernel
  exact ⟨hheld, hfits, text_rounded hundredths _ hheld hfits⟩

example : hundredths.toSection.chars = "0 ??/100".toList := by rfl

example : (Number.text ⟨true, 2545, -3⟩ hundredths.toSection.chars).toOption =
    some "-2 55/100".toList := by decide +kernel

/-- The fraction is carried into the whole part. -/
example : (Number.text ⟨true, 2996, -3⟩ hundredths.toSection.chars).toOption =
    some "-3".toList := by decide +kernel

end WrittenSection

end Worksheet.Format.Fraction
