-- SUMMARY: Fractions and mantissas show a digit, except for zero in places for blanks.
import Worksheet.Proofs.Format.Denominator
import Worksheet.Proofs.Format.FirstDigits
import Worksheet.Proofs.Format.Number

/-!
# Visible Digits

A whole part that shows nothing is replaced by a zero, so one would expect a digit of every number
in a section such as `# ?/?` or `#e+0`. Places that ask for blanks show something where they have
no digit, so they are not replaced: in `? ?/?` and `?e+0` zero is blank. `Number.isVisible_text_iff`
says that this is the only case.
-/

namespace Worksheet.Format

open Digits NumberToken Reading

variable {t front : List Char} {mark : Char} {ps : List Placeholder} {w n : Nat}

/-! ## Digits in front of a mark -/

/-- The text has a digit in front of a mark, or anywhere if it does not have the mark. -/
def IsVisible (mark : Char) (t : List Char) : Prop := 0 < digitCount (t.takeWhile (· ≠ mark))

instance : Decidable (IsVisible mark t) := inferInstanceAs (Decidable (_ < _))

theorem digitCount_append (s t : List Char) : digitCount (s ++ t) = digitCount s + digitCount t :=
  List.countP_append

theorem digitCount_ofNat_pos (n : Nat) : 0 < digitCount (ofNat n) :=
  (count_pos n).trans_eq (digitCount_of_areDigits (areDigits_ofNat n)).symm

theorem isVisible_append (h : mark ∉ front) :
    IsVisible mark (front ++ t) ↔ 0 < digitCount front ∨ IsVisible mark t := by
  rw [IsVisible, List.takeWhile_append_of_pos (forall_ne_of_notMem h), digitCount_append,
    Nat.add_pos_iff_pos_or_pos]
  exact Iff.rfl

theorem isVisible_of_notMem (h : mark ∉ t) : IsVisible mark t ↔ 0 < digitCount t := by
  rw [← List.append_nil t, isVisible_append h, List.append_nil, or_iff_left]
  exact Nat.lt_irrefl 0

theorem isVisible_append_mark (h : mark ∉ front) (rest : List Char) :
    IsVisible mark (front ++ mark :: rest) ↔ 0 < digitCount front := by
  rw [isVisible_append h, or_iff_left]
  rw [IsVisible, List.takeWhile_cons_of_neg (by simp)]
  exact Nat.lt_irrefl 0

/-- A minus sign in front is no digit. -/
theorem isVisible_signText_append (hmark : mark ≠ '-') (x : Rat) (t : List Char) :
    IsVisible mark (signText x ++ t) ↔ IsVisible mark t := by
  unfold signText
  split
  · rw [isVisible_append (by simpa using hmark), or_iff_right]
    exact Nat.lt_irrefl 0
  · exact Iff.rfl

/-! ## Places -/

/-- Without a digit the places show blanks and nothing else. -/
def ArePadding (ps : List Placeholder) : Prop := .question ∈ ps ∧ .zero ∉ ps

instance : Decidable (ArePadding ps) := inferInstanceAs (Decidable (_ ∧ _))

theorem digitCount_padding (ps : List Placeholder) :
    digitCount (ps.flatMap Placeholder.padding) = ps.count .zero := by
  rw [← digitCount_filter (c := ' ') (by decide), filter_padding,
    digitCount_of_areDigits (areDigits_replicate_zero _), List.length_replicate]

theorem flatMap_padding_eq_nil_iff :
    ps.flatMap Placeholder.padding = [] ↔ .question ∉ ps ∧ .zero ∉ ps := by
  rw [List.flatMap_eq_nil_iff]
  constructor
  · exact fun h => ⟨fun hq => absurd (h _ hq) (by decide), fun hz => absurd (h _ hz) (by decide)⟩
  · rintro ⟨hq, hz⟩ p hp
    cases p with
    | zero => exact absurd hp hz
    | hash => rfl
    | question => exact absurd hp hq

/-- A whole part shows a digit, but for zero in places that are padding. -/
theorem digitCount_orZero_fillWhole_pos_iff :
    0 < digitCount (orZero (fillWhole (ofNat n) ps)) ↔ ¬(n = 0 ∧ ArePadding ps) := by
  rcases Nat.eq_zero_or_pos n with rfl | hn
  · have hfill : fillWhole (ofNat 0) ps = ps.flatMap Placeholder.padding := by
      have hshown : shownDigits (ofNat 0) = [] := rfl
      simp [fillWhole, hshown]
    have hpadding : ps.flatMap Placeholder.padding = [] ↔ _ := flatMap_padding_eq_nil_iff
    by_cases hnil : ps.flatMap Placeholder.padding = []
    · obtain ⟨hq, -⟩ := hpadding.1 hnil
      rw [hfill, hnil]
      exact iff_of_true (by decide) fun h => hq h.2.1
    · rw [hfill, orZero_eq_self hnil, digitCount_padding, List.count_pos_iff]
      rw [hpadding] at hnil
      unfold ArePadding
      tauto
  · have hpos : 0 < digitCount (fillWhole (ofNat n) ps) := by
      rw [fillWhole, shownDigits_of_pos hn, digitCount_append]
      exact Nat.add_pos_right _ (digitCount_ofNat_pos n)
    have hne : fillWhole (ofNat n) ps ≠ [] := by
      intro hnil
      rw [hnil] at hpos
      exact absurd hpos (Nat.lt_irrefl 0)
    rw [orZero_eq_self hne]
    exact iff_of_true hpos fun h => hn.ne' h.1

/-! ## Fractions -/

namespace Fraction

variable {s : Shape} {r : Ratio}

/-- The numerator of a fraction that is shown has a digit. -/
theorem isVisible_fraction (hfront : '/' ∉ front) (s : Shape) (behind : List Char) :
    IsVisible '/' (front ++ (s.alignNumerator (ofNat n) ++ '/' :: behind)) := by
  obtain ⟨i, hi⟩ := exists_alignNumerator s (ofNat n)
  have hslash : '/' ∉ List.replicate i ' ' ++ ofNat n := by
    have hdigits := notMem_of_areDigits (areDigits_ofNat n) (c := '/') (by decide)
    simp [hdigits]
  rw [hi, isVisible_append hfront, isVisible_append_mark hslash, digitCount_append]
  exact .inr (Nat.add_pos_right _ (digitCount_ofNat_pos n))

/-- Beside places for a whole part only zero can be without a digit. -/
theorem isVisible_layout_iff (hwhole : s.whole ≠ []) (hseparator : '/' ∉ s.separator)
    (hr : 0 < r.denominator) (h : layout s w r = .ok t) :
    IsVisible '/' t ↔ ¬(w = 0 ∧ r.numerator = 0 ∧ ArePadding s.whole) := by
  have hempty : s.whole.isEmpty = false := by simpa using hwhole
  have hslash (k : Nat) : '/' ∉ fillWhole (ofNat k) s.whole :=
    fun hmem => absurd (mem_fillWhole (areDigits_ofNat k) hmem) (by decide)
  have hslash' (k : Nat) : '/' ∉ orZero (fillWhole (ofNat k) s.whole) := fun hmem =>
    absurd (mem_orZero (fun _ => mem_fillWhole (areDigits_ofNat k)) hmem) (by decide)
  unfold layout at h
  simp only [hempty, Bool.not_false, Bool.true_and, Bool.false_or] at h
  obtain ⟨k, hk⟩ : ∃ k, (if decide (r.numerator = r.denominator) = true then w + 1 else w) = k :=
    ⟨_, rfl⟩
  rw [hk] at h
  split at h
  · rename_i hnone
    obtain ⟨ds, hds, h⟩ := bind_eq_ok_iff.1 h
    obtain rfl := digits_of_ok hds
    obtain rfl := Except.ok.inj h
    rw [isVisible_of_notMem (hslash' k), digitCount_orZero_fillWhole_pos_iff, ← hk]
    by_cases hone : r.numerator = r.denominator
    · rw [if_pos (decide_eq_true hone)]
      exact iff_of_true (fun h => Nat.succ_ne_zero w h.1) fun h => hr.ne' (hone ▸ h.2.1)
    · have hzero : r.numerator = 0 := by simpa [hone] using hnone
      rw [if_neg (by simpa using hone)]
      simp only [hzero, true_and]
  · rename_i hshown
    obtain ⟨ns, hns, h⟩ := bind_eq_ok_iff.1 h
    obtain ⟨qs, -, h⟩ := bind_eq_ok_iff.1 h
    obtain ⟨ws, hws, h⟩ := bind_eq_ok_iff.1 h
    obtain rfl := digits_of_ok hns
    obtain rfl := digits_of_ok hws
    refine iff_of_true ?_ fun hzero => hshown (by simp [hzero.2.1])
    split at h
    · obtain rfl := Except.ok.inj h
      exact isVisible_fraction List.not_mem_nil s _
    · obtain rfl := Except.ok.inj h
      refine isVisible_fraction ?_ s _
      rw [List.mem_append, not_or]
      refine ⟨hslash k, ?_⟩
      split
      · decide
      · exact hseparator

namespace FreeSection

variable {s : FreeSection} {c : Decimal.Context} {m : Decimal}

/-- The fraction is that for what the whole part leaves of the number. -/
theorem bodyText_eq (s : FreeSection) (c : Decimal.Context) (m : Decimal) :
    Number.bodyText c m s.toSection.body =
      layout s.toSection.shape (s.toSection.wholePart m.magnitude)
        (.nearest (m.magnitude - s.toSection.wholePart m.magnitude) s.limit) := by
  rw [s.toSection.bodyText_eq, s.ratio_eq, s.toSection.magnitude_remainder]
  rfl

/-- A number is zero to the section if it is at most half of its smallest fraction. -/
theorem isZero_iff (hwhole : s.whole ≠ []) {x : Rat} (h0 : 0 ≤ x) :
    s.toSection.wholePart x = 0 ∧
        (Ratio.nearest (x - s.toSection.wholePart x) s.limit).numerator = 0 ↔
      2 * s.limit * x ≤ 1 := by
  have hzero (hpart : s.toSection.wholePart x = 0) :
      (Ratio.nearest (x - s.toSection.wholePart x) s.limit).numerator = 0 ↔
        2 * s.limit * x ≤ 1 := by
    rw [hpart, Nat.cast_zero, sub_zero, Ratio.numerator_nearest_eq_zero_iff s.limit_pos h0]
  refine ⟨fun h => (hzero h.1).1 h.2, fun h => ?_⟩
  have hlimit : (1 : Rat) ≤ s.limit := by exact_mod_cast s.limit_pos
  have hle := mul_le_mul_of_nonneg_right hlimit h0
  have hlt : x < 1 := by linarith
  have hpart : s.toSection.wholePart x = 0 := (if_neg hwhole).trans (Nat.floor_eq_zero.2 hlt)
  exact ⟨hpart, (hzero hpart).2 h⟩

theorem isVisible_iff (hwhole : s.whole ≠ [])
    (h : Number.bodyText c m s.toSection.body = .ok t) :
    IsVisible '/' t ↔ ¬(2 * s.limit * m.magnitude ≤ 1 ∧ ArePadding s.whole) := by
  have h0 := Decimal.magnitude_nonneg m
  have hseparator : s.toSection.shape.separator = [' '] := if_neg hwhole
  rw [s.bodyText_eq] at h
  rw [isVisible_layout_iff hwhole (by simp [hseparator]) (s.isNearest h0).denominator_pos h,
    ← and_assoc, isZero_iff hwhole h0]
  rfl

/-- The denominator has no more digits than there are places for it. -/
theorem exists_bodyText {k : Nat} (hwhole : s.whole ≠ [])
    (hlength : s.denominator.length ≤ Digits.limit) (hk : k + 2 ≤ Digits.limit)
    (hm : m.magnitude ≤ 10 ^ k) : ∃ t, Number.bodyText c m s.toSection.body = .ok t := by
  have h0 := Decimal.magnitude_nonneg m
  have hnearest := s.isNearest h0
  have hpart : s.toSection.wholePart m.magnitude ≤ 10 ^ k := by
    exact_mod_cast (s.toSection.wholePart_le h0).trans hm
  have hpow := ten_pow_pos k
  have hlimit : s.limit < 10 ^ s.denominator.length :=
    Nat.sub_lt (ten_pow_pos _) Nat.one_pos
  have hdenominator := (count_le_iff (List.length_pos_iff.2 s.denominator_ne)).2
    (hnearest.denominator_le.trans_lt hlimit)
  have hnumerator := hnearest.numerator_le (Section.sub_wholePart_lt hwhole m.magnitude).le
  rw [s.bodyText_eq]
  refine exists_layout ?_ ?_ ((count_le_count hnumerator).trans (hdenominator.trans hlength))
    (hdenominator.trans hlength)
  · refine (count_le_succ (k := k + 1) ?_).trans hk
    rw [Nat.pow_succ]
    omega
  · exact (count_le_succ hpart).trans (by omega)

end FreeSection

end Fraction

/-! ## Mantissas -/

/-- Only places for zeros show the decimals of zero. -/
theorem digitCount_zero_cells_pos_iff :
    0 < digitCount (fractionCells ((Digits.fraction ps.length 0).zip ps)).flatten ↔
      .zero ∈ ps := by
  have hds := areDigits_fraction ps.length 0
  have hzeros : Digits.fraction ps.length 0 = List.replicate ps.length '0' := by
    refine eq_of_value_eq hds (areDigits_replicate_zero _) ?_ ?_
    · rw [length_fraction, List.length_replicate]
    · rw [value_fraction, Nat.zero_mod, value_replicate_zero]
  obtain ⟨k, j, hcells, htrims⟩ := exists_trims (length_fraction ps.length 0)
  rw [hcells, htrims.digitCount_shown hds]
  constructor
  · intro hk
    obtain ⟨i, rfl⟩ : ∃ i, k = i + 1 := ⟨k - 1, by omega⟩
    have hi := htrims.le_length
    rw [length_fraction] at hi
    refine List.mem_of_getElem? (htrims.last i rfl ?_)
    rw [hzeros, List.getElem?_replicate_of_lt hi]
  · intro hzero
    refine Nat.pos_of_ne_zero fun hk => htrims.notMem_drop ?_
    rwa [hk, List.drop_zero]

namespace Scientific

/-- The letter of the mark. -/
def Shape.letter (s : Shape) : Char := if s.upper then 'E' else 'e'

/-- The mantissa as it is shown. -/
def mantissaText (s : Shape) (n : Nat) : List Char :=
  orZero (fillWhole (ofNat (n / 10 ^ s.places)) s.whole) ++
    behindPoint s.fraction?
      (fractionCells ((Digits.fraction s.places n).zip (s.fraction?.getD []))).flatten

theorem exists_layout_eq (s : Shape) (negative : Bool) (n : Nat) (x : Int) :
    ∃ rest, layout ⟨negative, n, -s.places⟩ x s = mantissaText s n ++ s.letter :: rest := by
  refine ⟨(if x < 0 then ['-'] else if s.signed then ['+'] else []) ++
    padded (max s.exponent.length 1) x.natAbs, ?_⟩
  unfold layout mantissaText
  rw [Decimal.integerDigits, Decimal.wholePart_of_places, Decimal.fractionDigits_of_places]
  cases s.fraction? <;> simp [behindPoint, Shape.letter]

theorem Shape.letter_ne (s : Shape) :
    s.letter.isDigit = false ∧ s.letter ≠ ' ' ∧ s.letter ≠ '.' ∧ s.letter ≠ '-' := by
  unfold Shape.letter
  split <;> decide

theorem letter_notMem_mantissaText (s : Shape) (n : Nat) : s.letter ∉ mantissaText s n := by
  obtain ⟨hdigit, hblank, hpoint, -⟩ := s.letter_ne
  have hnot : ¬(s.letter.isDigit = true ∨ s.letter = ' ') := by simp [hdigit, hblank]
  have hwhole : s.letter ∉ orZero (fillWhole (ofNat (n / 10 ^ s.places)) s.whole) := fun hmem =>
    hnot (mem_orZero (fun _ => mem_fillWhole (areDigits_ofNat _)) hmem)
  have hds := areDigits_fraction s.places n
  have hlength : (Digits.fraction s.places n).length = (s.fraction?.getD []).length :=
    length_fraction s.places n
  obtain ⟨k, j, hcells, -⟩ := exists_trims hlength
  unfold mantissaText behindPoint
  rw [hcells, List.mem_append, not_or]
  refine ⟨hwhole, ?_⟩
  split
  · rw [List.mem_cons, not_or]
    exact ⟨hpoint, fun hmem => hnot (Trims.mem_shown hds hmem)⟩
  · exact List.not_mem_nil

theorem isVisible_layout_iff (s : Shape) (negative : Bool) (n : Nat) (x : Int) :
    IsVisible s.letter (layout ⟨negative, n, -s.places⟩ x s) ↔
      0 < digitCount (mantissaText s n) := by
  obtain ⟨rest, hrest⟩ := exists_layout_eq s negative n x
  rw [hrest, isVisible_append_mark (letter_notMem_mantissaText s n)]

/-- A mantissa of at least one has a digit in front of the point. -/
theorem digitCount_mantissaText_pos {s : Shape} (h : 10 ^ s.places ≤ n) :
    0 < digitCount (mantissaText s n) := by
  have hpos : n / 10 ^ s.places ≠ 0 := (Nat.div_pos h (ten_pow_pos _)).ne'
  rw [mantissaText, digitCount_append]
  exact Nat.add_pos_left (digitCount_orZero_fillWhole_pos_iff.2 fun hzero => hpos hzero.1) _

/-- The mantissa zero has a digit in front of the point or behind it, or none at all. -/
theorem digitCount_mantissaText_zero_pos_iff (s : Shape) :
    0 < digitCount (mantissaText s 0) ↔
      ¬(ArePadding s.whole ∧ ∀ ps ∈ s.fraction?, .zero ∉ ps) := by
  have hdecimals : 0 < digitCount (behindPoint s.fraction?
        (fractionCells ((Digits.fraction s.places 0).zip (s.fraction?.getD []))).flatten) ↔
      ∃ ps ∈ s.fraction?, .zero ∈ ps := by
    unfold behindPoint Shape.places
    cases s.fraction? with
    | none => simp [digitCount]
    | some ps =>
      have hpoint (ds : List Char) : digitCount ('.' :: ds) = digitCount ds :=
        List.countP_cons_of_neg (by decide)
      simp only [Option.isSome_some, if_true, Option.getD_some, hpoint,
        digitCount_zero_cells_pos_iff, Option.mem_some_iff, exists_eq_left']
  rw [mantissaText, digitCount_append, Nat.add_pos_iff_pos_or_pos, Nat.zero_div,
    digitCount_orZero_fillWhole_pos_iff, hdecimals, not_and_or, not_and_or]
  simp only [not_true, false_or, not_forall, not_not, exists_prop]

namespace Section

variable {s : Section} {c : Decimal.Context} {m : Decimal}

theorem isPlain_body (s : Section) : ∀ t ∈ s.body, t.isPlain = true :=
  forall_body (P := (·.isPlain = true)) (fun _ => rfl) rfl rfl

theorem percent_notMem_body (s : Section) : .percent ∉ s.body := fun h =>
  forall_body (P := (· ≠ .percent)) (by simp) (by simp) (by simp) _ h rfl

theorem rest_lt (s : Section) : s.rest < s.chars.length := by
  have hlength := s.length_le
  have hwidth := s.width_eq
  have hpos := s.width_pos
  have hrest : s.rest = s.width - 1 + s.places := rfl
  omega

/-- The leading digit of a number in the arithmetic is far above the least exponent. -/
theorem least_le (s : Section) (hp : m.digitCount ≤ c.precision) :
    c.least ≤ s.width - 1 - m.digitCount := by
  have hwidth := s.width_pos
  have hmin : Decimal.minExponent = -999999 := rfl
  unfold Decimal.Context.least
  omega

/-- A mantissa has a digit in front of the point, unless the number is zero. -/
theorem isVisible_iff (hp : m.digitCount ≤ c.precision) (h : Number.bodyText c m s.body = .ok t) :
    IsVisible s.letter t ↔
      ¬(m.magnitude = 0 ∧ ArePadding s.whole ∧ ∀ ps ∈ s.fraction?, .zero ∉ ps) := by
  rw [s.bodyText_eq] at h
  obtain ⟨⟨a, x⟩, hsplit, h⟩ := bind_eq_ok_iff.1 h
  obtain rfl := Except.ok.inj h
  replace hsplit := mapError_eq_ok_iff.1 hsplit
  rw [Decimal.magnitude_eq_zero_iff]
  by_cases h0 : m.coefficient = 0
  · unfold split at hsplit
    rw [if_pos (by simpa [Decimal.isZero] using h0)] at hsplit
    obtain ⟨a', ha, hsplit⟩ := bind_eq_ok_iff.1 hsplit
    obtain ⟨rfl, rfl⟩ := Prod.mk.inj (Except.ok.inj hsplit)
    obtain rfl := Decimal.Context.roundHalfUp_of_ok ha
    rw [Decimal.Context.floor_of_coefficient_eq_zero h0, isVisible_layout_iff,
      digitCount_mantissaText_zero_pos_iff]
    simp only [h0, true_and]
  · obtain ⟨n, hn, hlow, -⟩ := split_of_ok h0 hp (s.least_le hp) hsplit
    obtain rfl : a = _ := hn
    rw [isVisible_layout_iff]
    refine iff_of_true (digitCount_mantissaText_pos ?_) fun h => h0 h.1
    exact (Nat.pow_le_pow_right (by decide) (Nat.le_add_left _ _)).trans hlow

end Section

end Scientific

/-! ## Numbers -/

namespace Number

variable {v m : Decimal}

/-- The arithmetic for a number has room for all of its digits, unless it is tiny. -/
theorem holds_context {k : Nat} (hk : (k : Int) ≤ Decimal.maxExponent) (hv : v.magnitude ≤ 10 ^ k)
    (h : v.magnitude = 0 ∨ 10 ^ Decimal.minExponent ≤ v.magnitude) :
    (context v).Holds v.magnitude := by
  rcases h with hzero | hlarge
  · rw [hzero]
    exact ⟨Decimal.ten_zpow_pos _, 0, by simp⟩
  · have h0 : v.coefficient ≠ 0 := by
      rw [Ne, ← Decimal.magnitude_eq_zero_iff]
      exact ((Decimal.ten_zpow_pos _).trans_le hlarge).ne'
    have hlow : Decimal.minExponent < v.adjusted + 1 :=
      (zpow_lt_zpow_iff_right₀ (by norm_num : (1 : Rat) < 10)).1
        (hlarge.trans_lt (Decimal.magnitude_lt_ten_zpow v))
    rw [← zpow_natCast] at hv
    refine Decimal.Context.holds_of_exponent ?_ fun _ => (Decimal.adjusted_le h0 hv).trans hk
    simp only [Decimal.Context.least, context, Decimal.adjusted] at hlow ⊢
    omega

theorem exists_abs {k : Nat} (hk : (k : Int) ≤ Decimal.maxExponent) (hv : v.magnitude ≤ 10 ^ k) :
    ∃ m, (context v).abs v = .ok m ∧ m.magnitude ≤ 10 ^ k ∧
      (v.magnitude = 0 ∨ 10 ^ Decimal.minExponent ≤ v.magnitude → m.magnitude = v.magnitude) ∧
      (v.magnitude < 10 ^ Decimal.minExponent → m.magnitude ≤ 10 ^ Decimal.minExponent) := by
  have hp : 0 < (context v).precision := Nat.add_pos_left (by decide) _
  have hleast := Decimal.Context.least_le hp
  have hmin : Decimal.minExponent ≤ (k : Int) := (by decide : _ ≤ (0 : Int)).trans (by omega)
  have hv' : v.magnitude ≤ 10 ^ (k : Int) := by rwa [zpow_natCast]
  obtain ⟨m, hm, hle⟩ := Decimal.Context.exists_abs hp (hleast.trans hmin) hk hv'
  rw [zpow_natCast] at hle
  refine ⟨m, hm, hle, fun hexact => ?_, fun htiny => ?_⟩
  · obtain ⟨m', hm', -, hmagnitude, -⟩ :=
      Decimal.Context.exists_abs_eq (Nat.le_add_left _ _) (holds_context hk hv hexact)
    obtain rfl := Except.ok.inj (hm.symm.trans hm')
    exact hmagnitude
  · obtain ⟨m', hm', hle'⟩ := Decimal.Context.exists_abs hp hleast (hmin.trans hk) htiny.le
    obtain rfl := Except.ok.inj (hm.symm.trans hm')
    exact hle'

/-- A section `# ?/?` shows a digit in front of the slash, or anywhere if it shows no fraction, and
    a section `#.#e+0` in front of the letter, unless the number is zero to the section and its
    places are padding. It is zero to a fraction that is at most half of the smallest one, and to
    a mantissa only if the arithmetic has zero for it. -/
theorem isVisible_text_iff (v : Decimal) (hv : v.magnitude < 10 ^ 309) :
    ∃ m, (context v).abs v = .ok m ∧
      (v.magnitude = 0 ∨ 10 ^ Decimal.minExponent ≤ v.magnitude → m.magnitude = v.magnitude) ∧
      (v.magnitude < 10 ^ Decimal.minExponent → m.magnitude ≤ 10 ^ Decimal.minExponent) ∧
      (∀ s : Fraction.FreeSection, s.whole ≠ [] →
        (s.denominator.length ≤ Digits.limit → ∃ t, text v s.toSection.chars = .ok t) ∧
        ∀ t, text v s.toSection.chars = .ok t →
          (IsVisible '/' t ↔ ¬(2 * s.limit * m.magnitude ≤ 1 ∧ ArePadding s.whole))) ∧
      ∀ s : Scientific.Section,
        ((s.chars.length : Int) ≤ Decimal.maxExponent → ∃ t, text v s.chars = .ok t) ∧
        ∀ t, text v s.chars = .ok t →
          (IsVisible s.letter t ↔
            ¬(m.magnitude = 0 ∧ ArePadding s.whole ∧ ∀ ps ∈ s.fraction?, .zero ∉ ps)) := by
  obtain ⟨m, hm, hle, hexact, htiny⟩ := exists_abs (k := 309) (by decide) hv.le
  have hp : 0 < (context v).precision := Nat.add_pos_left (by decide) _
  have hdigits := (Decimal.Context.fits_of_fit hp hm).digitCount_le
  refine ⟨m, hm, hexact, htiny, fun s hwhole => ?_, fun s => ?_⟩
  · have htext := text_eq_of_core s.toSection.isPlain_body s.toSection.ofTokens_body
      s.toSection.any_isPlace_body s.toSection.percent_notMem_body hm
    rw [Fraction.Section.chars, htext]
    refine ⟨fun hlength => ?_, fun t ht => ?_⟩
    · obtain ⟨t, ht⟩ := Fraction.FreeSection.exists_bodyText (c := context v) hwhole hlength
        (by decide) hle
      exact ⟨_, bind_eq_ok_iff.2 ⟨t, ht, rfl⟩⟩
    · obtain ⟨number, hnumber, ht⟩ := bind_eq_ok_iff.1 ht
      obtain rfl := Except.ok.inj ht
      rw [isVisible_signText_append (by decide), Fraction.FreeSection.isVisible_iff hwhole hnumber]
  · have htext := text_eq_of_core s.isPlain_body s.ofTokens_body s.isCore_body.any_isPlace
      s.percent_notMem_body hm
    rw [Scientific.Section.chars, htext]
    refine ⟨fun hlength => ?_, fun t ht => ?_⟩
    · obtain ⟨mantissa, exponent, μ, x, ht, -⟩ := s.exists_bodyText (c := context v) hdigits
        ((Int.ofNat_lt.2 s.rest_lt).trans_le hlength) (s.least_le hdigits)
      exact ⟨_, bind_eq_ok_iff.2 ⟨_, ht, rfl⟩⟩
    · obtain ⟨number, hnumber, ht⟩ := bind_eq_ok_iff.1 ht
      obtain rfl := Except.ok.inj ht
      rw [isVisible_signText_append s.letter_ne.2.2.2, s.isVisible_iff hdigits hnumber]

/-- The section `? ?/??`. -/
def blankFraction : Fraction.FreeSection :=
  { Fraction.FreeSection.twoPlaces with whole := [.question] }

/-- The section `?#.#e-00`. -/
def blankMantissa : Scientific.Section :=
  { Scientific.Section.engineering with
    whole := [.question, .hash]
    fraction? := some [.hash]
    whole_ne := by decide }

/-- Five thousandths are zero to the first section, and not to the second one. -/
theorem isVisible_text_iff_thousandths :
    (⟨false, 5, -3⟩ : Decimal).magnitude < 10 ^ 309 ∧
      (∃ t, text ⟨false, 5, -3⟩ blankFraction.toSection.chars = .ok t ∧ ¬IsVisible '/' t) ∧
      ∃ t, text ⟨false, 5, -3⟩ blankMantissa.chars = .ok t ∧ IsVisible 'e' t := by
  have hvalue : (⟨false, 5, -3⟩ : Decimal).magnitude = 1 / 200 := by decide +kernel
  have hone : (⟨false, 5, -3⟩ : Decimal).magnitude < 1 := by decide +kernel
  have hv := hone.trans_le (one_le_pow₀ (by norm_num : (1 : Rat) ≤ 10) (n := 309))
  have hlarge : (10 : Rat) ^ Decimal.minExponent ≤ 1 / 200 :=
    (Decimal.ten_zpow_le (by decide : Decimal.minExponent ≤ -3)).trans (by norm_num)
  obtain ⟨m, -, hexact, -, hfraction, hmantissa⟩ := isVisible_text_iff _ hv
  rw [hvalue] at hexact
  have hm := hexact (.inr hlarge)
  refine ⟨hv, ?_, ?_⟩
  · obtain ⟨hexists, hiff⟩ := hfraction blankFraction (by decide)
    obtain ⟨t, ht⟩ := hexists (by decide)
    refine ⟨t, ht, fun hvisible => (hiff t ht).1 hvisible ⟨?_, by decide⟩⟩
    rw [hm]
    decide +kernel
  · obtain ⟨hexists, hiff⟩ := hmantissa blankMantissa
    obtain ⟨t, ht⟩ := hexists (by decide)
    refine ⟨t, ht, (hiff t ht).2 fun hzero => ?_⟩
    rw [hm] at hzero
    exact absurd hzero.1 (by norm_num)

/-- Zero is blank in both. -/
theorem text_zero_blank :
    (text ⟨false, 0, 0⟩ blankFraction.toSection.chars).toOption = some " ".toList ∧
      ¬IsVisible '/' " ".toList ∧
      (text ⟨false, 0, 0⟩ blankMantissa.chars).toOption = some " .e00".toList ∧
      ¬IsVisible 'e' " .e00".toList :=
  ⟨by decide +kernel, by decide, by decide +kernel, by decide⟩

example : blankFraction.toSection.chars = "? ?/??".toList ∧
    blankMantissa.chars = "?#.#e-00".toList := ⟨by rfl, by rfl⟩

end Number

end Worksheet.Format
