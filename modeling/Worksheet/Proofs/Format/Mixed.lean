-- SUMMARY: A section with a slash shows a whole part and a fraction that are read as they were laid out.
import Worksheet.Proofs.Format.Filling
import Worksheet.Proofs.Format.Fraction

/-!
# Mixed Numbers

A section such as `# ?/?` shows the whole part of a number and a fraction for what is left of it,
and `?/?` shows the number as one fraction. A fraction of one is carried into the whole part, and
beside a whole part a fraction of zero is not shown, so the text has one of three forms. However it
is aligned, it is read as the whole part and the fraction that were meant:
`Section.exists_text`.
-/

namespace Worksheet.Format

open Digits NumberToken Reading

/-! ## What is shown -/

namespace Reading.Mixed

variable {w : Nat} {r : Ratio}

/-- A whole part and a fraction beside it. -/
def carry (w : Nat) (r : Ratio) : Mixed :=
  if r.numerator = r.denominator then ⟨w + 1, none⟩
  else if r.numerator = 0 then ⟨w, none⟩
  else ⟨w, some r⟩

/-- None of the numbers is too long to be written. -/
def Fits (m : Mixed) : Prop :=
  count m.whole ≤ limit ∧ ∀ r ∈ m.fraction?, count r.numerator ≤ limit ∧ count r.denominator ≤ limit

instance (m : Mixed) : Decidable m.Fits := inferInstanceAs (Decidable (_ ∧ _))

theorem value_carry (hr : 0 < r.denominator) : (carry w r).value = w + r.value := by
  have hpos : (r.denominator : Rat) ≠ 0 := by exact_mod_cast hr.ne'
  unfold carry
  split
  · rename_i hone
    simp [Mixed.value, Ratio.value, hone, div_self hpos]
  · split
    · rename_i hzero
      simp [Mixed.value, Ratio.value, hzero]
    · rfl

/-- A fraction beside a whole part is neither zero nor one. -/
theorem of_mem_carry {x : Ratio} (h : x ∈ (carry w r).fraction?) :
    x = r ∧ r.numerator ≠ 0 ∧ r.numerator ≠ r.denominator := by
  unfold carry at h
  split at h
  · cases h
  · rename_i hone
    split at h
    · cases h
    · rename_i hzero
      exact ⟨(Option.some.inj h).symm, hzero, hone⟩

end Reading.Mixed

namespace Fraction

open Reading (Mixed)

variable {s : Shape} {w : Nat} {r : Ratio}

theorem exists_alignNumerator (s : Shape) (ds : List Char) :
    ∃ i, s.alignNumerator ds = List.replicate i ' ' ++ ds := by
  unfold Shape.alignNumerator
  split
  · exact ⟨_, rfl⟩
  · exact ⟨0, rfl⟩

theorem exists_alignDenominator (s : Shape) (ds : List Char) :
    ∃ j, s.alignDenominator ds = ds ++ List.replicate j ' ' ∧ (s.isFixed = true → j = 0) := by
  unfold Shape.alignDenominator
  split
  · rename_i h
    refine ⟨_, rfl, fun hfixed => ?_⟩
    rw [hfixed] at h
    cases h
  · exact ⟨0, (List.append_nil ds).symm, fun _ => rfl⟩

/-- The text of a whole part and a fraction. -/
structure Reads (s : Shape) (m : Mixed) (t : List Char) : Prop where
  mixed?_eq : mixed? t = some m
  /-- A denominator that is fixed stands at the end as it is. -/
  exists_front : s.isFixed = true →
    ∀ r ∈ m.fraction?, ∃ front, t = front ++ '/' :: ofNat r.denominator
  /-- Without places for a whole part there is nothing but the fraction. -/
  filter_eq : s.whole = [] → ∀ r ∈ m.fraction?,
    t.filter (· ≠ ' ') = ofNat r.numerator ++ '/' :: ofNat r.denominator

theorem getLast?_append_blanks {front : List Char} (h : ∀ c ∈ front.getLast?, c = ' ') (i : Nat) :
    ∀ c ∈ (front ++ List.replicate i ' ').getLast?, c = ' ' := by
  cases i with
  | zero => rwa [List.replicate_zero, List.append_nil]
  | succ i =>
    intro c hc
    rw [List.replicate_succ', ← List.append_assoc, List.getLast?_concat] at hc
    exact (Option.some.inj hc).symm

/-- The text of a fraction, with the blanks that align it. -/
def Shape.fractionText (s : Shape) (r : Ratio) : List Char :=
  s.alignNumerator (ofNat r.numerator) ++ '/' :: s.alignDenominator (ofNat r.denominator)

/-- A fraction behind a text that ends with a blank or is empty. -/
theorem reads_fraction (front : List Char) (hslash : '/' ∉ front)
    (hblank : ∀ c ∈ front.getLast?, c = ' ') (hw : natural? front = some w)
    (hfront : s.whole = [] → front = []) :
    Reads s ⟨w, some r⟩ (front ++ s.fractionText r) := by
  obtain ⟨i, hi⟩ := exists_alignNumerator s (ofNat r.numerator)
  obtain ⟨j, hj, hj0⟩ := exists_alignDenominator s (ofNat r.denominator)
  have hdigits := areDigits_ofNat r.numerator
  have hdigits' := areDigits_ofNat r.denominator
  rw [Shape.fractionText, hi, hj]
  refine ⟨?_, fun hfixed x hx => ?_, fun hnil x hx => ?_⟩
  · have hslash' : '/' ∉ front ++ List.replicate i ' ' := by simp [hslash]
    have hbehind : natural? (ofNat r.denominator ++ List.replicate j ' ') = some r.denominator := by
      rw [natural?_append_blanks, natural?_of_areDigits hdigits', value_ofNat]
    have hread := mixed?_of_fraction hslash' (getLast?_append_blanks hblank i)
      ((natural?_append_blanks front i).trans hw) hdigits hbehind
    rw [value_ofNat] at hread
    simpa using hread
  · obtain rfl : r = x := Option.some.inj hx
    exact ⟨front ++ (List.replicate i ' ' ++ ofNat r.numerator), by rw [hj0 hfixed]; simp⟩
  · obtain rfl : r = x := Option.some.inj hx
    have hkeep := filter_of_areDigits hdigits (c := ' ') (by decide)
    have hkeep' := filter_of_areDigits hdigits' (c := ' ') (by decide)
    have hblanks (k : Nat) : (List.replicate k ' ').filter (· ≠ ' ') = [] := by simp
    rw [hfront hnil, List.nil_append, List.filter_append, List.filter_append, hblanks,
      List.filter_cons_of_pos (by decide), List.filter_append, hblanks, hkeep, hkeep',
      List.nil_append, List.append_nil]

/-- A whole part on its own. -/
theorem reads_whole (h : s.whole ≠ []) (w : Nat) :
    Reads s ⟨w, none⟩ (orZero (fillWhole (ofNat w) s.whole)) where
  mixed?_eq := by
    refine mixed?_of_whole (fun hmem => ?_) (natural?_orZero (natural?_fillWhole w s.whole))
    exact absurd (mem_orZero (fun c => mem_fillWhole (areDigits_ofNat w)) hmem) (by decide)
  exists_front := fun _ _ hr => nomatch hr
  filter_eq := fun hnil => absurd hnil h

/-! ## The layout -/

section

variable (hn : count r.numerator ≤ limit) (hq : count r.denominator ≤ limit)
  (hw : count w ≤ limit)

include hn hq hw

theorem layout_of_fraction (h : s.whole = []) : layout s w r = .ok (s.fractionText r) := by
  unfold layout
  simp only [h, List.isEmpty_nil, Bool.not_true, Bool.false_and, Bool.false_eq_true, if_false,
    Bool.true_or, if_true]
  refine bind_eq_ok_iff.2 ⟨_, digits_eq_ofNat hn, ?_⟩
  refine bind_eq_ok_iff.2 ⟨_, digits_eq_ofNat hq, ?_⟩
  exact bind_eq_ok_iff.2 ⟨_, digits_eq_ofNat hw, rfl⟩

theorem layout_of_proper (h : s.whole.isEmpty = false) (hseparator : s.separator = [' '])
    (hone : r.numerator ≠ r.denominator) (hzero : r.numerator ≠ 0) :
    layout s w r = .ok (if fillWhole (ofNat w) s.whole = [] then s.fractionText r
      else fillWhole (ofNat w) s.whole ++ [' '] ++ s.fractionText r) := by
  unfold layout
  simp only [h, hseparator, Bool.not_false, Bool.true_and, decide_eq_false hone,
    decide_eq_false hzero, Bool.or_self, Bool.false_eq_true, if_false]
  refine bind_eq_ok_iff.2 ⟨_, digits_eq_ofNat hn, ?_⟩
  refine bind_eq_ok_iff.2 ⟨_, digits_eq_ofNat hq, ?_⟩
  refine bind_eq_ok_iff.2 ⟨_, digits_eq_ofNat hw, ?_⟩
  cases fillWhole (ofNat w) s.whole <;> rfl

end

theorem layout_of_one (h : s.whole.isEmpty = false) (hone : r.numerator = r.denominator)
    (hw : count (w + 1) ≤ limit) :
    layout s w r = .ok (orZero (fillWhole (ofNat (w + 1)) s.whole)) := by
  unfold layout
  simp only [h, decide_eq_true hone, Bool.not_false, Bool.true_and, Bool.true_or, if_true]
  exact bind_eq_ok_iff.2 ⟨_, digits_eq_ofNat hw, rfl⟩

theorem layout_of_zero (h : s.whole.isEmpty = false) (hone : r.numerator ≠ r.denominator)
    (hzero : r.numerator = 0) (hw : count w ≤ limit) :
    layout s w r = .ok (orZero (fillWhole (ofNat w) s.whole)) := by
  unfold layout
  simp only [h, decide_eq_false hone, decide_eq_true hzero, Bool.not_false, Bool.true_and,
    Bool.false_or, if_true, Bool.false_eq_true, if_false]
  exact bind_eq_ok_iff.2 ⟨_, digits_eq_ofNat hw, rfl⟩

/-- The whole part and the fraction that a shape shows. -/
def Shape.mixed (s : Shape) (w : Nat) (r : Ratio) : Mixed :=
  if s.whole = [] then ⟨0, some r⟩ else .carry w r

theorem Shape.value_mixed (hw : s.whole = [] → w = 0) (hr : 0 < r.denominator) :
    (s.mixed w r).value = w + r.value := by
  unfold mixed
  split
  · rename_i hwhole
    rw [hw hwhole]
    rfl
  · exact Mixed.value_carry hr

theorem Shape.eq_of_mem_mixed {x : Ratio} (h : x ∈ (s.mixed w r).fraction?) : x = r := by
  unfold mixed at h
  split at h
  · exact (Option.some.inj h).symm
  · exact (Mixed.of_mem_carry h).1

/-- A fraction beside a whole part is proper, if it is not above one. -/
theorem Shape.proper_of_mem_mixed (hwhole : s.whole ≠ []) (hle : r.numerator ≤ r.denominator)
    {x : Ratio} (h : x ∈ (s.mixed w r).fraction?) :
    0 < x.numerator ∧ x.numerator < x.denominator := by
  unfold mixed at h
  rw [if_neg hwhole] at h
  obtain ⟨rfl, hzero, hone⟩ := Mixed.of_mem_carry h
  exact ⟨Nat.pos_of_ne_zero hzero, lt_of_le_of_ne hle hone⟩

theorem layout_reads (hseparator : s.whole ≠ [] → s.separator = [' ']) (hw : s.whole = [] → w = 0)
    (hfits : (s.mixed w r).Fits) : ∃ t, layout s w r = .ok t ∧ Reads s (s.mixed w r) t := by
  unfold Shape.mixed at hfits ⊢
  by_cases hwhole : s.whole = []
  · obtain rfl := hw hwhole
    rw [if_pos hwhole] at hfits ⊢
    obtain ⟨hn, hq⟩ := hfits.2 r rfl
    exact ⟨_, layout_of_fraction hn hq hfits.1 hwhole,
      reads_fraction [] (by simp) (by simp) rfl fun _ => rfl⟩
  · have hempty : s.whole.isEmpty = false := by simpa using hwhole
    rw [if_neg hwhole] at hfits ⊢
    unfold Mixed.carry at hfits ⊢
    by_cases hone : r.numerator = r.denominator
    · rw [if_pos hone] at hfits ⊢
      exact ⟨_, layout_of_one hempty hone hfits.1, reads_whole hwhole (w + 1)⟩
    · rw [if_neg hone] at hfits ⊢
      by_cases hzero : r.numerator = 0
      · rw [if_pos hzero] at hfits ⊢
        exact ⟨_, layout_of_zero hempty hone hzero hfits.1, reads_whole hwhole w⟩
      · rw [if_neg hzero] at hfits ⊢
        obtain ⟨hn, hq⟩ := hfits.2 r rfl
        have hread := natural?_fillWhole w s.whole
        refine ⟨_, layout_of_proper hn hq hfits.1 hempty (hseparator hwhole) hone hzero, ?_⟩
        split
        · rename_i hnil
          -- A whole part that shows nothing is zero.
          rw [hnil] at hread
          exact reads_fraction [] (by simp) (by simp) hread fun h => absurd h hwhole
        · refine reads_fraction _ (fun hmem => ?_) (by simp) ?_ fun h => absurd h hwhole
          · rcases List.mem_append.1 hmem with hmem | hmem
            · exact absurd (mem_fillWhole (areDigits_ofNat w) hmem) (by decide)
            · exact absurd hmem (by decide)
          · exact (natural?_append_blanks _ 1).trans hread

/-! ## What is left of a number -/

theorem magnitude_remainder {d : Decimal} (h : w = 0 ∨ w = d.wholePart) :
    (remainder d w).magnitude = d.magnitude - w := by
  unfold remainder
  split
  · rename_i hzero
    rw [hzero, Nat.cast_zero, sub_zero]
  · rename_i hne
    obtain rfl := h.resolve_left hne
    split
    · rename_i he
      rw [Decimal.magnitude_of_coefficient_eq_zero rfl, Decimal.magnitude, Decimal.wholePart,
        if_pos he, if_pos he, sub_self]
    · rename_i he
      obtain ⟨f, hf⟩ : ∃ f : Nat, d.exponent = -f := ⟨(-d.exponent).toNat, by omega⟩
      have hle : d.coefficient / 10 ^ f * 10 ^ f ≤ d.coefficient := Nat.div_mul_le_self _ _
      have hpow : (10 : Rat) ^ f * 10 ^ (-(f : Int)) = 1 := by
        rw [← zpow_natCast, ← Decimal.ten_zpow_add, add_neg_cancel, zpow_zero]
      rw [Decimal.magnitude_eq, Decimal.magnitude_eq, Decimal.wholePart, if_neg he, hf, neg_neg,
        Int.toNat_natCast, Nat.pow_eq, Nat.cast_sub hle, sub_mul, Nat.cast_mul, mul_assoc,
        Nat.cast_pow, Nat.cast_ofNat, hpow, mul_one]

theorem digitCount_remainder_le (d : Decimal) (w : Nat) :
    (remainder d w).digitCount ≤ d.digitCount := by
  unfold remainder
  split
  · exact le_rfl
  · split
    · exact count_le_count (Nat.zero_le _)
    · exact count_le_count (Nat.sub_le _ _)

/-! ## The section -/

/-- Places of a whole part and a blank, or none of them, places of a numerator, a slash, and what
    may stand behind it. -/
structure Section where
  whole : List Placeholder
  numerator : List Placeholder
  denominator : List NumberToken
  numerator_ne : numerator ≠ []
  isPlain_denominator : ∀ t ∈ denominator, t.isPlain = true
  isPlace_or : ∀ t ∈ denominator, t.isPlace = true ∨ Layout.isDenominator t = true

namespace Section

/-- What stands in front of the numerator. -/
def lead (s : Section) : List NumberToken :=
  if s.whole = [] then [] else s.whole.map .digit ++ [.literal ' ']

/-- What stands in front of the slash. -/
def front (s : Section) : List NumberToken := s.lead ++ s.numerator.map .digit

def body (s : Section) : List NumberToken := s.front ++ .slash :: s.denominator

def chars (s : Section) : List Char := texts s.body

def shape (s : Section) : Shape where
  whole := s.whole
  separator := if s.whole = [] then [] else [' ']
  numerator := s.numerator
  denominator := texts s.denominator

/-- The whole part of a number that the section shows on its own. -/
def wholePart (s : Section) (x : Rat) : Nat := if s.whole = [] then 0 else ⌊x⌋₊

theorem wholePart_le (s : Section) {x : Rat} (h0 : 0 ≤ x) : (s.wholePart x : Rat) ≤ x := by
  unfold wholePart
  split
  · rwa [Nat.cast_zero]
  · exact Nat.floor_le h0

theorem sub_wholePart_lt {s : Section} (h : s.whole ≠ []) (x : Rat) : x - s.wholePart x < 1 := by
  rw [wholePart, if_neg h]
  exact sub_lt_iff_lt_add'.2 (Nat.lt_floor_add_one x)

theorem forall_front {s : Section} {P : NumberToken → Prop} (hplace : ∀ p, P (.digit p))
    (hblank : P (.literal ' ')) : ∀ t ∈ s.front, P t := by
  have hlead : ∀ t ∈ s.lead, P t := by
    unfold lead
    split
    · exact fun t ht => nomatch ht
    · exact List.forall_mem_append.2 ⟨forall_map_digit hplace, List.forall_mem_singleton.2 hblank⟩
  exact List.forall_mem_append.2 ⟨hlead, forall_map_digit hplace⟩

theorem isCore_front (s : Section) : Layout.IsCore s.front := by
  constructor
  · unfold front lead
    split
    · obtain ⟨p, ps, h⟩ := List.exists_cons_of_ne_nil s.numerator_ne
      exact ⟨p, ps.map .digit, by rw [h]; rfl⟩
    · rename_i hne
      obtain ⟨p, ps, h⟩ := List.exists_cons_of_ne_nil hne
      exact ⟨p, ps.map .digit ++ [.literal ' '] ++ s.numerator.map .digit, by rw [h]; rfl⟩
  · exact Layout.exists_append_digit s.lead s.numerator_ne

theorem isPlain_body (s : Section) : ∀ t ∈ s.body, t.isPlain = true := by
  refine List.forall_mem_append.2 ⟨?_, List.forall_mem_cons.2 ⟨rfl, s.isPlain_denominator⟩⟩
  exact forall_front (fun _ => rfl) rfl

theorem percent_notMem_body (s : Section) : .percent ∉ s.body := by
  intro h
  rcases List.mem_append.1 h with h | h
  · exact forall_front (P := (· ≠ .percent)) (by simp) (by simp) _ h rfl
  · rcases List.mem_cons.1 h with h | h
    · cases h
    · rcases s.isPlace_or _ h with h | h <;> cases h

theorem ofTokens_body (s : Section) : Layout.ofTokens s.body = ⟨[], s.body, []⟩ := by
  have h : Layout.ofTokens ([] ++ (s.body ++ [])) = _ :=
    Layout.ofTokens_of_slash (by simp) s.isCore_front s.isPlace_or (by simp)
  rwa [List.nil_append, List.append_nil] at h

theorem ofBody?_body (s : Section) : Shape.ofBody? s.body = some s.shape := by
  have hnot : ∀ t ∈ s.front, decide (t ≠ .slash) = true :=
    forall_front (P := fun t => decide (t ≠ .slash) = true) (by simp) (by simp)
  have hplaces : ∀ t ∈ (s.numerator.map NumberToken.digit).reverse, t.isPlace = true := by
    intro t ht
    obtain ⟨p, -, rfl⟩ := List.mem_map.1 (List.mem_reverse.1 ht)
    rfl
  have hlead : s.lead.reverse.takeWhile isPlace = [] ∧
      s.lead.reverse.dropWhile isPlace = s.lead.reverse ∧ places s.lead = s.whole ∧
        literals s.lead = s.shape.separator := by
    unfold lead shape
    split
    · rename_i h
      exact ⟨rfl, rfl, h.symm, rfl⟩
    · refine ⟨by simp [isPlace, place?], by simp [isPlace, place?], ?_, ?_⟩
      · rw [places, List.filterMap_append]
        exact (List.append_nil _).trans (places_map_digit s.whole)
      · have hnone : literals (s.whole.map .digit) = [] := by
          rw [literals, List.filterMap_map]
          exact List.filterMap_eq_nil_iff.2 fun _ _ => rfl
        rw [literals, List.filterMap_append, ← literals, hnone]
        rfl
  obtain ⟨htake, hdrop, hwhole, hseparator⟩ := hlead
  have hbefore : s.body.takeWhile (· ≠ .slash) = s.front := by
    rw [body, List.takeWhile_append_of_pos hnot]
    exact List.append_nil _
  have hafter : s.body.dropWhile (· ≠ .slash) = .slash :: s.denominator := by
    rw [body, List.dropWhile_append_of_pos hnot]
    rfl
  unfold Shape.ofBody?
  simp only [hbefore, hafter]
  rw [front, List.reverse_append, List.takeWhile_append_of_pos hplaces,
    List.dropWhile_append_of_pos hplaces, htake, hdrop, List.append_nil, List.reverse_reverse,
    List.reverse_reverse, hwhole, hseparator, places_map_digit]
  rfl

theorem any_isPlace_body (s : Section) : s.body.any isPlace = true := by
  rw [body, List.any_append, s.isCore_front.any_isPlace, Bool.true_or]

theorem wholePart_shape (s : Section) (d : Decimal) :
    s.shape.wholePart d = s.wholePart d.magnitude := by
  rw [wholePart, ← Decimal.wholePart_eq_floor]
  by_cases hnil : s.whole = [] <;> simp [Shape.wholePart, shape, hnil]

theorem magnitude_remainder (s : Section) (d : Decimal) :
    (remainder d (s.wholePart d.magnitude)).magnitude =
      d.magnitude - s.wholePart d.magnitude := by
  refine Fraction.magnitude_remainder ?_
  rw [← wholePart_shape, Shape.wholePart]
  split
  · exact .inl rfl
  · exact .inr rfl

theorem bodyText_eq (s : Section) (c : Decimal.Context) (d : Decimal) :
    Number.bodyText c d s.body =
      ratio c s.shape (remainder d (s.wholePart d.magnitude)) >>=
        layout s.shape (s.wholePart d.magnitude) := by
  unfold Number.bodyText
  rw [s.ofBody?_body]
  simp only [Fraction.text, s.wholePart_shape]

/-- The text of a number is read as its whole part and the fraction that the section finds for
    what is left of it. -/
theorem exists_text (s : Section) {v : Decimal} (h : (Number.context v).Holds v.magnitude)
    (hratio : ∀ d : Decimal, d.digitCount ≤ v.digitCount →
      d.magnitude = v.magnitude - s.wholePart v.magnitude →
        ratio (Number.context v) s.shape d = .ok r)
    (hfits : (s.shape.mixed (s.wholePart v.magnitude) r).Fits) :
    ∃ t, Number.text v s.chars = .ok (signText v.value ++ t) ∧
      Reads s.shape (s.shape.mixed (s.wholePart v.magnitude) r) t := by
  obtain ⟨m, -, hmagnitude, hdigits, htext⟩ := exists_text_eq_of_core s.isPlain_body
    s.ofTokens_body s.any_isPlace_body s.percent_notMem_body h
  obtain ⟨t, hlayout, hreads⟩ := layout_reads (s := s.shape) (fun hne => if_neg hne)
    (fun hnil => if_pos hnil) hfits
  have hbody : Number.bodyText (Number.context v) m s.body = .ok t := by
    rw [s.bodyText_eq, hmagnitude]
    refine bind_eq_ok_iff.2 ⟨r, hratio _ ?_ (hmagnitude ▸ s.magnitude_remainder m), hlayout⟩
    exact (digitCount_remainder_le m _).trans hdigits
  refine ⟨t, ?_, hreads⟩
  rw [chars, htext, hbody]
  rfl

end Section

end Fraction

end Worksheet.Format
