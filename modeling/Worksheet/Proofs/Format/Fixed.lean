-- SUMMARY: A section with places around a point shows a number rounded half up to the places after it.
import Worksheet.Proofs.Format.Filling
import Worksheet.Proofs.Format.Layout

/-!
# Fixed-Point Sections

A section such as `#,##0.0?,%` scales a number by its percent signs and the commas behind its
last place. What it shows is read as the scaled number, rounded half up to as many digits as
there are places after the point, and every place for a zero has a digit: `Section.text_fixedPoint`.
-/

namespace Worksheet.Format.Fixed

open Digits Reading NumberToken

/-- Places and commas, a point with places behind it or none of them, and then commas and
    percent signs. -/
structure Section where
  whole : List NumberToken
  fraction? : Option (List Placeholder)
  commas : Nat
  percents : Nat
  isCore_whole : Layout.IsCore whole
  mem_whole : ∀ t ∈ whole, t.isPlace = true ∨ t = .comma
  fraction_ne : fraction? ≠ some []

namespace Section

/-- The places after the point. -/
def fraction (s : Section) : List Placeholder := s.fraction?.getD []

def body (s : Section) : List NumberToken :=
  s.whole ++ pointTokens s.fraction?

/-- What stands behind the last place. -/
def tail (s : Section) : List NumberToken :=
  List.replicate s.commas .comma ++ List.replicate s.percents .percent

def chars (s : Section) : List Char := texts (s.body ++ s.tail)

/-- The number that the section shows for a number. -/
def scaled (s : Section) (x : Rat) : Rat := x * 100 ^ s.percents / 1000 ^ s.commas

/-- What the section shows before and after the point for a number that is rounded already. -/
structure Shows (s : Section) (x : Rat) (whole decimals : List Char) : Prop where
  mem_whole : ∀ c ∈ whole, c.isDigit = true ∨ c = ' ' ∨ c = ','
  mem_decimals : ∀ c ∈ decimals, c.isDigit = true ∨ c = ' '
  decimal?_eq : decimal? (whole ++ behindPoint s.fraction? decimals) = some x
  count_zero_le : (places s.whole).count .zero ≤ digitCount whole
  isDigit_of_zero : ∀ i : Nat,
    s.fraction[i]? = some .zero → (decimals[i]?).any Char.isDigit = true
  /-- A zero that only zeros follow does not stand behind the last zero place. -/
  exists_zero : ∀ i : Nat, decimals[i]? = some '0' →
    (∀ c ∈ decimals.drop (i + 1), c = '0' ∨ c = ' ') → ∃ j, i ≤ j ∧ s.fraction[j]? = some .zero

end Section

variable {s : Section} {v : Decimal}

/-! ## The layout -/

namespace Section

theorem forall_body {P : NumberToken → Prop} (hplace : ∀ p, P (.digit p)) (hcomma : P .comma)
    (hpoint : P .point) : ∀ t ∈ s.body, P t := by
  have hwhole : ∀ t ∈ s.whole, P t := by
    intro t ht
    rcases s.mem_whole t ht with h | rfl
    · cases t with
      | digit p => exact hplace p
      | _ => cases h
    · exact hcomma
  exact List.forall_mem_append.2 ⟨hwhole, forall_pointTokens hplace hpoint⟩

theorem forall_tail {P : NumberToken → Prop} (hcomma : P .comma) (hpercent : P .percent) :
    ∀ t ∈ s.tail, P t :=
  Layout.forall_scaling hcomma hpercent

theorem isCore_body (s : Section) : Layout.IsCore s.body := by
  obtain ⟨p, rest, hstarts⟩ := s.isCore_whole.starts
  refine ⟨⟨p, rest ++ pointTokens s.fraction?, by rw [body, hstarts]; rfl⟩, ?_⟩
  unfold body pointTokens
  cases hfraction : s.fraction? with
  | none => simpa using s.isCore_whole.ends
  | some ps =>
    have hne : ps ≠ [] := fun h => s.fraction_ne (h ▸ hfraction)
    have h := Layout.exists_append_digit (s.whole ++ [.point]) hne
    rwa [List.append_assoc] at h

theorem ofTokens_eq (s : Section) : Layout.ofTokens (s.body ++ s.tail) = ⟨[], s.body, s.tail⟩ :=
  Layout.ofTokens_of_core s.isCore_body (forall_tail ⟨rfl, rfl⟩ ⟨rfl, rfl⟩)

theorem percents_eq (s : Section) : (⟨[], s.body, s.tail⟩ : Layout).percents = s.percents := by
  have hbody : s.body.count .percent = 0 :=
    List.count_eq_zero.2 fun h =>
      forall_body (P := (· ≠ .percent)) (by simp) (by simp) (by simp) _ h rfl
  have hpercents := Layout.percents_scaling [] s.body s.commas s.percents
  rwa [List.nil_append, hbody, Nat.zero_add] at hpercents

theorem commas_eq (s : Section) : (⟨[], s.body, s.tail⟩ : Layout).commas = s.commas :=
  Layout.commas_scaling [] s.body s.commas s.percents

theorem ending_eq (s : Section) :
    (⟨[], s.body, s.tail⟩ : Layout).ending = List.replicate s.percents '%' :=
  Layout.ending_scaling [] s.body s.commas s.percents

theorem places_whole_ne (s : Section) : places s.whole ≠ [] := by
  obtain ⟨p, rest, hstarts⟩ := s.isCore_whole.starts
  rw [hstarts]
  exact List.cons_ne_nil _ _

theorem literals_whole (s : Section) : literals s.whole = [] := by
  refine List.filterMap_eq_nil_iff.2 fun t ht => ?_
  rcases s.mem_whole t ht with h | rfl
  · cases t with
    | literal c => cases h
    | _ => rfl
  · rfl

theorem point_notMem_whole (s : Section) : .point ∉ s.whole := by
  intro h
  rcases s.mem_whole _ h with h | h
  · cases h
  · cases h

theorem beforePoint_body (s : Section) : beforePoint s.body = s.whole :=
  beforePoint_append s.point_notMem_whole s.fraction?

theorem afterPoint?_body (s : Section) : afterPoint? s.body = s.fraction?.map (·.map .digit) :=
  afterPoint?_append s.point_notMem_whole s.fraction?

theorem fractionPlaces_body (s : Section) : fractionPlaces s.body = s.fraction := by
  rw [fractionPlaces, afterPoint?_body, fraction]
  cases s.fraction? with
  | none => rfl
  | some ps => exact places_map_digit ps

theorem slash_notMem_body (s : Section) : .slash ∉ s.body := fun h =>
  forall_body (P := (· ≠ .slash)) (by simp) (by simp) (by simp) _ h rfl

theorem isMark_body (s : Section) : ∀ t ∈ s.body, t.isMark = false :=
  forall_body (fun _ => rfl) rfl rfl

theorem bodyText_eq (s : Section) (c : Decimal.Context) (m : Decimal) :
    Number.bodyText c m s.body = Fixed.text c m s.body :=
  bodyText_eq_text s.slash_notMem_body s.isMark_body c m

/-! ## Filled sections -/

/-- The whole part of a rounded number, and the cells of its fraction behind the point. -/
theorem layout_eq (s : Section) (negative : Bool) (n : Nat) :
    Fixed.layout ⟨negative, n, -s.fraction.length⟩ s.body =
      fillTokens (ofNat (n / 10 ^ s.fraction.length)) s.whole (s.whole.contains .comma) ++
        behindPoint s.fraction?
          (fractionCells ((Digits.fraction s.fraction.length n).zip s.fraction)).flatten := by
  unfold Fixed.layout behindPoint
  rw [s.beforePoint_body, s.afterPoint?_body, Decimal.integerDigits,
    Decimal.wholePart_of_places, Decimal.fractionDigits_of_places]
  cases hfraction : s.fraction? with
  | none => exact (List.append_nil _).symm
  | some ps =>
    have hps : s.fraction = ps := by rw [fraction, hfraction, Option.getD_some]
    have hlength := length_fraction s.fraction.length n
    have hlay : layCells (s.fraction.map .digit)
        (fractionCells ((Digits.fraction s.fraction.length n).zip s.fraction)) = _ :=
      layCells_map_digit (by rw [length_fractionCells, List.length_zip, hlength, Nat.min_self])
    simp only [Option.map_some, Option.isSome_some, if_true, places_map_digit, ← hps, hlay]

/-- What the section shows of a number with as many digits after the point as it has places. -/
theorem exists_shows (s : Section) (negative : Bool) (n : Nat) :
    ∃ whole decimals,
      Fixed.layout ⟨negative, n, -s.fraction.length⟩ s.body =
        whole ++ behindPoint s.fraction? decimals ∧
        s.Shows (n / 10 ^ s.fraction.length) whole decimals := by
  have hdigits := areDigits_ofNat (n / 10 ^ s.fraction.length)
  have hds := areDigits_fraction s.fraction.length n
  have hlength := length_fraction s.fraction.length n
  obtain ⟨k, j, hcells, htrims⟩ := exists_trims hlength
  have hfilter := filter_fillTokens hdigits s.places_whole_ne s.literals_whole
    (s.whole.contains .comma)
  have hwhole := natural?_fillWhole (n / 10 ^ s.fraction.length) (places s.whole)
  have hmem : ∀ c ∈ fillTokens (ofNat (n / 10 ^ s.fraction.length)) s.whole
      (s.whole.contains .comma), c.isDigit = true ∨ c = ' ' ∨ c = ',' :=
    fun c => mem_fillTokens hdigits s.places_whole_ne s.literals_whole
  have hpoint : '.' ∉ fillTokens (ofNat (n / 10 ^ s.fraction.length)) s.whole
      (s.whole.contains .comma) := fun h => absurd (hmem '.' h) (by decide)
  refine ⟨fillTokens (ofNat (n / 10 ^ s.fraction.length)) s.whole (s.whole.contains .comma),
    (Digits.fraction s.fraction.length n).take k ++ List.replicate j ' ', ?_,
    hmem, fun c => Trims.mem_shown hds, ?_, ?_, fun i hi => htrims.isDigit_of_zero hds hlength hi j,
    fun i => htrims.exists_zero_of_trailing hds⟩
  · rw [s.layout_eq, hcells]
  · exact htrims.decimal?_behindPoint hpoint (hfilter ▸ hwhole) j
  · rw [← digitCount_filter (c := ',') (by decide), hfilter]
    exact count_zero_le_digitCount hdigits _

end Section

/-! ## The section -/

namespace Section

theorem scaled_eq (s : Section) (x : Rat) :
    s.scaled x = x * 10 ^ (2 * s.percents - 3 * s.commas : Int) :=
  scale_factor x s.commas s.percents

theorem length_le (s : Section) :
    s.fraction.length + (s.commas + s.percents) ≤ s.chars.length := by
  have htexts := length_le_length_texts (s.body ++ s.tail)
  have hbody : s.fraction.length ≤ s.body.length := by
    rw [fraction, body]
    cases s.fraction? with
    | none => exact Nat.zero_le _
    | some ps =>
      simp only [Option.getD_some, pointTokens, List.length_append, List.length_cons,
        List.length_map]
      omega
  rw [List.length_append, tail, List.length_append, List.length_replicate,
    List.length_replicate] at htexts
  exact (Nat.add_le_add_right hbody _).trans htexts

/-- The section shows the scaled number rounded half up to its places after the point. -/
theorem text_fixedPoint (s : Section) (v : Decimal) (hdigits : v.digitCount < 100000)
    (hadjusted : v.adjusted.natAbs < 100000) (hlength : s.chars.length < 100000) :
    ∃ whole decimals,
      Number.text v s.chars =
        .ok (signText v.value ++ (whole ++ behindPoint s.fraction? decimals) ++
          List.replicate s.percents '%') ∧
      s.Shows (Decimal.halfUp (1 / 10 ^ s.fraction.length) (s.scaled v.magnitude))
        whole decimals := by
  have hmax : Decimal.maxExponent = 999999 := rfl
  have hmin : Decimal.minExponent = -999999 := rfl
  have hsize := s.length_le
  have hexponent : v.adjusted = v.exponent + v.digitCount - 1 := rfl
  have hprecision : 0 < (Number.context v).precision := Nat.add_pos_left (by decide) _
  have hleast := Decimal.Context.least_le hprecision
  obtain ⟨m, -, hmagnitude, -, htext⟩ := exists_inLayout_eq (d := v) (l := ⟨[], s.body, s.tail⟩)
    (Decimal.Context.holds_of_exponent (by omega) (by omega))
    (Decimal.Context.holds_shift (by rw [s.percents_eq]; omega) (by rw [s.percents_eq]; omega))
    (Decimal.Context.holds_shift (by rw [s.percents_eq, s.commas_eq]; omega)
      (by rw [s.percents_eq, s.commas_eq]; omega))
    (by rw [s.percents_eq]; omega) (by rw [s.commas_eq]; omega)
  rw [s.percents_eq, s.commas_eq] at hmagnitude
  have hround := Decimal.Context.roundHalfUp_shift (c := Number.context v) hprecision
    (by omega : (s.fraction.length : Int) ≤ Decimal.maxExponent) hmagnitude (by omega)
  obtain ⟨whole, decimals, hlayout, hshows⟩ := s.exists_shows m.negative
    ⌊s.scaled v.magnitude * 10 ^ s.fraction.length + 1 / 2⌋₊
  rw [← s.scaled_eq] at hround
  rw [← Decimal.halfUp_one_div] at hshows
  have hbody : Number.bodyText (Number.context v) m s.body =
      .ok (whole ++ behindPoint s.fraction? decimals) := by
    rw [s.bodyText_eq, Fixed.text, s.fractionPlaces_body]
    exact bind_eq_ok_iff.2 ⟨_, mapError_eq_ok_iff.2 hround, congrArg _ hlayout⟩
  have hplain : ∀ t ∈ s.body ++ s.tail, t.isPlain = true :=
    List.forall_mem_append.2 ⟨forall_body (fun _ => rfl) rfl rfl, forall_tail rfl rfl⟩
  have hplace : (s.body ++ s.tail).any isPlace = true := by
    rw [List.any_append, s.isCore_body.any_isPlace, Bool.true_or]
  refine ⟨whole, decimals, ?_, hshows⟩
  rw [chars, text_texts hplain hplace, s.ofTokens_eq, htext, hbody]
  simp only [Layout.beginning, s.ending_eq]
  exact congrArg Except.ok (by simp [texts])

/-- The section `#,##0.0?,%`. -/
def grouped : Section where
  whole := [.digit .hash, .comma, .digit .hash, .digit .hash, .digit .zero]
  fraction? := some [.zero, .question]
  commas := 1
  percents := 1
  isCore_whole :=
    ⟨⟨.hash, _, rfl⟩, ⟨[.digit .hash, .comma, .digit .hash, .digit .hash], .zero, rfl⟩⟩
  mem_whole := by decide
  fraction_ne := by decide

/-- Half of the last place is carried through all places before the point. -/
theorem text_fixedPoint_grouped :
    (⟨true, 123456789995, -2⟩ : Decimal).digitCount < 100000 ∧
      (⟨true, 123456789995, -2⟩ : Decimal).adjusted.natAbs < 100000 ∧
      grouped.chars.length < 100000 ∧
      ∃ whole decimals,
        Number.text ⟨true, 123456789995, -2⟩ grouped.chars =
          .ok (signText (⟨true, 123456789995, -2⟩ : Decimal).value ++
            (whole ++ behindPoint grouped.fraction? decimals) ++ ['%']) ∧
        grouped.Shows (Decimal.halfUp (1 / 10 ^ grouped.fraction.length)
          (grouped.scaled (⟨true, 123456789995, -2⟩ : Decimal).magnitude)) whole decimals :=
  ⟨by decide +kernel, by decide +kernel, by decide +kernel,
    text_fixedPoint grouped _ (by decide +kernel) (by decide +kernel) (by decide +kernel)⟩

example : grouped.chars = "#,##0.0?,%".toList := by rfl

example : Number.text ⟨true, 123456789995, -2⟩ grouped.chars =
    .ok "-123,456,790.0 %".toList := by rfl

end Section

end Worksheet.Format.Fixed
