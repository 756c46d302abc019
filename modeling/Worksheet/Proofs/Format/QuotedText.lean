-- SUMMARY: Which texts in quotes are shown as they are behind every section.
import Worksheet.Proofs.Format.Cleaning
import Worksheet.Proofs.Format.FirstDigits
import Worksheet.Proofs.Format.Literal

/-!
# Text in Quotes

A text in quotes behind a section is shown as it is exactly if none of its characters is a code
there: `showsVerbatim_iff`. One number in one section tells. In `000` the number one and a half is
`002`, and any code in the text moves, scales or replaces these digits, or is not shown itself.
-/

namespace Worksheet.Format

open Digits NumberToken

/-! ## Cleaning a text in quotes -/

section

variable {S q : List Char}

/-- The closing quote is gone, even as the character behind the mark of a filler. -/
theorem clean_quote (hq : '"' ∉ q) : clean (q ++ ['"']) = stripFillers q := by
  have hquote : ∀ c ∈ stripFillers q, decide (c ≠ '"') = true := fun c hc =>
    decide_eq_true fun heq => hq (heq ▸ (stripFillers_sublist q).subset hc)
  rw [clean, stripQuotes, stripFillers_append_eq, List.filter_append, List.filter_eq_self.2 hquote]
  cases takesNext q with
  | true => exact List.append_nil _
  | false => exact List.append_nil _

namespace IsDigitSection

theorem clean_eq (h : IsDigitSection S) : clean S = S :=
  clean_eq_self (h.forall_mem rfl rfl rfl rfl)

/-- The section without its quotes and fillers. -/
theorem clean_quoted (h : IsDigitSection S) (hq : '"' ∉ q) :
    clean (S ++ '"' :: (q ++ ['"'])) = S ++ stripFillers q := by
  have hquote : ∀ c ∈ S, decide (c ≠ '"') = true := h.forall_mem rfl rfl rfl rfl
  have hclean := clean_quote hq
  unfold clean stripQuotes at hclean ⊢
  rw [stripFillers_append (h.forall_mem rfl rfl rfl rfl), List.filter_append,
    List.filter_eq_self.2 hquote, stripFillers_cons rfl, List.filter_cons_of_neg (by decide),
    hclean]

end IsDigitSection

end

/-! ## One and a half in the section `000` -/

/-- One and a half. -/
def threeHalves : Decimal := ⟨false, 15, -1⟩

theorem isDigitSection_000 : IsDigitSection "000".toList where
  mem _ hc := .inl (List.eq_of_mem_replicate (n := 3) hc)
  starts := .inl rfl
  ends := .inl rfl

theorem magnitude_threeHalves : threeHalves.magnitude = 3 / 2 := by decide +kernel

section

variable {e : Int} {j : Nat}

theorem fifteen_mul_div_ne_two (i j : Nat) : 15 * 10 ^ i / 10 ^ j ≠ 2 := by
  rcases Nat.lt_or_ge i j with hij | hij
  · obtain ⟨k, rfl⟩ : ∃ k, j = i + 1 + k := ⟨j - (i + 1), by omega⟩
    have hpow : 10 ^ (i + 1) ≤ 10 ^ (i + 1 + k) := Nat.pow_le_pow_right (by decide) (by omega)
    have hpos := ten_pow_pos i
    rw [Nat.pow_succ] at hpow
    exact (Nat.div_lt_of_lt_mul (by omega)).ne
  · obtain ⟨k, rfl⟩ : ∃ k, i = j + k := ⟨i - j, by omega⟩
    have hone := ten_pow_pos k
    rw [Nat.pow_add, Nat.mul_left_comm, Nat.mul_div_cancel_left _ (ten_pow_pos j)]
    omega

/-- Moved to the left one and a half is fifteen with zeros, and moved to the right it is small. -/
theorem three_halves_cases (e : Int) :
    (∃ i : Nat, 3 / 2 * (10 : Rat) ^ e = (15 * 10 ^ i : Nat)) ∨ e = 0 ∨
      3 / 2 * (10 : Rat) ^ e < 1 / 2 := by
  rcases lt_trichotomy e 0 with he | he | he
  · have hle := Decimal.ten_zpow_le (by omega : e ≤ -1)
    right
    right
    norm_num at hle
    linarith
  · exact .inr (.inl he)
  · obtain ⟨i, rfl⟩ : ∃ i : Nat, e = i + 1 := ⟨(e - 1).toNat, by omega⟩
    left
    refine ⟨i, ?_⟩
    rw [Decimal.ten_zpow_add, zpow_natCast]
    push_cast
    ring

/-- One and a half, moved and rounded, leads with a two only where it stands. -/
theorem floor_add_half_div_eq_two (h : ⌊3 / 2 * (10 : Rat) ^ e + 1 / 2⌋₊ / 10 ^ j = 2) :
    e = 0 ∧ j = 0 := by
  rcases three_halves_cases e with ⟨i, hi⟩ | rfl | hsmall
  · rw [hi, Decimal.floor_natCast_add_half] at h
    exact absurd h (fifteen_mul_div_ne_two i j)
  · have htwo : ⌊3 / 2 * (10 : Rat) ^ (0 : Int) + 1 / 2⌋₊ = 2 := by norm_num
    rw [htwo] at h
    refine ⟨rfl, ?_⟩
    by_contra hj
    have hpow : 10 ^ 1 ≤ 10 ^ j := Nat.pow_le_pow_right (by decide) (by omega)
    rw [Nat.div_eq_of_lt (by omega)] at h
    cases h
  · have hzero : ⌊3 / 2 * (10 : Rat) ^ e + 1 / 2⌋₊ = 0 := Nat.floor_eq_zero.2 (by linarith)
    rw [hzero, Nat.zero_div] at h
    cases h

/-- One and a half, moved and cut off, does not lead with a two. -/
theorem floor_div_ne_two (e : Int) (j : Nat) : ⌊3 / 2 * (10 : Rat) ^ e⌋₊ / 10 ^ j ≠ 2 := by
  rcases three_halves_cases e with ⟨i, hi⟩ | rfl | hsmall
  · rw [hi, Nat.floor_natCast]
    exact fifteen_mul_div_ne_two i j
  · have hone : ⌊3 / 2 * (10 : Rat) ^ (0 : Int)⌋₊ = 1 := by norm_num
    have hle := Nat.div_le_self 1 (10 ^ j)
    rw [hone]
    omega
  · have hzero : ⌊3 / 2 * (10 : Rat) ^ e⌋₊ = 0 := Nat.floor_eq_zero.2 (by linarith)
    rw [hzero, Nat.zero_div]
    decide

end

/-! ## Codes behind the places -/

/-- The powers of ten that scale a number are in range. -/
theorem bounds_of_magnitude {c : Decimal.Context} {d m : Decimal} {l : Layout}
    (h : Number.magnitude c d l = .ok m) :
    2 * (l.percents : Int) ≤ Decimal.maxExponent ∧ 3 * (l.commas : Int) ≤ Decimal.maxExponent := by
  obtain ⟨a, -, h⟩ := bind_eq_ok_iff.1 h
  split at h
  · cases h
  · rename_i hbounds
    simpa only [not_or, not_lt] using hbounds

section

variable {m : Decimal} {w rest : List NumberToken} {number behind q : List Char} {e : Int}

/-- The body is no fraction. -/
theorem slash_notMem (hm : m.magnitude = 3 / 2 * 10 ^ e) {c : Decimal.Context}
    (hbody : Number.bodyText c m (zeros 3 ++ w) = .ok number)
    (hnumber : number ++ behind = padded 3 2 ++ q) (hlength : w.length + behind.length ≤ q.length) :
    .slash ∉ w := by
  intro hslash
  obtain ⟨s, hs, hwhole⟩ := Fraction.exists_ofBody?_zeros 3 hslash
  unfold Number.bodyText at hbody
  simp only [hs] at hbody
  rcases hwhole with hnil | ⟨ps, hps, hcount⟩
  · exact Fraction.text_of_whole_eq_nil hnil hbody behind _ hnumber
  obtain ⟨k, x, hx, hk⟩ := Fraction.exists_text_zeros (by decide) hps hbody
  have htwo : k / 10 ^ ps.length = 2 := by
    rw [hx, List.append_assoc] at hnumber
    exact eq_of_padded_append hnumber (by decide)
  rcases hk with rfl | hfill
  · rw [hm] at htwo
    exact floor_div_ne_two _ _ htwo
  · -- Without a fraction there is nothing to show for the slash.
    have hdigits : count k ≤ ps.length + 1 := by
      rw [count_le_iff (Nat.succ_pos _), Nat.pow_succ]
      have hlt := Nat.lt_mul_div_succ k (ten_pow_pos ps.length)
      rw [htwo] at hlt
      have hpos := ten_pow_pos ps.length
      omega
    have hpos : 0 < k := Nat.pos_of_ne_zero fun h0 => by simp [h0] at htwo
    have hfilled := length_fillWhole_le (ofNat k) s.whole
    rw [← hfill, shownDigits_of_pos hpos, hps, List.length_append, List.length_replicate] at hfilled
    have hsame := congrArg List.length hnumber
    rw [List.length_append, List.length_append, length_padded (by decide)] at hsame
    unfold count at hdigits
    omega

/-- The body is not in scientific notation. -/
theorem isMark_eq_false (hm : m.magnitude = 3 / 2 * 10 ^ e) (hdigits : m.digitCount ≤ 2)
    (hslash : .slash ∉ zeros 3 ++ w)
    (hbody : Number.bodyText (Number.context threeHalves) m (zeros 3 ++ w) = .ok number)
    (hnumber : number ++ behind = padded 3 2 ++ q) : ∀ t ∈ zeros 3 ++ w, t.isMark = false := by
  have hmark : ∀ t ∈ w, t.isMark = false := by
    by_contra hnot
    obtain ⟨s, ps, hs, hwhole⟩ := Scientific.exists_ofBody?_zeros 3 (w := w) (by simpa using hnot)
    have h0 : m.coefficient ≠ 0 := by
      rw [Ne, ← Decimal.magnitude_eq_zero_iff, hm]
      positivity
    have hleast : (Number.context threeHalves).least ≤ -2 := by decide
    have hprecision : 2 ≤ (Number.context threeHalves).precision := by decide
    unfold Number.bodyText at hbody
    simp only [Fraction.ofBody?_eq_none hslash, hs] at hbody
    obtain ⟨k, x, hx, hk⟩ := Scientific.exists_text_zeros (by decide) h0 (by omega) (by omega)
      hwhole hbody
    rw [hx, List.append_assoc] at hnumber
    obtain rfl := eq_of_padded_append hnumber (by decide)
    exact absurd hk (by decide)
  exact List.forall_mem_append.2 ⟨forall_map_digit fun _ => rfl, hmark⟩

/-- The body has no places but those in front. -/
theorem places_eq_nil (hm : m.magnitude = 3 / 2 * 10 ^ e) {c : Decimal.Context}
    (htext : Fixed.text c m (zeros 3 ++ w) = .ok number)
    (hnumber : number ++ behind = padded 3 2 ++ q) : places w = [] ∧ e = 0 := by
  obtain ⟨x, hx⟩ := Fixed.exists_text_zeros (by decide) htext
  have hfilter : (padded 3 2).filter (· ≠ ',') = padded 3 2 := rfl
  have hsame := congrArg (List.filter (· ≠ ',')) hnumber
  rw [List.filter_append, List.filter_append, hx, hfilter, List.append_assoc, hm, mul_assoc,
    ← zpow_natCast, ← Decimal.ten_zpow_add] at hsame
  obtain ⟨hzero, hnil⟩ := floor_add_half_div_eq_two (eq_of_padded_append hsame (by decide))
  have hfraction : (Fixed.fractionPlaces w).length ≤ (places w).length := by
    rw [places_eq w, List.length_append]
    exact Nat.le_add_left _ _
  exact ⟨List.length_eq_zero_iff.1 hnil, by omega⟩

/-- What is shown of one and a half in a layout whose body starts with three zeros. -/
theorem exists_bodyText {body : List NumberToken} {t : List Char}
    (h : Number.inLayout threeHalves ⟨[], body, rest⟩ = .ok t) :
    ∃ m number, m.digitCount ≤ 2 ∧
      m.magnitude = 3 / 2 * 10 ^ (2 * (⟨[], body, rest⟩ : Layout).percents -
        3 * (⟨[], body, rest⟩ : Layout).commas : Int) ∧
      Number.bodyText (Number.context threeHalves) m body = .ok number ∧
      number ++ (⟨[], body, rest⟩ : Layout).ending = t := by
  have hmax : Decimal.maxExponent = 999999 := rfl
  have hleast : (Number.context threeHalves).least ≤ -1000000 := by decide
  have hexponent : threeHalves.exponent = -1 := rfl
  have hadjusted : threeHalves.adjusted = 0 := rfl
  obtain ⟨m₀, hm₀, -⟩ := bind_eq_ok_iff.1 h
  obtain ⟨hpercents, hcommas⟩ := bounds_of_magnitude (mapError_eq_ok_iff.1 hm₀)
  obtain ⟨m, -, hmagnitude, hdigits, htext⟩ := exists_inLayout_eq (d := threeHalves)
    (Decimal.Context.holds_of_exponent (by omega) fun _ => by omega)
    (Decimal.Context.holds_shift (by omega) (by omega))
    (Decimal.Context.holds_shift (by omega) (by omega)) hpercents hcommas
  rw [htext] at h
  obtain ⟨number, hbody, hnumber⟩ := bind_eq_ok_iff.1 h
  rw [magnitude_threeHalves] at hmagnitude
  exact ⟨m, number, hdigits, hmagnitude, hbody, Except.ok.inj hnumber⟩

/-- The tokens behind the places neither belong to the body nor scale the number. -/
theorem ending_eq (h : Number.inLayout threeHalves ⟨[], zeros 3 ++ w, rest⟩ = .ok (padded 3 2 ++ q))
    (hlength : w.length + (texts rest).length ≤ q.length)
    (hends : .slash ∉ zeros 3 ++ w → w = [] ∨ places w ≠ []) :
    w = [] ∧ 2 * (⟨[], zeros 3, rest⟩ : Layout).percents =
        3 * (⟨[], zeros 3, rest⟩ : Layout).commas ∧
      (⟨[], zeros 3, rest⟩ : Layout).ending = q := by
  obtain ⟨m, number, hdigits, hm, hbody, hnumber⟩ := exists_bodyText h
  have hending : (⟨[], zeros 3 ++ w, rest⟩ : Layout).ending.length ≤ (texts rest).length :=
    (texts_sublist (List.dropWhile_sublist _)).length_le
  have hslash : .slash ∉ zeros 3 ++ w := by
    refine List.not_mem_append (by decide) (slash_notMem hm hbody hnumber (by omega))
  have hmark := isMark_eq_false hm hdigits hslash hbody hnumber
  have htext : Fixed.text (Number.context threeHalves) m (zeros 3 ++ w) = .ok number := by
    rwa [Fixed.bodyText_eq_text hslash hmark] at hbody
  obtain ⟨hplaces, hzero⟩ := places_eq_nil hm htext hnumber
  obtain rfl := (hends hslash).resolve_right fun hne => hne hplaces
  rw [List.append_nil] at hzero htext hnumber
  have hself : m.magnitude = 3 / 2 := by
    rw [hm, List.append_nil, hzero, zpow_zero, mul_one]
  have htwo : ⌊(3 / 2 : Rat) + 1 / 2⌋₊ = 2 := by norm_num
  rw [Fixed.text_zeros (by decide) (by decide) fun h0 => ?_, hself, htwo] at htext
  · obtain rfl := Except.ok.inj htext
    exact ⟨rfl, by omega, List.append_cancel_left hnumber⟩
  · have hle := (Decimal.adjusted_le_iff (k := 0) h0).2 (by rw [hself]; norm_num)
    exact hle.trans_lt (by decide)

/-- General would take the place of the last digit. -/
theorem find?_general_of_text {r : List Char}
    (h : Number.text threeHalves ("000".toList ++ r) = .ok (padded 3 2 ++ q)) :
    Text.find? "general".toList (Text.lowerAll r) = none := by
  cases hfind : Text.find? "general".toList (Text.lowerAll r) with
  | none => rfl
  | some i =>
    unfold Number.text inSection at h
    rw [isDigitSection_000.find?_append, hfind] at h
    obtain ⟨t, -, h⟩ := bind_eq_ok_iff.1 h
    have hthird := congrArg (·[2]?) (Except.ok.inj h)
    cases hthird

/-- The tokens of a text that is shown behind one and a half in the section `000`. -/
theorem texts_scan_of_text {r : List Char} (hsub : r.Sublist q)
    (h : Number.text threeHalves ("000".toList ++ r) = .ok (padded 3 2 ++ q)) :
    r = q ∧ texts (scan false q) = q ∧ (∀ t ∈ scan false q, t.isPlace = false ∧ t ≠ .percent) ∧
      (scan false q).head? ≠ some .comma ∧ (scan false q).head? ≠ some .slash := by
  obtain ⟨w, rest, hsplit, hlayout, hends⟩ :=
    Layout.exists_ofTokens (Layout.isCore_zeros (by decide : 0 < 3)) (scan false r)
  have htokens : "000".toList.map ofChar = zeros 3 := rfl
  rw [isDigitSection_000.text_append_eq_inLayout (find?_general_of_text h), htokens, hlayout] at h
  have htexts := (texts_scan_sublist false r).length_le
  have hlength := hsub.length_le
  rw [hsplit, texts, List.flatMap_append, List.length_append] at htexts
  change (texts w).length + (texts rest).length ≤ _ at htexts
  have hw := length_le_length_texts w
  obtain ⟨rfl, hscale, hending⟩ := ending_eq h (by omega) fun hslash => (hends hslash).1
  obtain rfl : scan false r = rest := hsplit
  obtain ⟨-, hplace, hslash⟩ := hends (by decide)
  -- Commas behind the last place are not shown, and the text has no room for them.
  have hparts := List.takeWhile_append_dropWhile (p := (· = NumberToken.comma)) (l := scan false r)
  have hlead := length_le_length_texts ((scan false r).takeWhile (· = .comma))
  have hsum := congrArg (fun ts => (texts ts).length) hparts
  simp only [texts, List.flatMap_append, List.length_append] at hsum
  change (texts _).length + (Layout.ending ⟨[], zeros 3, scan false r⟩).length =
    (texts _).length at hsum
  rw [hending] at hsum
  have hnone : (scan false r).takeWhile (· = .comma) = [] :=
    List.length_eq_zero_iff.1 (by omega)
  rw [hnone, List.nil_append] at hparts
  have hshown : texts (scan false r) = q := by
    rw [← hending, Layout.ending, hparts]
  obtain rfl := hsub.eq_of_length_le (by rw [← hshown]; exact (texts_scan_sublist false r).length_le)
  have hcommas : (⟨[], zeros 3, scan false r⟩ : Layout).commas = 0 := by
    rw [Layout.commas, hnone]
    rfl
  have hpercents : (⟨[], zeros 3, scan false r⟩ : Layout).percents = 0 := by omega
  have hpercent : .percent ∉ zeros 3 ++ scan false r := List.count_eq_zero.1 hpercents
  refine ⟨rfl, hshown, fun t ht => ⟨hplace t ht, ?_⟩, fun hhead => ?_, hslash⟩
  · rintro rfl
    exact hpercent (List.mem_append_right _ ht)
  · obtain ⟨ts, hts⟩ := List.head?_eq_some_iff.1 hhead
    rw [hts] at hnone
    cases hnone

/-- A text that one and a half shows as it is in the section `000` has no codes. -/
theorem isLiteral_of_text {r : List Char} (hsub : r.Sublist q)
    (hmark : ∀ c ∈ r, isFillerMark c = false)
    (h : Number.text threeHalves ("000".toList ++ r) = .ok (padded 3 2 ++ q)) : IsLiteral q := by
  have hgeneral := find?_general_of_text h
  obtain ⟨rfl, htexts, htokens, hcomma, hslash⟩ := texts_scan_of_text hsub h
  have hbare := IsBare.of_texts_scan htexts
  have htoken {c : Char} (hc : c ∈ r) (hnot : c ∉ ['e', 'E', '+', '-']) :
      (ofChar c).isPlace = false ∧ ofChar c ≠ .percent := htokens _ (hbare.ofChar_mem_scan hc hnot)
  refine ⟨fun c hc hcode => ?_, hbare.escape, fun hhead => ?_, fun hhead => ?_, hgeneral⟩
  · simp only [List.mem_cons, List.not_mem_nil, or_false] at hcode
    rcases hcode with rfl | rfl | rfl | rfl | rfl | rfl | rfl
    · exact absurd (hmark _ hc) (by decide)
    · exact absurd (hmark _ hc) (by decide)
    · exact hbare.bracket hc
    · exact absurd (htoken hc (by decide)).1 (by decide)
    · exact absurd (htoken hc (by decide)).1 (by decide)
    · exact absurd (htoken hc (by decide)).1 (by decide)
    · exact (htoken hc (by decide)).2 rfl
  · obtain ⟨rest, rfl⟩ := List.head?_eq_some_iff.1 hhead
    rw [scan_cons_single rfl] at hcomma
    exact hcomma rfl
  · obtain ⟨rest, rfl⟩ := List.head?_eq_some_iff.1 hhead
    rw [scan_cons_single rfl] at hslash
    exact hslash rfl

end

/-! ## Text in quotes behind a section -/

namespace Display

variable {raw : String} {v : Decimal} {strict : Bool} {id : Int} {q : String}

/-- A text in quotes is shown as it is behind every section of digits. -/
def ShowsVerbatim (q : String) : Prop :=
  ∀ (strict : Bool) (id : Int) (raw S : String) (v : Decimal), isDate id = false →
    Decimal.parse? raw.toList = some v → 0 < v.value → v.digitCount < 100000 →
    v.adjusted.natAbs < 100000 → IsDigitSection S.toList →
    text strict raw id (S ++ "\"" ++ q ++ "\"") = (· ++ q) <$> text strict raw id S

theorem sign_of_pos (h : 0 < v.value) : v.sign = .positive := by
  have h0 : v.coefficient ≠ 0 := fun h0 => h.ne' (Decimal.value_eq_zero_iff.2 h0)
  have hnegative : v.negative = false := by
    rw [← Bool.not_eq_true, ← Decimal.value_lt_zero_iff h0]
    exact not_lt.2 h.le
  simp [Decimal.sign, Decimal.isZero, h0, hnegative]

/-- A number above zero in a section that is no date. -/
theorem text_eq_map (hid : isDate id = false) (h : Decimal.parse? raw.toList = some v)
    (hpos : 0 < v.value) {B : String} (hB : ';' ∉ B.toList) :
    text strict raw id B = String.ofList <$> Number.text v (clean B.toList) := by
  rw [text_positive h (sign_of_pos hpos) hB]
  unfold textIn showIn
  rw [hid]
  rfl

theorem text_quoted_eq_map (hid : isDate id = false) (h : Decimal.parse? raw.toList = some v)
    (hpos : 0 < v.value) {S : String} (hS : IsDigitSection S.toList) (hquote : '"' ∉ q.toList)
    (hsep : ';' ∉ q.toList) :
    text strict raw id (S ++ "\"" ++ q ++ "\"") =
      String.ofList <$> Number.text v (S.toList ++ stripFillers q.toList) := by
  have hchars : (S ++ "\"" ++ q ++ "\"").toList = S.toList ++ '"' :: (q.toList ++ ['"']) := by simp
  have hsection : ';' ∉ S.toList := hS.notMem (by decide)
  rw [text_eq_map hid h hpos (by simp [hchars, hsection, hsep]), hchars, hS.clean_quoted hquote]

/-- A text in quotes is shown as it is behind every section exactly if it has no codes. -/
theorem showsVerbatim_iff (hquote : '"' ∉ q.toList) (hsep : ';' ∉ q.toList) :
    ShowsVerbatim q ↔ IsLiteral q.toList := by
  constructor
  · intro h
    have hS := isDigitSection_000
    have hraw : Decimal.parse? "1.5".toList = some threeHalves := by decide +kernel
    have hpos : 0 < threeHalves.value := by decide +kernel
    have hplain : text true "1.5" 1 "000" = .ok (String.ofList (padded 3 2)) := by
      with_unfolding_all rfl
    have heq := h true 1 "1.5" "000" threeHalves rfl hraw hpos (by decide) (by decide) hS
    rw [text_quoted_eq_map rfl hraw hpos hS hquote hsep, hplain] at heq
    refine isLiteral_of_text (stripFillers_sublist q.toList) (isFillerMark_of_mem q.toList) ?_
    cases htext : Number.text threeHalves ("000".toList ++ stripFillers q.toList) with
    | error e =>
      rw [htext] at heq
      cases heq
    | ok t =>
      rw [htext] at heq
      have hsame := congrArg String.toList (Except.ok.inj heq)
      simp only [String.toList_ofList, String.toList_append] at hsame
      rw [hsame]
  · intro hq strict id raw S v hid h hpos _ _ hS
    rw [text_quoted_eq_map hid h hpos hS hquote hsep,
      text_eq_map hid h hpos (hS.notMem (by decide)), hS.clean_eq,
      stripFillers_eq_self hq.isFillerMark_eq_false, text_append hS hq]
    cases Number.text v S.toList with
    | error e => rfl
    | ok t => exact congrArg Except.ok (by simp)

/-- A unit is shown as it is, and a digit takes the place of one. -/
theorem showsVerbatim_of_pcs_not_of_0 :
    '"' ∉ " pcs".toList ∧ ';' ∉ " pcs".toList ∧ ShowsVerbatim " pcs" ∧
      '"' ∉ "0".toList ∧ ';' ∉ "0".toList ∧ ¬ShowsVerbatim "0" := by
  have hunit : ShowsVerbatim " pcs" := (showsVerbatim_iff (by decide) (by decide)).2 (by decide)
  have hzero : ¬ShowsVerbatim "0" := fun h =>
    absurd ((showsVerbatim_iff (by decide) (by decide)).1 h) (by decide)
  exact ⟨by decide, by decide, hunit, by decide, by decide, hzero⟩

/-- The digit of the number is in the place that the quoted zero holds for it. -/
theorem text_of_quoted_0 :
    text true "5" 1 "0\"0\"" = .ok "05" ∧ text true "5" 1 "0" = .ok "5" := by
  constructor
  · with_unfolding_all rfl
  · with_unfolding_all rfl

end Display

end Worksheet.Format
