-- SUMMARY: Numbers as fractions with a fixed denominator, scaled by percent signs and commas.
import Mathlib.Data.List.TakeWhile
import Mathlib.Data.Nat.Factorization.Basic
import Mathlib.Tactic.FieldSimp
import Worksheet.Proofs.Format.Layout
import Worksheet.Proofs.Numeral
import Worksheet.Proofs.Numeral.Integer

/-!
# Fixed Denominators

A section such as `%0/25,,` shows the numerator that a number has over its denominator.
`text_fixedSection` says which arithmetic gives the numerator.
-/

namespace Worksheet

open Digits Format

/-! ## Denominators -/

/-- Digits are read as their value, if they are not too many. -/
theorem Integer.natural?_of_areDigits {ds : List Char} (h : AreDigits ds) (hne : ds ≠ [])
    (hlength : ds.length ≤ limit) : natural? ds = some (value ds) := by
  rw [natural?_of_areDecimals (Text.areDecimals_of_areDigits h) hne hlength,
    Text.number_of_areDigits h]

/-- A natural number is read back as it is written, if it is not too long. -/
theorem Integer.natural?_ofNat {n : Nat} (h : count n ≤ limit) : natural? (ofNat n) = some n := by
  rw [natural?_of_areDigits (areDigits_ofNat n) (List.length_pos_iff.1 (count_pos n)) h,
    value_ofNat]

theorem isDigitLike_char : ∀ d < 10, Text.isDigitLike (char d) = true := by decide

namespace Format

/-- A section that shows a numerator over `k`, with `p` percent signs and `j` commas. -/
def fixedSection (p k j : Nat) : List Char :=
  List.replicate p '%' ++ '0' :: '/' :: ofNat k ++ List.replicate j ','

/-! ## The section -/

theorem isDenominator_char : ∀ d < 10, (NumberToken.ofChar (char d)).isPlace = true ∨
    Layout.isDenominator (NumberToken.ofChar (char d)) = true := by decide

theorem forall_fixedSection {P : Char → Prop} {p k j : Nat} (hp : P '%') (hs : P '/') (hc : P ',')
    (hd : ∀ d < 10, P (char d)) : ∀ c ∈ fixedSection p k j, P c := by
  intro c h
  rcases List.mem_append.1 h with h | h
  · rcases List.mem_append.1 h with h | h
    · exact List.eq_of_mem_replicate h ▸ hp
    · rcases List.mem_cons.1 h with rfl | h
      · exact hd 0 (by decide)
      · rcases List.mem_cons.1 h with rfl | h
        · exact hs
        · obtain ⟨d, hlt, rfl⟩ := areDigits_ofNat k c h
          exact hd d hlt
  · exact List.eq_of_mem_replicate h ▸ hc

theorem ofSection_fixedSection (p k j : Nat) :
    NumberToken.ofSection (fixedSection p k j) =
      List.replicate p .percent ++ (.digit .zero :: .slash :: (ofNat k).map NumberToken.ofChar ++
        List.replicate j .comma) := by
  rw [ofSection_eq_map (forall_fixedSection (by decide) (by decide) (by decide) isSingle_char)]
  simp [fixedSection, NumberToken.ofChar]

theorem ofTokens_fixedSection (p k j : Nat) :
    Layout.ofTokens (NumberToken.ofSection (fixedSection p k j)) =
      ⟨List.replicate p .percent, .digit .zero :: .slash :: (ofNat k).map NumberToken.ofChar,
        List.replicate j .comma⟩ := by
  rw [ofSection_fixedSection]
  have hfront : Layout.IsCore [.digit .zero] := ⟨⟨.zero, [], rfl⟩, ⟨[], .zero, rfl⟩⟩
  refine Layout.ofTokens_of_slash ?_ hfront ?_ ?_
  · intro t ht
    rw [List.eq_of_mem_replicate ht]
    rfl
  · intro t ht
    obtain ⟨c, hc, rfl⟩ := List.mem_map.1 ht
    obtain ⟨d, hd, rfl⟩ := areDigits_ofNat k c hc
    exact isDenominator_char d hd
  · intro t ht
    rw [List.eq_of_mem_replicate ht]
    exact ⟨rfl, rfl⟩

theorem percents_fixedSection (p k j : Nat) :
    (Layout.ofTokens (NumberToken.ofSection (fixedSection p k j))).percents = p := by
  have hk : ((ofNat k).map NumberToken.ofChar).count .percent = 0 := by
    rw [List.count_eq_zero]
    intro h
    obtain ⟨c, hc, hp⟩ := List.mem_map.1 h
    obtain ⟨d, hd, rfl⟩ := areDigits_ofNat k c hc
    have hnot : ∀ d < 10, NumberToken.ofChar (char d) ≠ .percent := by decide
    exact hnot d hd hp
  rw [ofTokens_fixedSection, Layout.percents]
  simp [List.count_append, List.count_replicate, hk]

theorem commas_fixedSection (p k j : Nat) :
    (Layout.ofTokens (NumberToken.ofSection (fixedSection p k j))).commas = j := by
  rw [ofTokens_fixedSection, Layout.commas]
  simp

theorem magnitude_fixedSection {d : Decimal} {p k j : Nat} (h0 : d.coefficient ≠ 0)
    (hl : Decimal.minExponent - d.digitCount ≤ d.exponent)
    (hl' : Decimal.minExponent - d.digitCount ≤ d.exponent + (2 * p - 3 * j))
    (hpercents : 2 * (p : Int) ≤ Decimal.maxExponent)
    (hcommas : 3 * (j : Int) ≤ Decimal.maxExponent)
    (hm : d.adjusted + 2 * p ≤ Decimal.maxExponent) :
    Number.magnitude (Number.context d) d
      (Layout.ofTokens (NumberToken.ofSection (fixedSection p k j))) =
        .ok ⟨false, d.coefficient, d.exponent + (2 * p - 3 * j)⟩ := by
  have hp : (Number.context d).precision = 60 + d.digitCount := rfl
  have hleast : (Number.context d).least = Decimal.minExponent - (60 + d.digitCount) + 1 := by
    rw [Decimal.Context.least, hp]
    push_cast
    rfl
  have hshift := magnitude_eq_shift h0 (hp ▸ Nat.le_add_left _ _) (by omega)
    (l := Layout.ofTokens (NumberToken.ofSection (fixedSection p k j)))
  rw [percents_fixedSection, commas_fixedSection] at hshift
  exact hshift (by omega) hpercents hcommas hm

/-! ## The numerator -/

theorem digits_eq_ofNat {n : Nat} (h : count n ≤ limit) : Fraction.digits n = .ok (ofNat n) := by
  rw [Fraction.digits, exceedsLimit_eq_false_iff.2 h]
  rfl

/-- The numerator of a number over `k`. -/
def numerator (c : Decimal.Context) (d : Decimal) (k : Nat) : Except Decimal.Signal Decimal := do
  c.roundHalfUp (← c.mul d (.ofNat k)) 0

theorem numerator_eq (c : Decimal.Context) (d : Decimal) (k : Nat) :
    numerator c d k =
      c.fit ⟨d.negative, d.coefficient * k, d.exponent⟩ >>= fun r => c.roundHalfUp r 0 := by
  unfold numerator Decimal.Context.mul Decimal.ofNat
  simp

/-- The numerator is exact if the product has only zeros behind the precision. -/
theorem numerator_of_dvd {c : Decimal.Context} {q k u i N : Nat} {e : Int} (hu : 0 < u)
    (hprod : q * k = u * 10 ^ i) (hcount : count u = c.precision) (hl : c.least ≤ e)
    (hN : ((q * k : Nat) : Rat) * 10 ^ e = N) (hlow : Decimal.minExponent < e + c.precision + i)
    (hm : e + c.precision + i ≤ Decimal.maxExponent) :
    numerator c ⟨false, q, e⟩ k = .ok ⟨false, N, 0⟩ := by
  have hcounts : count (q * k) = c.precision + i := by rw [hprod, count_mul_pow hu, hcount]
  have hpos := count_pos u
  have hfit : c.fit ⟨false, q * k, e⟩ = .ok ⟨false, u, e + i⟩ := by
    apply Decimal.Context.fit_of_dvd hu hprod hcount hl
    simp only [Decimal.adjusted, Decimal.digitCount, hcounts]
    omega
  have hvalue :
      (⟨false, u, e + i⟩ : Decimal).magnitude = N * (10 : Rat) ^ (-((0 : Nat) : Int)) := by
    rw [Decimal.magnitude_eq, ← hN, hprod, zpow_add₀ (by norm_num)]
    push_cast
    simp
    ring
  have hNpos : 0 < N := by
    have hq : 0 < q * k := hprod ▸ mul_ten_pow_pos hu i
    have hpos : (0 : Rat) < N := hN ▸ mul_pos (by exact_mod_cast hq) (zpow_pos (by norm_num) e)
    exact_mod_cast hpos
  rw [numerator_eq, hfit]
  apply Decimal.Context.roundHalfUp_exact hNpos hvalue
  · simp only [Decimal.adjusted, Decimal.digitCount]
    omega
  · simp only [Decimal.adjusted, Decimal.digitCount]
    omega

/-- The numerator has lost the digits of the product that are behind the precision. -/
theorem exists_numerator {c : Decimal.Context} {q k i e : Nat} (hpos : 0 < q * k)
    (hp : 0 < c.precision) (hcount : count (q * k) = c.precision + i) (hl : c.least ≤ 0)
    (hm : e + c.precision + i ≤ Decimal.maxExponent) :
    ∃ n, numerator c ⟨false, q, e⟩ k = .ok n ∧ 10 ^ (e + i) ∣ n.coefficient ∧
      count n.coefficient ≤ c.precision + i + e + 1 := by
  rw [numerator_eq]
  exact Decimal.Context.exists_whole_of_fit rfl hpos.ne' hp hcount hl hm

theorem fraction_text_fixed {c : Decimal.Context} {m n : Decimal} {k : Nat} (hk : 0 < k)
    (hlimit : count k ≤ limit) (hn : numerator c m k = .ok n)
    (hlen : count n.coefficient ≤ limit) :
    Fraction.text c m ⟨[], [], [.zero], ofNat k⟩ =
      .ok (ofNat n.coefficient ++ '/' :: ofNat k) := by
  obtain ⟨first, rest, hpos, hlt, hdigits⟩ := head_ofNat hk
  have hlike : (ofNat k).all Text.isDigitLike = true := by
    rw [List.all_eq_true]
    intro c hc
    obtain ⟨d, hd, rfl⟩ := areDigits_ofNat k c hc
    exact isDigitLike_char d hd
  have hfixed : (⟨[], [], [.zero], ofNat k⟩ : Fraction.Shape).isFixed = true := by
    unfold Fraction.Shape.isFixed
    rw [hlike, hdigits]
    simp [char_ne_zero first hlt hpos]
  have hratio : Fraction.ratio c ⟨[], [], [.zero], ofNat k⟩ m = .ok ⟨n.coefficient, k⟩ := by
    unfold Fraction.ratio
    simp only [hfixed, if_true, Integer.natural?_ofNat hlimit]
    exact bind_eq_ok_iff.2 ⟨n, mapError_eq_ok_iff.2 hn, rfl⟩
  have hlayout : Fraction.layout ⟨[], [], [.zero], ofNat k⟩ 0 ⟨n.coefficient, k⟩ =
      .ok (ofNat n.coefficient ++ '/' :: ofNat k) := by
    unfold Fraction.layout
    refine bind_eq_ok_iff.2 ⟨_, digits_eq_ofNat hlen, ?_⟩
    refine bind_eq_ok_iff.2 ⟨_, digits_eq_ofNat hlimit, ?_⟩
    have hzero : count 0 ≤ limit := by decide
    refine bind_eq_ok_iff.2 ⟨_, digits_eq_ofNat hzero, ?_⟩
    simp [Fraction.Shape.alignNumerator, Fraction.Shape.alignDenominator, hfixed, pure, Except.pure]
  unfold Fraction.text
  exact bind_eq_ok_iff.2 ⟨_, hratio, hlayout⟩

/-- What the section shows of a number whose numerator is `n`. -/
theorem text_fixedSection {d m n : Decimal} {p k j : Nat} (hk : 0 < k) (hlimit : count k ≤ limit)
    (hd : d.negative = false)
    (hm : Number.magnitude (Number.context d) d
      (Layout.ofTokens (NumberToken.ofSection (fixedSection p k j))) = .ok m)
    (hn : numerator (Number.context d) m k = .ok n) (hlen : count n.coefficient ≤ limit) :
    Number.text d (clean (fixedSection p k j)) =
      .ok (List.replicate p '%' ++ (ofNat n.coefficient ++ '/' :: ofNat k)) := by
  have hinert : ∀ c ∈ fixedSection p k j, isInert c = true :=
    forall_fixedSection (by decide) (by decide) (by decide) isInert_char
  have hplace : (NumberToken.ofSection (fixedSection p k j)).any NumberToken.isPlace = true := by
    rw [ofSection_fixedSection]
    simp [NumberToken.isPlace, NumberToken.place?]
  have hbody : Number.bodyText (Number.context d) m
      (.digit .zero :: .slash :: (ofNat k).map NumberToken.ofChar) =
        .ok (ofNat n.coefficient ++ '/' :: ofNat k) := by
    have hshape :
        Fraction.Shape.ofBody? (.digit .zero :: .slash :: (ofNat k).map NumberToken.ofChar) =
          some ⟨[], [], [.zero], NumberToken.texts ((ofNat k).map NumberToken.ofChar)⟩ := rfl
    unfold Number.bodyText
    rw [hshape, texts_map_ofChar]
    exact fraction_text_fixed hk hlimit hn hlen
  rw [text_eq_inLayout hinert hplace]
  rw [ofTokens_fixedSection] at hm ⊢
  rw [inLayout_eq hd hm hbody]
  simp only [Layout.beginning, Layout.ending, NumberToken.texts_percents, List.append_assoc]
  simp [NumberToken.texts]

/-! ## A denominator that tells -/

/-- A denominator that puts the digits of a number to its left once more. -/
def repeating (z : Nat) : Nat := 10 ^ (61 + z) + 1

theorem repeating_pos (z : Nat) : 0 < repeating z := Nat.succ_pos _

theorem count_repeating (z : Nat) : count (repeating z) = 62 + z := by
  have hpow := ten_pow_pos (61 + z)
  have hnext : 61 + z + 1 = 62 + z := by omega
  rw [← hnext]
  refine count_eq_succ (Nat.le_succ _) ?_
  rw [repeating, Nat.pow_succ]
  omega

theorem count_mul_repeating {q : Nat} (hq : 0 < q) (hc : count q ≤ 60) (z : Nat) :
    count (q * repeating z) = count q + (61 + z) := by
  obtain ⟨n, hn⟩ : ∃ n, count q = n + 1 := ⟨count q - 1, by have := count_pos q; omega⟩
  have hlow := pow_count_le hq
  have hhigh := lt_pow_count q
  rw [hn, Nat.add_sub_cancel] at hlow
  have hlt : q < 10 ^ (61 + z) := lt_ten_pow_of_count_le (by omega)
  rw [hn] at hhigh ⊢
  rw [Nat.add_right_comm, repeating, Nat.mul_add_one]
  apply count_eq_succ
  · rw [Nat.pow_add]
    exact (Nat.mul_le_mul_right _ hlow).trans (Nat.le_add_right _ _)
  · have hmul : (q + 1) * 10 ^ (61 + z) ≤ 10 ^ (n + 1) * 10 ^ (61 + z) :=
      Nat.mul_le_mul_right _ hhigh
    have hpow : 10 ^ (n + (61 + z) + 1) = 10 ^ (n + 1) * 10 ^ (61 + z) := by
      rw [← Nat.pow_add, Nat.add_right_comm]
    rw [hpow]
    rw [Nat.add_one_mul] at hmul
    omega

theorem not_dvd_mul_repeating {u : Nat} (hu : ¬10 ∣ u) (z : Nat) :
    ¬10 ^ (1 + z) ∣ 10 ^ z * u * repeating z := by
  intro h
  rw [Nat.add_comm, Nat.pow_succ, Nat.mul_assoc] at h
  have hmul := Nat.dvd_of_mul_dvd_mul_left (ten_pow_pos z) h
  have hsum : u * repeating z = 10 * (u * 10 ^ (60 + z)) + u := by
    have hnext : 61 + z = 60 + z + 1 := by omega
    rw [repeating, hnext, Nat.pow_succ]
    ring
  rw [hsum] at hmul
  exact hu ((Nat.dvd_add_right (Nat.dvd_mul_right 10 _)).1 hmul)

/-- With zeros behind the digits of a number there is room for the whole product. -/
theorem numerator_zeros {c : Decimal.Context} {q t r z u : Nat} (hu : 0 < u)
    (hqu : q = 10 ^ z * u) (hc : count q ≤ 60) (hz : z < count q) (ht : 0 < t) (hr : r ≤ 2)
    (hp : c.precision = 60 + (count q + t)) :
    numerator c ⟨false, q * 10 ^ t, r - t⟩ (repeating z) =
      .ok ⟨false, q * repeating z * 10 ^ r, 0⟩ := by
  have hmax : Decimal.maxExponent = 999999 := rfl
  have hmin : Decimal.minExponent = -999999 := rfl
  have hq : 0 < q := hqu ▸ Nat.mul_pos (ten_pow_pos z) hu
  have hk : 0 < repeating z := repeating_pos z
  have hrest : 0 < u * repeating z * 10 ^ (t - 1) :=
    mul_ten_pow_pos (Nat.mul_pos hu hk) _
  have hprod : q * 10 ^ t * repeating z = u * repeating z * 10 ^ (t - 1) * 10 ^ (1 + z) := by
    obtain ⟨s, rfl⟩ : ∃ s, t = s + 1 := ⟨t - 1, by omega⟩
    rw [hqu, Nat.add_sub_cancel]
    ring
  have hcount : count (u * repeating z * 10 ^ (t - 1)) = c.precision := by
    have hboth := count_mul_pow hrest (1 + z)
    rw [← hprod, Nat.mul_right_comm, count_mul_pow (Nat.mul_pos hq hk),
      count_mul_repeating hq hc] at hboth
    omega
  have hvalue : ((q * 10 ^ t * repeating z : Nat) : Rat) * 10 ^ ((r : Int) - t) =
      (q * repeating z * 10 ^ r : Nat) := by
    rw [zpow_sub₀ (by norm_num), zpow_natCast, zpow_natCast]
    push_cast
    field_simp
  refine numerator_of_dvd hrest hprod hcount ?_ hvalue ?_ ?_
  · unfold Decimal.Context.least
    omega
  · omega
  · omega

/-- Without them the last digits of the product are lost. -/
theorem numerator_bare {c : Decimal.Context} {q r z : Nat} (hq : 0 < q) (hc : count q ≤ 60)
    (hz : z < count q) (hr : r ≤ 2) (hp : c.precision = 60 + count q) :
    ∃ n, numerator c ⟨false, q, r⟩ (repeating z) = .ok n ∧ 10 ^ (r + (1 + z)) ∣ n.coefficient ∧
      count n.coefficient ≤ limit := by
  have hmax : Decimal.maxExponent = 999999 := rfl
  have hmin : Decimal.minExponent = -999999 := rfl
  have hcount := count_mul_repeating hq hc z
  obtain ⟨n, hn, hdvd, hlen⟩ := exists_numerator (q := q) (c := c) (k := repeating z) (e := r)
    (i := 1 + z) (Nat.mul_pos hq (repeating_pos z)) (by omega) (by omega)
    (by unfold Decimal.Context.least; omega) (by omega)
  refine ⟨n, hn, hdvd, hlen.trans ?_⟩
  unfold limit
  omega

/-- Percent signs and commas bring a number close to a whole number. -/
theorem exists_shift {e : Int} (hl : Decimal.minExponent < e) (hm : e ≤ Decimal.maxExponent) :
    ∃ p j r : Nat, e + (2 * p - 3 * j) = r ∧ r ≤ 2 ∧ 2 * (p : Int) ≤ Decimal.maxExponent ∧
      3 * (j : Int) ≤ Decimal.maxExponent ∧ e + 2 * p ≤ max e 1 := by
  have hmax : Decimal.maxExponent = 999999 := rfl
  have hmin : Decimal.minExponent = -999999 := rfl
  refine ⟨((-e).toNat + 1) / 2, e.toNat / 3,
    (e + (2 * (((-e).toNat + 1) / 2 : Nat) - 3 * (e.toNat / 3 : Nat))).toNat, ?_⟩
  omega

/-- Scaling keeps the zeros behind the digits of a number. -/
theorem magnitude_zeros {q t p k j r : Nat} {e : Int} (hq : 0 < q) (hl : Decimal.minExponent < e)
    (hm : e + count q ≤ Decimal.maxExponent + 1) (hr : e + (2 * p - 3 * j) = r)
    (hpercents : 2 * (p : Int) ≤ Decimal.maxExponent)
    (hcommas : 3 * (j : Int) ≤ Decimal.maxExponent) (hp : e + 2 * p ≤ max e 1)
    (hc : count q ≤ 60) :
    Number.magnitude (Number.context ⟨false, q * 10 ^ t, e - t⟩) ⟨false, q * 10 ^ t, e - t⟩
      (Layout.ofTokens (NumberToken.ofSection (fixedSection p k j))) =
        .ok ⟨false, q * 10 ^ t, r - t⟩ := by
  have hmax : Decimal.maxExponent = 999999 := rfl
  have hmin : Decimal.minExponent = -999999 := rfl
  have hcount : count (q * 10 ^ t) = count q + t := count_mul_pow hq t
  have hshift : e - t + (2 * p - 3 * j) = r - t := by omega
  rw [← hshift]
  refine magnitude_fixedSection (mul_ten_pow_pos hq t).ne' ?_ ?_ hpercents hcommas ?_
  · simp only [Decimal.digitCount, hcount]
    omega
  · simp only [Decimal.digitCount, hcount]
    omega
  · simp only [Decimal.adjusted, Decimal.digitCount, hcount]
    omega

/-- Zeros behind the digits of a number show in its numerator over a long denominator. -/
theorem exists_text_ne {q t : Nat} {e : Int} (hq : 0 < q) (hc : count q ≤ 60) (ht : 0 < t)
    (hl : Decimal.minExponent < e) (hm : e + count q ≤ Decimal.maxExponent + 1) :
    ∃ p k j, Number.text ⟨false, q * 10 ^ t, e - t⟩ (clean (fixedSection p k j)) ≠
      Number.text ⟨false, q, e⟩ (clean (fixedSection p k j)) := by
  obtain ⟨z, u, hu, hqu⟩ := Nat.exists_eq_pow_mul_and_not_dvd hq.ne' 10 (by norm_num)
  have hu0 : 0 < u := Nat.pos_of_ne_zero fun h => hu (h ▸ Nat.dvd_zero 10)
  have hz : z < count q := by
    have hle : 10 ^ z ≤ q := hqu ▸ Nat.le_mul_of_pos_right _ hu0
    exact (Nat.pow_lt_pow_iff_right (by norm_num)).1 (hle.trans_lt (lt_pow_count q))
  have hcount := count_pos q
  obtain ⟨p, j, r, hr, hr', hpercents, hcommas, hp⟩ := exists_shift hl (by omega)
  have hd := magnitude_zeros (t := t) (k := repeating z) hq hl hm hr hpercents hcommas hp hc
  have hw := magnitude_zeros (t := 0) (k := repeating z) hq hl hm hr hpercents hcommas hp hc
  simp only [Nat.pow_zero, Nat.mul_one, Int.natCast_zero, Int.sub_zero] at hw
  have hnd := numerator_zeros (c := Number.context ⟨false, q * 10 ^ t, e - t⟩) hu0 hqu hc hz ht hr'
    (congrArg (60 + ·) (count_mul_pow hq t))
  obtain ⟨n, hnw, hdvd, hlen⟩ :=
    numerator_bare (c := Number.context ⟨false, q, e⟩) hq hc hz hr' rfl
  have hlenk : count (repeating z) ≤ limit := by
    rw [count_repeating, limit]
    omega
  have hlend : count (q * repeating z * 10 ^ r) ≤ limit := by
    rw [count_mul_pow (Nat.mul_pos hq (repeating_pos z)), count_mul_repeating hq hc, limit]
    omega
  refine ⟨p, repeating z, j, fun heq => ?_⟩
  rw [text_fixedSection (repeating_pos z) hlenk rfl hd hnd hlend,
    text_fixedSection (repeating_pos z) hlenk rfl hw hnw hlen] at heq
  have hdigits := List.append_cancel_right (List.append_cancel_left (Except.ok.inj heq))
  rw [← ofNat_injective hdigits, Nat.add_comm r, Nat.pow_add] at hdvd
  have hdvd := Nat.dvd_of_mul_dvd_mul_right (ten_pow_pos _) hdvd
  exact not_dvd_mul_repeating hu z (hqu ▸ hdvd)

end Format

end Worksheet
