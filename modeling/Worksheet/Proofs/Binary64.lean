-- SUMMARY: Rounding to binary64 values keeps the order, leaves values alone and errs by little.
import Mathlib.Algebra.Order.Field.Power
import Mathlib.Data.Nat.Cast.Order.Field
import Mathlib.Data.Rat.Floor
import Mathlib.Tactic.Linarith
import Mathlib.Tactic.Positivity
import Worksheet.Binary64.Basic

/-!
# Rounding to Binary64 Values

Around a number the values are the multiples of a power of two, and the number is rounded to
the nearest of them. So rounding does not change a number that is a value already, it keeps
the order of numbers (`round_mono`), and its error is at most a part in `2 ^ 53`
(`abs_round_sub_le`). The result is finite exactly below `2 ^ 1024 - 2 ^ 970`.
-/

namespace Worksheet.Binary64

variable {q r : Rat}

theorem twoPow_eq (e : Int) : twoPow e = (2 : Rat) ^ e := by
  unfold twoPow
  split
  · rename_i h
    obtain ⟨k, rfl⟩ := Int.eq_ofNat_of_zero_le h
    simp
  · rename_i h
    obtain ⟨k, hk⟩ := Int.eq_ofNat_of_zero_le (by omega : 0 ≤ -e)
    obtain rfl : e = -(k : Int) := by omega
    rw [zpow_neg, zpow_natCast, Rat.mkRat_eq_div]
    simp

theorem magnitude_eq (q : Rat) : magnitude q = |q| := by
  unfold magnitude
  split
  · rename_i h
    exact (abs_of_neg h).symm
  · rename_i h
    exact (abs_of_nonneg (not_lt.1 h)).symm

/-! ## The nearest integer -/

theorem abs_nearestInt_sub_le (q : Rat) : |(nearestInt q : Rat) - q| ≤ 1 / 2 := by
  have hlow : (q.floor : Rat) ≤ q := Int.floor_le q
  have hhigh : q < q.floor + 1 := Int.lt_floor_add_one q
  rw [abs_le]
  unfold nearestInt
  simp only
  split
  · constructor <;> linarith
  · split
    · push_cast
      constructor <;> linarith
    · rcases Int.emod_two_eq_zero_or_one q.floor with h | h
      · rw [h]
        push_cast
        constructor <;> linarith
      · rw [h]
        push_cast
        constructor <;> linarith

theorem nearestInt_eq_of_abs_lt {n : Int} (h : |q - n| < 1 / 2) : nearestInt q = n := by
  have hnear := abs_le.1 (abs_nearestInt_sub_le q)
  have hn := abs_lt.1 h
  have hlow : (nearestInt q : Rat) < n + 1 := by linarith [hnear.2, hn.2]
  have hhigh : (n : Rat) < nearestInt q + 1 := by linarith [hnear.1, hn.1]
  have hlow' : nearestInt q < n + 1 := by exact_mod_cast hlow
  have hhigh' : n < nearestInt q + 1 := by exact_mod_cast hhigh
  omega

@[simp] theorem nearestInt_intCast (n : Int) : nearestInt (n : Rat) = n :=
  nearestInt_eq_of_abs_lt (by simp)

theorem nearestInt_mono (h : q ≤ r) : nearestInt q ≤ nearestInt r := by
  by_contra hlt
  have hstep : nearestInt r + 1 ≤ nearestInt q := not_le.1 hlt
  have hstep' : (nearestInt r : Rat) + 1 ≤ nearestInt q := by exact_mod_cast hstep
  have hq := (abs_le.1 (abs_nearestInt_sub_le q)).2
  have hr := (abs_le.1 (abs_nearestInt_sub_le r)).1
  -- Both lie half way between the same two integers.
  obtain rfl : q = r := by linarith
  exact hlt le_rfl

theorem nearestInt_neg (q : Rat) : nearestInt (-q) = -nearestInt q := by
  by_cases hint : q = q.floor
  · have hneg : -q = ((-q.floor : Int) : Rat) := by
      rw [Int.cast_neg, ← hint]
    rw [hneg, nearestInt_intCast]
    conv_rhs => rw [hint, nearestInt_intCast]
  · have hlow : (q.floor : Rat) < q := lt_of_le_of_ne (Int.floor_le q) (Ne.symm hint)
    have hhigh : q < q.floor + 1 := Int.lt_floor_add_one q
    have hfloor : (-q).floor = -q.floor - 1 := by
      refine (Int.floor_eq_iff (a := -q)).2 ⟨?_, ?_⟩
      · push_cast
        linarith
      · push_cast
        linarith
    unfold nearestInt
    simp only [hfloor]
    push_cast
    rcases lt_trichotomy (q - q.floor) (1 / 2) with h | h | h
    · rw [if_neg (by linarith), if_pos (by linarith), if_pos h]
      omega
    · rw [if_neg (by linarith), if_neg (by linarith), if_neg (by linarith), if_neg (by linarith)]
      omega
    · rw [if_pos (by linarith), if_neg (by linarith), if_pos h]
      omega

/-! ## Leading digits and spacing -/

theorem two_zpow_pos (e : Int) : (0 : Rat) < 2 ^ e := zpow_pos (by norm_num) e

theorem two_zpow_le {a b : Int} (h : a ≤ b) : (2 : Rat) ^ a ≤ 2 ^ b :=
  zpow_le_zpow_right₀ (by norm_num) h

theorem two_zpow_succ (e : Int) : (2 : Rat) ^ (e + 1) = 2 ^ e * 2 := zpow_add_one₀ (by norm_num) e

/-- The leading digit of a number other than zero stands at its leading exponent. -/
theorem leadingExponent_bounds (hq : q ≠ 0) :
    (2 : Rat) ^ leadingExponent q ≤ |q| ∧ |q| < 2 ^ (leadingExponent q + 1) := by
  have hn : q.num.natAbs ≠ 0 := by simpa using hq
  have hd := q.den_ne_zero
  have hd0 : (0 : Rat) < q.den := by exact_mod_cast q.den_pos
  have habs : |q| = q.num.natAbs / q.den := by
    conv_lhs => rw [← Rat.num_div_den q]
    rw [abs_div, Nat.abs_cast, ← Int.cast_abs, Nat.cast_natAbs]
  have hnlow : (2 : Rat) ^ q.num.natAbs.log2 ≤ q.num.natAbs := by
    exact_mod_cast Nat.log2_self_le hn
  have hnhigh : (q.num.natAbs : Rat) < 2 ^ q.num.natAbs.log2 * 2 := by
    rw [← pow_succ]
    exact_mod_cast Nat.lt_log2_self
  have hdlow : (2 : Rat) ^ q.den.log2 ≤ q.den := by exact_mod_cast Nat.log2_self_le hd
  have hdhigh : (q.den : Rat) < 2 ^ q.den.log2 * 2 := by
    rw [← pow_succ]
    exact_mod_cast Nat.lt_log2_self
  have hpd : (0 : Rat) < 2 ^ q.den.log2 := by positivity
  have hpn : (0 : Rat) < 2 ^ q.num.natAbs.log2 := by positivity
  -- The difference of the binary lengths is the exponent, or one too large.
  have hpow : (2 : Rat) ^ ((q.num.natAbs.log2 : Int) - q.den.log2) =
      2 ^ q.num.natAbs.log2 / 2 ^ q.den.log2 := by
    rw [zpow_sub₀ (by norm_num), zpow_natCast, zpow_natCast]
  have hhigh : |q| < 2 ^ ((q.num.natAbs.log2 : Int) - q.den.log2 + 1) := by
    rw [two_zpow_succ, hpow, habs, div_mul_eq_mul_div, div_lt_div_iff₀ hd0 hpd]
    calc (q.num.natAbs : Rat) * 2 ^ q.den.log2
        ≤ q.num.natAbs * q.den := mul_le_mul_of_nonneg_left hdlow (Nat.cast_nonneg _)
      _ < 2 ^ q.num.natAbs.log2 * 2 * q.den := mul_lt_mul_of_pos_right hnhigh hd0
  have hlow : (2 : Rat) ^ ((q.num.natAbs.log2 : Int) - q.den.log2 - 1) ≤ |q| := by
    have hsucc := two_zpow_succ ((q.num.natAbs.log2 : Int) - q.den.log2 - 1)
    rw [sub_add_cancel, hpow] at hsucc
    have hle : (2 : Rat) ^ q.num.natAbs.log2 / 2 ^ q.den.log2 ≤ |q| * 2 := by
      rw [habs, div_mul_eq_mul_div, div_le_div_iff₀ hpd hd0]
      calc (2 : Rat) ^ q.num.natAbs.log2 * q.den
          ≤ q.num.natAbs * (2 ^ q.den.log2 * 2) :=
            mul_le_mul hnlow hdhigh.le hd0.le (Nat.cast_nonneg _)
        _ = q.num.natAbs * 2 * 2 ^ q.den.log2 := by ring
    linarith
  unfold leadingExponent
  simp only [twoPow_eq, magnitude_eq]
  split
  · rename_i h
    exact ⟨h, hhigh⟩
  · rename_i h
    rw [sub_add_cancel]
    exact ⟨hlow, not_le.1 h⟩

theorem leadingExponent_lt {e : Int} (hq : q ≠ 0) (h : |q| < 2 ^ e) : leadingExponent q < e :=
  (zpow_lt_zpow_iff_right₀ (by norm_num)).1 ((leadingExponent_bounds hq).1.trans_lt h)

theorem le_leadingExponent {e : Int} (hq : q ≠ 0) (h : (2 : Rat) ^ e ≤ |q|) :
    e ≤ leadingExponent q :=
  Int.lt_add_one_iff.1
    ((zpow_lt_zpow_iff_right₀ (by norm_num)).1 (h.trans_lt (leadingExponent_bounds hq).2))

theorem leadingExponent_neg (q : Rat) : leadingExponent (-q) = leadingExponent q := by
  simp [leadingExponent, magnitude_eq]

/-- The exponent of the last binary digit that a value around a number has. -/
def lastExponent (q : Rat) : Int := max (leadingExponent q - 52) (-1074)

theorem spacing_eq (q : Rat) : spacing q = 2 ^ lastExponent q := twoPow_eq _

theorem spacing_pos (q : Rat) : 0 < spacing q := by
  rw [spacing_eq]
  exact two_zpow_pos _

theorem spacing_neg (q : Rat) : spacing (-q) = spacing q := by
  rw [spacing, leadingExponent_neg, spacing]

/-! ## Rounding -/

@[simp] theorem round_zero : round 0 = 0 := by
  have h : (0 : Rat) / spacing 0 = ((0 : Int) : Rat) := by simp
  rw [round, h, nearestInt_intCast]
  simp

theorem round_neg (q : Rat) : round (-q) = -round q := by
  simp only [round, spacing_neg, neg_div, nearestInt_neg]
  push_cast
  ring

/-- A bound on a number that is a multiple of the spacing is a bound on what it is rounded to. -/
theorem round_le_mul_spacing {n : Int} (h : q ≤ n * spacing q) : round q ≤ n * spacing q := by
  have hdiv : q / spacing q ≤ ((n : Int) : Rat) := (div_le_iff₀ (spacing_pos q)).2 h
  have hn := nearestInt_mono hdiv
  rw [nearestInt_intCast] at hn
  exact mul_le_mul_of_nonneg_right (by exact_mod_cast hn) (spacing_pos q).le

theorem mul_spacing_le_round {n : Int} (h : n * spacing q ≤ q) : n * spacing q ≤ round q := by
  have hdiv : ((n : Int) : Rat) ≤ q / spacing q := (le_div_iff₀ (spacing_pos q)).2 h
  have hn := nearestInt_mono hdiv
  rw [nearestInt_intCast] at hn
  exact mul_le_mul_of_nonneg_right (by exact_mod_cast hn) (spacing_pos q).le

/-- A number whose last digit is not below the last digit of the values around `q` is a multiple
    of their spacing. -/
theorem exists_mul_spacing (m : Int) {e : Int} (h : lastExponent q ≤ e) :
    ∃ n : Int, m * (2 : Rat) ^ e = n * spacing q := by
  obtain ⟨k, hk⟩ := Int.eq_ofNat_of_zero_le (Int.sub_nonneg.2 h)
  refine ⟨m * 2 ^ k, ?_⟩
  have he : e = k + lastExponent q := by omega
  rw [spacing_eq, he, zpow_add₀ (by norm_num), zpow_natCast]
  push_cast
  ring

theorem round_nonneg (h : 0 ≤ q) : 0 ≤ round q := by
  have hle : ((0 : Int) : Rat) * spacing q ≤ q := by simpa using h
  simpa using mul_spacing_le_round hle

/-- Of two positive numbers with different spacing, a power of two lies between. -/
theorem round_le_round_of_pos (hq : 0 < q) (h : q ≤ r) : round q ≤ round r := by
  have hr : 0 < r := hq.trans_le h
  obtain ⟨hqlow, hqhigh⟩ := leadingExponent_bounds hq.ne'
  obtain ⟨hrlow, hrhigh⟩ := leadingExponent_bounds hr.ne'
  rw [abs_of_pos hq] at hqlow hqhigh
  rw [abs_of_pos hr] at hrlow hrhigh
  have hlead : leadingExponent q ≤ leadingExponent r :=
    le_leadingExponent hr.ne' (by rw [abs_of_pos hr]; exact hqlow.trans h)
  rcases eq_or_ne (lastExponent q) (lastExponent r) with heq | hne
  · have hs : spacing q = spacing r := by rw [spacing_eq, spacing_eq, heq]
    have hn := nearestInt_mono (div_le_div_of_nonneg_right h (spacing_pos r).le)
    rw [round, round, hs]
    exact mul_le_mul_of_nonneg_right (by exact_mod_cast hn) (spacing_pos r).le
  · unfold lastExponent at hne
    obtain ⟨n, hn⟩ := exists_mul_spacing (q := q) 1 (e := leadingExponent r)
      (by unfold lastExponent; omega)
    obtain ⟨n', hn'⟩ := exists_mul_spacing (q := r) 1 (e := leadingExponent r)
      (by unfold lastExponent; omega)
    rw [Int.cast_one, one_mul] at hn hn'
    have hqle : q ≤ n * spacing q := by
      rw [← hn]
      exact hqhigh.le.trans (two_zpow_le (by omega))
    calc round q ≤ n * spacing q := round_le_mul_spacing hqle
      _ = n' * spacing r := hn.symm.trans hn'
      _ ≤ round r := mul_spacing_le_round (hn' ▸ hrlow)

/-- Rounding keeps the order of numbers. -/
theorem round_mono : Monotone round := by
  intro q r h
  rcases lt_trichotomy q 0 with hq | rfl | hq
  · rcases le_or_gt 0 r with hr | hr
    · have hneg := round_nonneg (neg_nonneg.2 hq.le)
      rw [round_neg] at hneg
      exact (neg_nonneg.1 hneg).trans (round_nonneg hr)
    · have hneg := round_le_round_of_pos (neg_pos.2 hr) (neg_le_neg h)
      rw [round_neg, round_neg] at hneg
      exact neg_le_neg_iff.1 hneg
  · rw [round_zero]
    exact round_nonneg h
  · exact round_le_round_of_pos hq h

/-! ## Values -/

/-- The number has at most 53 binary digits, and none of them too far behind the point. -/
def IsValue (q : Rat) : Prop := ∃ m e : Int, |m| < 2 ^ 53 ∧ -1074 ≤ e ∧ q = m * (2 : Rat) ^ e

theorem isValue_intCast {n : Int} (h : |n| < 2 ^ 53) : IsValue n :=
  ⟨n, 0, h, by decide, by simp⟩

theorem isValue_natCast {n : Nat} (h : n < 2 ^ 53) : IsValue n := by
  have hn := isValue_intCast (n := n) (by rw [Nat.abs_cast]; exact_mod_cast h)
  exact_mod_cast hn

theorem isValue_two_zpow {e : Int} (h : -1074 ≤ e) : IsValue (2 ^ e) :=
  ⟨1, e, by decide, h, by simp⟩

theorem isValue_two_pow (k : Nat) : IsValue (2 ^ k) := by
  rw [← zpow_natCast]
  exact isValue_two_zpow (by omega)

/-- A value is rounded to itself. -/
theorem round_eq_self (h : IsValue q) : round q = q := by
  obtain ⟨m, e, hm, he, rfl⟩ := h
  rcases eq_or_ne (m * (2 : Rat) ^ e) 0 with h0 | h0
  · rw [h0, round_zero]
  · have hlt : |m * (2 : Rat) ^ e| < 2 ^ (53 + e) := by
      rw [abs_mul, abs_of_pos (two_zpow_pos e), zpow_add₀ (by norm_num)]
      refine mul_lt_mul_of_pos_right ?_ (two_zpow_pos e)
      exact_mod_cast hm
    have hlead := leadingExponent_lt h0 hlt
    obtain ⟨n, hn⟩ := exists_mul_spacing (q := m * (2 : Rat) ^ e) m (e := e)
      (by unfold lastExponent; omega)
    exact le_antisymm ((round_le_mul_spacing hn.le).trans_eq hn.symm)
      (hn.trans_le (mul_spacing_le_round hn.ge))

theorem le_round (ha : IsValue q) (h : q ≤ r) : q ≤ round r := by
  rw [← round_eq_self ha]
  exact round_mono h

theorem round_le (ha : IsValue r) (h : q ≤ r) : round q ≤ r := by
  rw [← round_eq_self ha]
  exact round_mono h

/-! ## The error -/

theorem abs_round_sub_le_spacing (q : Rat) : |round q - q| ≤ spacing q / 2 := by
  have hs := spacing_pos q
  have hsplit : round q - q = (nearestInt (q / spacing q) - q / spacing q) * spacing q := by
    rw [sub_mul, div_mul_cancel₀ q hs.ne']
    rfl
  rw [hsplit, abs_mul, abs_of_pos hs]
  have hle := mul_le_mul_of_nonneg_right (abs_nearestInt_sub_le (q / spacing q)) hs.le
  linarith

/-- Rounding errs by at most a part in `2 ^ 53`, or by half of the least value. -/
theorem abs_round_sub_le (q : Rat) : |round q - q| ≤ max (|q| / 2 ^ 53) (1 / 2 ^ 1075) := by
  rcases eq_or_ne q 0 with rfl | hq
  · simp
  · refine (abs_round_sub_le_spacing q).trans ?_
    rw [spacing_eq, lastExponent]
    rcases le_total (leadingExponent q - 52) (-1074) with h | h
    · have hhalf : (2 : Rat) ^ (-1075 + 1 : Int) = 2 ^ (-1075 : Int) * 2 :=
        two_zpow_succ (-1075)
      have hleast : (2 : Rat) ^ (-1075 : Int) = 1 / 2 ^ 1075 := by
        rw [zpow_neg, zpow_ofNat, one_div]
      rw [max_eq_right h, show (-1074 : Int) = -1075 + 1 by decide, hhalf,
        mul_div_cancel_right₀ _ two_ne_zero, hleast]
      exact le_max_right _ _
    · rw [max_eq_left h]
      refine le_max_of_le_left ?_
      have hlow := (leadingExponent_bounds hq).1
      rw [zpow_sub₀ (by norm_num), div_div, div_le_div_iff₀ (by positivity) (by positivity)]
      norm_num
      linarith

/-- The error for numbers up to a bound. -/
theorem abs_round_sub_le_of_le {c : Rat} (hc : 1 ≤ c) (h : |q| ≤ c) :
    |round q - q| ≤ c / 2 ^ 53 := by
  refine (abs_round_sub_le q).trans (max_le (div_le_div_of_nonneg_right h (by positivity)) ?_)
  have hleast : (1 : Rat) / 2 ^ 1075 ≤ 1 / 2 ^ 53 :=
    one_div_le_one_div_of_le (by positivity) (pow_le_pow_right₀ (by norm_num) (by decide))
  exact hleast.trans (div_le_div_of_nonneg_right hc (by positivity))

/-- Rounding a fraction of two short numbers never reaches the next integer. -/
theorem floor_round_div {a b : Nat} (ha : a < 2 ^ 53) (hb0 : 0 < b) (hb : b < 2 ^ 53) :
    (round ((a : Rat) / b)).floor = ((a / b : Nat) : Int) := by
  have hb0' : (0 : Rat) < b := by exact_mod_cast hb0
  have hlow : ((a / b : Nat) : Rat) ≤ a / b := Nat.cast_div_le
  have hnext : (a : Rat) / b + 1 / b ≤ (a / b : Nat) + 1 := by
    rw [← add_div, div_le_iff₀ hb0']
    exact_mod_cast Nat.lt_mul_of_div_lt (Nat.lt_succ_self (a / b)) hb0
  have herror : |round ((a : Rat) / b) - a / b| < 1 / b := by
    refine (abs_round_sub_le _).trans_lt (max_lt ?_ ?_)
    · rw [abs_of_nonneg (by positivity), div_div, div_lt_div_iff₀ (by positivity) hb0', one_mul,
        mul_comm]
      exact mul_lt_mul_of_pos_left (by exact_mod_cast ha) hb0'
    · have hb' : (b : Rat) < 2 ^ 53 := by exact_mod_cast hb
      exact one_div_lt_one_div_of_lt hb0'
        (hb'.trans (pow_lt_pow_right₀ (by norm_num) (by decide)))
  refine (Int.floor_eq_iff (a := round ((a : Rat) / b))).2 ⟨?_, ?_⟩
  · exact le_round (isValue_natCast ((Nat.div_le_self a b).trans_lt ha)) hlow
  · have hclose := (abs_lt.1 herror).2
    rw [Int.cast_natCast]
    linarith

/-! ## Finite results -/

theorem abs_round (q : Rat) : |round q| = round |q| := by
  rcases le_total 0 q with h | h
  · rw [abs_of_nonneg h, abs_of_nonneg (round_nonneg h)]
  · have hneg := round_nonneg (neg_nonneg.2 h)
    rw [abs_of_nonpos h, round_neg, abs_of_nonpos]
    rw [round_neg] at hneg
    exact neg_nonneg.1 hneg

/-- The least number that is rounded to an infinite value. It is half way between the largest
    finite value and the next power of two. -/
def overflowBound : Rat := 2 ^ 1024 - 2 ^ 970

theorem two_pow_top : (2 : Rat) ^ 1024 = 2 ^ 54 * 2 ^ 970 := pow_add 2 54 970

theorem overflowBound_eq : overflowBound = (2 ^ 53 - 1 / 2) * 2 ^ 971 := by
  have hpow : (2 : Rat) ^ 971 = 2 ^ 970 * 2 := pow_succ 2 970
  rw [overflowBound, two_pow_top, hpow]
  generalize (2 : Rat) ^ 970 = p
  ring

theorem spacing_of_top (hlow : 2 ^ 1023 ≤ |q|) (hhigh : |q| < 2 ^ 1024) :
    spacing q = 2 ^ 971 := by
  have hq : q ≠ 0 := by
    rintro rfl
    rw [abs_zero] at hlow
    exact absurd hlow (not_le.2 (pow_pos (by norm_num) _))
  have hle : 1023 ≤ leadingExponent q :=
    le_leadingExponent hq ((zpow_natCast 2 1023).trans_le hlow)
  have hlt : leadingExponent q < 1024 :=
    leadingExponent_lt hq (hhigh.trans_eq (zpow_natCast 2 1024).symm)
  have hlast : lastExponent q = (971 : Nat) := by
    unfold lastExponent
    omega
  rw [spacing_eq, hlast, zpow_natCast]

theorem overflowBound_bounds : 2 ^ 1023 ≤ overflowBound ∧ overflowBound < 2 ^ 1024 := by
  have hpos : (0 : Rat) < 2 ^ 970 := pow_pos (by norm_num) _
  have hhalf : (2 : Rat) ^ 1023 = 2 ^ 53 * 2 ^ 970 := pow_add 2 53 970
  rw [overflowBound, two_pow_top, hhalf]
  generalize (2 : Rat) ^ 970 = p at hpos
  constructor <;> linarith

theorem round_overflowBound : round overflowBound = 2 ^ 1024 := by
  obtain ⟨hlow, hhigh⟩ := overflowBound_bounds
  have hpow : (0 : Rat) < 2 ^ 1023 := pow_pos (by norm_num) _
  have hpos : 0 < overflowBound := hpow.trans_le hlow
  have hs : spacing overflowBound = 2 ^ 971 :=
    spacing_of_top (hlow.trans_eq (abs_of_pos hpos).symm) ((abs_of_pos hpos).trans_lt hhigh)
  have hdiv : overflowBound / spacing overflowBound = 2 ^ 53 - 1 / 2 := by
    rw [hs, overflowBound_eq, mul_div_cancel_right₀ _ (pow_ne_zero _ two_ne_zero)]
  have hnear : nearestInt (2 ^ 53 - 1 / 2) = 2 ^ 53 := by decide +kernel
  rw [round, hdiv, hnear, hs, Int.cast_pow, Int.cast_ofNat, ← pow_add]

/-- Below the bound a number is rounded to the largest finite value at most. -/
theorem round_abs_lt (h : |q| < overflowBound) : round |q| < 2 ^ 1024 := by
  rcases lt_or_ge |q| (2 ^ 1023) with hlt | hge
  · exact (round_le (isValue_two_pow 1023) hlt.le).trans_lt
      (pow_lt_pow_right₀ (by norm_num) (by decide))
  · have hs : spacing |q| = 2 ^ 971 :=
      spacing_of_top (by rwa [abs_abs]) (by rw [abs_abs]; exact h.trans overflowBound_bounds.2)
    have hquot : |q| / spacing |q| < 2 ^ 53 - 1 / 2 := by
      rw [div_lt_iff₀ (spacing_pos _), hs, ← overflowBound_eq]
      exact h
    have hnear := (abs_le.1 (abs_nearestInt_sub_le (|q| / spacing |q|))).2
    have hlt : (nearestInt (|q| / spacing |q|) : Rat) < 2 ^ 53 := by linarith
    calc round |q| = nearestInt (|q| / spacing |q|) * spacing |q| := rfl
      _ < 2 ^ 53 * spacing |q| := mul_lt_mul_of_pos_right hlt (spacing_pos _)
      _ = 2 ^ 53 * 2 ^ 971 := by rw [hs]
      _ = 2 ^ 1024 := (pow_add 2 53 971).symm

theorem abs_round_lt_iff : |round q| < 2 ^ 1024 ↔ |q| < overflowBound := by
  rw [abs_round]
  refine ⟨fun h => ?_, round_abs_lt⟩
  by_contra hle
  have hmono := round_mono (not_lt.1 hle)
  rw [round_overflowBound] at hmono
  exact absurd h (not_lt.2 hmono)

theorem ofRat_eq (q : Rat) :
    ofRat q = if |q| < overflowBound then .finite (round q) else .infinity (round q < 0) := by
  have htop : twoPow 1024 = (2 : Rat) ^ 1024 := (twoPow_eq 1024).trans (zpow_natCast 2 1024)
  unfold ofRat
  simp only [htop, magnitude_eq, ← not_lt, abs_round_lt_iff, ite_not]

theorem ofRat_of_lt (h : |q| < 2 ^ 64) : ofRat q = .finite (round q) := by
  have hpow : (2 : Rat) ^ 64 ≤ 2 ^ 1023 := pow_le_pow_right₀ (by norm_num) (by decide)
  rw [ofRat_eq, if_pos (h.trans_le (hpow.trans overflowBound_bounds.1))]

end Worksheet.Binary64
