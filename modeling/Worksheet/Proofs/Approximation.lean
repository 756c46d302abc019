-- SUMMARY: The nearest fraction is in lowest terms, and no fraction within the limit is nearer to the number.
import Mathlib.Algebra.Order.Field.Basic
import Mathlib.RingTheory.Coprime.Lemmas
import Mathlib.Tactic.Linarith
import Worksheet.Proofs.Ratio

/-!
# Best Approximations

Between two fractions whose cross products differ by one, every fraction has a denominator of
at least the sum of theirs. The last convergent within a limit and the last fraction between it
and the next one are such neighbours with the number between them, so the nearer one of them is
a best approximation: `isNearest_nearest`.
-/

namespace Worksheet.Ratio

variable {limit n d : Nat} {a b previous last : Ratio} {x q : Rat}

/-- The number that a fraction denotes. -/
def value (r : Ratio) : Rat := r.numerator / r.denominator

theorem distance_eq (r : Ratio) (x : Rat) : r.distance x = |r.value - x| := by
  have hvalue : mkRat r.numerator r.denominator = r.value := by
    rw [Rat.mkRat_eq_div]
    rfl
  unfold distance
  simp only [hvalue]
  split
  · rename_i h
    exact (abs_of_neg h).symm
  · rename_i h
    exact (abs_of_nonneg (not_lt.1 h)).symm

theorem value_eq_of_den (h0 : 0 ≤ q) : (⟨q.num.toNat, q.den⟩ : Ratio).value = q := by
  have hnum : ((q.num.toNat : Nat) : Rat) = q.num := by
    exact_mod_cast Int.toNat_of_nonneg (Rat.num_nonneg.2 h0)
  rw [value]
  simp only [hnum]
  exact Rat.num_div_den q

theorem value_le_value_iff (ha : 0 < a.denominator) (hb : 0 < b.denominator) :
    a.value ≤ b.value ↔ a.numerator * b.denominator ≤ b.numerator * a.denominator := by
  rw [value, value, div_le_div_iff₀ (by exact_mod_cast ha) (by exact_mod_cast hb)]
  exact_mod_cast Iff.rfl

/-- A fraction in lowest terms with a denominator from 1 to `limit`, such that no other fraction
    with such a denominator is nearer to a number. -/
structure IsNearest (r : Ratio) (limit : Nat) (x : Rat) : Prop where
  denominator_pos : 0 < r.denominator
  denominator_le : r.denominator ≤ limit
  coprime : r.numerator.Coprime r.denominator
  le_abs_sub : ∀ (n : Int) (d : Nat), 0 < d → d ≤ limit → |r.value - x| ≤ |n / d - x|

/-- The nearest fraction to a number up to one is not above one either. -/
theorem IsNearest.numerator_le {r : Ratio} (h : r.IsNearest limit x) (hx : x ≤ 1) :
    r.numerator ≤ r.denominator := by
  have hpos : (0 : Rat) < r.denominator := by exact_mod_cast h.denominator_pos
  have hone := h.le_abs_sub 1 1 Nat.one_pos (h.denominator_pos.trans_le h.denominator_le)
  rw [Int.cast_one, Nat.cast_one, div_one, abs_of_nonneg (sub_nonneg.2 hx)] at hone
  have hvalue : r.value ≤ 1 := sub_le_sub_iff_right x |>.1 ((le_abs_self _).trans hone)
  rw [value, div_le_one hpos] at hvalue
  exact_mod_cast hvalue

/-! ## Neighbours -/

/-- Two fractions in a row, whose cross products differ by one. -/
structure Adjacent (a b : Ratio) : Prop where
  left_pos : 0 < a.denominator
  right_pos : 0 < b.denominator
  cross : (b.numerator * a.denominator : Int) - a.numerator * b.denominator = 1

namespace Adjacent

theorem coprime_left (h : Adjacent a b) : a.numerator.Coprime a.denominator :=
  Nat.isCoprime_iff_coprime.1 ⟨-b.denominator, b.numerator, by linarith [h.cross]⟩

theorem coprime_right (h : Adjacent a b) : b.numerator.Coprime b.denominator :=
  Nat.isCoprime_iff_coprime.1 ⟨a.denominator, -a.numerator, by linarith [h.cross]⟩

/-- A fraction between neighbours has a denominator of at least the sum of theirs. -/
theorem le_or_le (h : Adjacent a b) {n : Int} {d : Nat}
    (hd : d < a.denominator + b.denominator) :
    n * a.denominator ≤ a.numerator * d ∨ b.numerator * d ≤ n * b.denominator := by
  by_contra hbetween
  obtain ⟨hleft, hright⟩ := not_or.1 hbetween
  have hleft : (1 : Int) ≤ n * a.denominator - a.numerator * d := by omega
  have hright : (1 : Int) ≤ b.numerator * d - n * b.denominator := by omega
  have hsum : (d : Int) = a.denominator * (b.numerator * d - n * b.denominator) +
      b.denominator * (n * a.denominator - a.numerator * d) := by
    calc (d : Int) = d * (b.numerator * a.denominator - a.numerator * b.denominator) := by
          rw [h.cross, mul_one]
      _ = _ := by ring
  have ha := le_mul_of_one_le_right (Int.natCast_nonneg a.denominator) hright
  have hb := le_mul_of_one_le_right (Int.natCast_nonneg b.denominator) hleft
  omega

/-- One of two neighbours with a number between them is as near to it as any fraction with a
    denominator below the sum of theirs. -/
theorem distance_le (h : Adjacent a b) (ha : a.value ≤ x) (hb : x ≤ b.value) {n : Int} {d : Nat}
    (hpos : 0 < d) (hd : d < a.denominator + b.denominator) :
    a.distance x ≤ |n / d - x| ∨ b.distance x ≤ |n / d - x| := by
  have hd0 : (0 : Rat) < d := by exact_mod_cast hpos
  have ha0 : (0 : Rat) < a.denominator := by exact_mod_cast h.left_pos
  have hb0 : (0 : Rat) < b.denominator := by exact_mod_cast h.right_pos
  rw [distance_eq, distance_eq, abs_of_nonpos (sub_nonpos.2 ha), abs_of_nonneg (sub_nonneg.2 hb)]
  refine (h.le_or_le (n := n) hd).imp (fun hle => ?_) (fun hle => ?_)
  · have hvalue : (n / d : Rat) ≤ a.value := by
      rw [value, div_le_div_iff₀ hd0 ha0]
      exact_mod_cast hle
    exact (neg_le_neg (sub_le_sub_right hvalue x)).trans (neg_le_abs _)
  · have hvalue : b.value ≤ (n / d : Rat) := by
      rw [value, div_le_div_iff₀ hb0 hd0]
      exact_mod_cast hle
    exact (sub_le_sub_right hvalue x).trans (le_abs_self _)

variable (h : Adjacent a b) (ha : a.value ≤ x) (hb : x ≤ b.value)
  (hlt : limit < a.denominator + b.denominator)

include h ha hb hlt

theorem isNearest_left (hle : a.denominator ≤ limit) (hnear : a.distance x ≤ b.distance x) :
    a.IsNearest limit x where
  denominator_pos := h.left_pos
  denominator_le := hle
  coprime := h.coprime_left
  le_abs_sub n d hpos hd := by
    rw [← distance_eq]
    exact (h.distance_le ha hb hpos (hd.trans_lt hlt)).elim id hnear.trans

theorem isNearest_right (hle : b.denominator ≤ limit) (hnear : b.distance x ≤ a.distance x) :
    b.IsNearest limit x where
  denominator_pos := h.right_pos
  denominator_le := hle
  coprime := h.coprime_right
  le_abs_sub n d hpos hd := by
    rw [← distance_eq]
    exact (h.distance_le ha hb hpos (hd.trans_lt hlt)).elim hnear.trans id

end Adjacent

/-! ## Convergents -/

/-- A step in direction of a fraction keeps the difference of the cross products with it. -/
theorem cross_step (previous last : Ratio) (k : Nat) :
    (last.numerator * (step previous last k).denominator : Int) -
        (step previous last k).numerator * last.denominator =
      last.numerator * previous.denominator - previous.numerator * last.denominator := by
  simp only [step]
  push_cast
  ring

/-- Two convergents in a row of a number with the rest `n / d` of its continued fraction. -/
structure Expands (limit : Nat) (q : Rat) (previous last : Ratio) (n d : Nat) : Prop where
  numerator : last.numerator * n + previous.numerator * d = q.num.toNat
  denominator : last.denominator * n + previous.denominator * d = q.den
  cross : (last.numerator * previous.denominator : Int) -
    previous.numerator * last.denominator = 1 ∨
      (last.numerator * previous.denominator : Int) -
        previous.numerator * last.denominator = -1
  last_le : last.denominator ≤ limit
  previous_le : previous.denominator ≤ limit

namespace Expands

theorem start (hl : 0 < limit) : Expands limit q ⟨0, 1⟩ ⟨1, 0⟩ q.num.toNat q.den where
  numerator := by simp
  denominator := by simp
  cross := .inl (by simp)
  last_le := Nat.zero_le _
  previous_le := hl

theorem step (h : Expands limit q previous last n d)
    (hle : (step previous last (n / d)).denominator ≤ limit) :
    Expands limit q last (step previous last (n / d)) d (n % d) where
  numerator := by
    rw [← h.numerator]
    conv_rhs => rw [← Nat.div_add_mod n d]
    simp only [Ratio.step]
    ring
  denominator := by
    rw [← h.denominator]
    conv_rhs => rw [← Nat.div_add_mod n d]
    simp only [Ratio.step]
    ring
  cross := by
    have hstep := Ratio.cross_step previous last (n / d)
    have hcross := h.cross
    omega
  last_le := hle
  previous_le := h.last_le

/-- The loop ends before the denominator passes the limit or the rest is used up. -/
theorem exists_stop (h : Expands limit q previous last n d) :
    ∃ n' d', Expands limit q (convergents limit previous last n d).1
        (convergents limit previous last n d).2 n' d' ∧
      (d' ≠ 0 → limit < (Ratio.step (convergents limit previous last n d).1
        (convergents limit previous last n d).2 (n' / d')).denominator) := by
  induction d using Nat.strong_induction_on generalizing n previous last with
  | _ d ih =>
    rw [convergents]
    split
    · rename_i h0
      exact ⟨n, d, h, fun hne => absurd h0 hne⟩
    · rename_i h0
      simp only
      split
      · rename_i hlimit
        exact ⟨n, d, h, fun _ => hlimit⟩
      · rename_i hlimit
        exact ih (n % d) (Nat.mod_lt n (Nat.pos_of_ne_zero h0)) (h.step (not_lt.1 hlimit))

/-- A convergent that leaves no rest is the number itself. -/
theorem rest_ne_zero (h : Expands limit q previous last n d) (h0 : 0 ≤ q)
    (hden : limit < q.den) : d ≠ 0 := by
  rintro rfl
  have hnum := h.numerator
  have hdenominator := h.denominator
  have hle := h.last_le
  rw [Nat.mul_zero, Nat.add_zero] at hnum hdenominator
  have hreduced : q.num.toNat.gcd q.den = 1 := by
    have hnat : q.num.natAbs = q.num.toNat := by
      have := Rat.num_nonneg.2 h0
      omega
    rw [← hnat]
    exact q.reduced
  have hn : n = 1 := by
    rw [← Nat.dvd_one, ← hreduced, ← hnum, ← hdenominator]
    exact Nat.dvd_gcd (Nat.dvd_mul_left _ _) (Nat.dvd_mul_left _ _)
  rw [hn, Nat.mul_one] at hdenominator
  omega

/-- The cross products of the number with a fraction in the direction of the next convergent. -/
theorem cross_between (h : Expands limit q previous last n d) (k : Nat) :
    (q.num.toNat * (Ratio.step previous last k).denominator : Int) -
        (Ratio.step previous last k).numerator * q.den =
      (last.numerator * previous.denominator - previous.numerator * last.denominator) *
        (n - k * d) := by
  rw [← h.numerator, ← h.denominator, Ratio.step]
  push_cast
  ring

theorem cross_last (h : Expands limit q previous last n d) :
    (last.numerator * q.den : Int) - q.num.toNat * last.denominator =
      (last.numerator * previous.denominator - previous.numerator * last.denominator) * d := by
  rw [← h.numerator, ← h.denominator]
  push_cast
  ring

/-- The last fraction before the next convergent whose denominator is within the limit. -/
def lastBetween (limit : Nat) (previous last : Ratio) : Ratio :=
  Ratio.step previous last ((limit - previous.denominator) / last.denominator)

section

variable (h : Expands limit q previous last n d)
  (hstop : limit < (Ratio.step previous last (n / d)).denominator)

include h

theorem lastBetween_le : (lastBetween limit previous last).denominator ≤ limit := by
  have hle := h.previous_le
  have hdiv := Nat.div_mul_le_self (limit - previous.denominator) last.denominator
  simp only [lastBetween, Ratio.step]
  omega

include hstop

theorem last_pos : 0 < last.denominator := by
  have hle := h.previous_le
  refine Nat.pos_of_ne_zero fun h0 => ?_
  simp only [Ratio.step, h0, Nat.mul_zero] at hstop
  omega

theorem lt_lastBetween_add :
    limit < (lastBetween limit previous last).denominator + last.denominator := by
  have hlt := Nat.lt_div_mul_add (a := limit - previous.denominator) (h.last_pos hstop)
  simp only [lastBetween, Ratio.step]
  omega

/-- The fraction does not go as far as the next convergent. -/
theorem mul_lastBetween_le : (limit - previous.denominator) / last.denominator * d ≤ n := by
  have hlt : (limit - previous.denominator) / last.denominator < n / d := by
    rw [Nat.div_lt_iff_lt_mul (h.last_pos hstop)]
    have hle := h.previous_le
    simp only [Ratio.step] at hstop
    omega
  exact (Nat.mul_le_mul_right d hlt.le).trans (Nat.div_mul_le_self n d)

/-- The number lies between the last convergent and the fraction before the next one. -/
theorem adjacent_lastBetween (h0 : 0 ≤ q) :
    (Adjacent (lastBetween limit previous last) last ∧
      (lastBetween limit previous last).value ≤ q ∧ q ≤ last.value) ∨
    (Adjacent last (lastBetween limit previous last) ∧
      last.value ≤ q ∧ q ≤ (lastBetween limit previous last).value) := by
  have hmul := h.mul_lastBetween_le hstop
  have hlt := h.lt_lastBetween_add hstop
  have hlast := h.last_pos hstop
  have hlastle := h.last_le
  have hpos : 0 < (lastBetween limit previous last).denominator := by omega
  have hq0 : 0 < (⟨q.num.toNat, q.den⟩ : Ratio).denominator := q.den_pos
  have hbetween := h.cross_between ((limit - previous.denominator) / last.denominator)
  have hafter := h.cross_last
  have hrest : (0 : Int) ≤
      n - ((limit - previous.denominator) / last.denominator : Nat) * d := by
    exact_mod_cast Int.sub_nonneg.2 (Int.ofNat_le.2 hmul)
  conv => enter [1, 2]; rw [← value_eq_of_den h0]
  conv => enter [2, 2]; rw [← value_eq_of_den h0]
  rw [value_le_value_iff hpos hq0, value_le_value_iff hq0 hlast, value_le_value_iff hlast hq0,
    value_le_value_iff hq0 hpos]
  have hcross := Ratio.cross_step previous last
    ((limit - previous.denominator) / last.denominator)
  rw [← lastBetween] at hbetween hcross
  rcases h.cross with hone | hone
  · rw [hone, one_mul] at hbetween hafter
    refine .inl ⟨⟨hpos, hlast, by omega⟩, ?_, ?_⟩
    · simp only
      omega
    · simp only
      omega
  · rw [hone, neg_one_mul] at hbetween hafter
    refine .inr ⟨⟨hlast, hpos, by omega⟩, ?_, ?_⟩
    · simp only
      omega
    · simp only
      omega

/-- The nearer one of the two is a best approximation. -/
theorem isNearest (h0 : 0 ≤ q) :
    (if last.distance q ≤ (lastBetween limit previous last).distance q then last
      else lastBetween limit previous last).IsNearest limit q := by
  have hlt := h.lt_lastBetween_add hstop
  have hlt' := Nat.add_comm _ _ ▸ hlt
  split
  · rename_i hnear
    rcases h.adjacent_lastBetween hstop h0 with ⟨hadjacent, hlow, hhigh⟩ | ⟨hadjacent, hlow, hhigh⟩
    · exact hadjacent.isNearest_right hlow hhigh hlt h.last_le hnear
    · exact hadjacent.isNearest_left hlow hhigh hlt' h.last_le hnear
  · rename_i hnear
    have hnear := (not_le.1 hnear).le
    rcases h.adjacent_lastBetween hstop h0 with ⟨hadjacent, hlow, hhigh⟩ | ⟨hadjacent, hlow, hhigh⟩
    · exact hadjacent.isNearest_left hlow hhigh hlt h.lastBetween_le hnear
    · exact hadjacent.isNearest_right hlow hhigh hlt' h.lastBetween_le hnear

end

end Expands

/-- The nearest fraction is a best approximation. -/
theorem isNearest_nearest (hl : 0 < limit) (h0 : 0 ≤ q) : (nearest q limit).IsNearest limit q := by
  unfold nearest
  split
  · rename_i hden
    have hreduced : q.num.toNat.Coprime q.den := by
      have hnat : q.num.toNat = q.num.natAbs := by
        have := Rat.num_nonneg.2 h0
        omega
      rw [hnat]
      exact q.reduced
    refine ⟨q.den_pos, hden, hreduced, fun n d _ _ => ?_⟩
    rw [value_eq_of_den h0, sub_self, abs_zero]
    exact abs_nonneg _
  · rename_i hden
    obtain ⟨n, d, h, hstop⟩ := (Expands.start (q := q) hl).exists_stop
    exact h.isNearest (hstop (h.rest_ne_zero h0 (not_le.1 hden))) h0

/-! ## Numbers close to zero -/

/-- Zero is as near to a number as the smallest fraction above zero is. -/
theorem le_abs_one_div_sub_iff (hl : 0 < limit) :
    q ≤ |1 / limit - q| ↔ 2 * limit * q ≤ 1 ∨ q ≤ q - 1 / limit := by
  have hpos : (0 : Rat) < limit := by exact_mod_cast hl
  rw [le_abs, neg_sub, le_sub_iff_add_le, ← two_mul, le_div_iff₀ hpos, mul_right_comm]

/-- Half way between zero and the smallest fraction above it, zero is preferred, as it is the
    convergent. -/
theorem nearest_eq_zero (hl : 0 < limit) (h0 : 0 ≤ q) (h : 2 * limit * q ≤ 1) :
    nearest q limit = ⟨0, 1⟩ := by
  rcases h0.eq_or_lt with rfl | hq
  · exact if_pos hl
  obtain ⟨n, hn⟩ : ∃ n, q.num.toNat = n := ⟨_, rfl⟩
  have hden : (0 : Rat) < q.den := by exact_mod_cast q.den_pos
  have hvalue : (n : Rat) / q.den = q := hn ▸ value_eq_of_den h0
  have hpos : 0 < n := by
    rw [← hvalue, div_pos_iff_of_pos_right hden] at hq
    exact_mod_cast hq
  have hlarge : 2 * limit * n ≤ q.den := by
    rw [← hvalue, ← mul_div_assoc, div_le_one hden] at h
    exact_mod_cast h
  have hnext : (limit + 1) * n ≤ q.den := (Nat.mul_le_mul_right n (by omega)).trans hlarge
  have hsmall : n < q.den := by
    have := Nat.mul_le_mul_right n (by omega : 2 ≤ limit + 1)
    omega
  have hfound : convergents limit ⟨0, 1⟩ ⟨1, 0⟩ n q.den = (⟨1, 0⟩, ⟨0, 1⟩) := by
    rw [convergents_start hl q.den_pos, Nat.div_eq_of_lt hsmall, Nat.mod_eq_of_lt hsmall,
      convergents, if_neg hpos.ne']
    refine if_pos ?_
    simpa [step] using Nat.lt_of_succ_le ((Nat.le_div_iff_mul_le hpos).2 hnext)
  have hnear : (⟨0, 1⟩ : Ratio).distance q ≤ (⟨1, limit⟩ : Ratio).distance q := by
    simpa [distance_eq, value, abs_of_nonneg h0] using (le_abs_one_div_sub_iff hl).2 (.inl h)
  have hlimit : ¬q.den ≤ limit := by
    have := Nat.le_mul_of_pos_right (limit + 1) hpos
    omega
  unfold nearest
  rw [if_neg hlimit]
  simp only [hn, hfound, Nat.sub_zero, Nat.div_one, step]
  simpa using hnear

/-- Zero is the nearest fraction to numbers up to half of the smallest fraction above it. -/
theorem numerator_nearest_eq_zero_iff (hl : 0 < limit) (h0 : 0 ≤ q) :
    (nearest q limit).numerator = 0 ↔ 2 * limit * q ≤ 1 := by
  constructor
  · intro hzero
    have hpos : (0 : Rat) < 1 / limit := by positivity
    have hnear := (isNearest_nearest hl h0).le_abs_sub 1 limit hl le_rfl
    rw [value, hzero, Nat.cast_zero, zero_div, zero_sub, abs_neg, abs_of_nonneg h0,
      Int.cast_one, le_abs_one_div_sub_iff hl] at hnear
    exact hnear.resolve_right fun h => by linarith
  · intro h
    rw [nearest_eq_zero hl h0 h]

end Worksheet.Ratio
