-- SUMMARY: Dates shown by a section: one instant for all parts, and the serial dates that have none.
import Worksheet.Format.DateText
import Worksheet.Proofs.Calendar
import Worksheet.Proofs.Decimal
import Worksheet.Proofs.Serial
import Worksheet.Proofs.Traced

/-!
# Dates Shown by a Section

A serial date is shown in three ways: by the day in the calendar, by the time on the clock
and by the time elapsed. All of them are taken from one whole number of microseconds, and
although each takes its own way through binary arithmetic, none of them is off by a unit:
`text_instant`. A serial date outside of the calendar is shown or refused, unless its
microseconds are too many for a binary64 value: `text_outside`.
-/

namespace Worksheet.Format.DateText

open Binary64

variable {q : Rat} {unit : Nat}

/-! ## The smallest unit -/

/-- The smallest unit is a power of ten, from a millisecond to a second. -/
theorem smallestUnit_eq (ts : List (DateToken DatePart)) :
    ∃ k, k ≤ 3 ∧ smallestUnit ts = 1000 * 10 ^ k := by
  refine ⟨3 - min (decimals ts) 3, by omega, ?_⟩
  have hsplit : 6 - min (decimals ts) 3 = 3 + (3 - min (decimals ts) 3) := by omega
  rw [smallestUnit, hsplit, Nat.pow_eq, Nat.pow_add]

/-- Milliseconds divide the unit, which divides a second. -/
structure IsUnit (unit : Nat) : Prop where
  dvd : 1000 ∣ unit
  dvd_second : unit ∣ 1000000
  pos : 0 < unit

theorem isUnit_smallestUnit (ts : List (DateToken DatePart)) : IsUnit (smallestUnit ts) := by
  obtain ⟨k, hk, h⟩ := smallestUnit_eq ts
  rw [h]
  refine ⟨Nat.dvd_mul_right _ _, ?_, Nat.mul_pos (by decide) (Nat.pow_pos (by decide))⟩
  exact Nat.mul_dvd_mul_left 1000 (Nat.pow_dvd_pow 10 hk)

namespace IsUnit

theorem le (h : IsUnit unit) : 1000 ≤ unit := Nat.le_of_dvd h.pos h.dvd

theorem dvd_limit (h : IsUnit unit) : unit ∣ limit * dayMicros :=
  h.dvd_second.trans (by decide)

end IsUnit

/-! ## Rounded microseconds -/

/-- The end of the calendar, in microseconds, is a binary64 value. -/
theorem isValue_end : IsValue ((limit * dayMicros : Nat) : Rat) := by
  refine ⟨limit * (dayMicros / 2 ^ 13), 13, by decide, by decide, ?_⟩
  norm_num [limit, dayMicros]

/-- The microseconds of a serial date, counted in units. -/
def unitCount (q : Rat) (unit : Nat) : Int :=
  nearestInt (Binary64.round (Binary64.round (q * dayMicros) / unit))

theorem unitCount_mono {r : Rat} (h : q ≤ r) : unitCount q unit ≤ unitCount r unit := by
  have hday := round_mono (mul_le_mul_of_nonneg_right h (Nat.cast_nonneg dayMicros))
  exact nearestInt_mono (round_mono (div_le_div_of_nonneg_right hday (Nat.cast_nonneg unit)))

theorem unitCount_zero (unit : Nat) : unitCount 0 unit = 0 := by
  have h := nearestInt_intCast 0
  simpa [unitCount] using h

theorem unitCount_limit (hunit : IsUnit unit) :
    unitCount limit unit * unit = (limit * dayMicros : Nat) := by
  obtain ⟨k, hk⟩ := hunit.dvd_limit
  have hpos : (unit : Rat) ≠ 0 := by exact_mod_cast hunit.pos.ne'
  have hsmall : k < 2 ^ 53 := by
    have hle := Nat.mul_le_mul_right k hunit.le
    rw [← hk] at hle
    unfold limit dayMicros at hle
    omega
  have hround : Binary64.round ((limit : Rat) * dayMicros) = (unit * k : Nat) := by
    rw [← hk, ← Nat.cast_mul]
    exact round_eq_self isValue_end
  have hquot : ((unit * k : Nat) : Rat) / unit = ((k : Int) : Rat) := by
    rw [Nat.cast_mul, mul_div_cancel_left₀ _ hpos]
    rfl
  have hcount : unitCount limit unit = k := by
    rw [unitCount, hround, hquot, round_eq_self (isValue_intCast _), nearestInt_intCast]
    rw [Nat.abs_cast]
    exact_mod_cast hsmall
  rw [hcount, hk, Nat.cast_mul, mul_comm]

/-- The quotient of a finite product is finite. -/
theorem abs_round_div_lt (hunit : IsUnit unit) (h : |q| < overflowBound) :
    |Binary64.round q / unit| ≤ 2 ^ 1015 := by
  have hround := abs_round_lt_iff.2 h
  have hle : (2 : Rat) ^ 9 ≤ unit := by
    have h1000 : (1000 : Rat) ≤ unit := by exact_mod_cast hunit.le
    exact le_trans (by norm_num) h1000
  rw [abs_div, Nat.abs_cast, div_le_iff₀ (by exact_mod_cast hunit.pos)]
  have hpow : (2 : Rat) ^ 1024 = 2 ^ 1015 * 2 ^ 9 := pow_add 2 1015 9
  rw [hpow] at hround
  exact hround.le.trans (mul_le_mul_of_nonneg_left hle (by positivity))

theorem two_pow_lt_overflowBound {k : Nat} (h : k ≤ 1022) : (2 : Rat) ^ k < overflowBound :=
  (pow_lt_pow_right₀ (by norm_num) (Nat.lt_succ_of_le h)).trans_le overflowBound_bounds.1

theorem roundedMicros_eq (hunit : IsUnit unit) (h : |q * dayMicros| < overflowBound) :
    roundedMicros (.finite q) unit =
      .ok (if q < limit then
          min (unitCount q unit * unit) ((limit * dayMicros - unit : Nat) : Int)
        else unitCount q unit * unit) := by
  have hquot := (abs_round_div_lt hunit h).trans_lt (two_pow_lt_overflowBound (by decide))
  unfold roundedMicros
  simp only [times, dividedBy, ofRat_eq, if_pos h, if_pos hquot, nearest?]
  rfl

theorem roundedMicros_eq_tooLarge (h : overflowBound ≤ |q * dayMicros|) :
    roundedMicros (.finite q) unit = .error .tooLarge := by
  unfold roundedMicros
  simp only [times, dividedBy, ofRat_eq, if_neg (not_lt.2 h), nearest?]

/-! ## One instant -/

/-- Within the calendar the rounded microseconds are whole units within the calendar. -/
theorem exists_roundedMicros (hunit : IsUnit unit) (h0 : 0 ≤ q) (h1 : q < limit) :
    ∃ N : Nat, roundedMicros (.finite q) unit = .ok N ∧ 1000 ∣ N ∧
      N < limit * dayMicros := by
  have hbound : |q * dayMicros| < overflowBound := by
    have hday : (0 : Rat) < dayMicros := by norm_num [dayMicros]
    have hend : ((limit * dayMicros : Nat) : Rat) < 2 ^ 64 := by norm_num [limit, dayMicros]
    rw [abs_of_nonneg (mul_nonneg h0 hday.le)]
    refine (mul_lt_mul_of_pos_right h1 hday).trans ?_
    rw [← Nat.cast_mul]
    exact hend.trans (two_pow_lt_overflowBound (by decide))
  have hcount : 0 ≤ unitCount q unit := by
    rw [← unitCount_zero unit]
    exact unitCount_mono h0
  obtain ⟨n, hn⟩ := Int.eq_ofNat_of_zero_le hcount
  refine ⟨min (n * unit) (limit * dayMicros - unit), ?_, ?_, ?_⟩
  · rw [roundedMicros_eq hunit hbound, if_pos h1, hn]
    push_cast
    rfl
  · rcases min_choice (n * unit) (limit * dayMicros - unit) with h | h
    · rw [h]
      exact hunit.dvd.trans (Nat.dvd_mul_left _ _)
    · rw [h]
      exact hunit.dvd.trans (Nat.dvd_sub hunit.dvd_limit dvd_rfl)
  · have hend : 0 < limit * dayMicros := by decide
    exact (min_le_right _ _).trans_lt (Nat.sub_lt hend hunit.pos)

/-- A quotient of microseconds is one of milliseconds. -/
theorem quotient_thousand (n k : Nat) :
    Binary64.quotient ((1000 * n : Nat) : Int) (1000 * k) = ofRat ((n : Rat) / k) := by
  rw [Binary64.quotient, Rat.mkRat_eq_div]
  push_cast
  rw [mul_div_mul_left _ _ (by norm_num)]

theorem elapsed_eq {n : Nat} (h : n < 2 ^ 53) (u : ElapsedUnit) :
    elapsed ((1000 * n : Nat) : Int) u = ((1000 * n / unitMicros u : Nat) : Int) := by
  obtain ⟨k, hk, hpos, hlt⟩ : ∃ k, unitMicros u = 1000 * k ∧ 0 < k ∧ k < 2 ^ 53 := by
    cases u with
    | hours => exact ⟨3600000, by norm_num [unitMicros], by norm_num, by norm_num⟩
    | minutes => exact ⟨60000, by norm_num [unitMicros], by norm_num, by norm_num⟩
    | seconds => exact ⟨1000, by norm_num [unitMicros], by norm_num, by norm_num⟩
  have hfinite : ofRat ((n : Rat) / k) = .finite (Binary64.round ((n : Rat) / k)) := by
    refine ofRat_of_lt ?_
    have hone : (1 : Rat) ≤ k := by exact_mod_cast hpos
    have hn : (n : Rat) < 2 ^ 53 := by exact_mod_cast h
    rw [abs_of_nonneg (by positivity)]
    exact (div_le_self (Nat.cast_nonneg n) hone).trans_lt (hn.trans (by norm_num))
  unfold elapsed
  rw [hk, quotient_thousand, hfinite, Nat.mul_div_mul_left _ _ (by decide)]
  exact floor_round_div h hpos hlt

/-- The parts of a moment, in microseconds of the day. -/
theorem moment_parts (m : Moment) :
    let time := m.millisecond * 1000
    m.hour = time / 3600000000 ∧ m.minute = time / 60000000 % 60 ∧
      m.second = time / 1000000 % 60 ∧ m.microsecond = time % 1000000 := by
  unfold Moment.hour Moment.minute Moment.second Moment.microsecond
  refine ⟨?_, ?_, ?_, ?_⟩ <;> omega

theorem lt_two_pow_of_lt_limit {n : Nat} (h : 1000 * n < limit * dayMicros) : n < 2 ^ 53 := by
  unfold limit dayMicros at h
  omega

/-- The moment of a number of microseconds in the calendar. From the first day to the 59th it is
    a day later. -/
theorem exists_moment {n : Nat} (h : 1000 * n < limit * dayMicros) :
    ∃ m, Serial.moment (Binary64.quotient ((1000 * n : Nat) : Int) dayMicros) = .ok m ∧
      m.dayNumber = Serial.epoch + (1000 * n / dayMicros +
        if dayMicros ≤ 1000 * n ∧ 1000 * n < 60 * dayMicros then 1 else 0) ∧
      m.millisecond * 1000 = 1000 * n % dayMicros := by
  have hday : dayMicros = 1000 * Serial.dayLength := rfl
  have hk : n / Serial.dayLength < 2958466 := by
    rw [Nat.div_lt_iff_lt_mul (by decide)]
    unfold limit dayMicros at h
    unfold Serial.dayLength
    omega
  obtain ⟨m, hm, hmday, hms⟩ := Serial.moment_ofRat hk (Nat.mod_lt n (by decide))
  rw [Nat.div_add_mod', ← quotient_thousand, ← hday] at hm
  have hdiv : 1000 * n / dayMicros = n / Serial.dayLength := by
    rw [hday, Nat.mul_div_mul_left _ _ (by decide)]
  have hshift : (1 ≤ n / Serial.dayLength ∧ n / Serial.dayLength < 60) ↔
      dayMicros ≤ 1000 * n ∧ 1000 * n < 60 * dayMicros := by
    unfold dayMicros Serial.dayLength
    omega
  refine ⟨m, hm, ?_, ?_⟩
  · simp only [hshift] at hmday
    rw [hdiv]
    apply Moment.dayNumber_eq
    rw [hmday, Nat.cast_add, Nat.cast_ite, Nat.cast_one, Nat.cast_zero]
  · rw [hms, hday, Nat.mul_mod_mul_left, Nat.mul_comm]

/-- A serial date of the calendar is shown, and all that is shown of it is taken from one number
    `N` of microseconds: the date is `N / dayMicros` days after December 30 of 1899 (from the
    first day to the 59th it is a day later), the time of day is the rest, and elapsed time is
    counted in the full units in `N`. -/
theorem text_instant (q : Rat) (h0 : 0 ≤ q) (h1 : q < 2958466) (s : List Char) :
    ∃ (N : Nat) (m : Moment),
      roundedMicros (.finite q) (smallestUnit (DateToken.ofSection s)) = .ok N ∧ 1000 ∣ N ∧
      N < 2958466 * 86400000000 ∧
      Serial.moment (Binary64.quotient N dayMicros) = .ok m ∧
      (let days := N / 86400000000 +
          (if 86400000000 ≤ N ∧ N < 60 * 86400000000 then 1 else 0)
       m.date = Date.next^[days] ⟨1899, 12, 30⟩ ∧ m.weekday = (5 + days) % 7) ∧
      (let time := N % 86400000000
       m.hour = time / 3600000000 ∧ m.minute = time / 60000000 % 60 ∧
        m.second = time / 1000000 % 60 ∧ m.microsecond = time % 1000000) ∧
      (∀ (u : ElapsedUnit) (width : Nat) (twelve : Bool),
        tokenText m N twelve (.elapsed u width) =
          Digits.padded width (N / (match u with
            | .hours => 3600000000
            | .minutes => 60000000
            | .seconds => 1000000))) ∧
      text (.finite q) s = .ok ((DateToken.ofSection s).flatMap
        (tokenText m N (isTwelveHour (DateToken.ofSection s)))) := by
  have hlimit : (limit : Rat) = 2958466 := by norm_num [limit]
  obtain ⟨N, hN, ⟨n, rfl⟩, hlt⟩ :=
    exists_roundedMicros (isUnit_smallestUnit (DateToken.ofSection s)) h0 (h1.trans_eq hlimit.symm)
  obtain ⟨m, hm, hnumber, hmod⟩ := exists_moment hlt
  refine ⟨1000 * n, m, hN, Nat.dvd_mul_right _ _, hlt, hm, ⟨?_, ?_⟩, hmod ▸ moment_parts m, ?_, ?_⟩
  · rw [Moment.date, hnumber, Calendar.date_add, Serial.date_epoch]
    rfl
  · rw [Moment.weekday, hnumber, Calendar.weekday, Nat.add_mod]
    exact (Nat.add_mod 5 _ 7).symm
  · intro u width twelve
    have hpositive : ¬((1000 * n / unitMicros u : Nat) : Int) < 0 := not_lt.2 (Int.natCast_nonneg _)
    rw [tokenText, elapsed_eq (lt_two_pow_of_lt_limit hlt), Digits.ofIntPadded, if_neg hpositive,
      Int.natAbs_natCast]
    cases u <;> rfl
  · unfold text
    refine bind_eq_ok_iff.2 ⟨_, hN, bind_eq_ok_iff.2 ⟨m, hm, rfl⟩⟩

/-- Noon of the 59th day. -/
theorem text_instant_noon :
    (0 : Rat) ≤ 119 / 2 ∧ (119 / 2 : Rat) < 2958466 ∧
      ∃ m, Serial.moment (Binary64.quotient 5140800000000 dayMicros) = .ok m ∧
        m.date = ⟨1900, 2, 28⟩ ∧ m.hour = 12 ∧
        tokenText m 5140800000000 false (.elapsed .hours 1) = ['1', '4', '2', '8'] := by
  have h0 : (0 : Rat) ≤ 119 / 2 := by norm_num
  have h1 : (119 / 2 : Rat) < 2958466 := by norm_num
  obtain ⟨N, m, hN, -, -, hm, ⟨hdate, -⟩, ⟨hhour, -⟩, helapsed, -⟩ :=
    text_instant (119 / 2) h0 h1 ['[', 'h', ']']
  have hsmall : |(119 / 2 : Rat) * dayMicros| < overflowBound := by
    have hsmall' : |(119 / 2 : Rat) * dayMicros| < 2 ^ 64 := by norm_num [dayMicros]
    exact hsmall'.trans (two_pow_lt_overflowBound (by decide))
  have hunit := isUnit_smallestUnit (DateToken.ofSection ['[', 'h', ']'])
  have hvalue : (if (119 / 2 : Rat) < limit then
      min (unitCount (119 / 2) 1000000 * 1000000) ((limit * dayMicros - 1000000 : Nat) : Int)
      else unitCount (119 / 2) 1000000 * 1000000) = 5140800000000 := by decide +kernel
  have hone : smallestUnit (DateToken.ofSection ['[', 'h', ']']) = 1000000 := by decide +kernel
  rw [roundedMicros_eq hunit hsmall, hone] at hN
  obtain rfl : N = 5140800000000 := by
    have h := (Except.ok.inj hN).symm.trans hvalue
    omega
  refine ⟨h0, h1, m, hm, ?_, ?_, ?_⟩
  · rw [hdate]
    decide +kernel
  · rw [hhour]
  · exact (helapsed .hours 1 false).trans (by decide +kernel)

/-! ## Outside of the calendar -/

theorem abs_unitCount_le (hunit : IsUnit unit) (h : |q * dayMicros| < overflowBound) :
    |(unitCount q unit : Rat)| ≤ 2 ^ 1016 := by
  have hquot : |Binary64.round (Binary64.round (q * dayMicros) / unit)| ≤ 2 ^ 1015 := by
    rw [abs_round]
    exact round_le (isValue_two_pow 1015) (abs_round_div_lt hunit h)
  have hnear := abs_nearestInt_sub_le (Binary64.round (Binary64.round (q * dayMicros) / unit))
  have hsplit := abs_sub_abs_le_abs_sub (unitCount q unit : Rat)
    (Binary64.round (Binary64.round (q * dayMicros) / unit))
  have hone : (1 : Rat) ≤ 2 ^ 1015 := one_le_pow₀ (by norm_num)
  have hpow : (2 : Rat) ^ 1016 = 2 ^ 1015 * 2 := pow_succ 2 1015
  rw [hpow]
  unfold unitCount at hsplit ⊢
  generalize (2 : Rat) ^ 1015 = p at hquot hone
  linarith

/-- A serial date whose microseconds are finite has rounded microseconds, and as many days as
    these are make a finite value. -/
theorem exists_micros (hunit : IsUnit unit) (h : |q * dayMicros| < overflowBound) :
    ∃ N : Int, roundedMicros (.finite q) unit = .ok N ∧
      |(N : Rat) / dayMicros| < overflowBound ∧
      ((limit : Rat) ≤ q → ((limit * dayMicros : Nat) : Int) ≤ N) := by
  have hday : (0 : Rat) < dayMicros := by norm_num [dayMicros]
  have hle : (unit : Rat) ≤ dayMicros := by
    have hsecond := Nat.le_of_dvd (by decide) hunit.dvd_second
    exact_mod_cast hsecond.trans (by decide : 1000000 ≤ dayMicros)
  have hcount : |((unitCount q unit * unit : Int) : Rat)| ≤ 2 ^ 1016 * dayMicros := by
    rw [Int.cast_mul, abs_mul, Int.cast_natCast, Nat.abs_cast]
    exact mul_le_mul (abs_unitCount_le hunit h) hle (Nat.cast_nonneg _)
      (pow_nonneg (by norm_num) _)
  have hbound {N : Int} (hN : |(N : Rat)| ≤ 2 ^ 1016 * dayMicros) :
      |(N : Rat) / dayMicros| < overflowBound := by
    rw [abs_div, Nat.abs_cast]
    exact ((div_le_iff₀ hday).2 hN).trans_lt (two_pow_lt_overflowBound (by decide))
  refine ⟨_, roundedMicros_eq hunit h, hbound ?_, fun hlimit => ?_⟩
  · split
    · rw [Int.cast_min]
      refine abs_min_le_max_abs_abs.trans (max_le hcount ?_)
      rw [Int.cast_natCast, Nat.abs_cast]
      have hend : ((limit * dayMicros - unit : Nat) : Rat) ≤ limit * dayMicros := by
        exact_mod_cast Nat.sub_le _ _
      have hpow : (limit : Rat) ≤ 2 ^ 1016 := by
        have hsmall : (limit : Rat) ≤ 2 ^ 22 := by norm_num [limit]
        exact hsmall.trans (pow_le_pow_right₀ (by norm_num) (by decide))
      exact hend.trans (mul_le_mul_of_nonneg_right hpow hday.le)
    · exact hcount
  · rw [if_neg (not_lt.2 hlimit), ← unitCount_limit hunit]
    exact mul_le_mul_of_nonneg_right (unitCount_mono hlimit) (Int.natCast_nonneg _)

/-- A serial date is refused as out of range, or it is shown and before the end of the
    calendar. Only if its microseconds are too many for a binary64 value, there is no answer
    that names the date. -/
theorem text_outside (s : List Char) :
    (∀ q : Rat, |q * 86400000000| < overflowBound →
      (∃ t, text (.finite q) s = .ok t ∧ q < 2958466) ∨
        ∃ y : Rat, text (.finite q) s = .error (.serialOutOfRange (.finite y))) ∧
    (∀ x : Binary64, (∀ q, x ≠ .finite q) → text x s = .error (.serialOutOfRange x)) ∧
    (∀ q : Rat, overflowBound ≤ |q * 86400000000| → text (.finite q) s = .error .tooLarge) := by
  have hday : (dayMicros : Rat) = 86400000000 := by norm_num [dayMicros]
  have hlimit : (limit : Rat) = 2958466 := by norm_num [limit]
  refine ⟨fun q hq => ?_, fun x hx => ?_, fun q hq => ?_⟩
  · rw [← hday] at hq
    obtain ⟨N, hN, hfinite, hend⟩ := exists_micros (isUnit_smallestUnit (DateToken.ofSection s)) hq
    have hquot : Binary64.quotient N dayMicros = .finite (Binary64.round (N / dayMicros)) := by
      rw [Binary64.quotient, Rat.mkRat_eq_div, ofRat_eq, if_pos hfinite]
    rcases Serial.moment_finite (Binary64.round (N / dayMicros)) with ⟨m, hm, hlast⟩ | hm
    · refine .inl ⟨_, bind_eq_ok_iff.2 ⟨N, hN, bind_eq_ok_iff.2 ⟨m, hquot ▸ hm, rfl⟩⟩, ?_⟩
      by_contra hge
      have hNend := hend (hlimit.trans_le (not_lt.1 hge))
      have hdays : (limit : Rat) ≤ N / dayMicros := by
        rw [le_div_iff₀ (by norm_num [dayMicros])]
        exact_mod_cast hNend
      have hround := le_round (isValue_natCast (by decide)) hdays
      have hfloor : ((limit : Nat) : Int) ≤ (Binary64.round (N / dayMicros)).floor :=
        (Int.le_floor (a := Binary64.round (N / dayMicros))).2 (by exact_mod_cast hround)
      exact absurd (hfloor.trans hlast) (by decide)
    · refine .inr ⟨Binary64.round (N / dayMicros), ?_⟩
      exact bind_eq_error_iff.2 (.inr ⟨N, hN, bind_eq_error_iff.2 (.inl (hquot ▸ hm))⟩)
  · have hmicros : roundedMicros x (smallestUnit (DateToken.ofSection s)) =
        .error (.serialOutOfRange x) := by
      cases x with
      | finite q => exact absurd rfl (hx q)
      | infinity negative => rfl
      | nan => rfl
    exact bind_eq_error_iff.2 (.inl hmicros)
  · rw [← hday] at hq
    exact bind_eq_error_iff.2 (.inl (roundedMicros_eq_tooLarge hq))

/-- The end of the calendar is refused, and infinity and not-a-number are. -/
theorem text_outside_end :
    |(2958466 : Rat) * 86400000000| < overflowBound ∧
      (∃ y : Rat, text (.finite 2958466) ['h'] = .error (.serialOutOfRange (.finite y))) ∧
      text (.infinity true) ['h'] = .error (.serialOutOfRange (.infinity true)) ∧
      text .nan ['h'] = .error (.serialOutOfRange .nan) := by
  have hsmall : |(2958466 : Rat) * 86400000000| < overflowBound := by
    have hsmall' : |(2958466 : Rat) * 86400000000| < 2 ^ 64 := by norm_num
    exact hsmall'.trans (two_pow_lt_overflowBound (by decide))
  obtain ⟨hfinite, hother, -⟩ := text_outside ['h']
  refine ⟨hsmall, ?_, hother _ (fun q h => nomatch h), hother _ (fun q h => nomatch h)⟩
  exact (hfinite 2958466 hsmall).resolve_left fun ⟨_, _, hlt⟩ => lt_irrefl _ hlt

/-- A finite serial date for which there is no answer. -/
theorem text_of_1e300 : ∃ q : Rat, Decimal.toBinary64 ⟨false, 1, 300⟩ = .finite q ∧
    2958466 ≤ q ∧ text (.finite q) ['h'] = .error .tooLarge := by
  -- A thousand is nearly a power of two.
  have hlow : (2 : Rat) ^ 990 ≤ 10 ^ 300 := by
    have h : (2 : Rat) ^ 99 ≤ 10 ^ 30 := by norm_num
    rw [pow_mul 2 99 10, pow_mul 10 30 10]
    exact pow_le_pow_left₀ (by positivity) h 10
  have hhigh : (10 : Rat) ^ 300 ≤ 2 ^ 1000 := by
    have h : (10 : Rat) ^ 30 ≤ 2 ^ 100 := by norm_num
    rw [pow_mul 2 100 10, pow_mul 10 30 10]
    exact pow_le_pow_left₀ (by positivity) h 10
  have hvalue : Decimal.value ⟨false, 1, 300⟩ = 10 ^ 300 := by
    rw [Decimal.value, if_neg Bool.false_ne_true, Decimal.magnitude_eq, Nat.cast_one, one_mul]
    exact zpow_ofNat 10 300
  have hround : (2 : Rat) ^ 990 ≤ Binary64.round (10 ^ 300) := le_round (isValue_two_pow 990) hlow
  refine ⟨Binary64.round (10 ^ 300), ?_, ?_, ?_⟩
  · have hsmall : |(10 : Rat) ^ 300| < overflowBound := by
      rw [abs_of_nonneg (by positivity)]
      exact hhigh.trans_lt (two_pow_lt_overflowBound (by decide))
    have hfinite := (ofRat_eq (10 ^ 300)).trans (if_pos hsmall)
    rw [← hfinite, ← hvalue]
    rfl
  · have hend : (2958466 : Rat) ≤ 2 ^ 22 := by norm_num
    exact (hend.trans (pow_le_pow_right₀ (by norm_num) (by decide))).trans hround
  · refine bind_eq_error_iff.2 (.inl (roundedMicros_eq_tooLarge ?_))
    have hday : (2 : Rat) ^ 34 ≤ dayMicros := by norm_num [dayMicros]
    calc overflowBound ≤ 2 ^ 1024 := overflowBound_bounds.2.le
      _ = 2 ^ 990 * 2 ^ 34 := pow_add 2 990 34
      _ ≤ Binary64.round (10 ^ 300) * dayMicros :=
        mul_le_mul hround hday (by positivity) (round_nonneg (by positivity))
      _ ≤ |Binary64.round (10 ^ 300) * dayMicros| := le_abs_self _

end Worksheet.Format.DateText
