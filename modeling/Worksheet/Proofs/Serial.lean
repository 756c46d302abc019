-- SUMMARY: A serial date of whole milliseconds stands for the moment that these milliseconds count.
import Worksheet.Proofs.Binary64
import Worksheet.Serial

/-!
# Moments of Serial Dates

A serial date is a binary fraction of a day, and on its way to a moment it is rounded four
times. For a whole number of milliseconds up to the end of the calendar, nothing of this
shows: the moment has exactly the days and the milliseconds of that number
(`moment_ofRat`).
-/

namespace Worksheet

open Binary64

/-! ## Moments -/

namespace Moment

variable {day : Int} {ms : Nat}

theorem exists_after? (hfirst : Serial.firstDay ≤ day) (hlast : day ≤ Serial.lastDay)
    (hms : ms < Serial.dayLength) :
    ∃ m, after? day ms = some m ∧ m.day = day ∧ m.millisecond = ms := by
  have hday : day + ((ms / Serial.dayLength : Nat) : Int) = day := by
    rw [Nat.div_eq_of_lt hms]
    exact add_zero day
  have hrange : Serial.firstDay ≤ day ∧
      day + ((ms / Serial.dayLength : Nat) : Int) ≤ Serial.lastDay := ⟨hfirst, by rwa [hday]⟩
  unfold after?
  rw [dif_pos hrange]
  exact ⟨_, rfl, hday, Nat.mod_eq_of_lt hms⟩

theorem dayNumber_eq {m : Moment} {k : Nat} (h : m.day = k) : m.dayNumber = Serial.epoch + k := by
  rw [dayNumber, h, ← Int.natCast_add, Int.toNat_natCast, Nat.add_comm]

theorem after?_eq_none (h : Serial.lastDay < day) : after? day ms = none := by
  unfold after?
  rw [dif_neg]
  rintro ⟨-, hlast⟩
  have hnonneg : 0 ≤ ((ms / Serial.dayLength : Nat) : Int) := Int.natCast_nonneg _
  omega

end Moment

namespace Serial

/-! ## Days -/

theorem date_epoch : Calendar.date epoch = ⟨1899, 12, 30⟩ := by
  have hyear : Calendar.yearOf epoch = 1899 := by decide +kernel
  have hday : epoch - Calendar.daysBefore 1899 = 363 := by decide +kernel
  simp only [Calendar.date, hyear, hday]
  decide +kernel

/-- The days from 1 to 59 are counted from a day later. -/
theorem dayOf_eq {q : Rat} {k ms : Nat} (hq : q.floor = k) (hms : ms < dayLength) :
    dayOf q ms = (k : Int) + if 1 ≤ k ∧ k < 60 then 1 else 0 := by
  have hlt (n : Nat) : q < n ↔ k < n := by
    have h : q.floor < (n : Int) ↔ q < ((n : Int) : Rat) := Int.floor_lt (a := q)
    rw [hq, Int.cast_natCast] at h
    rw [← h, Int.ofNat_lt]
  have hone := hlt 1
  have hsixty := hlt 60
  have hzero : ¬q < 1 → 0 < q := fun h => zero_lt_one.trans_le (not_lt.1 h)
  rw [Nat.cast_one] at hone
  rw [Nat.cast_ofNat] at hsixty
  unfold dayOf
  rw [hq]
  by_cases hshift : 1 ≤ k ∧ k < 60
  · have hday : ¬q < 1 := fun h => absurd (hone.1 h) (by omega)
    rw [if_pos ⟨hzero hday, hsixty.2 hshift.2, fun h => hday h.1⟩, if_pos hshift]
  · rw [if_neg, if_neg hshift]
    · exact (add_zero _).symm
    · rintro ⟨-, hlow, hhigh⟩
      have hday : ¬k < 1 := fun h => hhigh ⟨hone.2 h, hms⟩
      exact hshift ⟨by omega, hsixty.1 hlow⟩

/-! ## Milliseconds -/

theorem round_fraction_bounds {f : Rat} (h0 : 0 ≤ f) (h1 : f ≤ 1) :
    0 ≤ Binary64.round f ∧ Binary64.round f ≤ 1 :=
  ⟨round_nonneg h0, round_le (isValue_natCast (n := 1) (by decide)) h1⟩

/-- The seconds in a fraction of a day, which are on the way to its milliseconds. -/
def seconds (f : Rat) : Rat := Binary64.round (Binary64.round f * 86400)

theorem seconds_bounds {f : Rat} (h0 : 0 ≤ f) (h1 : f ≤ 1) : 0 ≤ seconds f ∧ seconds f ≤ 86400 := by
  obtain ⟨hlow, hhigh⟩ := round_fraction_bounds h0 h1
  exact ⟨round_nonneg (by linarith), round_le (isValue_natCast (n := 86400) (by decide))
    (by linarith)⟩

theorem milliseconds_eq_nearestInt {f : Rat} (h0 : 0 ≤ f) (h1 : f ≤ 1) :
    milliseconds f = (nearestInt (Binary64.round (seconds f * 1000))).toNat := by
  obtain ⟨hf0, hf1⟩ := round_fraction_bounds h0 h1
  obtain ⟨hs0, hs1⟩ := seconds_bounds h0 h1
  have hsmall {q c : Rat} (h0 : 0 ≤ q) (h : q ≤ c) (hc : c < 2 ^ 64) :
      ofRat q = .finite (Binary64.round q) :=
    ofRat_of_lt (by rw [abs_of_nonneg h0]; exact h.trans_lt hc)
  have hseconds : ofRat (Binary64.round f * 86400) = .finite (seconds f) :=
    hsmall (c := 86400) (by linarith) (by linarith) (by norm_num)
  have hmillis : ofRat (seconds f * 1000) = .finite (Binary64.round (seconds f * 1000)) :=
    hsmall (c := 86400000) (by linarith) (by linarith) (by norm_num)
  unfold milliseconds
  simp only [times, hsmall h0 h1 (by norm_num), hseconds, hmillis, nearest?]
  rfl

/-- A fraction of a day that is close to a number of milliseconds has this number of them. -/
theorem milliseconds_eq {f : Rat} {j : Nat} (h0 : 0 ≤ f) (h1 : f ≤ 1)
    (hj : |f * 86400000 - j| ≤ 1 / 4) : milliseconds f = j := by
  obtain ⟨hf0, hf1⟩ := round_fraction_bounds h0 h1
  obtain ⟨hs0, hs1⟩ := seconds_bounds h0 h1
  have hferr := abs_round_sub_le_of_le le_rfl (by rwa [abs_of_nonneg h0])
  have hserr : |seconds f - Binary64.round f * 86400| ≤ 86400 / 2 ^ 53 := by
    refine abs_round_sub_le_of_le (by norm_num) ?_
    rw [abs_of_nonneg (by linarith)]
    linarith
  have hmerr : |Binary64.round (seconds f * 1000) - seconds f * 1000| ≤ 86400000 / 2 ^ 53 := by
    refine abs_round_sub_le_of_le (by norm_num) ?_
    rw [abs_of_nonneg (by linarith)]
    linarith
  have hnear : nearestInt (Binary64.round (seconds f * 1000)) = j := by
    apply nearestInt_eq_of_abs_lt
    rw [abs_lt, Int.cast_natCast]
    rw [abs_le] at hj hferr hserr hmerr
    constructor <;> linarith
  rw [milliseconds_eq_nearestInt h0 h1, hnear, Int.toNat_natCast]

theorem floor_le_dayOf (q : Rat) (ms : Nat) : q.floor ≤ dayOf q ms := by
  unfold dayOf
  split <;> omega

/-- A value has a moment only before the end of the calendar. -/
theorem moment_finite (q : Rat) :
    (∃ m, moment (.finite q) = .ok m ∧ q.floor ≤ lastDay) ∨
      moment (.finite q) = .error (.serialOutOfRange (.finite q)) := by
  unfold moment
  cases h : Moment.after? (dayOf q (milliseconds (q - q.floor))) (milliseconds (q - q.floor)) with
  | none =>
    simp only [h]
    exact .inr trivial
  | some m =>
    simp only [h]
    refine .inl ⟨m, rfl, not_lt.1 fun hlast => ?_⟩
    rw [Moment.after?_eq_none (hlast.trans_le (floor_le_dayOf q _))] at h
    cases h

theorem moment_of_after? {q : Rat} {ms : Nat} {m : Moment} (hms : milliseconds (q - q.floor) = ms)
    (hm : Moment.after? (dayOf q ms) ms = some m) : moment (.finite q) = .ok m := by
  unfold moment
  simp only [hms, hm]

/-! ## Whole milliseconds -/

section Whole

variable {k j : Nat}

theorem whole_lt (hk : k < 2958466) (hj : j < dayLength) : k * dayLength + j < 2 ^ 53 := by
  unfold dayLength at hj ⊢
  omega

theorem floor_round_days (hk : k < 2958466) (hj : j < dayLength) :
    (Binary64.round (((k * dayLength + j : Nat) : Rat) / dayLength)).floor = k := by
  have hdiv : (k * dayLength + j) / dayLength = k := by
    rw [Nat.mul_comm, Nat.mul_add_div (by decide), Nat.div_eq_of_lt hj, Nat.add_zero]
  rw [floor_round_div (whole_lt hk hj) (by decide) (by decide), hdiv]

/-- The milliseconds of the day survive the rounding of the days. -/
theorem milliseconds_round_days (hk : k < 2958466) (hj : j < dayLength) :
    milliseconds (Binary64.round (((k * dayLength + j : Nat) : Rat) / dayLength) - k) = j := by
  have hfloor := floor_round_days hk hj
  have hlow := Int.floor_le (Binary64.round (((k * dayLength + j : Nat) : Rat) / dayLength))
  have hhigh :=
    Int.lt_floor_add_one (Binary64.round (((k * dayLength + j : Nat) : Rat) / dayLength))
  have hlength : (dayLength : Rat) = 86400000 := by norm_num [dayLength]
  have hk' : (k : Rat) + 1 ≤ 2958466 := by exact_mod_cast hk
  have hj' : (j : Rat) < 86400000 := by
    rw [← hlength]
    exact_mod_cast hj
  have hj0 : (0 : Rat) ≤ j := Nat.cast_nonneg j
  have hdays : ((k * dayLength + j : Nat) : Rat) / dayLength = k + j / 86400000 := by
    push_cast
    rw [hlength, add_div, mul_div_cancel_right₀ _ (by norm_num)]
  have hfrac0 : (0 : Rat) ≤ j / 86400000 := by positivity
  have hfrac1 : (j : Rat) / 86400000 < 1 := by rwa [div_lt_one (by norm_num)]
  rw [hdays] at hlow hhigh hfloor ⊢
  have herror : |Binary64.round ((k : Rat) + j / 86400000) - (k + j / 86400000)| ≤
      2958466 / 2 ^ 53 := by
    refine abs_round_sub_le_of_le (by norm_num) ?_
    rw [abs_of_nonneg (by positivity)]
    linarith
  have hfloor' : (⌊Binary64.round ((k : Rat) + j / 86400000)⌋ : Rat) = k := by
    exact_mod_cast congrArg (Int.cast (R := Rat)) hfloor
  rw [hfloor'] at hlow hhigh
  refine milliseconds_eq (by linarith) (by linarith) ?_
  have hmillis : (j : Rat) / 86400000 * 86400000 = j := div_mul_cancel₀ _ (by norm_num)
  rw [abs_le] at herror ⊢
  constructor <;> linarith

/-- The serial date of `k` days and `j` milliseconds. -/
theorem moment_ofRat (hk : k < 2958466) (hj : j < dayLength) :
    ∃ m, moment (ofRat (((k * dayLength + j : Nat) : Rat) / dayLength)) = .ok m ∧
      m.day = (k : Int) + (if 1 ≤ k ∧ k < 60 then 1 else 0) ∧ m.millisecond = j := by
  have hfinite : ofRat (((k * dayLength + j : Nat) : Rat) / dayLength) =
      .finite (Binary64.round (((k * dayLength + j : Nat) : Rat) / dayLength)) := by
    have hlt : ((k * dayLength + j : Nat) : Rat) < 2 ^ 53 := by exact_mod_cast whole_lt hk hj
    have hone : (1 : Rat) ≤ dayLength := by norm_num [dayLength]
    refine ofRat_of_lt (lt_of_le_of_lt ?_ (hlt.trans (by norm_num)))
    rw [abs_of_nonneg (by positivity)]
    exact div_le_self (Nat.cast_nonneg _) hone
  have hfirst : firstDay = -693593 := rfl
  have hlast : lastDay = 2958465 := rfl
  have hlow : firstDay ≤ (k : Int) + (if 1 ≤ k ∧ k < 60 then 1 else 0) := by split <;> omega
  have hhigh : (k : Int) + (if 1 ≤ k ∧ k < 60 then 1 else 0) ≤ lastDay := by split <;> omega
  obtain ⟨m, hm, hday, hms⟩ := Moment.exists_after? hlow hhigh hj
  refine ⟨m, ?_, hday, hms⟩
  rw [hfinite]
  have hmillis := milliseconds_round_days hk hj
  rw [← Int.cast_natCast (R := Rat) k, ← floor_round_days hk hj] at hmillis
  refine moment_of_after? hmillis ?_
  rw [dayOf_eq (floor_round_days hk hj) hj, hm]

end Whole

end Serial

end Worksheet
