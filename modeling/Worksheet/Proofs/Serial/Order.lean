-- SUMMARY: Later serial dates stand for later moments, apart from the day that never was.
import Mathlib.Data.List.Lex
import Mathlib.Order.Monotone.Basic
import Worksheet.Proofs.Calendar
import Worksheet.Proofs.Serial

/-!
# The Order of Serial Dates

A serial date comes to its moment in pieces: below 0 and from 61 on a day is as many days after
the epoch as its number says, from 1 to 59 it is a day later, and between 0 and 1 it is a day
later only if the time is rounded up to a full day. Within a piece, rounding keeps the order of
times. From one piece to the next there is a full day for what is rounded up, as long as day 60
is left out: `instant_mono`. Moments are compared like dates are written, from the year down:
`fields_le`.
-/

namespace Worksheet

open Binary64

/-! ## The order of dates -/

private theorem cons_le_cons_iff {a b : Nat} {s t : List Nat} :
    a :: s ≤ b :: t ↔ a < b ∨ a = b ∧ s ≤ t := by
  rw [le_iff_lt_or_eq, le_iff_lt_or_eq, List.cons_lt_cons_iff, List.cons.injEq, and_or_left,
    or_assoc]

/-- The numbers of a date, the year first. -/
def Date.fields (d : Date) : List Nat := [d.year, d.month, d.day]

theorem Date.fields_lt_next (d : Date) : d.fields < d.next.fields := by
  unfold Date.next
  split
  · simp [Date.fields, List.cons_lt_cons_iff]
  · split
    · simp [Date.fields, List.cons_lt_cons_iff]
    · simp [Date.fields, List.cons_lt_cons_iff]

/-- Day by day the date is a later one. -/
theorem Calendar.fields_date_strictMono : StrictMono fun n => (date n).fields := by
  apply strictMono_nat_of_lt_succ
  intro n
  rw [date_succ]
  exact (date n).fields_lt_next

/-! ## The order of moments -/

namespace Moment

variable {m n : Moment} {day : Int} {ms : Nat}

/-- The numbers of the time of day, the hour first. -/
def timeFields (m : Moment) : List Nat := [m.hour, m.minute, m.second, m.microsecond]

/-- The numbers of a moment, from the year down. -/
def fields (m : Moment) : List Nat := m.date.fields ++ m.timeFields

/-- The milliseconds from the epoch to a moment. -/
def instant (m : Moment) : Int := m.day * Serial.dayLength + m.millisecond

theorem dayNumber_add (m : Moment) : (m.dayNumber : Int) = m.day + Serial.epoch := by
  have hfirst := m.firstDay_le
  have hepoch : (Serial.epoch : Int) = -Serial.firstDay := rfl
  unfold dayNumber
  omega

theorem timeFields_le (h : m.millisecond ≤ n.millisecond) : m.timeFields ≤ n.timeFields := by
  simp only [timeFields, cons_le_cons_iff, le_refl, and_true, hour, minute, second, microsecond]
  omega

/-- Moments are in order if they are in order as dates with a time. -/
theorem fields_le (h : m.instant ≤ n.instant) : m.fields ≤ n.fields := by
  have hm := m.millisecond_lt
  have hn := n.millisecond_lt
  unfold instant Serial.dayLength at h
  unfold Serial.dayLength at hm hn
  have hmday := dayNumber_add m
  have hnday := dayNumber_add n
  rcases lt_trichotomy m.day n.day with hlt | heq | hgt
  · have hdate : m.date.fields < n.date.fields :=
      Calendar.fields_date_strictMono (by omega)
    simp only [Date.fields, List.cons_lt_cons_iff, List.not_lt_nil, and_false, or_false] at hdate
    simp only [fields, Date.fields, List.cons_append, cons_le_cons_iff]
    omega
  · have hdate : m.date = n.date := by
      rw [date, date, show m.dayNumber = n.dayNumber by omega]
    have htime := timeFields_le (m := m) (n := n) (by omega)
    rw [fields, fields, hdate]
    exact List.cons_le_cons _ (List.cons_le_cons _ (List.cons_le_cons _ htime))
  · omega

theorem instant_of_after? (h : after? day ms = some m) :
    m.instant = day * Serial.dayLength + ms := by
  unfold after? at h
  split at h
  · obtain rfl := Option.some.inj h
    unfold instant
    have hsplit := Nat.div_add_mod ms Serial.dayLength
    simp only
    unfold Serial.dayLength at hsplit ⊢
    omega
  · cases h

end Moment

namespace Serial

variable {f g q r : Rat} {ms : Nat}

/-! ## Milliseconds -/

theorem seconds_mono (h : f ≤ g) : seconds f ≤ seconds g :=
  round_mono (mul_le_mul_of_nonneg_right (round_mono h) (by norm_num))

theorem milliseconds_mono (h0 : 0 ≤ f) (h : f ≤ g) (h1 : g ≤ 1) :
    milliseconds f ≤ milliseconds g := by
  rw [milliseconds_eq_nearestInt h0 (h.trans h1), milliseconds_eq_nearestInt (h0.trans h) h1]
  apply Int.toNat_le_toNat
  apply nearestInt_mono
  apply round_mono
  exact mul_le_mul_of_nonneg_right (seconds_mono h) (by norm_num)

/-- A part of a day is rounded to a full day at most. -/
theorem milliseconds_le (h0 : 0 ≤ f) (h1 : f ≤ 1) : milliseconds f ≤ dayLength := by
  have hone : milliseconds 1 = dayLength :=
    milliseconds_eq zero_le_one le_rfl (by norm_num [dayLength])
  rw [← hone]
  exact milliseconds_mono h0 h1 le_rfl

/-- The milliseconds of the day of a serial date. -/
def timeOf (q : Rat) : Nat := milliseconds (q - q.floor)

theorem fraction_bounds (q : Rat) : 0 ≤ q - q.floor ∧ q - q.floor ≤ 1 := by
  have hlow : (q.floor : Rat) ≤ q := Int.floor_le q
  have hhigh : q < q.floor + 1 := Int.lt_floor_add_one q
  constructor <;> linarith

theorem timeOf_le (q : Rat) : timeOf q ≤ dayLength :=
  milliseconds_le (fraction_bounds q).1 (fraction_bounds q).2

theorem timeOf_mono (hfloor : q.floor = r.floor) (h : q ≤ r) : timeOf q ≤ timeOf r := by
  refine milliseconds_mono (fraction_bounds q).1 ?_ (fraction_bounds r).2
  rw [hfloor]
  exact sub_le_sub_right h _

/-! ## Days -/

/-- A serial date in milliseconds from the epoch. -/
def instant (q : Rat) : Int := dayOf q (timeOf q) * dayLength + timeOf q

theorem moment_eq_after? (q : Rat) : moment (.finite q) =
    match Moment.after? (dayOf q (timeOf q)) (timeOf q) with
    | some m => .ok m
    | none => .error (.serialOutOfRange (.finite q)) := rfl

theorem instant_of_moment {m : Moment} (h : moment (.finite q) = .ok m) :
    m.instant = instant q := by
  rw [moment_eq_after?] at h
  split at h
  · rename_i m' hm
    obtain rfl := Except.ok.inj h
    exact Moment.instant_of_after? hm
  · cases h

theorem dayOf_le (q : Rat) (ms : Nat) : dayOf q ms ≤ q.floor + 1 := by
  unfold dayOf
  split <;> omega

/-- On one day the times are in order, and a day that is counted later stays so. -/
theorem dayOf_mono (hfloor : q.floor = r.floor) (h : q ≤ r) :
    dayOf q (timeOf q) ≤ dayOf r (timeOf r) := by
  have htime := timeOf_mono hfloor h
  by_cases hshift : 0 < q ∧ q < 60 ∧ ¬(q < 1 ∧ timeOf q < dayLength)
  · obtain ⟨hpos, hsixty, hlater⟩ := hshift
    have hfloor60 : q.floor < 60 := Int.floor_lt.2 (by exact_mod_cast hsixty)
    have hr60 : r < 60 := by
      have hr : r.floor < 60 := hfloor ▸ hfloor60
      exact_mod_cast Int.floor_lt.1 hr
    have hrlater : ¬(r < 1 ∧ timeOf r < dayLength) := by
      rintro ⟨hone, htr⟩
      exact hlater ⟨h.trans_lt hone, htime.trans_lt htr⟩
    unfold dayOf
    rw [if_pos ⟨hpos, hsixty, hlater⟩, if_pos ⟨hpos.trans_le h, hr60, hrlater⟩, hfloor]
  · rw [dayOf, if_neg hshift, hfloor]
    exact floor_le_dayOf r _

/-- From one day to the next there is a full day, even where the days are no longer counted from
    a day later. -/
theorem dayOf_lt (hfloor : q.floor < r.floor) (hr : ¬(60 ≤ r ∧ r < 61)) :
    dayOf q (timeOf q) < dayOf r (timeOf r) := by
  by_cases hshift : 0 < q ∧ q < 60 ∧ ¬(q < 1 ∧ timeOf q < dayLength)
  · obtain ⟨hpos, hsixty, -⟩ := hshift
    have hq0 : 0 ≤ q.floor := Int.floor_nonneg.2 hpos.le
    have hq60 : q.floor < 60 := Int.floor_lt.2 (by exact_mod_cast hsixty)
    have hle := dayOf_le q (timeOf q)
    have hr1 : 1 ≤ r := by
      have h : 1 ≤ r.floor := by omega
      exact_mod_cast Int.le_floor.1 h
    by_cases hr60 : r < 60
    · have hday : dayOf r (timeOf r) = r.floor + 1 := by
        rw [dayOf, if_pos ⟨zero_lt_one.trans_le hr1, hr60, fun h => not_lt.2 hr1 h.1⟩]
      omega
    · have hr61 : 61 ≤ r.floor := by
        refine (Int.le_floor (a := r)).2 ?_
        have h61 : 61 ≤ r := not_lt.1 fun h => hr ⟨not_lt.1 hr60, h⟩
        exact_mod_cast h61
      have hday := floor_le_dayOf r (timeOf r)
      omega
  · have hday : dayOf q (timeOf q) = q.floor := by rw [dayOf, if_neg hshift]
    exact hday.trans_lt (hfloor.trans_le (floor_le_dayOf r _))

/-- If the later serial date is not on day 60, it is not an earlier instant. -/
theorem instant_mono (h : q ≤ r) (hr : ¬(60 ≤ r ∧ r < 61)) : instant q ≤ instant r := by
  have hle := timeOf_le q
  have hfloor : q.floor ≤ r.floor := Int.floor_mono h
  unfold instant
  rcases hfloor.eq_or_lt with heq | hlt
  · have hday := dayOf_mono heq h
    have htime := timeOf_mono heq h
    unfold dayLength
    omega
  · have hday := dayOf_lt hlt hr
    unfold dayLength at hle ⊢
    omega

theorem exists_finite_of_moment {x : Binary64} {m : Moment} (h : moment x = .ok m) :
    ∃ q, x = .finite q := by
  cases x with
  | finite q => exact ⟨q, rfl⟩
  | infinity negative => cases h
  | nan => cases h

/-- Only finite values stand for moments. Of two that do, the greater one does not stand for the
    earlier moment, unless it is on the day that never was. -/
theorem moment_mono :
    (∀ x m, moment x = .ok m → ∃ q, x = .finite q) ∧
      ∀ (q r : Rat) (m n : Moment), q ≤ r → ¬(60 ≤ r ∧ r < 61) →
        moment (.finite q) = .ok m → moment (.finite r) = .ok n → m.fields ≤ n.fields := by
  refine ⟨fun x m => exists_finite_of_moment, ?_⟩
  intro q r m n h hr hm hn
  apply Moment.fields_le
  rw [instant_of_moment hm, instant_of_moment hn]
  exact instant_mono h hr

theorem exists_moment_of_fields {x : Binary64} {l : List Nat}
    (h : (moment x).toOption.map Moment.fields = some l) :
    ∃ m, moment x = .ok m ∧ m.fields = l := by
  cases hm : moment x with
  | ok m =>
    rw [hm] at h
    exact ⟨m, rfl, Option.some.inj h⟩
  | error e =>
    rw [hm] at h
    cases h

/-- The last instant of day 59 is rounded up to the first one of day 61. On day 60 the same hours
    come once more. -/
theorem moment_mono_59 :
    (∃ m n, moment (.finite (60 - 1 / 2 ^ 40)) = .ok m ∧ moment (.finite 61) = .ok n ∧
      m.fields = [1900, 3, 1, 0, 0, 0, 0] ∧ n.fields = [1900, 3, 1, 0, 0, 0, 0] ∧
      m.fields ≤ n.fields) ∧
    ∃ m n, moment (.finite (119 / 2)) = .ok m ∧ moment (.finite (241 / 4)) = .ok n ∧
      m.fields = [1900, 2, 28, 12, 0, 0, 0] ∧ n.fields = [1900, 2, 28, 6, 0, 0, 0] := by
  constructor
  · obtain ⟨m, hm, hmfields⟩ := exists_moment_of_fields
      (x := .finite (60 - 1 / 2 ^ 40)) (l := [1900, 3, 1, 0, 0, 0, 0]) (by decide +kernel)
    obtain ⟨n, hn, hnfields⟩ := exists_moment_of_fields
      (x := .finite 61) (l := [1900, 3, 1, 0, 0, 0, 0]) (by decide +kernel)
    exact ⟨m, n, hm, hn, hmfields, hnfields,
      moment_mono.2 _ _ m n (by norm_num) (by norm_num) hm hn⟩
  · obtain ⟨m, hm, hmfields⟩ := exists_moment_of_fields
      (x := .finite (119 / 2)) (l := [1900, 2, 28, 12, 0, 0, 0]) (by decide +kernel)
    obtain ⟨n, hn, hnfields⟩ := exists_moment_of_fields
      (x := .finite (241 / 4)) (l := [1900, 2, 28, 6, 0, 0, 0]) (by decide +kernel)
    exact ⟨m, n, hm, hn, hmfields, hnfields⟩

end Serial

end Worksheet
