-- SUMMARY: Serial dates and the moments that they stand for.
import Worksheet.Calendar
import Worksheet.Fault

/-!
# Serial Dates

A serial date counts days, with the time as a fraction of a day. Day 1 is
January 1 of 1900 and day 60 is February 29 of that year, which never was. So
the days from 1 to 59 are counted from December 31 of 1899, and all other days
from December 30. A moment has a resolution of milliseconds.
-/

namespace Worksheet

namespace Serial

/-- The milliseconds of a day. -/
def dayLength : Nat := 86400000

/-- The day number of December 30 of 1899. -/
def epoch : Nat := 693593

/-- January 1 of the year 1, counted from the epoch. -/
def firstDay : Int := -693593

/-- December 31 of the year 9999, counted from the epoch. -/
def lastDay : Int := 2958465

end Serial

/-- A millisecond of a day that the calendar has. -/
structure Moment where
  /-- The day, counted from December 30 of 1899. -/
  day : Int
  /-- The time of day. -/
  millisecond : Nat
  firstDay_le : Serial.firstDay ≤ day
  le_lastDay : day ≤ Serial.lastDay
  millisecond_lt : millisecond < Serial.dayLength
deriving DecidableEq

namespace Moment

/-- The moment some milliseconds after the start of a day. -/
def after? (day : Int) (ms : Nat) : Option Moment :=
  if h : Serial.firstDay ≤ day ∧ day + (ms / Serial.dayLength : Nat) ≤ Serial.lastDay then
    some {
      day := day + (ms / Serial.dayLength : Nat)
      millisecond := ms % Serial.dayLength
      firstDay_le := Int.le_trans h.1 (Int.le_add_of_nonneg_right (Int.natCast_nonneg _))
      le_lastDay := h.2
      millisecond_lt := Nat.mod_lt _ (by decide) }
  else none

/-- The number of the day in the calendar. -/
def dayNumber (m : Moment) : Nat := (m.day + Serial.epoch).toNat

def date (m : Moment) : Date := Calendar.date m.dayNumber

def weekday (m : Moment) : Nat := Calendar.weekday m.dayNumber

def hour (m : Moment) : Nat := m.millisecond / 3600000

def minute (m : Moment) : Nat := m.millisecond / 60000 % 60

def second (m : Moment) : Nat := m.millisecond / 1000 % 60

def microsecond (m : Moment) : Nat := m.millisecond % 1000 * 1000

end Moment

namespace Serial

/-- The milliseconds in the fraction of a day. The fraction is multiplied by the
    seconds of a day and then by a thousand, each time with rounding. -/
def milliseconds (fraction : Rat) : Nat :=
  (((Binary64.ofRat fraction).times 86400).times 1000).nearest?.getD 0 |>.toNat

/-- The day that a serial date is on, counted from the epoch, if it has `ms`
    milliseconds. Below 1 there is no date but only a time, unless it is rounded
    up to a full day. -/
def dayOf (q : Rat) (ms : Nat) : Int :=
  if 0 < q ∧ q < 60 ∧ ¬(q < 1 ∧ ms < dayLength) then q.floor + 1 else q.floor

/-- The moment that a serial date stands for. -/
def moment (x : Binary64) : Except Fault Moment :=
  match x with
  | .finite q =>
    let ms := milliseconds (q - q.floor)
    match Moment.after? (dayOf q ms) ms with
    | some m => .ok m
    | none => .error (.serialOutOfRange x)
  | x => .error (.serialOutOfRange x)

end Serial

end Worksheet
