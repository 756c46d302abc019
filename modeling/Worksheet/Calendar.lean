-- SUMMARY: Dates of the Gregorian calendar, by day number.

/-!
# The Calendar

Days are numbered from zero, which is January 1 of the year 1. The calendar
repeats after 400 years, which have 146097 days.
-/

namespace Worksheet

/-- A date of the calendar; months and days count from one. -/
structure Date where
  year : Nat
  month : Nat
  day : Nat
deriving DecidableEq, Repr

namespace Calendar

def isLeap (year : Nat) : Bool := year % 4 = 0 && (year % 100 ≠ 0 || year % 400 = 0)

/-- The lengths of the months of a year. -/
def monthLengths (leap : Bool) : List Nat :=
  [31, if leap then 29 else 28, 31, 30, 31, 30, 31, 31, 30, 31, 30, 31]

/-- How many days there are before January 1 of a year. -/
def daysBefore (year : Nat) : Nat :=
  365 * (year - 1) + (year - 1) / 4 - (year - 1) / 100 + (year - 1) / 400

/-- The year of a day. Four centuries have 146097 days, a century has 36524 days
    and a leap day if it closes the four, and four years have 1461 days. -/
def yearOf (n : Nat) : Nat :=
  let r := n % 146097
  let century := min 3 (r / 36524)
  let r' := r - 36524 * century
  let year := min 3 (r' % 1461 / 365)
  400 * (n / 146097) + 100 * century + 4 * (r' / 1461) + year + 1

/-- The month of a day of the year and the day of the month, both from zero. -/
def monthOf : List Nat → Nat → Nat × Nat
  | [], n => (0, n)
  | length :: rest, n =>
    if n < length then (0, n)
    else ((monthOf rest (n - length)).1 + 1, (monthOf rest (n - length)).2)

/-- The date of a day. -/
def date (n : Nat) : Date :=
  let year := yearOf n
  let m := monthOf (monthLengths (isLeap year)) (n - daysBefore year)
  ⟨year, m.1 + 1, m.2 + 1⟩

/-- The day of a date. -/
def dayNumber (d : Date) : Nat :=
  daysBefore d.year + ((monthLengths (isLeap d.year)).take (d.month - 1)).foldl (· + ·) 0
    + (d.day - 1)

/-- The day of the week, Monday being zero. -/
def weekday (n : Nat) : Nat := n % 7

def monthNames : List String :=
  ["January", "February", "March", "April", "May", "June", "July", "August", "September",
    "October", "November", "December"]

def weekdayNames : List String :=
  ["Monday", "Tuesday", "Wednesday", "Thursday", "Friday", "Saturday", "Sunday"]

/-- The name of a month. -/
def monthName (month : Nat) : List Char := (monthNames.getD (month - 1) "").toList

/-- The name of a day of the week. -/
def weekdayName (weekday : Nat) : List Char := (weekdayNames.getD weekday "").toList

end Calendar

end Worksheet
