-- SUMMARY: Day numbers count the days of the calendar one after another.
import Mathlib.Algebra.Order.Ring.Nat
import Mathlib.Data.List.Basic
import Mathlib.Logic.Function.Iterate
import Worksheet.Calendar

/-!
# The Days of the Calendar

The date of a day is computed from its number by division. `Date.next` is the calendar as it
is kept from day to day: a day goes on to the next one of its month, and then to the next
month and the next year. Both agree: the date of the next number is the next date
(`date_succ`), and so a date is reached from an earlier one day by day (`date_add`).
-/

namespace Worksheet

/-- How many days the month of a date has. -/
def Date.monthLength (d : Date) : Nat :=
  (Calendar.monthLengths (Calendar.isLeap d.year)).getD (d.month - 1) 0

/-- The date after a date. -/
def Date.next (d : Date) : Date :=
  if d.day < d.monthLength then { d with day := d.day + 1 }
  else if d.month < 12 then ⟨d.year, d.month + 1, 1⟩
  else ⟨d.year + 1, 1, 1⟩

namespace Calendar

/-! ## Years -/

/-- How many days a year has. -/
def yearLength (year : Nat) : Nat := (monthLengths (isLeap year)).sum

theorem yearLength_eq (year : Nat) : yearLength year = if isLeap year then 366 else 365 := by
  unfold yearLength
  cases isLeap year <;> rfl

/-- A year adds a leap day if its number is divided by four, but not by a hundred alone. -/
theorem daysBefore_succ {year : Nat} (h : 0 < year) :
    daysBefore (year + 1) = daysBefore year + yearLength year := by
  obtain ⟨m, rfl⟩ : ∃ m, year = m + 1 := ⟨year - 1, by omega⟩
  have hdiv (k : Nat) : (m + 1) / k = m / k + if (m + 1) % k = 0 then 1 else 0 := by
    simp only [Nat.succ_div, Nat.dvd_iff_mod_eq_zero]
  have hle : m / 100 ≤ m / 4 := Nat.div_le_div_left (by decide) (by decide)
  have hleap : isLeap (m + 1) = true ↔
      (m + 1) % 4 = 0 ∧ ((m + 1) % 100 ≠ 0 ∨ (m + 1) % 400 = 0) := by
    simp [isLeap]
  have h100 : (m + 1) % 100 = 0 → (m + 1) % 4 = 0 := by omega
  have h400 : (m + 1) % 400 = 0 → (m + 1) % 100 = 0 := by omega
  rw [yearLength_eq]
  unfold daysBefore
  simp only [Nat.add_sub_cancel, hdiv, hleap]
  clear hdiv hleap
  generalize m / 4 = a at *
  generalize m / 100 = b at *
  generalize m / 400 = c at *
  generalize (m + 1) % 4 = x at *
  generalize (m + 1) % 100 = y at *
  generalize (m + 1) % 400 = z at *
  split <;> split <;> split <;> split <;> omega

theorem daysBefore_mono {a b : Nat} (ha : 0 < a) (h : a ≤ b) : daysBefore a ≤ daysBefore b := by
  induction h with
  | refl => exact le_rfl
  | step hab ih => exact ih.trans (by rw [daysBefore_succ (ha.trans_le hab)]; omega)

theorem yearOf_pos (n : Nat) : 0 < yearOf n := Nat.succ_pos _

/-- The days before a year, by the centuries and the years in them. -/
theorem daysBefore_parts {a c b y : Nat} (hc : c ≤ 3) (hb : b ≤ 24) (hy : y ≤ 3) :
    daysBefore (400 * a + 100 * c + 4 * b + y + 1) =
      146097 * a + 36524 * c + 1461 * b + 365 * y := by
  have h4 : (400 * a + 100 * c + 4 * b + y) / 4 = 100 * a + 25 * c + b := by omega
  have h100 : (400 * a + 100 * c + 4 * b + y) / 100 = 4 * a + c := by omega
  have h400 : (400 * a + 100 * c + 4 * b + y) / 400 = a := by omega
  rw [daysBefore, Nat.add_sub_cancel, h4, h100, h400]
  omega

/-- A day lies within its year. -/
theorem yearOf_bounds (n : Nat) : daysBefore (yearOf n) ≤ n ∧ n < daysBefore (yearOf n + 1) := by
  obtain ⟨c, r, hyear, hc, hr⟩ : ∃ c r,
      yearOf n = 400 * (n / 146097) + 100 * c + 4 * (r / 1461) + min 3 (r % 1461 / 365) + 1 ∧
        c = min 3 (n % 146097 / 36524) ∧ r = n % 146097 - 36524 * c := ⟨_, _, rfl, rfl, rfl⟩
  have hrest : r ≤ 36524 ∧ (r = 36524 → c = 3) := by omega
  have hb : r / 1461 ≤ 24 := by omega
  rw [daysBefore_succ (yearOf_pos n), yearLength_eq, hyear,
    daysBefore_parts (by omega) hb (by omega)]
  refine ⟨by omega, ?_⟩
  by_cases hlast : r % 1461 = 1460
  · -- The last day of four years is a leap day, unless these years end a century that has none.
    have hleap : isLeap (400 * (n / 146097) + 100 * c + 4 * (r / 1461) +
        min 3 (r % 1461 / 365) + 1) = true := by
      simp only [isLeap, Bool.and_eq_true, Bool.or_eq_true, decide_eq_true_eq]
      omega
    rw [if_pos hleap]
    omega
  · split <;> omega

theorem yearOf_eq {year n : Nat} (hlow : daysBefore year ≤ n)
    (hhigh : n < daysBefore (year + 1)) : yearOf n = year := by
  obtain ⟨hlow', hhigh'⟩ := yearOf_bounds n
  rcases lt_trichotomy (yearOf n) year with h | h | h
  · have hle := daysBefore_mono (a := yearOf n + 1) (Nat.succ_pos _) h
    omega
  · exact h
  · have hle := daysBefore_mono (a := year + 1) (Nat.succ_pos _) h
    omega

/-! ## Months -/

section Months

variable {ls : List Nat} {n : Nat}

theorem monthOf_zero (hne : ls ≠ []) (hpos : ∀ l ∈ ls, 0 < l) : monthOf ls 0 = (0, 0) := by
  cases ls with
  | nil => exact absurd rfl hne
  | cons l ls => rw [monthOf, if_pos (hpos l List.mem_cons_self)]

theorem monthOf_lt (h : n < ls.sum) : (monthOf ls n).1 < ls.length := by
  induction ls generalizing n with
  | nil => exact absurd h (Nat.not_lt_zero n)
  | cons l ls ih =>
    rw [List.sum_cons] at h
    rw [monthOf]
    split
    · exact Nat.succ_pos _
    · exact Nat.succ_lt_succ (ih (by omega))

/-- The next day is in the same month, or it is the first of the next month. -/
theorem monthOf_succ (hpos : ∀ l ∈ ls, 0 < l) (h : n + 1 < ls.sum) :
    monthOf ls (n + 1) =
      if (monthOf ls n).2 + 1 < ls.getD (monthOf ls n).1 0 then
        ((monthOf ls n).1, (monthOf ls n).2 + 1)
      else ((monthOf ls n).1 + 1, 0) := by
  induction ls generalizing n with
  | nil => exact absurd h (Nat.not_lt_zero _)
  | cons l ls ih =>
    have hpos' : ∀ l ∈ ls, 0 < l := fun l hl => hpos l (List.mem_cons_of_mem _ hl)
    rw [List.sum_cons] at h
    rcases lt_trichotomy (n + 1) l with hlt | heq | hgt
    · have hn : n < l := by omega
      simp [monthOf, hlt, hn]
    · have hn : n < l := by omega
      have hne : ls ≠ [] := by
        rintro rfl
        exact absurd h (by simp [heq])
      simp [monthOf, heq, hn, monthOf_zero hne hpos']
    · have hn : ¬n < l := by omega
      have hsub : n + 1 - l = n - l + 1 := by omega
      rw [monthOf, if_neg (by omega), hsub, ih hpos' (by omega), monthOf, if_neg hn]
      simp only [List.getD_cons_succ]
      split <;> rfl

/-- The last day of a year is the last one of its last month. -/
theorem monthOf_last (h : n + 1 = ls.sum) (hpos : ∀ l ∈ ls, 0 < l) :
    (monthOf ls n).1 + 1 = ls.length ∧ (monthOf ls n).2 + 1 = ls.getD (monthOf ls n).1 0 := by
  induction ls generalizing n with
  | nil => exact absurd h (Nat.succ_ne_zero n)
  | cons l ls ih =>
    have hpos' : ∀ l ∈ ls, 0 < l := fun l hl => hpos l (List.mem_cons_of_mem _ hl)
    rw [List.sum_cons] at h
    by_cases hn : n < l
    · have hsum : ls.sum = 0 := by omega
      have hnil : ls = [] := by
        cases ls with
        | nil => rfl
        | cons l' ls =>
          have := hpos' l' List.mem_cons_self
          rw [List.sum_cons] at hsum
          omega
      subst hnil
      simp [monthOf, hn]
      simpa using h
    · obtain ⟨hfirst, hsecond⟩ := ih (n := n - l) (by omega) hpos'
      rw [monthOf, if_neg hn]
      exact ⟨by simpa using hfirst, by simpa using hsecond⟩

end Months

/-! ## Dates -/

theorem monthLengths_pos (leap : Bool) : ∀ l ∈ monthLengths leap, 0 < l := by
  cases leap <;> decide

theorem length_monthLengths (leap : Bool) : (monthLengths leap).length = 12 := rfl

/-- The date of a day of a year. -/
def dateIn (year i : Nat) : Date :=
  ⟨year, (monthOf (monthLengths (isLeap year)) i).1 + 1,
    (monthOf (monthLengths (isLeap year)) i).2 + 1⟩

theorem monthLength_dateIn (year i : Nat) : (dateIn year i).monthLength =
    (monthLengths (isLeap year)).getD (monthOf (monthLengths (isLeap year)) i).1 0 := rfl

theorem next_dateIn {year i : Nat} (h : i + 1 < yearLength year) :
    (dateIn year i).next = dateIn year (i + 1) := by
  have hmonth := monthOf_lt h
  have hsucc := monthOf_succ (monthLengths_pos (isLeap year)) h
  rw [length_monthLengths] at hmonth
  unfold Date.next
  rw [monthLength_dateIn, dateIn, dateIn]
  rw [hsucc] at hmonth ⊢
  simp only
  split
  · rfl
  · rename_i hday
    rw [if_neg hday] at hmonth
    rw [if_pos hmonth]

theorem next_dateIn_last {year i : Nat} (h : i + 1 = yearLength year) :
    (dateIn year i).next = dateIn (year + 1) 0 := by
  obtain ⟨hmonth, hday⟩ := monthOf_last h (monthLengths_pos (isLeap year))
  have hfirst : monthOf (monthLengths (isLeap (year + 1))) 0 = (0, 0) :=
    monthOf_zero (List.cons_ne_nil _ _) (monthLengths_pos _)
  rw [length_monthLengths] at hmonth
  unfold Date.next
  rw [monthLength_dateIn, dateIn, dateIn, hfirst]
  simp only
  rw [if_neg hday.not_lt, if_neg hmonth.not_lt]

/-- The date of the next day is the next date. -/
theorem date_succ (n : Nat) : date (n + 1) = (date n).next := by
  obtain ⟨hlow, hhigh⟩ := yearOf_bounds n
  have hyear := daysBefore_succ (yearOf_pos n)
  change dateIn (yearOf (n + 1)) (n + 1 - daysBefore (yearOf (n + 1))) =
    (dateIn (yearOf n) (n - daysBefore (yearOf n))).next
  rcases Nat.lt_or_ge (n + 1) (daysBefore (yearOf n + 1)) with hlt | hge
  · have hsame : yearOf (n + 1) = yearOf n := yearOf_eq (by omega) hlt
    rw [hsame, next_dateIn (by omega), Nat.sub_add_comm hlow]
  · have hlast : n + 1 = daysBefore (yearOf n + 1) := by omega
    have hnext : yearOf (n + 1) = yearOf n + 1 := by
      refine yearOf_eq hlast.ge ?_
      rw [daysBefore_succ (Nat.succ_pos _), ← hlast, yearLength_eq]
      split <;> omega
    rw [hnext, next_dateIn_last (by omega), hlast, Nat.sub_self]

/-- A later date is reached day by day. -/
theorem date_add (n k : Nat) : date (n + k) = Date.next^[k] (date n) := by
  induction k with
  | zero => rfl
  | succ k ih => rw [← Nat.add_assoc, date_succ, ih, Function.iterate_succ_apply']

end Calendar

end Worksheet
