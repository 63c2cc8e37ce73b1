import Mathlib.Algebra.BigOperators.Intervals
import Mathlib.Algebra.Order.BigOperators.Group.Finset
import Mathlib.Tactic.IntervalCases

/-!
# Dates of the Gregorian calendar

An instant is a date and a time of day, a leap second at the end of a day included. Its POSIX time
counts the days of the years and months before it, and does not decrease with the order of the
dates.
-/

namespace CupidOs.Calendar

open List

/-- The days that February has besides 28. -/
def leapDays (y : Nat) : Nat := if y % 4 = 0 ∧ (y % 100 ≠ 0 ∨ y % 400 = 0) then 1 else 0

/-- The days of a month. -/
def monthDays (y m : Nat) : Nat :=
  if m = 2 then 28 + leapDays y else if m ∈ [4, 6, 9, 11] then 30 else 31

/-- The days of a year in front of a month. -/
def daysBeforeMonth (y m : Nat) : Nat := ∑ month ∈ Finset.Ico 1 m, monthDays y month

/-- The days in front of a year. -/
@[irreducible]
def daysBeforeYear (y : Nat) : Nat := ∑ year ∈ Finset.range y, daysBeforeMonth year 13

/-- The day of the week, 0 for a Sunday; the year 0 began on a Saturday. -/
def weekday (y m d : Nat) : Nat := (daysBeforeYear y + daysBeforeMonth y m + d + 5) % 7

/-- A date of a year of four digits, with a time of day. -/
structure Instant where
  (year month day hour minute second : Nat)
  date : year < 10000 ∧ 1 ≤ month ∧ month ≤ 12 ∧ 1 ≤ day ∧ day ≤ monthDays year month
  time : hour < 24 ∧ minute < 60 ∧ (second < 60 ∨ hour = 23 ∧ minute = 59 ∧ second = 60)

namespace Instant

/-- The fields, from the one that decides the order on. -/
def fields (t : Instant) : List Nat := [t.year, t.month, t.day, t.hour, t.minute, t.second]

/-- The day, counted from the first of the year 0 on. -/
def dayNumber (t : Instant) : Nat :=
  daysBeforeYear t.year + daysBeforeMonth t.year t.month + t.day - 1

/-- Seconds since 1970, as POSIX counts them. -/
def posix (t : Instant) : Int :=
  (t.dayNumber - daysBeforeYear 1970) * 86400 + t.hour * 3600 + t.minute * 60 + t.second

end Instant

lemma daysBeforeMonth_succ {y m : Nat} (month : 1 ≤ m) :
    daysBeforeMonth y (m + 1) = daysBeforeMonth y m + monthDays y m :=
  Finset.sum_Ico_succ_top month _

lemma daysBeforeMonth_mono (y : Nat) : Monotone (daysBeforeMonth y) := fun _ _ earlier =>
  Finset.sum_le_sum_of_subset (Finset.Ico_subset_Ico_right earlier)

lemma daysBeforeYear_mono : Monotone daysBeforeYear := by
  intro earlier later before
  rw [daysBeforeYear, daysBeforeYear]
  exact Finset.sum_le_sum_of_subset (Finset.range_mono before)

/-- From March on, five months have 153 days. -/
theorem daysBeforeMonth_eq (y : Nat) {m : Nat} (march : 3 ≤ m) (last : m ≤ 13) :
    daysBeforeMonth y m = 59 + leapDays y + (153 * (m - 3) + 2) / 5 := by
  induction m, march using Nat.le_induction with
  | base =>
    simp [daysBeforeMonth, Finset.sum_Ico_succ_top, monthDays]
    omega
  | succ m march ih =>
    rw [daysBeforeMonth_succ (by omega), ih (by omega)]
    have before : m ≤ 12 := by omega
    interval_cases m <;> simp [monthDays]

lemma daysBeforeYear_succ (y : Nat) :
    daysBeforeYear (y + 1) = daysBeforeYear y + 365 + leapDays y := by
  rw [daysBeforeYear, Finset.sum_range_succ, daysBeforeMonth_eq y (by omega) le_rfl,
    daysBeforeYear]
  omega

/-- The leap years before a year. -/
theorem daysBeforeYear_eq (y : Nat) :
    daysBeforeYear y + leapDays y + y / 100 = 365 * y + 1 + y / 4 + y / 400 := by
  induction y with
  | zero => rw [daysBeforeYear]; rfl
  | succ y ih =>
    rw [daysBeforeYear_succ, leapDays.eq_1 (y + 1), Nat.succ_div, Nat.succ_div, Nat.succ_div]
    split_ifs <;> omega

lemma daysBeforeYear_1970 : daysBeforeYear 1970 = 719528 := by
  have count := daysBeforeYear_eq 1970
  rw [show leapDays 1970 = 0 from rfl] at count
  omega

lemma weekday_next_month (y : Nat) {m : Nat} (month : 1 ≤ m) :
    weekday y (m + 1) 1 = (weekday y m 1 + monthDays y m) % 7 := by
  rw [weekday, weekday, daysBeforeMonth_succ month]
  omega

lemma weekday_next_year (y : Nat) :
    weekday (y + 1) 1 1 = (weekday y 12 1 + monthDays y 12) % 7 := by
  have december : daysBeforeMonth y 12 = 334 + leapDays y := by
    rw [daysBeforeMonth_eq y (by omega) (by omega)]
    omega
  have january : daysBeforeMonth (y + 1) 1 = 0 := rfl
  have days : monthDays y 12 = 31 := rfl
  rw [weekday, weekday, daysBeforeYear_succ, december, january, days]
  omega

lemma days_le_month (t : Instant) :
    daysBeforeMonth t.year t.month + t.day ≤ daysBeforeMonth t.year (t.month + 1) := by
  have date := t.date
  rw [daysBeforeMonth_succ date.2.1]
  omega

lemma dayNumber_lt_year (t : Instant) : t.dayNumber < daysBeforeYear (t.year + 1) := by
  have date := t.date
  have month := days_le_month t
  have whole := daysBeforeMonth_mono t.year (show t.month + 1 ≤ 13 by omega)
  rw [daysBeforeYear, Finset.sum_range_succ, ← daysBeforeYear, Instant.dayNumber]
  omega

/-- A later day has a larger number. -/
theorem dayNumber_lt {s t : Instant} (later : [s.year, s.month, s.day] < [t.year, t.month, t.day]) :
    s.dayNumber < t.dayNumber := by
  have dates := And.intro s.date t.date
  have month := days_le_month s
  have within := dayNumber_lt_year s
  rw [Instant.dayNumber] at within ⊢
  rw [Instant.dayNumber]
  simp only [cons_lt_cons_iff, not_lt_nil, and_false, or_false] at later
  rcases later with year | ⟨year, earlier | ⟨sameMonth, day⟩⟩
  · have years := daysBeforeYear_mono (show s.year + 1 ≤ t.year from year)
    omega
  · have months := daysBeforeMonth_mono s.year (show s.month + 1 ≤ t.month from earlier)
    rw [← year]
    omega
  · rw [year, sameMonth]
    omega

/-- The POSIX time follows the calendar, but for the leap seconds. -/
theorem posix_le {s t : Instant} (later : s.fields < t.fields) : s.posix ≤ t.posix := by
  have times := s.time
  have timet := t.time
  by_cases day : [s.year, s.month, s.day] < [t.year, t.month, t.day]
  · have days := dayNumber_lt day
    rw [Instant.posix, Instant.posix]
    omega
  · simp only [Instant.fields, cons_lt_cons_iff, not_lt_nil, and_false, or_false] at later day
    have sameDay : s.dayNumber = t.dayNumber := by
      have same : s.year = t.year ∧ s.month = t.month ∧ s.day = t.day := by omega
      rw [Instant.dayNumber, Instant.dayNumber, same.1, same.2.1, same.2.2]
    rw [Instant.posix, Instant.posix, sameDay]
    omega

lemma posix_bounded (t : Instant) : -2 ^ 63 ≤ t.posix ∧ t.posix < 2 ^ 63 := by
  have date := t.date
  have clock := t.time
  have within := dayNumber_lt_year t
  have count := daysBeforeYear_eq (t.year + 1)
  rw [Instant.posix, daysBeforeYear_1970]
  omega

end CupidOs.Calendar
