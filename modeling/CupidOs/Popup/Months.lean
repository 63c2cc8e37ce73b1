import CupidOs.Calendar.Gregorian

/-!
# The month grids of the calendar popup

`get_first_weekday` tells where the grid of a month begins. It is Zeller's congruence with the
division of C, which rounds towards zero, and agrees with a count of the days.
-/

namespace CupidOs.Popup

open Calendar

/-- `is_leap_year` -/
def isLeapYear (year : Int) : Bool :=
  if year.tmod 400 = 0 then true
  else if year.tmod 100 = 0 then false
  else year.tmod 4 = 0

/-- `get_days_in_month` -/
def getDaysInMonth (month year : Int) : Int :=
  if month < 1 ∨ month > 12 then 30
  else if month = 2 ∧ isLeapYear year then 29
  else [31, 28, 31, 30, 31, 30, 31, 31, 30, 31, 30, 31].getD (month - 1).toNat 0

/-- The sum in `get_first_weekday`, for the month `m` of a year that begins in March. -/
def zeller (m y : Int) : Int :=
  let k := y.tmod 100
  let j := y.tdiv 100
  1 + (13 * (m + 1)).tdiv 5 + k + k.tdiv 4 + j.tdiv 4 - 2 * j

/-- `get_first_weekday` -/
def getFirstWeekday (month year : Int) : Int :=
  let h := (if month < 3 then zeller (month + 12) (year - 1) else zeller month year).tmod 7
  let day := (h + 6).tmod 7
  if day < 0 then day + 7 else day

/-- `view_month` and `view_year` -/
structure View where
  month : Int
  year : Int

/-- `calendar_next_month` -/
def calendarNextMonth (view : View) : View :=
  if view.month + 1 > 12 then ⟨1, view.year + 1⟩ else ⟨view.month + 1, view.year⟩

/-- A month of a year behind the year 0. -/
structure View.Valid (view : View) : Prop where
  month : 1 ≤ view.month ∧ view.month ≤ 12
  year : 1 ≤ view.year

variable {m y : Nat}

/-- The divisions round down in the years behind 0. -/
theorem zeller_eq (m y : Nat) : zeller m y =
    (1 + 13 * (m + 1) / 5 + y % 100 + y % 100 / 4 + y / 100 / 4 : Nat) - (2 * (y / 100) : Nat) := by
  push_cast
  simp (disch := omega) only [zeller, Int.tdiv_eq_ediv_of_nonneg, Int.tmod_eq_emod_of_nonneg]

/-- Nothing in the sum overflows. -/
theorem zeller_fits (month : m ≤ 14) (year : y < 2 ^ 31) :
    -2 ^ 31 ≤ zeller m y ∧ zeller m y < 2 ^ 31 := by
  rw [zeller_eq]
  omega

/-- The remainders round down in effect, though the sum may be negative. -/
theorem getFirstWeekday_eq (month year : Int) : getFirstWeekday month year =
    ((if month < 3 then zeller (month + 12) (year - 1) else zeller month year) + 6) % 7 := by
  simp only [getFirstWeekday, Int.tmod_eq_emod]
  generalize (if month < 3 then zeller (month + 12) (year - 1) else zeller month year) = sum
  split_ifs <;> omega

/-- The leap years before a year that begins in March, by centuries. -/
theorem daysBeforeYear_centuries (y : Nat) : daysBeforeYear y + leapDays y =
    365 * y + 1 + 24 * (y / 100) + y % 100 / 4 + y / 100 / 4 := by
  have count := daysBeforeYear_eq y
  have quarters : y / 4 = 25 * (y / 100) + y % 100 / 4 := by omega
  have centuries : y / 400 = y / 100 / 4 := by omega
  omega

lemma getFirstWeekday_weekday (month : 1 ≤ m ∧ m ≤ 12) (year : 1 ≤ y) :
    getFirstWeekday m y = weekday y m 1 := by
  rw [getFirstWeekday_eq, weekday]
  obtain ⟨low, high⟩ := month
  by_cases early : m < 3
  · obtain ⟨before, rfl⟩ := Nat.exists_eq_add_of_le' year
    have count := daysBeforeYear_centuries before
    have months : daysBeforeMonth (before + 1) m = 31 * (m - 1) := by
      interval_cases m <;> simp [daysBeforeMonth, monthDays]
    have sum : zeller (m + 12) before = _ := zeller_eq (m + 12) before
    rw [if_pos (by omega), daysBeforeYear_succ, months, Nat.cast_succ, add_sub_cancel_right, sum]
    interval_cases m <;> omega
  · have count := daysBeforeYear_centuries y
    rw [if_neg (by omega), zeller_eq, daysBeforeMonth_eq y (by omega) (by omega)]
    interval_cases m <;> omega

lemma getDaysInMonth_eq (month : 1 ≤ m ∧ m ≤ 12) (y : Nat) : getDaysInMonth m y = monthDays y m := by
  have leap : isLeapYear y = decide (leapDays y = 1) := by
    simp only [isLeapYear, leapDays, Int.tmod_eq_emod_of_nonneg (Int.natCast_nonneg y)]
    split_ifs <;> simp <;> omega
  have bit : leapDays y = 0 ∨ leapDays y = 1 := by
    unfold leapDays
    split <;> simp
  obtain ⟨low, high⟩ := month
  rcases bit with common | common <;> interval_cases m <;>
    simp [getDaysInMonth, leap, monthDays, common]

/-- What the popup shows for a month: where its grid begins, and where the one of the next month
does. -/
def View.GridRight (view : View) : Prop :=
  getFirstWeekday view.month view.year = weekday view.year.toNat view.month.toNat 1 ∧
    getFirstWeekday (calendarNextMonth view).month (calendarNextMonth view).year =
      (getFirstWeekday view.month view.year + getDaysInMonth view.month view.year) % 7

lemma View.Valid.next {view : View} (valid : view.Valid) : (calendarNextMonth view).Valid := by
  obtain ⟨⟨low, high⟩, year⟩ := valid
  unfold calendarNextMonth
  split
  · exact ⟨⟨le_rfl, by simp⟩, by simp only; omega⟩
  · exact ⟨by simp only; omega, year⟩

lemma View.Valid.gridRight {view : View} (valid : view.Valid) : view.GridRight := by
  obtain ⟨month, year⟩ := view
  obtain ⟨⟨low, high⟩, behind⟩ := valid
  dsimp only at low high behind
  lift month to Nat using by omega
  lift year to Nat using by omega
  have inYear : 1 ≤ month ∧ month ≤ 12 := by omega
  have here := getFirstWeekday_weekday inYear (by omega : 1 ≤ year)
  refine ⟨here, ?_⟩
  rw [here, getDaysInMonth_eq inYear]
  by_cases last : month = 12
  · subst last
    have grid := @getFirstWeekday_weekday 1 (year + 1) (by decide) (by omega)
    rw [weekday_next_year] at grid
    exact_mod_cast grid
  · have grid := @getFirstWeekday_weekday (month + 1) year (by omega) (by omega)
    rw [weekday_next_month year inYear.1] at grid
    rw [calendarNextMonth, if_neg (by dsimp only; omega)]
    exact_mod_cast grid

/-- From every month of every year behind 0, the grids are right in any number of steps. -/
theorem grids_right {view : View} (valid : view.Valid) (steps : Nat) :
    (calendarNextMonth^[steps] view).GridRight := by
  have reached : (calendarNextMonth^[steps] view).Valid := by
    induction steps with
    | zero => exact valid
    | succ steps ih =>
      rw [Function.iterate_succ_apply']
      exact ih.next
  exact reached.gridRight

theorem grids_right_from_january_1970 : (calendarNextMonth^[1200] ⟨1, 1970⟩).GridRight :=
  grids_right ⟨by decide, by decide⟩ 1200

end CupidOs.Popup
