import Mathlib.Algebra.Order.Group.Int

/-!
# The civil calendar

A date is the ordinal of its day, as `date.toordinal()` counts them: day 1 is the first of January
of the year 1, a Monday. Months are counted from January of the year 0, so that the month after one
is the next number. Years and months are cells of days: a month begins where the month before it
ends (`monthStart_succ`), every day lies in one month (`monthStart_le`, `lt_monthStart`), and a
later day lies in no earlier month.
-/

namespace AgentBack.Civil

/-- `calendar.isleap(year)`, as a number. -/
def leap (year : Int) : Int :=
  if year % 4 = 0 ∧ (year % 100 ≠ 0 ∨ year % 400 = 0) then 1 else 0

def daysBeforeYear (year : Int) : Int :=
  365 * (year - 1) + (year - 1) / 4 - (year - 1) / 100 + (year - 1) / 400

/-- The days of a year before the first of a month; January is 0, and 12 is the year's end. -/
def daysBeforeMonth (leapDay month : Int) : Int :=
  if month ≤ 1 then 31 * month
  -- from March on the months take 31, 30, 31, 30, 31 days, and again
  else 59 + leapDay + (153 * (month - 2) + 2) / 5

def monthStart (month : Int) : Int :=
  daysBeforeYear (month / 12) + daysBeforeMonth (leap (month / 12)) (month % 12) + 1

/-- `calendar.monthrange(year, month)[1]`. -/
def daysInMonth (month : Int) : Int := monthStart (month + 1) - monthStart month

/-- `date(year, month, day)`, of a day that the month has. -/
def ofMonthDay (month day : Int) : Int := monthStart month + (day - 1)

variable (d : Int)

/-- `d.year`. -/
def yearOf : Int :=
  -- the mean length of a year gives the year or one of its neighbours
  let year := 400 * (d - 1) / 146097 + 1
  if d ≤ daysBeforeYear year then year - 1
  else if daysBeforeYear (year + 1) < d then year + 1
  else year

def monthOfDay (leapDay day : Int) : Int :=
  if day < 31 then 0
  else if day < 59 + leapDay then 1
  else 2 + (5 * (day - 59 - leapDay) + 2) / 153

def monthIndex : Int :=
  12 * yearOf d + monthOfDay (leap (yearOf d)) (d - 1 - daysBeforeYear (yearOf d))

/-- `d.day`. -/
def dayOf : Int := d - monthStart (monthIndex d) + 1

/-- `d.weekday()`; Monday is 0. -/
def weekday : Int := (d + 6) % 7

example : weekday (ofMonthDay (12 * 2026 + 6) 4) = 5 := by decide

theorem leap_mem (year : Int) : leap year = 0 ∨ leap year = 1 := by
  unfold leap
  split
  · exact .inr rfl
  · exact .inl rfl

theorem daysBeforeYear_succ (year : Int) :
    daysBeforeYear (year + 1) = daysBeforeYear year + 365 + leap year := by
  unfold daysBeforeYear leap
  split <;> omega

theorem daysBeforeYear_yearOf_lt : daysBeforeYear (yearOf d) < d := by
  unfold yearOf
  simp only
  split
  · next h =>
    unfold daysBeforeYear at h ⊢
    omega
  · split
    · next h => exact h
    · next h _ => exact not_le.mp h

theorem le_daysBeforeYear_yearOf_succ : d ≤ daysBeforeYear (yearOf d + 1) := by
  unfold yearOf
  simp only
  split
  · next h => rwa [sub_add_cancel]
  · split
    · unfold daysBeforeYear
      omega
    · next _ h => exact not_lt.mp h

/-! ## Months -/

theorem monthStart_step (month : Int) : monthStart month + 28 ≤ monthStart (month + 1) ∧
    monthStart (month + 1) ≤ monthStart month + 31 := by
  have hleap := leap_mem (month / 12)
  unfold monthStart
  by_cases hdec : month % 12 = 11
  · have hdiv : (month + 1) / 12 = month / 12 + 1 := by omega
    have hmod : (month + 1) % 12 = 0 := by omega
    rw [hdiv, hmod, hdec, daysBeforeYear_succ]
    unfold daysBeforeMonth
    omega
  · have hdiv : (month + 1) / 12 = month / 12 := by omega
    have hmod : (month + 1) % 12 = month % 12 + 1 := by omega
    have hlow : 0 ≤ month % 12 := by omega
    have hhigh : month % 12 < 11 := by omega
    rw [hdiv, hmod]
    unfold daysBeforeMonth
    split <;> split <;> omega

theorem monthStart_succ (month : Int) : monthStart month + 28 ≤ monthStart (month + 1) :=
  (monthStart_step month).1

theorem monthStart_lt_iff {month month' : Int} :
    monthStart month < monthStart month' ↔ month < month' := by
  have hmono : StrictMono monthStart := by
    apply strictMono_int_of_lt_succ
    intro month
    have h := monthStart_succ month
    omega
  exact hmono.lt_iff_lt

theorem daysInMonth_pos (month : Int) : 28 ≤ daysInMonth month := by
  have h := monthStart_succ month
  unfold daysInMonth
  omega

theorem monthOfDay_spec {leapDay day : Int} (hlow : 0 ≤ day) (hhigh : day < 365 + leapDay) :
    0 ≤ monthOfDay leapDay day ∧ monthOfDay leapDay day ≤ 11 ∧
      daysBeforeMonth leapDay (monthOfDay leapDay day) ≤ day ∧
      day < daysBeforeMonth leapDay (monthOfDay leapDay day + 1) := by
  unfold monthOfDay daysBeforeMonth
  split
  · omega
  · split
    · omega
    · refine ⟨by omega, by omega, ?_, ?_⟩
      · rw [if_neg (by omega)]
        omega
      · rw [if_neg (by omega)]
        omega

theorem monthStart_twelve (year month : Int) (hlow : 0 ≤ month) (hhigh : month ≤ 12) :
    monthStart (12 * year + month) =
      daysBeforeYear year + daysBeforeMonth (leap year) month + 1 := by
  unfold monthStart
  rcases eq_or_lt_of_le hhigh with rfl | hlt
  · have hdiv : (12 * year + 12) / 12 = year + 1 := by omega
    have hmod : (12 * year + 12) % 12 = 0 := by omega
    rw [hdiv, hmod, daysBeforeYear_succ]
    unfold daysBeforeMonth
    omega
  · have hdiv : (12 * year + month) / 12 = year := by omega
    have hmod : (12 * year + month) % 12 = month := by omega
    rw [hdiv, hmod]

private theorem monthIndex_spec :
    monthStart (monthIndex d) ≤ d ∧ d < monthStart (monthIndex d + 1) ∧
      monthIndex d / 12 = yearOf d := by
  have hlow := daysBeforeYear_yearOf_lt d
  have hhigh := le_daysBeforeYear_yearOf_succ d
  rw [daysBeforeYear_succ] at hhigh
  have hday : 0 ≤ d - 1 - daysBeforeYear (yearOf d) := by omega
  have hyear : d - 1 - daysBeforeYear (yearOf d) < 365 + leap (yearOf d) := by omega
  obtain ⟨h0, h11, hle, hlt⟩ := monthOfDay_spec hday hyear
  unfold monthIndex
  rw [add_assoc, monthStart_twelve _ _ h0 (by omega), monthStart_twelve _ _ (by omega) (by omega)]
  refine ⟨by omega, by omega, by omega⟩

theorem monthStart_le : monthStart (monthIndex d) ≤ d := (monthIndex_spec d).1

theorem lt_monthStart : d < monthStart (monthIndex d + 1) := (monthIndex_spec d).2.1

theorem monthIndex_div : monthIndex d / 12 = yearOf d := (monthIndex_spec d).2.2

theorem monthIndex_mono {d d' : Int} (h : d ≤ d') : monthIndex d ≤ monthIndex d' := by
  have hstart : monthStart (monthIndex d) < monthStart (monthIndex d' + 1) :=
    lt_of_le_of_lt ((monthStart_le d).trans h) (lt_monthStart d')
  exact Int.lt_add_one_iff.mp (monthStart_lt_iff.mp hstart)

theorem monthIndex_eq {month d : Int} (hlow : monthStart month ≤ d)
    (hhigh : d < monthStart (month + 1)) : monthIndex d = month := by
  have hle := monthStart_lt_iff.mp (lt_of_le_of_lt hlow (lt_monthStart d))
  have hge := monthStart_lt_iff.mp (lt_of_le_of_lt (monthStart_le d) hhigh)
  omega

theorem yearOf_mono {d d' : Int} (h : d ≤ d') : yearOf d ≤ yearOf d' := by
  rw [← monthIndex_div, ← monthIndex_div]
  have hmono := monthIndex_mono h
  omega

theorem monthIndex_ofMonthDay {month day : Int} (hlow : 1 ≤ day)
    (hhigh : day ≤ daysInMonth month) : monthIndex (ofMonthDay month day) = month := by
  unfold daysInMonth at hhigh
  apply monthIndex_eq
  · unfold ofMonthDay
    omega
  · unfold ofMonthDay
    omega

theorem dayOf_pos : 1 ≤ dayOf d := by
  have h := monthStart_le d
  unfold dayOf
  omega

end AgentBack.Civil
