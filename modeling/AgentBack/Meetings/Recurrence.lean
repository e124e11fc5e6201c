import AgentBack.Base.Civil
import AgentBack.Base.Sweep

/-!
# Series of meetings (`app/services/scheduled_meeting_recurrence.py`)

A date is the ordinal of its day and a month its index, as in `Civil`.
-/

namespace AgentBack.Meetings

open Civil

/-- `ScheduledMeetingFrequency`. -/
inductive Frequency where
  | daily
  | weekly
  | monthly
  | yearly
  deriving DecidableEq

/-- `ScheduledMeetingMonthlyMode`. -/
inductive MonthlyMode where
  | byDayOfMonth
  | byWeekdayPosition
  deriving DecidableEq

/-- `ScheduledMeetingWeekday`. -/
inductive Weekday where
  | monday
  | tuesday
  | wednesday
  | thursday
  | friday
  | saturday
  | sunday
  deriving DecidableEq

/-- `ScheduledMeetingWeekdayPosition`. -/
inductive WeekdayPosition where
  | first
  | second
  | third
  | fourth
  | last
  deriving DecidableEq

/-- `WEEKDAY_TO_ISO`. -/
def Weekday.iso : Weekday → Int
  | .monday => 0
  | .tuesday => 1
  | .wednesday => 2
  | .thursday => 3
  | .friday => 4
  | .saturday => 5
  | .sunday => 6

/-- `RecurrenceInput`, less the time of the day and the duration. -/
structure RecurrenceInput where
  frequency : Frequency
  interval : Int
  seriesStartDate : Int
  seriesEndDate : Int
  monthlyMode : Option MonthlyMode
  dayOfMonth : Option Int
  weekday : Option Weekday
  weekdayPosition : Option WeekdayPosition
  deriving DecidableEq

def isWeekend (value : Int) : Bool := decide (5 ≤ weekday value)

/-- The first day from `value` on that falls on a weekday. -/
def nextWeekday (iso value : Int) : Int := value + (iso - weekday value) % 7

def firstWeekdayOnOrAfter (value : Int) : Int :=
  if isWeekend value then nextWeekday 0 value else value

def adjustWeekendToPrecedingWeekday (value : Int) : Int :=
  if weekday value = 5 then value - 1
  else if weekday value = 6 then value - 2
  else value

def businessDayIndex (anchor value : Int) : Int :=
  if value < anchor then -1
  else ((countUp (anchor + 1) value 1).filter fun current => !isWeekend current).length

variable (data : RecurrenceInput)

def validateRecurrenceInput : Except String Unit :=
  if data.interval < 1 then .error "interval должен быть >= 1"
  else if data.seriesEndDate < data.seriesStartDate then
    .error "series_end_date не может быть раньше series_start_date"
  else
    match data.frequency with
    | .weekly =>
      if data.weekday = none then .error "Для weekly укажите weekday" else .ok ()
    | .monthly =>
      match data.monthlyMode with
      | none => .error "Для monthly укажите monthly_mode"
      | some .byDayOfMonth =>
        match data.dayOfMonth with
        | none => .error "day_of_month должен быть в диапазоне 1–31"
        | some day =>
          if 1 ≤ day ∧ day ≤ 31 then .ok () else .error "day_of_month должен быть в диапазоне 1–31"
      | some .byWeekdayPosition =>
        if data.weekday = none ∨ data.weekdayPosition = none then
          .error "Для by_weekday_position укажите weekday и weekday_position"
        else .ok ()
    | .daily => .ok ()
    | .yearly => .ok ()

def clampDayOfMonth (month dayOfMonth : Int) : Int :=
  ofMonthDay month (min dayOfMonth (daysInMonth month))

def weekdayDatesInMonth (month : Int) (weekday : Weekday) : List Int :=
  ((countUp 1 (daysInMonth month) 1).map (ofMonthDay month)).filter fun current =>
    decide (Civil.weekday current = weekday.iso)

def monthlyWeekdayPositionDate (month : Int) (weekday : Weekday) (position : WeekdayPosition) :
    Option Int :=
  let dates := weekdayDatesInMonth month weekday
  match position with
  | .last => dates.getLast?
  | .first => dates[0]?
  | .second => dates[1]?
  | .third => dates[2]?
  | .fourth => dates[3]?

/-- The occurrence that the monthly branch of `iter_occurrence_dates` finds in a month. -/
def monthlyOccurrence (month : Int) : Option Int :=
  match data.monthlyMode, data.weekday, data.weekdayPosition with
  | some .byDayOfMonth, _, _ =>
    -- `data.day_of_month or 1`
    some (clampDayOfMonth month (if data.dayOfMonth = some 0 then 1 else data.dayOfMonth.getD 1))
  | some .byWeekdayPosition, some weekday, some position =>
    monthlyWeekdayPositionDate month weekday position
  | _, _, _ => none

/-- The occurrence that the yearly branch of `iter_occurrence_dates` finds in a year. -/
def yearlyOccurrence (year : Int) : Int :=
  let month := 12 * year + monthIndex data.seriesStartDate % 12
  let day := dayOf data.seriesStartDate
  -- `date(year, month, day)` raises when the month does not have the day
  if day ≤ daysInMonth month then ofMonthDay month day else clampDayOfMonth month day

/-! ## `iter_occurrence_dates` -/

def appendAdjustedOccurrence (rangeStart rangeEnd : Int) (dates : List Int) (raw : Int) :
    List Int :=
  let adjusted := adjustWeekendToPrecedingWeekday raw
  if (rangeStart ≤ raw ∧ raw ≤ rangeEnd) ∨ (rangeStart ≤ adjusted ∧ adjusted ≤ rangeEnd) then
    dates ++ [adjusted]
  else dates

def dedupeSortedDates (dates : List Int) : List Int := sortedSet dates

def dailyDates (start finish : Int) : List Int :=
  let anchor := firstWeekdayOnOrAfter data.seriesStartDate
  let current := firstWeekdayOnOrAfter (max start anchor)
  (countUp current finish 1).filter fun current =>
    !isWeekend current && decide (0 ≤ businessDayIndex anchor current) &&
      decide (businessDayIndex anchor current % data.interval = 0)

def weeklyDates (start finish : Int) : List Int :=
  match data.weekday with
  | none => []
  | some weekday =>
    let current := nextWeekday weekday.iso start
    if finish < current then []
    else
      let anchor := nextWeekday weekday.iso data.seriesStartDate
      let remainder := (current - anchor) / 7 % data.interval
      let first :=
        if anchor ≤ current ∧ remainder ≠ 0 then current + (data.interval - remainder) * 7
        else current
      dedupeSortedDates ((countUp first finish (7 * data.interval)).foldl
        (appendAdjustedOccurrence start finish) [])

def monthlyDates (start finish : Int) : List Int :=
  let step (dates : List Int) (monthCursor : Int) : List Int :=
    let monthsSinceStart := monthCursor - monthIndex data.seriesStartDate
    if 0 ≤ monthsSinceStart ∧ monthsSinceStart % data.interval = 0 then
      match monthlyOccurrence data monthCursor with
      | some occurrence => appendAdjustedOccurrence start finish dates occurrence
      | none => dates
    else dates
  dedupeSortedDates ((countUp (monthIndex start) (monthIndex finish) 1).foldl step [])

def yearlyDates (start finish : Int) : List Int :=
  let step (dates : List Int) (year : Int) : List Int :=
    let yearsSinceStart := year - yearOf data.seriesStartDate
    if 0 ≤ yearsSinceStart ∧ yearsSinceStart % data.interval = 0 then
      appendAdjustedOccurrence start finish dates (yearlyOccurrence data year)
    else dates
  dedupeSortedDates ((countUp (yearOf start) (yearOf finish) 1).foldl step [])

/-- The part of a window that lies in the series. -/
def clipped (rangeStart rangeEnd : Option Int) : Int × Int :=
  (max data.seriesStartDate (rangeStart.getD data.seriesStartDate),
    min data.seriesEndDate (rangeEnd.getD data.seriesEndDate))

def iterOccurrenceDates (rangeStart rangeEnd : Option Int) :
    Except String (List Int) := do
  validateRecurrenceInput data
  let (start, finish) := clipped data rangeStart rangeEnd
  if finish < start then return []
  return match data.frequency with
    | .daily => dailyDates data start finish
    | .weekly => weeklyDates data start finish
    | .monthly => monthlyDates data start finish
    | .yearly => yearlyDates data start finish

end AgentBack.Meetings
