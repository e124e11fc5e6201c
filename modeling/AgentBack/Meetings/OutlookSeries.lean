import AgentBack.Meetings.Recurrence

/-!
# Series in Outlook (`app/services/scheduled_meeting_outlook.py`,
`app/tools/Outlook/send_recurring_meeting_invite.py`)

What is sent to Exchange for a series: a pattern with a start and an end. A daily series is sent as
one by weeks and a yearly one as one by months. What a pattern denotes has its usual meaning; which
weekday and which week the numbers of a relative pattern name, and which intervals are taken, is
left to the Exchange client.
-/

namespace AgentBack.Meetings

open Civil

/-- `RecurrencePattern` of the tool. -/
inductive InvitePattern where
  | weekly
  | daily
  | monthly
  deriving DecidableEq

/-- The patterns of `exchangelib.recurrence`. -/
inductive Pattern where
  | daily (interval : Int)
  | weekly (interval : Int) (weekdays : List Weekday)
  | absoluteMonthly (interval dayOfMonth : Int)
  | relativeMonthly (interval weekday weekNumber : Int)
  deriving DecidableEq

/-- `Recurrence` with an end date. -/
structure Recurrence where
  pattern : Pattern
  start : Int
  finish : Int
  deriving DecidableEq

/-! ## What is sent -/

def workweekOutlook : List Weekday := [.monday, .tuesday, .wednesday, .thursday, .friday]

/-- All weekdays, in the order of `WEEKDAY_NAMES`. -/
def allWeekdays : List Weekday := workweekOutlook ++ [.saturday, .sunday]

/-- All positions, in the order of `_WEEKDAY_POSITION_TO_OUTLOOK`. -/
def allPositions : List WeekdayPosition := [.first, .second, .third, .fourth, .last]

/-- The date of `_combine_start`. -/
def combineStart (meeting : RecurrenceInput) : Int :=
  if meeting.frequency = .daily then firstWeekdayOnOrAfter meeting.seriesStartDate
  else meeting.seriesStartDate

/-- `_build_recurrence` of `scheduled_meeting_outlook.py`, on the start date. -/
def buildRecurrence (meeting : RecurrenceInput) (startDate : Int) : Except String Recurrence := do
  let pattern ← (match meeting.frequency with
    | .daily => .ok (.weekly 1 workweekOutlook)
    | .weekly =>
      match meeting.weekday with
      | none => .error "Для weekly не задан weekday"
      | some weekday => .ok (.weekly meeting.interval [weekday])
    | .monthly =>
      match meeting.monthlyMode with
      | some .byDayOfMonth =>
        match meeting.dayOfMonth with
        | none => .error "Для monthly не задан day_of_month"
        | some day => .ok (.absoluteMonthly meeting.interval day)
      | some .byWeekdayPosition =>
        match meeting.weekday, meeting.weekdayPosition with
        | some weekday, some position =>
          .ok (.relativeMonthly meeting.interval (allWeekdays.idxOf weekday)
            (allPositions.idxOf position))
        | _, _ => .error "Для monthly by_weekday_position не заданы weekday/weekday_position"
      | none => .error "Для monthly не задан monthly_mode"
    | .yearly => .ok (.absoluteMonthly 12 (dayOf startDate)) : Except String Pattern)
  if meeting.seriesEndDate < startDate then
    .error "series_end_date не может быть раньше series_start_date"
  else .ok { pattern, start := startDate, finish := meeting.seriesEndDate }

/-- The weekdays of a pattern by weeks: those that are named, each once, or that of the start. -/
def normalizeWeekdays (weekdays : Option (List Weekday)) (start : Int) : List Weekday :=
  let normalized := (weekdays.getD []).eraseDups
  if normalized.isEmpty then allWeekdays.filter fun named => decide (named.iso = weekday start)
  else normalized

/-- `build_recurrence` of the tool, for a series with an end date. -/
def toolRecurrence (pattern : InvitePattern) (start interval : Int)
    (weekdays : Option (List Weekday)) (dayOfMonth : Option Int) (finish : Int) :
    Except String Recurrence := do
  if interval < 1 then throw "Интервал повторения должен быть >= 1"
  let pattern ← (match pattern with
    | .weekly => .ok (.weekly interval (normalizeWeekdays weekdays start))
    | .daily => .ok (.daily interval)
    | .monthly =>
      let monthDay := dayOfMonth.getD (dayOf start)
      if monthDay < 1 ∨ 31 < monthDay then .error "day_of_month должен быть в диапазоне 1–31"
      else .ok (.absoluteMonthly interval monthDay) : Except String Pattern)
  if finish < start then .error "Дата окончания серии не может быть раньше даты начала"
  else .ok { pattern, start, finish }

/-- The series that `dispatch_scheduled_meeting_invite` creates. -/
def dispatchScheduledMeetingInvite (meeting : RecurrenceInput) : Except String Recurrence :=
  let start := combineStart meeting
  match meeting.frequency with
  | .daily =>
    toolRecurrence .weekly start 1 (some workweekOutlook) none meeting.seriesEndDate
  | .weekly =>
    match meeting.weekday with
    | none => .error "Для weekly не задан weekday"
    | some weekday =>
      toolRecurrence .weekly start meeting.interval (some [weekday]) none meeting.seriesEndDate
  | .monthly =>
    if meeting.monthlyMode = some .byWeekdayPosition then buildRecurrence meeting start
    else toolRecurrence .monthly start meeting.interval none meeting.dayOfMonth meeting.seriesEndDate
  | .yearly =>
    toolRecurrence .monthly start 12 none (some (dayOf meeting.seriesStartDate))
      meeting.seriesEndDate

/-- How the Exchange client takes the numbers of a pattern. -/
structure Exchange where
  /-- The interval of a pattern by weeks or months is taken. -/
  takesInterval : Int → Bool
  /-- The weekday that a number of `RelativeMonthlyPattern` names; none where it is refused. -/
  weekday : Int → Option Weekday
  /-- The week that a number of `RelativeMonthlyPattern` names; none where it is refused. -/
  week : Int → Option WeekdayPosition

variable (exchange : Exchange)

def Pattern.accepted : Pattern → Bool
  | .daily interval => decide (1 ≤ interval)
  | .weekly interval weekdays => exchange.takesInterval interval && !weekdays.isEmpty
  | .absoluteMonthly interval day =>
    exchange.takesInterval interval && decide (1 ≤ day ∧ day ≤ 31)
  | .relativeMonthly interval weekday weekNumber =>
    exchange.takesInterval interval && (exchange.weekday weekday).isSome &&
      (exchange.week weekNumber).isSome

/-- The number of the week of a day; weeks begin on Monday. -/
def weekIndex (d : Int) : Int := (d + 6) / 7

def Pattern.Denotes (start d : Int) : Pattern → Prop
  | .daily interval => (d - start) % interval = 0
  | .weekly interval weekdays =>
    (∃ named ∈ weekdays, weekday d = named.iso) ∧
      (weekIndex d - weekIndex start) % interval = 0
  | .absoluteMonthly interval day =>
    (monthIndex d - monthIndex start) % interval = 0 ∧ clampDayOfMonth (monthIndex d) day = d
  | .relativeMonthly interval weekday weekNumber =>
    (monthIndex d - monthIndex start) % interval = 0 ∧
      ∃ named ∈ exchange.weekday weekday, ∃ position ∈ exchange.week weekNumber,
        monthlyWeekdayPositionDate (monthIndex d) named position = some d

/-- The dates of a recurrence: those of its pattern from its start to its end. -/
def Recurrence.Denotes (recurrence : Recurrence) (d : Int) : Prop :=
  recurrence.start ≤ d ∧ d ≤ recurrence.finish ∧
    recurrence.pattern.Denotes exchange recurrence.start d

end AgentBack.Meetings
