import AgentBack.Base.Loop
import Mathlib.Tactic.NormNum

/-!
# Local time

`to_local` turns every datetime into the zone of the configuration, and Python compares and adds
datetimes of one zone by their wall clocks. A datetime is therefore the wall clock of the
configured zone, an `Int` of microseconds since `0001-01-01 00:00`, which was a Monday; a timedelta
is an `Int` of microseconds. `to_local` is the identity on such values and does not appear.

The calendar has no end: Python's `OverflowError` after the year 9999 is not modelled.
-/

namespace AgentBack.Outlook

/-- A pair of datetimes as the busy lists carry them: `(start, end)`. -/
abbrev Interval := Int × Int

def second : Int := 1000000
def minute : Int := 60000000
def hour : Int := 3600000000
def day : Int := 86400000000

/-- `dt.date()`, as the number of days since 0001-01-01. -/
def date (dt : Int) : Int := dt / day

/-- `dt.time()`, as the time since midnight. -/
def time (dt : Int) : Int := dt % day

/-- `dt.weekday()`: Monday is 0 and Sunday is 6. -/
def weekday (dt : Int) : Int := date dt % 7

/-- `dt.replace(second=0, microsecond=0)`. -/
def dropSeconds (dt : Int) : Int := dt - dt % minute

/-- `dt.minute`, the minute of the hour. -/
def minuteOfHour (dt : Int) : Int := dt / minute % 60

end AgentBack.Outlook

/-!
# Working-time rules of the slot search (`slot_search/rules.py`)

The working day runs from 08:00 to 17:00, Monday to Friday, with a forbidden block from 12:00 to
13:00 (`slot_search/constants.py`). The functions keep the names of the source; `config` carries
the time zone alone here and is left out, see `AgentBack.Outlook.Time`.

`advance_candidate` loops under `while True` and is run under a budget. The two loops that step
over the weekend end after at most two passes, so `skipToWorkday` is a total function.
-/

namespace AgentBack.Outlook

/-- `WORK_START`, 08:00. -/
def workStart : Int := 8 * hour

/-- `WORK_END`, 17:00. -/
def workEnd : Int := 17 * hour

/-- `FORBIDDEN_BLOCKS`: lunch, 12:00 to 13:00. -/
def forbiddenBlocks : List (Int × Int) := [(12 * hour, 13 * hour)]

/-- `combine(day, clock)`: the clock time on the day of `dt`. -/
def combine (dt : Int) (clock : Int) : Int := date dt * day + clock

def isWorkday (dt : Int) : Bool := decide (weekday dt < 5)

/-- One day later is one day nearer to Monday, as long as it is the weekend. -/
private theorem weekend_closer (dt : Int) :
    (7 - weekday (dt + day)).toNat < (7 - weekday dt).toNat ∨ isWorkday (dt + day) = true := by
  have hday : date (dt + day) = date dt + 1 := by
    simp only [date, day]
    omega
  simp only [isWorkday, decide_eq_true_eq, weekday, hday]
  omega

/-- `while not is_workday(x): x += timedelta(days=1)`. -/
def skipToWorkday (candidate : Int) : Int :=
  if isWorkday candidate then candidate else skipToWorkday (candidate + day)
termination_by if isWorkday candidate then 0 else (7 - weekday candidate).toNat
decreasing_by
  next h =>
    rw [if_neg h]
    have hpos : 0 < (7 - weekday candidate).toNat := by
      simp only [weekday]
      omega
    split
    · exact hpos
    · next h' => exact (weekend_closer candidate).resolve_right h'

def nextWorkdayStart (dt : Int) : Int :=
  let candidate := combine dt workStart
  let candidate := if candidate ≤ dt then candidate + day else candidate
  skipToWorkday candidate

/-- The first point of the search, not before `WORK_START` of a working day. -/
def alignPreferred (preferred : Int) : Int :=
  let current := dropSeconds preferred
  if ¬ isWorkday current then combine (skipToWorkday current) workStart
  else if time current < workStart then combine current workStart
  else
    let latestStart := combine current workEnd - minute
    if current > latestStart then nextWorkdayStart current else current

/-- `not_before_now`: the lower bound of a search, `now` being the value of `datetime.now`. -/
def notBeforeNow (now : Int) : Int := alignPreferred (dropSeconds now)

/-- `max(int(step.total_seconds() // 60), 1)`. -/
def stepMinutes (step : Int) : Int := max (step / minute) 1

/-- `snap_to_step`: seconds are dropped, then minutes are rounded up to the grid of the hour. -/
def snapToStep (dt : Int) (step : Int) : Int :=
  let dt := dropSeconds dt
  let remainder := minuteOfHour dt % stepMinutes step
  if remainder = 0 then dt else dt + (stepMinutes step - remainder) * minute

def intervalsOverlap (aStart aEnd bStart bEnd : Int) : Bool :=
  decide (aStart < bEnd) && decide (aEnd > bStart)

def slotRespectsRules (start : Int) (duration : Int) : Bool :=
  let stop := start + duration
  if ¬ isWorkday start then false
  else if date start ≠ date stop then false
  else if time start < workStart ∨ time stop > workEnd then false
  else forbiddenBlocks.all fun block =>
    !intervalsOverlap start stop (combine start block.1) (combine start block.2)

/-- One pass through the `while True` of `advance_candidate`. -/
def advancePass (duration : Int) (current : Int) : Pass Int Int :=
  if ¬ isWorkday current then .again (nextWorkdayStart (current - day))
  else
    let latestStart := combine current workEnd - duration
    if time current < workStart then .again (combine current workStart)
    else if current > latestStart then .again (nextWorkdayStart current)
    else .ret current

/-- `advance_candidate`; `none` when the budget ends before the loop does. -/
def advanceCandidate (fuel : Nat) (current : Int) (step duration : Int) :
    Option Int :=
  Pass.run (fun c => some (advancePass duration c)) fuel (current + step)

end AgentBack.Outlook
