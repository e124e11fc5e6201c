import AgentBack.Base.Dict
import AgentBack.Base.Span
import AgentBack.Base.Text
import AgentBack.Outlook.Rules

/-!
# Busy intervals (`slot_search/busy.py`)

Where the busy data comes from: the Exchange server answers one free/busy view for each mailbox of
a request, the parsers read a view, and the `fetch` functions collect the intervals under the
addresses of the attendees. `Exchange` is the server as the code calls it; a request that raises
answers the text of its exception. Logging and timing are left out.
-/

namespace AgentBack.Outlook

open Text (strip)

/-- `busy_by_attendee`: busy intervals under the addresses of the attendees. -/
abbrev BusyMap := Dict String (List Interval)

def busyStatuses : List String := ["Busy", "Tentative", "OOF", "WorkingElsewhere"]

def freeBusyMergedIntervalMinutes : Int := 30

/-- `MERGED_FREE_CHARS`; the empty string of the source is no character. -/
def mergedFreeChars : List Char := ['0']

/-- One event of a free/busy view, or one item of a calendar folder. -/
structure CalendarEvent where
  isCancelled : Bool
  busyType : String
  start : Int
  stop : Int

/-- What `get_free_busy_info` answers for one mailbox. -/
structure FreeBusyView where
  merged : Option String
  calendarEvents : Option (List CalendarEvent)
  message : Option String

/-- The Exchange server: free/busy views for a list of mailboxes in a range, and the items of one
calendar folder. -/
structure Exchange where
  getFreeBusyInfo : List String → Int → Int → Except String (List FreeBusyView)
  calendarView : String → Int → Int → Int → Except String (List CalendarEvent)

/-- `event_interval`: an item of a calendar folder without a status counts as busy. -/
def eventInterval (item : CalendarEvent) : Option Interval :=
  if item.isCancelled then none
  else if item.busyType ≠ "" ∧ item.busyType ∉ busyStatuses then none
  else if item.stop ≤ item.start then none
  else some (item.start, item.stop)

/-- `freebusy_event_interval`: an event of a view without a status does not. -/
def freebusyEventInterval (event : CalendarEvent) : Option Interval :=
  if event.busyType = "Free" then none
  else if event.busyType = "" ∨ event.busyType ∉ busyStatuses then none
  else if event.stop ≤ event.start then none
  else some (event.start, event.stop)

def parseFreebusyEvents (events : List CalendarEvent) : List Interval :=
  events.filterMap freebusyEventInterval

/-- The loop of `busy_intervals_from_merged_string`, from a cell that starts at `slotStart`;
`busyStart` is where the busy run before it began. -/
def mergedCells (localEnd step : Int) : List Char → Int → Option Int → List Interval
  | [], slotStart, busyStart => busyStart.toList.map fun b => (b, min slotStart localEnd)
  | char :: rest, slotStart, busyStart =>
    if slotStart ≥ localEnd then busyStart.toList.map fun b => (b, min slotStart localEnd)
    else if char ∉ mergedFreeChars then
      mergedCells localEnd step rest (slotStart + step) (some (busyStart.getD slotStart))
    else
      (busyStart.toList.map fun b => (b, slotStart)) ++
        mergedCells localEnd step rest (slotStart + step) none

def busyIntervalsFromMergedString (merged : String) (rangeStart rangeEnd : Int) : List Interval :=
  mergedCells (dropSeconds rangeEnd) (freeBusyMergedIntervalMinutes * minute) merged.toList
    (dropSeconds rangeStart) none

variable (view : FreeBusyView)

/-- The merged string of a view when there is one and it is not empty. -/
def FreeBusyView.mergedText : Option String :=
  view.merged.filter (· ≠ "")

/-- The events of a view; `None` counts as no events. -/
def FreeBusyView.events : List CalendarEvent :=
  view.calendarEvents.getD []

def FreeBusyView.messageText : Option String :=
  view.message.filter (· ≠ "")

/-- `freebusy_busy_intervals`: the merged string first, then the events. -/
def freebusyBusyIntervals (attendee : String) (rangeStart rangeEnd : Int) :
    Except String (List Interval) :=
  match view.mergedText with
  | some merged => .ok (busyIntervalsFromMergedString merged rangeStart rangeEnd)
  | none =>
    if view.events ≠ [] then .ok (parseFreebusyEvents view.events)
    else
      match view.messageText with
      | some message => .error s!"Exchange не вернул занятость для {attendee}: {message}"
      | none => .error s!"Exchange не вернул занятость для {attendee}: пустой ответ FreeBusyView"

/-- `freebusy_events_busy_intervals`: the events first, then the merged string. -/
def freebusyEventsBusyIntervals (attendee : String) (rangeStart rangeEnd : Int) :
    Except String (List Interval) :=
  if parseFreebusyEvents view.events ≠ [] then .ok (parseFreebusyEvents view.events)
  else
    match view.mergedText with
    | some merged => .ok (busyIntervalsFromMergedString merged rangeStart rangeEnd)
    | none =>
      match view.messageText with
      | some message => .error s!"Exchange не вернул занятость для {attendee}: {message}"
      | none => .ok []

variable (exchange : Exchange)

variable (attendees : List String)

variable (rangeStart rangeEnd : Int)

/-- `fetch_free_busy_views`: one request for the stripped addresses, one view for each. -/
def fetchFreeBusyViews :
    Except String (Dict String FreeBusyView) :=
  let attendeeList := attendees.map strip
  match exchange.getFreeBusyInfo attendeeList rangeStart rangeEnd with
  | .error fault => .error fault
  | .ok views =>
    let got := views.length
    let asked := attendeeList.length
    if got ≠ asked then .error s!"Free/busy вернул {got} ответов для {asked} участников"
    else .ok (Dict.ofList (attendeeList.zip views))

/-- `fetch_busy_intervals_freebusy`: a mailbox whose view cannot be read counts as free. -/
def fetchBusyIntervalsFreebusy : Except String BusyMap := do
  let views ← fetchFreeBusyViews exchange attendees rangeStart rangeEnd
  return views.mapItems fun email view =>
    (freebusyBusyIntervals view email rangeStart rangeEnd).toOption.getD []

/-- `fetch_busy_intervals_freebusy_events`: a view that cannot be read fails the request. -/
def fetchBusyIntervalsFreebusyEvents : Except String BusyMap := do
  let views ← fetchFreeBusyViews exchange attendees rangeStart rangeEnd
  views.mapItemsM fun email view => freebusyEventsBusyIntervals view email rangeStart rangeEnd

def fetchBusyIntervalsCalendar (email : String) (rangeStart rangeEnd : Int) (maxItems : Int) :
    Except String (List Interval) :=
  let email := strip email
  match exchange.calendarView email rangeStart rangeEnd maxItems with
  | .error fault => .error s!"Не удалось прочитать календарь {email}: {fault}"
  | .ok items => .ok (items.filterMap eventInterval)

inductive AvailabilitySource where
  | freebusy
  | calendar
  deriving DecidableEq

/-- `fetch_all_busy_intervals`. The worker pool of the calendar source fills the same dictionary;
its order of completion is not modelled. -/
def fetchAllBusyIntervals (source : AvailabilitySource) (maxItems : Int) :
    Except String BusyMap :=
  match source with
  | .freebusy => fetchBusyIntervalsFreebusy exchange attendees rangeStart rangeEnd
  | .calendar =>
    attendees.foldlM (fun busyByAttendee email => do
      let intervals ← fetchBusyIntervalsCalendar exchange email rangeStart rangeEnd maxItems
      return busyByAttendee.set email intervals) ∅

/-- One interval on its way into `coalesce_intervals`: dropped when it is empty, before or after it
is clipped. -/
def clipInterval (clipStart clipEnd : Option Int) (iv : Interval) : Option Interval :=
  if iv.2 ≤ iv.1 then none
  else
    let localStart := clipStart.elim iv.1 (max iv.1)
    let localEnd := clipEnd.elim iv.2 (min iv.2)
    if localEnd ≤ localStart then none else some (localStart, localEnd)

def coalesceIntervals (intervals : List Interval) (clipStart clipEnd : Option Int) :
    List Interval :=
  Span.coalesce (intervals.filterMap (clipInterval clipStart clipEnd))

end AgentBack.Outlook
