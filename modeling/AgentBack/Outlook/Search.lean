import AgentBack.Outlook.Availability

/-!
# Nearest slot (`slot_search/search.py`)

The bounds of a search, its busy data (fetched for the attendees, or passed in and clipped), and
the search for the nearest slot, which asks the calendar about each slot it finds and blocks the
slot when the calendar refuses it. `lower` is `str.lower`, see `AgentBack.Base.Text`.
-/

namespace AgentBack.Outlook

/-- How a search fails: a rejected argument, no slot, or an exception of the server. -/
inductive SearchError where
  | valueError (message : String)
  | slotNotFound (maxDays earliestAllowed : Int)
  | quorumNotFound (minCoverageRatio : Rat) (required : Nat) (searchDays : Int)
  | exchangeError (message : String)

/-- What `search_bounds_for_preferred` returns. -/
structure SearchBounds where
  requested : Int
  earliestAllowed : Int
  searchEnd : Int

/-- `search_bounds_for_preferred`, `now` being the value of `datetime.now`. -/
def searchBoundsForPreferred (now preferred maxDays : Int) : SearchBounds :=
  let requested := dropSeconds preferred
  let searchStart := alignPreferred requested
  let earliestAllowed := max requested (max searchStart (notBeforeNow now))
  { requested, earliestAllowed, searchEnd := earliestAllowed + maxDays * day }

/-- `clip_busy_by_attendee_for_window`: the keys are stripped and lowered. -/
def clipBusyByAttendeeForWindow (lower : String → String) (busyByAttendee : BusyMap)
    (rangeStart rangeEnd : Int) : BusyMap :=
  Dict.ofList (busyByAttendee.items.map fun (email, intervals) =>
    (Text.normalize lower email, coalesceIntervals intervals (some rangeStart) (some rangeEnd)))

/-- The busy data of a search: the prefetched map clipped to the window, when there is one and the
source is free/busy, and a fetch for the attendees otherwise. -/
def busyForWindow (lower : String → String) (exchange : Exchange) (attendees : List String)
    (rangeStart rangeEnd : Int) (source : AvailabilitySource) (maxItems : Int)
    (prefetched : Option BusyMap) : Except String BusyMap :=
  match prefetched, source with
  | some busyByAttendee, .freebusy =>
    .ok (clipBusyByAttendeeForWindow lower busyByAttendee rangeStart rangeEnd)
  | _, _ => fetchAllBusyIntervals exchange attendees rangeStart rangeEnd source maxItems

/-- What `_slot_search_result` returns. -/
structure SlotSearchResult where
  preferred : Int
  earliestAllowed : Int
  slotStart : Int
  slotEnd : Int
  durationMinutes : Int
  attendees : List String
  checkedCandidates : Int
  searchUntil : Int
  availabilitySource : AvailabilitySource
  availabilitySnapshot : BusyMap

def slotSearchResult (bounds : SearchBounds) (candidate duration : Int) (attendees : List String)
    (checked : Int) (source : AvailabilitySource) (busyByAttendee : BusyMap) : SlotSearchResult where
  preferred := bounds.requested
  earliestAllowed := bounds.earliestAllowed
  slotStart := candidate
  slotEnd := candidate + duration
  durationMinutes := duration / minute
  attendees := attendees
  checkedCandidates := checked
  searchUntil := bounds.searchEnd
  availabilitySource := source
  availabilitySnapshot := busyByAttendee

/-- What the loop of `find_nearest_slot` carries from pass to pass. -/
structure NearestState where
  unionBusySearch : List Interval
  checked : Int
  verificationAttempts : Int

def maxCalendarVerifications (earliestAllowed searchEnd step : Int) : Int :=
  max 500 (stepsIn (searchEnd - earliestAllowed) step + 10)

/-- The busy blocks after a slot was rejected: the whole slot is blocked. -/
def blockSlot (earliestAllowed searchEnd duration : Int) (unionBusySearch : List Interval)
    (slot : Int) : List Interval :=
  coalesceIntervals (unionBusySearch ++ [(slot, slot + duration)]) (some earliestAllowed)
    (some searchEnd)

/-- Block a slot and go on, unless the attempts are used up. -/
def rejectSlot (earliestAllowed searchEnd duration step : Int) (s : NearestState) (slot : Int) :
    Pass NearestState (Except String (Option (Int × Int))) :=
  let verificationAttempts := s.verificationAttempts + 1
  if verificationAttempts ≥ maxCalendarVerifications earliestAllowed searchEnd step then
    .ret (.ok none)
  else
    .again { s with
      unionBusySearch := blockSlot earliestAllowed searchEnd duration s.unionBusySearch slot
      verificationAttempts }

/-- What the loop of `find_nearest_slot` does with the answer of the gap scan. It leaves with the
slot and the number of checked candidates, or without a slot. -/
def judgeSlot (exchange : Exchange) (attendees : List String)
    (earliestAllowed searchEnd duration step : Int) (verifyCalendar : Bool)
    (source : AvailabilitySource) (s : NearestState) (found : Option Int × Int) :
    Pass NearestState (Except String (Option (Int × Int))) :=
  let s := { s with checked := s.checked + found.2 }
  match found.1 with
  | none => .ret (.ok none)
  | some slot =>
    if slot < earliestAllowed then rejectSlot earliestAllowed searchEnd duration step s slot
    else if ¬ verifyCalendar ∨ source = .calendar then .ret (.ok (some (slot, s.checked)))
    else
      match verifySlotWithCalendar exchange attendees slot duration with
      | .error fault => .ret (.error fault)
      | .ok (true, _) => .ret (.ok (some (slot, s.checked)))
      | .ok (false, _) => rejectSlot earliestAllowed searchEnd duration step s slot

/-- One pass of the `while True` of `find_nearest_slot`. -/
def nearestPass (fuel : Nat) (exchange : Exchange) (attendees : List String)
    (earliestAllowed searchEnd duration step : Int) (verifyCalendar : Bool)
    (source : AvailabilitySource) (s : NearestState) :
    Option (Pass NearestState (Except String (Option (Int × Int)))) :=
  (findSlotViaBusyGaps fuel earliestAllowed searchEnd duration step s.unionBusySearch).map
    (judgeSlot exchange attendees earliestAllowed searchEnd duration step verifyCalendar source s)

/-- What `find_nearest_slot` makes of the way its loop leaves. -/
def nearestOutcome (bounds : SearchBounds) (duration maxDays : Int) (attendees : List String)
    (source : AvailabilitySource) (busyByAttendee : BusyMap) :
    Except String (Option (Int × Int)) → Except SearchError SlotSearchResult
  | .error fault => .error (.exchangeError fault)
  | .ok none => .error (.slotNotFound maxDays bounds.earliestAllowed)
  | .ok (some (slot, checked)) =>
    .ok (slotSearchResult bounds slot duration attendees checked source busyByAttendee)

def findNearestSlot (fuel : Nat) (lower : String → String) (exchange : Exchange) (now : Int)
    (attendees : List String) (preferred duration maxDays step maxItems : Int)
    (source : AvailabilitySource) (verifyCalendar : Bool) (prefetched : Option BusyMap) :
    Option (Except SearchError SlotSearchResult) :=
  if attendees = [] then
    some (.error (.valueError "Укажите хотя бы одного участника (--attendee)."))
  else if duration ≤ 0 then
    some (.error (.valueError "Длительность должна быть больше 0."))
  else if maxDays < 1 then
    some (.error (.valueError "--max-days должно быть >= 1."))
  else
    let bounds := searchBoundsForPreferred now preferred maxDays
    match busyForWindow lower exchange attendees bounds.earliestAllowed bounds.searchEnd source
      maxItems prefetched with
    | .error fault => some (.error (.exchangeError fault))
    | .ok busyByAttendee =>
      let unionBusy := unionBusyForAll busyByAttendee bounds.earliestAllowed bounds.searchEnd
      (Pass.run (nearestPass fuel exchange attendees bounds.earliestAllowed bounds.searchEnd
          duration step verifyCalendar source) fuel ⟨unionBusy, 0, 0⟩).map
        (nearestOutcome bounds duration maxDays attendees source busyByAttendee)

end AgentBack.Outlook
