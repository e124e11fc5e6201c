import AgentBack.Outlook.Busy

/-!
# Who is free at a slot (`slot_search/availability.py`)

The comparisons of a slot with busy data, and the check of one slot against the events of the
calendar.
-/

namespace AgentBack.Outlook

def isFreeForAttendee (start duration : Int) (busyIntervals : List Interval) : Bool :=
  busyIntervals.all fun busy => !intervalsOverlap start (start + duration) busy.1 busy.2

def isFreeForAll (start duration : Int) (busyByAttendee : BusyMap) : Bool :=
  busyByAttendee.values.all (isFreeForAttendee start duration)

/-- `partition_attendees_at_slot`: the free and the busy attendees; an address that is no key of
the map has no busy intervals. -/
def partitionAttendeesAtSlot (slotStart duration : Int) (attendees : List String)
    (busyByAttendee : BusyMap) : List String × List String :=
  attendees.partition fun email =>
    isFreeForAttendee slotStart duration (busyByAttendee.getD email [])

/-- `union_busy_for_all`: busy where anybody is. -/
def unionBusyForAll (busyByAttendee : BusyMap) (rangeStart rangeEnd : Int) : List Interval :=
  coalesceIntervals busyByAttendee.values.flatten (some rangeStart) (some rangeEnd)

/-- `verify_slot_with_calendar`: the slot against the events two hours around it. -/
def verifySlotWithCalendar (exchange : Exchange) (attendees : List String)
    (slotStart duration : Int) : Except String (Bool × BusyMap) := do
  let windowStart := slotStart - 2 * hour
  let windowEnd := slotStart + duration + 2 * hour
  let busyByAttendee ← fetchBusyIntervalsFreebusyEvents exchange attendees windowStart windowEnd
  return (isFreeForAll slotStart duration busyByAttendee, busyByAttendee)

end AgentBack.Outlook

/-!
# Walking the candidates (`slot_search/iteration.py`)

The loops of the slot search, each a `Pass` under a budget. A scan answers the slot it found and
the number of candidates it checked, as the source does.
-/

namespace AgentBack.Outlook

/-- `int(span.total_seconds() // max(step.total_seconds(), 60))`. -/
def stepsIn (span step : Int) : Int := span / max step minute

/-- One pass of the `while` of `iterate_slot_candidates`; the state holds the candidate and what
was emitted so far. -/
def iteratePass (fuel : Nat) (searchEnd safetyLimit duration step : Int) (s : Int × List Int) :
    Option (Pass (Int × List Int) (List Int)) :=
  let (candidate, emitted) := s
  if candidate < searchEnd ∧ (emitted.length : Int) < safetyLimit then
    let emitted :=
      if slotRespectsRules candidate duration then emitted ++ [candidate] else emitted
    (advanceCandidate fuel candidate step duration).map fun next => .again (next, emitted)
  else some (.ret emitted)

/-- `iterate_slot_candidates`: the list of what the generator yields. -/
def iterateSlotCandidates (fuel : Nat) (earliestAllowed searchEnd duration step : Int) :
    Option (List Int) :=
  let candidate := max earliestAllowed (alignPreferred earliestAllowed)
  let safetyLimit := max 1000 (stepsIn (searchEnd - earliestAllowed) step + 50)
  Pass.run (iteratePass fuel searchEnd safetyLimit duration step) fuel (candidate, [])

/-- `quorum_search_start`, `now` being the value of `datetime.now`. -/
def quorumSearchStart (preferred now : Int) : Int :=
  let requested := dropSeconds preferred
  if ¬ isWorkday requested then max (alignPreferred requested) (notBeforeNow now)
  else max (combine requested workStart) (notBeforeNow now)

/-- One pass of the `while` of `first_valid_slot_in_window`. -/
def windowPass (fuel : Nat) (localStart localEnd duration step : Int) (s : Int × Int) :
    Option (Pass (Int × Int) (Option Int × Int)) :=
  let (candidate, checked) := s
  if candidate < localEnd ∧ candidate + duration ≤ localEnd then
    if candidate < localStart then
      some (.again (max localStart (alignPreferred localStart), checked))
    else if slotRespectsRules candidate duration then some (.ret (some candidate, checked + 1))
    else
      (advanceCandidate fuel candidate step duration).map fun next => .again (next, checked + 1)
  else some (.ret (none, checked))

/-- `first_valid_slot_in_window`: the first slot inside the free window. -/
def firstValidSlotInWindow (fuel : Nat) (windowStart windowEnd duration step : Int) :
    Option (Option Int × Int) :=
  if windowEnd ≤ windowStart then some (none, 0)
  else
    let candidate := snapToStep (max windowStart (alignPreferred windowStart)) step
    Pass.run (windowPass fuel windowStart windowEnd duration step) fuel (candidate, 0)

/-- What `find_slot_via_busy_gaps` does after its loop: the window behind the last busy block. -/
def lastWindow (fuel : Nat) (searchEnd duration step windowStart checked : Int) :
    Option (Option Int × Int) :=
  if windowStart < searchEnd then
    (firstValidSlotInWindow fuel windowStart searchEnd duration step).map fun found =>
      (found.1, checked + found.2)
  else some (none, checked)

/-- The loop of `find_slot_via_busy_gaps` over the busy blocks that are left. -/
def scanGaps (fuel : Nat) (searchEnd duration step : Int) :
    List Interval → Int → Int → Option (Option Int × Int)
  | [], windowStart, checked => lastWindow fuel searchEnd duration step windowStart checked
  | (busyStart, busyEnd) :: rest, windowStart, checked =>
    if busyStart > searchEnd then lastWindow fuel searchEnd duration step windowStart checked
    else
      let window :=
        if busyStart > windowStart then
          firstValidSlotInWindow fuel windowStart (min busyStart searchEnd) duration step
        else some (none, 0)
      window.bind fun (slot, windowChecked) =>
        match slot with
        | some slot => some (some slot, checked + windowChecked)
        | none =>
          scanGaps fuel searchEnd duration step rest (snapToStep (max windowStart busyEnd) step)
            (checked + windowChecked)

/-- `find_slot_via_busy_gaps`: the first slot between the united busy blocks. -/
def findSlotViaBusyGaps (fuel : Nat) (earliestAllowed searchEnd duration step : Int)
    (unionBusy : List Interval) : Option (Option Int × Int) :=
  scanGaps fuel searchEnd duration step unionBusy earliestAllowed 0

end AgentBack.Outlook
