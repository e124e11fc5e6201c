import AgentBack.Outlook.Availability

/-!
# Reschedule hints (`slot_search/conflicts.py`)

Where the meeting behind a conflict could move to. `suggest_reschedule_window` looks for a window
after the event, among the busy intervals of the whole group when there is one and among the
owner's otherwise; `attach_reschedule_hints` does so for a list of conflict records and keeps the
hints apart. `lower` is `str.lower` and `fromIsoFormat` is `datetime.fromisoformat`.
-/

namespace AgentBack.Outlook

open Text (strip normalize)

def resourceCalendarPrefixes : List String := ["calendar@"]

variable (lower : String → String)

def isResourceCalendarEmail (email : String) : Bool :=
  resourceCalendarPrefixes.any fun pre => (normalize lower email).startsWith pre

def humanAttendeesForRescheduleHint (attendeeEmails : List String) :
    List String :=
  attendeeEmails.filter fun email => email ≠ "" && !isResourceCalendarEmail lower email

/-- `_apply_blocked_slots_to_busy`: the blocked slots join the intervals of the owner. -/
def applyBlockedSlotsToBusy (busyByAttendee : BusyMap) (ownerEmail : Option String)
    (blockedSlots : List Interval) : BusyMap :=
  match ownerEmail with
  | none => busyByAttendee
  | some owner =>
    if blockedSlots = [] ∨ owner = "" then busyByAttendee
    else
      let ownerKey := normalize lower owner
      let existing := busyByAttendee.getD ownerKey []
      busyByAttendee.set ownerKey (coalesceIntervals (existing ++ blockedSlots) none none)

/-- What is left of a busy interval outside the window. -/
def pruneInterval (excludeStart excludeEnd : Int) (busy : Interval) : List Interval :=
  if busy.2 ≤ excludeStart ∨ busy.1 ≥ excludeEnd then [busy]
  else
    (if busy.1 < excludeStart then [(busy.1, excludeStart)] else []) ++
      (if busy.2 > excludeEnd then [(excludeEnd, busy.2)] else [])

/-- `_exclude_window_from_busy`: the meeting that moves does not block its own new window. -/
def excludeWindowFromBusy (busyByAttendee : BusyMap) (excludeStart excludeEnd : Int) : BusyMap :=
  busyByAttendee.mapItems fun _ intervals =>
    coalesceIntervals (intervals.flatMap (pruneInterval excludeStart excludeEnd)) none none

/-- `_fetch_group_busy_for_hint`: the events, and the merged data when there are none or the
request for them failed. -/
def fetchGroupBusyForHint (exchange : Exchange) (attendees : List String)
    (fetchStart fetchEnd : Int) : Except String BusyMap :=
  match fetchBusyIntervalsFreebusyEvents exchange attendees fetchStart fetchEnd with
  | .ok busyByAttendee =>
    if busyByAttendee.values.any (· ≠ []) then .ok busyByAttendee
    else fetchBusyIntervalsFreebusy exchange attendees fetchStart fetchEnd
  | .error _ => fetchBusyIntervalsFreebusy exchange attendees fetchStart fetchEnd

variable (fuel : Nat)

/-- One pass of the two `while` loops of `suggest_reschedule_window`. -/
def hintPass (free : Int → Bool) (duration step searchEnd : Int) (candidate : Int) :
    Option (Pass Int (Option Int)) :=
  if candidate < searchEnd then
    if slotRespectsRules candidate duration && free candidate then some (.ret (some candidate))
    else (advanceCandidate fuel candidate step duration).map .again
  else some (.ret none)

/-- The first free candidate after the event. -/
def searchHint (free : Int → Bool) (eventEnd duration step searchEnd : Int) :
    Option (Option Int) :=
  (advanceCandidate fuel eventEnd step duration).bind fun candidate =>
    Pass.run (hintPass fuel free duration step searchEnd) fuel candidate

/-- The group search: everybody is free, apart from the event itself and with the blocked slots. -/
def groupHint (lower : String → String) (busyByAttendee : BusyMap) (owner : Option String)
    (blockedSlots : List Interval) (eventStart eventEnd duration step searchEnd : Int) :
    Option (Option Int) :=
  let busyByAttendee := excludeWindowFromBusy busyByAttendee eventStart eventEnd
  let busyByAttendee := applyBlockedSlotsToBusy lower busyByAttendee owner blockedSlots
  searchHint fuel (fun candidate => isFreeForAll candidate duration busyByAttendee) eventEnd
    duration step searchEnd

/-- The search among the owner's own intervals and the blocked slots. -/
def ownerHint (busyIntervals blockedSlots : List Interval) (eventEnd duration step searchEnd : Int) :
    Option (Option Int) :=
  let effectiveBusy := coalesceIntervals (busyIntervals ++ blockedSlots) none none
  searchHint fuel (fun candidate => isFreeForAttendee candidate duration effectiveBusy) eventEnd
    duration step searchEnd

/-- The length of the new window: the event's own, or half an hour for an empty event. -/
def hintDuration (eventStart eventEnd : Int) : Int :=
  let duration := eventEnd - eventStart
  if duration ≤ 0 then 30 * minute else duration

def hintBlockedSlots (reservedSlot : Option Interval) (blockedHintSlots : List Interval) :
    List Interval :=
  coalesceIntervals (reservedSlot.toList ++ blockedHintSlots) none none

/-- `(owner_email or "").strip().lower() or None`. -/
def hintOwner (ownerEmail : Option String) : Option String :=
  (some (normalize lower (ownerEmail.getD ""))).filter (· ≠ "")

/-- The addresses of the meeting, normalised and once each, the owner among them. -/
def hintAttendees (owner : Option String) (meetingAttendees : List String) : List String :=
  let attendeeEmails :=
    ((meetingAttendees.filter (strip · ≠ "")).map (normalize lower)).eraseDups
  match owner with
  | none => attendeeEmails
  | some owner => if owner ∈ attendeeEmails then attendeeEmails else owner :: attendeeEmails

/-- The people whose free/busy data the group search asks for. -/
def hintGroup (ownerEmail : Option String) (meetingAttendees : List String) : List String :=
  humanAttendeesForRescheduleHint lower
    (hintAttendees lower (hintOwner lower ownerEmail) meetingAttendees)

/-- The busy data of the group search, when there is a group search. -/
def hintGroupBusy (exchange : Exchange) (eventEnd searchEnd : Int) (ownerEmail : Option String)
    (meetingAttendees : List String) (skipGroupBusyFetch : Bool) :
    Option BusyMap :=
  let groupAttendees := hintGroup lower ownerEmail meetingAttendees
  if groupAttendees.length ≥ 2 ∧ ¬ skipGroupBusyFetch then
    (fetchGroupBusyForHint exchange groupAttendees eventEnd searchEnd).toOption
  else none

def suggestRescheduleWindow (lower : String → String) (exchange : Exchange)
    (eventStart eventEnd : Int) (busyIntervals : List Interval) (step searchEnd : Int)
    (reservedSlot : Option Interval) (blockedHintSlots : List Interval) (ownerEmail : Option String)
    (meetingAttendees : List String) (skipGroupBusyFetch : Bool) :
    Option (Option Interval) :=
  let blockedSlots := hintBlockedSlots reservedSlot blockedHintSlots
  let duration := hintDuration eventStart eventEnd
  let window := Option.map fun candidate => (candidate, candidate + duration)
  let fallback := (ownerHint fuel busyIntervals blockedSlots eventEnd duration step searchEnd).map
    window
  match hintGroupBusy lower exchange eventEnd searchEnd ownerEmail meetingAttendees
    skipGroupBusyFetch with
  | none => fallback
  | some busyByAttendee =>
    (groupHint fuel lower busyByAttendee (hintOwner lower ownerEmail) blockedSlots eventStart
        eventEnd duration step searchEnd).bind fun
      | some candidate => some (window (some candidate))
      | none => fallback

/-! ## Hints for a list of records -/

def lowMovabilitySubjectKeywords : List String :=
  ["совет", "комитет", "правление", "1с", "board", "committee"]

def movabilityReason (busyType subject source : String) : String :=
  let subjectLower := lower subject
  if lowMovabilitySubjectKeywords.any fun keyword =>
      decide (keyword.toList <:+: subjectLower.toList) then "protected_subject"
  else if strip busyType = "OOF" then "oof"
  else if strip busyType = "Tentative" then "tentative"
  else if source = "interval" then "unknown_interval"
  else "busy"

structure ConflictRecord where
  eventStart : String
  eventEnd : String
  eventSubject : Option String
  busyType : Option String
  source : Option String
  movability : Option String
  eventAttendees : Option (List String)
  deriving DecidableEq

structure HintedRecord where
  record : ConflictRecord
  movability : String
  movabilityReason : String
  canAutoReschedule : Bool
  hint : Option Interval
  deriving DecidableEq

def eventKey (record : ConflictRecord) : String × String × String :=
  (record.eventStart, record.eventEnd, record.eventSubject.getD "")

/-- What `attach_reschedule_hints` is called with, apart from the records. -/
structure HintRequest where
  ownerEmail : String
  busyIntervals : List Interval
  step : Int
  searchEnd : Int
  reservedSlot : Option Interval
  lightHints : Bool

def skipGroupBusyFetchForHint (lightHints : Bool) (meetingAttendees : List String) : Bool :=
  let group := humanAttendeesForRescheduleHint lower (meetingAttendees.filter (strip · ≠ ""))
  lightHints && decide (group.length < 2)

def busyIntervalsForHint (exchange : Exchange) (ownerEmail : String) (eventEnd searchEnd : Int)
    (busyIntervals : List Interval) (useCachedOnly : Bool) :
    List Interval :=
  if useCachedOnly then busyIntervals
  else
    let normalizedOwner := normalize lower ownerEmail
    if normalizedOwner = "" then busyIntervals
    else
      match fetchBusyIntervalsFreebusy exchange [normalizedOwner] eventEnd searchEnd with
      | .ok fetched => fetched.getD normalizedOwner busyIntervals
      | .error _ => busyIntervals

structure HintEvent where
  start : Int
  stop : Int
  attendees : List String

/-- `_resolve_hint`: a group search without a result is followed by one for the owner alone. -/
def resolveHint (lower : String → String) (exchange : Exchange) (request : HintRequest)
    (assignedHints : List Interval) (event : HintEvent) (skipGroupBusy : Bool)
    (hintBusyIntervals : List Interval) : Option (Option Interval) :=
  (suggestRescheduleWindow fuel lower exchange event.start event.stop hintBusyIntervals
      request.step request.searchEnd request.reservedSlot assignedHints (some request.ownerEmail)
      event.attendees skipGroupBusy).bind fun hint =>
    if hint.isSome ∨ skipGroupBusy then some hint
    else
      suggestRescheduleWindow fuel lower exchange event.start event.stop hintBusyIntervals
        request.step request.searchEnd request.reservedSlot assignedHints
        (some request.ownerEmail) [request.ownerEmail] true

/-- The hint of a record whose event has none yet. -/
def newHint (lower : String → String) (exchange : Exchange) (request : HintRequest)
    (assignedHints : List Interval) (event : HintEvent) : Option (Option Interval) :=
  let skipGroupBusy := skipGroupBusyFetchForHint lower request.lightHints event.attendees
  let hintBusyIntervals := busyIntervalsForHint lower exchange request.ownerEmail event.stop
    request.searchEnd request.busyIntervals !skipGroupBusy
  resolveHint fuel lower exchange request assignedHints event skipGroupBusy hintBusyIntervals

/-- What the loop of `attach_reschedule_hints` carries from record to record. -/
structure HintState where
  conflicts : List HintedRecord
  assignedHints : List Interval
  hintsByEvent : Dict (String × String × String) (Option Interval)

/-- The record as it is appended to `conflicts`. -/
def hintedRecord (record : ConflictRecord) (hint : Option Interval) :
    HintedRecord :=
  let source := record.source.getD "interval"
  let source :=
    if source ∈ ["calendar", "freebusy", "interval", "company_calendar"] then source
    else "interval"
  { record
    movability := (record.movability.filter (· ≠ "")).getD "medium"
    movabilityReason := movabilityReason lower (record.busyType.getD "")
      (record.eventSubject.getD "") source
    canAutoReschedule := false
    hint }

def HintState.append (s : HintState) (record : ConflictRecord) (hint : Option Interval) :
    HintState where
  conflicts := s.conflicts ++ [hintedRecord lower record hint]
  assignedHints := s.assignedHints ++ hint.toList
  hintsByEvent := s.hintsByEvent.set (eventKey record) hint

/-- One round of the loop of `attach_reschedule_hints`. -/
def attachRecord (lower : String → String) (fromIsoFormat : String → Option Int)
    (exchange : Exchange) (request : HintRequest) (s : HintState) (record : ConflictRecord) :
    Option (Except String HintState) :=
  match fromIsoFormat record.eventStart, fromIsoFormat record.eventEnd with
  | some eventStart, some eventEnd =>
    match s.hintsByEvent.get? (eventKey record) with
    | some hint => some (.ok (s.append lower record hint))
    | none =>
      (newHint fuel lower exchange request s.assignedHints
          ⟨eventStart, eventEnd, record.eventAttendees.getD []⟩).map fun hint =>
        .ok (s.append lower record hint)
  | _, _ => some (.error "Invalid isoformat string")

/-- The loop of `attach_reschedule_hints` over the records that are left. -/
def attachRecords (fuel : Nat) (lower : String → String) (fromIsoFormat : String → Option Int)
    (exchange : Exchange) (request : HintRequest) :
    List ConflictRecord → HintState → Option (Except String HintState)
  | [], s => some (.ok s)
  | record :: rest, s =>
    (attachRecord fuel lower fromIsoFormat exchange request s record).bind fun
      | .error fault => some (.error fault)
      | .ok s => attachRecords fuel lower fromIsoFormat exchange request rest s

def attachRescheduleHints (lower : String → String) (fromIsoFormat : String → Option Int)
    (exchange : Exchange) (request : HintRequest) (records : List ConflictRecord) :
    Option (Except String (List HintedRecord)) :=
  (attachRecords fuel lower fromIsoFormat exchange request records ⟨[], [], ∅⟩).map fun outcome =>
    outcome.map HintState.conflicts

end AgentBack.Outlook
