import AgentBack.Base.FirstWins
import AgentBack.Base.Text
import AgentBack.Meetings.Recurrence

/-!
# The card of a series (`services/scheduled_meeting_registry_sync.py`,
`services/scheduled_meeting_occurrences.py`)

The registry shows one card for a series, and a synchronisation moves it along the occurrences of
the series: those that the calendar has, or those of the rule when the calendar has none. A moment
is a number of microseconds of the time zone of the calendar, which has one offset as the default
one has; its date is the number of whole days. Participants, protocol drafts and the history of a
card are left out: they do not decide where the card goes.
-/

namespace AgentBack.Meetings

abbrev Moment := Int

def ticksPerDay : Int := 86400000000

/-- `moment.date()`. -/
def dateOf (moment : Moment) : Int := moment / ticksPerDay

structure TimeOfDay where
  ticks : Int
  nonneg : 0 ≤ ticks
  lt : ticks < ticksPerDay

/-- The sources of a list of occurrences; `none` is that of no list. -/
inductive OccurrenceSource where
  | outlook
  | rule
  | none
  deriving DecidableEq

/-- `SeriesOccurrence`. A cancelled one is never built. -/
structure SeriesOccurrence where
  occurrenceDate : Int
  slotStart : Moment
  slotEnd : Moment
  outlookItemId : Option String
  outlookChangekey : Option String
  subject : String
  source : OccurrenceSource
  deriving DecidableEq

/-- `ScheduledMeetingStatus`. -/
inductive SeriesStatus where
  | planned
  | created
  | archive
  deriving DecidableEq

def SeriesStatus.value : SeriesStatus → String
  | .planned => "planned"
  | .created => "created"
  | .archive => "archive"

/-- `ScheduledMeeting`. -/
structure Series where
  title : String
  status : SeriesStatus
  outlookSeriesId : Option String
  outlookMeetingUrl : Option String
  recurrence : RecurrenceInput
  timeLocal : TimeOfDay
  durationMinutes : Int

/-- `MeetingRegistryStage`. -/
inductive RegistryStage where
  | scheduled
  | invitationsSent
  | protocolCreated
  | protocolConducted
  | meetingCompleted
  | cancelled
  deriving DecidableEq

/-- `MeetingRegistryEntry`. -/
structure RegistryEntry where
  scheduledMeetingId : Option String
  title : Option String
  subject : Option String
  slotStart : Option Moment
  slotEnd : Option Moment
  stage : RegistryStage
  seriesOccurrenceDate : Option Int
  outlookItemId : Option String
  outlookChangekey : Option String
  outlookMeetingUrl : Option String
  deriving DecidableEq

/-! ## The occurrences of a series -/

/-- An item of the calendar, with the id of its series as `_resolved_series_master_id` finds it. -/
structure CalendarItem where
  masterId : Option String
  isCancelled : Bool
  isSeriesOccurrence : Bool
  start : Option Moment
  finish : Option Moment
  id : String
  changekey : String
  subject : String

/-- `text or None`. -/
def orNone (text : String) : Option String := if text = "" then none else some text

/-- `_calendar_item_to_occurrence`. The outer option is without a value where the source raises. -/
def calendarItemToOccurrence (item : CalendarItem) : Option (Option SeriesOccurrence) :=
  if item.isCancelled || !item.isSeriesOccurrence then some none
  else
    match item.start, item.finish with
    | some slotStart, some slotEnd => some (some
        { occurrenceDate := dateOf slotStart
          slotStart
          slotEnd
          outlookItemId := orNone item.id
          outlookChangekey := orNone item.changekey
          subject := Text.strip item.subject
          source := .outlook })
    | _, _ => none

/-- The occurrences of the items of a series, without a value where the source raises. -/
def itemOccurrences (outlookSeriesId : String) : List CalendarItem → Option (List SeriesOccurrence)
  | [] => some []
  | item :: rest =>
    if item.masterId = some outlookSeriesId then
      (calendarItemToOccurrence item).bind fun occurrence =>
        (itemOccurrences outlookSeriesId rest).map fun occurrences =>
          occurrence.toList ++ occurrences
    else itemOccurrences outlookSeriesId rest

/-- `fetch_series_occurrences_from_outlook`, from the items of the calendar in the range. -/
def fetchSeriesOccurrencesFromOutlook (outlookSeriesId : String)
    (items : Option (List CalendarItem)) : Option (List SeriesOccurrence) :=
  (items.bind (itemOccurrences outlookSeriesId)).map (sortBy SeriesOccurrence.slotStart)

def occurrenceSlotBounds (occurrenceDate : Int) (timeLocal : TimeOfDay) (durationMinutes : Int) :
    Moment × Moment :=
  let slotStart := occurrenceDate * ticksPerDay + timeLocal.ticks
  (slotStart, slotStart + durationMinutes * 60000000)

variable (meeting : Series)

def ruleOccurrence (occurrenceDate : Int) : SeriesOccurrence :=
  let slot := occurrenceSlotBounds occurrenceDate meeting.timeLocal meeting.durationMinutes
  { occurrenceDate
    slotStart := slot.1
    slotEnd := slot.2
    outlookItemId := none
    outlookChangekey := none
    subject := Text.strip meeting.title
    source := .rule }

def buildOccurrencesFromRule (rangeStart rangeEnd : Int) :
    Except String (List SeriesOccurrence) :=
  (iterOccurrenceDates meeting.recurrence (some rangeStart) (some rangeEnd)).map fun dates =>
    dates.map (ruleOccurrence meeting)

/-- The occurrences that the calendar has, of a series that has an id there. -/
def outlookOccurrences (items : Option (List CalendarItem)) :
    List SeriesOccurrence :=
  match meeting.outlookSeriesId with
  | some seriesId =>
    if seriesId = "" then [] else (fetchSeriesOccurrencesFromOutlook seriesId items).getD []
  | none => []

/-- `resolve_series_occurrences`. The items are those that the calendar gives for the range, without
a value where the read raises. -/
def resolveSeriesOccurrences (items : Option (List CalendarItem)) (rangeStart rangeEnd : Int) :
    Except String (List SeriesOccurrence × OccurrenceSource) :=
  if outlookOccurrences meeting items ≠ [] then .ok (outlookOccurrences meeting items, .outlook)
  else (buildOccurrencesFromRule meeting rangeStart rangeEnd).map fun occurrences =>
    if occurrences ≠ [] then (occurrences, .rule) else ([], .none)

def findNextOccurrence (occurrences : List SeriesOccurrence) (now : Moment) :
    Option SeriesOccurrence :=
  (sortBy SeriesOccurrence.slotStart occurrences).find? fun occurrence =>
    now ≤ occurrence.slotEnd

def findNextAfter (occurrences : List SeriesOccurrence) (afterDate : Int) :
    Option SeriesOccurrence :=
  (sortBy SeriesOccurrence.slotStart occurrences).find? fun occurrence =>
    afterDate < occurrence.occurrenceDate

def findOccurrenceOnDate (occurrences : List SeriesOccurrence) (occurrenceDate : Int) :
    Option SeriesOccurrence :=
  occurrences.find? fun occurrence => occurrence.occurrenceDate = occurrenceDate

/-! ## The card -/

def entryIsPast (entry : RegistryEntry) (now : Moment) : Bool :=
  match entry.slotEnd, entry.seriesOccurrenceDate with
  | some slotEnd, _ => decide (slotEnd < now)
  | none, some date => decide (date < dateOf now)
  | none, none => false

def entryNeedsSlotUpdate (entry : RegistryEntry) (occurrence : SeriesOccurrence) : Bool :=
  entry.seriesOccurrenceDate ≠ some occurrence.occurrenceDate ||
  entry.slotStart ≠ some occurrence.slotStart ||
  entry.slotEnd ≠ some occurrence.slotEnd ||
  entry.outlookItemId ≠ occurrence.outlookItemId ||
  entry.subject ≠ (if occurrence.subject = "" then entry.subject else some occurrence.subject)

/-- `occurrence.subject or meeting.title`. -/
def subjectOf (occurrence : SeriesOccurrence) : String :=
  if occurrence.subject = "" then meeting.title else occurrence.subject

/-- `value or previous`, where a missing and an empty text do not count. -/
def orPrevious (value previous : Option String) : Option String :=
  match value with
  | none => previous
  | some text => if text = "" then previous else some text

def applyOccurrenceToEntry (entry : RegistryEntry) (seriesId : String) (meeting : Series)
    (occurrence : SeriesOccurrence) : RegistryEntry :=
  { entry with
    title := some meeting.title
    subject := some (subjectOf meeting occurrence)
    slotStart := some occurrence.slotStart
    slotEnd := some occurrence.slotEnd
    seriesOccurrenceDate := some occurrence.occurrenceDate
    scheduledMeetingId := some seriesId
    outlookItemId := orPrevious occurrence.outlookItemId entry.outlookItemId
    outlookChangekey := orPrevious occurrence.outlookChangekey entry.outlookChangekey
    outlookMeetingUrl := orPrevious meeting.outlookMeetingUrl entry.outlookMeetingUrl }

variable (seriesId : String)

def createEntry (meeting : Series) (occurrence : SeriesOccurrence) :
    RegistryEntry where
  scheduledMeetingId := some seriesId
  title := some meeting.title
  subject := some (subjectOf meeting occurrence)
  slotStart := some occurrence.slotStart
  slotEnd := some occurrence.slotEnd
  stage := .scheduled
  seriesOccurrenceDate := some occurrence.occurrenceDate
  outlookItemId := occurrence.outlookItemId
  outlookChangekey := occurrence.outlookChangekey
  outlookMeetingUrl := meeting.outlookMeetingUrl

inductive SyncAction where
  | created
  | rolled
  | updated
  | skipped
  | noOccurrences
  deriving DecidableEq

/-- `MeetingRegistryEventType`, those of a synchronisation. -/
inductive RegistryEventType where
  | stageChanged
  | rescheduled
  | occurrenceRolled

/-- The event that a synchronisation with this answer appends. -/
def SyncAction.event : SyncAction → Option RegistryEventType
  | .created => some .stageChanged
  | .rolled => some .occurrenceRolled
  | .updated => some .rescheduled
  | .skipped | .noOccurrences => none

/-- Whether it runs `recreate_protocol_draft_on_reschedule`. -/
def SyncAction.recreatesDraft : SyncAction → Bool
  | .rolled | .updated => true
  | _ => false

/-- `SyncResult`, less the id of the card. -/
structure SyncResult where
  action : SyncAction
  occurrenceDate : Option Int
  syncSource : OccurrenceSource
  message : Option String
  deriving DecidableEq

def leave (action : SyncAction) (syncSource : OccurrenceSource) (message : Option String) :
    SyncResult :=
  { action, occurrenceDate := none, syncSource, message }

/-- What a synchronisation does with the card that it has found: the answer, and the card when it
is written. -/
def syncCard (meeting : Series) (occurrences : List SeriesOccurrence)
    (syncSource : OccurrenceSource) (now : Moment) :
    Option RegistryEntry → SyncResult × Option RegistryEntry
  | none =>
    match findNextOccurrence occurrences now with
    | none => (leave .noOccurrences syncSource (some "Нет будущих вхождений"), none)
    | some target =>
      (⟨.created, some target.occurrenceDate, syncSource, none⟩,
        some (createEntry seriesId meeting target))
  | some entry =>
    if entry.stage = .cancelled then (leave .skipped .none (some "Карточка отменена"), none)
    else if entryIsPast entry now then
      let target := match entry.seriesOccurrenceDate with
        | some previousDate => findNextAfter occurrences previousDate
        | none => findNextOccurrence occurrences now
      match target with
      | none =>
        (leave .noOccurrences syncSource (some "Серия завершена, следующих вхождений нет"), none)
      | some target =>
        (⟨.rolled, some target.occurrenceDate, syncSource, none⟩,
          some { applyOccurrenceToEntry entry seriesId meeting target with stage := .scheduled })
    else
      let onDate := entry.seriesOccurrenceDate.bind (findOccurrenceOnDate occurrences)
      match onDate.or (findNextOccurrence occurrences now) with
      | none => (leave .noOccurrences syncSource none, none)
      | some target =>
        if entryNeedsSlotUpdate entry target then
          (⟨.updated, some target.occurrenceDate, syncSource, none⟩,
            some (applyOccurrenceToEntry entry seriesId meeting target))
        else (⟨.skipped, some target.occurrenceDate, syncSource, none⟩, none)

/-- A synchronisation of a series: what it reads of the series and of the calendar, the moment that
gives the first day of the range, and the moment that the card is compared with. -/
structure Sync where
  meeting : Option Series
  items : Option (List CalendarItem)
  resolvedAt : Moment
  now : Moment

/-- The occurrences of a series that is planned in the calendar, or the answer of one that is not. -/
def Sync.resolve (sync : Sync) :
    Except String (SyncResult ⊕ Series × List SeriesOccurrence × OccurrenceSource) :=
  match sync.meeting with
  | none => .ok (.inl (leave .skipped .none (some "Серия не найдена")))
  | some meeting =>
    if meeting.status ≠ .planned then
      .ok (.inl (leave .skipped .none (some ("Серия в статусе " ++ meeting.status.value))))
    else if meeting.outlookSeriesId = none ∨ meeting.outlookSeriesId = some "" then
      .ok (.inl (leave .skipped .none (some "Серия ещё не распланирована в Outlook")))
    else
      (resolveSeriesOccurrences meeting sync.items (dateOf sync.resolvedAt)
        meeting.recurrence.seriesEndDate).map fun (occurrences, syncSource) =>
          if occurrences = [] then
            .inl (leave .noOccurrences syncSource (some "Не найдены вхождения серии"))
          else .inr (meeting, occurrences, syncSource)

/-- The card of a series, of `get_entry_by_scheduled_meeting_id`. -/
def cardOf (registry : List RegistryEntry) : Option RegistryEntry :=
  firstOf RegistryEntry.scheduledMeetingId registry (some seriesId)

def writeCard (entry : RegistryEntry) (registry : List RegistryEntry) :
    List RegistryEntry :=
  (changeFirst RegistryEntry.scheduledMeetingId (some seriesId) (fun _ => some entry)
    registry).getD (registry ++ [entry])

def syncSeriesCard (sync : Sync) (registry : List RegistryEntry) :
    Except String (SyncResult × List RegistryEntry) :=
  sync.resolve.map fun
    | .inl answer => (answer, registry)
    | .inr (meeting, occurrences, syncSource) =>
      let (answer, written) :=
        syncCard seriesId meeting occurrences syncSource sync.now (cardOf seriesId registry)
      (answer, written.elim registry fun entry => writeCard seriesId entry registry)

end AgentBack.Meetings
