import AgentBack.Base.PyValue
import AgentBack.Meetings.SeriesCard

/-!
# The payload of a registry entry (`services/meeting_registry_service.py`)

An entry of the registry of meetings carries a JSON payload: the attendees of the invitation, changes
of the participants that wait for an answer, the link to a series and the topic of the meeting. Every
operation builds the payload anew from some of the keys of the old one (`_operational_payload`).

An operation that raises has no result. The names that an invitation resolves, the answer of 1C on the
closing date of a topic and the times that are written are arguments. The slot, the texts and the
Outlook ids of an entry, its protocol and its history are left out: they do not decide the payload.
-/

namespace AgentBack.Meetings

open Py (Value)

/-- The JSON object in the column `payload`. -/
abbrev Payload := Dict String Value

/-- `payload.get(key)`. -/
def valueAt (payload : Payload) (key : String) : Value := payload.getD key .null

/-- `MeetingRegistryEntry`, as far as the operations on its payload go. -/
structure MeetingEntry where
  stage : RegistryStage
  participants : List String
  payload : Option Payload

/-- `entry.payload if isinstance(entry.payload, dict) else {}`. -/
def MeetingEntry.current (entry : MeetingEntry) : Payload := entry.payload.getD ∅

/-- `list(value or [])`; of a number that raises. -/
def listOf (value : Value) : Option (List Value) :=
  if value.truthy then
    match value with
    | .list items => some items
    | .str text => some (text.toList.map fun c => .str (String.ofList [c]))
    | .dict fields => some (fields.map fun field => .str field.1)
    | _ => none
  else some []

/-- The loop of `_normalize_participant_names`: the names not blank, each once up to case. -/
def normalizeLoop (casefold : String → String) (seen : List String) : List String → List String
  | [] => []
  | raw :: rest =>
    let name := Text.strip raw
    if name = "" ∨ casefold name ∈ seen then normalizeLoop casefold seen rest
    else name :: normalizeLoop casefold (casefold name :: seen) rest

def normalizeParticipantNames (casefold : String → String) (names : List String) : List String :=
  normalizeLoop casefold [] names

def texts (items : List String) : Value := .list (items.map .str)

def preservedPayloadKeys : List String :=
  ["source", "sync_source", "scheduled_meeting_id", "series_recurrence_label",
    "occurrence_participant_names", "meeting_topic"]

def preserveKey (preserveFrom payload : Payload) (key : String) : Payload :=
  match preserveFrom.get? key with
  | some value => if (payload.get? key).isSome then payload else payload.set key value
  | none => payload

/-- `payload[key] = value` if the value is true. -/
def setIfTrue (payload : Payload) (key : String) (value : Value) : Payload :=
  if value.truthy then payload.set key value else payload

/-- `_operational_payload`, as the operations below call it: they give no names of an occurrence. -/
def operationalPayload (attendees : List Value) (sentPayload pendingRemoval pendingAdd : Value)
    (preserveFrom : Payload) : Payload :=
  let payload := ((∅ : Payload).set "attendees" (.list attendees)).set "sent_payload"
    (if sentPayload.truthy then sentPayload else .dict [])
  let payload := setIfTrue payload "pending_removal" pendingRemoval
  let payload := setIfTrue payload "pending_add" pendingAdd
  preservedPayloadKeys.foldl (preserveKey preserveFrom) payload

/-! ## Changes of the participants that wait -/

variable (casefold : String → String)

/-- What `save_pending_removal` stores. -/
def pendingRemovalOf (participants attendees removed : List String) : Value :=
  .dict
    [("participants", texts (normalizeParticipantNames casefold participants)),
      ("attendees", texts attendees),
      ("removed", texts (normalizeParticipantNames casefold removed))]

variable (entry : MeetingEntry)

def MeetingEntry.savePendingRemoval (participants attendees removed : List String) : MeetingEntry :=
  { entry with payload := some (operationalPayload (attendees.map .str)
      (valueAt entry.current "sent_payload")
      (pendingRemovalOf casefold participants attendees removed) .null entry.current) }

/-- What `save_pending_add` stores. -/
def pendingAddOf (participants attendees added removed : List String) (keepCurrentSlot : Bool)
    (previousAttendees : List Value) (previousOccurrence : Value) : Value :=
  .dict
    [("participants", texts (normalizeParticipantNames casefold participants)),
      ("attendees", texts attendees),
      ("added", texts (normalizeParticipantNames casefold added)),
      ("removed", texts (normalizeParticipantNames casefold removed)),
      ("keep_current_slot", .bool keepCurrentSlot),
      ("previous_attendees", .list previousAttendees),
      ("previous_occurrence_participant_names", previousOccurrence)]

def MeetingEntry.savePendingAdd (participants attendees added removed : List String)
    (keepCurrentSlot : Bool) :
    Option MeetingEntry :=
  (listOf (valueAt entry.current "attendees")).map fun previousAttendees =>
    { entry with payload := some (operationalPayload previousAttendees
        (valueAt entry.current "sent_payload") .null
        (pendingAddOf casefold participants attendees added removed keepCurrentSlot
          previousAttendees (valueAt entry.current "occurrence_participant_names"))
        entry.current) }

/-- `isinstance(value, list) and len(value) > bound`. -/
def isLongerThan (value : Value) (bound : Nat) : Bool :=
  match value with
  | .list items => decide (bound < items.length)
  | _ => false

/-- The attendees that a pending addition remembers go back. -/
def restoreAttendees (pending : Value) (payload : Payload) : Payload :=
  match pending.get "previous_attendees" with
  | .list items => payload.set "attendees" (.list items)
  | _ => payload

/-- So do the names of the occurrence, if there were any. -/
def restoreOccurrence (pending : Value) (payload : Payload) : Payload :=
  match pending.get "previous_occurrence_participant_names" with
  | .null => payload.erase "occurrence_participant_names"
  | previous => payload.set "occurrence_participant_names" previous

def MeetingEntry.clearPendingAdd : MeetingEntry :=
  let pending := valueAt entry.current "pending_add"
  let payload := entry.current.erase "pending_add"
  { entry with payload := some (
      if pending.isDict then restoreOccurrence pending (restoreAttendees pending payload)
      else if isLongerThan (valueAt payload "occurrence_participant_names")
          entry.participants.length then payload.erase "occurrence_participant_names"
      else payload) }

def MeetingEntry.clearPendingRemoval : MeetingEntry :=
  { entry with payload := some (entry.current.erase "pending_removal") }

def MeetingEntry.markCancelled : Option MeetingEntry :=
  if entry.stage = .cancelled then some entry
  else
    (listOf (valueAt entry.current "attendees")).map fun attendees =>
      { entry with
        stage := .cancelled
        payload := some (operationalPayload attendees (valueAt entry.current "sent_payload") .null .null ∅) }

/-- `_sync_new_topic_closed_date`, with the closing date that 1C has set, if any, and the time. -/
def syncNewTopicClosedDate (payload : Payload) (topic : List (String × Value))
    (closed : Option (Value × Value)) : Payload :=
  match closed with
  | none => payload
  | some (closedDate, syncedAt) =>
    let stored :=
      match valueAt payload "meeting_topic" with
      | .dict (field :: fields) => field :: fields
      | _ => topic
    payload.set "meeting_topic"
      (.dict (Dict.assign "closed_date_synced_at" syncedAt (Dict.assign "closed_date" closedDate stored)))

structure Invitation where
  attendees : List String
  sentPayload : Value
  /-- the result of `resolve_registry_participant_names` -/
  names : List String
  /-- the answer of 1C on the closing date of the topic -/
  closed : Option (Value × Value)

/-- `if names: entry.participants = names`. -/
def MeetingEntry.named (names : List String) : MeetingEntry :=
  if names = [] then entry else { entry with participants := names }

def MeetingEntry.applyReschedule (invitation : Invitation) : MeetingEntry :=
  let payload := operationalPayload (invitation.attendees.map .str) invitation.sentPayload .null .null
    entry.current
  let payload :=
    match valueAt payload "meeting_topic" with
    | .dict (field :: fields) => syncNewTopicClosedDate payload (field :: fields) invitation.closed
    | _ => payload
  { entry.named invitation.names with stage := .invitationsSent, payload := some payload }

/-- `upsert_from_invite` of an entry that exists; `meetingTopic` is the topic that the invitation
brings, if any, and `resolvedAt` the time that `save_meeting_topic` writes. -/
def MeetingEntry.upsertFromInvite (invitation : Invitation) (meetingTopic : List (String × Value))
    (resolvedAt : Value) : MeetingEntry :=
  let payload := operationalPayload (invitation.attendees.map .str) invitation.sentPayload .null .null
    entry.current
  let payload :=
    if meetingTopic = [] then payload
    else syncNewTopicClosedDate
      (payload.set "meeting_topic" (.dict (Dict.assign "resolved_at" resolvedAt meetingTopic)))
      meetingTopic invitation.closed
  { entry.named invitation.names with stage := .invitationsSent, payload := some payload }

end AgentBack.Meetings
