import AgentBack.Meetings.Registry

/-!
# The people on the card of a series (`services/scheduled_meeting_registry_sync.py`,
`services/meeting_registry_service.py`)

The card of a series names the people of the series and those who were added to its occurrence. A
synchronisation that writes the card merges the two, and an update of the participants of a card
writes them at once. The attendees, the events and the calls to Outlook are left out.
-/

namespace AgentBack.Meetings

/-- `ScheduledMeetingParticipant`; a user or a position that is missing has no name. -/
structure SeriesParticipant where
  sortOrder : Int
  personFio : Option String
  fullName : Option String
  positionName : Option String

/-- The name of a participant, empty for one that is passed by. -/
def SeriesParticipant.name (participant : SeriesParticipant) : String :=
  let fio := Text.strip (participant.personFio.getD "")
  let fio := if fio = "" then Text.strip (participant.fullName.getD "") else fio
  if fio = "" then Text.strip (participant.positionName.getD "") else fio

/-- The entry with its `participants` and the `occurrence_participant_names` of its payload, none
where they are missing. -/
structure SeriesCard where
  entry : RegistryEntry
  participants : List String
  occurrenceParticipantNames : List String

variable (casefold : String → String)

/-- `_participant_names`, whose loop passes by what `_normalize_participant_names` does. -/
def participantNames (participants : List SeriesParticipant) : List String :=
  normalizeParticipantNames casefold
    ((sortBy SeriesParticipant.sortOrder participants).map SeriesParticipant.name)

def mergeOccurrenceParticipants (seriesNames : List String) (card : SeriesCard) : List String :=
  let seriesKeys := seriesNames.map casefold
  let extras := (card.participants ++ card.occurrenceParticipantNames).filter fun name =>
    casefold name ∉ seriesKeys
  seriesNames ++ normalizeLoop casefold seriesKeys extras

/-- `apply_participants_update`, which raises for a cancelled entry. -/
def SeriesCard.applyParticipantsUpdate (card : SeriesCard) (participants : List String) :
    Option SeriesCard :=
  if card.entry.stage = .cancelled then none
  else
    let names := normalizeParticipantNames casefold participants
    some { card with
      participants := names
      occurrenceParticipantNames :=
        if names = [] then card.occurrenceParticipantNames
        else normalizeParticipantNames casefold names }

/-- `sync_series_card` with the people of the card: those of the series on a new one. -/
def syncPeople (seriesId : String) (sync : Sync) (participants : List SeriesParticipant)
    (card : Option SeriesCard) : Except String (SyncResult × Option SeriesCard) :=
  sync.resolve.map fun
    | .inl answer => (answer, card)
    | .inr (meeting, occurrences, syncSource) =>
      let (answer, written) :=
        syncCard seriesId meeting occurrences syncSource sync.now (card.map SeriesCard.entry)
      let seriesNames := participantNames casefold participants
      (answer, match written, card with
        | none, _ => card
        | some entry, none => some ⟨entry, seriesNames, []⟩
        | some entry, some old =>
          some { old with
            entry
            participants := mergeOccurrenceParticipants casefold seriesNames old })

end AgentBack.Meetings
