import AgentBack.Meetings.SeriesCard

/-!
# The protocol of a registry entry (`services/meeting_protocol_draft_service.py`)

One row of the registry, the protocols that 1C holds for it, and the database sessions that work on
the row at the same time: `create_protocol_draft_for_entry`, and from
`services/meeting_registry_service.py` `upsert_from_invite`, `apply_reschedule`, `mark_cancelled` and
`sync_protocol_stages`.

A session reads the row once, as it was last committed, and computes with what it read. A flush sends
the columns whose value differs from the one that was read and locks the row until the session
commits or rolls back; a session that calls 1C while it holds the lock commits in a step of its own,
the others flush and commit in one. Of the row the stage and the key of the protocol are modelled, and
an entry that is not in the registry yet is not.
-/

namespace AgentBack.Meetings

def stageIndex : RegistryStage → Int
  | .scheduled => 0
  | .invitationsSent => 1
  | .protocolCreated => 2
  | .protocolConducted => 3
  | .meetingCompleted => 4
  | .cancelled => -1

/-- `MeetingRegistryEntry`, as far as the protocol goes. -/
structure ProtocolRow where
  stage : RegistryStage
  protocolRefKey : Option String
  deriving DecidableEq

namespace ProtocolRow

/-- `bool(entry.protocol_ref_key)`. -/
def hasProtocol (row : ProtocolRow) : Bool :=
  match row.protocolRefKey with
  | none => false
  | some refKey => decide (refKey ≠ "")

/-- The row after a flush of a session that read `loaded` and now has `view`. -/
def flushed (loaded view current : ProtocolRow) : ProtocolRow where
  stage := if view.stage = loaded.stage then current.stage else view.stage
  protocolRefKey :=
    if view.protocolRefKey = loaded.protocolRefKey then current.protocolRefKey
    else view.protocolRefKey

/-- `recreate_protocol_draft_on_reschedule`: the protocol to delete at 1C, and the entry after
that. -/
def recreateOnReschedule (entry : ProtocolRow) : Option String × ProtocolRow :=
  if entry.hasProtocol then
    (entry.protocolRefKey,
      { stage := if entry.stage = .protocolCreated then .invitationsSent else entry.stage
        protocolRefKey := none })
  else (none, entry)

end ProtocolRow

def protocolStatusKey (casefold : String → String) (status : Option String) : Option String := do
  let normalized := Text.strip (← status)
  if normalized = "" then none
  else some (casefold (String.ofList
    (normalized.toList.filter fun c => c ≠ ' ' ∧ c ≠ Char.ofNat 0xa0)))

def stageForProtocolStatus (casefold : String → String) (status : Option String) :
    Option RegistryStage :=
  match protocolStatusKey casefold status with
  | none => none
  | some key =>
    if key ∈ ["наисполнении", "закрыт", "закрыто"] then some .meetingCompleted else none

def protocolSyncSkipStages : List RegistryStage := [.meetingCompleted, .cancelled]

/-! ## Sessions -/

inductive Phase where
  /-- `create_protocol_draft_for_entry`, past its guards. -/
  | creating
  /-- `create_protocol_draft_for_entry`, with the answer of 1C. -/
  | created (refKey : String)
  | inviting
  | rescheduling
  | cancelling
  | syncing
  /-- Holds the lock and waits for 1C to delete a protocol, to leave the row `next`. -/
  | deleting (refKey : String) (next : ProtocolRow)
  | committing (next : ProtocolRow)
  deriving DecidableEq

structure Session where
  loaded : ProtocolRow
  phase : Phase
  deriving DecidableEq

/-- `1C` has the session's new protocol, and the row does not name it yet. -/
def Session.isCreated (session : Session) : Bool :=
  match session.phase with
  | .created _ => true
  | _ => false

/-- The row, the protocols of the entry that 1C holds, and the sessions at work. -/
structure World where
  row : ProtocolRow
  protocols : List String
  sessions : Dict Nat Session
  /-- The session that holds the lock of the row. -/
  writer : Option Nat

inductive Operation where
  /-- A Celery run when the draft is due, or a forced one. -/
  | create (force due : Bool)
  | invite
  | reschedule
  | cancel
  | sync

/-- What comes of `create_meeting_protocol`; one that raises may leave a document. -/
inductive PostAnswer where
  | made (refKey : String)
  | failed (left : Option String)

/-- What comes of `delete_meeting_protocol`; one that raises may have deleted. -/
inductive DeleteAnswer where
  | done
  | failed (gone : Bool)

inductive Event where
  | load (id : Nat) (operation : Operation)
  | post (id : Nat) (answer : PostAnswer)
  | delete (id : Nat) (answer : DeleteAnswer)
  /-- The session flushes and commits; one that syncs has read the status. -/
  | write (id : Nat) (status : Option String)
  /-- The session ends and leaves the row: an exception, or a worker that is gone. -/
  | stop (id : Nat)

def Event.id : Event → Nat
  | load id _ => id
  | post id _ => id
  | delete id _ => id
  | write id _ => id
  | stop id => id

namespace World

variable (world : World)

/-- Some session has a protocol that the row does not name yet. -/
def recording : Bool := world.sessions.values.any Session.isCreated

/-- A session is over, and its lock is free. -/
def drop (id : Nat) : World :=
  { world with
    sessions := world.sessions.erase id
    writer := if world.writer = some id then none else world.writer }

def commit (id : Nat) (next : ProtocolRow) : World := { world.drop id with row := next }

/-- A session commits a row, after 1C has deleted the protocol that it names. -/
def settle (id : Nat) (loaded : ProtocolRow) (target : Option String) (next : ProtocolRow) : World :=
  match target with
  | none => world.commit id next
  | some refKey =>
    { world with
      sessions := world.sessions.set id ⟨loaded, .deleting refKey next⟩
      writer := some id }

/-- The phase in which an operation goes on after it has read the row, if it does. -/
def opened : Operation → Option Phase
  | .create force due =>
    if world.row.stage = .cancelled then none
    else if world.row.hasProtocol then none
    else if force ∨ due then some .creating
    else none
  | .invite => some .inviting
  | .reschedule => some .rescheduling
  | .cancel => if world.row.stage = .cancelled then none else some .cancelling
  | .sync =>
    match world.row.protocolRefKey with
    | none => none
    | some refKey =>
      if world.row.stage ∉ protocolSyncSkipStages ∧ Text.strip refKey ≠ "" then some .syncing
      else none

def load (id : Nat) (operation : Operation) : World :=
  match world.sessions.get? id, world.opened operation with
  | none, some phase => { world with sessions := world.sessions.set id ⟨world.row, phase⟩ }
  | _, _ => world

/-- 1C answers a session that creates a protocol. -/
def post (id : Nat) (answer : PostAnswer) : World :=
  match world.sessions.get? id with
  | some ⟨loaded, .creating⟩ =>
    match answer with
    | .made refKey =>
      -- 1C gives every document a key
      if refKey = "" then world
      else
        { world with
          protocols := world.protocols ++ [refKey]
          sessions := world.sessions.set id ⟨loaded, .created refKey⟩ }
    | .failed left => { world.drop id with protocols := world.protocols ++ left.toList }
  | _ => world

/-- 1C answers a session that deletes a protocol. -/
def delete (id : Nat) (answer : DeleteAnswer) : World :=
  match world.sessions.get? id with
  | some ⟨loaded, .deleting refKey next⟩ =>
    match answer with
    | .done =>
      if refKey ∈ world.protocols then
        { world with
          protocols := world.protocols.filter (· ≠ refKey)
          sessions := world.sessions.set id ⟨loaded, .committing next⟩ }
      else world
    | .failed gone =>
      { world.drop id with
        protocols := if gone then world.protocols.filter (· ≠ refKey) else world.protocols }
  | _ => world

/-- A session that has the row to itself flushes, and commits if it need not call 1C. -/
def flush (casefold : String → String) (id : Nat) (loaded : ProtocolRow) (status : Option String) :
    Phase → World
  | .created refKey => world.commit id (loaded.flushed ⟨.protocolCreated, some refKey⟩ world.row)
  | .inviting =>
    let entry := { loaded with stage := .invitationsSent }
    if loaded.stage = .cancelled then
      -- the key is the one that was read: the row is not read again
      let recreated := entry.recreateOnReschedule
      world.settle id loaded recreated.1 (loaded.flushed recreated.2 world.row)
    else world.commit id (loaded.flushed entry world.row)
  | .rescheduling =>
    -- the row is read again under the lock
    let entry := loaded.flushed { loaded with stage := .invitationsSent } world.row
    world.settle id loaded entry.recreateOnReschedule.1 entry.recreateOnReschedule.2
  | .cancelling => world.commit id (loaded.flushed { loaded with stage := .cancelled } world.row)
  | .syncing =>
    match stageForProtocolStatus casefold status with
    | none => world.drop id
    | some target =>
      if stageIndex target ≤ stageIndex loaded.stage then world.drop id
      else world.commit id (loaded.flushed { loaded with stage := target } world.row)
  | .creating => world
  | .deleting _ _ => world
  | .committing next => world.commit id next

/-- A session writes, once no other one holds the lock. -/
def write (casefold : String → String) (id : Nat) (status : Option String) : World :=
  match world.sessions.get? id with
  | none => world
  | some session =>
    if world.writer = none ∨ world.writer = some id then
      world.flush casefold id session.loaded status session.phase
    else world

def after (casefold : String → String) : Event → World
  | .load id operation => world.load id operation
  | .post id answer => world.post id answer
  | .delete id answer => world.delete id answer
  | .write id status => world.write casefold id status
  | .stop id => world.drop id

/-- An entry that was just put in the registry. -/
def fresh (stage : RegistryStage) : World := ⟨⟨stage, none⟩, [], ∅, none⟩

end World

structure StageCounts where
  all : ℕ
  approved : ℕ
  cancelled : ℕ
  invitationsSent : ℕ
  protocolCreated : ℕ
  protocolConducted : ℕ
  meetingCompleted : ℕ

/-- The body of the loop of `build_stage_counts`. -/
def countEntry (counts : StageCounts) (entry : ProtocolRow) : StageCounts :=
  let index := stageIndex entry.stage
  { counts with
    invitationsSent := counts.invitationsSent + if 0 ≤ index then 1 else 0
    protocolCreated := counts.protocolCreated + if 1 ≤ index then 1 else 0
    protocolConducted := counts.protocolConducted + if 2 ≤ index then 1 else 0
    meetingCompleted := counts.meetingCompleted + if 3 ≤ index then 1 else 0 }

def buildStageCounts (entries : List ProtocolRow) : StageCounts :=
  let total := entries.length
  let activeEntries := entries.filter fun entry => entry.stage ≠ .cancelled
  activeEntries.foldl countEntry
    { all := total
      approved := activeEntries.length
      cancelled := total - activeEntries.length
      invitationsSent := 0
      protocolCreated := 0
      protocolConducted := 0
      meetingCompleted := 0 }

end AgentBack.Meetings
