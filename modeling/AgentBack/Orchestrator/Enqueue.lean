import AgentBack.Orchestrator.Records

/-!
# Role tasks (`services/procurement_orchestrator_service.py`)

What the operations of the orchestrator share: the history, the cancellation of the current task,
and `_enqueue_role_agent` with the choice of the agent and the completion key.
-/

namespace AgentBack.Orchestrator

/-! ## The state -/

def State.withCase (f : Case → Case) (s : State) : State := { s with case := f s.case }

def State.withMetadata (f : Metadata → Metadata) (s : State) : State :=
  { s with case := { s.case with metadata := f s.case.metadata } }

def Metadata.withDesk (desk : Desk) (f : Workspace → Workspace) (m : Metadata) : Metadata :=
  { m with desk := fun d => if d = desk then f (m.desk d) else m.desk d }

/-- The metadata after a change of a workspace. -/
def State.withDesk (desk : Desk) (f : Workspace → Workspace) (s : State) : State :=
  s.withMetadata (Metadata.withDesk desk f)

/-- `db.get(Task, task_id)`. -/
def State.task? (s : State) (id : TaskId) : Option Task := s.tasks[id]?

def State.currentTask? (s : State) : Option Task := s.case.currentTaskId.bind s.task?

def State.withTask (id : TaskId) (f : Task → Task) (s : State) : State :=
  { s with tasks := s.tasks.modify id f }

def State.setTaskStatus (id : TaskId) (status : TaskStatus) (s : State) : State :=
  s.withTask id fun task => { task with status }

/-- `_append_event`: an event whose key the history has already is left out. -/
def State.appendEvent (eventType idempotencyKey : String) (previousStatus : Option CaseStatus)
    (newStatus : CaseStatus) (s : State) : State :=
  if s.events.any fun event => event.idempotencyKey == idempotencyKey then s
  else { s with events := s.events ++ [⟨eventType, idempotencyKey, previousStatus, newStatus⟩] }

/-- An event that says the status on both sides. -/
def State.noteEvent (eventType idempotencyKey : String) (s : State) : State :=
  s.appendEvent eventType idempotencyKey (some s.case.status) s.case.status

def State.clearCurrent (s : State) : State :=
  s.withCase fun c => { c with currentTaskId := none, currentAgentId := none }

/-- `_cancel_current_task` of the orchestrator. -/
def State.cancelCurrentTask (s : State) : State :=
  match s.case.currentTaskId with
  | none => s
  | some id =>
    let s := match s.task? id with
      | some task => if task.status.blocking then s.setTaskStatus id .cancelled else s
      | none => s
    s.clearCurrent

def cutKey (key : String) : String := String.ofList (key.toList.take 255)

section
variable (env : Env)

def Case.montage (c : Case) : Bool := env.isMontage c.departmentName

/-- The engineer decided, or waits for the decision to be confirmed. -/
def Workspace.decided (w : Workspace) : Bool :=
  w.archivedAt.isSome || w.actionAt.isSome ||
    (w.status == some .awaitingAction && w.decisionKind.isSome)

def Case.withDispatcher (c : Case) : Bool :=
  ((c.metadata.desk .engineer).handoffAgentId == some productionDispatcher ||
      c.currentAgentId == some productionDispatcher) &&
    c.controlPoint == some "chief_dispatcher"

def Case.withOmto (c : Case) : Bool :=
  (c.metadata.desk .picker).handoffAgentId == some omtoChief ||
    (c.metadata.desk .complex).handoffAgentId == some omtoChief ||
    (c.currentAgentId == some omtoChief && c.controlPoint == some "omto")

def resolveRoleAgentId (c : Case) : AgentId :=
  if c.sourceType = .productionMaterialOrder then
    if (c.metadata.desk .manager).status = some .awaitingAction ∧ c.metadata.coverageStatus = some .full
      then purchaseManager
    else if c.withOmto then omtoChief
    else if c.montage env then warehousePicker
    else if (c.metadata.desk .engineer).decided && c.withDispatcher then productionDispatcher
    else warehouseComplexChief
  else if c.withDispatcher then productionDispatcher
  else agentIdForSource c.sourceType

def roleCompletionKey (c : Case) (agentId : AgentId) : String :=
  let revision := c.contentHash
  let revision :=
    if agentId ∈ [productionPreparationEngineer, warehousePicker, warehouseComplexChief] then
      match c.sourceSyncedAt with
      | some synced => revision ++ ":" ++ synced
      | none => revision
    else revision
  let revision :=
    if agentId = productionDispatcher then
      match ((c.metadata.desk .engineer).output.bind StoredOutput.output).bind
          Output.evidenceFingerprint, c.sourceSyncedAt with
      | some fingerprint, _ => revision ++ ":" ++ fingerprint
      | none, some synced => revision ++ ":" ++ synced
      | none, none => revision
    else revision
  let revision :=
    if agentId = purchaseManager then
      match c.metadata.coverageFingerprint with
      | some fingerprint => revision ++ ":" ++ fingerprint
      | none => revision
    else revision
  agentId ++ ":" ++ revision

/-- The agent that `_enqueue_role_agent` gives the case to. -/
def nextAgentId (c : Case) : AgentId :=
  ((c.metadata.nextQualityAgent).orElse fun _ => agentIdForQualityStatus c.status).getD
    (resolveRoleAgentId env c)

/-! ## `_enqueue_role_agent` -/

/-- The current task stands in the way of a new one with the key. -/
def blockedBy (completionKey : String) (task : Task) : Bool :=
  task.status.blocking && !(task.status.waiting && decide (task.roleCompletionKey ≠ completionKey))

/-- The way is made free: a task that waits for an older snapshot is cancelled. -/
def releaseCurrent (completionKey : String) (s : State) : State :=
  match s.case.currentTaskId with
  | none => s
  | some id =>
    let s := match s.task? id with
      | some task =>
        if task.status.waiting && decide (task.roleCompletionKey ≠ completionKey) then
          (s.setTaskStatus id .cancelled).clearCurrent
        else s
      | none => s
    s.withCase fun c => { c with currentTaskId := none }

def Workspace.hasOutput (w : Workspace) : Bool := (w.output.bind StoredOutput.output).isSome

def coverageOutput : Option Output := some ⟨none, none, none, none, false⟩

/-- A workspace without the keys of the last decision. -/
def Workspace.cleared (w : Workspace) : Workspace :=
  { w with
    archivedAt := none
    archivedBucket := none
    decisionKind := none
    actionAt := none
    actionBy := none
    criticalAcknowledgedAt := none
    criticalAcknowledgedBy := none }

/-- The workspace of an agent whose task starts. -/
def openDesk (now : Time) (w : Workspace) : Workspace :=
  { w with
    invokedAt := some (w.invokedAt.getD now)
    status := some .processing }

/-- The control point that is one of those given, or none, becomes another. -/
def advanceControlPoint (before : List String) (after : String) (controlPoint : Option String) :
    Option String :=
  match controlPoint with
  | none => some after
  | some point => if point ∈ before then some after else some point

/-- What a new task of an agent does to the workspaces and the control point. -/
def openWorkspace (agentId : AgentId) (now : Time) (s : State) : State :=
  if agentId = productionPreparationEngineer then
    s.withDesk .engineer fun w => (openDesk now w).cleared
  else if agentId = productionDispatcher then
    s.withDesk .dispatcher fun w => (openDesk now w).cleared
  else
    match warehouseAvailabilitySpec agentId with
    | some desk =>
      (s.withDesk desk fun w => (openDesk now w).cleared).withCase fun c =>
        { c with controlPoint := advanceControlPoint ["", "basis", "data"] "coverage" c.controlPoint }
    | none =>
      if agentId = purchaseManager then
        (s.withDesk .manager fun w => { openDesk now w with archivedAt := none }).withCase fun c =>
          { c with controlPoint :=
              advanceControlPoint ["", "basis", "data", "coverage"] "purchase" c.controlPoint }
      else s

/-- The agents that are assigned next to a new task. -/
def assignedFor (agentId : AgentId) (c : Case) : List AgentId :=
  if (warehouseAvailabilitySpec agentId).isSome ∧ c.metadata.coverageStatus = some .partly then
    [agentId, purchaseManager]
  else [agentId]

def startTask (agentId : AgentId) (completionKey : String) (now : Time) (s : State) : State :=
  let runKey := cutKey ("role:" ++ s.case.id ++ ":" ++ completionKey)
  let s : State :=
    { s with
      case :=
        { s.case with
          currentTaskId := some s.tasks.length
          currentAgentId := some agentId
          assignedAgents := assignedFor agentId s.case }
      tasks := s.tasks ++ [⟨agentId, completionKey, .pending, none, s.case.revision⟩] }
  (openWorkspace agentId now s).noteEvent "role_agent_task_enqueued" (cutKey (runKey ++ ":enqueued"))

def enqueueRoleAgent (now : Time) (s : State) : State :=
  if s.case.status.terminal then s
  else
    let agentId := nextAgentId env s.case
    let completionKey := roleCompletionKey s.case agentId
    if s.case.metadata.roleAgentCompletionKey = some completionKey then s
    else if s.currentTask?.any (blockedBy completionKey) then s
    else startTask agentId completionKey now (releaseCurrent completionKey s)

end

end AgentBack.Orchestrator
