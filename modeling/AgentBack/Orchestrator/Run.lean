import AgentBack.Orchestrator.Reconcile

/-!
# Results and confirmations (`services/procurement_orchestrator_service.py`)

`_apply_role_agent_result` and the operations that reach it: a run of the role agent, a resume from
outside, and the confirmations of a decision by a user.
-/

namespace AgentBack.Orchestrator

section
variable (env : Env)

/-! ## `_apply_role_agent_result` -/

/-- The output of a role goes into its workspace. -/
def storeOutput (stored : StoredOutput) (w : Workspace) : Workspace :=
  { w with output := some stored, decisionKind := stored.output.bind Output.decisionKind }

/-- The output of the purchase manager goes into its workspace. -/
def storeManagerOutput (stored : StoredOutput) (w : Workspace) : Workspace :=
  { w with output := some stored, status := some .awaitingAction }

def nextQualityAgentAfter (result : RoleResult) (m : Metadata) : Option AgentId :=
  match result.output.bind Output.nextAgent with
  | some agentId => some agentId
  | none => if result.roleStatus = .completed then none else m.nextQualityAgent

variable (agentId : AgentId)

def recordOutput (result : RoleResult) (sourceData : Revision) (m : Metadata) :
    Metadata :=
  let stored : StoredOutput := ⟨result.output, sourceData⟩
  if agentId = productionPreparationEngineer then m.withDesk .engineer (storeOutput stored)
  else if agentId = productionDispatcher then m.withDesk .dispatcher (storeOutput stored)
  else
    match warehouseAvailabilitySpec agentId with
    | some desk => m.withDesk desk (storeOutput stored)
    | none =>
      if agentId = purchaseManager then m.withDesk .manager (storeManagerOutput stored)
      else if agentId ∈ qualityRoleAgentIds then
        { m with nextQualityAgent := nextQualityAgentAfter result m }
      else m

def qualityStatus (result : RoleResult) : Option CaseStatus :=
  if agentId ∈ qualityRoleAgentIds then result.output.bind Output.nextStatus else none

def waitingDesk : Option Desk :=
  if agentId = productionPreparationEngineer then some .engineer
  else if agentId = productionDispatcher then some .dispatcher
  else warehouseAvailabilitySpec agentId

variable (id : TaskId)

variable (result : RoleResult)

def applyWaitingHuman (s : State) : State :=
  let s := (s.setTaskStatus id .waitingHuman).withCase fun c =>
    { c with status := (qualityStatus agentId result).getD .agentWaiting }
  match waitingDesk agentId with
  | some desk => s.withDesk desk fun w => { w with status := some .awaitingAction }
  | none => s

def applyWaitingExternal (s : State) : State :=
  (s.setTaskStatus id .waitingExternal).withCase fun c =>
    { c with status := if agentId = purchaseManager then .ordered else .agentWaiting }

def dispatcherBucket (decision : String) : Bucket :=
  if decision = "critical_acknowledgement" then .critical
  else if decision = "supply_confirmation" then .attention
  else .success

def availabilityDecisions : List String :=
  ["stock_confirmation", "deficit_confirmation", "discrepancy_return"]

def availabilityBucket (decision : String) : Bucket :=
  if decision = "critical_acknowledgement" then .critical
  else if decision ∈ availabilityDecisions then .attention
  else .success

def doneDesk (bucket : Bucket) (now : Time) (w : Workspace) : Workspace :=
  { w with status := some .archived, archivedAt := some now, archivedBucket := some bucket }

def completedStatus : CaseStatus :=
  match qualityStatus agentId result with
  | some .qualityReleased => .closed
  | some status => status
  | none => .new

/-- The final stage of quality control closes the case. -/
def closeReleased (now : Time) (c : Case) : Case :=
  if qualityStatus agentId result = some .qualityReleased then
    { c with closedAt := some now, closedReason := some "quality_released" }
  else c

/-- The case after a completed task, before the hand-off. -/
def completeCase (completionKey : Option String) (now : Time) (c : Case) : Case :=
  let c := closeReleased agentId result now
    { c with
      status := completedStatus agentId result
      metadata := { c.metadata with roleAgentCompletionKey := completionKey } }
  let c :=
    if agentId = productionDispatcher then
      { c with
        controlPoint := some "coverage"
        metadata := c.metadata.withDesk .dispatcher
          (doneDesk (dispatcherBucket
            ((result.output.bind Output.decisionKind).getD "none")) now) }
    else c
  { c with currentTaskId := none, currentAgentId := none }

/-- The case is handed to the next role, which gets a task. -/
def handOff (desk : Desk) (bucket : Bucket) (nextAgent : AgentId) (controlPoint : String)
    (eventType idempotencyKey : String) (previous : CaseStatus) (now : Time) (s : State) : State :=
  let s := (s.withDesk desk fun w =>
    { doneDesk bucket now w with handoffAgentId := some nextAgent }).withCase fun c =>
    { c with
      controlPoint := some controlPoint
      currentAgentId := some nextAgent
      assignedAgents := [nextAgent] }
  enqueueRoleAgent env now (s.appendEvent eventType idempotencyKey (some previous) s.case.status)

def availabilityDecision (desk : Desk) (result : RoleResult) (m : Metadata) : String :=
  ((result.output.bind Output.decisionKind).orElse fun _ => (m.desk desk).decisionKind).getD "none"

def handOffAfter (previous : CaseStatus) (now : Time) (s : State) : State :=
  if agentId = productionPreparationEngineer then
    handOff env .engineer
      (if (result.output.map Output.hasDeficit).getD false then .attention else .success)
      productionDispatcher "chief_dispatcher" "engineer_handoff_to_chief_dispatcher"
      (cutKey ("engineer-handoff:" ++ s.case.id ++ ":" ++ toString id)) previous now s
  else
    match warehouseAvailabilitySpec agentId with
    | some desk =>
      handOff env desk (availabilityBucket (availabilityDecision desk result s.case.metadata))
        omtoChief "omto" (desk.name ++ "_handoff_to_omto_chief")
        (cutKey (desk.name ++ "-handoff:" ++ s.case.id ++ ":" ++ toString id)) previous now s
    | none => s

def applyCompleted (now : Time) (s : State) : State :=
  let completionKey := (s.task? id).map Task.roleCompletionKey
  let done := (s.setTaskStatus id .completed).withCase
    (completeCase agentId result completionKey now)
  handOffAfter env agentId id result s.case.status now done

def applyFailed (s : State) : State :=
  (s.setTaskStatus id .failed).withCase fun c => { c with status := .blocked }

def roleStatusText : RoleStatus → String
  | .waitingHuman => "waiting_human"
  | .waitingExternal => "waiting_external"
  | .completed => "completed"
  | .failed => "failed"

/-- The state with the output of a result in the metadata and in its task. -/
def recordResult (sourceData : Revision) (s : State) : State :=
  (s.withMetadata (recordOutput agentId result sourceData)).withTask id fun task =>
    { task with finalResult := some result }

/-- What a result does, once it is recorded. -/
def applyRoleStatus (now : Time) (s : State) : State :=
  match result.roleStatus with
  | .waitingHuman => applyWaitingHuman agentId id result s
  | .waitingExternal => applyWaitingExternal agentId id s
  | .completed => applyCompleted env agentId id result now s
  | .failed => applyFailed id s

def resultKey : String :=
  "role-result:" ++ toString id ++ ":" ++ roleStatusText result.roleStatus ++ ":" ++ env.digest result

def applyRoleAgentResult (eventType : String) (id : TaskId) (result : RoleResult) (now : Time)
    (s : State) : State :=
  match s.task? id with
  | none => s
  | some task =>
    let result := { result with agentId := result.agentId.orElse fun _ => s.case.currentAgentId }
    let agentId := result.agentId.getD ""
    let done := applyRoleStatus env agentId id result now
      (recordResult agentId id result task.sourceData s)
    done.appendEvent eventType (resultKey env id result) (some s.case.status) done.case.status

/-- `execute_case_task` up to the run of the agent: without a state the task is not current. -/
def beginCaseTask (s : State) : Option State :=
  if (s.task? id).isSome ∧ s.case.currentTaskId = some id then some (s.setTaskStatus id .running)
  else none

/-- `execute_case_task` after the run of the agent. -/
def finishCaseTask (now : Time) (s : State) : State :=
  applyRoleAgentResult env "role_agent_result_received" id result now s

def resumeCaseAgent (now : Time) (s : State) : State :=
  match s.case.currentTaskId, s.currentTask? with
  | some id, some task =>
    if task.status.waiting || task.status == .failed then
      applyRoleAgentResult env "role_agent_resumed" id result now s
    else s
  | _, _ => s

/-! ## Confirmations -/

inductive Answer where
  | completed
  | waitingForSourceUpdate
  deriving DecidableEq

structure Confirmation where
  desk : Desk
  /-- The buckets of an archived workspace that is taken for confirmed. -/
  doneBuckets : List Bucket
  decisions : List String
  eventType : String
  keyName : String
  /-- The agent that the payload names, when it is not that of the last result. -/
  agentId : Option AgentId

def confirmEngineerPurchase : Confirmation where
  desk := .engineer
  doneBuckets := [.attention]
  decisions := ["purchase_confirmation"]
  eventType := "engineer_purchase_confirmed"
  keyName := "engineer-purchase-confirmed:"
  agentId := none

def confirmDispatcherSupply : Confirmation where
  desk := .dispatcher
  doneBuckets := [.attention, .success]
  decisions := ["supply_confirmation"]
  eventType := "dispatcher_supply_confirmed"
  keyName := "dispatcher-supply-confirmed:"
  agentId := none

def confirmWarehouseAvailabilityConclusion (desk : Desk) : Confirmation where
  desk := desk
  doneBuckets := [.attention, .success]
  decisions := availabilityDecisions
  eventType := desk.name ++ "_conclusion_confirmed"
  keyName := desk.name ++ "-conclusion-confirmed:"
  agentId := some desk.agentId

/-- The confirmation of a role; the purchase manager has none. -/
def confirmationOf : Desk → Option Confirmation
  | .engineer => some confirmEngineerPurchase
  | .dispatcher => some confirmDispatcherSupply
  | .picker => some (confirmWarehouseAvailabilityConclusion .picker)
  | .complex => some (confirmWarehouseAvailabilityConclusion .complex)
  | .manager => none

/-- The workspace is archived in one of the buckets that a confirmation takes for its own. -/
def Confirmation.doneBefore (k : Confirmation) (w : Workspace) : Bool :=
  w.status == some .archived && w.archivedBucket.any fun bucket => decide (bucket ∈ k.doneBuckets)

def Confirmation.decides (k : Confirmation) (w : Workspace) : Bool :=
  w.decisionKind.any fun decision => decide (decision ∈ k.decisions)

def confirmedResult (k : Confirmation) (task : Task) (w : Workspace) : RoleResult where
  roleStatus := .completed
  agentId := k.agentId.orElse fun _ => task.finalResult.bind RoleResult.agentId
  output :=
    match task.finalResult with
    | some result => result.output
    | none => w.output.bind StoredOutput.output

/-- A confirmation by a user: the state, and the answer. -/
def confirm (k : Confirmation) (user : String) (now : Time) (s : State) : State × Option Answer :=
  let w := s.case.metadata.desk k.desk
  if k.doneBefore w then (s, some .completed)
  else if !k.decides w then (s, none)
  else
    match s.case.currentTaskId, s.currentTask? with
    | some id, some task =>
      if task.status = .waitingHuman then
        let s := (s.withDesk k.desk fun w =>
          { w with actionAt := some now, actionBy := some user }).noteEvent k.eventType
            (cutKey (k.keyName ++ toString id))
        (applyRoleAgentResult env "role_agent_resumed" id (confirmedResult k task w) now s,
          some .completed)
      else (s, none)
    | _, _ => (s, none)

/-- A call of `confirm_engineer_purchase`, of `confirm_dispatcher_supply`, or of
`confirm_warehouse_availability_conclusion` for an agent. -/
inductive ConfirmationCall where
  | engineerPurchase
  | dispatcherSupply
  | warehouseAvailability (agentId : AgentId)

/-- The confirmation that is called; an agent without a specification has none. -/
def ConfirmationCall.confirmation : ConfirmationCall → Option Confirmation
  | .engineerPurchase => some confirmEngineerPurchase
  | .dispatcherSupply => some confirmDispatcherSupply
  | .warehouseAvailability agentId =>
    (warehouseAvailabilitySpec agentId).map confirmWarehouseAvailabilityConclusion

def ConfirmationCall.run (call : ConfirmationCall) (user : String) (now : Time) (s : State) :
    State × Option Answer :=
  match call.confirmation with
  | some k => confirm env k user now s
  | none => (s, none)

/-- `acknowledge_engineer_critical` and its siblings. -/
def acknowledgeCritical (desk : Desk) (user : String) (now : Time) (s : State) :
    State × Option Answer :=
  let w := s.case.metadata.desk desk
  if w.decisionKind ≠ some "critical_acknowledgement" then (s, none)
  else if w.criticalAcknowledgedAt.isSome then (s, some .waitingForSourceUpdate)
  else
    ((s.withDesk desk fun w =>
      { w with criticalAcknowledgedAt := some now, criticalAcknowledgedBy := some user }).noteEvent
        (desk.name ++ "_critical_acknowledged")
        (cutKey (desk.name ++ "-critical-ack:" ++
          (s.case.currentTaskId.map fun id => toString id).getD s.case.id)),
      some .waitingForSourceUpdate)

end

end AgentBack.Orchestrator

/-!
# Runs of a case

The operations on one case, in any order. A worker that runs a role agent has passed the check of
`execute_case_task` and applies the result later; other operations come between.
-/

namespace AgentBack.Orchestrator

inductive Operation where
  | upsert (document : Document) (now : Time)
  | closeOutside (reason : InactiveReason) (now : Time)
  | assign (now : Time)
  | availability (desk : Desk) (stale : Bool) (now : Time)
  | migrate (now : Time)
  | purchase (stale : Bool) (now : Time)
  | supplier (evidence : Option CoverageEvidence) (now : Time)
  | journal (evidence : JournalEvidence) (now : Time)
  | resume (result : RoleResult) (now : Time)
  | confirm (desk : Desk) (user : String) (now : Time)
  | acknowledge (desk : Desk) (user : String) (now : Time)

variable (env : Env)

def Operation.apply (operation : Operation) (s : State) : State :=
  match operation with
  | upsert document now => upsertCaseFromDocument env document now s
  | closeOutside reason now => closeOutsideActiveRefs env reason now s
  | assign now => ensureActiveCaseAssignment env now s
  | availability desk stale now => ensureWarehouseAvailabilityWork env desk stale now s
  | migrate now => migrateUndecidedEngineerCase env now s
  | purchase stale now => ensurePurchaseManagerWork env stale now s
  | supplier evidence now => reconcileSupplierOrders env evidence now s
  | journal evidence now => reconcilePresentations env evidence now s
  | resume result now => resumeCaseAgent env result now s
  | confirm desk user now =>
    match confirmationOf desk with
    | some k => (Orchestrator.confirm env k user now s).1
    | none => s
  | acknowledge desk user now => (acknowledgeCritical desk user now s).1

/-- A run of the agent that a worker is in: the task, and its status before. -/
structure Running where
  task : TaskId
  before : TaskStatus
  deriving DecidableEq

structure World where
  state : State
  workers : List Running

inductive Step where
  | operation (operation : Operation)
  | start (id : TaskId)
  | finish (id : TaskId) (result : RoleResult) (now : Time)
  /-- The run raises, and the worker rolls back. -/
  | crash (id : TaskId)

/-- The status that a worker set is taken back. -/
def rollBack (worker : Running) (s : State) : State :=
  if (s.task? worker.task).any fun task => task.status == .running then
    s.setTaskStatus worker.task worker.before
  else s

/-- What a step does. A worker finishes or crashes when it has started. -/
def Step.apply (step : Step) (w : World) : World :=
  match step with
  | operation o => { w with state := o.apply env w.state }
  | start id =>
    match beginCaseTask id w.state, w.state.task? id with
    | some s, some task => ⟨s, ⟨id, task.status⟩ :: w.workers⟩
    | _, _ => w
  | finish id result now =>
    match w.workers.find? fun worker => worker.task = id with
    | some worker => ⟨finishCaseTask env id result now w.state, w.workers.erase worker⟩
    | none => w
  | crash id =>
    match w.workers.find? fun worker => worker.task = id with
    | some worker => ⟨rollBack worker w.state, w.workers.erase worker⟩
    | none => w

def World.run (w : World) (steps : List Step) : World :=
  steps.foldl (fun w step => step.apply env w) w

def World.first (id : String) (document : Document) (now : Time) : World :=
  ⟨firstPoll env id document now, []⟩

end AgentBack.Orchestrator
