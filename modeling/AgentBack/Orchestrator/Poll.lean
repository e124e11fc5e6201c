import AgentBack.Orchestrator.Enqueue

/-!
# Polls and passes (`services/procurement_orchestrator_service.py`)

A poll creates a case from a document, changes it, archives it or takes it up again; the passes of
the maintenance bring the tasks of the roles into line with the case. Each function says what the
operation does to one case.
-/

namespace AgentBack.Orchestrator

/-- A document of the source, as `normalize_source_document` gives it. -/
structure Document where
  sourceType : SourceType
  database : String
  refKey : String
  departmentName : Option String
  contentHash : String
  dataVersion : Option String
  positions : List Position
  skipReason : Option String
  /-- `_is_recent_source_document`. -/
  recent : Bool

def Document.pollIdempotencyKey (document : Document) : String :=
  cutKey ("poll:" ++ document.database ++ ":" ++ document.refKey ++ ":" ++
    document.dataVersion.getD document.contentHash)

/-- The keys of `CLOSED_REASON_LABELS`. -/
def closedReasonLabels : List String :=
  ["cancelled", "deletion_mark", "no_active_positions", "inactive_supply_action", "terminal_status",
    "inactive_supply_action_or_cancelled", "source_too_old", "quality_released"]

def closedReasonFromSkip (skipReason : Option String) : String :=
  match skipReason with
  | none => "inactive_supply_action_or_cancelled"
  | some reason =>
    if reason = "" then "inactive_supply_action_or_cancelled"
    else if "terminal_status:".toList <+: reason.toList then "terminal_status"
    else if reason ∈ closedReasonLabels then reason
    else "inactive_supply_action_or_cancelled"

section
variable (env : Env)

def archiveDesk (now : Time) (w : Workspace) : Workspace :=
  { w with
    archivedAt := some now
    archivedBucket := some (w.archivedBucket.getD .attention)
    status := some .archived }

/-- The workspace is archived when the test holds. -/
def archiveDeskIf (test : Bool) (desk : Desk) (now : Time) (m : Metadata) : Metadata :=
  if test then m.withDesk desk (archiveDesk now) else m

def archiveWorkspaces (c : Case) (now : Time) (m : Metadata) : Metadata :=
  let production := decide (c.sourceType = .productionMaterialOrder)
  let montage := c.montage env
  let m := archiveDeskIf (production && montage || (m.desk .picker).invokedAt.isSome) .picker now m
  let m := archiveDeskIf (production && !montage || (m.desk .complex).invokedAt.isSome) .complex now m
  let m := archiveDeskIf ((m.desk .engineer).invokedAt.isSome && !montage &&
    !(m.desk .complex).invokedAt.isSome) .engineer now m
  let m := archiveDeskIf ((m.desk .dispatcher).invokedAt.isSome ||
    decide (c.sourceType = .reorderPoint)) .dispatcher now m
  if (m.desk .manager).invokedAt.isSome || (m.desk .manager).hasOutput then
    m.withDesk .manager fun w => { w with archivedAt := some now, status := some .archived }
  else m

structure SourceMark where
  dataVersion : Option String
  contentHash : Option String

def archiveCase (closedReason eventType idempotencyKey : String) (mark : SourceMark) (now : Time)
    (s : State) : State :=
  if s.case.status.terminal then s
  else
    let previous := s.case.status
    let s := s.withCase fun c =>
      { c with
        status := .closed
        closedAt := some now
        closedReason := some closedReason
        dataVersion := mark.dataVersion.orElse fun _ => c.dataVersion
        contentHash := mark.contentHash.getD c.contentHash
        metadata := archiveWorkspaces env c now c.metadata }
    s.cancelCurrentTask.appendEvent eventType idempotencyKey (some previous) .closed

variable (document : Document)

def reactivateCase (s : State) : State :=
  (s.withCase fun c =>
    { c with
      status := .new
      closedAt := none
      closedReason := none
      controlPoint := some (if env.planningEnabled then "KT1" else "basis") }).appendEvent
    "case_reactivated_from_source" (document.pollIdempotencyKey ++ ":reactivated")
    (some s.case.status) .new

/-! ## A document of a poll -/

def Metadata.empty : Metadata := ⟨fun _ => .empty, none, none, none, none, none, none, none⟩

def createCase (id : String) (document : Document) (now : Time) : State :=
  { case :=
      { id
        sourceType := document.sourceType
        sourceRef := document.refKey
        departmentName := document.departmentName
        contentHash := document.contentHash
        dataVersion := document.dataVersion
        sourceSyncedAt := some now
        positions := document.positions
        status := .new
        closedAt := none
        closedReason := none
        controlPoint := some "basis"
        currentTaskId := none
        currentAgentId := none
        assignedAgents := []
        supplierOrderLinks := []
        metadata := .empty }
    tasks := []
    events := [⟨"case_created_from_source", document.pollIdempotencyKey ++ ":created", none, .new⟩] }

def firstPoll (id : String) (document : Document) (now : Time) : State :=
  enqueueRoleAgent env now (createCase id document now)

/-- `_update_case_card` and `_replace_positions`. -/
def updateCaseCard (c : Case) : Case :=
  { c with
    departmentName := document.departmentName
    contentHash := document.contentHash
    dataVersion := document.dataVersion
    positions := document.positions }

/-- The case holds this revision of the document already. -/
def Case.unchanged (c : Case) : Bool :=
  decide (c.dataVersion = document.dataVersion ∧ c.contentHash = document.contentHash) &&
    !c.status.terminal

/-- `_update_case_presentations`: the department is one of the names that are filled in. -/
def updateCasePresentations (c : Case) : Case :=
  { c with departmentName := document.departmentName.orElse fun _ => c.departmentName }

/-- The case passed the last stage of quality control. -/
def Case.released (c : Case) : Bool :=
  decide (c.status = .closed ∧ c.closedReason = some "quality_released")

def documentChanged (s : State) : State :=
  let wasTerminal := s.case.status.terminal
  let s := (s.withCase (updateCaseCard document)).noteEvent "source_document_changed"
    (document.pollIdempotencyKey ++ ":changed")
  if wasTerminal || s.case.status == .humanRequired then reactivateCase env document s else s

/-- `_upsert_case_from_document` on a case that exists. -/
def upsertCaseFromDocument (now : Time) (s : State) : State :=
  let s := s.withCase fun c => { c with sourceSyncedAt := some now }
  if !document.recent && s.case.status.terminal then s
  else if document.skipReason.isSome then
    archiveCase env (closedReasonFromSkip document.skipReason) "case_archived_from_source"
      (document.pollIdempotencyKey ++ ":closed")
      ⟨document.dataVersion, some document.contentHash⟩ now s
  else if s.case.released then s
  else if s.case.unchanged document then
    enqueueRoleAgent env now (s.withCase (updateCasePresentations document))
  else enqueueRoleAgent env now (documentChanged env document s)

/-- What the probe says of a case whose document is not among the active ones. -/
structure InactiveReason where
  closedReason : String
  mark : SourceMark

/-- One case in the loop of `_close_cases_outside_active_refs`. -/
def closeOutsideActiveRefs (reason : InactiveReason) (now : Time) (s : State) : State :=
  if s.case.status.monitored then
    let s := s.withCase fun c => { c with sourceSyncedAt := some now }
    archiveCase env reason.closedReason "case_archived_from_source"
      (cutKey ("archive:" ++ s.case.contentHash ++ ":" ++ reason.closedReason)) reason.mark now s
  else s

/-! ## The passes -/

/-- One case in `ensure_active_case_assignments`. -/
def ensureActiveCaseAssignment (now : Time) (s : State) : State :=
  if s.case.status.active then enqueueRoleAgent env now s else s

/-- The desk of the role stands open, and the role is assigned. -/
def availabilityAssigned (desk : Desk) (c : Case) : Bool :=
  (c.currentAgentId == some desk.agentId || decide (desk.agentId ∈ c.assignedAgents)) &&
    !(c.metadata.desk desk).archivedAt.isSome && (c.metadata.desk desk).status != some .archived

/-- The task of a role that did not hand over a result is cancelled. -/
def cancelLostTask (id : TaskId) (s : State) : State :=
  ((s.setTaskStatus id .cancelled).clearCurrent).withMetadata fun m =>
    { m with roleAgentCompletionKey := none }

/-- One case in `_ensure_warehouse_availability_work`. The flag says that the last dispatch of a
pending task is older than the interval. -/
def ensureWarehouseAvailabilityWork (desk : Desk) (stale : Bool) (now : Time) (s : State) : State :=
  if !(s.case.status.monitored && availabilityAssigned desk s.case) then s
  else
    match s.case.currentTaskId, s.currentTask? with
    | some id, some task =>
      if task.agentSlug = desk.agentId then
        if task.status = .pending then
          if stale then s.withDesk desk fun w => { w with status := some .processing } else s
        else if task.status = .planning ∨ task.status = .running then s
        else if (s.case.metadata.desk desk).hasOutput then s
        else if task.status.waiting || task.status == .failed then
          enqueueRoleAgent env now (cancelLostTask id s)
        else if task.status = .completed ∨ task.status = .cancelled then enqueueRoleAgent env now s
        else s
      else s
    | _, _ =>
      if (s.case.metadata.desk desk).hasOutput then s else enqueueRoleAgent env now s

def undecidedEngineer (c : Case) : Bool :=
  !c.montage env && !(c.metadata.desk .complex).invokedAt.isSome &&
    !(c.metadata.desk .complex).archivedAt.isSome &&
    (c.currentAgentId == some productionPreparationEngineer ||
      decide (productionPreparationEngineer ∈ c.assignedAgents) ||
      (c.metadata.desk .engineer).invokedAt.isSome) &&
    !(c.metadata.desk .engineer).decided &&
    !(c.metadata.desk .engineer).criticalAcknowledgedAt.isSome

def releaseEngineerTask (s : State) : State :=
  match s.case.currentTaskId, s.currentTask? with
  | some id, some task =>
    if task.agentSlug = productionPreparationEngineer then
      (if task.status.blocking then s.setTaskStatus id .cancelled else s).withCase fun c =>
        { c with currentTaskId := none }
    else s
  | _, _ => s

/-- One case in `_migrate_undecided_engineer_cases_to_complex_chief`. -/
def migrateUndecidedEngineerCase (now : Time) (s : State) : State :=
  if !(s.case.status.monitored && decide (s.case.sourceType = .productionMaterialOrder) &&
      undecidedEngineer env s.case) then s
  else
    let s := (releaseEngineerTask s).withCase fun c =>
      { c with
        currentAgentId := none
        assignedAgents := c.assignedAgents.filter fun agent => agent ≠ productionPreparationEngineer
        metadata := { c.metadata with roleAgentCompletionKey := none } }
    enqueueRoleAgent env now
      (s.noteEvent "complex_migrated_from_engineer"
        (cutKey ("complex-migrated-from-engineer:" ++ s.case.id)))

def assignPurchaseManager (now : Time) (s : State) : State :=
  (s.withCase fun c =>
    { c with assignedAgents :=
        let assigned := c.assignedAgents.eraseDups
        if purchaseManager ∈ assigned then assigned else assigned ++ [purchaseManager] }).withDesk
    .manager fun w =>
      { w with
        invokedAt := some (w.invokedAt.getD now)
        status := if w.status = some .processing then w.status else some .awaitingAction
        archivedAt := none
        output := some ⟨coverageOutput, s.case.revision⟩ }

def givePurchaseManager (s : State) : State :=
  if s.case.currentAgentId = some purchaseManager then s
  else s.withCase fun c =>
    { c with
      currentAgentId := some purchaseManager
      controlPoint := advanceControlPoint ["", "basis", "data", "coverage"] "purchase" c.controlPoint }

/-- The task of another role is cancelled for the purchase manager. -/
def cancelForPurchaseManager (id : TaskId) (s : State) : State :=
  ((s.setTaskStatus id .cancelled).withCase fun c => { c with currentTaskId := none }).withMetadata
    fun m => { m with roleAgentCompletionKey := none }

/-- One case in `ensure_purchase_manager_work`. -/
def ensurePurchaseManagerWork (stale : Bool) (now : Time) (s : State) : State :=
  if !(s.case.status.monitored && decide (s.case.sourceType = .productionMaterialOrder) &&
      !s.case.closedAt.isSome) then s
  else if s.case.metadata.coverageStatus ≠ some .partly ∧
      s.case.metadata.coverageStatus ≠ some .full then s
  else if (s.case.metadata.desk .manager).archivedAt.isSome then s
  else
    let s := assignPurchaseManager now s
    if s.case.metadata.coverageStatus ≠ some .full then s
    else
      let s := givePurchaseManager s
      match s.case.currentTaskId, s.currentTask? with
      | some id, some task =>
        if task.agentSlug = purchaseManager then
          if task.status = .pending then
            if stale then s.withDesk .manager fun w => { w with status := some .processing } else s
          else if task.status = .completed ∨ task.status = .cancelled ∨ task.status = .failed then
            enqueueRoleAgent env now s
          else s
        else if task.status = .pending ∨ task.status.waiting = true ∨ task.status = .failed then
          enqueueRoleAgent env now (cancelForPurchaseManager id s)
        else s
      | _, _ => enqueueRoleAgent env now s

end

end AgentBack.Orchestrator
