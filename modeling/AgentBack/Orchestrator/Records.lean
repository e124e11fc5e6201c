import AgentBack.Procurement.OrderCoverage

/-!
# The records of the orchestrator (`models/procurement.py`, `models/task.py`)

A procurement case with its metadata, its role tasks and its history. The metadata keys of a role
workspace (`engineer_workspace_status`, `picker_archived_bucket` and so on) are the fields of a
`Workspace`, one for each `Desk`. The id of a task is its place in the table of tasks. Moments are
the texts that `isoformat` gives.
-/

namespace AgentBack.Orchestrator

open Coverage (CoverageStatus)

abbrev AgentId := String
abbrev TaskId := Nat
abbrev Time := String

/-- `ProcurementCaseStatus`. -/
inductive CaseStatus where
  | new
  | agentWaiting
  | dataCheck
  | coverageCheck
  | humanRequired
  | blocked
  | purchaseDraft
  | approvalRequired
  | ordered
  | paymentPending
  | inTransit
  | receiving
  | qualityQueued
  | qualityAssigned
  | qualityDocCheck
  | qualityInspection
  | qualityDecision
  | isolated
  | nonconformity
  | rework
  | reinspection
  | qualityReleased
  | postingRequired
  | posted
  | closed
  | failed
  deriving DecidableEq

/-- `TERMINAL_CASE_STATUSES`. -/
def CaseStatus.terminal : CaseStatus → Bool
  | .closed | .failed => true
  | _ => false

/-- `ACTIVE_CASE_STATUSES`. -/
def CaseStatus.active : CaseStatus → Bool
  | .new | .agentWaiting | .dataCheck | .coverageCheck | .humanRequired | .blocked
  | .qualityQueued | .qualityAssigned | .qualityDocCheck | .qualityInspection | .qualityDecision
  | .isolated | .nonconformity | .rework | .reinspection | .qualityReleased => true
  | _ => false

/-- `SOURCE_MONITORED_CASE_STATUSES`, which the passes of the orchestrator process too. -/
def CaseStatus.monitored (status : CaseStatus) : Bool := status.active || status == .ordered

inductive TaskStatus where
  | pending
  | planning
  | running
  | waitingHuman
  | waitingExternal
  | completed
  | completedWithIssues
  | failed
  | cancelled
  deriving DecidableEq

def TaskStatus.live : TaskStatus → Bool
  | .pending | .planning | .running | .waitingHuman | .waitingExternal => true
  | _ => false

/-- `BLOCKING_TASK_STATUSES`. -/
def TaskStatus.blocking (status : TaskStatus) : Bool := status.live || status == .failed

def TaskStatus.waiting : TaskStatus → Bool
  | .waitingHuman | .waitingExternal => true
  | _ => false

/-- The statuses that the reconciliations do not cancel. -/
def TaskStatus.settled : TaskStatus → Bool
  | .completed | .cancelled | .failed => true
  | _ => false

/-- `ProcurementSourceType`. -/
inductive SourceType where
  | internalConsumptionOrder
  | productionMaterialOrder
  | transferOrder
  | reorderPoint
  deriving DecidableEq

def productionDispatcher : AgentId := "production_dispatcher_agent"
def productionPreparationEngineer : AgentId := "production_preparation_engineer_agent"
def warehousePicker : AgentId := "warehouse_picker_agent"
def warehouseComplexChief : AgentId := "warehouse_complex_chief_agent"
def purchaseManager : AgentId := "purchase_manager_agent"
def omtoChief : AgentId := "omto_chief_agent"
def departmentInitiator : AgentId := "department_initiator_agent"
def warehouseManager : AgentId := "warehouse_manager_agent"
def otkHead : AgentId := "otk_head_agent"
def qualityEngineer : AgentId := "quality_engineer_agent"
def qualityDeputyDirector : AgentId := "quality_deputy_director_agent"

/-- `SOURCE_AGENT_MAP`. -/
def agentIdForSource : SourceType → AgentId
  | .internalConsumptionOrder => departmentInitiator
  | .transferOrder => warehouseManager
  | .productionMaterialOrder => productionPreparationEngineer
  | .reorderPoint => productionDispatcher

/-- `QUALITY_STATUS_AGENT_MAP`. -/
def agentIdForQualityStatus : CaseStatus → Option AgentId
  | .qualityQueued | .nonconformity => some otkHead
  | .isolated => some qualityDeputyDirector
  | .qualityAssigned | .qualityDocCheck | .qualityInspection | .qualityDecision | .rework
  | .reinspection => some qualityEngineer
  | _ => none

def qualityRoleAgentIds : List AgentId := [otkHead, qualityEngineer, qualityDeputyDirector]

inductive Desk where
  | engineer
  | dispatcher
  | picker
  | complex
  | manager
  deriving DecidableEq

def Desk.agentId : Desk → AgentId
  | .engineer => productionPreparationEngineer
  | .dispatcher => productionDispatcher
  | .picker => warehousePicker
  | .complex => warehouseComplexChief
  | .manager => purchaseManager

def Desk.name : Desk → String
  | .engineer => "engineer"
  | .dispatcher => "dispatcher"
  | .picker => "picker"
  | .complex => "complex"
  | .manager => "purchase_manager"

def warehouseAvailabilitySpec (agentId : AgentId) : Option Desk :=
  if agentId = warehousePicker then some .picker
  else if agentId = warehouseComplexChief then some .complex
  else none

/-- The values of `workspace_status`. -/
inductive WorkspaceStatus where
  | processing
  | awaitingAction
  | completed
  | archived
  deriving DecidableEq

/-- The values of `archived_bucket`. -/
inductive Bucket where
  | attention
  | success
  | critical
  deriving DecidableEq

/-- The values of `auto_archived_reason`. -/
inductive AutoArchivedReason where
  | allPositionsCovered
  | allPositionsInSupplierOrders
  | tmcPresentationJournalFull
  deriving DecidableEq

/-- `_PREMATURE_ARCHIVE_REASONS`. -/
def AutoArchivedReason.premature : AutoArchivedReason → Bool
  | .allPositionsCovered | .allPositionsInSupplierOrders => true
  | .tmcPresentationJournalFull => false

structure Position where
  lineId : String
  nomenclatureId : String
  quantity : Rat
  deriving DecidableEq

/-- A revision of the document: the hash of its content, and its positions. -/
structure Revision where
  contentHash : String
  positions : List Position
  deriving DecidableEq

/-- The keys of `output_data` that the orchestrator reads. A status that is none of the known ones
counts as no status. -/
structure Output where
  evidenceFingerprint : Option String
  decisionKind : Option String
  nextAgent : Option AgentId
  nextStatus : Option CaseStatus
  hasDeficit : Bool
  deriving DecidableEq

/-- The role statuses that `_apply_role_agent_result` lets through. -/
inductive RoleStatus where
  | waitingHuman
  | waitingExternal
  | completed
  | failed
  deriving DecidableEq

/-- The result of a role agent. Without an output the dict is empty. -/
structure RoleResult where
  roleStatus : RoleStatus
  agentId : Option AgentId
  output : Option Output
  deriving DecidableEq

/-- The output of a role in the metadata. It carries the revision of the task that computed it,
which the source does not write down. -/
structure StoredOutput where
  output : Option Output
  computedFor : Revision
  deriving DecidableEq

structure Workspace where
  invokedAt : Option Time
  status : Option WorkspaceStatus
  archivedAt : Option Time
  archivedBucket : Option Bucket
  decisionKind : Option String
  actionAt : Option Time
  actionBy : Option String
  criticalAcknowledgedAt : Option Time
  criticalAcknowledgedBy : Option String
  handoffAgentId : Option AgentId
  autoArchivedReason : Option AutoArchivedReason
  coverageCompletedAt : Option Time
  output : Option StoredOutput
  deriving DecidableEq

def Workspace.empty : Workspace :=
  ⟨none, none, none, none, none, none, none, none, none, none, none, none, none⟩

/-- A row of the coverage of the journal: a supplier order and its journal entry. -/
structure TmcRow where
  orderRef : String
  journal : Option String
  deriving DecidableEq

inductive TmcStatus where
  | uncovered
  | partly
  | full
  deriving DecidableEq

/-- `tmc_presentation_coverage`. -/
structure TmcCoverage where
  status : TmcStatus
  orders : List TmcRow
  deriving DecidableEq

/-- `case_metadata`. -/
structure Metadata where
  desk : Desk → Workspace
  nextQualityAgent : Option AgentId
  roleAgentCompletionKey : Option String
  coverageStatus : Option CoverageStatus
  coverageFingerprint : Option String
  tmcCoverage : Option TmcCoverage
  otkStartedAt : Option Time
  otkHandedOffAt : Option Time

/-- `ProcurementCase`. -/
structure Case where
  id : String
  sourceType : SourceType
  sourceRef : String
  departmentName : Option String
  contentHash : String
  dataVersion : Option String
  sourceSyncedAt : Option Time
  positions : List Position
  status : CaseStatus
  closedAt : Option Time
  closedReason : Option String
  controlPoint : Option String
  currentTaskId : Option TaskId
  currentAgentId : Option AgentId
  assignedAgents : List AgentId
  supplierOrderLinks : List String
  metadata : Metadata

def Case.revision (c : Case) : Revision := ⟨c.contentHash, c.positions⟩

structure Task where
  agentSlug : AgentId
  roleCompletionKey : String
  status : TaskStatus
  finalResult : Option RoleResult
  /-- The revision of the document in the payload of the task. -/
  sourceData : Revision
  deriving DecidableEq

/-- `ProcurementCaseEvent`. -/
structure Event where
  eventType : String
  idempotencyKey : String
  previousStatus : Option CaseStatus
  newStatus : CaseStatus
  deriving DecidableEq

structure State where
  case : Case
  tasks : List Task
  events : List Event

/-- What the functions of the source use of their surroundings. -/
structure Env where
  /-- `is_montage_section_2_department`. -/
  isMontage : Option String → Bool
  digest : RoleResult → String
  /-- `PROCUREMENT_ORCHESTRATOR_PLANNING_ENABLED`. -/
  planningEnabled : Bool

end AgentBack.Orchestrator
