import AgentBack.Orchestrator.Poll

/-!
# Reconciliation (`services/supplier_order_reconciliation_service.py` and
`services/tmc_presentation_reconciliation_service.py`)

What a cycle of either service does to one case, once it has its evidence: the coverage of the
positions by orders, or the entries of the journal for the supplier orders of the case.
-/

namespace AgentBack.Orchestrator

open Coverage (CoverageStatus)

section
variable (env : Env)

/-! ## Supplier orders -/

def availabilitySpecForCase (c : Case) : Option Desk :=
  if c.currentAgentId = some warehousePicker ∨ (c.metadata.desk .picker).invokedAt.isSome = true ∨
      c.montage env = true then some .picker
  else if c.currentAgentId = some warehouseComplexChief ∨
      (c.metadata.desk .complex).invokedAt.isSome = true ∨
      (c.sourceType = .productionMaterialOrder ∧ c.montage env = false) then some .complex
  else none

/-- What a cycle knows of the case: the coverage, its fingerprint, and the references of orders that
are new. -/
structure CoverageEvidence where
  status : CoverageStatus
  fingerprint : String
  orderRefs : List String
  newOrders : Option String
  newTransfers : Option String

variable (status : CoverageStatus)

def covers : Bool := status != .uncovered

/-- `_cancel_current_task` of the service: it keeps the current agent. -/
def State.cancelCoveredTask (s : State) : State :=
  match s.case.currentTaskId with
  | none => s
  | some id =>
    let s := match s.task? id with
      | some task =>
        if task.status.settled then s else s.setTaskStatus id .cancelled
      | none => s
    s.withCase fun c => { c with currentTaskId := none }

def managerUnderCoverage (revision : Revision) (now : Time) (w : Workspace) : Workspace :=
  if covers status then
    { w with
      invokedAt := some (w.invokedAt.getD now)
      status := some .awaitingAction
      archivedAt := none
      output := some ⟨coverageOutput, revision⟩ }
  else if w.invokedAt.isSome then
    { w with
      status := some .archived
      archivedAt := some (w.archivedAt.getD now) }
  else w

def StoredOutput.undecided (stored : StoredOutput) : StoredOutput :=
  let output := stored.output.getD ⟨none, none, none, none, false⟩
  { stored with output := some { output with decisionKind := some "none" } }

/-- The output of the availability role under a full coverage asks for no decision. -/
def outputUnderCoverage (w : Workspace) : Workspace :=
  match w.output with
  | some stored =>
    if status = .full then
      { w with decisionKind := some "none", output := some stored.undecided }
    else w
  | none => w

/-- The workspace of the availability role is archived by the journal already. -/
def archivedByTmc (desk : Desk) (m : Metadata) : Bool :=
  m.otkHandedOffAt.isSome || m.tmcCoverage.any (fun tmc => tmc.status == .full) ||
    (m.desk desk).autoArchivedReason == some .tmcPresentationJournalFull

/-- The workspace of the availability role under a full coverage. -/
def deskFullyCovered (byTmc : Bool) (now : Time) (w : Workspace) : Workspace :=
  let keepsArchive := byTmc && w.archivedAt.isSome
  { w with
    status := some (if keepsArchive then .archived else .completed)
    archivedAt :=
      if !keepsArchive && w.archivedAt.isSome && w.autoArchivedReason.any AutoArchivedReason.premature
      then none else w.archivedAt
    archivedBucket := some .success
    autoArchivedReason := if byTmc then w.autoArchivedReason else some .allPositionsCovered
    coverageCompletedAt := some (w.coverageCompletedAt.getD now) }

/-- The workspace of the availability role waits for action again. -/
def deskReopened (w : Workspace) : Workspace :=
  { w with
    status := some .awaitingAction
    archivedAt := none
    archivedBucket := none
    autoArchivedReason := none
    coverageCompletedAt := none }

def withAgent (agent : AgentId) (agents : List AgentId) : List AgentId :=
  if agent ∈ agents then agents else agents ++ [agent]

def withAgentFirst (agent : AgentId) (agents : List AgentId) : List AgentId :=
  if agent ∈ agents then agents else agent :: agents

def assignedUnderCoverage (agents : List AgentId) : List AgentId :=
  if covers status then withAgent purchaseManager agents.eraseDups
  else agents.eraseDups.filter fun agent => agent ≠ purchaseManager

/-- The case with the coverage, before its route changes. -/
def recordCoverage (evidence : CoverageEvidence) (now : Time) (c : Case) : Case :=
  { c with
    supplierOrderLinks := evidence.orderRefs.foldl (fun links ref =>
      if ref ∈ links then links else links ++ [ref]) c.supplierOrderLinks
    assignedAgents := assignedUnderCoverage evidence.status c.assignedAgents
    metadata :=
      { c.metadata.withDesk .manager (managerUnderCoverage evidence.status c.revision now) with
        coverageStatus := some evidence.status
        coverageFingerprint := some evidence.fingerprint } }

/-- All positions are covered: the case goes to the purchase manager. -/
def routeCovered (desk : Desk) (now : Time) (s : State) : State :=
  let byTmc := archivedByTmc desk s.case.metadata
  let s := (s.withDesk desk (deskFullyCovered byTmc now)).withCase fun c =>
    { c with status := .ordered, controlPoint := some "purchase" }
  let s := if s.case.currentAgentId = some desk.agentId then s.cancelCoveredTask else s
  s.withCase fun c =>
    { c with
      currentAgentId := some purchaseManager
      assignedAgents :=
        withAgent purchaseManager (c.assignedAgents.filter fun agent => agent ≠ desk.agentId) }

/-- Positions are open again: the case goes back to the availability role. -/
def routeUncovered (desk : Desk) (s : State) : State :=
  (s.withDesk desk deskReopened).withCase fun c =>
    { c with
      status := .agentWaiting
      controlPoint := some "coverage"
      currentAgentId := some desk.agentId
      assignedAgents := withAgentFirst desk.agentId c.assignedAgents }

/-- Some positions are covered: the availability role goes on, next to the purchase manager. -/
def routePartly (desk : Desk) (s : State) : State :=
  (s.withDesk desk deskReopened).withCase fun c =>
    { c with assignedAgents :=
        withAgent purchaseManager (withAgentFirst desk.agentId c.assignedAgents) }

def routeUnderCoverage (desk : Desk) (previous : Option CoverageStatus) (status : CoverageStatus)
    (now : Time) (s : State) : State :=
  if status = .full then routeCovered desk now s
  else if previous = some .full then routeUncovered desk s
  else if status = .partly then routePartly desk s
  else s

/-- An event that says the status on both sides, when there is something to say. -/
def State.noteSome (eventType : String) (key : Option String) (s : State) : State :=
  match key with
  | some key => s.noteEvent eventType key
  | none => s

def noteCoverage (spec : Option Desk) (previous : Option CoverageStatus) (evidence : CoverageEvidence)
    (s : State) : State :=
  let key := s.case.id ++ ":" ++ evidence.fingerprint
  let s := s.noteSome "supplier_order_detected" (evidence.newOrders.map fun refs =>
    cutKey ("supplier-order-detected:" ++ s.case.id ++ ":" ++ refs))
  let s := s.noteSome "transfer_order_detected" (evidence.newTransfers.map fun refs =>
    cutKey ("transfer-order-detected:" ++ s.case.id ++ ":" ++ refs))
  let s := s.noteEvent "supplier_coverage_changed" (cutKey ("supplier-coverage:" ++ key))
  let s := s.noteSome "purchase_manager_assigned"
    (if covers evidence.status && previous == some .uncovered then
      some (cutKey ("purchase-manager-assigned:" ++ key)) else none)
  match spec with
  | some desk => s.noteSome (desk.name ++ "_coverage_completed")
    (if evidence.status = .full ∧ previous ≠ some .full then
      some (cutKey (desk.name ++ "-coverage-completed:" ++ key)) else none)
  | none => s

/-- `_apply_case` of the supplier orders. -/
def applySupplierCoverage (evidence : CoverageEvidence) (now : Time) (s : State) : State :=
  let previousFingerprint := s.case.metadata.coverageFingerprint
  let previous := s.case.metadata.coverageStatus
  let s := s.withCase (recordCoverage evidence now)
  let spec := availabilitySpecForCase env s.case
  let s := match spec with
    | some desk =>
      let s := if covers evidence.status then
          s.withDesk desk (outputUnderCoverage evidence.status) else s
      routeUnderCoverage desk previous evidence.status now s
    | none => s
  if previousFingerprint = some evidence.fingerprint then s
  else noteCoverage spec previous evidence s

def repairPrematureWarehouseArchive (s : State) : State :=
  match availabilitySpecForCase env s.case with
  | none => s
  | some desk =>
    let w := s.case.metadata.desk desk
    if !w.archivedAt.isSome || archivedByTmc desk s.case.metadata then s
    else
      s.withDesk desk fun w =>
        { w with
          status := some .completed
          archivedAt := none
          archivedBucket := some .success
          autoArchivedReason := some .allPositionsCovered }

/-- The case is one of those that `reconcile` of the supplier orders reads. -/
def supplierEligible (c : Case) : Bool :=
  decide (c.sourceType = .productionMaterialOrder) && !c.status.terminal

/-- One case in `reconcile` of the supplier orders; without evidence both reads failed. -/
def reconcileSupplierOrders (evidence : Option CoverageEvidence) (now : Time) (s : State) : State :=
  if !supplierEligible s.case then s
  else
    match evidence with
    | none => repairPrematureWarehouseArchive env s
    | some evidence =>
      let changed := decide (s.case.metadata.coverageFingerprint ≠ some evidence.fingerprint)
      let s := applySupplierCoverage env evidence now s
      if changed then s else repairPrematureWarehouseArchive env s

/-! ## The journal of presentations -/

/-- What a cycle knows of the journal: the entries by order, and whether the purchased positions are
in it (`purchased_positions_covered_by_tmc`). -/
structure JournalEvidence where
  entries : List (String × String)
  purchasedCovered : Bool
  cardsChanged : Bool

variable (evidence : JournalEvidence)

def journalRows (c : Case) : List TmcRow :=
  c.supplierOrderLinks.map fun ref =>
    ⟨ref, (evidence.entries.find? fun entry => entry.1 = ref).map Prod.snd⟩

def journalStatus (rows : List TmcRow) : TmcStatus :=
  let covered := (rows.filter fun row => row.journal.isSome).length
  if covered = 0 then .uncovered
  else if covered = rows.length then .full
  else .partly

def warehouseAvailabilityPrefix (c : Case) (assigned : List AgentId) : Desk :=
  if c.currentAgentId = some warehouseComplexChief ∨ warehouseComplexChief ∈ assigned ∨
      (c.metadata.desk .complex).invokedAt.isSome = true ∨
      ((c.metadata.desk .complex).coverageCompletedAt.isSome = true ∧
        (c.metadata.desk .picker).coverageCompletedAt.isSome = false) then .complex
  else .picker

/-- What `_apply_case` works on: the case, and its own copies of the metadata and the assigned
agents, which it writes back at the end. -/
structure JournalWork where
  state : State
  metadata : Metadata
  assigned : List AgentId

/-- `_archive_warehouse_workspace_after_tmc`, with its event. -/
def archiveWarehouseWorkspace (now : Time) (w : JournalWork) :
    JournalWork × Bool :=
  if w.metadata.coverageStatus = some .partly ∨ evidence.purchasedCovered = false then (w, false)
  else
    let desk := warehouseAvailabilityPrefix w.state.case w.assigned
    if (w.metadata.desk desk).archivedAt.isSome then (w, false)
    else
      ({ state := w.state.noteEvent (desk.name ++ "_auto_archived")
          (cutKey ("warehouse-archived-tmc:" ++ w.state.case.id ++ ":" ++ now))
         metadata := w.metadata.withDesk desk fun w =>
          { w with
            status := some .archived
            archivedAt := some now
            archivedBucket := some .success
            autoArchivedReason := some .tmcPresentationJournalFull }
         assigned := w.assigned.filter fun agent =>
          agent ≠ warehousePicker ∧ agent ≠ warehouseComplexChief }, true)

/-- `_cancel_current_task` of the service: it keeps both pointers. -/
def State.cancelPresentedTask (s : State) : State :=
  match s.case.currentTaskId with
  | none => s
  | some id =>
    match s.task? id with
    | some task =>
      if task.status.settled then s else s.setTaskStatus id .cancelled
    | none => s

/-- The quality engineer starts next to the purchase manager: a partial journal gives the case back
to the agent it was with. -/
def startOtk (status : TmcStatus) (now : Time) (s : State) : State :=
  let previousAgent := s.case.currentAgentId
  let previousStatus := s.case.status
  let s := s.withCase fun c =>
    { c with currentAgentId := some qualityEngineer, status := .qualityAssigned }
  let s := enqueueRoleAgent env now s
  if status = .partly then
    s.withCase fun c => { c with currentAgentId := previousAgent, status := previousStatus }
  else s

def handOffAvailability (w : JournalWork) : AgentId :=
  if w.state.case.currentAgentId = some warehouseComplexChief ∨
      warehouseComplexChief ∈ w.assigned ∨
      (w.state.case.metadata.desk .complex).invokedAt.isSome = true then warehouseComplexChief
  else warehousePicker

def archiveManager (now : Time) (w : JournalWork) : JournalWork :=
  { w with
    metadata := { w.metadata.withDesk .manager fun d =>
        { d with
          status := some .archived
          archivedAt := some now
          autoArchivedReason := some .tmcPresentationJournalFull } with
      otkHandedOffAt := some now }
    assigned := w.assigned.filter fun agent => agent ≠ purchaseManager }

/-- The availability role goes on under a partial coverage, and is archived otherwise. -/
def settleAvailability (now : Time) (w : JournalWork) : JournalWork :=
  if w.metadata.coverageStatus = some .partly then
    { w with assigned := withAgentFirst (handOffAvailability w) w.assigned }
  else (archiveWarehouseWorkspace evidence now w).1

def moveToOtk (now : Time) (s : State) : State :=
  let s := if s.case.currentAgentId = some purchaseManager then s.cancelPresentedTask else s
  (s.withCase fun c =>
    { c with
      status := .qualityAssigned
      controlPoint := some "quality"
      currentAgentId := some qualityEngineer }).noteEvent "purchase_manager_auto_archived"
    (cutKey ("pm-archived-tmc:" ++ s.case.id ++ ":" ++ now))

/-- The hand-off to quality control under a full journal. -/
def handOffToOtk (justStarted : Bool) (now : Time) (w : JournalWork) :
    JournalWork :=
  let w := settleAvailability evidence now (archiveManager now w)
  { w with state :=
      if justStarted then moveToOtk now w.state
      else enqueueRoleAgent env now (moveToOtk now w.state) }

def tmcText : TmcStatus → String
  | .full => "full"
  | .partly => "partial"
  | .uncovered => "none"

/-- Quality control is assigned, and starts with the first entry of the journal. -/
def assignOtk (status : TmcStatus) (now : Time) (w : JournalWork) : JournalWork :=
  let assigned := withAgent qualityEngineer w.assigned
  { state :=
      if w.metadata.otkStartedAt.isSome then w.state
      else startOtk env status now (w.state.noteEvent "otk_agent_assigned"
        (cutKey ("otk-assigned:" ++ w.state.case.id ++ ":" ++ now)))
    metadata := { w.metadata with otkStartedAt := some (w.metadata.otkStartedAt.getD now) }
    assigned := if status = .partly then withAgent purchaseManager assigned else assigned }

/-- A partial journal shows the stage of quality control when the purchase manager is current. -/
def showQuality (s : State) : State :=
  if s.case.currentAgentId = some purchaseManager then
    s.withCase fun c => { c with controlPoint := some "quality" }
  else s

/-- The stages of `_apply_case` under a journal that has entries, and whether anything changed. -/
def presentToOtk (status : TmcStatus) (now : Time) (changed : Bool) (w : JournalWork) :
    JournalWork × Bool :=
  let justStarted := !w.metadata.otkStartedAt.isSome
  let changed := changed || justStarted
  let w := assignOtk env status now w
  if status = .full ∧ w.metadata.otkHandedOffAt.isSome = false then
    (handOffToOtk env evidence justStarted now w, true)
  else if status = .full ∧ w.metadata.coverageStatus ≠ some .partly then
    let archived := archiveWarehouseWorkspace evidence now w
    (archived.1, changed || archived.2)
  else if status = .partly then
    ({ w with state := showQuality w.state }, changed || evidence.cardsChanged)
  else (w, changed)

/-- What `_apply_case` of the journal works out, and whether anything changed. -/
def workJournal (rows : List TmcRow) (now : Time) (s : State) :
    JournalWork × Bool :=
  let previous := s.case.metadata.tmcCoverage
  let changed := decide ((previous.map TmcCoverage.status).getD .uncovered ≠ journalStatus rows ∨
    previous.map TmcCoverage.orders ≠ some rows)
  let work : JournalWork :=
    { state := s
      metadata := { s.case.metadata with tmcCoverage := some ⟨journalStatus rows, rows⟩ }
      assigned := s.case.assignedAgents }
  if journalStatus rows = .uncovered then (work, changed)
  else presentToOtk env evidence (journalStatus rows) now changed work

def writeBack (w : JournalWork) : State :=
  w.state.withCase fun c => { c with metadata := w.metadata, assignedAgents := w.assigned }

/-- The key of the event that says that the coverage of the journal changed. -/
def journalKey (rows : List TmcRow) (c : Case) : String :=
  cutKey ("tmc-coverage:" ++ c.id ++ ":" ++ tmcText (journalStatus rows) ++ ":" ++
    toString (rows.filter fun row => row.journal.isSome).length ++ ":" ++ toString rows.length)

/-- `_apply_case` of the journal. -/
def applyJournal (now : Time) (s : State) : State :=
  if s.case.supplierOrderLinks.isEmpty then s
  else
    let rows := journalRows evidence s.case
    let done := workJournal env evidence rows now s
    (writeBack done.1).noteSome "tmc_presentation_coverage_changed"
      (if done.2 then some (journalKey rows s.case) else none)

/-- The case is one of those that `reconcile` of the journal reads. -/
def journalEligible (c : Case) : Bool :=
  decide (c.sourceType = .productionMaterialOrder) && !c.status.terminal &&
    c.status != .qualityReleased && !c.supplierOrderLinks.isEmpty &&
    !(c.metadata.otkHandedOffAt.isSome && c.metadata.tmcCoverage.any fun tmc => tmc.status == .full) &&
    ((c.metadata.desk .manager).invokedAt.isSome || decide (purchaseManager ∈ c.assignedAgents) ||
      c.currentAgentId == some purchaseManager || c.metadata.otkStartedAt.isSome)

/-- One case in `reconcile` of the journal. -/
def reconcilePresentations (now : Time) (s : State) : State :=
  if journalEligible s.case then applyJournal env evidence now s else s

end

end AgentBack.Orchestrator
