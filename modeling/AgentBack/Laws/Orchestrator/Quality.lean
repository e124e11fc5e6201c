import AgentBack.Laws.Orchestrator.OneTask

/-!
# A case in quality control

The supplier reconciliation works out status and workspaces anew in every cycle, also of a case that
was handed over to quality control. `settled` says for each coverage when the cycle finds what it would
write, and `keepsQuality_iff` that it leaves such a case alone exactly then.
-/

namespace AgentBack.Orchestrator

open Coverage (CoverageStatus)

structure Marks where
  status : Option WorkspaceStatus
  archivedAt : Option Time
  archivedBucket : Option Bucket
  autoArchivedReason : Option AutoArchivedReason
  deriving DecidableEq

def Workspace.marks (w : Workspace) : Marks :=
  ⟨w.status, w.archivedAt, w.archivedBucket, w.autoArchivedReason⟩

def CaseStatus.quality : CaseStatus → Bool
  | .qualityQueued | .qualityAssigned | .qualityDocCheck | .qualityInspection | .qualityDecision
  | .qualityReleased => true
  | _ => false

def Case.handedOff (c : Case) : Bool := c.metadata.otkHandedOffAt.isSome || c.status.quality

/-- The cycle finds the coverage that the case has already. -/
def sameCoverage (evidence : CoverageEvidence) (c : Case) : Prop :=
  c.metadata.coverageFingerprint = some evidence.fingerprint ∧
    c.metadata.coverageStatus = some evidence.status

/-- What a cycle has to leave alone in quality control. -/
structure Undisturbed (s s' : State) : Prop where
  status : s'.case.status = s.case.status
  controlPoint : s'.case.controlPoint = s.case.controlPoint
  currentAgentId : s'.case.currentAgentId = s.case.currentAgentId
  currentTaskId : s'.case.currentTaskId = s.case.currentTaskId
  currentTask : s'.currentTask? = s.currentTask?
  marks : ∀ desk, (s'.case.metadata.desk desk).marks = (s.case.metadata.desk desk).marks

/-- The case was handed over to quality control in a state of the run. -/
def OnceHandedOff (env : Env) (w : World) (steps : List Step) : Prop :=
  ∃ earlier later, earlier ++ later = steps ∧ (w.run env earlier).state.case.handedOff = true

/-- A supplier reconciliation that finds the same coverage leaves a case that was handed over to
quality control alone, whatever steps came before. -/
def KeepsQuality (env : Env) (w : World) (steps : List Step) (evidence : CoverageEvidence)
    (now : Time) : Prop :=
  OnceHandedOff env w steps → sameCoverage evidence (w.run env steps).state.case →
    Undisturbed (w.run env steps).state
      ((Step.operation (.supplier (some evidence) now)).apply env (w.run env steps)).state

/-- The workspace of the purchase manager is as the coverage asks. -/
def managerSettled (status : CoverageStatus) (w : Workspace) : Prop :=
  if covers status then w.status = some .awaitingAction ∧ w.archivedAt = none
  else w.invokedAt.isSome = true → w.status = some .archived ∧ w.archivedAt.isSome = true

/-- The workspace of the availability role is as a full coverage asks. -/
def fullySettled (byTmc : Bool) (w : Workspace) : Prop :=
  w.archivedBucket = some .success ∧
    if byTmc then w.status = some (if w.archivedAt.isSome then .archived else .completed)
    else w.status = some .completed ∧ w.archivedAt = none ∧
      w.autoArchivedReason = some .allPositionsCovered

/-- The cycle finds what it would write. -/
def settled (desk : Desk) (status : CoverageStatus) (c : Case) : Prop :=
  let w := c.metadata.desk desk
  managerSettled status (c.metadata.desk .manager) ∧
    match status with
    | .full => c.status = .ordered ∧ c.controlPoint = some "purchase" ∧
        c.currentAgentId = some purchaseManager ∧ fullySettled (archivedByTmc desk c.metadata) w
    | .partly => w.marks = ⟨some .awaitingAction, none, none, none⟩
    | .uncovered => w.archivedAt.isSome = true → archivedByTmc desk c.metadata = true

theorem desk_recordCoverage (evidence : CoverageEvidence) (now : Time) (c : Case) (desk : Desk) :
    (recordCoverage evidence now c).metadata.desk desk =
      if desk = .manager then managerUnderCoverage evidence.status c.revision now (c.metadata.desk desk)
      else c.metadata.desk desk :=
  desk_withDesk .manager desk _ c.metadata

theorem marks_managerUnderCoverage (status : CoverageStatus) (revision : Revision) (now : Time)
    (w : Workspace) :
    (managerUnderCoverage status revision now w).marks = w.marks ↔ managerSettled status w := by
  unfold managerUnderCoverage managerSettled
  split
  · constructor
    · intro h
      exact ⟨(congrArg Marks.status h).symm, (congrArg Marks.archivedAt h).symm⟩
    · rintro ⟨hstatus, harchived⟩
      unfold Workspace.marks
      rw [hstatus, harchived]
  split
  · next hinvoked =>
    constructor
    · intro h _
      have harchived := congrArg Marks.archivedAt h
      change some _ = w.archivedAt at harchived
      exact ⟨(congrArg Marks.status h).symm, by rw [← harchived]; rfl⟩
    · intro h
      obtain ⟨hstatus, harchived⟩ := h hinvoked
      obtain ⟨at', hat⟩ := Option.isSome_iff_exists.mp harchived
      unfold Workspace.marks
      dsimp only
      rw [hstatus, hat]
      rfl
  · next hnever => exact iff_of_true rfl fun h => absurd h hnever

theorem marks_outputUnderCoverage (status : CoverageStatus) (w : Workspace) :
    (outputUnderCoverage status w).marks = w.marks := by
  unfold outputUnderCoverage
  split
  · split
    · rfl
    · rfl
  · rfl

/-! ## The cycle -/

section
variable (env : Env) (evidence : CoverageEvidence) (now : Time) {s : State}

section

variable {c : Case} {desk : Desk} (h : availabilitySpecForCase env c = some desk)
include h

theorem availabilitySpec_cases : desk = .picker ∨ desk = .complex := by
  unfold availabilitySpecForCase at h
  split at h
  · exact .inl (Option.some.inj h).symm
  split at h
  · exact .inr (Option.some.inj h).symm
  · cases h

theorem not_manager :
    desk ≠ .manager := by
  rcases availabilitySpec_cases env h with rfl | rfl <;> decide

end

theorem exists_availabilitySpec {c : Case} (h : supplierEligible c = true) :
    ∃ desk, availabilitySpecForCase env c = some desk := by
  unfold supplierEligible at h
  rw [Bool.and_eq_true, decide_eq_true_eq] at h
  unfold availabilitySpecForCase
  split
  · exact ⟨_, rfl⟩
  next hpicker =>
  split
  · exact ⟨_, rfl⟩
  · next hcomplex =>
    cases hm : c.montage env with
    | true => exact absurd (.inr (.inr hm)) hpicker
    | false => exact absurd (.inr (.inr ⟨h.1, hm⟩)) hcomplex

/-- The route of a cycle that finds the same coverage. -/
def cycle (desk : Desk) (s : State) : State :=
  routeUnderCoverage desk (some evidence.status) evidence.status now
    (if covers evidence.status then (s.withCase (recordCoverage evidence now)).withDesk desk
      (outputUnderCoverage evidence.status)
    else s.withCase (recordCoverage evidence now))

theorem reconcileSupplierOrders_same (heligible : supplierEligible s.case = true)
    (hsame : sameCoverage evidence s.case) {desk : Desk}
    (hspec : availabilitySpecForCase env s.case = some desk) :
    reconcileSupplierOrders env (some evidence) now s =
      repairPrematureWarehouseArchive env (cycle evidence now desk s) := by
  have hspec' : availabilitySpecForCase env (s.withCase (recordCoverage evidence now)).case =
      some desk := hspec
  have happlied : applySupplierCoverage env evidence now s = cycle evidence now desk s := by
    unfold applySupplierCoverage
    dsimp only
    rw [hspec', if_pos hsame.1, hsame.2]
    rfl
  unfold reconcileSupplierOrders
  rw [heligible, hsame.1]
  dsimp only [Bool.not_true]
  rw [if_neg (by decide), if_neg (by simp), happlied]

def recordedDesk (s : State) (desk : Desk) : Workspace :=
  if desk = .manager then
    managerUnderCoverage evidence.status s.case.revision now (s.case.metadata.desk desk)
  else s.case.metadata.desk desk

theorem marks_recordedDesk_iff :
    (∀ desk, (recordedDesk evidence now s desk).marks = (s.case.metadata.desk desk).marks) ↔
      managerSettled evidence.status (s.case.metadata.desk .manager) := by
  rw [← marks_managerUnderCoverage evidence.status s.case.revision now]
  constructor
  · exact fun h => h .manager
  · intro h desk
    unfold recordedDesk
    by_cases hdesk : desk = .manager
    · rw [if_pos hdesk, hdesk]
      exact h
    · rw [if_neg hdesk]

/-- The marks of all workspaces are the same when those of the role are, and the manager's. -/
theorem marks_iff {desk : Desk} (hdesk : desk ≠ .manager) (marks : Marks) {s' : State}
    (hown : (s'.case.metadata.desk desk).marks = marks)
    (hother : ∀ desk', desk' ≠ desk →
      (s'.case.metadata.desk desk').marks = (recordedDesk evidence now s desk').marks) :
    (∀ desk', (s'.case.metadata.desk desk').marks = (s.case.metadata.desk desk').marks) ↔
      managerSettled evidence.status (s.case.metadata.desk .manager) ∧
        (s.case.metadata.desk desk).marks = marks := by
  rw [← marks_recordedDesk_iff evidence now]
  constructor
  · intro h
    refine ⟨fun desk' => ?_, ?_⟩
    · by_cases hd : desk' = desk
      · unfold recordedDesk
        rw [hd, if_neg hdesk]
      · rw [← hother desk' hd]
        exact h desk'
    · rw [← hown]
      exact (h desk).symm
  · rintro ⟨h, hmarks⟩ desk'
    by_cases hd : desk' = desk
    · rw [hd, hown, hmarks]
    · rw [hother desk' hd]
      exact h desk'

end

/-! ## No position is covered -/

section
variable (env : Env) {evidence : CoverageEvidence} (now : Time) {s : State} {desk : Desk}

theorem currentTask?_congr {s s' : State} (hid : s'.case.currentTaskId = s.case.currentTaskId)
    (htasks : s'.tasks = s.tasks) : s'.currentTask? = s.currentTask? := by
  unfold State.currentTask? State.task?
  rw [hid, htasks]

/-- A cycle that keeps the pointers disturbs what it writes another value to. -/
theorem undisturbed_iff {s' : State} {status : CaseStatus} {point : Option String}
    (hstatus : s'.case.status = status) (hpoint : s'.case.controlPoint = point)
    (hagent : s'.case.currentAgentId = s.case.currentAgentId)
    (hid : s'.case.currentTaskId = s.case.currentTaskId) (htasks : s'.tasks = s.tasks) :
    Undisturbed s s' ↔ s.case.status = status ∧ s.case.controlPoint = point ∧
      ∀ desk, (s'.case.metadata.desk desk).marks = (s.case.metadata.desk desk).marks := by
  constructor
  · intro h
    exact ⟨h.status.symm.trans hstatus, h.controlPoint.symm.trans hpoint, h.marks⟩
  · rintro ⟨hsame, hsamePoint, hmarks⟩
    exact ⟨hstatus.trans hsame.symm, hpoint.trans hsamePoint.symm, hagent, hid,
      currentTask?_congr hid htasks, hmarks⟩

/-- A cycle that writes only workspaces disturbs them or nothing. -/
theorem undisturbed_of_quiet {s' : State} (hquiet : Quiet s s')
    (hpoint : s'.case.controlPoint = s.case.controlPoint) :
    Undisturbed s s' ↔
      ∀ desk, (s'.case.metadata.desk desk).marks = (s.case.metadata.desk desk).marks := by
  rw [undisturbed_iff hquiet.status hpoint hquiet.currentAgentId hquiet.currentTaskId hquiet.tasks]
  constructor
  · exact fun h => h.2.2
  · exact fun h => ⟨rfl, rfl, h⟩

theorem archivedByTmc_congr {m m' : Metadata} (hotk : m'.otkHandedOffAt = m.otkHandedOffAt)
    (htmc : m'.tmcCoverage = m.tmcCoverage)
    (hreason : (m'.desk desk).autoArchivedReason = (m.desk desk).autoArchivedReason) :
    archivedByTmc desk m' = archivedByTmc desk m := by
  unfold archivedByTmc
  rw [hotk, htmc, hreason]

/-- The repair of a workspace that the journal did not archive. -/
def repaired (byTmc : Bool) (w : Workspace) : Workspace :=
  if !w.archivedAt.isSome || byTmc then w
  else
    { w with
      status := some .completed
      archivedAt := none
      archivedBucket := some .success
      autoArchivedReason := some .allPositionsCovered }

theorem desk_repair (hspec : availabilitySpecForCase env s.case = some desk) (desk' : Desk) :
    (repairPrematureWarehouseArchive env s).case.metadata.desk desk' =
      if desk' = desk then
        repaired (archivedByTmc desk s.case.metadata) (s.case.metadata.desk desk')
      else s.case.metadata.desk desk' := by
  unfold repairPrematureWarehouseArchive
  rw [hspec]
  dsimp only
  by_cases hdesk : desk' = desk
  · subst hdesk
    unfold repaired
    rw [if_pos rfl]
    split
    · rfl
    · rw [case_withDesk]
      dsimp only
      rw [desk_withDesk, if_pos rfl]
  · rw [if_neg hdesk]
    split
    · rfl
    · rw [case_withDesk]
      dsimp only
      rw [desk_withDesk, if_neg hdesk]

theorem controlPoint_repair :
    (repairPrematureWarehouseArchive env s).case.controlPoint = s.case.controlPoint := by
  unfold repairPrematureWarehouseArchive
  split
  · rfl
  · dsimp only
    split <;> rfl

theorem availabilitySpec_congr {c c' : Case} (hagent : c'.currentAgentId = c.currentAgentId)
    (hsource : c'.sourceType = c.sourceType) (hdepartment : c'.departmentName = c.departmentName)
    (hinvoked : ∀ desk, desk ≠ .manager →
      (c'.metadata.desk desk).invokedAt = (c.metadata.desk desk).invokedAt) :
    availabilitySpecForCase env c' = availabilitySpecForCase env c := by
  unfold availabilitySpecForCase Case.montage
  rw [hagent, hsource, hdepartment, hinvoked .picker (by decide), hinvoked .complex (by decide)]

theorem repaired_open {byTmc : Bool} {w : Workspace} (h : w.archivedAt = none) :
    repaired byTmc w = w := by
  unfold repaired
  rw [h, if_pos (by rfl)]

theorem repaired_byTmc (w : Workspace) : repaired true w = w := by
  unfold repaired
  rw [Bool.or_true, if_pos rfl]

/-- The repair leaves alone what the journal archived and what is not archived. -/
theorem marks_repaired_iff (byTmc : Bool) (w : Workspace) :
    w.marks = (repaired byTmc w).marks ↔ (w.archivedAt.isSome = true → byTmc = true) := by
  unfold repaired
  split
  · next hkept =>
    refine iff_of_true rfl fun harchived => ?_
    rw [harchived] at hkept
    exact hkept
  · next hrepaired =>
    rw [Bool.or_eq_true, not_or, Bool.not_eq_true', Bool.not_eq_false] at hrepaired
    constructor
    · intro h
      have hnone : w.archivedAt = none := congrArg Marks.archivedAt h
      rw [hnone] at hrepaired
      cases hrepaired.1
    · intro h
      exact absurd (h hrepaired.1) hrepaired.2

end

/-! ## Each coverage -/

section
variable (env : Env) {evidence : CoverageEvidence} (now : Time) {s : State} {desk : Desk}

/-- Without coverage only the workspace of the purchase manager, and a premature archive, are of
interest. -/
theorem undisturbed_uncovered_iff (heligible : supplierEligible s.case = true)
    (hsame : sameCoverage evidence s.case) (hspec : availabilitySpecForCase env s.case = some desk)
    (hstatus : evidence.status = .uncovered) :
    Undisturbed s (reconcileSupplierOrders env (some evidence) now s) ↔
      settled desk evidence.status s.case := by
  have hcycle : cycle evidence now desk s = s.withCase (recordCoverage evidence now) := by
    unfold cycle routeUnderCoverage covers
    rw [hstatus]
    rfl
  rw [reconcileSupplierOrders_same env evidence now heligible hsame hspec, hcycle]
  have hdesk := not_manager env hspec
  have hspec' : availabilitySpecForCase env (s.withCase (recordCoverage evidence now)).case =
      some desk := hspec
  have hown : (recordCoverage evidence now s.case).metadata.desk desk = s.case.metadata.desk desk := by
    rw [desk_recordCoverage, if_neg hdesk]
  have hbyTmc : archivedByTmc desk (s.withCase (recordCoverage evidence now)).case.metadata =
      archivedByTmc desk s.case.metadata :=
    archivedByTmc_congr rfl rfl (congrArg Workspace.autoArchivedReason hown)
  have hquiet : Quiet s (s.withCase (recordCoverage evidence now)) := ⟨rfl, rfl⟩
  rw [undisturbed_of_quiet (hquiet.trans (quiet_repairPrematureWarehouseArchive env _))
    (controlPoint_repair env)]
  rw [marks_iff evidence now hdesk (repaired (archivedByTmc desk s.case.metadata)
    (s.case.metadata.desk desk)).marks]
  · unfold settled
    rw [hstatus]
    exact and_congr_right fun _ => marks_repaired_iff _ _
  · rw [desk_repair env hspec', if_pos rfl, hbyTmc]
    exact congrArg (fun w => (repaired (archivedByTmc desk s.case.metadata) w).marks) hown
  · intro desk' hother
    rw [desk_repair env hspec', if_neg hother]
    exact congrArg Workspace.marks (desk_recordCoverage evidence now s.case desk')

/-- The coverage is recorded, and the output of the role with it. -/
def covered (evidence : CoverageEvidence) (now : Time) (desk : Desk) (s : State) : State :=
  (s.withCase (recordCoverage evidence now)).withDesk desk (outputUnderCoverage evidence.status)

theorem desk_covered (hdesk : desk ≠ .manager) (desk' : Desk) :
    (covered evidence now desk s).case.metadata.desk desk' =
      if desk' = desk then outputUnderCoverage evidence.status (s.case.metadata.desk desk')
      else recordedDesk evidence now s desk' := by
  unfold covered
  rw [case_withDesk]
  dsimp only
  rw [desk_withDesk, case_withCase, desk_recordCoverage]
  split
  · next h => rw [h, if_neg hdesk]
  · rfl

theorem invokedAt_outputUnderCoverage (status : CoverageStatus) (w : Workspace) :
    (outputUnderCoverage status w).invokedAt = w.invokedAt := by
  unfold outputUnderCoverage
  split
  · split <;> rfl
  · rfl

theorem spec_covered (hdesk : desk ≠ .manager) :
    availabilitySpecForCase env (covered evidence now desk s).case =
      availabilitySpecForCase env s.case := by
  refine availabilitySpec_congr env rfl rfl rfl fun desk' hdesk' => ?_
  rw [desk_covered now hdesk]
  split
  · exact invokedAt_outputUnderCoverage _ _
  · unfold recordedDesk
    rw [if_neg hdesk']

theorem quiet_covered : Quiet s (covered evidence now desk s) := ⟨rfl, rfl⟩

theorem desk_routePartly (desk' : Desk) :
    (routePartly desk s).case.metadata.desk desk' =
      if desk' = desk then deskReopened (s.case.metadata.desk desk')
      else s.case.metadata.desk desk' :=
  rfl

theorem spec_routePartly :
    availabilitySpecForCase env (routePartly desk s).case = availabilitySpecForCase env s.case := by
  refine availabilitySpec_congr env rfl rfl rfl fun desk' _ => ?_
  rw [desk_routePartly]
  split <;> rfl

theorem quiet_routePartly : Quiet s (routePartly desk s) := ⟨rfl, rfl⟩

theorem controlPoint_covered :
    (covered evidence now desk s).case.controlPoint = s.case.controlPoint := rfl

theorem controlPoint_routePartly :
    (routePartly desk s).case.controlPoint = s.case.controlPoint := rfl

/-- A partial coverage opens the workspace of the role again in every cycle. -/
theorem undisturbed_partly_iff (heligible : supplierEligible s.case = true)
    (hsame : sameCoverage evidence s.case) (hspec : availabilitySpecForCase env s.case = some desk)
    (hstatus : evidence.status = .partly) :
    Undisturbed s (reconcileSupplierOrders env (some evidence) now s) ↔
      settled desk evidence.status s.case := by
  have hcycle : cycle evidence now desk s = routePartly desk (covered evidence now desk s) := by
    unfold cycle routeUnderCoverage covers covered
    rw [hstatus]
    rfl
  have hdesk := not_manager env hspec
  have hspec' : availabilitySpecForCase env (routePartly desk (covered evidence now desk s)).case =
      some desk := by
    rw [spec_routePartly, spec_covered env now hdesk, hspec]
  have hquiet : Quiet s (routePartly desk (covered evidence now desk s)) :=
    (quiet_covered now).trans quiet_routePartly
  have hpoint : (routePartly desk (covered evidence now desk s)).case.controlPoint =
      s.case.controlPoint :=
    controlPoint_routePartly.trans (controlPoint_covered now)
  rw [reconcileSupplierOrders_same env evidence now heligible hsame hspec, hcycle]
  rw [undisturbed_of_quiet (hquiet.trans (quiet_repairPrematureWarehouseArchive env _))
    ((controlPoint_repair env).trans hpoint)]
  rw [marks_iff evidence now hdesk ⟨some .awaitingAction, none, none, none⟩]
  · unfold settled
    rw [hstatus]
  · rw [desk_repair env hspec', if_pos rfl, desk_routePartly, if_pos rfl, repaired_open rfl]
    rfl
  · intro desk' hother
    rw [desk_repair env hspec', if_neg hother, desk_routePartly, if_neg hother,
      desk_covered now hdesk, if_neg hother]

def coveredMarks (byTmc : Bool) (w : Workspace) : Marks :=
  if byTmc then
    ⟨some (if w.archivedAt.isSome then .archived else .completed), w.archivedAt, some .success,
      w.autoArchivedReason⟩
  else ⟨some .completed, none, some .success, some .allPositionsCovered⟩

theorem marks_eq_coveredMarks_iff (byTmc : Bool) (w : Workspace) :
    w.marks = coveredMarks byTmc w ↔ fullySettled byTmc w := by
  unfold Workspace.marks coveredMarks fullySettled
  cases byTmc with
  | true =>
    rw [if_pos rfl, if_pos rfl, Marks.mk.injEq]
    constructor
    · rintro ⟨hstatus, -, hbucket, -⟩
      exact ⟨hbucket, hstatus⟩
    · rintro ⟨hbucket, hstatus⟩
      exact ⟨hstatus, rfl, hbucket, rfl⟩
  | false =>
    rw [if_neg Bool.false_ne_true, if_neg Bool.false_ne_true, Marks.mk.injEq]
    constructor
    · rintro ⟨hstatus, harchived, hbucket, hreason⟩
      exact ⟨hbucket, hstatus, harchived, hreason⟩
    · rintro ⟨hbucket, hstatus, harchived, hreason⟩
      exact ⟨hstatus, harchived, hbucket, hreason⟩

theorem coveredMarks_congr (byTmc : Bool) {w w' : Workspace} (h : w'.marks = w.marks) :
    coveredMarks byTmc w' = coveredMarks byTmc w := by
  have harchived : w'.archivedAt = w.archivedAt := congrArg Marks.archivedAt h
  have hreason : w'.autoArchivedReason = w.autoArchivedReason :=
    congrArg Marks.autoArchivedReason h
  unfold coveredMarks
  rw [harchived, hreason]

theorem marks_repaired_deskFullyCovered (byTmc : Bool) (w : Workspace) :
    (repaired byTmc (deskFullyCovered byTmc now w)).marks = coveredMarks byTmc w := by
  cases byTmc with
  | true =>
    rw [repaired_byTmc]
    unfold deskFullyCovered coveredMarks Workspace.marks
    cases hat : w.archivedAt <;> rfl
  | false =>
    unfold repaired
    split
    · next hopen =>
      rw [Bool.or_false, Bool.not_eq_true', Option.isSome_eq_false_iff] at hopen
      have hnone : (deskFullyCovered false now w).archivedAt = none := Option.isNone_iff_eq_none.mp hopen
      unfold Workspace.marks
      rw [hnone]
      rfl
    · rfl

/-- The purchase manager has no task of the availability role to cancel. -/
theorem routeCovered_eq (h : s.case.currentAgentId ≠ some desk.agentId) :
    routeCovered desk now s =
      (s.withDesk desk (deskFullyCovered (archivedByTmc desk s.case.metadata) now)).withCase fun c =>
        { c with
          status := .ordered
          controlPoint := some "purchase"
          currentAgentId := some purchaseManager
          assignedAgents :=
            withAgent purchaseManager (c.assignedAgents.filter fun agent => agent ≠ desk.agentId) } := by
  unfold routeCovered
  dsimp only
  rw [if_neg (by exact h)]
  rfl

theorem manager_ne_agentId (hdesk : desk = .picker ∨ desk = .complex) :
    some purchaseManager ≠ some desk.agentId := by
  rcases hdesk with rfl | rfl <;> decide

theorem archivedByTmc_deskFullyCovered (m : Metadata) :
    archivedByTmc desk (m.withDesk desk (deskFullyCovered (archivedByTmc desk m) now)) =
      archivedByTmc desk m := by
  cases hby : archivedByTmc desk m with
  | true =>
    rw [← hby]
    refine archivedByTmc_congr rfl rfl ?_
    rw [desk_withDesk, if_pos rfl]
    unfold deskFullyCovered
    rw [hby]
    rfl
  | false =>
    unfold archivedByTmc at hby ⊢
    rw [Bool.or_eq_false_iff] at hby
    change ((m.otkHandedOffAt.isSome || m.tmcCoverage.any fun tmc => tmc.status == .full) || _) = false
    rw [hby.1, desk_withDesk, if_pos rfl]
    rfl

section
variable (h : s.case.currentAgentId ≠ some desk.agentId)
include h

theorem status_routeCovered : (routeCovered desk now s).case.status = .ordered := by
  rw [routeCovered_eq now h]
  rfl

theorem controlPoint_routeCovered :
    (routeCovered desk now s).case.controlPoint = some "purchase" := by
  rw [routeCovered_eq now h]
  rfl

theorem tasks_routeCovered : (routeCovered desk now s).tasks = s.tasks := by
  rw [routeCovered_eq now h]
  rfl

theorem currentTaskId_routeCovered :
    (routeCovered desk now s).case.currentTaskId = s.case.currentTaskId := by
  rw [routeCovered_eq now h]
  rfl

theorem desk_routeCovered (desk' : Desk) :
    (routeCovered desk now s).case.metadata.desk desk' =
      if desk' = desk then
        deskFullyCovered (archivedByTmc desk s.case.metadata) now (s.case.metadata.desk desk')
      else s.case.metadata.desk desk' := by
  rw [routeCovered_eq now h]
  rfl

theorem archivedByTmc_routeCovered :
    archivedByTmc desk (routeCovered desk now s).case.metadata =
      archivedByTmc desk s.case.metadata := by
  rw [routeCovered_eq now h]
  exact archivedByTmc_deskFullyCovered now s.case.metadata

theorem spec_routeCovered (hagent : s.case.currentAgentId = some purchaseManager) :
    availabilitySpecForCase env (routeCovered desk now s).case =
      availabilitySpecForCase env s.case := by
  rw [routeCovered_eq now h]
  refine availabilitySpec_congr env hagent.symm rfl rfl fun desk' _ => ?_
  change (if desk' = desk then deskFullyCovered _ now (s.case.metadata.desk desk')
    else s.case.metadata.desk desk').invokedAt = _
  split <;> rfl

end

theorem currentAgentId_repair :
    (repairPrematureWarehouseArchive env s).case.currentAgentId = s.case.currentAgentId :=
  (quiet_repairPrematureWarehouseArchive env s).currentAgentId

variable (heligible : supplierEligible s.case = true) (hsame : sameCoverage evidence s.case)
  (hspec : availabilitySpecForCase env s.case = some desk)
include heligible hsame hspec

/-- A full coverage gives the case to the purchase manager in every cycle. -/
theorem undisturbed_full_iff (hstatus : evidence.status = .full) :
    Undisturbed s (reconcileSupplierOrders env (some evidence) now s) ↔
      settled desk evidence.status s.case := by
  have hcycle : cycle evidence now desk s = routeCovered desk now (covered evidence now desk s) := by
    unfold cycle routeUnderCoverage covers covered
    rw [hstatus]
    rfl
  rw [reconcileSupplierOrders_same env evidence now heligible hsame hspec, hcycle]
  have hdesk := not_manager env hspec
  by_cases hagent : s.case.currentAgentId = some purchaseManager
  swap
  · -- the case goes to the purchase manager
    constructor
    · intro h
      have hsameAgent := h.currentAgentId
      rw [currentAgentId_repair] at hsameAgent
      exact absurd hsameAgent.symm hagent
    · intro h
      unfold settled at h
      rw [hstatus] at h
      exact absurd h.2.2.2.1 hagent
  have hother : (covered evidence now desk s).case.currentAgentId ≠ some desk.agentId := by
    rw [(quiet_covered now).currentAgentId, hagent]
    exact manager_ne_agentId (availabilitySpec_cases env hspec)
  have hbyTmc : archivedByTmc desk (covered evidence now desk s).case.metadata =
      archivedByTmc desk s.case.metadata := by
    refine archivedByTmc_congr rfl rfl ?_
    rw [desk_covered now hdesk, if_pos rfl]
    exact congrArg Marks.autoArchivedReason (marks_outputUnderCoverage evidence.status _)
  have hspec' : availabilitySpecForCase env
      (routeCovered desk now (covered evidence now desk s)).case = some desk := by
    rw [spec_routeCovered env now hother ((quiet_covered now).currentAgentId.trans hagent),
      spec_covered env now hdesk, hspec]
  have hquiet := quiet_repairPrematureWarehouseArchive env
    (routeCovered desk now (covered evidence now desk s))
  rw [undisturbed_iff (hquiet.status.trans (status_routeCovered now hother))
    ((controlPoint_repair env).trans (controlPoint_routeCovered now hother))
    (hquiet.currentAgentId.trans hagent.symm)
    (hquiet.currentTaskId.trans ((currentTaskId_routeCovered now hother).trans
      (quiet_covered now).currentTaskId))
    (hquiet.tasks.trans ((tasks_routeCovered now hother).trans (quiet_covered now).tasks))]
  rw [marks_iff evidence now hdesk
    (coveredMarks (archivedByTmc desk s.case.metadata) (s.case.metadata.desk desk))]
  · unfold settled
    rw [hstatus]
    dsimp only
    rw [marks_eq_coveredMarks_iff]
    constructor
    · rintro ⟨hordered, hpoint, hmanager, hown⟩
      exact ⟨hmanager, hordered, hpoint, hagent, hown⟩
    · rintro ⟨hmanager, hordered, hpoint, -, hown⟩
      exact ⟨hordered, hpoint, hmanager, hown⟩
  · rw [desk_repair env hspec', if_pos rfl, archivedByTmc_routeCovered now hother, hbyTmc,
      desk_routeCovered now hother, if_pos rfl, hbyTmc, marks_repaired_deskFullyCovered,
      desk_covered now hdesk, if_pos rfl]
    exact coveredMarks_congr _ (marks_outputUnderCoverage _ _)
  · intro desk' hne
    rw [desk_repair env hspec', if_neg hne, desk_routeCovered now hother, if_neg hne,
      desk_covered now hdesk, if_neg hne]

theorem undisturbed_reconcile_iff :
    Undisturbed s (reconcileSupplierOrders env (some evidence) now s) ↔
      settled desk evidence.status s.case := by
  cases hstatus : evidence.status with
  | uncovered => rw [← hstatus]; exact undisturbed_uncovered_iff env now heligible hsame hspec hstatus
  | partly => rw [← hstatus]; exact undisturbed_partly_iff env now heligible hsame hspec hstatus
  | full => rw [← hstatus]; exact undisturbed_full_iff env now heligible hsame hspec hstatus

end

theorem Undisturbed.refl (s : State) : Undisturbed s s :=
  ⟨rfl, rfl, rfl, rfl, rfl, fun _ => rfl⟩

/-- After every run, a supplier reconciliation that finds the same coverage leaves a case that was
handed over to quality control alone exactly when the service does not read the case, or the cycle
finds what it would write. -/
theorem keepsQuality_iff (env : Env) (w : World) (steps : List Step) (evidence : CoverageEvidence)
    (now : Time) :
    KeepsQuality env w steps evidence now ↔
      (OnceHandedOff env w steps → sameCoverage evidence (w.run env steps).state.case →
        supplierEligible (w.run env steps).state.case = true →
          ∀ desk, availabilitySpecForCase env (w.run env steps).state.case = some desk →
            settled desk evidence.status (w.run env steps).state.case) := by
  refine forall_congr' fun _ => forall_congr' fun hsame => ?_
  change Undisturbed _ (reconcileSupplierOrders env (some evidence) now _) ↔ _
  constructor
  · intro h heligible desk hspec
    exact (undisturbed_reconcile_iff env now heligible hsame hspec).mp h
  · intro h
    cases heligible : supplierEligible (w.run env steps).state.case with
    | false =>
      unfold reconcileSupplierOrders
      rw [heligible]
      exact .refl _
    | true =>
      obtain ⟨desk, hspec⟩ := exists_availabilitySpec env heligible
      exact (undisturbed_reconcile_iff env now heligible hsame hspec).mpr (h heligible desk hspec)

def orderedInFull : CoverageEvidence := ⟨.full, "f", ["o"], none, none⟩

/-- The order has an entry in the journal, and the case goes to quality control. -/
def orderedAndPresented : List Step :=
  [.operation (.supplier (some orderedInFull) "t"),
    .operation (.journal ⟨[("o", "j")], true, false⟩ "t")]

/-- The next cycle of the supplier reconciliation takes the case back from quality control. -/
theorem keepsQuality_orderedAndPresented_fails :
    ¬ KeepsQuality plainEnv plainWorld orderedAndPresented orderedInFull "t" := by
  intro h
  have hquality : (plainWorld.run plainEnv orderedAndPresented).state.case.status =
      .qualityAssigned := by
    decide +kernel
  have hback : ((Step.operation (.supplier (some orderedInFull) "t")).apply plainEnv
      (plainWorld.run plainEnv orderedAndPresented)).state.case.status = .ordered := by
    decide +kernel
  have hsame : sameCoverage orderedInFull
      (plainWorld.run plainEnv orderedAndPresented).state.case := by
    unfold sameCoverage
    decide +kernel
  have hoff : (plainWorld.run plainEnv orderedAndPresented).state.case.handedOff = true := by
    decide +kernel
  have hstatus := (h ⟨orderedAndPresented, [], rfl, hoff⟩ hsame).status
  rw [hquality, hback] at hstatus
  cases hstatus

end AgentBack.Orchestrator
