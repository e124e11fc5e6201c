import AgentBack.Base.Guarded
import AgentBack.Laws.Orchestrator.Pointers

/-!
# One live task

A case that is not closed has at most one live task, the case points to it and has its agent
(`OneLiveTask`). Each operation keeps this in the states in which it is orderly
(`Step.pointed`), so it holds in every state of a run of orderly steps (`oneLiveTask_run`). An
operation that is not orderly gives the case to an agent while the live task is another one's.
-/

namespace AgentBack.Orchestrator

section
variable {strict : Bool} {s : State} (env : Env) (now : Time)

/-- The live task suits the agents that a coverage gives the case to. -/
def suitsCoverage (desk : Desk) (previous : Option Coverage.CoverageStatus)
    (status : Coverage.CoverageStatus) (s : State) : Prop :=
  if status = .full then
    s.Suits (some desk.agentId) ∨ s.Suits (some purchaseManager)
  else previous = some .full → s.Suits (some desk.agentId)

variable (h : s.Pointed strict)
include h

theorem idle_cancelUnlessSettled {id : TaskId} {task : Task} {s' : State}
    (hcurrent : s.case.currentTaskId = some id) (htask : s.task? id = some task)
    (htasks : s'.tasks = (if task.status.settled then s else s.setTaskStatus id .cancelled).tasks) :
    s'.Idle := by
  split at htasks
  · next hsettled =>
    refine (h.idle fun task' htask' => ?_).congr htasks
    rw [currentTask?_eq hcurrent, htask] at htask'
    cases htask'
    cases hstatus : task.status <;> rw [hstatus] at hsettled <;> first | rfl | cases hsettled
  · exact h.idle_setTaskStatus hcurrent rfl htasks

theorem idle_cancelCoveredTask : s.cancelCoveredTask.Idle := by
  unfold State.cancelCoveredTask
  split
  · next hnone => exact h.idle_of_none hnone
  · next id hcurrent =>
    cases htask : s.task? id with
    | none =>
      refine State.Idle.congr (h.idle fun task htask' => ?_) rfl
      rw [currentTask?_eq hcurrent, htask] at htask'
      cases htask'
    | some task => exact idle_cancelUnlessSettled h hcurrent htask rfl

theorem pointed_routeCovered (desk : Desk)
    (hsuits : strict = true → s.Suits (some desk.agentId) ∨ s.Suits (some purchaseManager)) :
    (routeCovered desk now s).Pointed strict := by
  unfold routeCovered
  dsimp only
  generalize hcovered : State.withCase _ (s.withDesk desk _) = covered
  have htasks : covered.tasks = s.tasks := by rw [← hcovered]; rfl
  have hid : covered.case.currentTaskId = s.case.currentTaskId := by rw [← hcovered]; rfl
  have hagent : covered.case.currentAgentId = s.case.currentAgentId := by rw [← hcovered]; rfl
  have hpointed : covered.Pointed strict := h.of_tasks htasks hid fun hs => by
    rw [hagent]
    exact h.suits_self hs
  split
  · exact ((idle_cancelCoveredTask hpointed).withCase _).pointed
  · next hother =>
    refine h.of_tasks htasks hid fun hs task htask hlive => ?_
    rcases hsuits hs with hdesk | hmanager
    · have hsame := (h.suits_self hs task htask hlive).trans (hdesk task htask hlive).symm
      exact absurd (hagent.trans hsame) hother
    · exact hmanager task htask hlive

theorem pointed_routeUnderCoverage (desk : Desk) (previous : Option Coverage.CoverageStatus)
    (status : Coverage.CoverageStatus)
    (hsuits : strict = true → suitsCoverage desk previous status s) :
    (routeUnderCoverage desk previous status now s).Pointed strict := by
  unfold routeUnderCoverage
  unfold suitsCoverage at hsuits
  split
  · next hfull =>
    rw [if_pos hfull] at hsuits
    exact pointed_routeCovered now h desk hsuits
  next hopen =>
  rw [if_neg hopen] at hsuits
  split
  · next hprevious => exact h.of_tasks rfl rfl fun hs => hsuits hs hprevious
  split
  · exact h.of_tasks rfl rfl fun hs => h.suits_self hs
  · exact h

theorem pointed_applySupplierCoverage (evidence : CoverageEvidence)
    (hsuits : strict = true → ∀ desk, availabilitySpecForCase env s.case = some desk →
      suitsCoverage desk s.case.metadata.coverageStatus evidence.status s) :
    (applySupplierCoverage env evidence now s).Pointed strict := by
  have hrecorded := (quiet_withCase (f := recordCoverage evidence now) (fun _ => rfl) s).pointed h
  have hspec : availabilitySpecForCase env (s.withCase (recordCoverage evidence now)).case =
      availabilitySpecForCase env s.case := rfl
  unfold applySupplierCoverage
  dsimp only
  rw [hspec]
  generalize hprevious : s.case.metadata.coverageStatus = previous at hsuits
  cases hdesk : availabilitySpecForCase env s.case with
  | none =>
    dsimp only
    split
    · exact hrecorded
    · exact (quiet_noteCoverage _ _ _ _).pointed hrecorded
  | some desk =>
    dsimp only
    have hrouted : (routeUnderCoverage desk previous evidence.status now
        (if covers evidence.status then (s.withCase (recordCoverage evidence now)).withDesk desk
          (outputUnderCoverage evidence.status)
        else s.withCase (recordCoverage evidence now))).Pointed strict := by
      apply pointed_routeUnderCoverage
      · split
        · exact (quiet_withDesk _ _ _).pointed hrecorded
        · exact hrecorded
      · intro hs
        have hsuit := hsuits hs desk hdesk
        split
        · exact hsuit
        · exact hsuit
    split
    · exact hrouted
    · exact (quiet_noteCoverage _ _ _ _).pointed hrouted

theorem pointed_reconcileSupplierOrders (evidence : Option CoverageEvidence)
    (hsuits : strict = true → supplierEligible s.case = true → ∀ known, evidence = some known →
      ∀ desk, availabilitySpecForCase env s.case = some desk →
        suitsCoverage desk s.case.metadata.coverageStatus known.status s) :
    (reconcileSupplierOrders env evidence now s).Pointed strict := by
  unfold reconcileSupplierOrders
  split
  · exact h
  next heligible =>
  rw [Bool.not_eq_true', Bool.not_eq_false] at heligible
  split
  · exact (quiet_repairPrematureWarehouseArchive env s).pointed h
  · next known =>
    have happlied := pointed_applySupplierCoverage env now h known fun hs =>
      hsuits hs heligible known rfl
    dsimp only
    split
    · exact happlied
    · exact (quiet_repairPrematureWarehouseArchive env _).pointed happlied

end

/-! ## The journal -/

def toQuality (s : State) : State :=
  s.withCase fun c => { c with currentAgentId := some qualityEngineer, status := .qualityAssigned }

/-- The live task suits the agents that the journal gives the case to. -/
def suitsJournal (env : Env) (evidence : JournalEvidence) (now : Time) (s : State) : Prop :=
  match journalStatus (journalRows evidence s.case), s.case.metadata.otkStartedAt with
  | .partly, none =>
    starts env (toQuality s) = true →
      s.case.currentAgentId = some (nextAgentId env (toQuality s).case)
  | .full, none =>
    if starts env (toQuality s) then nextAgentId env (toQuality s).case = qualityEngineer
    else s.Suits (some qualityEngineer)
  | .full, some _ =>
    s.case.metadata.otkHandedOffAt = none →
      s.case.currentAgentId = some purchaseManager ∨ s.Suits (some qualityEngineer) ∨
        starts env (moveToOtk now s) = true
  | _, _ => True

section
variable {strict : Bool} {s : State} (env : Env) (now : Time)

theorem pointed_startOtk (h : s.Pointed strict) (status : TmcStatus)
    (hpartly : strict = true → status = .partly → starts env (toQuality s) = true →
      s.case.currentAgentId = some (nextAgentId env (toQuality s).case))
    (hfull : strict = true → status ≠ .partly → starts env (toQuality s) = false →
      s.Suits (some qualityEngineer)) :
    (startOtk env status now s).Pointed strict := by
  have hquality : (toQuality s).Pointed false := h.weaken.of_tasks rfl rfl (by simp)
  unfold startOtk
  dsimp only
  change State.Pointed strict (if status = .partly then
    (enqueueRoleAgent env now (toQuality s)).withCase _ else enqueueRoleAgent env now (toQuality s))
  cases hstarts : starts env (toQuality s) with
  | true =>
    have hstarted : (enqueueRoleAgent env now (toQuality s)).Pointed strict :=
      pointed_enqueueRoleAgent_of_starts env now hquality hstarts
    split
    · next hp =>
      refine hstarted.of_tasks rfl rfl fun hs => ?_
      change State.Suits s.case.currentAgentId _
      rw [hpartly hs hp hstarts, ← currentAgentId_enqueueRoleAgent hstarts now]
      exact hstarted.suits_self hs
    · exact hstarted
  | false =>
    rw [enqueueRoleAgent_of_not_starts env now hstarts]
    split
    · exact h.of_tasks rfl rfl fun hs => h.suits_self hs
    · next hp => exact h.of_tasks rfl rfl fun hs => hfull hs hp hstarts

theorem idle_cancelPresentedTask (h : s.Pointed strict) : s.cancelPresentedTask.Idle := by
  unfold State.cancelPresentedTask
  split
  · next hnone => exact h.idle_of_none hnone
  · next id hcurrent =>
    split
    · next task htask => exact idle_cancelUnlessSettled h hcurrent htask rfl
    · next htask =>
      refine h.idle fun task htask' => ?_
      rw [currentTask?_eq hcurrent, htask] at htask'
      cases htask'

theorem case_cancelPresentedTask (s : State) :
    s.cancelPresentedTask.case = s.case := by
  unfold State.cancelPresentedTask
  split
  · rfl
  · split
    · split <;> rfl
    · rfl

theorem pointed_moveToOtk (h : s.Pointed false)
    (hsuits : strict = true → s.case.currentAgentId = some purchaseManager ∨
      s.Suits (some qualityEngineer)) : (moveToOtk now s).Pointed strict := by
  unfold moveToOtk
  dsimp only
  refine (quiet_noteEvent _ _ _).pointed ?_
  split
  · exact ((idle_cancelPresentedTask h).withCase _).pointed
  · next hother =>
    intro id task htask hlive
    obtain ⟨hcurrent, -⟩ := h id task htask hlive
    refine ⟨hcurrent, fun hs => ?_⟩
    rcases hsuits hs with hmanager | hquality
    · exact absurd hmanager hother
    · exact hquality task ((currentTask?_eq hcurrent).trans htask) hlive

theorem suits_congr {s' : State} (hid : s'.case.currentTaskId = s.case.currentTaskId)
    (htasks : s'.tasks = s.tasks) {agent : Option AgentId} (h : s.Suits agent) :
    s'.Suits agent := by
  intro task htask
  apply h
  unfold State.currentTask? State.task? at htask ⊢
  rw [← hid, ← htasks]
  exact htask

theorem moveToOtk_congr {s' : State} (hcase : s'.case = s.case) (htasks : s'.tasks = s.tasks) :
    (moveToOtk now s').case = (moveToOtk now s).case ∧
      (moveToOtk now s').tasks = (moveToOtk now s).tasks := by
  have hcancelled : s'.cancelPresentedTask.tasks = s.cancelPresentedTask.tasks := by
    unfold State.cancelPresentedTask State.task?
    rw [hcase, htasks]
    split
    · exact htasks
    · split
      · split
        · exact htasks
        · unfold State.setTaskStatus State.withTask
          rw [htasks]
      · exact htasks
  unfold moveToOtk
  dsimp only
  rw [case_noteEvent, case_noteEvent, tasks_noteEvent, tasks_noteEvent, hcase]
  split
  · exact ⟨by rw [case_withCase, case_withCase, case_cancelPresentedTask, case_cancelPresentedTask,
      hcase], hcancelled⟩
  · exact ⟨by rw [case_withCase, case_withCase, hcase], htasks⟩

/-- The state of the work is the same but for its history. -/
theorem state_settleAvailability (evidence : JournalEvidence) (w : JournalWork) :
    (settleAvailability evidence now w).state.case = w.state.case ∧
      (settleAvailability evidence now w).state.tasks = w.state.tasks := by
  unfold settleAvailability
  split
  · exact ⟨rfl, rfl⟩
  unfold archiveWarehouseWorkspace
  split
  · exact ⟨rfl, rfl⟩
  dsimp only
  split
  · exact ⟨rfl, rfl⟩
  · exact ⟨case_noteEvent _ _ _, tasks_noteEvent _ _ _⟩

theorem pointed_handOffToOtk (evidence : JournalEvidence) (justStarted : Bool) (w : JournalWork)
    (h : w.state.Pointed strict)
    (hsuits : strict = true → w.state.case.currentAgentId = some purchaseManager ∨
      w.state.Suits (some qualityEngineer) ∨
        justStarted = false ∧ starts env (moveToOtk now w.state) = true) :
    (handOffToOtk env evidence justStarted now w).state.Pointed strict := by
  obtain ⟨hcase, htasks⟩ := state_settleAvailability now evidence (archiveManager now w)
  change _ = w.state.case at hcase
  change _ = w.state.tasks at htasks
  have hsettled := (quiet_settleAvailability now evidence (archiveManager now w)).pointed h
  unfold handOffToOtk
  dsimp only
  generalize (settleAvailability evidence now (archiveManager now w)).state = settled at *
  obtain ⟨hmovedCase, hmovedTasks⟩ := moveToOtk_congr now hcase htasks
  have hmoved : ∀ strict', (strict' = true → w.state.case.currentAgentId = some purchaseManager ∨
      w.state.Suits (some qualityEngineer)) → (moveToOtk now settled).Pointed strict' := by
    intro strict' hs
    refine pointed_moveToOtk now hsettled.weaken fun ht => ?_
    rcases hs ht with hmanager | hquality
    · exact .inl (by rw [hcase]; exact hmanager)
    · exact .inr (suits_congr (congrArg Case.currentTaskId hcase) htasks hquality)
  have hfits : (moveToOtk now settled).Pointed strict ∨
      justStarted = false ∧ starts env (moveToOtk now settled) = true := by
    cases strict with
    | false => exact .inl (hmoved false (by simp))
    | true =>
      rcases hsuits rfl with hmanager | hquality | ⟨hlater, hstarts⟩
      · exact .inl (hmoved true fun _ => .inl hmanager)
      · exact .inl (hmoved true fun _ => .inr hquality)
      · exact .inr ⟨hlater, (starts_congr hmovedCase hmovedTasks env).trans hstarts⟩
  rcases hfits with hpointed | ⟨rfl, hstarts⟩
  · split
    · exact hpointed
    · exact pointed_enqueueRoleAgent env now hpointed
  · exact pointed_enqueueRoleAgent_of_starts env now (hmoved false (by simp)) hstarts

/-- The work has the state of the case and its marks of quality control. -/
structure Copied (s : State) (w : JournalWork) : Prop where
  state : w.state = s
  started : w.metadata.otkStartedAt = s.case.metadata.otkStartedAt
  handedOff : w.metadata.otkHandedOffAt = s.case.metadata.otkHandedOffAt

section

variable (h : s.Pointed strict) (evidence : JournalEvidence) {w : JournalWork} (hw : Copied s w)
  (hsuits : strict = true → suitsJournal env evidence now s) {status : TmcStatus}
  (hrows : journalStatus (journalRows evidence s.case) = status) (hstatus : status ≠ .uncovered)
include h hw hsuits hrows hstatus

/-- What is known when quality control is assigned: the pointers are right, and a hand-off that
follows keeps them right. -/
theorem pointed_assignOtk :
    (assignOtk env status now w).state.Pointed strict ∧
      (strict = true → status = .full → w.metadata.otkHandedOffAt.isSome = false →
        (assignOtk env status now w).state.case.currentAgentId = some purchaseManager ∨
        (assignOtk env status now w).state.Suits (some qualityEngineer) ∨
          (!w.metadata.otkStartedAt.isSome) = false ∧
            starts env (moveToOtk now (assignOtk env status now w).state) = true) := by
  unfold suitsJournal at hsuits
  rw [hrows] at hsuits
  unfold assignOtk
  dsimp only
  rw [hw.started, hw.handedOff, hw.state]
  cases hstarted : s.case.metadata.otkStartedAt with
  | some at' =>
    rw [hstarted] at hsuits
    dsimp only [Option.isSome_some]
    refine ⟨h, fun hs hfull hhanded => ?_⟩
    subst hfull
    rcases hsuits hs (Option.not_isSome_iff_eq_none.mp (by rw [hhanded]; decide)) with
      hmanager | hquality | hstarts
    · exact .inl hmanager
    · exact .inr (.inl hquality)
    · exact .inr (.inr ⟨rfl, hstarts⟩)
  | none =>
    rw [hstarted] at hsuits
    dsimp only [Option.isSome_none]
    generalize hnoted : s.noteEvent "otk_agent_assigned" _ = noted
    have hcase : noted.case = s.case := by rw [← hnoted, case_noteEvent]
    have htasks : noted.tasks = s.tasks := by rw [← hnoted, tasks_noteEvent]
    have hpointed : noted.Pointed strict := hnoted ▸ (quiet_noteEvent _ _ s).pointed h
    have hquality : (toQuality noted).case = (toQuality s).case := by
      unfold toQuality
      rw [case_withCase, case_withCase, hcase]
    have hstarts : starts env (toQuality noted) = starts env (toQuality s) :=
      starts_congr hquality htasks env
    have hstartOtk : (startOtk env status now noted).Pointed strict := by
      apply pointed_startOtk env now hpointed
      · rintro hs rfl hyes
        rw [hcase, hquality]
        exact hsuits hs (hstarts.symm.trans hyes)
      · intro hs hnot hno
        have hfull : status = .full := by
          cases status <;> first | rfl | exact absurd rfl hnot | exact absurd rfl hstatus
        subst hfull
        have hfits := hsuits hs
        dsimp only at hfits
        rw [if_neg (by rw [← hstarts, hno]; decide)] at hfits
        exact suits_congr (congrArg Case.currentTaskId hcase) htasks hfits
    refine ⟨hstartOtk, fun hs hfull _ => .inr (.inl ?_)⟩
    subst hfull
    have hfits := hsuits hs
    dsimp only at hfits
    have hresult : startOtk env .full now noted = enqueueRoleAgent env now (toQuality noted) := rfl
    cases hyes : starts env (toQuality s) with
    | true =>
      rw [if_pos hyes] at hfits
      have hagent := currentAgentId_enqueueRoleAgent (hstarts.trans hyes) now
      rw [hquality, hfits, ← hresult] at hagent
      exact hagent ▸ hstartOtk.suits_self hs
    | false =>
      rw [if_neg (by rw [hyes]; decide)] at hfits
      rw [if_neg (by decide), hresult, enqueueRoleAgent_of_not_starts env now (hstarts.trans hyes)]
      exact suits_congr (congrArg Case.currentTaskId hcase) htasks hfits

theorem pointed_presentToOtk (changed : Bool) :
    (presentToOtk env evidence status now changed w).1.state.Pointed strict := by
  obtain ⟨hassigned, hhandOff⟩ := pointed_assignOtk env now h evidence hw hsuits hrows hstatus
  unfold presentToOtk
  dsimp only
  split
  · next hfull =>
    exact pointed_handOffToOtk env now evidence _ _ hassigned fun hs =>
      hhandOff hs hfull.1 hfull.2
  split
  · exact (quiet_archiveWarehouseWorkspace now evidence _).pointed hassigned
  split
  · unfold showQuality
    split
    · exact hassigned.of_tasks rfl rfl fun hs => hassigned.suits_self hs
    · exact hassigned
  · exact hassigned

end

theorem pointed_reconcilePresentations (h : s.Pointed strict) (evidence : JournalEvidence)
    (hsuits : strict = true → journalEligible s.case = true → suitsJournal env evidence now s) :
    (reconcilePresentations env evidence now s).Pointed strict := by
  unfold reconcilePresentations
  split
  · next heligible =>
    unfold applyJournal
    split
    · exact h
    dsimp only
    refine (quiet_noteSome _ _ _).pointed ?_
    have hwork : (workJournal env evidence (journalRows evidence s.case) now s).1.state.Pointed
        strict := by
      unfold workJournal
      dsimp only
      split
      · exact h
      · next hstatus =>
        exact pointed_presentToOtk env now h evidence ⟨rfl, rfl, rfl⟩
          (fun hs => hsuits hs heligible) rfl hstatus _
    exact hwork.of_tasks rfl rfl fun hs => hwork.suits_self hs
  · exact h

end

/-! ## Results -/

/-- A result of the task fits the pointers: what is still waited for has to be the current task of the
agent of the case, and what is completed leaves no other task behind. -/
def State.Takes (strict : Bool) (id : TaskId) (result : RoleResult) (s : State) : Prop :=
  match result.roleStatus with
  | .failed => True
  | .completed => ∀ id' task, s.task? id' = some task → task.status.live = true → id' = id
  | .waitingHuman | .waitingExternal =>
    s.case.currentTaskId = some id ∧
      (strict = true → ∀ task, s.task? id = some task → s.case.currentAgentId = some task.agentSlug)

section
variable {strict : Bool} {s : State} (env : Env) (now : Time)

variable {id : TaskId} {result : RoleResult}

theorem idle_completedState (h : ∀ id' task, s.task? id' = some task →
    task.status.live = true → id' = id) (agentId : AgentId) (result : RoleResult) :
    (completedState agentId id result now s).Idle := by
  intro id' task htask
  rw [task?_congr (tasks_completedState agentId id result now s), task?_setTaskStatus] at htask
  split at htask
  · obtain ⟨task', -, rfl⟩ := Option.map_eq_some_iff.mp htask
    rfl
  · next hid =>
    cases hlive : task.status.live with
    | false => rfl
    | true => exact absurd (h id' task htask hlive).symm hid

theorem pointed_handOffAfter (h : s.Idle) (agentId : AgentId) (id : TaskId) (result : RoleResult)
    (previous : CaseStatus) : (handOffAfter env agentId id result previous now s).Pointed strict := by
  have hhandOff : ∀ desk bucket nextAgent controlPoint eventType key,
      (handOff env desk bucket nextAgent controlPoint eventType key previous now s).Pointed strict := by
    intro desk bucket nextAgent controlPoint eventType key
    unfold handOff
    dsimp only
    apply pointed_enqueueRoleAgent
    refine (quiet_appendEvent _ _ _ _ _).pointed ?_
    have hdone : (s.withDesk desk fun w =>
        { doneDesk bucket now w with handoffAgentId := some nextAgent }).Idle := h.congr rfl
    exact (hdone.withCase _).pointed
  unfold handOffAfter
  split
  · exact hhandOff _ _ _ _ _ _
  split
  · exact hhandOff _ _ _ _ _ _
  · exact h.pointed

theorem pointed_applyRoleStatus (h : s.Pointed strict) (agentId : AgentId) (htakes : s.Takes strict id result) :
    (applyRoleStatus env agentId id result now s).Pointed strict := by
  unfold State.Takes at htakes
  unfold applyRoleStatus
  have hwaits : ∀ {s' : State} {status : TaskStatus},
      s'.tasks = (s.setTaskStatus id status).tasks →
      s'.case.currentTaskId = s.case.currentTaskId →
      s'.case.currentAgentId = s.case.currentAgentId →
      (s.case.currentTaskId = some id ∧ (strict = true → ∀ task, s.task? id = some task →
        s.case.currentAgentId = some task.agentSlug)) → s'.Pointed strict := by
    intro s' status htasks hid hagent hfits
    exact h.setTaskStatus htasks hid hagent fun task htask _ =>
      ⟨hfits.1, fun hs => hfits.2 hs task htask⟩
  cases hstatus : result.roleStatus with
  | waitingHuman =>
    rw [hstatus] at htakes
    refine hwaits (tasks_applyWaitingHuman agentId id result s) ?_ ?_ htakes
    · unfold applyWaitingHuman
      dsimp only
      split <;> rfl
    · unfold applyWaitingHuman
      dsimp only
      split <;> rfl
  | waitingExternal =>
    rw [hstatus] at htakes
    exact hwaits (tasks_applyWaitingExternal agentId id s) rfl rfl htakes
  | completed =>
    rw [hstatus] at htakes
    dsimp only
    rw [applyCompleted_eq]
    exact pointed_handOffAfter env now (idle_completedState now htakes agentId result) _ _ _ _
  | failed =>
    exact h.setTaskStatus (tasks_applyFailed id s) rfl rfl fun _ _ hlive => by cases hlive

/-- A recorded result changes neither the status nor the agent of a task. -/
theorem task_recordResult {agentId : AgentId} {sourceData : Revision} {id' : TaskId} {task : Task}
    (h : (recordResult agentId id result sourceData s).task? id' = some task) :
    ∃ task', s.task? id' = some task' ∧ task.status = task'.status ∧
      task.agentSlug = task'.agentSlug := by
  unfold recordResult at h
  rw [task?_withTask] at h
  split at h
  · obtain ⟨task', htask', rfl⟩ := Option.map_eq_some_iff.mp h
    exact ⟨task', htask', rfl, rfl⟩
  · exact ⟨task, h, rfl, rfl⟩

theorem pointed_recordResult (h : s.Pointed strict) (agentId : AgentId) (id : TaskId)
    (result : RoleResult) (sourceData : Revision) :
    (recordResult agentId id result sourceData s).Pointed strict := by
  intro id' task htask hlive
  obtain ⟨task', htask', hstatus, hslug⟩ := task_recordResult htask
  rw [hslug]
  exact h id' task' htask' (hstatus ▸ hlive)

theorem takes_recordResult (h : s.Takes strict id result)
    (agentId : AgentId) (result' : RoleResult) (hsame : result'.roleStatus = result.roleStatus)
    (sourceData : Revision) :
    (recordResult agentId id result' sourceData s).Takes strict id result' := by
  unfold State.Takes at h ⊢
  rw [hsame]
  cases hstatus : result.roleStatus with
  | failed => trivial
  | completed =>
    rw [hstatus] at h
    intro id' task htask hlive
    obtain ⟨task', htask', hlive', -⟩ := task_recordResult htask
    exact h id' task' htask' (hlive' ▸ hlive)
  | waitingHuman | waitingExternal =>
    rw [hstatus] at h
    refine ⟨h.1, fun hs task htask => ?_⟩
    obtain ⟨task', htask', -, hslug⟩ := task_recordResult htask
    rw [hslug]
    exact h.2 hs task' htask'

variable (h : s.Pointed strict)
include h

theorem pointed_applyRoleAgentResult (eventType : String) (htakes : s.Takes strict id result) :
    (applyRoleAgentResult env eventType id result now s).Pointed strict := by
  unfold applyRoleAgentResult
  split
  · exact h
  · dsimp only
    refine (quiet_appendEvent _ _ _ _ _).pointed ?_
    refine pointed_applyRoleStatus env now (pointed_recordResult h _ _ _ _) _ ?_
    exact takes_recordResult htakes _ _ (by rfl) _

/-- A completed result of the current task leaves no other live task behind. -/
theorem State.Pointed.takes_completed (hcurrent : s.case.currentTaskId = some id)
    (hcompleted : result.roleStatus = .completed) :
    s.Takes strict id result := by
  unfold State.Takes
  rw [hcompleted]
  intro id' task htask hlive
  exact Option.some.inj ((h id' task htask hlive).1.symm.trans hcurrent)

/-- A failed task that is resumed and waits again is a task of the agent of the case. -/
def suitsResume (result : RoleResult) (s : State) : Prop :=
  result.roleStatus = .waitingHuman ∨ result.roleStatus = .waitingExternal →
    ∀ task, s.currentTask? = some task → task.status = .failed →
      s.case.currentAgentId = some task.agentSlug

theorem pointed_resumeCaseAgent (result : RoleResult)
    (hsuits : strict = true → suitsResume result s) :
    (resumeCaseAgent env result now s).Pointed strict := by
  refine resumeCaseAgent_of env result (P := State.Pointed strict) h ?_
  intro id task hcurrent htask hstatus
  rw [Bool.or_eq_true, beq_iff_eq] at hstatus
  have htask' := (currentTask?_eq hcurrent).symm.trans htask
  have hagent : strict = true →
      (result.roleStatus = .waitingHuman ∨ result.roleStatus = .waitingExternal) →
      ∀ task', s.task? id = some task' → s.case.currentAgentId = some task'.agentSlug := by
    intro hs hwaits task'' htask''
    cases htask'.symm.trans htask''
    rcases hstatus with hwaiting | hfailed
    · exact h.suits_self hs task htask (live_of_waiting hwaiting)
    · exact hsuits hs hwaits task htask hfailed
  apply pointed_applyRoleAgentResult env now h
  cases hrole : result.roleStatus with
  | completed => exact h.takes_completed hcurrent hrole
  | failed =>
    unfold State.Takes
    rw [hrole]
    trivial
  | waitingHuman =>
    unfold State.Takes
    rw [hrole]
    exact ⟨hcurrent, fun hs => hagent hs (.inl hrole)⟩
  | waitingExternal =>
    unfold State.Takes
    rw [hrole]
    exact ⟨hcurrent, fun hs => hagent hs (.inr hrole)⟩

theorem pointed_confirm (k : Confirmation) (user : String) :
    (confirm env k user now s).1.Pointed strict := by
  refine confirm_of env (P := State.Pointed strict) h ?_
  intro id task hcurrent _ _ _ _
  have hquiet := quiet_confirmedState now s k user id
  have hnoted := hquiet.pointed h
  exact pointed_applyRoleAgentResult env now hnoted _
    (hnoted.takes_completed (hquiet.currentTaskId.trans hcurrent) rfl)

end

/-- The operation gives the case to no agent while the live task is another one's. -/
def Operation.Orderly (env : Env) : Operation → State → Prop
  | .migrate _, s => migrates env s.case = true →
      s.Suits (some productionPreparationEngineer) ∨ starts env (takenFromEngineer s) = true
  | .purchase _ _, s => givesToManager s.case = true →
      ∀ task, s.currentTask? = some task → task.agentSlug ≠ purchaseManager →
        task.status ≠ .planning ∧ task.status ≠ .running
  | .supplier evidence _, s => supplierEligible s.case = true → ∀ known, evidence = some known →
      ∀ desk, availabilitySpecForCase env s.case = some desk →
        suitsCoverage desk s.case.metadata.coverageStatus known.status s
  | .journal evidence now, s => journalEligible s.case = true → suitsJournal env evidence now s
  | .resume result _, s => suitsResume result s
  | _, _ => True

variable {strict : Bool} {s : State}

theorem Operation.pointed {operation : Operation} {env : Env}
    (h : s.Pointed strict) (horderly : strict = true → operation.Orderly env s) :
    (operation.apply env s).Pointed strict := by
  cases operation with
  | upsert document now => exact pointed_upsertCaseFromDocument env now h document
  | closeOutside reason now => exact pointed_closeOutsideActiveRefs env now h reason
  | assign now => exact pointed_ensureActiveCaseAssignment env now h
  | availability desk stale now => exact pointed_ensureWarehouseAvailabilityWork env now h desk stale
  | migrate now => exact pointed_migrateUndecidedEngineerCase env now h horderly
  | purchase stale now => exact pointed_ensurePurchaseManagerWork env now h stale horderly
  | supplier evidence now => exact pointed_reconcileSupplierOrders env now h evidence horderly
  | journal evidence now => exact pointed_reconcilePresentations env now h evidence horderly
  | resume result now => exact pointed_resumeCaseAgent env now h result horderly
  | confirm desk user now =>
    unfold Operation.apply
    dsimp only
    split
    · exact pointed_confirm env now h _ user
    · exact h
  | acknowledge desk user now => exact (quiet_acknowledgeCritical desk user now s).pointed h

/-- The step is orderly: an operation is, a worker starts the task of the agent of the case, and a
result does not come late. -/
def Step.Orderly (strict : Bool) (env : Env) : Step → World → Prop
  | .operation o, w => strict = true → o.Orderly env w.state
  | .start id, w => strict = true → w.state.case.currentTaskId = some id →
      ∀ task, w.state.task? id = some task → w.state.case.currentAgentId = some task.agentSlug
  | .finish id result _, w => w.workers.any (fun worker => worker.task = id) = true →
      w.state.Takes strict id result
  | .crash _, _ => True

theorem pointed_rolledBack (h : s.Pointed strict) {worker : Running}
    (hrunning : (s.task? worker.task).any (fun task => task.status == .running) = true) :
    (s.setTaskStatus worker.task worker.before).Pointed strict := by
  obtain ⟨task, htask, hstatus⟩ := (Option.any_eq_true _ _).mp hrunning
  refine h.setTaskStatus rfl rfl rfl fun task' htask' _ => ?_
  cases htask.symm.trans htask'
  apply h worker.task task htask
  rw [beq_iff_eq.mp hstatus]
  rfl

theorem Step.pointed {env : Env} {step : Step} {w : World}
    (h : w.state.Pointed strict) (horderly : step.Orderly strict env w) :
    (step.apply env w).state.Pointed strict := by
  refine Step.apply_of (P := State.Pointed strict) h ?_ ?_ ?_ ?_
  · rintro operation rfl
    exact operation.pointed h horderly
  · rintro id rfl hcurrent
    exact h.setTaskStatus rfl rfl rfl fun task htask _ =>
      ⟨hcurrent, fun hs => horderly hs hcurrent task htask⟩
  · rintro id result now rfl hrunning
    exact pointed_applyRoleAgentResult env now h _ (horderly hrunning)
  · rintro worker rfl hrunning
    exact pointed_rolledBack h hrunning

/-! ## Runs -/

/-- Every step of a run from the world meets the guard. -/
abbrev GuardedRun (env : Env) (guard : Step → World → Prop) (steps : List Step) (w : World) : Prop :=
  Guarded (fun w step => Step.apply env step w) guard steps w

/-- The case has at most one live task; the case points to it and has its agent. -/
structure OneLiveTask (s : State) : Prop where
  unique : ∀ id id' task task', s.task? id = some task → s.task? id' = some task' →
    task.status.live = true → task'.status.live = true → id = id'
  current : ∀ id task, s.task? id = some task → task.status.live = true →
    s.case.currentTaskId = some id ∧ s.case.currentAgentId = some task.agentSlug

theorem State.Pointed.oneLiveTask (h : s.Pointed true) : OneLiveTask s where
  unique id id' task task' htask htask' hlive hlive' :=
    Option.some.inj ((h id task htask hlive).1.symm.trans (h id' task' htask' hlive').1)
  current id task htask hlive := ⟨(h id task htask hlive).1, (h id task htask hlive).2 rfl⟩

theorem pointed_firstPoll (strict : Bool) (env : Env) (id : String) (document : Document)
    (now : Time) : (firstPoll env id document now).Pointed strict := by
  unfold firstPoll
  apply pointed_enqueueRoleAgent
  intro id' task htask
  cases htask

/-- In a run of orderly steps a case that is not closed has at most one live task, which it points to
and whose agent it has. -/
theorem oneLiveTask_run (env : Env) (id : String) (document : Document) (now : Time)
    (steps : List Step)
    (h : GuardedRun env (Step.Orderly true env) steps (World.first env id document now)) :
    ((World.first env id document now).run env steps).state.case.status.terminal = false →
      OneLiveTask ((World.first env id document now).run env steps).state := by
  intro _
  have hpointed := h.invariant (P := fun w => w.state.Pointed true)
    (fun step w hw hstep => step.pointed hw hstep) (pointed_firstPoll true env id document now)
  exact State.Pointed.oneLiveTask hpointed

theorem agent_of_map {id : TaskId} (h : (s.task? id).map Task.agentSlug = s.case.currentAgentId) :
    ∀ task, s.task? id = some task → s.case.currentAgentId = some task.agentSlug := by
  intro task htask
  rw [← h, htask]
  rfl

def plainWorld : World := World.first plainEnv "case" plainDocument "t"

/-- The agent of the case runs, and waits for a person. -/
def runOnce : List Step := [.start 0, .finish 0 ⟨.waitingHuman, none, none⟩ "t"]

theorem oneLiveTask_run_once :
    (plainWorld.run plainEnv runOnce).state.case.status.terminal = false ∧
      OneLiveTask (plainWorld.run plainEnv runOnce).state := by
  have hopen : (plainWorld.run plainEnv runOnce).state.case.status.terminal = false := by
    decide +kernel
  refine ⟨hopen, oneLiveTask_run plainEnv "case" plainDocument "t" runOnce ?_ hopen⟩
  have hstart : (plainWorld.state.task? 0).map Task.agentSlug =
      plainWorld.state.case.currentAgentId := by
    decide +kernel
  have hcurrent : ((Step.start 0).apply plainEnv plainWorld).state.case.currentTaskId = some 0 := by
    decide +kernel
  have hfinish : (((Step.start 0).apply plainEnv plainWorld).state.task? 0).map Task.agentSlug =
      ((Step.start 0).apply plainEnv plainWorld).state.case.currentAgentId := by
    decide +kernel
  exact ⟨fun _ _ => agent_of_map hstart,
    fun _ => ⟨hcurrent, fun _ => agent_of_map hfinish⟩, trivial⟩

/-- All positions of the case are covered by orders. -/
def fullCoverage : CoverageEvidence := ⟨.full, "f", [], none, none⟩

def noCoverage : CoverageEvidence := ⟨.uncovered, "u", [], none, none⟩

/-- The orders cover all positions, the purchase manager gets a task, and the orders go again. -/
def coveredAndBack : List Step :=
  [.operation (.supplier (some fullCoverage) "t"), .operation (.purchase false "t"),
    .operation (.supplier (some noCoverage) "t")]

/-- The case goes back to the chief of the warehouse complex while the purchase manager has its live
task. -/
theorem oneLiveTask_coveredAndBack_fails :
    (plainWorld.run plainEnv coveredAndBack).state.case.status.terminal = false ∧
      ¬ OneLiveTask (plainWorld.run plainEnv coveredAndBack).state := by
  refine ⟨by decide +kernel, fun h => ?_⟩
  have htask : ((plainWorld.run plainEnv coveredAndBack).state.task? 1).map
      (fun task => (task.agentSlug, task.status)) = some (purchaseManager, .pending) := by
    decide +kernel
  have hagent : (plainWorld.run plainEnv coveredAndBack).state.case.currentAgentId =
      some warehouseComplexChief := by
    decide +kernel
  obtain ⟨task, hfound, hpair⟩ := Option.map_eq_some_iff.mp htask
  obtain ⟨hslug, hstatus⟩ := Prod.mk.inj hpair
  have hcurrent := (h.current 1 task hfound (by rw [hstatus]; rfl)).2
  rw [hagent, hslug] at hcurrent
  exact absurd hcurrent (by decide)

end AgentBack.Orchestrator
