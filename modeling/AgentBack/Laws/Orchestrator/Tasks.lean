import AgentBack.Laws.Orchestrator.Passes
import AgentBack.Orchestrator.Run

/-!
# What the small steps leave alone

The operations are made of small steps on the state. Each lemma says that a field is as it was after
a step that is not about it.
-/

namespace AgentBack.Orchestrator

theorem desk_withDesk (desk desk' : Desk) (f : Workspace → Workspace) (m : Metadata) :
    (m.withDesk desk f).desk desk' = if desk' = desk then f (m.desk desk') else m.desk desk' :=
  rfl

section
variable (s : State)

@[simp] theorem case_withCase (f : Case → Case) : (s.withCase f).case = f s.case := rfl

@[simp] theorem tasks_withCase (f : Case → Case) : (s.withCase f).tasks = s.tasks := rfl

@[simp] theorem events_withCase (f : Case → Case) : (s.withCase f).events = s.events := rfl

@[simp] theorem case_withMetadata (f : Metadata → Metadata) :
    (s.withMetadata f).case = { s.case with metadata := f s.case.metadata } := rfl

@[simp] theorem tasks_withMetadata (f : Metadata → Metadata) :
    (s.withMetadata f).tasks = s.tasks := rfl

@[simp] theorem events_withMetadata (f : Metadata → Metadata) :
    (s.withMetadata f).events = s.events := rfl

@[simp] theorem case_withDesk (desk : Desk) (f : Workspace → Workspace) :
    (s.withDesk desk f).case = { s.case with metadata := s.case.metadata.withDesk desk f } := rfl

@[simp] theorem tasks_withDesk (desk : Desk) (f : Workspace → Workspace) :
    (s.withDesk desk f).tasks = s.tasks := rfl

@[simp] theorem events_withDesk (desk : Desk) (f : Workspace → Workspace) :
    (s.withDesk desk f).events = s.events := rfl

variable (eventType : String) (id : TaskId) (key : String)

@[simp] theorem case_withTask (f : Task → Task) : (s.withTask id f).case = s.case := rfl

@[simp] theorem events_withTask (f : Task → Task) : (s.withTask id f).events = s.events := rfl

@[simp] theorem case_setTaskStatus (status : TaskStatus) :
    (s.setTaskStatus id status).case = s.case := rfl

@[simp] theorem events_setTaskStatus (status : TaskStatus) :
    (s.setTaskStatus id status).events = s.events := rfl

@[simp] theorem case_appendEvent (previous : Option CaseStatus)
    (next : CaseStatus) : (s.appendEvent eventType key previous next).case = s.case := by
  unfold State.appendEvent
  split <;> rfl

@[simp] theorem tasks_appendEvent (previous : Option CaseStatus)
    (next : CaseStatus) : (s.appendEvent eventType key previous next).tasks = s.tasks := by
  unfold State.appendEvent
  split <;> rfl

@[simp] theorem case_noteEvent : (s.noteEvent eventType key).case = s.case :=
  case_appendEvent s _ _ _ _

@[simp] theorem tasks_noteEvent : (s.noteEvent eventType key).tasks = s.tasks :=
  tasks_appendEvent s _ _ _ _

@[simp] theorem case_noteSome (key : Option String) : (s.noteSome eventType key).case = s.case := by
  unfold State.noteSome
  split
  · exact case_noteEvent s _ _
  · rfl

end

theorem task?_setTaskStatus (s : State) (id id' : TaskId) (status : TaskStatus) :
    (s.setTaskStatus id status).task? id' =
      if id = id' then (s.task? id').map fun task => { task with status } else s.task? id' := by
  unfold State.setTaskStatus State.withTask State.task?
  dsimp only
  rw [List.getElem?_modify]
  split
  · rfl
  · exact Option.map_id'

theorem task?_withTask (s : State) (id id' : TaskId) (f : Task → Task) :
    (s.withTask id f).task? id' = if id = id' then (s.task? id').map f else s.task? id' := by
  unfold State.withTask State.task?
  dsimp only
  rw [List.getElem?_modify]
  split
  · rfl
  · exact Option.map_id'

/-- A state with the same tasks has the same task under an id. -/
theorem task?_congr {s s' : State} (h : s'.tasks = s.tasks) (id : TaskId) :
    s'.task? id = s.task? id := by
  unfold State.task?
  rw [h]

/-! ## The core of a case -/

/-- What says which task a case is at, and whether it is closed. -/
structure Core where
  status : CaseStatus
  closedAt : Option Time
  closedReason : Option String
  currentTaskId : Option TaskId
  currentAgentId : Option AgentId
  deriving DecidableEq

def Case.core (c : Case) : Core :=
  ⟨c.status, c.closedAt, c.closedReason, c.currentTaskId, c.currentAgentId⟩

/-- The steps between the two states are about other things. -/
structure Quiet (s s' : State) : Prop where
  core : s'.case.core = s.case.core
  tasks : s'.tasks = s.tasks

theorem Quiet.refl (s : State) : Quiet s s := ⟨rfl, rfl⟩

theorem Quiet.trans {s s' s'' : State} (h : Quiet s s') (h' : Quiet s' s'') : Quiet s s'' :=
  ⟨h'.core.trans h.core, h'.tasks.trans h.tasks⟩

section
variable {s s' : State} (h : Quiet s s')
include h

theorem Quiet.status : s'.case.status = s.case.status := congrArg Core.status h.core

theorem Quiet.closedAt : s'.case.closedAt = s.case.closedAt := congrArg Core.closedAt h.core

theorem Quiet.closedReason : s'.case.closedReason = s.case.closedReason :=
  congrArg Core.closedReason h.core

theorem Quiet.currentTaskId : s'.case.currentTaskId = s.case.currentTaskId :=
  congrArg Core.currentTaskId h.core

theorem Quiet.currentAgentId : s'.case.currentAgentId = s.case.currentAgentId :=
  congrArg Core.currentAgentId h.core

theorem Quiet.task? (id : TaskId) : s'.task? id = s.task? id := task?_congr h.tasks id

end

theorem quiet_withDesk (desk : Desk) (f : Workspace → Workspace) (s : State) :
    Quiet s (s.withDesk desk f) :=
  ⟨rfl, rfl⟩

theorem quiet_noteEvent (eventType key : String) (s : State) : Quiet s (s.noteEvent eventType key) :=
  ⟨by rw [case_noteEvent], tasks_noteEvent s _ _⟩

theorem quiet_appendEvent (eventType key : String) (previous : Option CaseStatus)
    (next : CaseStatus) (s : State) : Quiet s (s.appendEvent eventType key previous next) :=
  ⟨by rw [case_appendEvent], tasks_appendEvent s _ _ _ _⟩

theorem quiet_noteSome (eventType : String) (key : Option String) (s : State) :
    Quiet s (s.noteSome eventType key) := by
  unfold State.noteSome
  split
  · exact quiet_noteEvent _ _ s
  · exact .refl s

theorem quiet_noteCoverage (spec : Option Desk) (previous : Option Coverage.CoverageStatus)
    (evidence : CoverageEvidence) (s : State) : Quiet s (noteCoverage spec previous evidence s) := by
  unfold noteCoverage
  dsimp only
  split
  · refine .trans (.trans (.trans (.trans ?_ (quiet_noteSome _ _ _)) (quiet_noteEvent _ _ _))
      (quiet_noteSome _ _ _)) (quiet_noteSome _ _ _)
    exact quiet_noteSome _ _ s
  · refine .trans (.trans (.trans ?_ (quiet_noteSome _ _ _)) (quiet_noteEvent _ _ _))
      (quiet_noteSome _ _ _)
    exact quiet_noteSome _ _ s

/-- A change of the case that is about other things. -/
theorem quiet_withCase {f : Case → Case} (hf : ∀ c, (f c).core = c.core) (s : State) :
    Quiet s (s.withCase f) :=
  ⟨hf s.case, rfl⟩

theorem quiet_openWorkspace (agentId : AgentId) (now : Time) (s : State) :
    Quiet s (openWorkspace agentId now s) := by
  unfold openWorkspace
  split
  · exact quiet_withDesk _ _ s
  split
  · exact quiet_withDesk _ _ s
  split
  · exact ⟨rfl, rfl⟩
  split
  · exact ⟨rfl, rfl⟩
  · exact .refl s

end AgentBack.Orchestrator

/-!
# The tasks of a case

What the operations do to the tasks and to the pointer to the current one. `_enqueue_role_agent`
either leaves the state alone or starts a task after it has made the way free
(`enqueueRoleAgent_cases`).
-/

namespace AgentBack.Orchestrator

/-! ## Tasks that are taken -/

def State.Cancelled (s : State) (id : TaskId) : Prop :=
  ∃ task, s.task? id = some task ∧ task.status = .cancelled

/-- The agent of the task runs, or the task was cancelled while it ran. -/
def State.Taken (s : State) (id : TaskId) : Prop :=
  ∃ task, s.task? id = some task ∧ (task.status = .running ∨ task.status = .cancelled)

variable {s : State} {id : TaskId} {status : TaskStatus}

theorem taken_congr {s' : State} (h : s'.tasks = s.tasks) : s'.Taken id ↔ s.Taken id := by
  unfold State.Taken
  rw [task?_congr h]

/-- A taken task stays so when another task changes, or when it runs or is cancelled again. -/
theorem State.Taken.setTaskStatus {id' : TaskId}
    (h : s.Taken id) (hstatus : id' = id → status = .running ∨ status = .cancelled) :
    (s.setTaskStatus id' status).Taken id := by
  obtain ⟨task, htask, htaken⟩ := h
  by_cases hid : id' = id
  · refine ⟨{ task with status }, ?_, hstatus hid⟩
    rw [task?_setTaskStatus, if_pos hid, htask]
    rfl
  · refine ⟨task, ?_, htaken⟩
    rw [task?_setTaskStatus, if_neg hid, htask]

theorem State.Taken.withTask {f : Task → Task} {id' : TaskId}
    (h : s.Taken id) (hf : ∀ task, (f task).status = task.status) :
    (s.withTask id' f).Taken id := by
  obtain ⟨task, htask, htaken⟩ := h
  by_cases hid : id' = id
  · refine ⟨f task, ?_, ?_⟩
    · rw [task?_withTask, if_pos hid, htask]
      rfl
    · rw [hf]
      exact htaken
  · refine ⟨task, ?_, htaken⟩
    rw [task?_withTask, if_neg hid, htask]

theorem State.Taken.append {s' : State} (h : s.Taken id) {new : List Task}
    (htasks : s'.tasks = s.tasks ++ new) : s'.Taken id := by
  obtain ⟨task, htask, htaken⟩ := h
  refine ⟨task, ?_, htaken⟩
  unfold State.task? at htask ⊢
  rw [htasks]
  exact List.getElem?_append_left (List.getElem?_eq_some_iff.mp htask).1 ▸ htask

theorem currentTask?_eq (h : s.case.currentTaskId = some id) : s.currentTask? = s.task? id := by
  unfold State.currentTask?
  rw [h]
  rfl

theorem waiting_of_not_blockedBy {completionKey : String} {task : Task}
    (h : blockedBy completionKey task = false) (hblocking : task.status.blocking = true) :
    task.status.waiting = true ∧ task.roleCompletionKey ≠ completionKey := by
  unfold blockedBy at h
  rw [hblocking, Bool.true_and, Bool.not_eq_false', Bool.and_eq_true, decide_eq_true_eq] at h
  exact h

theorem live_of_waiting (h : status.waiting = true) : status.live = true := by
  cases status <;> first | rfl | cases h

theorem live_cases (h : status.live = true) :
    status = .pending ∨ status = .planning ∨ status = .running ∨ status.waiting = true := by
  cases status <;> first | cases h; done | simp [TaskStatus.waiting]

theorem blocking_of_live (h : status.live = true) : status.blocking = true := by
  unfold TaskStatus.blocking
  rw [h]
  rfl

/-- The tasks when the way is made free: nothing changes, or the waiting task is cancelled. -/
theorem tasks_releaseCurrent (completionKey : String) (s : State) :
    (releaseCurrent completionKey s).tasks = s.tasks ∨
      ∃ id task, s.case.currentTaskId = some id ∧ s.task? id = some task ∧
        task.status.waiting = true ∧ task.roleCompletionKey ≠ completionKey ∧
        (releaseCurrent completionKey s).tasks = (s.setTaskStatus id .cancelled).tasks := by
  unfold releaseCurrent
  split
  · exact .inl rfl
  · next id hid =>
    cases htask : s.task? id with
    | none => exact .inl rfl
    | some task =>
      dsimp only
      split
      · next hwaits =>
        rw [Bool.and_eq_true, decide_eq_true_eq] at hwaits
        exact .inr ⟨id, task, hid, htask, hwaits.1, hwaits.2, rfl⟩
      · exact .inl rfl

theorem case_releaseCurrent (completionKey : String) (s : State) :
    (releaseCurrent completionKey s).case =
      { s.case with
        currentTaskId := none
        currentAgentId := (releaseCurrent completionKey s).case.currentAgentId } := by
  unfold releaseCurrent
  split
  · next hnone =>
    conv => lhs; rw [show s.case = { s.case with currentTaskId := s.case.currentTaskId } from rfl,
      hnone]
  · next id hid =>
    cases s.task? id with
    | none => rfl
    | some task =>
      dsimp only
      split
      · rfl
      · rfl

section
variable (agentId : AgentId) (completionKey : String) (now : Time) (s : State)

def newTask : Task := ⟨agentId, completionKey, .pending, none, s.case.revision⟩

theorem tasks_startTask :
    (startTask agentId completionKey now s).tasks =
      s.tasks ++ [newTask agentId completionKey s] := by
  unfold startTask
  dsimp only
  rw [tasks_noteEvent, (quiet_openWorkspace agentId now _).tasks]
  rfl

theorem core_startTask :
    (startTask agentId completionKey now s).case.core =
      { s.case.core with
        currentTaskId := some s.tasks.length
        currentAgentId := some agentId } := by
  unfold startTask
  dsimp only
  rw [case_noteEvent, (quiet_openWorkspace agentId now _).core]
  rfl

end

/-- `_enqueue_role_agent` leaves the state alone, or makes the way free and starts a task. -/
theorem enqueueRoleAgent_cases (env : Env) (now : Time) (s : State) :
    enqueueRoleAgent env now s = s ∨
      s.case.status.terminal = false ∧
        s.case.metadata.roleAgentCompletionKey ≠
          some (roleCompletionKey s.case (nextAgentId env s.case)) ∧
        s.currentTask?.any (blockedBy (roleCompletionKey s.case (nextAgentId env s.case))) = false ∧
        enqueueRoleAgent env now s = startTask (nextAgentId env s.case)
          (roleCompletionKey s.case (nextAgentId env s.case)) now
          (releaseCurrent (roleCompletionKey s.case (nextAgentId env s.case)) s) := by
  unfold enqueueRoleAgent
  split
  · exact .inl rfl
  next hopen =>
  dsimp only
  split
  · exact .inl rfl
  next hkey =>
  split
  · exact .inl rfl
  next hfree =>
  exact .inr ⟨Bool.eq_false_iff.mpr hopen, hkey, Bool.eq_false_iff.mpr hfree, rfl⟩

/-! ## Operations made of plain moves -/

section
variable (env : Env) (now : Time) (s : State)

theorem quiet_assignPurchaseManager : Quiet s (assignPurchaseManager now s) := ⟨rfl, rfl⟩

/-- The case under a coverage that has been recorded, as its desk takes it over. -/
def underCoverage (evidence : CoverageEvidence) (previous : Option Coverage.CoverageStatus)
    (recorded : State) : State :=
  match availabilitySpecForCase env recorded.case with
  | some desk => routeUnderCoverage desk previous evidence.status now
      (if covers evidence.status then
        recorded.withDesk desk (outputUnderCoverage evidence.status) else recorded)
  | none => recorded

/-- What is done with a coverage is recorded, given to the desk, and noted when it is new. -/
theorem applySupplierCoverage_eq (evidence : CoverageEvidence) :
    applySupplierCoverage env evidence now s =
      let recorded := s.withCase (recordCoverage evidence now)
      let routed := underCoverage env now evidence s.case.metadata.coverageStatus recorded
      if s.case.metadata.coverageFingerprint = some evidence.fingerprint then routed
      else noteCoverage (availabilitySpecForCase env recorded.case)
        s.case.metadata.coverageStatus evidence routed :=
  rfl

theorem quiet_repairPrematureWarehouseArchive :
    Quiet s (repairPrematureWarehouseArchive env s) := by
  unfold repairPrematureWarehouseArchive
  split
  · exact .refl s
  · dsimp only
    split
    · exact .refl s
    · exact quiet_withDesk _ _ s

variable (evidence : JournalEvidence)

theorem quiet_archiveWarehouseWorkspace (w : JournalWork) :
    Quiet w.state (archiveWarehouseWorkspace evidence now w).1.state := by
  unfold archiveWarehouseWorkspace
  split
  · exact .refl _
  · dsimp only
    split
    · exact .refl _
    · exact quiet_noteEvent _ _ _

theorem quiet_settleAvailability (w : JournalWork) :
    Quiet w.state (settleAvailability evidence now w).state := by
  unfold settleAvailability
  split
  · exact .refl _
  · exact quiet_archiveWarehouseWorkspace now evidence w

end

/-- The relation of two states holds of the moves that an open case is worked on with. -/
structure Moving (env : Env) (now : Time) (R : State → State → Prop) : Prop where
  trans : ∀ {s s' s''}, R s s' → R s' s'' → R s s''
  quiet : ∀ {s s'}, Quiet s s' → R s s'
  enqueue : ∀ s, R s (enqueueRoleAgent env now s)
  cancel : ∀ id s, R s (s.setTaskStatus id .cancelled)
  edit : ∀ {f : Case → Case} {s}, (f s.case).closedAt = s.case.closedAt →
    (f s.case).closedReason = s.case.closedReason →
      (f s.case).status = s.case.status ∨ (f s.case).status ≠ .closed → R s (s.withCase f)
  startOtk : ∀ status s, R s (startOtk env status now s)

namespace Moving

variable {env : Env} {now : Time} {R : State → State → Prop} (h : Moving env now R) (s : State)

include h

theorem refl : R s s := h.quiet (.refl s)

theorem releaseEngineerTask : R s (releaseEngineerTask s) := by
  unfold Orchestrator.releaseEngineerTask
  split
  · split
    · refine h.trans ?_ (h.edit rfl rfl (.inl rfl))
      split
      · exact h.cancel _ s
      · exact h.refl s
    · exact h.refl s
  · exact h.refl s

theorem givePurchaseManager : R s (givePurchaseManager s) := by
  unfold Orchestrator.givePurchaseManager
  split
  · exact h.refl s
  · exact h.edit rfl rfl (.inl rfl)

theorem passing : Passing env now R where
  refl := h.refl
  trans := h.trans
  enqueue := h.enqueue
  dispatch _ s := h.quiet (quiet_withDesk _ _ s)
  lost id s := h.trans (h.cancel id s) (h.trans (h.edit rfl rfl (.inl rfl)) (h.quiet ⟨rfl, rfl⟩))
  taken s := h.trans (h.releaseEngineerTask s) (h.edit rfl rfl (.inl rfl))
  note _ _ s := h.quiet (quiet_noteEvent _ _ s)
  assigned s := h.quiet (quiet_assignPurchaseManager now s)
  given := h.givePurchaseManager
  cancelled id s :=
    h.trans (h.cancel id s) (h.trans (h.edit rfl rfl (.inl rfl)) (h.quiet ⟨rfl, rfl⟩))

theorem cancelUnlessSettled (id : TaskId) (task : Task) :
    R s (if task.status.settled then s else s.setTaskStatus id .cancelled) := by
  split
  · exact h.refl s
  · exact h.cancel id s

theorem cancelCoveredTask : R s s.cancelCoveredTask := by
  unfold State.cancelCoveredTask
  split
  · exact h.refl s
  · next id _ =>
    refine h.trans ?_ (h.edit rfl rfl (.inl rfl))
    split
    · exact h.cancelUnlessSettled s id _
    · exact h.refl s

theorem cancelPresentedTask : R s s.cancelPresentedTask := by
  unfold State.cancelPresentedTask
  split
  · exact h.refl s
  · split
    · exact h.cancelUnlessSettled s _ _
    · exact h.refl s

theorem routeUnderCoverage (desk : Desk) (previous : Option Coverage.CoverageStatus)
    (status : Coverage.CoverageStatus) : R s (routeUnderCoverage desk previous status now s) := by
  have hdesk : ∀ f, R s (s.withDesk desk f) := fun f => h.quiet (quiet_withDesk desk f s)
  unfold Orchestrator.routeUnderCoverage
  split
  · unfold routeCovered
    refine h.trans ?_ (h.edit rfl rfl (.inl rfl))
    have hcovered := h.trans (hdesk (deskFullyCovered (archivedByTmc desk s.case.metadata) now))
      (h.edit (f := fun c => { c with status := .ordered, controlPoint := some "purchase" })
        rfl rfl (.inr (by simp)))
    split
    · exact h.trans hcovered (h.cancelCoveredTask _)
    · exact hcovered
  split
  · exact h.trans (hdesk _) (h.edit rfl rfl (.inr (by simp)))
  split
  · exact h.trans (hdesk _) (h.edit rfl rfl (.inl rfl))
  · exact h.refl s

theorem applySupplierCoverage (evidence : CoverageEvidence) :
    R s (applySupplierCoverage env evidence now s) := by
  have hrecord : R s (s.withCase (recordCoverage evidence now)) := h.edit rfl rfl (.inl rfl)
  rw [applySupplierCoverage_eq]
  dsimp only
  generalize s.case.metadata.coverageStatus = previous
  have hrouted : R s (underCoverage env now evidence previous
      (s.withCase (recordCoverage evidence now))) := by
    unfold underCoverage
    split
    · refine h.trans ?_ (h.routeUnderCoverage _ _ previous evidence.status)
      split
      · exact h.trans hrecord (h.quiet (quiet_withDesk _ _ _))
      · exact hrecord
    · exact hrecord
  split
  · exact hrouted
  · exact h.trans hrouted (h.quiet (quiet_noteCoverage _ _ _ _))

theorem reconcileSupplierOrders (evidence : Option CoverageEvidence) :
    R s (reconcileSupplierOrders env evidence now s) := by
  unfold Orchestrator.reconcileSupplierOrders
  split
  · exact h.refl s
  split
  · exact h.quiet (quiet_repairPrematureWarehouseArchive env s)
  · next evidence =>
    have happlied := h.applySupplierCoverage s evidence
    dsimp only
    split
    · exact happlied
    · exact h.trans happlied (h.quiet (quiet_repairPrematureWarehouseArchive env _))

theorem moveToOtk : R s (moveToOtk now s) := by
  have hcancelled : R s (if s.case.currentAgentId = some purchaseManager then
      s.cancelPresentedTask else s) := by
    split
    · exact h.cancelPresentedTask s
    · exact h.refl s
  unfold Orchestrator.moveToOtk
  exact h.trans (h.trans hcancelled (h.edit rfl rfl (.inr (by simp)))) (h.quiet (quiet_noteEvent _ _ _))

theorem showQuality : R s (showQuality s) := by
  unfold Orchestrator.showQuality
  split
  · exact h.edit rfl rfl (.inl rfl)
  · exact h.refl s

variable (evidence : JournalEvidence) (w : JournalWork)

theorem handOffToOtk (justStarted : Bool) :
    R w.state (handOffToOtk env evidence justStarted now w).state := by
  have hmoved := h.trans (h.quiet (quiet_settleAvailability now evidence (archiveManager now w)))
    (h.moveToOtk _)
  unfold Orchestrator.handOffToOtk
  dsimp only
  split
  · exact hmoved
  · exact h.trans hmoved (h.enqueue _)

theorem assignOtk (status : TmcStatus) : R w.state (assignOtk env status now w).state := by
  unfold Orchestrator.assignOtk
  dsimp only
  split
  · exact h.refl _
  · exact h.trans (h.quiet (quiet_noteEvent _ _ _)) (h.startOtk status _)

theorem presentToOtk (status : TmcStatus) (changed : Bool) :
    R w.state (presentToOtk env evidence status now changed w).1.state := by
  have hassigned := h.assignOtk w status
  unfold Orchestrator.presentToOtk
  dsimp only
  split
  · exact h.trans hassigned (h.handOffToOtk evidence _ _)
  split
  · exact h.trans hassigned (h.quiet (quiet_archiveWarehouseWorkspace now evidence _))
  split
  · exact h.trans hassigned (h.showQuality _)
  · exact hassigned

theorem reconcilePresentations : R s (reconcilePresentations env evidence now s) := by
  have hwork : ∀ rows, R s (workJournal env evidence rows now s).1.state := by
    intro rows
    unfold workJournal
    dsimp only
    split
    · exact h.refl s
    · exact h.presentToOtk evidence ⟨s, _, _⟩ _ _
  unfold Orchestrator.reconcilePresentations
  split
  · unfold applyJournal
    split
    · exact h.refl s
    dsimp only
    refine h.trans ?_ (h.quiet (quiet_noteSome _ _ _))
    unfold writeBack
    exact h.trans (hwork _) (h.edit rfl rfl (.inl rfl))
  · exact h.refl s

end Moving

theorem quiet_acknowledgeCritical (desk : Desk) (user : String) (now : Time) (s : State) :
    Quiet s (acknowledgeCritical desk user now s).1 := by
  unfold acknowledgeCritical
  dsimp only
  split
  · exact .refl s
  split
  · exact .refl s
  · exact (quiet_withDesk _ _ s).trans (quiet_noteEvent _ _ _)

/-! ## What an operation does to the tasks -/

/-- The relation of two states holds where the tasks are the same, one is cancelled, or new ones come
after them. -/
structure Tending (R : State → State → Prop) : Prop where
  trans : ∀ {s s' s''}, R s s' → R s' s'' → R s s''
  same : ∀ {s s'}, s'.tasks = s.tasks → R s s'
  cancel : ∀ {s s' id}, s'.tasks = (s.setTaskStatus id .cancelled).tasks → R s s'
  append : ∀ {s s' new}, s'.tasks = s.tasks ++ new → R s s'

namespace Tending

variable {R : State → State → Prop} (h : Tending R) (env : Env) (now : Time) (s : State)
include h

theorem quiet {s s' : State} (hquiet : Quiet s s') : R s s' := h.same hquiet.tasks

theorem enqueueRoleAgent : R s (enqueueRoleAgent env now s) := by
  rcases enqueueRoleAgent_cases env now s with hsame | ⟨-, -, -, hstart⟩
  · rw [hsame]
    exact h.same rfl
  · rw [hstart]
    refine h.trans ?_ (h.append (tasks_startTask _ _ now _))
    rcases tasks_releaseCurrent (roleCompletionKey s.case (nextAgentId env s.case)) s with
      htasks | ⟨_, _, -, -, -, -, htasks⟩
    · exact h.same htasks
    · exact h.cancel htasks

theorem cancelCurrentTask : R s s.cancelCurrentTask := by
  unfold State.cancelCurrentTask
  split
  · exact h.same rfl
  · next id _ =>
    cases s.task? id with
    | none => exact h.same rfl
    | some task =>
      dsimp only
      split
      · exact h.cancel (by rfl)
      · exact h.same rfl

theorem archiveCase (closedReason eventType key : String) (mark : SourceMark) :
    R s (archiveCase env closedReason eventType key mark now s) := by
  unfold Orchestrator.archiveCase
  split
  · exact h.same rfl
  · exact h.trans (h.trans (h.same (by rfl)) (h.cancelCurrentTask _))
      (h.quiet (quiet_appendEvent _ _ _ _ _))

theorem documentChanged (document : Document) : R s (documentChanged env document s) := by
  have hcard : R s ((s.withCase (updateCaseCard document)).noteEvent
      "source_document_changed" (document.pollIdempotencyKey ++ ":changed")) :=
    h.trans (h.same (by rfl)) (h.quiet (quiet_noteEvent _ _ _))
  unfold Orchestrator.documentChanged
  dsimp only
  split
  · refine h.trans hcard ?_
    unfold reactivateCase
    exact h.trans (h.same (by rfl)) (h.quiet (quiet_appendEvent _ _ _ _ _))
  · exact hcard

theorem upsertCaseFromDocument (document : Document) :
    R s (upsertCaseFromDocument env document now s) := by
  have hsynced : R s (s.withCase fun c => { c with sourceSyncedAt := some now }) := h.same rfl
  unfold Orchestrator.upsertCaseFromDocument
  dsimp only
  refine h.trans hsynced ?_
  split
  · exact h.same rfl
  split
  · exact h.archiveCase env now _ _ _ _ _
  split
  · exact h.same rfl
  split
  · exact h.trans (h.same (by rfl)) (h.enqueueRoleAgent env now _)
  · exact h.trans (h.documentChanged env _ document) (h.enqueueRoleAgent env now _)

theorem startOtk (status : TmcStatus) : R s (startOtk env status now s) := by
  have hstarted : R s (Orchestrator.enqueueRoleAgent env now (s.withCase fun c =>
      { c with currentAgentId := some qualityEngineer, status := .qualityAssigned })) :=
    h.trans (h.same (by rfl)) (h.enqueueRoleAgent env now _)
  unfold Orchestrator.startOtk
  dsimp only
  split
  · exact h.trans hstarted (h.same rfl)
  · exact hstarted

theorem moving : Moving env now R where
  trans := h.trans
  quiet := h.quiet
  enqueue := h.enqueueRoleAgent env now
  cancel _ _ := h.cancel rfl
  edit _ _ _ := h.same rfl
  startOtk status s := h.startOtk env now s status

theorem handOffAfter (agentId : AgentId) (id : TaskId) (result : RoleResult)
    (previous : CaseStatus) : R s (handOffAfter env agentId id result previous now s) := by
  have hhand : ∀ desk bucket nextAgent controlPoint eventType key, R s
      (handOff env desk bucket nextAgent controlPoint eventType key previous now s) := by
    intros
    unfold handOff
    refine h.trans (h.same ?_) (h.enqueueRoleAgent env now _)
    rw [tasks_appendEvent]
    rfl
  unfold Orchestrator.handOffAfter
  split
  · exact hhand _ _ _ _ _ _
  split
  · exact hhand _ _ _ _ _ _
  · exact h.same rfl

/-- All operations, when resumes and confirmations are known. -/
theorem operation (hresume : ∀ result now, R s (resumeCaseAgent env result now s))
    (hconfirm : ∀ k user now, R s (confirm env k user now s).1) (operation : Operation) :
    R s (operation.apply env s) := by
  cases operation with
  | upsert document now => exact h.upsertCaseFromDocument env now s document
  | closeOutside reason now =>
    change R s (closeOutsideActiveRefs env reason now s)
    unfold closeOutsideActiveRefs
    split
    · exact h.trans (h.same (by rfl)) (h.archiveCase env now _ _ _ _ _)
    · exact h.same rfl
  | assign now => exact (h.moving env now).passing.ensureActiveCaseAssignment s
  | availability desk stale now =>
    exact (h.moving env now).passing.ensureWarehouseAvailabilityWork s desk stale
  | migrate now => exact (h.moving env now).passing.migrateUndecidedEngineerCase s
  | purchase stale now => exact (h.moving env now).passing.ensurePurchaseManagerWork s stale
  | supplier evidence now => exact (h.moving env now).reconcileSupplierOrders s evidence
  | journal evidence now => exact (h.moving env now).reconcilePresentations s evidence
  | resume result now => exact hresume result now
  | confirm desk user now =>
    unfold Operation.apply
    dsimp only
    split
    · exact hconfirm _ user now
    · exact h.same rfl
  | acknowledge desk user now => exact h.quiet (quiet_acknowledgeCritical desk user now s)

end Tending

/-! ## What other operations do to a task whose agent runs -/

/-- The steps between the two states leave a task that is taken to its worker, or cancel it. -/
def Spares (id : TaskId) (s s' : State) : Prop := s.Taken id → s'.Taken id

theorem Spares.refl (id : TaskId) (s : State) : Spares id s s := fun h => h

theorem Spares.trans {id : TaskId} {s s' s'' : State} (h : Spares id s s') (h' : Spares id s' s'') :
    Spares id s s'' :=
  fun ht => h' (h ht)

theorem spares_of_tasks {s s' : State} (h : s'.tasks = s.tasks) (id : TaskId) : Spares id s s' :=
  (taken_congr h).mpr

theorem Quiet.spares {s s' : State} (h : Quiet s s') (id : TaskId) : Spares id s s' :=
  spares_of_tasks h.tasks id

theorem spares_setCancelled {s s' : State} {id' : TaskId}
    (htasks : s'.tasks = (s.setTaskStatus id' .cancelled).tasks) (id : TaskId) : Spares id s s' :=
  fun ht => (taken_congr htasks).mpr (ht.setTaskStatus fun _ => .inr rfl)

theorem tending_spares (id : TaskId) : Tending (Spares id) where
  trans := .trans
  same htasks := spares_of_tasks htasks id
  cancel htasks := spares_setCancelled htasks id
  append htasks ht := ht.append htasks

/-! ## Results -/

variable (env : Env) (agentId : AgentId) (id : TaskId) (result : RoleResult)

theorem tasks_applyWaitingHuman (s : State) :
    (applyWaitingHuman agentId id result s).tasks = (s.setTaskStatus id .waitingHuman).tasks := by
  unfold applyWaitingHuman
  dsimp only
  split <;> rfl

theorem tasks_applyWaitingExternal (s : State) :
    (applyWaitingExternal agentId id s).tasks = (s.setTaskStatus id .waitingExternal).tasks :=
  rfl

theorem tasks_applyFailed (s : State) :
    (applyFailed id s).tasks = (s.setTaskStatus id .failed).tasks :=
  rfl

/-- The case when its task is completed, before the hand-off. -/
def completedState (agentId : AgentId) (id : TaskId) (result : RoleResult) (now : Time)
    (s : State) : State :=
  (s.setTaskStatus id .completed).withCase
    (completeCase agentId result ((s.task? id).map Task.roleCompletionKey) now)

theorem applyCompleted_eq (now : Time) (s : State) :
    applyCompleted env agentId id result now s = handOffAfter env agentId id result s.case.status now
      (completedState agentId id result now s) :=
  rfl

theorem tasks_completedState (now : Time) (s : State) :
    (completedState agentId id result now s).tasks = (s.setTaskStatus id .completed).tasks :=
  rfl

variable {id id' : TaskId}

/-- A result is about its own task. -/
theorem spares_applyRoleStatus (hid : id' ≠ id) (result : RoleResult) (now : Time) (s : State) :
    Spares id s (applyRoleStatus env agentId id' result now s) := by
  intro ht
  have hset : ∀ {s' : State} (status : TaskStatus),
      s'.tasks = (s.setTaskStatus id' status).tasks → s'.Taken id := by
    intro s' status htasks
    exact (taken_congr htasks).mpr (ht.setTaskStatus fun he => absurd he hid)
  unfold applyRoleStatus
  cases result.roleStatus with
  | waitingHuman => exact hset _ (tasks_applyWaitingHuman _ _ _ _)
  | waitingExternal => exact hset _ (tasks_applyWaitingExternal _ _ _)
  | completed =>
    dsimp only
    rw [applyCompleted_eq]
    exact (tending_spares id).handOffAfter env now _ _ _ _ _
      (hset _ (tasks_completedState _ _ _ _ _))
  | failed => exact hset _ (tasks_applyFailed _ _)

theorem spares_applyRoleAgentResult (eventType : String)
    (hid : id' ≠ id) (result : RoleResult) (now : Time) (s : State) :
    Spares id s (applyRoleAgentResult env eventType id' result now s) := by
  unfold applyRoleAgentResult
  split
  · exact .refl id s
  · dsimp only
    refine Spares.trans ?_ ((quiet_appendEvent _ _ _ _ _).spares id)
    intro ht
    exact spares_applyRoleStatus env _ hid _ now _ (ht.withTask fun _ => rfl)

theorem spares_resultOfUntaken {s : State} {task : Task} (htask : s.task? id' = some task)
    (hstatus : task.status ≠ .running ∧ task.status ≠ .cancelled) (env : Env) (eventType : String)
    (result : RoleResult) (now : Time) (id : TaskId) :
    Spares id s (applyRoleAgentResult env eventType id' result now s) := by
  by_cases hid : id' = id
  · subst hid
    rintro ⟨task', htask', htaken⟩
    cases htask.symm.trans htask'
    rcases htaken with hrunning | hcancelled
    · exact absurd hrunning hstatus.1
    · exact absurd hcancelled hstatus.2
  · exact spares_applyRoleAgentResult env eventType hid result now s

theorem resumeCaseAgent_of {P : State → Prop} {s : State} {now : Time} (hleft : P s)
    (h : ∀ id task, s.case.currentTaskId = some id → s.currentTask? = some task →
      (task.status.waiting || task.status == .failed) = true →
        P (applyRoleAgentResult env "role_agent_resumed" id result now s)) :
    P (resumeCaseAgent env result now s) := by
  unfold resumeCaseAgent
  split
  · next id task hcurrent htask =>
    split
    · next hstatus => exact h id task hcurrent htask hstatus
    · exact hleft
  · exact hleft

theorem spares_resumeCaseAgent (now : Time) (id : TaskId)
    (s : State) : Spares id s (resumeCaseAgent env result now s) := by
  refine resumeCaseAgent_of env result (P := Spares id s) (.refl id s) ?_
  intro id' task hcurrent htask hstatus
  rw [currentTask?_eq hcurrent] at htask
  apply spares_resultOfUntaken htask
  constructor
  · intro he
    rw [he] at hstatus
    cases hstatus
  · intro he
    rw [he] at hstatus
    cases hstatus

def confirmedState (now : Time) (s : State) (k : Confirmation) (user : String) (id : TaskId) : State :=
  (s.withDesk k.desk fun w => { w with actionAt := some now, actionBy := some user }).noteEvent
    k.eventType (cutKey (k.keyName ++ toString id))

theorem quiet_confirmedState (now : Time) (s : State) (k : Confirmation) (user : String)
    (id : TaskId) : Quiet s (confirmedState now s k user id) :=
  (quiet_withDesk _ _ s).trans (quiet_noteEvent _ _ _)

theorem confirm_of {P : State → Prop} {s : State} {now : Time} {k : Confirmation} {user : String}
    (hleft : P s)
    (h : ∀ id task, s.case.currentTaskId = some id → s.currentTask? = some task →
      k.doneBefore (s.case.metadata.desk k.desk) = false →
        k.decides (s.case.metadata.desk k.desk) = true → task.status = .waitingHuman →
          P (applyRoleAgentResult env "role_agent_resumed" id
            (confirmedResult k task (s.case.metadata.desk k.desk)) now (confirmedState now s k user id))) :
    P (confirm env k user now s).1 := by
  unfold confirm
  dsimp only
  split
  · exact hleft
  next hdone =>
  split
  · exact hleft
  next hdecides =>
  rw [Bool.not_eq_true', Bool.not_eq_false] at hdecides
  split
  · next id task hcurrent htask =>
    split
    · next hwaits => exact h id task hcurrent htask (Bool.eq_false_iff.mpr hdone) hdecides hwaits
    · exact hleft
  · exact hleft

theorem spares_confirm (k : Confirmation) (user : String) (now : Time) (id : TaskId)
    (s : State) : Spares id s (confirm env k user now s).1 := by
  refine confirm_of env (P := Spares id s) (.refl id s) ?_
  intro id' task hcurrent htask _ _ hwaits
  have hnoted := quiet_confirmedState now s k user id'
  rw [currentTask?_eq hcurrent] at htask
  refine (hnoted.spares id).trans ?_
  apply spares_resultOfUntaken ((hnoted.task? id').trans htask)
  rw [hwaits]
  exact ⟨by decide, by decide⟩

theorem Operation.spares (operation : Operation) (env : Env) (id : TaskId) (s : State) :
    Spares id s (operation.apply env s) :=
  (tending_spares id).operation env s (fun result now => spares_resumeCaseAgent env result now id s)
    (fun k user now => spares_confirm env k user now id s) operation

/-! ## All steps -/

def Step.ends (id : TaskId) : Step → Bool
  | .finish id' _ _ => decide (id' = id)
  | .crash id' => decide (id' = id)
  | _ => false

theorem task_of_find? {workers : List Running} {worker : Running}
    (h : workers.find? (fun worker => worker.task = id) = some worker) : worker.task = id := by
  have hfound := List.find?_some h
  exact of_decide_eq_true hfound

/-- What holds of what an operation, a start, a finish and a crash make of the state, and of the
state that is left, holds after every step. -/
theorem Step.apply_of {P : State → Prop} {step : Step} {env : Env} {w : World} (hleft : P w.state)
    (hoperation : ∀ o, step = .operation o → P (o.apply env w.state))
    (hstart : ∀ id, step = .start id → w.state.case.currentTaskId = some id →
      P (w.state.setTaskStatus id .running))
    (hfinish : ∀ id result now, step = .finish id result now →
      w.workers.any (fun worker => worker.task = id) = true →
        P (finishCaseTask env id result now w.state))
    (hcrash : ∀ worker : Running, step = .crash worker.task →
      (w.state.task? worker.task).any (fun task => task.status == .running) = true →
        P (w.state.setTaskStatus worker.task worker.before)) :
    P (step.apply env w).state := by
  unfold Step.apply
  split
  · next o => exact hoperation o rfl
  · next id =>
    split
    · next hbegin _ =>
      unfold beginCaseTask at hbegin
      split at hbegin
      · next hcheck =>
        cases hbegin
        exact hstart id rfl hcheck.2
      · cases hbegin
    · exact hleft
  · next id result now =>
    split
    · next worker hworker =>
      exact hfinish id result now rfl (List.any_eq_true.mpr
        ⟨worker, List.mem_of_find?_eq_some hworker, decide_eq_true (task_of_find? hworker)⟩)
    · exact hleft
  · next id =>
    split
    · next worker hworker =>
      unfold rollBack
      split
      · next hrunning => exact hcrash worker (by rw [task_of_find? hworker]) hrunning
      · exact hleft
    · exact hleft

/-- A step that does not end the run of the task. -/
theorem Step.spares {step : Step} (h : step.ends id = false) (env : Env) (w : World) :
    Spares id w.state (step.apply env w).state := by
  refine Step.apply_of (P := Spares id w.state) (.refl id _) (fun o _ => o.spares env id w.state)
    (fun id' _ _ ht => ht.setTaskStatus fun _ => .inl rfl) ?_ ?_
  · rintro id' result now rfl -
    exact spares_applyRoleAgentResult env _ (of_decide_eq_false h) result now w.state
  · rintro worker rfl - ht
    exact ht.setTaskStatus fun he => absurd he (of_decide_eq_false h)

theorem spares_run (steps : List Step)
    (h : steps.all (fun step => !step.ends id) = true) (w : World) :
    Spares id w.state (w.run env steps).state := by
  induction steps generalizing w with
  | nil => exact .refl id _
  | cons step rest ih =>
    rw [List.all_cons, Bool.and_eq_true, Bool.not_eq_true'] at h
    exact (Step.spares h.1 env w).trans (ih h.2 _)

/-- Surroundings without a department of the picker. -/
def plainEnv : Env where
  isMontage := fun _ => false
  digest := fun _ => ""
  planningEnabled := false

/-- A production material order of one position. -/
def plainDocument : Document where
  sourceType := .productionMaterialOrder
  database := "base"
  refKey := "order"
  departmentName := none
  contentHash := "h"
  dataVersion := none
  positions := [⟨"1", "steel", 5⟩]
  skipReason := none
  recent := true

/-- The case of the document, with the task of the chief of the warehouse complex. -/
def plainState : State := firstPoll plainEnv "case" plainDocument "t"

end AgentBack.Orchestrator
