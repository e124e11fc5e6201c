import AgentBack.Laws.Orchestrator.Tasks

/-!
# A result that comes late

A worker checks that its task is the current one, runs the agent and applies the result. What comes
between either leaves the task to the worker or cancels it (`spares_run`), and a result is applied in
either case: it takes a cancelled task up again (`status_finishCaseTask`). So a result changes
nothing when it should exactly when it does not come late (`lateResultsChangeNothing_iff`).
-/

namespace AgentBack.Orchestrator

structure LeftAsItWas (id : TaskId) (s s' : State) : Prop where
  status : s'.case.status = s.case.status
  controlPoint : s'.case.controlPoint = s.case.controlPoint
  currentTaskId : s'.case.currentTaskId = s.case.currentTaskId
  currentAgentId : s'.case.currentAgentId = s.case.currentAgentId
  metadata : s'.case.metadata = s.case.metadata
  taskStatus : (s'.task? id).map Task.status = (s.task? id).map Task.status

/-- A result of a task that is cancelled, or no longer the current one, changes nothing. -/
def LateResultsChangeNothing (env : Env) (id : TaskId) (result : RoleResult) (now : Time)
    (s : State) : Prop :=
  ¬ (s.case.currentTaskId = some id ∧ ¬ s.Cancelled id) →
    LeftAsItWas id s (finishCaseTask env id result now s)

def taskStatusAfter : RoleStatus → TaskStatus
  | .waitingHuman => .waitingHuman
  | .waitingExternal => .waitingExternal
  | .completed => .completed
  | .failed => .failed

theorem taskStatusAfter_not_taken (status : RoleStatus) :
    ¬ (taskStatusAfter status = .running ∨ taskStatusAfter status = .cancelled) := by
  cases status <;> decide

theorem map_status_setTaskStatus {s s' : State} {id : TaskId} {status : TaskStatus}
    (htasks : s'.tasks = (s.setTaskStatus id status).tasks) (h : (s.task? id).isSome = true) :
    (s'.task? id).map Task.status = some status := by
  obtain ⟨task, htask⟩ := Option.isSome_iff_exists.mp h
  rw [task?_congr htasks, task?_setTaskStatus, if_pos rfl, htask]
  rfl

section

variable {s : State} (h : s.case.currentTaskId = none) (env : Env)
include h

/-- Without a current task nothing is cancelled to make way. -/
theorem tasks_enqueueRoleAgent (now : Time) :
    ∃ new, (enqueueRoleAgent env now s).tasks = s.tasks ++ new := by
  rcases enqueueRoleAgent_cases env now s with hsame | ⟨-, -, -, hstart⟩
  · exact ⟨[], by rw [hsame, List.append_nil]⟩
  · rcases tasks_releaseCurrent (roleCompletionKey s.case (nextAgentId env s.case)) s with
      htasks | ⟨id, task, hcurrent, -⟩
    · exact ⟨_, by rw [hstart, tasks_startTask, htasks]⟩
    · rw [h] at hcurrent
      cases hcurrent

theorem tasks_handOff (desk : Desk) (bucket : Bucket) (nextAgent : AgentId)
    (controlPoint eventType key : String) (previous : CaseStatus) (now : Time) :
    ∃ new, (handOff env desk bucket nextAgent controlPoint eventType key previous now s).tasks =
      s.tasks ++ new := by
  unfold handOff
  dsimp only
  generalize hmoved : State.appendEvent _ _ _ _ _ = moved
  have hcurrent : moved.case.currentTaskId = none := by
    rw [← hmoved, case_appendEvent]
    exact h
  have htasks : moved.tasks = s.tasks := by
    rw [← hmoved, tasks_appendEvent]
    rfl
  obtain ⟨new, hnew⟩ := tasks_enqueueRoleAgent hcurrent env now
  exact ⟨new, by rw [hnew, htasks]⟩

theorem tasks_handOffAfter (agentId : AgentId) (id : TaskId) (result : RoleResult)
    (previous : CaseStatus) (now : Time) :
    ∃ new, (handOffAfter env agentId id result previous now s).tasks = s.tasks ++ new := by
  unfold handOffAfter
  split
  · exact tasks_handOff h env _ _ _ _ _ _ previous now
  split
  · exact tasks_handOff h env _ _ _ _ _ _ previous now
  · exact ⟨[], (List.append_nil _).symm⟩

end

theorem status_applyRoleStatus (env : Env) (agentId : AgentId) {id : TaskId} (result : RoleResult)
    (now : Time) {s : State} (h : (s.task? id).isSome = true) :
    ((applyRoleStatus env agentId id result now s).task? id).map Task.status =
      some (taskStatusAfter result.roleStatus) := by
  unfold applyRoleStatus
  cases result.roleStatus with
  | waitingHuman => exact map_status_setTaskStatus (tasks_applyWaitingHuman _ _ _ _) h
  | waitingExternal => exact map_status_setTaskStatus (tasks_applyWaitingExternal _ _ _) h
  | completed =>
    dsimp only
    have hstatus := map_status_setTaskStatus (tasks_completedState agentId id result now s) h
    have hcurrent : (completedState agentId id result now s).case.currentTaskId = none := rfl
    obtain ⟨new, hnew⟩ := tasks_handOffAfter hcurrent env agentId id result s.case.status now
    rw [applyCompleted_eq]
    obtain ⟨task, htask, hcompleted⟩ := Option.map_eq_some_iff.mp hstatus
    have hkept : (handOffAfter env agentId id result s.case.status now
        (completedState agentId id result now s)).task? id = some task := by
      unfold State.task? at htask ⊢
      rw [hnew, List.getElem?_append_left (List.getElem?_eq_some_iff.mp htask).1]
      exact htask
    rw [hkept, Option.map_some, hcompleted]
    rfl
  | failed => exact map_status_setTaskStatus (tasks_applyFailed _ _) h

/-- After its result a task has the status that the result asks for, whatever it was before. -/
theorem status_finishCaseTask (env : Env) {id : TaskId} (result : RoleResult) (now : Time)
    {s : State} (h : (s.task? id).isSome = true) :
    ((finishCaseTask env id result now s).task? id).map Task.status =
      some (taskStatusAfter result.roleStatus) := by
  obtain ⟨task, htask⟩ := Option.isSome_iff_exists.mp h
  unfold finishCaseTask applyRoleAgentResult
  rw [htask]
  dsimp only
  rw [task?_congr (tasks_appendEvent _ _ _ _ _)]
  apply status_applyRoleStatus
  unfold recordResult
  rw [task?_withTask, if_pos rfl]
  change ((s.task? id).map _).isSome = true
  rw [htask]
  rfl

theorem taken_of_beginCaseTask {id : TaskId} {s started : State}
    (h : beginCaseTask id s = some started) : started.Taken id := by
  unfold beginCaseTask at h
  split at h
  · next hcheck =>
    cases h
    obtain ⟨task, htask⟩ := Option.isSome_iff_exists.mp hcheck.1
    refine ⟨{ task with status := .running }, ?_, .inl rfl⟩
    rw [task?_setTaskStatus, if_pos rfl, htask]
    rfl
  · cases h

/-- A worker passed its check and runs the agent; meanwhile other steps come. Its result leaves what
it should exactly when its task is still the current one and was not cancelled. -/
theorem lateResultsChangeNothing_iff (env : Env) {id : TaskId} {s started : State}
    (hstart : beginCaseTask id s = some started) (workers : List Running) (steps : List Step)
    (hsteps : steps.all (fun step => !step.ends id) = true) (result : RoleResult) (now : Time) :
    LateResultsChangeNothing env id result now (World.run env ⟨started, workers⟩ steps).state ↔
      (World.run env ⟨started, workers⟩ steps).state.case.currentTaskId = some id ∧
        ¬ (World.run env ⟨started, workers⟩ steps).state.Cancelled id := by
  have htaken := spares_run env steps hsteps ⟨started, workers⟩ (taken_of_beginCaseTask hstart)
  generalize (World.run env ⟨started, workers⟩ steps).state = s' at htaken ⊢
  constructor
  · intro hlaw
    by_contra hlate
    have hleft := hlaw hlate
    obtain ⟨task, htask, hstatus⟩ := htaken
    have hafter := hleft.taskStatus
    rw [status_finishCaseTask env result now (by rw [htask]; rfl), htask, Option.map_some] at hafter
    exact taskStatusAfter_not_taken _ ((Option.some.inj hafter) ▸ hstatus)
  · intro hcurrent hlate
    exact absurd hcurrent hlate

def waitsForPerson : RoleResult := ⟨.waitingHuman, some warehouseComplexChief, none⟩

/-- The document is no longer among the active ones. -/
def documentGone : Step := .operation (.closeOutside ⟨"deletion_mark", ⟨none, none⟩⟩ "t")

/-- The case of the document while the agent runs. -/
def runningState : State := plainState.setTaskStatus 0 .running

theorem beginCaseTask_plainState : beginCaseTask 0 plainState = some runningState := by
  have hcheck : (plainState.task? 0).isSome ∧ plainState.case.currentTaskId = some 0 := by
    decide +kernel
  exact if_pos hcheck

/-- A poll comes while the agent runs, which changes nothing for it. -/
theorem lateResultsChangeNothing_polled :
    LateResultsChangeNothing plainEnv 0 waitsForPerson "t"
        (World.run plainEnv ⟨runningState, []⟩ [.operation (.assign "t")]).state ↔
      (World.run plainEnv ⟨runningState, []⟩
          [.operation (.assign "t")]).state.case.currentTaskId = some 0 ∧
        ¬ (World.run plainEnv ⟨runningState, []⟩ [.operation (.assign "t")]).state.Cancelled 0 :=
  lateResultsChangeNothing_iff plainEnv beginCaseTask_plainState [] [.operation (.assign "t")] rfl
    waitsForPerson "t"

/-- The case is archived while the agent runs, and the result takes it out of the archive. -/
theorem lateResultsChangeNothing_archived_fails :
    beginCaseTask 0 plainState = some runningState ∧
      ¬ LateResultsChangeNothing plainEnv 0 waitsForPerson "t"
        (World.run plainEnv ⟨runningState, []⟩ [documentGone]).state := by
  refine ⟨beginCaseTask_plainState, fun h => ?_⟩
  have hcurrent : (World.run plainEnv ⟨runningState, []⟩
      [documentGone]).state.case.currentTaskId = none := by
    decide +kernel
  have hbefore : (World.run plainEnv ⟨runningState, []⟩
      [documentGone]).state.case.status = .closed := by
    decide +kernel
  have hafter : (finishCaseTask plainEnv 0 waitsForPerson "t"
      (World.run plainEnv ⟨runningState, []⟩ [documentGone]).state).case.status = .agentWaiting := by
    decide +kernel
  have hleft := h fun hc => by
    rw [hcurrent] at hc
    cases hc.1
  have hsame := hleft.status
  rw [hbefore, hafter] at hsame
  cases hsame

end AgentBack.Orchestrator
