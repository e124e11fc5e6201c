import AgentBack.Laws.Orchestrator.Tasks

/-!
# The log of the tasks

A worker that finishes writes its result to the task that has its id. Between its start and its
finish the case can be polled, archived, taken up again and handed over: nothing of this takes a task
away or makes another one of it (`logs_run`).
-/

namespace AgentBack.Orchestrator

/-- What says which task it is: its agent, the key of its role, and the revision in its payload. -/
def Task.identity (task : Task) : AgentId × String × Revision :=
  (task.agentSlug, task.roleCompletionKey, task.sourceData)

/-- The tasks stay under their ids, as the tasks that they are. -/
def Logs (s s' : State) : Prop :=
  ∀ id identity, (s.task? id).map Task.identity = some identity →
    (s'.task? id).map Task.identity = some identity

section
variable {s s' s'' : State}

theorem Logs.refl (s : State) : Logs s s := fun _ _ => id

theorem Logs.trans (h : Logs s s') (h' : Logs s' s'') : Logs s s'' :=
  fun id identity hold => h' id identity (h id identity hold)

theorem logs_withTask {id : TaskId} {f : Task → Task}
    (hf : ∀ task, (f task).identity = task.identity)
    (htasks : s'.tasks = (s.withTask id f).tasks) : Logs s s' := by
  intro id' identity hold
  rw [task?_congr htasks, task?_withTask]
  split
  · rw [Option.map_map, show Task.identity ∘ f = Task.identity from funext hf]
    exact hold
  · exact hold

theorem logs_setTaskStatus {id : TaskId} {status : TaskStatus}
    (htasks : s'.tasks = (s.setTaskStatus id status).tasks) : Logs s s' :=
  logs_withTask (f := fun task => { task with status }) (fun _ => rfl) htasks

end

theorem tending_logs : Tending Logs where
  trans := .trans
  same htasks := by
    intro id identity hold
    rw [task?_congr htasks]
    exact hold
  cancel := logs_setTaskStatus
  append htasks := by
    intro id identity hold
    obtain ⟨task, htask, hidentity⟩ := Option.map_eq_some_iff.mp hold
    unfold State.task? at htask ⊢
    rw [htasks, List.getElem?_append_left (List.getElem?_eq_some_iff.mp htask).1, htask]
    exact congrArg some hidentity

section
variable (env : Env)

theorem logs_applyRoleStatus (agentId : AgentId) (id : TaskId) (result : RoleResult) (now : Time)
    (s : State) : Logs s (applyRoleStatus env agentId id result now s) := by
  unfold applyRoleStatus
  cases result.roleStatus with
  | waitingHuman => exact logs_setTaskStatus (tasks_applyWaitingHuman _ _ _ _)
  | waitingExternal => exact logs_setTaskStatus (tasks_applyWaitingExternal _ _ _)
  | completed =>
    dsimp only
    rw [applyCompleted_eq]
    exact (logs_setTaskStatus (tasks_completedState _ _ _ _ _)).trans
      (tending_logs.handOffAfter env now _ _ _ _ _)
  | failed => exact logs_setTaskStatus (tasks_applyFailed _ _)

theorem logs_applyRoleAgentResult (eventType : String) (id : TaskId) (result : RoleResult)
    (now : Time) (s : State) : Logs s (applyRoleAgentResult env eventType id result now s) := by
  unfold applyRoleAgentResult
  split
  · exact .refl s
  · refine Logs.trans (.trans ?_ (logs_applyRoleStatus env _ id _ now _))
      (tending_logs.quiet (quiet_appendEvent _ _ _ _ _))
    exact logs_withTask (f := fun task => { task with finalResult := some _ }) (fun _ => rfl) rfl

theorem Operation.logs (operation : Operation) (s : State) : Logs s (operation.apply env s) := by
  refine tending_logs.operation env s (fun result now => ?_) (fun k user now => ?_) operation
  · exact resumeCaseAgent_of env result (P := Logs s) (.refl s) fun _ _ _ _ _ =>
      logs_applyRoleAgentResult env _ _ _ now s
  · refine confirm_of env (P := Logs s) (.refl s) fun id _ _ _ _ _ _ => ?_
    exact (tending_logs.quiet (quiet_confirmedState now s k user id)).trans
      (logs_applyRoleAgentResult env _ _ _ now _)

theorem Step.logs (step : Step) (w : World) : Logs w.state (step.apply env w).state :=
  Step.apply_of (P := Logs w.state) (.refl _) (fun o _ => o.logs env w.state)
    (fun _ _ _ => logs_setTaskStatus rfl)
    (fun _ _ _ _ _ => logs_applyRoleAgentResult env _ _ _ _ _)
    (fun _ _ _ => logs_setTaskStatus rfl)

end

/-- **No task is lost, and none becomes another one**, whatever is done to the case and in whatever
order the workers start, finish and crash. -/
theorem logs_run (env : Env) (steps : List Step) (w : World) :
    Logs w.state (w.run env steps).state := by
  induction steps generalizing w with
  | nil => exact .refl _
  | cons step rest ih => exact (step.logs env w).trans (ih _)

end AgentBack.Orchestrator
