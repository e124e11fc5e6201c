import AgentBack.Laws.Orchestrator.History

/-!
# Confirmations

A confirmation completes a task that is its role's own, and answers `completed` only when the action
of a user is on record (`Truthful`). `truthful_iff` says in which states a call does so: the archive
of the case leaves a workspace that looks confirmed, and the keys of a decision outlive the task of
the role.
-/

namespace AgentBack.Orchestrator

/-! ## The record of an action -/

/-- When and by whom the decision of the role was confirmed. -/
def Metadata.record (desk : Desk) (m : Metadata) : Option Time × Option String :=
  ((m.desk desk).actionAt, (m.desk desk).actionBy)

def Metadata.acted (desk : Desk) (m : Metadata) : Bool :=
  (m.record desk).1.isSome && (m.record desk).2.isSome

theorem record_withDesk {f : Workspace → Workspace}
    (hf : ∀ w, (f w).actionAt = w.actionAt ∧ (f w).actionBy = w.actionBy) (desk desk' : Desk)
    (m : Metadata) : (m.withDesk desk' f).record desk = m.record desk := by
  unfold Metadata.record Metadata.withDesk
  dsimp only
  split
  · rw [(hf _).1, (hf _).2]
  · rfl

theorem record_recordOutput (desk : Desk) (agentId : AgentId) (result : RoleResult)
    (sourceData : Revision) (m : Metadata) :
    (recordOutput agentId result sourceData m).record desk = m.record desk := by
  unfold recordOutput
  dsimp only
  split
  · exact record_withDesk (by exact fun _ => ⟨rfl, rfl⟩) _ _ m
  split
  · exact record_withDesk (by exact fun _ => ⟨rfl, rfl⟩) _ _ m
  split
  · exact record_withDesk (by exact fun _ => ⟨rfl, rfl⟩) _ _ m
  split
  · exact record_withDesk (by exact fun _ => ⟨rfl, rfl⟩) _ _ m
  split
  · rfl
  · rfl

theorem record_completeCase (desk : Desk) (agentId : AgentId) (result : RoleResult)
    (key : Option String) (now : Time) (c : Case) :
    (completeCase agentId result key now c).metadata.record desk = c.metadata.record desk := by
  have hclosed : ∀ c : Case, (closeReleased agentId result now c).metadata = c.metadata := by
    intro c
    unfold closeReleased
    split <;> rfl
  unfold completeCase
  dsimp only
  split
  · dsimp only
    rw [record_withDesk (by exact fun _ => ⟨rfl, rfl⟩), hclosed]
    rfl
  · rw [hclosed]
    rfl

/-- A new task of a role clears the record of its workspace. -/
theorem record_openWorkspace (agentId : AgentId) (now : Time) (s : State) {desk : Desk}
    (hdesk : desk ≠ .manager) :
    (openWorkspace agentId now s).case.metadata.record desk =
      if agentId = desk.agentId then (none, none) else s.case.metadata.record desk := by
  unfold openWorkspace warehouseAvailabilitySpec
  by_cases hengineer : agentId = productionPreparationEngineer
  · subst hengineer
    cases desk <;> rfl
  rw [if_neg hengineer]
  by_cases hdispatcher : agentId = productionDispatcher
  · subst hdispatcher
    cases desk <;> rfl
  rw [if_neg hdispatcher]
  by_cases hpicker : agentId = warehousePicker
  · subst hpicker
    cases desk <;> rfl
  rw [if_neg hpicker]
  by_cases hcomplex : agentId = warehouseComplexChief
  · subst hcomplex
    cases desk <;> rfl
  rw [if_neg hcomplex]
  have hother : agentId ≠ desk.agentId := by
    cases desk with
    | engineer => exact hengineer
    | dispatcher => exact hdispatcher
    | picker => exact hpicker
    | complex => exact hcomplex
    | manager => exact absurd rfl hdesk
  rw [if_neg hother]
  dsimp only
  split
  · exact record_withDesk (f := fun w => { openDesk now w with archivedAt := none })
      (fun _ => ⟨rfl, rfl⟩) desk .manager s.case.metadata
  · rfl

section
variable (env : Env) (now : Time) (s : State)

/-- `_enqueue_role_agent` starts a task of the role. -/
def reopens (desk : Desk) : Bool := starts env s && decide (nextAgentId env s.case = desk.agentId)

theorem record_startTask (agentId : AgentId) (key : String) {desk : Desk} (hdesk : desk ≠ .manager) :
    (startTask agentId key now s).case.metadata.record desk =
      if agentId = desk.agentId then (none, none) else s.case.metadata.record desk := by
  unfold startTask
  dsimp only
  rw [case_noteEvent, record_openWorkspace agentId now _ hdesk]

theorem record_enqueueRoleAgent {desk : Desk} (hdesk : desk ≠ .manager) :
    (enqueueRoleAgent env now s).case.metadata.record desk =
      if reopens env s desk = true then (none, none) else s.case.metadata.record desk := by
  unfold reopens
  cases hstarts : starts env s with
  | false =>
    rw [enqueueRoleAgent_of_not_starts env now hstarts]
    rfl
  | true =>
    rw [(enqueueRoleAgent_of_starts env now hstarts).1, record_startTask now _ _ _ hdesk,
      case_releaseCurrent]
    simp only [Bool.true_and, decide_eq_true_eq]

end

/-! ## The hand-off of a confirmed result -/

section
variable (env : Env) (now : Time) (s : State)

/-- The case when it is handed to the next role, before that gets a task. -/
def handedOver (desk : Desk) (bucket : Bucket) (nextAgent : AgentId) (controlPoint : String) : State :=
  (s.withDesk desk fun w => { doneDesk bucket now w with handoffAgentId := some nextAgent }).withCase
    fun c =>
      { c with
        controlPoint := some controlPoint
        currentAgentId := some nextAgent
        assignedAgents := [nextAgent] }

/-- The case when the result of a role hands it over. -/
def handedOverAfter (agentId : AgentId) (result : RoleResult) : Option State :=
  if agentId = productionPreparationEngineer then
    some (handedOver now s .engineer
      (if (result.output.map Output.hasDeficit).getD false then .attention else .success)
      productionDispatcher "chief_dispatcher")
  else
    (warehouseAvailabilitySpec agentId).map fun desk =>
      handedOver now s desk (availabilityBucket (availabilityDecision desk result s.case.metadata))
        omtoChief "omto"

theorem record_handOff {desk : Desk} (hdesk : desk ≠ .manager) (desk' : Desk) (bucket : Bucket)
    (nextAgent : AgentId) (controlPoint eventType key : String) (previous : CaseStatus) :
    (handOff env desk' bucket nextAgent controlPoint eventType key previous now
        s).case.metadata.record desk =
      if reopens env (handedOver now s desk' bucket nextAgent controlPoint) desk = true then
        (none, none)
      else s.case.metadata.record desk := by
  have hkept : (handedOver now s desk' bucket nextAgent controlPoint).case.metadata.record desk =
      s.case.metadata.record desk :=
    record_withDesk (f := fun w => { doneDesk bucket now w with handoffAgentId := some nextAgent })
      (fun _ => ⟨rfl, rfl⟩) desk desk' s.case.metadata
  unfold handOff
  dsimp only
  change (enqueueRoleAgent env now ((handedOver now s desk' bucket nextAgent
    controlPoint).appendEvent _ _ _ _)).case.metadata.record desk = _
  generalize handedOver now s desk' bucket nextAgent controlPoint = handed at hkept ⊢
  rw [record_enqueueRoleAgent env now _ hdesk]
  unfold reopens
  rw [starts_congr (case_appendEvent _ _ _ _ _) (tasks_appendEvent _ _ _ _ _), case_appendEvent, hkept]

theorem record_handOffAfter {desk : Desk} (hdesk : desk ≠ .manager) (agentId : AgentId) (id : TaskId)
    (result : RoleResult) (previous : CaseStatus) :
    (handOffAfter env agentId id result previous now s).case.metadata.record desk =
      if (handedOverAfter now s agentId result).any (fun handed => reopens env handed desk) = true then
        (none, none)
      else s.case.metadata.record desk := by
  unfold handOffAfter handedOverAfter
  split
  · exact record_handOff env now s hdesk _ _ _ _ _ _ previous
  · cases warehouseAvailabilitySpec agentId with
    | none => rfl
    | some desk' => exact record_handOff env now s hdesk _ _ _ _ _ _ previous

/-- The case when a confirmed result is recorded and its task completed. -/
def confirmedCase (k : Confirmation) (user : String) (id : TaskId) (task : Task) :
    AgentId × RoleResult × State :=
  let noted := confirmedState now s k user id
  let result := withAgentOf (confirmedResult k task (s.case.metadata.desk k.desk)) noted
  let agentId := result.agentId.getD ""
  (agentId, result, completedState agentId id result now
    (recordResult agentId id result task.sourceData noted))

/-- The hand-off of a confirmed result gives the case back to the role, whose new task clears the
record. -/
def givenBack (k : Confirmation) (user : String) (id : TaskId) (task : Task) : Bool :=
  let done := confirmedCase now s k user id task
  (handedOverAfter now done.2.2 done.1 done.2.1).any fun handed => reopens env handed k.desk

variable {k : Confirmation} {task : Task}

/-- The state and the answer of a confirmation of the current task. -/
theorem confirm_eq {id : TaskId} (user : String)
    (hfresh : k.doneBefore (s.case.metadata.desk k.desk) = false)
    (hdecides : k.decides (s.case.metadata.desk k.desk) = true)
    (hcurrent : s.case.currentTaskId = some id) (htask : s.currentTask? = some task)
    (hwaits : task.status = .waitingHuman) :
    confirm env k user now s =
      (applyRoleAgentResult env "role_agent_resumed" id
        (confirmedResult k task (s.case.metadata.desk k.desk)) now (confirmedState now s k user id),
        some .completed) := by
  unfold confirm
  dsimp only
  rw [hfresh, hdecides, hcurrent, htask]
  dsimp only [Bool.not_true]
  rw [if_neg (by decide), if_neg (by decide), if_pos hwaits]
  rfl

theorem resultState_confirmed (user : String) (id : TaskId) :
    resultState env now (confirmedState now s k user id) id
        (confirmedResult k task (s.case.metadata.desk k.desk)) task.sourceData =
      handOffAfter env (confirmedCase now s k user id task).1 id (confirmedCase now s k user id task).2.1
        s.case.status now (confirmedCase now s k user id task).2.2 := by
  have hstatus : (confirmedState now s k user id).case.status = s.case.status := by
    unfold confirmedState
    rw [case_noteEvent]
    rfl
  rw [← hstatus]
  rfl

theorem record_confirmedCase (user : String) (id : TaskId) :
    (confirmedCase now s k user id task).2.2.case.metadata.record k.desk = (some now, some user) := by
  have hnoted : (confirmedState now s k user id).case.metadata.record k.desk =
      (some now, some user) := by
    unfold confirmedState
    rw [case_noteEvent]
    unfold Metadata.record
    rw [case_withDesk]
    unfold Metadata.withDesk
    dsimp only
    rw [if_pos rfl]
  unfold confirmedCase
  dsimp only
  refine (record_completeCase k.desk _ _ _ now _).trans ?_
  exact (record_recordOutput k.desk _ _ _ _).trans hnoted

theorem record_confirm (hdesk : k.desk ≠ .manager) {id : TaskId}
    (user : String) (htask : s.task? id = some task) :
    (applyRoleAgentResult env "role_agent_resumed" id
        (confirmedResult k task (s.case.metadata.desk k.desk)) now
        (confirmedState now s k user id)).case.metadata.record k.desk =
      if givenBack env now s k user id task = true then (none, none) else (some now, some user) := by
  have htask' : (confirmedState now s k user id).task? id = some task := by
    unfold confirmedState
    rw [task?_congr (tasks_noteEvent _ _ _)]
    exact htask
  rw [applyRoleAgentResult_eq env now _ _ _ htask', case_appendEvent, resultState_confirmed,
    record_handOffAfter env now _ hdesk, record_confirmedCase]
  rfl

/-- A confirmation completes its task, and leaves the status of every other one. -/
theorem status_confirm {id : TaskId} (user : String)
    (htask : s.task? id = some task) {id' : TaskId} {task' : Task} (htask' : s.task? id' = some task') :
    ((applyRoleAgentResult env "role_agent_resumed" id
        (confirmedResult k task (s.case.metadata.desk k.desk)) now
        (confirmedState now s k user id)).task? id').map Task.status =
      some (if id' = id then .completed else task'.status) := by
  have htasks : (confirmedState now s k user id).tasks = s.tasks := by
    unfold confirmedState
    rw [tasks_noteEvent]
    rfl
  rw [applyRoleAgentResult_eq env now _ _ _ ((task?_congr htasks id).trans htask),
    task?_congr (tasks_appendEvent _ _ _ _ _), resultState_confirmed]
  have hdone : ((confirmedCase now s k user id task).2.2.task? id').map Task.status =
      some (if id' = id then .completed else task'.status) := by
    unfold confirmedCase
    dsimp only
    rw [task?_congr (tasks_completedState _ _ _ _ _), task?_setTaskStatus]
    unfold recordResult
    rw [task?_withTask]
    change Option.map Task.status (if id = id' then Option.map _
      (if id = id' then Option.map _ ((confirmedState now s k user id).task? id') else _) else _) = _
    rw [task?_congr htasks, htask']
    by_cases hid : id = id'
    · rw [if_pos hid, if_pos hid, if_pos hid.symm]
      rfl
    · rw [if_neg hid, if_neg (Ne.symm hid)]
      change Option.map Task.status (if id = id' then Option.map _
        ((confirmedState now s k user id).task? id') else
          (confirmedState now s k user id).task? id') = _
      rw [if_neg hid, task?_congr htasks, htask']
      rfl
  obtain ⟨new, hnew⟩ := tasks_handOffAfter (s := (confirmedCase now s k user id task).2.2) rfl env
    (confirmedCase now s k user id task).1 id (confirmedCase now s k user id task).2.1
    s.case.status now
  obtain ⟨done, hfound, hstatus⟩ := Option.map_eq_some_iff.mp hdone
  have hkept : (handOffAfter env (confirmedCase now s k user id task).1 id
      (confirmedCase now s k user id task).2.1 s.case.status now
      (confirmedCase now s k user id task).2.2).task? id' = some done := by
    unfold State.task? at hfound ⊢
    rw [hnew, List.getElem?_append_left (List.getElem?_eq_some_iff.mp hfound).1]
    exact hfound
  rw [hkept, Option.map_some, hstatus]

end

/-- What a call of a confirmation has to respect: it completes only the current task, which waits for a
person and is a task of the confirming role, and it answers `completed` only when the action of a user
is on record. -/
structure Truthful (env : Env) (call : ConfirmationCall) (user : String) (now : Time) (s : State) :
    Prop where
  ownTask : ∀ k, call.confirmation = some k → ∀ id task, s.task? id = some task →
    task.status ≠ .completed →
    ((call.run env user now s).1.task? id).map Task.status = some .completed →
    s.case.currentTaskId = some id ∧ task.status = .waitingHuman ∧ task.agentSlug = k.desk.agentId
  confirmed : ∀ k, call.confirmation = some k → (call.run env user now s).2 = some .completed →
    (call.run env user now s).1.case.metadata.acted k.desk = true

/-- A workspace that is taken for confirmed has the action of a user on record; otherwise the waiting
current task, when the decision is one to confirm, is the role's own, and is not given back to it. -/
def confirmable (env : Env) (k : Confirmation) (user : String) (now : Time) (s : State) : Prop :=
  if k.doneBefore (s.case.metadata.desk k.desk) then s.case.metadata.acted k.desk = true
  else k.decides (s.case.metadata.desk k.desk) = true →
    ∀ id task, s.case.currentTaskId = some id → s.currentTask? = some task →
      task.status = .waitingHuman →
      task.agentSlug = k.desk.agentId ∧ givenBack env now s k user id task = false

theorem desk_of_call {call : ConfirmationCall} {k : Confirmation} (h : call.confirmation = some k) :
    k.desk ≠ .manager := by
  cases call with
  | engineerPurchase | dispatcherSupply =>
    cases h
    decide
  | warehouseAvailability agentId =>
    obtain ⟨desk, hdesk, rfl⟩ := Option.map_eq_some_iff.mp h
    change desk ≠ .manager
    unfold warehouseAvailabilitySpec at hdesk
    split at hdesk
    · cases hdesk
      decide
    split at hdesk
    · cases hdesk
      decide
    · cases hdesk

theorem run_of_confirmation (env : Env) {call : ConfirmationCall} {k : Confirmation}
    (h : call.confirmation = some k) (user : String) (now : Time) (s : State) :
    call.run env user now s = confirm env k user now s := by
  unfold ConfirmationCall.run
  rw [h]

theorem truthful_confirm_iff (env : Env) {k : Confirmation} (hdesk : k.desk ≠ .manager)
    (user : String) (now : Time) (s : State) :
    ((∀ id task, s.task? id = some task → task.status ≠ .completed →
        ((confirm env k user now s).1.task? id).map Task.status = some .completed →
        s.case.currentTaskId = some id ∧ task.status = .waitingHuman ∧
          task.agentSlug = k.desk.agentId) ∧
      ((confirm env k user now s).2 = some .completed →
        (confirm env k user now s).1.case.metadata.acted k.desk = true)) ↔
      confirmable env k user now s := by
  have hsame : ∀ answer, answer ≠ some Answer.completed → confirm env k user now s = (s, answer) →
      (∀ id task, s.task? id = some task → task.status ≠ .completed →
        ((confirm env k user now s).1.task? id).map Task.status = some .completed →
        s.case.currentTaskId = some id ∧ task.status = .waitingHuman ∧
          task.agentSlug = k.desk.agentId) ∧
      ((confirm env k user now s).2 = some .completed →
        (confirm env k user now s).1.case.metadata.acted k.desk = true) := by
    intro answer hanswer heq
    rw [heq]
    refine ⟨fun id task htask hopen hdone => ?_, fun hcompleted => absurd hcompleted hanswer⟩
    rw [htask] at hdone
    exact absurd (Option.some.inj hdone) hopen
  unfold confirmable
  cases hdone : k.doneBefore (s.case.metadata.desk k.desk) with
  | true =>
    have heq : confirm env k user now s = (s, some .completed) := by
      unfold confirm
      dsimp only
      rw [hdone]
      rfl
    rw [heq, if_pos rfl]
    constructor
    · rintro ⟨-, hacted⟩
      exact hacted rfl
    · intro hacted
      refine ⟨fun id task htask hopen hdone => ?_, fun _ => hacted⟩
      rw [htask] at hdone
      exact absurd (Option.some.inj hdone) hopen
  | false =>
    rw [if_neg (by decide)]
    cases hdecides : k.decides (s.case.metadata.desk k.desk) with
    | false =>
      have heq : confirm env k user now s = (s, none) := by
        unfold confirm
        dsimp only
        rw [hdone, hdecides]
        rfl
      exact iff_of_true (hsame none (by simp) heq) fun h => by cases h
    | true =>
      by_cases hwaits : ∃ id task, s.case.currentTaskId = some id ∧ s.currentTask? = some task ∧
          task.status = .waitingHuman
      · obtain ⟨id, task, hcurrent, htask, hwaits⟩ := hwaits
        have hfound : s.task? id = some task := (currentTask?_eq hcurrent).symm.trans htask
        rw [confirm_eq env now s user hdone hdecides hcurrent htask hwaits]
        dsimp only
        unfold Metadata.acted
        rw [record_confirm env now s hdesk user hfound]
        constructor
        · rintro ⟨hown, hacted⟩ - id' task' hcurrent' htask' -
          cases hcurrent.symm.trans hcurrent'
          cases htask.symm.trans htask'
          have hcompleted := status_confirm env now s (k := k) user hfound hfound
          rw [if_pos rfl] at hcompleted
          refine ⟨(hown id task hfound (by rw [hwaits]; decide) hcompleted).2.2, ?_⟩
          cases hback : givenBack env now s k user id task with
          | false => rfl
          | true =>
            have hrecord := hacted rfl
            rw [hback] at hrecord
            cases hrecord
        · intro h
          obtain ⟨hslug, hback⟩ := h rfl id task hcurrent htask hwaits
          refine ⟨fun id' task' htask' hopen hcompleted => ?_, fun _ => ?_⟩
          · rw [status_confirm env now s user hfound htask'] at hcompleted
            by_cases hid : id' = id
            · subst hid
              cases hfound.symm.trans htask'
              exact ⟨hcurrent, hwaits, hslug⟩
            · rw [if_neg hid] at hcompleted
              exact absurd (Option.some.inj hcompleted) hopen
          · rw [hback]
            rfl
      · have heq : confirm env k user now s = (s, none) := by
          unfold confirm
          dsimp only
          rw [hdone, hdecides, if_neg (by decide), if_neg (by decide)]
          split
          · next id task hcurrent htask =>
            rw [if_neg fun hw => hwaits ⟨id, task, hcurrent, htask, hw⟩]
          · rfl
        refine iff_of_true (hsame none (by simp) heq) fun _ id task hcurrent htask hw => ?_
        exact absurd ⟨id, task, hcurrent, htask, hw⟩ hwaits

/-- A call is truthful exactly in the states that it can confirm, and always when the agent that it
names has no confirmation. -/
theorem truthful_iff (env : Env) (call : ConfirmationCall) (user : String) (now : Time) (s : State) :
    Truthful env call user now s ↔
      ∀ k, call.confirmation = some k → confirmable env k user now s := by
  constructor
  · intro h k hk
    rw [← truthful_confirm_iff env (desk_of_call hk)]
    have hown := h.ownTask k hk
    have hconfirmed := h.confirmed k hk
    rw [run_of_confirmation env hk] at hown hconfirmed
    exact ⟨hown, hconfirmed⟩
  · intro h
    refine ⟨fun k hk => ?_, fun k hk => ?_⟩
    · rw [run_of_confirmation env hk]
      exact ((truthful_confirm_iff env (desk_of_call hk) user now s).mpr (h k hk)).1
    · rw [run_of_confirmation env hk]
      exact ((truthful_confirm_iff env (desk_of_call hk) user now s).mpr (h k hk)).2

/-- The source archives the case before its decision is confirmed, and the confirmation answers that
it was. -/
theorem truthful_archived_fails :
    ¬ Truthful plainEnv (.warehouseAvailability warehouseComplexChief) "user" "t"
      (plainWorld.run plainEnv [documentGone]).state := by
  intro h
  have hk : (ConfirmationCall.warehouseAvailability warehouseComplexChief).confirmation =
      some (confirmWarehouseAvailabilityConclusion .complex) := rfl
  have hanswer : ((ConfirmationCall.warehouseAvailability warehouseComplexChief).run plainEnv "user" "t"
      (plainWorld.run plainEnv [documentGone]).state).2 = some .completed := by
    decide +kernel
  have hacted : ((ConfirmationCall.warehouseAvailability warehouseComplexChief).run plainEnv "user" "t"
      (plainWorld.run plainEnv [documentGone]).state).1.case.metadata.acted .complex = false := by
    decide +kernel
  have hconfirmed := h.confirmed _ hk hanswer
  rw [show (confirmWarehouseAvailabilityConclusion .complex).desk = .complex from rfl, hacted]
    at hconfirmed
  cases hconfirmed

end AgentBack.Orchestrator
