import AgentBack.Laws.Orchestrator.Tasks

/-!
# The pointers of a case

Which operations keep the live task of a case the one that the case points to. With `strict` the
agent of the case is that of the task too, which some operations keep only when the live task suits
the agent that they give the case to; `Orderly` says so for each of them.
-/

namespace AgentBack.Orchestrator

/-- The live tasks are the current one; with `strict` the case has its agent. -/
def State.Pointed (strict : Bool) (s : State) : Prop :=
  ∀ id task, s.task? id = some task → task.status.live = true →
    s.case.currentTaskId = some id ∧ (strict = true → s.case.currentAgentId = some task.agentSlug)

def State.Idle (s : State) : Prop := ∀ id task, s.task? id = some task → task.status.live = false

/-- A live current task is a task of the agent. -/
def State.Suits (agent : Option AgentId) (s : State) : Prop :=
  ∀ task, s.currentTask? = some task → task.status.live = true → agent = some task.agentSlug

/-- `_enqueue_role_agent` starts a task. -/
def starts (env : Env) (s : State) : Bool :=
  let completionKey := roleCompletionKey s.case (nextAgentId env s.case)
  !s.case.status.terminal && s.case.metadata.roleAgentCompletionKey != some completionKey &&
    !s.currentTask?.any (blockedBy completionKey)

section
variable {strict : Bool} {s s' : State}

theorem State.Idle.congr (h : s.Idle) (htasks : s'.tasks = s.tasks) : s'.Idle := by
  intro id task htask
  rw [task?_congr htasks] at htask
  exact h id task htask

theorem State.Idle.withCase (h : s.Idle) (f : Case → Case) : (s.withCase f).Idle := h

theorem State.Idle.pointed (h : s.Idle) : s.Pointed strict := by
  intro id task htask hlive
  rw [h id task htask] at hlive
  cases hlive

/-- The agent may change when the live task suits it. -/
theorem State.Pointed.of_tasks (h : s.Pointed strict) (htasks : s'.tasks = s.tasks)
    (hcurrent : s'.case.currentTaskId = s.case.currentTaskId)
    (hagent : strict = true → s.Suits s'.case.currentAgentId) : s'.Pointed strict := by
  intro id task htask hlive
  rw [task?_congr htasks] at htask
  obtain ⟨hpointed, -⟩ := h id task htask hlive
  refine ⟨hcurrent.trans hpointed, fun hstrict => ?_⟩
  exact hagent hstrict task ((currentTask?_eq hpointed).trans htask) hlive

theorem State.Pointed.suits (h : s.Pointed true) : s.Suits s.case.currentAgentId := by
  intro task htask hlive
  unfold State.currentTask? at htask
  obtain ⟨id, -, htask⟩ := Option.bind_eq_some_iff.mp htask
  exact (h id task htask hlive).2 rfl

theorem State.Pointed.suits_self (h : s.Pointed strict) (hstrict : strict = true) :
    s.Suits s.case.currentAgentId := by
  subst hstrict
  exact h.suits

theorem Quiet.pointed (hq : Quiet s s') (h : s.Pointed strict) : s'.Pointed strict :=
  h.of_tasks hq.tasks hq.currentTaskId fun hstrict => by
    rw [hq.currentAgentId]
    exact h.suits_self hstrict

variable (h : s.Pointed strict)
include h

theorem State.Pointed.weaken : s.Pointed false := by
  intro id task htask hlive
  exact ⟨(h id task htask hlive).1, by simp⟩

/-- When the current task is over, every task is. -/
theorem State.Pointed.idle (hover : ∀ task, s.currentTask? = some task → task.status.live = false) :
    s.Idle := by
  intro id task htask
  cases hlive : task.status.live with
  | false => rfl
  | true =>
    have hcurrent := currentTask?_eq (h id task htask hlive).1
    exact hlive.symm.trans (hover task (hcurrent.trans htask))

theorem State.Pointed.idle_of_none (hnone : s.case.currentTaskId = none) :
    s.Idle := by
  apply h.idle
  intro task htask
  unfold State.currentTask? at htask
  rw [hnone] at htask
  cases htask

theorem State.Pointed.idle_setTaskStatus {id : TaskId} (hcurrent : s.case.currentTaskId = some id)
    {status : TaskStatus} (hstatus : status.live = false)
    (htasks : s'.tasks = (s.setTaskStatus id status).tasks) :
    s'.Idle := by
  intro id' task htask
  rw [task?_congr htasks, task?_setTaskStatus] at htask
  split at htask
  · obtain ⟨task', -, rfl⟩ := Option.map_eq_some_iff.mp htask
    exact hstatus
  · next hid =>
    cases hlive : task.status.live with
    | false => rfl
    | true =>
      have hpointed := (h id' task htask hlive).1
      exact absurd (Option.some.inj (hcurrent.symm.trans hpointed)) hid

/-- A task of the case changes to a status; when it is live, the pointers have to fit. -/
theorem State.Pointed.setTaskStatus {id : TaskId} {status : TaskStatus}
    (htasks : s'.tasks = (s.setTaskStatus id status).tasks)
    (hcurrent : s'.case.currentTaskId = s.case.currentTaskId)
    (hagent : s'.case.currentAgentId = s.case.currentAgentId)
    (hfits : ∀ task, s.task? id = some task → status.live = true →
      s.case.currentTaskId = some id ∧
        (strict = true → s.case.currentAgentId = some task.agentSlug)) : s'.Pointed strict := by
  intro id' task htask hlive
  rw [hcurrent, hagent]
  rw [task?_congr htasks, task?_setTaskStatus] at htask
  split at htask
  · next hid =>
    subst hid
    obtain ⟨task', htask', rfl⟩ := Option.map_eq_some_iff.mp htask
    exact hfits task' htask' hlive
  · exact h id' task htask hlive

end

/-! ## A new task -/

section
variable {strict : Bool} {s : State} (env : Env) (now : Time)

theorem pointed_startTask (h : s.Idle) (agentId : AgentId) (completionKey : String) :
    (startTask agentId completionKey now s).Pointed strict := by
  have hcore := core_startTask agentId completionKey now s
  intro id task htask hlive
  unfold State.task? at htask
  rw [tasks_startTask] at htask
  by_cases hid : id < s.tasks.length
  · rw [List.getElem?_append_left hid] at htask
    rw [h id task htask] at hlive
    cases hlive
  · rw [List.getElem?_append_right (Nat.le_of_not_lt hid)] at htask
    rw [List.getElem?_singleton] at htask
    split at htask
    · next hlast =>
      cases htask
      obtain rfl : id = s.tasks.length :=
        Nat.le_antisymm (Nat.le_of_sub_eq_zero hlast) (Nat.le_of_not_lt hid)
      exact ⟨congrArg Core.currentTaskId hcore, fun _ => congrArg Core.currentAgentId hcore⟩
    · cases htask

/-- A task that does not stand in the way is over, or is cancelled. -/
theorem idle_releaseCurrent (h : s.Pointed strict) (completionKey : String)
    (hfree : s.currentTask?.any (blockedBy completionKey) = false) :
    (releaseCurrent completionKey s).Idle := by
  rcases tasks_releaseCurrent completionKey s with hsame | ⟨id, task, hcurrent, -, -, -, hcancelled⟩
  · refine State.Idle.congr (h.idle ?_) hsame
    intro task htask
    by_contra hlive
    rw [Bool.not_eq_false] at hlive
    rw [htask, Option.any_some] at hfree
    obtain ⟨hwaits, hkey⟩ := waiting_of_not_blockedBy hfree (blocking_of_live hlive)
    -- then the task would have been cancelled
    unfold State.currentTask? at htask
    obtain ⟨id, hcurrent, htask⟩ := Option.bind_eq_some_iff.mp htask
    have hcancelled : (releaseCurrent completionKey s).tasks =
        (s.setTaskStatus id .cancelled).tasks := by
      unfold releaseCurrent
      rw [hcurrent]
      dsimp only
      rw [htask]
      dsimp only
      rw [hwaits, decide_eq_true hkey]
      rfl
    have hafter := task?_congr (hsame.symm.trans hcancelled) id
    rw [htask, task?_setTaskStatus, if_pos rfl, htask] at hafter
    have hstatus := congrArg Task.status (Option.some.inj hafter)
    rw [hstatus] at hlive
    cases hlive
  · exact h.idle_setTaskStatus hcurrent rfl hcancelled

theorem enqueueRoleAgent_of_starts (h : starts env s = true) :
    enqueueRoleAgent env now s = startTask (nextAgentId env s.case)
      (roleCompletionKey s.case (nextAgentId env s.case)) now
      (releaseCurrent (roleCompletionKey s.case (nextAgentId env s.case)) s) ∧
    s.currentTask?.any (blockedBy (roleCompletionKey s.case (nextAgentId env s.case))) = false := by
  unfold starts at h
  rw [Bool.and_eq_true, Bool.and_eq_true, Bool.not_eq_true', Bool.not_eq_true', bne_iff_ne] at h
  unfold enqueueRoleAgent
  rw [if_neg (by rw [h.1.1]; decide)]
  dsimp only
  rw [if_neg h.1.2, if_neg (by rw [h.2]; decide)]
  exact ⟨rfl, h.2⟩

theorem enqueueRoleAgent_of_not_starts (h : starts env s = false) :
    enqueueRoleAgent env now s = s := by
  rcases enqueueRoleAgent_cases env now s with hsame | ⟨hopen, hkey, hfree, -⟩
  · exact hsame
  · unfold starts at h
    dsimp only at h
    rw [hopen, hfree, bne_iff_ne.mpr hkey] at h
    cases h

/-- A new task puts the pointers right. -/
theorem pointed_enqueueRoleAgent_of_starts (h : s.Pointed false) (hstarts : starts env s = true) :
    (enqueueRoleAgent env now s).Pointed strict := by
  obtain ⟨hstart, hfree⟩ := enqueueRoleAgent_of_starts env now hstarts
  rw [hstart]
  exact pointed_startTask now (idle_releaseCurrent h _ hfree) _ _

theorem pointed_enqueueRoleAgent (h : s.Pointed strict) :
    (enqueueRoleAgent env now s).Pointed strict := by
  cases hstarts : starts env s with
  | true => exact pointed_enqueueRoleAgent_of_starts env now h.weaken hstarts
  | false =>
    rw [enqueueRoleAgent_of_not_starts env now hstarts]
    exact h

end

theorem starts_congr {s s' : State} (hcase : s'.case = s.case) (htasks : s'.tasks = s.tasks)
    (env : Env) : starts env s' = starts env s := by
  unfold starts State.currentTask? State.task?
  rw [hcase, htasks]

/-- The agent of a case whose task has just started. -/
theorem currentAgentId_enqueueRoleAgent {env : Env} {s : State} (h : starts env s = true)
    (now : Time) :
    (enqueueRoleAgent env now s).case.currentAgentId = some (nextAgentId env s.case) := by
  rw [(enqueueRoleAgent_of_starts env now h).1]
  exact congrArg Core.currentAgentId (core_startTask _ _ now _)

section
variable {strict : Bool} {s : State} (env : Env) (now : Time)

variable (h : s.Pointed strict)
include h

theorem idle_cancelCurrentTask : s.cancelCurrentTask.Idle := by
  unfold State.cancelCurrentTask
  split
  · next hnone => exact h.idle_of_none hnone
  · next id hcurrent =>
    cases htask : s.task? id with
    | none =>
      refine State.Idle.congr (h.idle ?_) rfl
      intro task htask'
      rw [currentTask?_eq hcurrent, htask] at htask'
      cases htask'
    | some task =>
      dsimp only
      split
      · exact h.idle_setTaskStatus hcurrent rfl (by rfl)
      · next hidle =>
        refine State.Idle.congr (h.idle ?_) rfl
        intro task' htask'
        rw [currentTask?_eq hcurrent, htask] at htask'
        cases htask'
        by_contra hlive
        exact hidle (blocking_of_live (Bool.eq_true_of_not_eq_false hlive))

theorem idle_archiveCase (hopen : s.case.status.terminal = false)
    (closedReason eventType key : String) (mark : SourceMark) :
    (archiveCase env closedReason eventType key mark now s).Idle := by
  unfold archiveCase
  rw [if_neg (by rw [hopen]; decide)]
  dsimp only
  refine State.Idle.congr ?_ (tasks_appendEvent _ _ _ _ _)
  refine @idle_cancelCurrentTask strict _ (h.of_tasks rfl rfl ?_)
  exact fun hs => h.suits_self hs

theorem pointed_archiveCase (closedReason eventType key : String) (mark : SourceMark) :
    (archiveCase env closedReason eventType key mark now s).Pointed strict := by
  cases hopen : s.case.status.terminal with
  | true =>
    unfold archiveCase
    rw [if_pos hopen]
    exact h
  | false => exact (idle_archiveCase env now h hopen _ _ _ mark).pointed

theorem pointed_documentChanged (document : Document) :
    (documentChanged env document s).Pointed strict := by
  have hcard : ((s.withCase (updateCaseCard document)).noteEvent "source_document_changed"
      (document.pollIdempotencyKey ++ ":changed")).Pointed strict :=
    (quiet_noteEvent _ _ _).pointed ((quiet_withCase (fun _ => rfl) s).pointed h)
  unfold documentChanged
  dsimp only
  split
  · unfold reactivateCase
    refine (quiet_appendEvent _ _ _ _ _).pointed (hcard.of_tasks rfl rfl ?_)
    exact fun hs => hcard.suits_self hs
  · exact hcard

theorem pointed_upsertCaseFromDocument (document : Document) :
    (upsertCaseFromDocument env document now s).Pointed strict := by
  have hsynced : (s.withCase fun c => { c with sourceSyncedAt := some now }).Pointed strict :=
    (quiet_withCase (fun _ => rfl) s).pointed h
  unfold upsertCaseFromDocument
  dsimp only
  split
  · exact hsynced
  split
  · exact pointed_archiveCase env now hsynced _ _ _ _
  split
  · exact hsynced
  split
  · exact pointed_enqueueRoleAgent env now ((quiet_withCase (fun _ => rfl) _).pointed hsynced)
  · exact pointed_enqueueRoleAgent env now (pointed_documentChanged env hsynced document)

theorem pointed_closeOutsideActiveRefs (reason : InactiveReason) :
    (closeOutsideActiveRefs env reason now s).Pointed strict := by
  have hsynced : (s.withCase fun c => { c with sourceSyncedAt := some now }).Pointed strict :=
    (quiet_withCase (fun _ => rfl) s).pointed h
  unfold closeOutsideActiveRefs
  split
  · exact pointed_archiveCase env now hsynced _ _ _ _
  · exact h

end

/-! ## Passes -/

/-- The pass takes the case from the engineer. -/
def migrates (env : Env) (c : Case) : Bool :=
  c.status.monitored && decide (c.sourceType = .productionMaterialOrder) && undecidedEngineer env c

def givesToManager (c : Case) : Bool :=
  c.status.monitored && decide (c.sourceType = .productionMaterialOrder) && !c.closedAt.isSome &&
    decide (c.metadata.coverageStatus = some .full) && !(c.metadata.desk .manager).archivedAt.isSome

section
variable {strict : Bool} {s : State} (env : Env) (now : Time)

variable (h : s.Pointed strict)
include h

theorem pointed_ensureActiveCaseAssignment :
    (ensureActiveCaseAssignment env now s).Pointed strict := by
  unfold ensureActiveCaseAssignment
  split
  · exact pointed_enqueueRoleAgent env now h
  · exact h

theorem pointed_ensureWarehouseAvailabilityWork (desk : Desk) (stale : Bool) :
    (ensureWarehouseAvailabilityWork env desk stale now s).Pointed strict := by
  unfold ensureWarehouseAvailabilityWork
  split
  · exact h
  split
  · next id task hcurrent _ =>
    split
    · split
      · split
        · exact (quiet_withDesk _ _ s).pointed h
        · exact h
      split
      · exact h
      split
      · exact h
      split
      · have hidle : (cancelLostTask id s).Idle := h.idle_setTaskStatus hcurrent rfl (by rfl)
        exact pointed_enqueueRoleAgent env now hidle.pointed
      split
      · exact pointed_enqueueRoleAgent env now h
      · exact h
    · exact h
  · split
    · exact h
    · exact pointed_enqueueRoleAgent env now h

/-- The live task of the engineer is cancelled, and another one stays. -/
theorem pointed_releaseEngineerTask :
    (releaseEngineerTask s).Pointed false ∧
      (s.Suits (some productionPreparationEngineer) → (releaseEngineerTask s).Idle) := by
  unfold releaseEngineerTask
  split
  · next id task hcurrent htask =>
    have hover : task.status.live = false → s.Idle := fun hdone => h.idle fun task' htask' => by
      cases htask.symm.trans htask'
      exact hdone
    split
    · have hidle : (State.withCase (fun c => { c with currentTaskId := none })
          (if task.status.blocking = true then s.setTaskStatus id .cancelled else s)).Idle := by
        split
        · exact h.idle_setTaskStatus hcurrent rfl (by rfl)
        · next hfree =>
          refine (hover ?_).congr rfl
          by_contra hlive
          exact hfree (blocking_of_live (Bool.eq_true_of_not_eq_false hlive))
      exact ⟨hidle.pointed, fun _ => hidle⟩
    · next hother =>
      refine ⟨h.weaken, fun hsuits => hover ?_⟩
      by_contra hlive
      have hagent := hsuits task htask (Bool.eq_true_of_not_eq_false hlive)
      exact hother (Option.some.inj hagent).symm
  · next hnone =>
    refine ⟨h.weaken, fun _ => h.idle fun task htask => ?_⟩
    have hbind := htask
    unfold State.currentTask? at hbind
    obtain ⟨id, hcurrent, -⟩ := Option.bind_eq_some_iff.mp hbind
    exact absurd htask (hnone id task hcurrent)

theorem pointed_migrateUndecidedEngineerCase
    (horderly : strict = true → migrates env s.case = true →
      s.Suits (some productionPreparationEngineer) ∨ starts env (takenFromEngineer s) = true) :
    (migrateUndecidedEngineerCase env now s).Pointed strict := by
  unfold migrateUndecidedEngineerCase
  split
  · exact h
  next hmigrates =>
  obtain ⟨hreleased, hidle⟩ := pointed_releaseEngineerTask h
  have htaken : (takenFromEngineer s).Pointed false := hreleased.of_tasks rfl rfl (by simp)
  have hnoted := quiet_noteEvent "complex_migrated_from_engineer"
    (cutKey ("complex-migrated-from-engineer:" ++ (takenFromEngineer s).case.id)) (takenFromEngineer s)
  change (enqueueRoleAgent env now ((takenFromEngineer s).noteEvent
    "complex_migrated_from_engineer" _)).Pointed strict
  cases strict with
  | false => exact pointed_enqueueRoleAgent env now (hnoted.pointed htaken)
  | true =>
    rw [Bool.not_eq_true', Bool.not_eq_false] at hmigrates
    rcases horderly rfl hmigrates with hsuits | hstarts
    · have htakenIdle : (takenFromEngineer s).Idle := (hidle hsuits).congr rfl
      exact pointed_enqueueRoleAgent env now (hnoted.pointed htakenIdle.pointed)
    · refine pointed_enqueueRoleAgent_of_starts env now (hnoted.pointed htaken) ?_
      rw [starts_congr (case_noteEvent _ _ _) (tasks_noteEvent _ _ _)]
      exact hstarts

theorem pointed_ensurePurchaseManagerWork (stale : Bool)
    (horderly : strict = true → givesToManager s.case = true →
      ∀ task, s.currentTask? = some task → task.agentSlug ≠ purchaseManager →
        task.status ≠ .planning ∧ task.status ≠ .running) :
    (ensurePurchaseManagerWork env stale now s).Pointed strict := by
  have hassigned := (quiet_assignPurchaseManager now s).pointed h
  unfold ensurePurchaseManagerWork
  split
  · exact h
  next hopen =>
  split
  · exact h
  split
  · exact h
  next harchived =>
  dsimp only
  split
  · exact hassigned
  next hfull =>
  have hgives : givesToManager s.case = true := by
    rw [Bool.not_eq_true', Bool.not_eq_false] at hopen
    have hcovered : s.case.metadata.coverageStatus = some .full := not_not.mp hfull
    unfold givesToManager
    rw [hopen, decide_eq_true hcovered, Bool.eq_false_iff.mpr harchived]
    rfl
  have htasks : (givePurchaseManager (assignPurchaseManager now s)).tasks = s.tasks := by
    unfold givePurchaseManager
    split <;> rfl
  have hid : (givePurchaseManager (assignPurchaseManager now s)).case.currentTaskId =
      s.case.currentTaskId := by
    unfold givePurchaseManager
    split <;> rfl
  have hagent : (givePurchaseManager (assignPurchaseManager now s)).case.currentAgentId =
      some purchaseManager := by
    unfold givePurchaseManager
    split
    · assumption
    · rfl
  generalize givePurchaseManager (assignPurchaseManager now s) = given at htasks hid hagent ⊢
  have hcurrent : given.currentTask? = s.currentTask? := by
    unfold State.currentTask? State.task?
    rw [hid, htasks]
  have hgiven : (strict = true → s.Suits (some purchaseManager)) → given.Pointed strict :=
    fun hsuits => h.of_tasks htasks hid fun hs => hagent ▸ hsuits hs
  split
  · next id task hid' htask =>
    rw [hcurrent] at htask
    split
    · next hmanager =>
      have hpointed := hgiven fun _ task' htask' _ => by
        cases htask.symm.trans htask'
        rw [hmanager]
      split
      · split
        · exact (quiet_withDesk _ _ given).pointed hpointed
        · exact hpointed
      split
      · exact pointed_enqueueRoleAgent env now hpointed
      · exact hpointed
    next hother =>
    split
    · have hidle : (cancelForPurchaseManager id given).Idle :=
        (h.weaken.of_tasks htasks hid (by simp)).idle_setTaskStatus hid' rfl (by rfl)
      exact pointed_enqueueRoleAgent env now hidle.pointed
    · next hbusy =>
      refine hgiven fun hs task' htask' hlive => ?_
      cases htask.symm.trans htask'
      obtain ⟨hplanning, hrunning⟩ := horderly hs hgives task htask hother
      rw [not_or, not_or] at hbusy
      obtain ⟨hpending, hwaits, -⟩ := hbusy
      rcases live_cases hlive with hp | hp | hp | hp
      · exact absurd hp hpending
      · exact absurd hp hplanning
      · exact absurd hp hrunning
      · exact absurd hp hwaits
  · next hnone =>
    refine pointed_enqueueRoleAgent env now (hgiven fun _ task htask _ => ?_)
    have hbind := htask
    unfold State.currentTask? at hbind
    obtain ⟨id, hcurrent', -⟩ := Option.bind_eq_some_iff.mp hbind
    exact absurd (hcurrent.trans htask) (hnone id task (hid.trans hcurrent'))

end

end AgentBack.Orchestrator
