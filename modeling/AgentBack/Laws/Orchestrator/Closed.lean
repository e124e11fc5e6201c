import AgentBack.Laws.Orchestrator.LateResult
import AgentBack.Laws.Orchestrator.OneTask

/-!
# Closed cases

A closed case has its marks, no pointer and no live task (`Sealed`). Nothing but a poll of a recent
document without a skip reason takes it out of the archive, and nothing at all once it was released
(`closedForGood_run`). A result that comes late, and one of quality control that asks for `closed`,
break this, so the runs are without them.
-/

namespace AgentBack.Orchestrator

/-! ## The marks of an open case -/

structure SameMarks (s s' : State) : Prop where
  closedAt : s'.case.closedAt = s.case.closedAt
  closedReason : s'.case.closedReason = s.case.closedReason

theorem SameMarks.refl (s : State) : SameMarks s s := ⟨rfl, rfl⟩

theorem SameMarks.trans {s s' s'' : State} (h : SameMarks s s') (h' : SameMarks s' s'') :
    SameMarks s s'' :=
  ⟨h'.closedAt.trans h.closedAt, h'.closedReason.trans h.closedReason⟩

/-- An open case stays open, without marks. -/
structure KeepsOpen (s s' : State) : Prop where
  status : s.case.status ≠ .closed → s'.case.status ≠ .closed
  marks : SameMarks s s'

theorem KeepsOpen.trans {s s' s'' : State} (h : KeepsOpen s s') (h' : KeepsOpen s' s'') :
    KeepsOpen s s'' :=
  ⟨fun hopen => h'.status (h.status hopen), h.marks.trans h'.marks⟩

theorem Quiet.sameMarks {s s' : State} (h : Quiet s s') : SameMarks s s' :=
  ⟨h.closedAt, h.closedReason⟩

theorem Quiet.keepsOpen {s s' : State} (h : Quiet s s') : KeepsOpen s s' :=
  ⟨fun hopen => by rw [h.status]; exact hopen, h.sameMarks⟩

/-- A change that leaves the status and the marks alone. -/
theorem keepsOpen_of_status {s s' : State} (hstatus : s'.case.status = s.case.status)
    (hmarks : SameMarks s s') : KeepsOpen s s' :=
  ⟨fun hopen => by rw [hstatus]; exact hopen, hmarks⟩

/-- A change to a status that is not `closed`. -/
theorem keepsOpen_of_open {s s' : State} (hopen : s'.case.status ≠ .closed)
    (hmarks : SameMarks s s') : KeepsOpen s s' :=
  ⟨fun _ => hopen, hmarks⟩

section
variable (env : Env) (now : Time) (s : State)

theorem status_enqueueRoleAgent :
    (enqueueRoleAgent env now s).case.status = s.case.status ∧
      SameMarks s (enqueueRoleAgent env now s) := by
  rcases enqueueRoleAgent_cases env now s with hsame | ⟨-, -, -, hstart⟩
  · rw [hsame]
    exact ⟨rfl, .refl s⟩
  · rw [hstart]
    generalize roleCompletionKey s.case (nextAgentId env s.case) = key
    have hcore := core_startTask (nextAgentId env s.case) key now (releaseCurrent key s)
    have hreleased := case_releaseCurrent key s
    refine ⟨?_, ?_, ?_⟩
    · refine (congrArg Core.status hcore).trans ?_
      change (releaseCurrent key s).case.status = _
      rw [hreleased]
    · refine (congrArg Core.closedAt hcore).trans ?_
      change (releaseCurrent key s).case.closedAt = _
      rw [hreleased]
    · refine (congrArg Core.closedReason hcore).trans ?_
      change (releaseCurrent key s).case.closedReason = _
      rw [hreleased]

theorem keepsOpen_enqueueRoleAgent : KeepsOpen s (enqueueRoleAgent env now s) :=
  keepsOpen_of_status (status_enqueueRoleAgent env now s).1 (status_enqueueRoleAgent env now s).2

/-! ## Operations on an open case -/

theorem keepsOpen_startOtk (status : TmcStatus) : KeepsOpen s (startOtk env status now s) := by
  have hstarted := status_enqueueRoleAgent env now (toQuality s)
  unfold startOtk
  dsimp only
  change KeepsOpen s (if status = .partly then
    (enqueueRoleAgent env now (toQuality s)).withCase _ else enqueueRoleAgent env now (toQuality s))
  split
  · exact keepsOpen_of_status rfl ⟨hstarted.2.closedAt, hstarted.2.closedReason⟩
  · refine keepsOpen_of_open ?_ ⟨hstarted.2.closedAt, hstarted.2.closedReason⟩
    rw [hstarted.1]
    exact CaseStatus.noConfusion

theorem moving_keepsOpen : Moving env now KeepsOpen where
  trans := .trans
  quiet h := h.keepsOpen
  enqueue := keepsOpen_enqueueRoleAgent env now
  cancel _ _ := keepsOpen_of_status rfl ⟨rfl, rfl⟩
  edit hat hreason hstatus :=
    ⟨fun hopen => hstatus.elim (fun hsame => hsame ▸ hopen) id, hat, hreason⟩
  startOtk status s := keepsOpen_startOtk env now s status

end

/-- A closed case has its marks and no pointer, an open one has no marks, and the live tasks are the
current one. -/
structure Sealed (s : State) : Prop where
  pointed : s.Pointed false
  closed : s.case.status = .closed → s.case.closedAt.isSome = true ∧
    s.case.closedReason.isSome = true ∧ s.case.currentTaskId = none
  unmarked : s.case.status ≠ .closed → s.case.closedAt = none ∧ s.case.closedReason = none

section
variable {s s' : State}

theorem Sealed.quiet (h : Sealed s) (hq : Quiet s s') : Sealed s' where
  pointed := hq.pointed h.pointed
  closed := by
    rw [hq.status, hq.closedAt, hq.closedReason, hq.currentTaskId]
    exact h.closed
  unmarked := by
    rw [hq.status, hq.closedAt, hq.closedReason]
    exact h.unmarked

theorem Sealed.keepsOpen (h : Sealed s) (hopen : s.case.status ≠ .closed) (hk : KeepsOpen s s')
    (hpointed : s'.Pointed false) : Sealed s' where
  pointed := hpointed
  closed hc := absurd hc (hk.status hopen)
  unmarked _ := by
    rw [hk.marks.closedAt, hk.marks.closedReason]
    exact h.unmarked hopen

theorem sealed_of_closed (hclosed : s.case.status = .closed) (hidle : s.Idle)
    (hat : s.case.closedAt.isSome = true) (hreason : s.case.closedReason.isSome = true)
    (hnone : s.case.currentTaskId = none) : Sealed s where
  pointed := hidle.pointed
  closed _ := ⟨hat, hreason, hnone⟩
  unmarked hopen := absurd hclosed hopen

theorem Sealed.idle (h : Sealed s) (hclosed : s.case.status = .closed) : s.Idle :=
  h.pointed.idle_of_none (h.closed hclosed).2.2

end

section
variable {s : State} (env : Env) (now : Time)

/-! ## Polls -/

theorem case_cancelCurrentTask (s : State) :
    s.cancelCurrentTask.case.status = s.case.status ∧
      s.cancelCurrentTask.case.closedAt = s.case.closedAt ∧
      s.cancelCurrentTask.case.closedReason = s.case.closedReason ∧
      s.cancelCurrentTask.case.currentTaskId = none := by
  unfold State.cancelCurrentTask
  split
  · next hnone => exact ⟨rfl, rfl, rfl, hnone⟩
  · next id _ =>
    cases s.task? id with
    | none => exact ⟨rfl, rfl, rfl, rfl⟩
    | some task =>
      dsimp only
      split
      · exact ⟨rfl, rfl, rfl, rfl⟩
      · exact ⟨rfl, rfl, rfl, rfl⟩

theorem sealed_archiveCase (h : Sealed s) (closedReason eventType key : String) (mark : SourceMark) :
    Sealed (archiveCase env closedReason eventType key mark now s) := by
  cases hopen : s.case.status.terminal with
  | true =>
    unfold archiveCase
    rw [if_pos hopen]
    exact h
  | false =>
    have hidle := idle_archiveCase env now h.pointed hopen closedReason eventType key mark
    unfold archiveCase at hidle ⊢
    rw [if_neg (by rw [hopen]; decide)] at hidle ⊢
    dsimp only at hidle ⊢
    generalize hclosing : State.withCase _ s = closing at hidle ⊢
    have hcase := case_cancelCurrentTask closing
    apply sealed_of_closed
    · rw [case_appendEvent, hcase.1, ← hclosing]
      rfl
    · exact hidle
    · rw [case_appendEvent, hcase.2.1, ← hclosing]
      rfl
    · rw [case_appendEvent, hcase.2.2.1, ← hclosing]
      rfl
    · rw [case_appendEvent]
      exact hcase.2.2.2

theorem sealed_reactivateCase (h : s.Pointed false) (document : Document) :
    Sealed (reactivateCase env document s) := by
  unfold reactivateCase
  refine Sealed.quiet ?_ (quiet_appendEvent _ _ _ _ _)
  refine ⟨h.of_tasks rfl rfl (by simp), fun hclosed => ?_, fun _ => ⟨rfl, rfl⟩⟩
  cases hclosed

theorem sealed_documentChanged (h : Sealed s) (document : Document) :
    Sealed (documentChanged env document s) := by
  have hcard : Quiet s ((s.withCase (updateCaseCard document)).noteEvent "source_document_changed"
      (document.pollIdempotencyKey ++ ":changed")) :=
    (quiet_withCase (f := updateCaseCard document) (fun _ => rfl) s).trans (quiet_noteEvent _ _ _)
  unfold documentChanged
  dsimp only
  split
  · exact sealed_reactivateCase env (hcard.pointed h.pointed) document
  · exact h.quiet hcard

theorem Sealed.enqueueRoleAgent (h : Sealed s) : Sealed (enqueueRoleAgent env now s) := by
  by_cases hclosed : s.case.status = .closed
  · unfold Orchestrator.enqueueRoleAgent
    rw [if_pos (by rw [hclosed]; rfl)]
    exact h
  · exact h.keepsOpen hclosed (keepsOpen_enqueueRoleAgent env now s)
      (pointed_enqueueRoleAgent env now h.pointed)

theorem quiet_synced (s : State) :
    Quiet s (s.withCase fun c => { c with sourceSyncedAt := some now }) :=
  ⟨rfl, rfl⟩

theorem sealed_upsertCaseFromDocument (h : Sealed s) (document : Document) :
    Sealed (upsertCaseFromDocument env document now s) := by
  have hsynced := h.quiet (quiet_synced now s)
  unfold upsertCaseFromDocument
  dsimp only
  split
  · exact hsynced
  split
  · exact sealed_archiveCase env now hsynced _ _ _ _
  split
  · exact hsynced
  split
  · have hshown := hsynced.quiet
      (quiet_withCase (f := updateCasePresentations document) (fun _ => rfl) _)
    exact hshown.enqueueRoleAgent env now
  · exact (sealed_documentChanged env hsynced document).enqueueRoleAgent env now

theorem sealed_closeOutsideActiveRefs (h : Sealed s) (reason : InactiveReason) :
    Sealed (closeOutsideActiveRefs env reason now s) := by
  unfold closeOutsideActiveRefs
  split
  · exact sealed_archiveCase env now (h.quiet (quiet_synced now s)) _ _ _ _
  · exact h

theorem monitored_closed (h : s.case.status = .closed) : s.case.status.monitored = false := by
  rw [h]
  rfl

theorem active_closed (h : s.case.status = .closed) : s.case.status.active = false := by
  rw [h]
  rfl

/-- An operation that is not a poll of the document leaves a closed case alone. -/
theorem quiet_of_closed (h : Sealed s) (hclosed : s.case.status = .closed) {operation : Operation}
    (hpoll : ∀ document at', operation ≠ .upsert document at') : Quiet s (operation.apply env s) := by
  have hnone := (h.closed hclosed).2.2
  have hterminal : s.case.status.terminal = true := by
    rw [hclosed]
    rfl
  cases operation with
  | upsert document at' => exact absurd rfl (hpoll document at')
  | closeOutside reason at' =>
    unfold Operation.apply closeOutsideActiveRefs
    dsimp only
    rw [if_neg (by rw [monitored_closed hclosed]; decide)]
    exact .refl s
  | assign at' =>
    unfold Operation.apply ensureActiveCaseAssignment
    dsimp only
    rw [if_neg (by rw [active_closed hclosed]; decide)]
    exact .refl s
  | availability desk stale at' =>
    unfold Operation.apply ensureWarehouseAvailabilityWork
    dsimp only
    rw [if_pos (by rw [monitored_closed hclosed]; rfl)]
    exact .refl s
  | migrate at' =>
    unfold Operation.apply migrateUndecidedEngineerCase
    dsimp only
    rw [if_pos (by rw [monitored_closed hclosed]; rfl)]
    exact .refl s
  | purchase stale at' =>
    unfold Operation.apply ensurePurchaseManagerWork
    dsimp only
    rw [if_pos (by rw [monitored_closed hclosed]; rfl)]
    exact .refl s
  | supplier evidence at' =>
    unfold Operation.apply reconcileSupplierOrders supplierEligible
    dsimp only
    rw [if_pos (by rw [hterminal, Bool.not_true, Bool.and_false]; rfl)]
    exact .refl s
  | journal evidence at' =>
    unfold Operation.apply reconcilePresentations journalEligible
    dsimp only
    rw [if_neg (by rw [hterminal]; simp)]
    exact .refl s
  | resume result at' =>
    unfold Operation.apply resumeCaseAgent
    dsimp only
    rw [hnone]
    exact .refl s
  | confirm desk user at' =>
    unfold Operation.apply
    dsimp only
    split
    · unfold Orchestrator.confirm
      dsimp only
      rw [hnone]
      split
      · exact .refl s
      split
      · exact .refl s
      · exact .refl s
    · exact .refl s
  | acknowledge desk user at' => exact quiet_acknowledgeCritical desk user at' s

end

/-! ## Results -/

/-- The result is one of quality control that puts the case to `closed` by name. -/
def AsksClosed (result : RoleResult) (s : State) : Prop :=
  (result.roleStatus = .waitingHuman ∨ result.roleStatus = .completed) ∧
    qualityStatus ((result.agentId.orElse fun _ => s.case.currentAgentId).getD "") result =
      some .closed

section
variable {s : State} (env : Env) (now : Time)

/-- A completed task leaves the case without pointers, and with the marks of its status. -/
theorem case_completeCase (agentId : AgentId) (result : RoleResult) (key : Option String)
    (c : Case) :
    let done := completeCase agentId result key now c
    done.status = completedStatus agentId result ∧ done.currentTaskId = none ∧
      (qualityStatus agentId result = some .qualityReleased →
        done.closedAt.isSome = true ∧ done.closedReason.isSome = true) ∧
      (qualityStatus agentId result ≠ some .qualityReleased →
        done.closedAt = c.closedAt ∧ done.closedReason = c.closedReason) := by
  intro done
  have hstatus : done.status = completedStatus agentId result := by
    change (completeCase agentId result key now c).status = _
    unfold completeCase closeReleased
    dsimp only
    split <;> split <;> rfl
  refine ⟨hstatus, rfl, fun hreleased => ?_, fun hnot => ?_⟩
  · change (completeCase agentId result key now c).closedAt.isSome = true ∧
      (completeCase agentId result key now c).closedReason.isSome = true
    unfold completeCase closeReleased
    dsimp only
    rw [if_pos hreleased]
    split <;> exact ⟨rfl, rfl⟩
  · change (completeCase agentId result key now c).closedAt = _ ∧
      (completeCase agentId result key now c).closedReason = _
    unfold completeCase closeReleased
    dsimp only
    rw [if_neg hnot]
    split <;> exact ⟨rfl, rfl⟩

theorem sealed_completedState (h : Sealed s) (hopen : s.case.status ≠ .closed) {agentId : AgentId}
    {id : TaskId} {result : RoleResult}
    (htakes : ∀ id' task, s.task? id' = some task → task.status.live = true → id' = id)
    (hasks : qualityStatus agentId result ≠ some .closed) :
    Sealed (completedState agentId id result now s) := by
  have hidle := idle_completedState now htakes agentId result
  obtain ⟨hstatus, hnone, hreleased, hmarks⟩ := case_completeCase now agentId result
    ((s.task? id).map Task.roleCompletionKey) s.case
  by_cases hquality : qualityStatus agentId result = some .qualityReleased
  · refine sealed_of_closed ?_ hidle (hreleased hquality).1 (hreleased hquality).2 hnone
    refine hstatus.trans ?_
    unfold completedStatus
    rw [hquality]
  · refine h.keepsOpen hopen (keepsOpen_of_open ?_ ⟨(hmarks hquality).1, (hmarks hquality).2⟩)
      hidle.pointed
    change (completeCase _ _ _ _ _).status ≠ _
    rw [case_setTaskStatus, hstatus]
    unfold completedStatus
    split
    · next hq => exact absurd hq hquality
    · next status _ hq =>
      rintro rfl
      exact hasks hq
    · exact CaseStatus.noConfusion

theorem sealed_handOffAfter (h : Sealed s) (hidle : s.Idle) (agentId : AgentId) (id : TaskId)
    (result : RoleResult) (previous : CaseStatus)
    (hquality : s.case.status = .closed → agentId ∈ qualityRoleAgentIds) :
    Sealed (handOffAfter env agentId id result previous now s) := by
  have hhandOff : ∀ desk bucket nextAgent controlPoint eventType key,
      s.case.status ≠ .closed →
      Sealed (handOff env desk bucket nextAgent controlPoint eventType key previous now s) := by
    intro desk bucket nextAgent controlPoint eventType key hopen
    unfold handOff
    dsimp only
    apply Sealed.enqueueRoleAgent
    refine Sealed.quiet ?_ (quiet_appendEvent _ _ _ _ _)
    have hdone : (s.withDesk desk fun w =>
        { doneDesk bucket now w with handoffAgentId := some nextAgent }).Idle := hidle.congr rfl
    exact h.keepsOpen hopen (keepsOpen_of_status rfl ⟨rfl, rfl⟩) (hdone.withCase _).pointed
  unfold handOffAfter
  split
  · next hengineer =>
    apply hhandOff
    intro hclosed
    have hmem := hquality hclosed
    rw [hengineer] at hmem
    exact absurd hmem (by decide)
  split
  · next desk hdesk =>
    apply hhandOff
    intro hclosed
    have hmem := hquality hclosed
    unfold warehouseAvailabilitySpec at hdesk
    split at hdesk
    · next hpicker =>
      rw [hpicker] at hmem
      exact absurd hmem (by decide)
    split at hdesk
    · next hcomplex =>
      rw [hcomplex] at hmem
      exact absurd hmem (by decide)
    · cases hdesk
  · exact h

theorem sealed_applyRoleStatus (h : Sealed s) (hopen : s.case.status ≠ .closed) (agentId : AgentId)
    {id : TaskId} {result : RoleResult} (htakes : s.Takes false id result)
    (hasks : result.roleStatus = .waitingHuman ∨ result.roleStatus = .completed →
      qualityStatus agentId result ≠ some .closed) :
    Sealed (applyRoleStatus env agentId id result now s) := by
  have hpointed := pointed_applyRoleStatus env now h.pointed agentId htakes
  unfold applyRoleStatus at hpointed ⊢
  unfold State.Takes at htakes
  cases hrole : result.roleStatus with
  | waitingHuman =>
    rw [hrole] at hpointed
    refine h.keepsOpen hopen (keepsOpen_of_open ?_ ?_) hpointed
    · have hstatus : (applyWaitingHuman agentId id result s).case.status =
          (qualityStatus agentId result).getD .agentWaiting := by
        unfold applyWaitingHuman
        dsimp only
        split <;> rfl
      rw [hstatus]
      have hnot := hasks (.inl hrole)
      cases hq : qualityStatus agentId result with
      | none => exact CaseStatus.noConfusion
      | some status =>
        rintro rfl
        exact hnot hq
    · unfold applyWaitingHuman
      dsimp only
      split <;> exact ⟨rfl, rfl⟩
  | waitingExternal =>
    rw [hrole] at hpointed
    refine h.keepsOpen hopen (keepsOpen_of_open ?_ ⟨rfl, rfl⟩) hpointed
    change (if agentId = purchaseManager then CaseStatus.ordered else .agentWaiting) ≠ .closed
    split <;> exact CaseStatus.noConfusion
  | completed =>
    rw [hrole] at htakes
    dsimp only
    rw [applyCompleted_eq]
    have hdone := sealed_completedState now h hopen htakes (hasks (.inr hrole))
    refine sealed_handOffAfter env now hdone (idle_completedState now htakes agentId result) _ _ _ _ ?_
    intro hclosed
    by_contra hnot
    have hstatus := (case_completeCase now agentId result
      ((s.task? id).map Task.roleCompletionKey) s.case).1
    have hnew : completedStatus agentId result = .new := by
      unfold completedStatus qualityStatus
      rw [if_neg hnot]
    exact absurd (hclosed.symm.trans (hstatus.trans hnew)) (by decide)
  | failed =>
    rw [hrole] at hpointed
    exact h.keepsOpen hopen (keepsOpen_of_open CaseStatus.noConfusion ⟨rfl, rfl⟩) hpointed

theorem core_recordResult (agentId : AgentId) (id : TaskId) (result : RoleResult)
    (sourceData : Revision) (s : State) :
    (recordResult agentId id result sourceData s).case.core = s.case.core :=
  rfl

theorem sealed_recordResult (h : Sealed s) (agentId : AgentId) (id : TaskId) (result : RoleResult)
    (sourceData : Revision) : Sealed (recordResult agentId id result sourceData s) := by
  have hcore := core_recordResult agentId id result sourceData s
  have hpointed := pointed_recordResult h.pointed agentId id result sourceData
  generalize recordResult agentId id result sourceData s = recorded at hcore hpointed
  have hstatus : recorded.case.status = s.case.status := congrArg Core.status hcore
  have hat : recorded.case.closedAt = s.case.closedAt := congrArg Core.closedAt hcore
  have hreason : recorded.case.closedReason = s.case.closedReason :=
    congrArg Core.closedReason hcore
  have hcurrent : recorded.case.currentTaskId = s.case.currentTaskId :=
    congrArg Core.currentTaskId hcore
  refine ⟨hpointed, ?_, ?_⟩
  · rw [hstatus, hat, hreason, hcurrent]
    exact h.closed
  · rw [hstatus, hat, hreason]
    exact h.unmarked

theorem sealed_applyRoleAgentResult (h : Sealed s) (hopen : s.case.status ≠ .closed)
    (eventType : String) {id : TaskId} {result : RoleResult} (htakes : s.Takes false id result)
    (hasks : ¬ AsksClosed result s) :
    Sealed (applyRoleAgentResult env eventType id result now s) := by
  unfold applyRoleAgentResult
  split
  · exact h
  · dsimp only
    refine Sealed.quiet ?_ (quiet_appendEvent _ _ _ _ _)
    apply sealed_applyRoleStatus env now (sealed_recordResult h _ _ _ _) hopen
    · exact takes_recordResult htakes _ _ (by rfl) _
    · exact fun hrole hquality => hasks ⟨hrole, hquality⟩

end

/-! ## Steps -/

def confirmationResult (desk : Desk) (s : State) : Option RoleResult :=
  match confirmationOf desk, s.currentTask? with
  | some k, some task => some (confirmedResult k task (s.case.metadata.desk k.desk))
  | _, _ => none

/-- No result comes late or for a closed case, and none of quality control asks for `closed`. -/
def Step.Sealing : Step → World → Prop
  | .operation (.resume result _), w => ¬ AsksClosed result w.state
  | .operation (.confirm desk _ _), w => ∀ result, confirmationResult desk w.state = some result →
      ¬ AsksClosed result w.state
  | .finish id result _, w => w.workers.any (fun worker => worker.task = id) = true →
      w.state.case.status ≠ .closed ∧ w.state.Takes false id result ∧ ¬ AsksClosed result w.state
  | _, _ => True

theorem open_of_currentTask {s : State} (h : Sealed s) {id : TaskId}
    (hcurrent : s.case.currentTaskId = some id) : s.case.status ≠ .closed := by
  intro hclosed
  rw [(h.closed hclosed).2.2] at hcurrent
  cases hcurrent

theorem takes_of_current {s : State} (h : Sealed s) {id : TaskId} (result : RoleResult)
    (hcurrent : s.case.currentTaskId = some id) : s.Takes false id result := by
  cases hrole : result.roleStatus with
  | completed => exact h.pointed.takes_completed hcurrent hrole
  | failed =>
    unfold State.Takes
    rw [hrole]
    trivial
  | waitingHuman | waitingExternal =>
    unfold State.Takes
    rw [hrole]
    exact ⟨hcurrent, by simp⟩

section
variable {s : State} (env : Env) (now : Time)

theorem sealed_resumeCaseAgent (h : Sealed s) (result : RoleResult) (hasks : ¬ AsksClosed result s) :
    Sealed (resumeCaseAgent env result now s) :=
  resumeCaseAgent_of env result (P := Sealed) h fun _ _ hcurrent _ _ =>
    sealed_applyRoleAgentResult env now h (open_of_currentTask h hcurrent) _
      (takes_of_current h result hcurrent) hasks

theorem sealed_confirm (h : Sealed s) {desk : Desk} {k : Confirmation}
    (hk : confirmationOf desk = some k) (user : String)
    (hasks : ∀ result, confirmationResult desk s = some result → ¬ AsksClosed result s) :
    Sealed (confirm env k user now s).1 := by
  refine confirm_of env (P := Sealed) h ?_
  intro id task hcurrent htask _ _ _
  have hnoted := quiet_confirmedState now s k user id
  have hsealed := h.quiet hnoted
  have hcurrent' := hnoted.currentTaskId.trans hcurrent
  apply sealed_applyRoleAgentResult env now hsealed (open_of_currentTask hsealed hcurrent')
  · exact takes_of_current hsealed _ hcurrent'
  · have hresult := hasks (confirmedResult k task (s.case.metadata.desk k.desk)) (by
      unfold confirmationResult
      rw [hk, htask])
    unfold AsksClosed at hresult ⊢
    rw [hnoted.currentAgentId]
    exact hresult

theorem Step.sealed {step : Step} {w : World} (h : Sealed w.state) (hs : step.Sealing w) :
    Sealed (step.apply env w).state := by
  refine Step.apply_of (P := Sealed) h ?_ ?_ ?_ ?_
  · rintro operation rfl
    have hpointed : (operation.apply env w.state).Pointed false :=
      operation.pointed h.pointed (by simp)
    have hkept : KeepsOpen w.state (operation.apply env w.state) →
        (∀ document at', operation ≠ .upsert document at') → Sealed (operation.apply env w.state) := by
      intro hk hpoll
      by_cases hclosed : w.state.case.status = .closed
      · exact h.quiet (quiet_of_closed env h hclosed hpoll)
      · exact h.keepsOpen hclosed hk hpointed
    cases operation with
    | upsert document now => exact sealed_upsertCaseFromDocument env now h document
    | closeOutside reason now => exact sealed_closeOutsideActiveRefs env now h reason
    | assign now => exact hkept ((moving_keepsOpen env now).passing.ensureActiveCaseAssignment _) (by simp)
    | availability desk stale now =>
      exact hkept ((moving_keepsOpen env now).passing.ensureWarehouseAvailabilityWork _ desk stale) (by simp)
    | migrate now => exact hkept ((moving_keepsOpen env now).passing.migrateUndecidedEngineerCase _) (by simp)
    | purchase stale now => exact hkept ((moving_keepsOpen env now).passing.ensurePurchaseManagerWork _ stale) (by simp)
    | supplier evidence now => exact hkept ((moving_keepsOpen env now).reconcileSupplierOrders _ evidence) (by simp)
    | journal evidence now => exact hkept ((moving_keepsOpen env now).reconcilePresentations _ evidence) (by simp)
    | resume result now => exact sealed_resumeCaseAgent env now h result hs
    | confirm desk user now =>
      unfold Operation.apply
      dsimp only
      split
      · next k hk => exact sealed_confirm env now h hk user hs
      · exact h
    | acknowledge desk user now =>
      exact h.quiet (quiet_acknowledgeCritical desk user now w.state)
  · rintro id rfl hcurrent
    exact h.keepsOpen (open_of_currentTask h hcurrent) (keepsOpen_of_status rfl ⟨rfl, rfl⟩)
      (h.pointed.setTaskStatus rfl rfl rfl fun _ _ _ => ⟨hcurrent, nofun⟩)
  · rintro id result now rfl hrunning
    obtain ⟨hopen, htakes, hasks⟩ := hs hrunning
    exact sealed_applyRoleAgentResult env now h hopen _ htakes hasks
  · rintro worker rfl hrunning
    exact ⟨pointed_rolledBack h.pointed hrunning, h.closed, h.unmarked⟩

end

theorem released_iff (c : Case) :
    c.released = true ↔ c.status = .closed ∧ c.closedReason = some "quality_released" :=
  decide_eq_true_iff

/-- A poll of a closed case takes it up again, or is about other things. -/
theorem upsert_closed (env : Env) {s : State} (hclosed : s.case.status = .closed)
    (document : Document) (now : Time) :
    Quiet s (upsertCaseFromDocument env document now s) ∨
      document.recent = true ∧ document.skipReason = none ∧ s.case.released = false := by
  have hterminal : s.case.status.terminal = true := by
    rw [hclosed]
    rfl
  have hsynced := quiet_synced now s
  unfold upsertCaseFromDocument
  dsimp only
  split
  · exact .inl hsynced
  next hrecent =>
  split
  · unfold archiveCase
    rw [if_pos]
    · exact .inl hsynced
    · exact hterminal
  next hskip =>
  split
  · exact .inl hsynced
  next hreleased =>
  refine .inr ⟨?_, Option.not_isSome_iff_eq_none.mp hskip, Bool.eq_false_iff.mpr hreleased⟩
  by_contra hold
  rw [Bool.eq_false_iff.mpr hold] at hrecent
  exact hrecent hterminal

/-- A step from a closed case leaves it closed, or is a poll of a recent document without a skip
reason, of a case that was not released. -/
theorem Step.closed {step : Step} {w : World} (env : Env) (h : Sealed w.state) (hs : step.Sealing w)
    (hclosed : w.state.case.status = .closed) :
    (step.apply env w).state.case.core = w.state.case.core ∨
      ∃ document now, step = .operation (.upsert document now) ∧ document.recent = true ∧
        document.skipReason = none ∧ w.state.case.released = false := by
  refine Step.apply_of (P := fun s => s.case.core = w.state.case.core ∨
    ∃ document now, step = .operation (.upsert document now) ∧ document.recent = true ∧
      document.skipReason = none ∧ w.state.case.released = false) (.inl rfl) ?_
    (fun _ _ _ => .inl rfl) ?_ (fun _ _ _ => .inl rfl)
  · rintro operation rfl
    by_cases hpoll : ∃ document at', operation = .upsert document at'
    · obtain ⟨document, at', rfl⟩ := hpoll
      rcases upsert_closed env hclosed document at' with hquiet | hreopens
      · exact .inl hquiet.core
      · exact .inr ⟨document, at', rfl, hreopens⟩
    · refine .inl (quiet_of_closed env h hclosed ?_).core
      intro document at' he
      exact hpoll ⟨document, at', he⟩
  · rintro id result now rfl hrunning
    exact absurd hclosed (hs hrunning).1

/-! ## Runs -/

/-- The case is closed exactly when it has both marks, and a closed case has no live task. -/
structure ClosedIsClosed (s : State) : Prop where
  marked : s.case.status = .closed ↔
    s.case.closedAt.isSome = true ∧ s.case.closedReason.isSome = true
  idle : s.case.status = .closed → s.Idle

theorem Sealed.closedIsClosed {s : State} (h : Sealed s) : ClosedIsClosed s where
  marked := by
    constructor
    · intro hclosed
      exact ⟨(h.closed hclosed).1, (h.closed hclosed).2.1⟩
    · intro hmarked
      by_contra hopen
      rw [(h.unmarked hopen).1] at hmarked
      cases hmarked.1
  idle := h.idle

theorem sealed_firstPoll (env : Env) (id : String) (document : Document) (now : Time) :
    Sealed (firstPoll env id document now) := by
  refine Sealed.enqueueRoleAgent env now ⟨?_, fun hclosed => ?_, fun _ => ⟨rfl, rfl⟩⟩
  · intro id' task htask
    cases htask
  · cases hclosed

section
variable (env : Env)

theorem sealed_run {w : World} (hw : Sealed w.state) {steps : List Step}
    (h : GuardedRun env Step.Sealing steps w) : Sealed (w.run env steps).state :=
  h.invariant (P := fun w => Sealed w.state) (fun _ _ hs hstep => Step.sealed env hs hstep) hw

theorem released_run {w : World} (hw : Sealed w.state) (hreleased : w.state.case.released = true)
    {steps : List Step} (h : GuardedRun env Step.Sealing steps w) :
    (w.run env steps).state.case.released = true := by
  refine (h.invariant (P := fun w => Sealed w.state ∧ w.state.case.released = true) ?_
    ⟨hw, hreleased⟩).2
  rintro step w ⟨hsealed, hreleased⟩ hstep
  refine ⟨Step.sealed env hsealed hstep, ?_⟩
  rcases Step.closed env hsealed hstep ((released_iff _).mp hreleased).1 with hcore | hreopens
  · rw [released_iff] at hreleased ⊢
    exact ⟨(congrArg Core.status hcore).trans hreleased.1,
      (congrArg Core.closedReason hcore).trans hreleased.2⟩
  · obtain ⟨_, _, _, _, _, hnot⟩ := hreopens
    rw [hreleased] at hnot
    cases hnot

/-- In a run without late results and without results of quality control that ask for `closed`, closed
is closed: the marks and the tasks say so in every state, only a poll of a recent document without a
skip reason takes a case out of the archive, and a released case stays there. -/
theorem closedForGood_run (id : String) (document : Document) (now : Time) (steps : List Step)
    (h : GuardedRun env Step.Sealing steps (World.first env id document now)) :
    let w := (World.first env id document now).run env steps
    ClosedIsClosed w.state ∧
      (∀ step : Step, step.Sealing w → w.state.case.status = .closed →
        (step.apply env w).state.case.status ≠ .closed →
          ∃ document now, step = .operation (.upsert document now) ∧ document.recent = true ∧
            document.skipReason = none) ∧
      (w.state.case.released = true → ∀ later, GuardedRun env Step.Sealing later w →
        (w.run env later).state.case.released = true) := by
  intro w
  have hsealed : Sealed w.state := sealed_run env (sealed_firstPoll env id document now) h
  refine ⟨hsealed.closedIsClosed, fun step hstep hclosed hopen => ?_, fun hreleased later hlater =>
    released_run env hsealed hreleased hlater⟩
  rcases Step.closed env hsealed hstep hclosed with hcore | ⟨document, now, hstep, hrecent, hskip, -⟩
  · exact absurd ((congrArg Core.status hcore).trans hclosed) hopen
  · exact ⟨document, now, hstep, hrecent, hskip⟩

end

/-- The document goes, and comes again. -/
def goneAndBack : List Step := [documentGone, .operation (.upsert plainDocument "t")]

theorem closedForGood_goneAndBack :
    let w := plainWorld.run plainEnv goneAndBack
    ClosedIsClosed w.state ∧
      (∀ step : Step, step.Sealing w → w.state.case.status = .closed →
        (step.apply plainEnv w).state.case.status ≠ .closed →
          ∃ document now, step = .operation (.upsert document now) ∧ document.recent = true ∧
            document.skipReason = none) ∧
      (w.state.case.released = true → ∀ later, GuardedRun plainEnv Step.Sealing later w →
        (w.run plainEnv later).state.case.released = true) :=
  closedForGood_run plainEnv "case" plainDocument "t" goneAndBack ⟨trivial, trivial, trivial⟩

/-- The case is archived while its agent runs, and the result takes it out of the archive. -/
def resultAfterArchive : List Step := [.start 0, documentGone, .finish 0 waitsForPerson "t"]

/-- The case that a late result took out of the archive still has the marks of the archive. -/
theorem closedIsClosed_resultAfterArchive_fails :
    ¬ ClosedIsClosed (plainWorld.run plainEnv resultAfterArchive).state := by
  intro h
  have hstatus : (plainWorld.run plainEnv resultAfterArchive).state.case.status =
      .agentWaiting := by
    decide +kernel
  have hmarked : (plainWorld.run plainEnv resultAfterArchive).state.case.closedAt.isSome = true ∧
      (plainWorld.run plainEnv resultAfterArchive).state.case.closedReason.isSome = true := by
    decide +kernel
  have hclosed := h.marked.mpr hmarked
  rw [hstatus] at hclosed
  cases hclosed

end AgentBack.Orchestrator
