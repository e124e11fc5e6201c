import AgentBack.Laws.Orchestrator.Closed

/-!
# The history of a case

`replay` reads a history from a status on; it stops at an event that does not follow on the one
before. A faithful history replays to the status of the case (`Faithful`). Each operation adds events
that replay from the status before it to the status after it (`Recorded`), unless the key of its
event is in the history already, or it changes the status without an event of its own: `Legible` says
when neither is the case, and `faithful_run` is about the runs of such steps.
-/

namespace AgentBack.Orchestrator

/-! ## Replay -/

def follow (status : Option CaseStatus) (event : Event) : Option (Option CaseStatus) :=
  if event.previousStatus = status then some (some event.newStatus) else none

/-- The status after events that follow on each other. -/
def replay (status : Option CaseStatus) (events : List Event) : Option (Option CaseStatus) :=
  events.foldlM follow status

theorem replay_append (status : Option CaseStatus) (events events' : List Event) :
    replay status (events ++ events') =
      (replay status events).bind fun status' => replay status' events' :=
  List.foldlM_append

theorem replay_append_of_some {status status' : Option CaseStatus} {events : List Event}
    (h : replay status events = some status') (events' : List Event) :
    replay status (events ++ events') = replay status' events' := by
  rw [replay_append, h]
  rfl

theorem replay_singleton (previous next : CaseStatus) (eventType key : String) :
    replay (some previous) [⟨eventType, key, some previous, next⟩] = some (some next) := by
  simp [replay, follow]

/-- Replaying the history gives the status of the case. -/
def Faithful (s : State) : Prop := replay none s.events = some (some s.case.status)

/-- The events between two states say what happened to the status: nothing. -/
structure Noted (s s' : State) : Prop where
  status : s'.case.status = s.case.status
  events : ∃ new, s'.events = s.events ++ new ∧
    replay (some s.case.status) new = some (some s.case.status)

/-- The events between two states say what happened to the status: they follow on each other from the
status before to the status after, and a change has its own event. -/
def Recorded (s s' : State) : Prop :=
  ∃ new, s'.events = s.events ++ new ∧
    replay (some s.case.status) new = some (some s'.case.status) ∧
    (s'.case.status ≠ s.case.status → ∃ event ∈ new,
      event.previousStatus = some s.case.status ∧ event.newStatus = s'.case.status)

theorem Noted.refl (s : State) : Noted s s := ⟨rfl, [], (List.append_nil _).symm, rfl⟩

theorem Noted.trans {s s' s'' : State} (h : Noted s s') (h' : Noted s' s'') : Noted s s'' := by
  obtain ⟨hstatus, new, hnew, hreplay⟩ := h
  obtain ⟨hstatus', new', hnew', hreplay'⟩ := h'
  refine ⟨hstatus'.trans hstatus, new ++ new', ?_, ?_⟩
  · rw [hnew', hnew, List.append_assoc]
  · rw [replay_append_of_some hreplay, ← hstatus]
    exact hreplay'

theorem Noted.recorded {s s' : State} (h : Noted s s') : Recorded s s' := by
  obtain ⟨hstatus, new, hnew, hreplay⟩ := h
  exact ⟨new, hnew, by rw [hstatus]; exact hreplay, fun hchanged => absurd hstatus hchanged⟩

theorem Noted.trans_recorded {s s' s'' : State} (h : Noted s s') (h' : Recorded s' s'') :
    Recorded s s'' := by
  obtain ⟨hstatus, new, hnew, hreplay⟩ := h
  obtain ⟨new', hnew', hreplay', hown⟩ := h'
  rw [hstatus] at hreplay' hown
  refine ⟨new ++ new', ?_, ?_, fun hchanged => ?_⟩
  · rw [hnew', hnew, List.append_assoc]
  · rw [replay_append_of_some hreplay]
    exact hreplay'
  · obtain ⟨event, hevent, hboth⟩ := hown hchanged
    exact ⟨event, List.mem_append_right _ hevent, hboth⟩

theorem Recorded.trans_noted {s s' s'' : State} (h : Recorded s s') (h' : Noted s' s'') :
    Recorded s s'' := by
  obtain ⟨new, hnew, hreplay, hown⟩ := h
  obtain ⟨hstatus, new', hnew', hreplay'⟩ := h'
  unfold Recorded
  rw [hstatus]
  refine ⟨new ++ new', ?_, ?_, fun hchanged => ?_⟩
  · rw [hnew', hnew, List.append_assoc]
  · rw [replay_append_of_some hreplay]
    exact hreplay'
  · obtain ⟨event, hevent, hboth⟩ := hown hchanged
    exact ⟨event, List.mem_append_left _ hevent, hboth⟩

theorem Recorded.faithful {s s' : State} (h : Recorded s s') (hs : Faithful s) : Faithful s' := by
  obtain ⟨new, hnew, hreplay, -⟩ := h
  unfold Faithful at hs ⊢
  rw [hnew, replay_append_of_some hs]
  exact hreplay

/-- A change that is about neither the status nor the history. -/
theorem noted_of_same {s s' : State} (hstatus : s'.case.status = s.case.status)
    (hevents : s'.events = s.events) : Noted s s' :=
  ⟨hstatus, [], by rw [hevents, List.append_nil], rfl⟩

/-! ## Events -/

def State.hasKey (key : String) (s : State) : Bool :=
  s.events.any fun event => event.idempotencyKey == key

theorem noted_noteEvent (eventType key : String) (s : State) :
    Noted s (s.noteEvent eventType key) := by
  refine ⟨by rw [case_noteEvent], ?_⟩
  unfold State.noteEvent State.appendEvent
  split
  · exact ⟨[], (List.append_nil _).symm, rfl⟩
  · exact ⟨[_], rfl, replay_singleton _ _ _ _⟩

/-- A change of the status with an event of its own, whose key is fresh. -/
theorem recorded_appendEvent {s s' : State} (hevents : s'.events = s.events)
    (eventType : String) {key : String}
    (hkey : s.hasKey key = true → s'.case.status = s.case.status) :
    Recorded s (s'.appendEvent eventType key (some s.case.status) s'.case.status) := by
  unfold Recorded
  rw [case_appendEvent]
  unfold State.appendEvent
  rw [hevents]
  split
  · next hold =>
    have hsame := hkey hold
    refine ⟨[], by rw [hevents, List.append_nil], by rw [hsame]; rfl, fun hchanged => ?_⟩
    exact absurd hsame hchanged
  · refine ⟨[⟨eventType, key, some s.case.status, s'.case.status⟩], rfl, replay_singleton _ _ _ _,
      fun _ => ⟨_, List.mem_singleton_self _, rfl, rfl⟩⟩

theorem noted_noteSome (eventType : String) (key : Option String) (s : State) :
    Noted s (s.noteSome eventType key) := by
  unfold State.noteSome
  split
  · exact noted_noteEvent _ _ s
  · exact .refl s

theorem noted_noteCoverage (spec : Option Desk) (previous : Option Coverage.CoverageStatus)
    (evidence : CoverageEvidence) (s : State) : Noted s (noteCoverage spec previous evidence s) := by
  unfold noteCoverage
  dsimp only
  split
  · refine .trans (.trans (.trans (.trans ?_ (noted_noteSome _ _ _)) (noted_noteEvent _ _ _))
      (noted_noteSome _ _ _)) (noted_noteSome _ _ _)
    exact noted_noteSome _ _ s
  · refine .trans (.trans (.trans ?_ (noted_noteSome _ _ _)) (noted_noteEvent _ _ _))
      (noted_noteSome _ _ _)
    exact noted_noteSome _ _ s

theorem events_openWorkspace (agentId : AgentId) (now : Time) (s : State) :
    (openWorkspace agentId now s).events = s.events := by
  unfold openWorkspace
  split
  · rfl
  split
  · rfl
  split
  · rfl
  split
  · rfl
  · rfl

theorem events_releaseCurrent (completionKey : String) (s : State) :
    (releaseCurrent completionKey s).events = s.events := by
  unfold releaseCurrent
  split
  · rfl
  · next id _ =>
    cases s.task? id with
    | none => rfl
    | some task =>
      dsimp only
      split <;> rfl

section
variable (env : Env) (now : Time) (s : State)

theorem noted_startTask (agentId : AgentId) (completionKey : String) :
    Noted s (startTask agentId completionKey now s) := by
  unfold startTask
  dsimp only
  refine Noted.trans ?_ (noted_noteEvent _ _ _)
  exact noted_of_same (congrArg Core.status (quiet_openWorkspace agentId now _).core)
    (events_openWorkspace agentId now _)

theorem noted_enqueueRoleAgent : Noted s (enqueueRoleAgent env now s) := by
  rcases enqueueRoleAgent_cases env now s with hsame | ⟨-, -, -, hstart⟩
  · rw [hsame]
    exact .refl s
  · rw [hstart]
    refine Noted.trans ?_ (noted_startTask now _ _ _)
    generalize roleCompletionKey s.case (nextAgentId env s.case) = key
    refine noted_of_same ?_ (events_releaseCurrent key s)
    rw [case_releaseCurrent]

/-! ## Operations that leave the status alone -/

theorem noted_withCase {f : Case → Case} (hf : (f s.case).status = s.case.status) :
    Noted s (s.withCase f) :=
  noted_of_same hf rfl

variable (evidence : JournalEvidence) (desk : Desk)

theorem noted_takenFromEngineer : Noted s (takenFromEngineer s) := by
  have hreleased : Noted s (releaseEngineerTask s) := by
    unfold releaseEngineerTask
    split
    · split
      · split
        · exact noted_of_same rfl rfl
        · exact noted_of_same rfl rfl
      · exact .refl s
    · exact .refl s
  exact hreleased.trans (noted_of_same rfl rfl)

theorem noted_givePurchaseManager : Noted s (givePurchaseManager s) := by
  unfold givePurchaseManager
  split
  · exact .refl s
  · exact noted_of_same rfl rfl

theorem passing_noted : Passing env now Noted where
  refl := .refl
  trans := .trans
  enqueue := noted_enqueueRoleAgent env now
  dispatch _ _ := noted_of_same rfl rfl
  lost _ _ := noted_of_same rfl rfl
  taken := noted_takenFromEngineer
  note _ _ _ := noted_noteEvent _ _ _
  assigned _ := noted_of_same rfl rfl
  given := noted_givePurchaseManager
  cancelled _ _ := noted_of_same rfl rfl

theorem noted_acknowledgeCritical (user : String) :
    Noted s (acknowledgeCritical desk user now s).1 := by
  unfold acknowledgeCritical
  dsimp only
  split
  · exact .refl s
  split
  · exact .refl s
  · exact (noted_of_same (by rfl) (by rfl)).trans (noted_noteEvent _ _ _)

/-! ## Polls -/

variable (document : Document)

/-- The poll takes the case up again. -/
def reactivates (c : Case) : Bool :=
  (document.recent || !c.status.terminal) && !document.skipReason.isSome && !c.released &&
    !c.unchanged document && (c.status.terminal || c.status == .humanRequired)

/-- The key of the event of a change of the status by a poll is fresh. -/
def legibleUpsert (s : State) : Prop :=
  (document.skipReason.isSome = true → s.case.status.terminal = false →
    s.hasKey (document.pollIdempotencyKey ++ ":closed") = false) ∧
  (reactivates document s.case = true →
    s.hasKey (document.pollIdempotencyKey ++ ":reactivated") = false)

theorem events_cancelCurrentTask : s.cancelCurrentTask.events = s.events := by
  unfold State.cancelCurrentTask
  split
  · rfl
  · next id _ =>
    cases s.task? id with
    | none => rfl
    | some task =>
      dsimp only
      split <;> rfl

theorem recorded_archiveCase (closedReason eventType : String) {key : String} (mark : SourceMark)
    (hkey : s.case.status.terminal = false → s.hasKey key = false) :
    Recorded s (archiveCase env closedReason eventType key mark now s) := by
  unfold archiveCase
  split
  · exact (Noted.refl s).recorded
  next hopen =>
  dsimp only
  generalize hclosing : State.withCase _ s = closing
  have hstatus : closing.cancelCurrentTask.case.status = .closed := by
    rw [(case_cancelCurrentTask closing).1, ← hclosing]
    rfl
  have hevents : closing.cancelCurrentTask.events = s.events := by
    rw [events_cancelCurrentTask, ← hclosing]
    rfl
  rw [← hstatus]
  refine recorded_appendEvent hevents eventType fun hold => ?_
  rw [hkey (Bool.eq_false_iff.mpr hopen)] at hold
  cases hold

theorem recorded_reactivateCase
    (hkey : s.hasKey (document.pollIdempotencyKey ++ ":reactivated") = false) :
    Recorded s (reactivateCase env document s) := by
  unfold reactivateCase
  generalize hopened : State.withCase _ s = opened
  have hstatus : opened.case.status = .new := by rw [← hopened]; rfl
  have hevents : opened.events = s.events := by rw [← hopened]; rfl
  rw [← hstatus]
  refine recorded_appendEvent hevents _ fun hold => ?_
  rw [hkey] at hold
  cases hold

theorem hasKey_noteEvent {key key' : String} (hkey : key' ≠ key) (eventType : String) :
    (s.noteEvent eventType key').hasKey key = s.hasKey key := by
  unfold State.noteEvent State.appendEvent State.hasKey
  split
  · rfl
  · dsimp only
    rw [List.any_append, List.any_cons, List.any_nil, Bool.or_false, beq_eq_false_iff_ne.mpr hkey,
      Bool.or_false]

theorem append_ne {key suffix suffix' : String} (h : suffix ≠ suffix') :
    key ++ suffix ≠ key ++ suffix' := by
  intro he
  have hlist := congrArg String.toList he
  rw [String.toList_append, String.toList_append] at hlist
  exact h (String.toList_inj.mp (List.append_cancel_left hlist))

theorem recorded_documentChanged
    (hkey : s.case.status.terminal = true ∨ s.case.status = .humanRequired →
      s.hasKey (document.pollIdempotencyKey ++ ":reactivated") = false) :
    Recorded s (documentChanged env document s) := by
  have hcard : Noted s ((s.withCase (updateCaseCard document)).noteEvent "source_document_changed"
      (document.pollIdempotencyKey ++ ":changed")) :=
    (noted_withCase s (f := updateCaseCard document) rfl).trans (noted_noteEvent _ _ _)
  unfold documentChanged
  dsimp only
  split
  · next hagain =>
    refine hcard.trans_recorded (recorded_reactivateCase env _ document ?_)
    rw [hasKey_noteEvent _ (append_ne (by decide))]
    rw [case_noteEvent, Bool.or_eq_true, beq_iff_eq] at hagain
    exact hkey hagain
  · exact hcard.recorded

theorem recorded_upsertCaseFromDocument (h : legibleUpsert document s) :
    Recorded s (upsertCaseFromDocument env document now s) := by
  have hsynced : Noted s (s.withCase fun c => { c with sourceSyncedAt := some now }) :=
    noted_of_same rfl rfl
  unfold upsertCaseFromDocument
  dsimp only
  split
  · exact hsynced.recorded
  next hrecent =>
  split
  · next hskip =>
    refine hsynced.trans_recorded (recorded_archiveCase env now _ _ _ _ fun hopen => ?_)
    exact h.1 hskip hopen
  next hskip =>
  split
  · exact hsynced.recorded
  next hreleased =>
  split
  · exact (hsynced.trans ((noted_of_same (by rfl) (by rfl)).trans
      (noted_enqueueRoleAgent env now _))).recorded
  next hchanged =>
  refine (hsynced.trans_recorded ?_).trans_noted (noted_enqueueRoleAgent env now _)
  refine recorded_documentChanged env _ document fun hagain => ?_
  apply h.2
  unfold reactivates
  change ¬ (!document.recent && s.case.status.terminal) = true at hrecent
  change ¬ s.case.released = true at hreleased
  change ¬ s.case.unchanged document = true at hchanged
  change s.case.status.terminal = true ∨ s.case.status = .humanRequired at hagain
  have hfresh : (document.recent || !s.case.status.terminal) = true := by
    cases hr : document.recent
    · rw [hr, Bool.not_false, Bool.true_and] at hrecent
      rw [Bool.eq_false_iff.mpr hrecent]
      rfl
    · rfl
  have hends : (s.case.status.terminal || s.case.status == .humanRequired) = true := by
    rw [Bool.or_eq_true, beq_iff_eq]
    exact hagain
  rw [hfresh, hends, Bool.eq_false_iff.mpr hskip, Bool.eq_false_iff.mpr hreleased,
    Bool.eq_false_iff.mpr hchanged]
  rfl

/-- The key of the event of an archive from outside is fresh. -/
def legibleCloseOutside (reason : InactiveReason) (s : State) : Prop :=
  s.case.status.monitored = true →
    s.hasKey (cutKey ("archive:" ++ s.case.contentHash ++ ":" ++ reason.closedReason)) = false

theorem recorded_closeOutsideActiveRefs (reason : InactiveReason)
    (h : legibleCloseOutside reason s) :
    Recorded s (closeOutsideActiveRefs env reason now s) := by
  have hsynced : Noted s (s.withCase fun c => { c with sourceSyncedAt := some now }) :=
    noted_of_same rfl rfl
  unfold closeOutsideActiveRefs
  split
  · next hmonitored =>
    exact hsynced.trans_recorded (recorded_archiveCase env now _ _ _ _ fun _ => h hmonitored)
  · exact (Noted.refl s).recorded

/-! ## Reconciliation -/

/-- A coverage does not change the status of the case. -/
def legibleSupplier (evidence : Option CoverageEvidence) (s : State) : Prop :=
  supplierEligible s.case = true → ∀ known, evidence = some known →
    ∀ desk, availabilitySpecForCase env s.case = some desk →
      (known.status = .full → s.case.status = .ordered) ∧
      (known.status ≠ .full → s.case.metadata.coverageStatus = some .full →
        s.case.status = .agentWaiting)

theorem noted_cancelCoveredTask : Noted s s.cancelCoveredTask := by
  unfold State.cancelCoveredTask
  split
  · exact .refl s
  · next id _ =>
    cases s.task? id with
    | none => exact noted_of_same rfl rfl
    | some task =>
      dsimp only
      split
      · exact noted_of_same rfl rfl
      · exact noted_of_same rfl rfl

theorem noted_routeUnderCoverage (previous : Option Coverage.CoverageStatus)
    (status : Coverage.CoverageStatus) (hfull : status = .full → s.case.status = .ordered)
    (hback : status ≠ .full → previous = some .full → s.case.status = .agentWaiting) :
    Noted s (routeUnderCoverage desk previous status now s) := by
  unfold routeUnderCoverage
  split
  · next hf =>
    unfold routeCovered
    dsimp only
    generalize hcovered : State.withCase _ (s.withDesk desk _) = covered
    have hordered : Noted s covered := by
      rw [← hcovered]
      exact noted_of_same (hfull hf).symm rfl
    split
    · exact hordered.trans ((noted_cancelCoveredTask covered).trans
        (noted_withCase _ (by rfl)))
    · exact hordered.trans (noted_withCase _ (by rfl))
  next hf =>
  split
  · next hprevious => exact noted_of_same (hback hf hprevious).symm rfl
  split
  · exact noted_of_same rfl rfl
  · exact .refl s

theorem noted_repairPrematureWarehouseArchive :
    Noted s (repairPrematureWarehouseArchive env s) := by
  unfold repairPrematureWarehouseArchive
  split
  · exact .refl s
  · dsimp only
    split
    · exact .refl s
    · exact noted_of_same rfl rfl

theorem noted_applySupplierCoverage (evidence : CoverageEvidence)
    (h : ∀ desk, availabilitySpecForCase env s.case = some desk →
      (evidence.status = .full → s.case.status = .ordered) ∧
      (evidence.status ≠ .full → s.case.metadata.coverageStatus = some .full →
        s.case.status = .agentWaiting)) :
    Noted s (applySupplierCoverage env evidence now s) := by
  have hrecorded : Noted s (s.withCase (recordCoverage evidence now)) := noted_of_same rfl rfl
  have hspec : availabilitySpecForCase env (s.withCase (recordCoverage evidence now)).case =
      availabilitySpecForCase env s.case := rfl
  unfold applySupplierCoverage
  dsimp only
  rw [hspec]
  generalize hprevious : s.case.metadata.coverageStatus = previous at h
  cases hdesk : availabilitySpecForCase env s.case with
  | none =>
    dsimp only
    split
    · exact hrecorded
    · exact hrecorded.trans (noted_noteCoverage _ _ _ _)
  | some desk =>
    dsimp only
    have hrouted : Noted s (routeUnderCoverage desk previous evidence.status now
        (if covers evidence.status then (s.withCase (recordCoverage evidence now)).withDesk desk
          (outputUnderCoverage evidence.status)
        else s.withCase (recordCoverage evidence now))) := by
      split
      · exact hrecorded.trans ((noted_of_same (by rfl) (by rfl)).trans
          (noted_routeUnderCoverage now _ desk previous evidence.status (h desk hdesk).1
            (h desk hdesk).2))
      · exact hrecorded.trans (noted_routeUnderCoverage now _ desk previous evidence.status
          (h desk hdesk).1 (h desk hdesk).2)
    split
    · exact hrouted
    · exact hrouted.trans (noted_noteCoverage _ _ _ _)

theorem noted_reconcileSupplierOrders (evidence : Option CoverageEvidence)
    (h : legibleSupplier env evidence s) :
    Noted s (reconcileSupplierOrders env evidence now s) := by
  unfold reconcileSupplierOrders
  split
  · exact .refl s
  next heligible =>
  rw [Bool.not_eq_true', Bool.not_eq_false] at heligible
  split
  · exact noted_repairPrematureWarehouseArchive env s
  · next known =>
    have happlied := noted_applySupplierCoverage env now s known (h heligible known rfl)
    dsimp only
    split
    · exact happlied
    · exact happlied.trans (noted_repairPrematureWarehouseArchive env _)

/-- The journal does not change the status of the case. -/
def legibleJournal (evidence : JournalEvidence) (s : State) : Prop :=
  journalEligible s.case = true →
    match journalStatus (journalRows evidence s.case), s.case.metadata.otkStartedAt with
    | .partly, none => starts env (toQuality s) = true → s.case.status = .qualityAssigned
    | .full, none => s.case.status = .qualityAssigned
    | .full, some _ => s.case.metadata.otkHandedOffAt = none → s.case.status = .qualityAssigned
    | .uncovered, _ | .partly, some _ => True

theorem noted_startOtk (status : TmcStatus)
    (hpartly : status = .partly → starts env (toQuality s) = true → s.case.status = .qualityAssigned)
    (hfull : status ≠ .partly → s.case.status = .qualityAssigned) :
    Noted s (startOtk env status now s) := by
  unfold startOtk
  dsimp only
  change Noted s (if status = .partly then
    (enqueueRoleAgent env now (toQuality s)).withCase _ else enqueueRoleAgent env now (toQuality s))
  have hmoved : s.case.status = .qualityAssigned →
      Noted s (enqueueRoleAgent env now (toQuality s)) := fun hstatus =>
    (noted_withCase s hstatus.symm).trans (noted_enqueueRoleAgent env now _)
  split
  · next hp =>
    cases hstarts : starts env (toQuality s) with
    | true =>
      refine (hmoved (hpartly hp hstarts)).trans (noted_withCase _ ?_)
      exact (hmoved (hpartly hp hstarts)).status.symm
    | false =>
      rw [enqueueRoleAgent_of_not_starts env now hstarts]
      exact noted_of_same rfl rfl
  · next hp => exact hmoved (hfull hp)

theorem noted_moveToOtk (h : s.case.status = .qualityAssigned) : Noted s (moveToOtk now s) := by
  have hevents : s.cancelPresentedTask.events = s.events := by
    unfold State.cancelPresentedTask
    split
    · rfl
    · split
      · split <;> rfl
      · rfl
  unfold moveToOtk
  dsimp only
  refine Noted.trans ?_ (noted_noteEvent _ _ _)
  split
  · exact noted_of_same h.symm hevents
  · exact noted_of_same h.symm rfl

theorem noted_archiveWarehouseWorkspace (w : JournalWork) :
    Noted w.state (archiveWarehouseWorkspace evidence now w).1.state := by
  unfold archiveWarehouseWorkspace
  split
  · exact .refl _
  · dsimp only
    split
    · exact .refl _
    · exact noted_noteEvent _ _ _

theorem noted_settleAvailability (w : JournalWork) :
    Noted w.state (settleAvailability evidence now w).state := by
  unfold settleAvailability
  split
  · exact .refl _
  · exact noted_archiveWarehouseWorkspace now evidence w

theorem noted_handOffToOtk (justStarted : Bool) (w : JournalWork)
    (h : w.state.case.status = .qualityAssigned) :
    Noted w.state (handOffToOtk env evidence justStarted now w).state := by
  have hsettled := noted_settleAvailability now evidence (archiveManager now w)
  have hmoved := hsettled.trans (noted_moveToOtk now _ (hsettled.status.trans h))
  unfold handOffToOtk
  dsimp only
  split
  · exact hmoved
  · exact hmoved.trans (noted_enqueueRoleAgent env now _)

theorem noted_presentToOtk {w : JournalWork} (hw : Copied s w)
    (heligible : journalEligible s.case = true) (h : legibleJournal env evidence s)
    {status : TmcStatus} (hrows : journalStatus (journalRows evidence s.case) = status)
    (hstatus : status ≠ .uncovered) (changed : Bool) :
    Noted s (presentToOtk env evidence status now changed w).1.state := by
  have hlegible := h heligible
  rw [hrows] at hlegible
  have hassigned : Noted s (assignOtk env status now w).state := by
    unfold assignOtk
    dsimp only
    rw [hw.started, hw.state]
    cases hstarted : s.case.metadata.otkStartedAt with
    | some at' => exact .refl s
    | none =>
      rw [hstarted] at hlegible
      dsimp only [Option.isSome_none]
      rw [if_neg (by decide)]
      generalize hnote : s.noteEvent "otk_agent_assigned" _ = noted
      have hcase : noted.case = s.case := by rw [← hnote, case_noteEvent]
      have htasks : noted.tasks = s.tasks := by rw [← hnote, tasks_noteEvent]
      have hnoted : Noted s noted := hnote ▸ noted_noteEvent _ _ s
      have hquality : (toQuality noted).case = (toQuality s).case := by
        unfold toQuality
        rw [case_withCase, case_withCase, hcase]
      refine hnoted.trans (noted_startOtk env now noted status ?_ ?_)
      · rintro rfl hstarts
        rw [hcase]
        exact hlegible ((starts_congr hquality htasks env).symm.trans hstarts)
      · intro hp
        rw [hcase]
        cases status with
        | uncovered => exact absurd rfl hstatus
        | partly => exact absurd rfl hp
        | full => exact hlegible
  unfold presentToOtk
  dsimp only
  split
  · next hfull =>
    obtain ⟨rfl, hhanded⟩ := hfull
    refine hassigned.trans (noted_handOffToOtk env now evidence _ _ ?_)
    rw [hassigned.status]
    change w.metadata.otkHandedOffAt.isSome = false at hhanded
    rw [hw.handedOff] at hhanded
    cases hstarted : s.case.metadata.otkStartedAt with
    | none =>
      rw [hstarted] at hlegible
      exact hlegible
    | some at' =>
      rw [hstarted] at hlegible
      exact hlegible (Option.not_isSome_iff_eq_none.mp (by rw [hhanded]; decide))
  split
  · exact hassigned.trans (noted_archiveWarehouseWorkspace now evidence _)
  split
  · refine hassigned.trans ?_
    unfold showQuality
    split
    · exact noted_of_same rfl rfl
    · exact .refl _
  · exact hassigned

theorem noted_reconcilePresentations (h : legibleJournal env evidence s) :
    Noted s (reconcilePresentations env evidence now s) := by
  unfold reconcilePresentations
  split
  · next heligible =>
    unfold applyJournal
    split
    · exact .refl s
    dsimp only
    refine Noted.trans ?_ (noted_noteSome _ _ _)
    unfold writeBack
    refine Noted.trans ?_ (noted_withCase _ (by rfl))
    unfold workJournal
    dsimp only
    split
    · exact .refl s
    · next hstatus =>
      exact noted_presentToOtk env now s evidence ⟨rfl, rfl, rfl⟩ heligible h rfl hstatus _
  · exact .refl s

/-! ## Results -/

def statusAfter (agentId : AgentId) (result : RoleResult) : CaseStatus :=
  match result.roleStatus with
  | .waitingHuman => (qualityStatus agentId result).getD .agentWaiting
  | .waitingExternal => if agentId = purchaseManager then .ordered else .agentWaiting
  | .completed => completedStatus agentId result
  | .failed => .blocked

/-- The result hands the case to the next role. -/
def handsOff (agentId : AgentId) (result : RoleResult) : Bool :=
  result.roleStatus == .completed &&
    (agentId == productionPreparationEngineer || (warehouseAvailabilitySpec agentId).isSome)

def withAgentOf (result : RoleResult) (s : State) : RoleResult :=
  { result with agentId := result.agentId.orElse fun _ => s.case.currentAgentId }

/-- A result that changes the status is not handed off, and the key of its event is fresh. -/
def legibleResult (id : TaskId) (result : RoleResult) (s : State) : Prop :=
  let result := withAgentOf result s
  let agentId := result.agentId.getD ""
  (handsOff agentId result = true ∨ s.hasKey (resultKey env id result) = true) →
    s.case.status = statusAfter agentId result

theorem noted_handOff (bucket : Bucket) (nextAgent : AgentId)
    (controlPoint eventType key : String) {previous : CaseStatus} (h : previous = s.case.status) :
    Noted s (handOff env desk bucket nextAgent controlPoint eventType key previous now s) := by
  unfold handOff
  dsimp only
  refine Noted.trans ?_ (noted_enqueueRoleAgent env now _)
  generalize hmoved : State.withCase _ (s.withDesk desk _) = moved
  have hnoted : Noted s moved := by
    rw [← hmoved]
    exact noted_of_same rfl rfl
  have hevent := noted_noteEvent eventType key moved
  unfold State.noteEvent at hevent
  rw [h, ← hnoted.status]
  exact hnoted.trans hevent

/-- A result without a hand-off changes the status and adds no event of its own yet. -/
theorem applyRoleStatus_of_not_handsOff (agentId : AgentId) (id : TaskId) (result : RoleResult)
    (h : handsOff agentId result = false) :
    (applyRoleStatus env agentId id result now s).case.status = statusAfter agentId result ∧
      (applyRoleStatus env agentId id result now s).events = s.events := by
  unfold handsOff at h
  unfold applyRoleStatus statusAfter
  cases hrole : result.roleStatus with
  | waitingHuman =>
    unfold applyWaitingHuman
    dsimp only
    split <;> exact ⟨rfl, rfl⟩
  | waitingExternal => exact ⟨rfl, rfl⟩
  | completed =>
    rw [hrole, beq_self_eq_true, Bool.true_and, Bool.or_eq_false_iff] at h
    dsimp only
    rw [applyCompleted_eq]
    unfold handOffAfter
    rw [if_neg (by rw [beq_eq_false_iff_ne] at h; exact h.1)]
    cases hdesk : warehouseAvailabilitySpec agentId with
    | none => exact ⟨(case_completeCase now agentId result _ _).1, rfl⟩
    | some desk =>
      rw [hdesk] at h
      cases h.2
  | failed => exact ⟨rfl, rfl⟩

/-- A hand-off that leaves the status alone. -/
theorem noted_applyRoleStatus (agentId : AgentId) (id : TaskId) (result : RoleResult)
    (hrole : result.roleStatus = .completed)
    (h : s.case.status = statusAfter agentId result) :
    Noted s (applyRoleStatus env agentId id result now s) := by
  unfold statusAfter at h
  rw [hrole] at h
  unfold applyRoleStatus
  rw [hrole]
  dsimp only
  rw [applyCompleted_eq]
  have hdone : Noted s (completedState agentId id result now s) := by
    refine noted_of_same ?_ rfl
    exact (case_completeCase now agentId result _ _).1.trans h.symm
  refine hdone.trans ?_
  unfold handOffAfter
  split
  · exact noted_handOff env now _ _ _ _ _ _ _ hdone.status.symm
  split
  · exact noted_handOff env now _ _ _ _ _ _ _ hdone.status.symm
  · exact .refl _

def resultState (id : TaskId) (result : RoleResult) (sourceData : Revision) : State :=
  let result := withAgentOf result s
  applyRoleStatus env (result.agentId.getD "") id result now
    (recordResult (result.agentId.getD "") id result sourceData s)

theorem applyRoleAgentResult_eq (eventType : String) {id : TaskId} (result : RoleResult) {task : Task}
    (h : s.task? id = some task) :
    applyRoleAgentResult env eventType id result now s =
      (resultState env now s id result task.sourceData).appendEvent eventType
        (resultKey env id (withAgentOf result s)) (some s.case.status)
        (resultState env now s id result task.sourceData).case.status := by
  unfold applyRoleAgentResult
  rw [h]
  rfl

theorem recorded_applyRoleAgentResult (eventType : String) (id : TaskId) (result : RoleResult)
    (h : legibleResult env id result s) :
    Recorded s (applyRoleAgentResult env eventType id result now s) := by
  cases htask : s.task? id with
  | none =>
    unfold applyRoleAgentResult
    rw [htask]
    exact (Noted.refl s).recorded
  | some task =>
    rw [applyRoleAgentResult_eq env now s eventType result htask]
    unfold legibleResult at h
    unfold resultState
    dsimp only at h ⊢
    generalize withAgentOf result s = filled at h ⊢
    generalize filled.agentId.getD "" = agentId at h ⊢
    have hrecorded : Noted s (recordResult agentId id filled task.sourceData s) :=
      noted_of_same rfl rfl
    cases hhands : handsOff agentId filled with
    | false =>
      obtain ⟨hstatus, hevents⟩ := applyRoleStatus_of_not_handsOff env now
        (recordResult agentId id filled task.sourceData s) agentId id filled hhands
      refine recorded_appendEvent (s := s) hevents _ fun hold => ?_
      rw [hstatus]
      exact (h (.inr hold)).symm
    | true =>
      have hrole : filled.roleStatus = .completed := by
        unfold handsOff at hhands
        rw [Bool.and_eq_true, beq_iff_eq] at hhands
        exact hhands.1
      have hsame := h (.inl hhands)
      have happlied := hrecorded.trans (noted_applyRoleStatus env now
        (recordResult agentId id filled task.sourceData s) agentId id filled hrole
        (hrecorded.status.trans hsame))
      generalize applyRoleStatus env agentId id filled now
        (recordResult agentId id filled task.sourceData s) = done at happlied ⊢
      have hevent := noted_noteEvent eventType (resultKey env id filled) done
      unfold State.noteEvent at hevent
      rw [← happlied.status]
      exact (happlied.trans hevent).recorded

def legibleResume (result : RoleResult) (s : State) : Prop :=
  ∀ id task, s.case.currentTaskId = some id → s.currentTask? = some task →
    (task.status.waiting || task.status == .failed) = true → legibleResult env id result s

theorem recorded_resumeCaseAgent (result : RoleResult) (h : legibleResume env result s) :
    Recorded s (resumeCaseAgent env result now s) :=
  resumeCaseAgent_of env result (P := Recorded s) (Noted.refl s).recorded
    fun id task hcurrent htask hstatus =>
      recorded_applyRoleAgentResult env now s _ id result (h id task hcurrent htask hstatus)

def legibleConfirm (k : Confirmation) (user : String) : Prop :=
  ∀ id task, s.case.currentTaskId = some id → s.currentTask? = some task →
    legibleResult env id (confirmedResult k task (s.case.metadata.desk k.desk))
      (confirmedState now s k user id)

theorem recorded_confirm (k : Confirmation) (user : String) (h : legibleConfirm env now s k user) :
    Recorded s (confirm env k user now s).1 := by
  refine confirm_of env (P := Recorded s) (Noted.refl s).recorded ?_
  intro id task hcurrent htask _ _ _
  have hnoted : Noted s (confirmedState now s k user id) :=
    (noted_of_same (by rfl) (by rfl)).trans (noted_noteEvent _ _ _)
  exact hnoted.trans_recorded (recorded_applyRoleAgentResult env now
    (confirmedState now s k user id) "role_agent_resumed" id _ (h id task hcurrent htask))

end

/-- The step changes the status only with an event of its own, whose key is fresh. -/
def Step.Legible (env : Env) : Step → World → Prop
  | .operation (.upsert document _), w => legibleUpsert document w.state
  | .operation (.closeOutside reason _), w => legibleCloseOutside reason w.state
  | .operation (.supplier evidence _), w => legibleSupplier env evidence w.state
  | .operation (.journal evidence _), w => legibleJournal env evidence w.state
  | .operation (.resume result _), w => legibleResume env result w.state
  | .operation (.confirm desk user now), w => ∀ k, confirmationOf desk = some k →
      legibleConfirm env now w.state k user
  | .finish id result _, w => w.workers.any (fun worker => worker.task = id) = true →
      legibleResult env id result w.state
  | _, _ => True

theorem Step.recorded {step : Step} {w : World} (env : Env) (h : step.Legible env w) :
    Recorded w.state (step.apply env w).state := by
  refine Step.apply_of (P := Recorded w.state) (Noted.refl _).recorded ?_
    (fun _ _ _ => (noted_of_same rfl rfl).recorded) ?_ (fun _ _ _ => (noted_of_same rfl rfl).recorded)
  · rintro operation rfl
    cases operation with
    | upsert document now => exact recorded_upsertCaseFromDocument env now w.state document h
    | closeOutside reason now => exact recorded_closeOutsideActiveRefs env now w.state reason h
    | assign now => exact ((passing_noted env now).ensureActiveCaseAssignment w.state).recorded
    | availability desk stale now =>
      exact ((passing_noted env now).ensureWarehouseAvailabilityWork w.state desk stale).recorded
    | migrate now => exact ((passing_noted env now).migrateUndecidedEngineerCase w.state).recorded
    | purchase stale now => exact ((passing_noted env now).ensurePurchaseManagerWork w.state stale).recorded
    | supplier evidence now =>
      exact (noted_reconcileSupplierOrders env now w.state evidence h).recorded
    | journal evidence now =>
      exact (noted_reconcilePresentations env now w.state evidence h).recorded
    | resume result now => exact recorded_resumeCaseAgent env now w.state result h
    | confirm desk user now =>
      unfold Operation.apply
      dsimp only
      split
      · next k hk => exact recorded_confirm env now w.state k user (h k hk)
      · exact (Noted.refl _).recorded
    | acknowledge desk user now => exact (noted_acknowledgeCritical now w.state desk user).recorded
  · rintro id result now rfl hrunning
    exact recorded_applyRoleAgentResult env now w.state _ id result (h hrunning)

theorem faithful_firstPoll (env : Env) (id : String) (document : Document) (now : Time) :
    Faithful (firstPoll env id document now) := by
  refine (noted_enqueueRoleAgent env now _).recorded.faithful ?_
  unfold Faithful createCase
  simp [replay, follow]

/-- In a run of legible steps the history is faithful in every state, and so are the events of the next
step: they follow on from the status before it to the status after it, and a change of the status has
its own event. -/
theorem faithful_run (env : Env) (id : String) (document : Document) (now : Time)
    (steps : List Step)
    (h : GuardedRun env (Step.Legible env) steps (World.first env id document now)) :
    let w := (World.first env id document now).run env steps
    Faithful w.state ∧
      ∀ step : Step, step.Legible env w → Recorded w.state (step.apply env w).state := by
  refine ⟨?_, fun step hstep => Step.recorded env hstep⟩
  exact h.invariant (P := fun w => Faithful w.state)
    (fun _ _ hs hstep => (Step.recorded env hstep).faithful hs)
    (faithful_firstPoll env id document now)

theorem faithful_goneAndBack :
    let w := plainWorld.run plainEnv goneAndBack
    Faithful w.state ∧
      ∀ step : Step, step.Legible plainEnv w → Recorded w.state (step.apply plainEnv w).state := by
  refine faithful_run plainEnv "case" plainDocument "t" goneAndBack ⟨?_, ?_, trivial⟩
  · have hkey : plainWorld.state.hasKey (cutKey ("archive:" ++ plainWorld.state.case.contentHash ++
        ":" ++ "deletion_mark")) = false := by
      decide +kernel
    exact fun _ => hkey
  · have hkey : (documentGone.apply plainEnv plainWorld).state.hasKey
        (plainDocument.pollIdempotencyKey ++ ":reactivated") = false := by
      decide +kernel
    exact ⟨fun hskip => absurd hskip (by decide), fun _ => hkey⟩

/-- The document goes, comes again with the same content, and goes again. -/
def goneTwice : List Step := goneAndBack ++ [documentGone]

/-- The second archive has the key of the first, so the history ends with an open case. -/
theorem faithful_goneTwice_fails : ¬ Faithful (plainWorld.run plainEnv goneTwice).state := by
  unfold Faithful
  decide +kernel

end AgentBack.Orchestrator
