import AgentBack.Laws.Orchestrator.History

/-!
# What a hand-off rests on

The chief of supply and the dispatcher of production get a case from a role whose output they work
with. `Basis` is what the choice of these agents and the worth of that output depend on. The passes
and the reconciliations carry it along: they change nothing of it, and the tasks that they start for
one of these agents are warranted by it (`Carries`).
-/

namespace AgentBack.Orchestrator

/-! ## The basis -/

/-- The agent that a workspace handed the case to, and the revision that its output is about. -/
structure Hand where
  agent : Option AgentId
  computedFor : Option Revision
  deriving DecidableEq

def Workspace.hand (w : Workspace) : Hand :=
  ⟨w.handoffAgentId, w.output.map StoredOutput.computedFor⟩

def handOffAgents : List AgentId := [omtoChief, productionDispatcher]

def handOffPoint (agent : AgentId) : Option String :=
  if agent = omtoChief then some "omto"
  else if agent = productionDispatcher then some "chief_dispatcher"
  else none

def Case.handedBy (desk : Desk) (agent : AgentId) (c : Case) : Prop :=
  desk ≠ .manager ∧ (c.metadata.desk desk).hand.agent = some agent

/-- The change leaves alone what a hand-off rests on; it may take the case away from the control
point of a hand-off. -/
structure SameBasis (c c' : Case) : Prop where
  sourceType : c'.sourceType = c.sourceType
  revision : c'.revision = c.revision
  next : c'.metadata.nextQualityAgent = c.metadata.nextQualityAgent
  hand : ∀ desk, desk ≠ .manager → (c'.metadata.desk desk).hand = (c.metadata.desk desk).hand
  point : ∀ agent point, handOffPoint agent = some point → c'.controlPoint = some point →
    c.controlPoint = some point

theorem SameBasis.refl (c : Case) : SameBasis c c :=
  ⟨rfl, rfl, rfl, fun _ _ => rfl, fun _ _ _ h => h⟩

variable {c c' : Case}

theorem SameBasis.trans {c'' : Case} (h : SameBasis c c') (h' : SameBasis c' c'') :
    SameBasis c c'' where
  sourceType := h'.sourceType.trans h.sourceType
  revision := h'.revision.trans h.revision
  next := h'.next.trans h.next
  hand desk hdesk := (h'.hand desk hdesk).trans (h.hand desk hdesk)
  point agent point hagent hpoint := h.point agent point hagent (h'.point agent point hagent hpoint)

theorem SameBasis.handedBy (h : SameBasis c c') (desk : Desk) (agent : AgentId) :
    c'.handedBy desk agent ↔ c.handedBy desk agent := by
  unfold Case.handedBy
  refine and_congr_right fun hdesk => ?_
  rw [h.hand desk hdesk]

theorem sameBasis_of_point (hsource : c'.sourceType = c.sourceType)
    (hrevision : c'.revision = c.revision) (hmetadata : c'.metadata = c.metadata)
    (hpoint : c'.controlPoint = c.controlPoint) : SameBasis c c' := by
  refine ⟨hsource, hrevision, by rw [hmetadata], fun _ _ => by rw [hmetadata], fun _ _ _ h => ?_⟩
  rw [← hpoint]
  exact h

/-- A change of a workspace that is not about its hand-off. -/
theorem sameBasis_withDesk {desk : Desk} {f : Workspace → Workspace} (c : Case)
    (hf : desk ≠ .manager → (f (c.metadata.desk desk)).hand = (c.metadata.desk desk).hand) :
    SameBasis c { c with metadata := c.metadata.withDesk desk f } where
  sourceType := rfl
  revision := rfl
  next := rfl
  hand desk' hdesk' := by
    unfold Metadata.withDesk
    dsimp only
    split
    · next h =>
      rw [h] at hdesk' ⊢
      exact hf hdesk'
    · rfl
  point _ _ _ h := h

/-- The control point of a case is none that a hand-off sets. -/
theorem sameBasis_withPoint {point : String} (hpoint : ∀ agent, handOffPoint agent ≠ some point) :
    SameBasis c { c with controlPoint := some point } := by
  refine ⟨rfl, rfl, rfl, fun _ _ => rfl, fun agent _ hagent h => ?_⟩
  rw [← Option.some.inj h] at hagent
  exact absurd hagent (hpoint agent)

theorem handOffPoint_ne {point : String} (homto : point ≠ "omto")
    (hdispatcher : point ≠ "chief_dispatcher") (agent : AgentId) :
    handOffPoint agent ≠ some point := by
  unfold handOffPoint
  split
  · exact fun h => homto (Option.some.inj h).symm
  split
  · exact fun h => hdispatcher (Option.some.inj h).symm
  · exact fun h => by cases h

theorem advanceControlPoint_cases (before : List String) (after : String) (point : Option String) :
    advanceControlPoint before after point = some after ∨
      advanceControlPoint before after point = point := by
  unfold advanceControlPoint
  split
  · exact .inl rfl
  · split
    · exact .inl rfl
    · exact .inr rfl

/-- A control point that goes on, but not to one of a hand-off. -/
theorem sameBasis_advance (before : List String) {after : String}
    (hafter : ∀ agent, handOffPoint agent ≠ some after) :
    SameBasis c { c with controlPoint := advanceControlPoint before after c.controlPoint } := by
  refine ⟨rfl, rfl, rfl, fun _ _ => rfl, fun agent point hagent h => ?_⟩
  change advanceControlPoint before after c.controlPoint = some point at h
  rcases advanceControlPoint_cases before after c.controlPoint with hnew | hsame
  · rw [hnew, Option.some.injEq] at h
    rw [← h] at hagent
    exact absurd hagent (hafter agent)
  · rw [hsame] at h
    exact h

/-! ## What starts a task -/

/-- The basis of the case is a reason to give it to the agent. -/
def Warranted (c : Case) (agent : AgentId) : Prop :=
  c.metadata.nextQualityAgent = some agent ∨ (∃ desk, c.handedBy desk agent) ∨
    ∃ point, handOffPoint agent = some point ∧ c.controlPoint = some point

def State.slugs (s : State) : List AgentId := s.tasks.map Task.agentSlug

/-- The step carries the basis along, and starts tasks of an open case only, which the basis
warrants. -/
structure Carries (s s' : State) : Prop where
  terminal : s'.case.status.terminal = s.case.status.terminal
  basis : SameBasis s.case s'.case
  tasks : ∃ new, s'.slugs = s.slugs ++ new ∧ ∀ agent ∈ new, s.case.status.terminal = false ∧
    (s.case.sourceType = .productionMaterialOrder → agent ∈ handOffAgents → Warranted s.case agent)

theorem SameBasis.warranted (h : SameBasis c c') {agent : AgentId}
    (hw : Warranted c' agent) : Warranted c agent := by
  unfold Warranted at hw ⊢
  rw [h.next] at hw
  rcases hw with hnext | ⟨desk, hhanded⟩ | ⟨point, hagent, hpoint⟩
  · exact .inl hnext
  · exact .inr (.inl ⟨desk, (h.handedBy desk agent).mp hhanded⟩)
  · exact .inr (.inr ⟨point, hagent, h.point agent point hagent hpoint⟩)

theorem Carries.refl (s : State) : Carries s s :=
  ⟨rfl, .refl _, [], (List.append_nil _).symm, fun _ h => by cases h⟩

theorem Carries.trans {s s' s'' : State} (h : Carries s s') (h' : Carries s' s'') :
    Carries s s'' := by
  obtain ⟨new, hnew, hreason⟩ := h.tasks
  obtain ⟨new', hnew', hreason'⟩ := h'.tasks
  refine ⟨h'.terminal.trans h.terminal, h.basis.trans h'.basis, new ++ new', ?_, ?_⟩
  · rw [hnew', hnew, List.append_assoc]
  · intro agent hagent
    rcases List.mem_append.mp hagent with hold | hlate
    · exact hreason agent hold
    · obtain ⟨hopen, hwarranted⟩ := hreason' agent hlate
      rw [h.basis.sourceType] at hwarranted
      exact ⟨h.terminal.symm.trans hopen, fun hsource hhand =>
        h.basis.warranted (hwarranted hsource hhand)⟩

theorem carries_of_basis {s s' : State} (hterminal : s'.case.status.terminal = s.case.status.terminal)
    (hbasis : SameBasis s.case s'.case) (hslugs : s'.slugs = s.slugs) : Carries s s' :=
  ⟨hterminal, hbasis, [], by rw [hslugs, List.append_nil], fun _ h => by cases h⟩

theorem slugs_withTask {f : Task → Task} (hf : ∀ task, (f task).agentSlug = task.agentSlug)
    (id : TaskId) (s : State) : (s.withTask id f).slugs = s.slugs := by
  unfold State.withTask State.slugs
  apply List.ext_getElem?
  intro i
  rw [List.getElem?_map, List.getElem?_modify, List.getElem?_map]
  split
  · cases s.tasks[i]? with
    | none => rfl
    | some task => exact congrArg some (hf task)
  · cases s.tasks[i]? <;> rfl

theorem slugs_setTaskStatus (id : TaskId) (status : TaskStatus) (s : State) :
    (s.setTaskStatus id status).slugs = s.slugs :=
  slugs_withTask (f := fun task => { task with status }) (fun _ => rfl) id s

theorem carries_setTaskStatus (id : TaskId) (status : TaskStatus) (s : State) :
    Carries s (s.setTaskStatus id status) :=
  carries_of_basis rfl (.refl _) (slugs_setTaskStatus id status s)

theorem carries_withDesk {desk : Desk} {f : Workspace → Workspace} (s : State)
    (hf : desk ≠ .manager →
      (f (s.case.metadata.desk desk)).hand = (s.case.metadata.desk desk).hand) :
    Carries s (s.withDesk desk f) :=
  carries_of_basis rfl (sameBasis_withDesk s.case hf) rfl

theorem carries_appendEvent (eventType key : String) (previous : Option CaseStatus)
    (next : CaseStatus) (s : State) : Carries s (s.appendEvent eventType key previous next) := by
  refine carries_of_basis ?_ ?_ ?_
  · rw [case_appendEvent]
  · rw [case_appendEvent]
    exact .refl _
  · unfold State.slugs
    rw [tasks_appendEvent]

theorem carries_noteEvent (eventType key : String) (s : State) :
    Carries s (s.noteEvent eventType key) :=
  carries_appendEvent _ _ _ _ s

theorem carries_noteSome (eventType : String) (key : Option String) (s : State) :
    Carries s (s.noteSome eventType key) := by
  unfold State.noteSome
  split
  · exact carries_noteEvent _ _ s
  · exact .refl s

theorem carries_noteCoverage (spec : Option Desk) (previous : Option Coverage.CoverageStatus)
    (evidence : CoverageEvidence) (s : State) :
    Carries s (noteCoverage spec previous evidence s) := by
  unfold noteCoverage
  dsimp only
  split
  · refine .trans (.trans (.trans (.trans ?_ (carries_noteSome _ _ _)) (carries_noteEvent _ _ _))
      (carries_noteSome _ _ _)) (carries_noteSome _ _ _)
    exact carries_noteSome _ _ s
  · refine .trans (.trans (.trans ?_ (carries_noteSome _ _ _)) (carries_noteEvent _ _ _))
      (carries_noteSome _ _ _)
    exact carries_noteSome _ _ s

theorem sameBasis_openWorkspace (agentId : AgentId) (now : Time) (s : State) :
    SameBasis s.case (openWorkspace agentId now s).case := by
  unfold openWorkspace
  split
  · exact sameBasis_withDesk _ fun _ => rfl
  split
  · exact sameBasis_withDesk _ fun _ => rfl
  split
  · exact (sameBasis_withDesk s.case fun _ => rfl).trans
      (sameBasis_advance _ (handOffPoint_ne (by decide) (by decide)))
  split
  · exact (sameBasis_withDesk s.case fun h => absurd rfl h).trans
      (sameBasis_advance _ (handOffPoint_ne (by decide) (by decide)))
  · exact .refl _

theorem sameBasis_startTask (agentId : AgentId) (key : String) (now : Time) (s : State) :
    SameBasis s.case (startTask agentId key now s).case := by
  unfold startTask
  dsimp only
  rw [case_noteEvent]
  refine SameBasis.trans ?_ (sameBasis_openWorkspace agentId now _)
  exact sameBasis_of_point rfl rfl rfl rfl

theorem sameBasis_releaseCurrent (key : String) (s : State) :
    SameBasis s.case (releaseCurrent key s).case := by
  rw [case_releaseCurrent]
  exact sameBasis_of_point rfl rfl rfl rfl

theorem slugs_releaseCurrent (key : String) (s : State) : (releaseCurrent key s).slugs = s.slugs := by
  rcases tasks_releaseCurrent key s with htasks | ⟨id, _, -, -, -, -, htasks⟩
  · unfold State.slugs
    rw [htasks]
  · unfold State.slugs
    rw [htasks]
    exact slugs_setTaskStatus id .cancelled s

/-- The statuses of quality control give the case to agents of quality control. -/
theorem agentIdForQualityStatus_ne {status : CaseStatus} {agent : AgentId}
    (h : agentIdForQualityStatus status = some agent) : agent ∉ handOffAgents := by
  cases status <;> first | (cases h; decide) | cases h

theorem warranted_nextAgentId (env : Env)
    (hsource : c.sourceType = .productionMaterialOrder) (hhand : nextAgentId env c ∈ handOffAgents) :
    Warranted c (nextAgentId env c) := by
  unfold nextAgentId at hhand ⊢
  cases hnext : c.metadata.nextQualityAgent with
  | some agent => exact .inl hnext
  | none =>
    rw [hnext] at hhand
    cases hquality : agentIdForQualityStatus c.status with
    | some agent =>
      rw [hquality] at hhand
      exact absurd hhand (agentIdForQualityStatus_ne hquality)
    | none =>
      rw [hquality] at hhand
      change resolveRoleAgentId env c ∈ handOffAgents at hhand
      change Warranted c (resolveRoleAgentId env c)
      unfold resolveRoleAgentId at hhand ⊢
      rw [if_pos hsource] at hhand ⊢
      split
      · next hmanager =>
        rw [if_pos hmanager] at hhand
        exact absurd hhand (by decide)
      next hmanager =>
      rw [if_neg hmanager] at hhand
      split
      · next homto =>
        unfold Case.withOmto at homto
        rw [Bool.or_eq_true, Bool.or_eq_true, Bool.and_eq_true, beq_iff_eq, beq_iff_eq, beq_iff_eq,
          beq_iff_eq] at homto
        rcases homto with (hpicker | hcomplex) | hpoint
        · exact .inr (.inl ⟨.picker, by decide, hpicker⟩)
        · exact .inr (.inl ⟨.complex, by decide, hcomplex⟩)
        · exact .inr (.inr ⟨"omto", rfl, hpoint.2⟩)
      next homto =>
      rw [if_neg homto] at hhand
      split
      · next hmontage =>
        rw [if_pos hmontage] at hhand
        exact absurd hhand (by decide)
      next hmontage =>
      rw [if_neg hmontage] at hhand
      split
      · next hdispatcher =>
        rw [Bool.and_eq_true] at hdispatcher
        have hpoint := hdispatcher.2
        unfold Case.withDispatcher at hpoint
        rw [Bool.and_eq_true, beq_iff_eq] at hpoint
        exact .inr (.inr ⟨"chief_dispatcher", by decide, hpoint.2⟩)
      · next hcomplex =>
        rw [if_neg hcomplex] at hhand
        exact absurd hhand (by decide)

section
variable (env : Env) (now : Time) (s : State)

theorem carries_enqueueRoleAgent : Carries s (enqueueRoleAgent env now s) := by
  have hterminal := congrArg CaseStatus.terminal (status_enqueueRoleAgent env now s).1
  rcases enqueueRoleAgent_cases env now s with hsame | ⟨hopen, -, -, hstart⟩
  · rw [hsame]
    exact .refl s
  · rw [hstart] at hterminal ⊢
    generalize roleCompletionKey s.case (nextAgentId env s.case) = key at hterminal ⊢
    refine ⟨hterminal, ?_, [nextAgentId env s.case], ?_, ?_⟩
    · exact (sameBasis_releaseCurrent key s).trans (sameBasis_startTask _ key now _)
    · unfold State.slugs
      rw [tasks_startTask, List.map_append]
      exact congrArg (· ++ _) (slugs_releaseCurrent key s)
    · intro agent hagent
      rw [List.mem_singleton] at hagent
      rw [hagent]
      exact ⟨hopen, fun hsource hhand => warranted_nextAgentId env hsource hhand⟩

/-! ## The passes -/

theorem carries_cancelLostTask (id : TaskId) : Carries s (cancelLostTask id s) :=
  (carries_setTaskStatus id .cancelled s).trans
    (carries_of_basis rfl ⟨rfl, rfl, rfl, fun _ _ => rfl, fun _ _ _ h => h⟩ rfl)

/-- A change of the pointers and of the completion key. -/
theorem carries_withCase {f : Case → Case}
    (hterminal : (f s.case).status.terminal = s.case.status.terminal)
    (hbasis : SameBasis s.case (f s.case)) : Carries s (s.withCase f) :=
  carries_of_basis hterminal hbasis rfl

theorem carries_takenFromEngineer : Carries s (takenFromEngineer s) := by
  have hreleased : Carries s (releaseEngineerTask s) := by
    unfold releaseEngineerTask
    split
    · split
      · refine Carries.trans ?_ (carries_withCase _ (by rfl) (sameBasis_of_point rfl rfl rfl rfl))
        split
        · exact carries_setTaskStatus _ .cancelled s
        · exact .refl s
      · exact .refl s
    · exact .refl s
  refine hreleased.trans (carries_withCase _ (by rfl) ?_)
  exact ⟨rfl, rfl, rfl, fun _ _ => rfl, fun _ _ _ h => h⟩

theorem carries_givePurchaseManager : Carries s (givePurchaseManager s) := by
  unfold givePurchaseManager
  split
  · exact .refl s
  · have hpurchase : ∀ agent, handOffPoint agent ≠ some "purchase" :=
      handOffPoint_ne (by decide) (by decide)
    refine carries_withCase s rfl ?_
    exact (sameBasis_advance ["", "basis", "data", "coverage"] hpurchase).trans
      (sameBasis_of_point rfl rfl rfl rfl)

theorem carries_assignPurchaseManager : Carries s (assignPurchaseManager now s) := by
  refine (carries_withCase s (by rfl) ?_).trans (carries_withDesk _ fun h => absurd rfl h)
  exact sameBasis_of_point rfl rfl rfl rfl

theorem carries_cancelForPurchaseManager (id : TaskId) : Carries s (cancelForPurchaseManager id s) :=
  (carries_setTaskStatus id .cancelled s).trans
    (carries_of_basis rfl ⟨rfl, rfl, rfl, fun _ _ => rfl, fun _ _ _ h => h⟩ rfl)

theorem passing_carries : Passing env now Carries where
  refl := .refl
  trans := .trans
  enqueue := carries_enqueueRoleAgent env now
  dispatch _ s := carries_withDesk s fun _ => rfl
  lost id s := carries_cancelLostTask s id
  taken := carries_takenFromEngineer
  note _ _ _ := carries_noteEvent _ _ _
  assigned := carries_assignPurchaseManager now
  given := carries_givePurchaseManager
  cancelled id s := carries_cancelForPurchaseManager s id

theorem carries_acknowledgeCritical (desk : Desk) (user : String) :
    Carries s (acknowledgeCritical desk user now s).1 := by
  unfold acknowledgeCritical
  dsimp only
  split
  · exact .refl s
  split
  · exact .refl s
  · exact (carries_withDesk s (f := fun w => { w with
      criticalAcknowledgedAt := some now, criticalAcknowledgedBy := some user }) fun _ => rfl).trans
      (carries_noteEvent _ _ _)

theorem carries_cancelCoveredTask : Carries s s.cancelCoveredTask := by
  unfold State.cancelCoveredTask
  split
  · exact .refl s
  · next id _ =>
    refine Carries.trans ?_ (carries_withCase _ (by rfl) (sameBasis_of_point rfl rfl rfl rfl))
    cases s.task? id with
    | none => exact .refl s
    | some task =>
      dsimp only
      split
      · exact .refl s
      · exact carries_setTaskStatus id .cancelled s

theorem hand_outputUnderCoverage (status : Coverage.CoverageStatus) (w : Workspace) :
    (outputUnderCoverage status w).hand = w.hand := by
  unfold outputUnderCoverage
  split
  · next stored hstored =>
    split
    · unfold Workspace.hand
      rw [hstored]
      rfl
    · rfl
  · rfl

theorem sameBasis_recordCoverage (evidence : CoverageEvidence) (c : Case) :
    SameBasis c (recordCoverage evidence now c) := by
  refine ⟨rfl, rfl, rfl, fun desk hdesk => ?_, fun _ _ _ h => h⟩
  change (if desk = .manager then managerUnderCoverage _ _ _ _ else _).hand = _
  rw [if_neg hdesk]

theorem carries_routeUnderCoverage (hopen : s.case.status.terminal = false) (desk : Desk)
    (previous : Option Coverage.CoverageStatus) (status : Coverage.CoverageStatus) :
    Carries s (routeUnderCoverage desk previous status now s) := by
  have hpurchase : ∀ agent, handOffPoint agent ≠ some "purchase" :=
    handOffPoint_ne (by decide) (by decide)
  have hcoverage : ∀ agent, handOffPoint agent ≠ some "coverage" :=
    handOffPoint_ne (by decide) (by decide)
  unfold routeUnderCoverage
  split
  · unfold routeCovered
    dsimp only
    refine Carries.trans ?_ (carries_withCase _ (by rfl) (sameBasis_of_point rfl rfl rfl rfl))
    generalize hcovered : State.withCase _ (s.withDesk desk _) = covered
    have hordered : Carries s covered := by
      rw [← hcovered]
      refine (carries_withDesk s fun _ => rfl).trans (carries_withCase _ hopen.symm ?_)
      exact (sameBasis_withPoint hpurchase).trans (sameBasis_of_point rfl rfl rfl rfl)
    split
    · exact hordered.trans (carries_cancelCoveredTask _)
    · exact hordered
  split
  · unfold routeUncovered
    refine (carries_withDesk s fun _ => rfl).trans (carries_withCase _ hopen.symm ?_)
    exact (sameBasis_withPoint hcoverage).trans (sameBasis_of_point rfl rfl rfl rfl)
  split
  · unfold routePartly
    exact (carries_withDesk s fun _ => rfl).trans
      (carries_withCase _ (by rfl) (sameBasis_of_point rfl rfl rfl rfl))
  · exact .refl s

theorem carries_applySupplierCoverage (hopen : s.case.status.terminal = false)
    (evidence : CoverageEvidence) : Carries s (applySupplierCoverage env evidence now s) := by
  have hrecorded : Carries s (s.withCase (recordCoverage evidence now)) :=
    carries_withCase s rfl (sameBasis_recordCoverage now evidence s.case)
  rw [applySupplierCoverage_eq]
  dsimp only
  generalize s.case.metadata.coverageStatus = previous
  have hopen' := hrecorded.terminal.trans hopen
  generalize s.withCase (recordCoverage evidence now) = recorded at hrecorded hopen'
  have hrouted : Carries s (underCoverage env now evidence previous recorded) := by
    unfold underCoverage
    split
    · next desk _ =>
      have houtput : desk ≠ .manager → (outputUnderCoverage evidence.status
          (recorded.case.metadata.desk desk)).hand = (recorded.case.metadata.desk desk).hand :=
        fun _ => hand_outputUnderCoverage _ _
      have hstored := hrecorded.trans (carries_withDesk recorded houtput)
      split
      · exact hstored.trans (carries_routeUnderCoverage now _ (hstored.terminal.trans hopen) _
          previous evidence.status)
      · exact hrecorded.trans (carries_routeUnderCoverage now _ hopen' _ previous evidence.status)
    · exact hrecorded
  split
  · exact hrouted
  · exact hrouted.trans (carries_noteCoverage _ _ _ _)

theorem carries_repairPrematureWarehouseArchive :
    Carries s (repairPrematureWarehouseArchive env s) := by
  unfold repairPrematureWarehouseArchive
  split
  · exact .refl s
  · dsimp only
    split
    · exact .refl s
    · exact carries_withDesk s fun _ => rfl

theorem carries_reconcileSupplierOrders (evidence : Option CoverageEvidence) :
    Carries s (reconcileSupplierOrders env evidence now s) := by
  unfold reconcileSupplierOrders
  split
  · exact .refl s
  next heligible =>
  rw [Bool.not_eq_true', Bool.not_eq_false] at heligible
  unfold supplierEligible at heligible
  rw [Bool.and_eq_true, Bool.not_eq_true'] at heligible
  split
  · exact carries_repairPrematureWarehouseArchive env s
  · next evidence =>
    have happlied := carries_applySupplierCoverage env now s heligible.2 evidence
    dsimp only
    split
    · exact happlied
    · exact happlied.trans (carries_repairPrematureWarehouseArchive env _)

/-! ## The journal -/

/-- The work of the journal carries the basis along, in the state and in its own copy of the
metadata. -/
structure Works (s : State) (w : JournalWork) : Prop where
  carries : Carries s w.state
  next : w.metadata.nextQualityAgent = s.case.metadata.nextQualityAgent
  hand : ∀ desk, desk ≠ .manager →
    (w.metadata.desk desk).hand = (s.case.metadata.desk desk).hand

variable {w : JournalWork}

theorem Works.state (h : Works s w) {s' : State} (hs : Carries w.state s')
    (assigned : List AgentId) : Works s ⟨s', w.metadata, assigned⟩ :=
  ⟨h.carries.trans hs, h.next, h.hand⟩

/-- The archive of a workspace in the copy of the metadata. -/
theorem Works.withDesk (h : Works s w) {s' : State} (hs : Carries w.state s')
    {desk : Desk} {f : Workspace → Workspace}
    (hf : desk ≠ .manager → (f (w.metadata.desk desk)).hand = (w.metadata.desk desk).hand)
    (assigned : List AgentId) : Works s ⟨s', w.metadata.withDesk desk f, assigned⟩ where
  carries := h.carries.trans hs
  next := h.next
  hand desk' hdesk' := by
    have hsame := (sameBasis_withDesk { s.case with metadata := w.metadata } hf).hand desk' hdesk'
    exact hsame.trans (h.hand desk' hdesk')

theorem carries_writeBack (h : Works s w) : Carries s (writeBack w) where
  terminal := h.carries.terminal
  basis := ⟨h.carries.basis.sourceType, h.carries.basis.revision, h.next, h.hand,
    h.carries.basis.point⟩
  tasks := h.carries.tasks

variable (evidence : JournalEvidence)

theorem works_archiveWarehouseWorkspace (h : Works s w) :
    Works s (archiveWarehouseWorkspace evidence now w).1 := by
  unfold archiveWarehouseWorkspace
  split
  · exact h
  · dsimp only
    split
    · exact h
    · exact h.withDesk s (carries_noteEvent _ _ _) (fun _ => rfl) _

theorem carries_cancelPresentedTask : Carries s s.cancelPresentedTask := by
  unfold State.cancelPresentedTask
  split
  · exact .refl s
  split
  · split
    · exact .refl s
    · exact carries_setTaskStatus _ .cancelled s
  · exact .refl s

theorem carries_startOtk (hopen : s.case.status.terminal = false) (status : TmcStatus) :
    Carries s (startOtk env status now s) := by
  have hmoved : Carries s (toQuality s) :=
    carries_withCase s hopen.symm (sameBasis_of_point rfl rfl rfl rfl)
  have hstarted := hmoved.trans (carries_enqueueRoleAgent env now (toQuality s))
  unfold startOtk
  dsimp only
  change Carries s (if status = .partly then
    (enqueueRoleAgent env now (toQuality s)).withCase _ else enqueueRoleAgent env now (toQuality s))
  split
  · -- the status before is that of an open case
    refine hstarted.trans (carries_withCase _ ?_ (sameBasis_of_point rfl rfl rfl rfl))
    exact hstarted.terminal.symm
  · exact hstarted

theorem carries_moveToOtk (hopen : s.case.status.terminal = false) :
    Carries s (moveToOtk now s) := by
  have hquality : ∀ agent, handOffPoint agent ≠ some "quality" :=
    handOffPoint_ne (by decide) (by decide)
  unfold moveToOtk
  dsimp only
  refine Carries.trans ?_ (carries_noteEvent _ _ _)
  have hcancelled : Carries s (if s.case.currentAgentId = some purchaseManager then
      s.cancelPresentedTask else s) := by
    split
    · exact carries_cancelPresentedTask s
    · exact .refl s
  refine hcancelled.trans (carries_withCase _ (hcancelled.terminal.trans hopen).symm ?_)
  exact (sameBasis_withPoint hquality).trans (sameBasis_of_point rfl rfl rfl rfl)

theorem works_assignOtk (status : TmcStatus) (h : Works s w)
    (hopen : s.case.status.terminal = false) : Works s (assignOtk env status now w) := by
  have hstate : Carries w.state (assignOtk env status now w).state := by
    unfold assignOtk
    dsimp only
    split
    · exact .refl _
    · have hnoted := carries_noteEvent "otk_agent_assigned"
        (cutKey ("otk-assigned:" ++ w.state.case.id ++ ":" ++ now)) w.state
      exact hnoted.trans (carries_startOtk env now _
        (hnoted.terminal.trans (h.carries.terminal.trans hopen)) status)
  exact ⟨h.carries.trans hstate, h.next, h.hand⟩

theorem works_handOffToOtk (justStarted : Bool) (h : Works s w)
    (hopen : s.case.status.terminal = false) :
    Works s (handOffToOtk env evidence justStarted now w) := by
  have harchived : Works s (archiveManager now w) := by
    refine ⟨h.carries, h.next, fun desk hdesk => ?_⟩
    unfold archiveManager Metadata.withDesk
    dsimp only
    rw [if_neg hdesk]
    exact h.hand desk hdesk
  have hsettled : Works s (settleAvailability evidence now (archiveManager now w)) := by
    unfold settleAvailability
    split
    · exact ⟨harchived.carries, harchived.next, harchived.hand⟩
    · exact works_archiveWarehouseWorkspace now s evidence harchived
  have hmoved := carries_moveToOtk now _ (hsettled.carries.terminal.trans hopen)
  unfold handOffToOtk
  dsimp only
  split
  · exact hsettled.state s hmoved _
  · exact hsettled.state s (hmoved.trans (carries_enqueueRoleAgent env now _)) _

theorem carries_showQuality : Carries s (showQuality s) := by
  unfold showQuality
  split
  · exact carries_withCase s rfl (sameBasis_withPoint (handOffPoint_ne (by decide) (by decide)))
  · exact .refl s

theorem works_presentToOtk (status : TmcStatus) (changed : Bool) (h : Works s w)
    (hopen : s.case.status.terminal = false) :
    Works s (presentToOtk env evidence status now changed w).1 := by
  have hassigned := works_assignOtk env now s status h hopen
  unfold presentToOtk
  dsimp only
  split
  · exact works_handOffToOtk env now s evidence _ hassigned hopen
  split
  · exact works_archiveWarehouseWorkspace now s evidence hassigned
  split
  · exact hassigned.state s (carries_showQuality _) _
  · exact hassigned

theorem carries_reconcilePresentations :
    Carries s (reconcilePresentations env evidence now s) := by
  unfold reconcilePresentations
  split
  · next heligible =>
    have hopen : s.case.status.terminal = false := by
      unfold journalEligible at heligible
      simp only [Bool.and_eq_true, Bool.not_eq_true'] at heligible
      exact heligible.1.1.1.1.2
    unfold applyJournal
    split
    · exact .refl s
    dsimp only
    refine Carries.trans (carries_writeBack s ?_) (carries_noteSome _ _ _)
    unfold workJournal
    dsimp only
    split
    · exact ⟨.refl s, rfl, fun _ _ => rfl⟩
    · exact works_presentToOtk env now s evidence _ _ ⟨.refl s, rfl, fun _ _ => rfl⟩ hopen
  · exact .refl s

end

end AgentBack.Orchestrator
