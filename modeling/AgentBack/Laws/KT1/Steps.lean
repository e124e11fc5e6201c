import AgentBack.KT1.Graph

/-!
# What a node of the graph does

One lemma for each node that branches says what it can do, and the lemmas about the plan of the case
say that marking a step keeps the plan active with the same steps. `successors` says where a node can
lead. The laws about whole runs rest on these and look into no node.
-/

namespace AgentBack.KT1

open Orchestrator (CaseStatus)

variable {env : Env} {run : Run}

theorem step_of_execute {next : Run} (hfinished : run.node ≠ .finished) (hraised : run.node ≠ .raised)
    (h : execute env run = some next) : step env run = run.advance next := by
  unfold step
  rw [if_neg (not_or.mpr ⟨hfinished, hraised⟩), h]

theorem step_of_raise (hfinished : run.node ≠ .finished) (hraised : run.node ≠ .raised)
    (h : execute env run = none) :
    step env run = { run with node := .raised, trace := run.trace ++ [run.node] } := by
  unfold step
  rw [if_neg (not_or.mpr ⟨hfinished, hraised⟩), h]

theorem step_of_ended (h : run.node = .finished ∨ run.node = .raised) : step env run = run := by
  unfold step
  rw [if_pos h]

theorem runFor_of_ended {metadata : CaseMetadata} {n : Nat}
    (h : (runFor env metadata n).node = .finished ∨ (runFor env metadata n).node = .raised) (m : Nat)
    (hm : n ≤ m) : runFor env metadata m = runFor env metadata n := by
  induction m, hm using Nat.le_induction with
  | base => rfl
  | succ m _ ih =>
    change step env (runFor env metadata m) = _
    rw [ih, step_of_ended h]

/-! ## The plan of the case -/

variable (metadata : CaseMetadata)

def activeSteps : Option (List String) :=
  metadata.getActivePlan.map fun plan => plan.steps.map PlanStep.stepId

/-- A step that can be marked: none, or one of the active plan. -/
def Markable (ids : Option (List String)) (stepId : Option String) : Prop :=
  ∀ id, stepId = some id → id ≠ "" → ∃ steps, ids = some steps ∧ id ∈ steps

theorem getActivePlan_storePlan {plan : Plan} (h : plan.status = .active) :
    (metadata.storePlan plan).getActivePlan = some plan := by
  unfold CaseMetadata.getActivePlan CaseMetadata.storePlan
  rw [Option.filter_some, if_pos (decide_eq_true h)]

theorem status_of_getActivePlan {metadata : CaseMetadata} {plan : Plan}
    (h : metadata.getActivePlan = some plan) : plan.status = .active := by
  unfold CaseMetadata.getActivePlan at h
  exact of_decide_eq_true (Option.filter_eq_some_iff.mp h).2

theorem updateFirst_stepIds (stepId : String) (status : StepStatus) (a b : Option String)
    (steps : List PlanStep) :
    (updateFirst stepId status a b steps).map PlanStep.stepId = steps.map PlanStep.stepId := by
  induction steps with
  | nil => rfl
  | cons step rest ih =>
    unfold updateFirst
    split
    · rfl
    · rw [List.map_cons, ih, List.map_cons]

theorem updateStep_isSome_iff (stepId : String) (status : StepStatus) (a b : Option String) :
    (metadata.updateStep stepId status a b).isSome = true ↔
      ∃ steps, activeSteps metadata = some steps ∧ stepId ∈ steps := by
  unfold CaseMetadata.updateStep activeSteps
  cases metadata.getActivePlan with
  | none => simp
  | some plan =>
    simp only [Option.bind_some, Option.map_some, Option.some.injEq, exists_eq_left', List.mem_map]
    constructor
    · intro h
      split at h
      · next hany => simpa using hany
      · cases h
    · rintro ⟨step, hmem, hid⟩
      rw [if_pos (List.any_eq_true.mpr ⟨step, hmem, decide_eq_true hid⟩)]
      rfl

theorem activeSteps_updateStep {metadata metadata' : CaseMetadata} {stepId : String}
    {status : StepStatus} {a b : Option String}
    (h : metadata.updateStep stepId status a b = some metadata') :
    activeSteps metadata' = activeSteps metadata := by
  unfold CaseMetadata.updateStep at h
  obtain ⟨plan, hplan, h⟩ := Option.bind_eq_some_iff.mp h
  have hactive := status_of_getActivePlan hplan
  split at h
  · cases h
    unfold activeSteps
    rw [getActivePlan_storePlan _ (by exact hactive), hplan, Option.map_some, Option.map_some,
      updateFirst_stepIds]
  · cases h

/-- A step can be marked exactly when it is none or one of the active plan. -/
theorem markStep_isSome_iff (stepId : Option String) (status : StepStatus) (a b : Option String) :
    (markStep metadata stepId status a b).isSome = true ↔ Markable (activeSteps metadata) stepId := by
  unfold markStep Markable
  cases stepId with
  | none => simp
  | some id =>
    by_cases hid : id = ""
    · simp [hid]
    · simp only [if_neg hid]
      rw [updateStep_isSome_iff]
      constructor
      · intro h id' hid' _
        exact Option.some.inj hid' ▸ h
      · exact fun h => h id rfl hid

theorem activeSteps_markStep {metadata metadata' : CaseMetadata} {stepId : Option String}
    {status : StepStatus} {a b : Option String}
    (h : markStep metadata stepId status a b = some metadata') :
    activeSteps metadata' = activeSteps metadata := by
  unfold markStep at h
  cases stepId with
  | none => rw [← Option.some.inj h]
  | some id =>
    by_cases hid : id = ""
    · simp only [if_pos hid, Option.some.injEq] at h
      rw [← h]
    · simp only [if_neg hid] at h
      exact activeSteps_updateStep h

@[simp] theorem activeSteps_addEvidence (item : Evidence) :
    activeSteps (metadata.addEvidence item) = activeSteps metadata := by
  unfold CaseMetadata.addEvidence
  split <;> rfl

@[simp] theorem activeSteps_saveCheckpoint (run : Run) (state : GraphState) (plan : Option Plan) :
    activeSteps (run.saveCheckpoint state plan).metadata = activeSteps run.metadata := rfl

theorem activeSteps_replan {metadata : CaseMetadata} {decision : NextAction} {plan : Plan}
    {metadata' : CaseMetadata} (h : metadata.replan decision = some (plan, metadata')) :
    (activeSteps metadata').isSome = true := by
  unfold CaseMetadata.replan at h
  obtain ⟨old, hold, h⟩ := Option.map_eq_some_iff.mp h
  cases h
  have hactive := status_of_getActivePlan hold
  unfold activeSteps
  rw [getActivePlan_storePlan _ (by exact hactive)]
  rfl

/-- With an active plan a replan and a completion go through. -/
theorem replan_isSome (decision : NextAction) (h : (activeSteps metadata).isSome = true) :
    (metadata.replan decision).isSome = true := by
  unfold activeSteps at h
  unfold CaseMetadata.replan
  rw [Option.isSome_map] at h ⊢
  exact h

theorem completePlan_isSome (h : (activeSteps metadata).isSome = true) :
    metadata.completePlan.isSome = true := by
  unfold activeSteps at h
  unfold CaseMetadata.completePlan
  rw [Option.isSome_map] at h ⊢
  exact h

/-! ## Nodes -/

theorem validateRequest_cases (env : Env) (run : Run) :
    validateRequest env run = run.withState { run.state with caseStatus := .dataCheck } ∨
      ∃ status reason, (status = .humanRequired ∨ status = .blocked) ∧
        validateRequest env run =
          run.withState ({ run.state with caseStatus := .dataCheck }.stop status reason) := by
  unfold validateRequest
  simp only
  by_cases hlevel : env.request.autonomyLevel ≠ supportedAutonomyLevel
  · rw [if_pos hlevel]
    exact .inr ⟨_, _, .inr rfl, rfl⟩
  · rw [if_neg hlevel]
    generalize evaluateProcurementAction env.lib.py.lower _ env.request.autonomyLevel = policy
    cases policy.allowed with
    | true => exact .inl rfl
    | false =>
      cases policy.requiresHuman with
      | true => exact .inr ⟨_, _, .inl rfl, rfl⟩
      | false => exact .inr ⟨_, _, .inr rfl, rfl⟩

/-- The positions of the request miss nothing, or the case stops. -/
theorem checkDataQuality_cases (env : Env) (run : Run) :
    ∃ missing, checkDataQuality env run =
        run.withState { run.state with missingFields := missing } ∨
      ∃ reason, checkDataQuality env run =
        run.withState ({ run.state with missingFields := missing }.stop .humanRequired reason) := by
  unfold checkDataQuality
  simp only
  split <;> split
  · exact ⟨_, .inl rfl⟩
  · exact ⟨_, .inr ⟨_, rfl⟩⟩
  · exact ⟨_, .inl rfl⟩
  · exact ⟨_, .inr ⟨_, rfl⟩⟩

theorem ensurePlan_cases (env : Env) (run : Run) :
    (∃ error, ensurePlan env run = run.withState (run.state.stop .humanRequired error)) ∨
      (∃ metadata plan, (activeSteps metadata).isSome = true ∧
        ensurePlan env run = { run with metadata, state := { run.state with plan := some plan } }) := by
  unfold ensurePlan
  cases hplan : run.metadata.getActivePlan with
  | some plan =>
    refine .inr ⟨run.metadata, plan, ?_, rfl⟩
    unfold activeSteps
    rw [hplan]
    rfl
  | none =>
    cases env.createPlan with
    | error error => exact .inl ⟨_, rfl⟩
    | ok created =>
      refine .inr ⟨_, newPlan created.1 created.2.1 created.2.2, ?_, rfl⟩
      rw [activeSteps_saveCheckpoint]
      unfold activeSteps
      rw [getActivePlan_storePlan _ rfl]
      rfl

/-- What the gate does with a call: it blocks a tool that is not allowed and a call that was repeated
too often, it stops at a step that is not in the plan, and it lets the call through. -/
theorem admitCall_cases (env : Env) (run : Run) (decision : NextAction) (arguments : Arguments) :
    ((evaluateProcurementTool env.lib.py.lower (decision.toolName.getD "")
          env.request.autonomyLevel).allowed = false ∧
        ∃ reason, admitCall env run decision arguments =
          run.withState { run.state.stop .blocked reason with currentToolCall := none }) ∨
      (repeatedTooOften run.state (decision.toolName.getD "") (env.lib.stableHash arguments) = true ∧
        admitCall env run decision arguments = run.withState
          ((run.state.counted (decision.toolName.getD "") (env.lib.stableHash arguments)).stop
            .blocked "Превышено допустимое количество одинаковых вызовов.")) ∨
      (admitCall env run decision arguments = run.withState
        (run.state.stop .humanRequired "Выбранный шаг отсутствует в активном плане.")) ∨
      ∃ metadata, decision.toolName.getD "" ∈ readOnlyToolNames ∧
        repeatedTooOften run.state (decision.toolName.getD "")
          (env.lib.stableHash arguments) = false ∧
        markStep run.metadata decision.stepId .running none none = some metadata ∧
        admitCall env run decision arguments =
          { run with metadata, state := {
              run.state.counted (decision.toolName.getD "") (env.lib.stableHash arguments) with
              currentToolCall := some
                { toolName := decision.toolName.getD "", arguments
                  argsHash := env.lib.stableHash arguments, stepId := decision.stepId } } } := by
  unfold admitCall
  simp only
  cases hallowed : (evaluateProcurementTool env.lib.py.lower (decision.toolName.getD "")
      env.request.autonomyLevel).allowed with
  | false => exact .inl ⟨rfl, _, rfl⟩
  | true =>
    rw [if_neg (by decide)]
    cases hrepeated : repeatedTooOften run.state (decision.toolName.getD "")
        (env.lib.stableHash arguments) with
    | true => exact .inr (.inl ⟨rfl, rfl⟩)
    | false =>
      rw [if_neg (by decide)]
      cases hmark : markStep run.metadata decision.stepId .running none none with
      | none => exact .inr (.inr (.inl rfl))
      | some metadata =>
        exact .inr (.inr (.inr ⟨metadata, mem_of_tool_allowed _ hallowed, rfl, rfl, rfl⟩))

/-- What the execution of a call does: it takes the evidence that is there, it gets new evidence, or
it stops at an error. -/
theorem executeTool_cases (env : Env) {call : ToolCall}
    (hcall : run.state.currentToolCall = some call) :
    (∃ cached, cachedEvidence run.state.evidence call = some cached ∧ executeTool env run =
        some (run.withState { run.state with currentObservation := some cached })) ∨
      (∃ response item, item = evidenceFromResponse response (env.newId run.invocations.length) call ∧
        executeTool env run = some
          { run with
            invocations := run.invocations ++ [(call.toolName, call.arguments)]
            state := { run.state with currentObservation := some item } }) ∨
      ∃ error, executeTool env run = some
        { run with
          invocations := run.invocations ++ [(call.toolName, call.arguments)]
          state := { run.state.stop .humanRequired error with currentObservation := none } } := by
  unfold executeTool
  rw [hcall, Option.map_some]
  cases hcached : cachedEvidence run.state.evidence call with
  | some cached => exact .inl ⟨cached, rfl, rfl⟩
  | none =>
    cases env.respond run.invocations.length with
    | ok response => exact .inr (.inl ⟨response, _, rfl, rfl⟩)
    | error error => exact .inr (.inr ⟨_, rfl⟩)

def observed (evidence : List Evidence) (item : Evidence) : List Evidence :=
  if known evidence item then evidence else evidence ++ [item]

/-- What storing an observation does, when the step of the decision can be marked. -/
theorem storeObservation_cases {decision : NextAction} (item : Evidence)
    (hmark : Markable (activeSteps run.metadata) decision.stepId) :
    ∃ metadata state, storeObservation run decision item = some { run with metadata, state } ∧
      activeSteps metadata = activeSteps run.metadata ∧
      state = judgeObservation { run.state with
        evidence := observed run.state.evidence item
        currentObservation := some item
        successfulCallHashes := recordSuccess run.state item } item := by
  unfold storeObservation
  simp only
  have hactive : activeSteps (if known run.state.evidence item then run.metadata
      else run.metadata.addEvidence item) = activeSteps run.metadata := by
    split
    · rfl
    · exact activeSteps_addEvidence _ _
  have hsome := (markStep_isSome_iff (if known run.state.evidence item then run.metadata
    else run.metadata.addEvidence item) decision.stepId
    (if (item.status == .success) = true then .completed else .blocked)
    (if (item.status == .success) = true then some ("Получено доказательство " ++ item.evidenceId)
      else item.errorMessage)
    (if (item.status == .success) = true then none else item.errorMessage)).mpr
    (by rw [hactive]; exact hmark)
  obtain ⟨metadata, hmetadata⟩ := Option.isSome_iff_exists.mp hsome
  rw [hmetadata, Option.map_some]
  refine ⟨_, _, rfl, ?_, rfl⟩
  rw [activeSteps_saveCheckpoint]
  exact (activeSteps_markStep hmetadata).trans hactive

/-- What a judgement says: the observation is good and changes nothing, or the case stops. -/
theorem judgeObservation_cases (state : GraphState) (item : Evidence) :
    (item.freshSuccess = true ∧ judgeObservation state item = state) ∨
      (item.freshSuccess = false ∧
        ∃ reason, judgeObservation state item = state.stop .humanRequired reason) := by
  unfold judgeObservation Evidence.freshSuccess
  cases item.status with
  | capabilityUnavailable | failed => exact .inr ⟨rfl, _, rfl⟩
  | success =>
    cases item.freshness with
    | fresh => exact .inl ⟨rfl, rfl⟩
    | stale | unknown => exact .inr ⟨rfl, _, rfl⟩

/-- What replanning does, with an active plan. -/
theorem replan_cases {decision : NextAction} (hdecision : run.state.nextAction = some decision)
    (hactive : (activeSteps run.metadata).isSome = true) :
    (decision.replanSteps = [] ∧ ∃ reason, replan run =
        some (run.withState (run.state.stop .humanRequired reason))) ∨
      (decision.replanSteps ≠ [] ∧ ∃ metadata plan, (activeSteps metadata).isSome = true ∧
        replan run = some
          { run with metadata, state := { run.state with plan := some plan, nextAction := none } }) := by
  unfold replan
  rw [hdecision, Option.map_some]
  cases hsteps : decision.replanSteps with
  | nil => exact .inl ⟨rfl, _, rfl⟩
  | cons first rest =>
    obtain ⟨⟨plan, metadata⟩, hreplan⟩ :=
      Option.isSome_iff_exists.mp (replan_isSome run.metadata decision hactive)
    refine .inr ⟨List.cons_ne_nil _ _, ?_⟩
    have hkept := activeSteps_replan hreplan
    rw [hreplan]
    exact ⟨_, plan, by exact hkept, rfl⟩

/-- What the calculation does, with an active plan: it stops at insufficient data, or it closes the
case. -/
theorem calculateCoverageResult_cases {input : CoverageInput}
    (hinput : coverageInput env.lib env.caseId env.request run.state.evidence = some input)
    (hactive : (activeSteps run.metadata).isSome = true) :
    ((calculateCoverage input env.now).status = .dataInsufficient ∧ ∃ reason,
      calculateCoverageResult env run = some (run.withState
        { run.state.stop .humanRequired reason with
          coverageResult := some (calculateCoverage input env.now)
          humanAction := (calculateCoverage input env.now).humanActionRequired })) ∨
      ((calculateCoverage input env.now).status ≠ .dataInsufficient ∧ ∃ metadata,
        calculateCoverageResult env run = some
          { run with metadata, state := { run.state with
              coverageResult := some (calculateCoverage input env.now)
              caseStatus := .closed
              recommendation := some (calculateCoverage input env.now).recommendedNextStep } }) := by
  unfold calculateCoverageResult
  rw [hinput, Option.bind_some]
  simp only
  by_cases hstatus : (calculateCoverage input env.now).status = .dataInsufficient
  · rw [if_pos hstatus]
    exact .inl ⟨hstatus, _, rfl⟩
  · obtain ⟨metadata, hmetadata⟩ :=
      Option.isSome_iff_exists.mp (completePlan_isSome run.metadata hactive)
    rw [if_neg hstatus, hmetadata]
    exact .inr ⟨hstatus, metadata, rfl⟩

/-- The nodes that a node may lead to, where the case is blocked or not. -/
def successors (blocked : Bool) : Node → List Node
  | .validateRequest => [.requireHuman, if blocked then .blockCase else .checkDataQuality]
  | .checkDataQuality => [.requireHuman, .loadCaseContext]
  | .loadCaseContext => [.ensurePlan]
  | .ensurePlan => [.requireHuman, .selectNextAction]
  | .selectNextAction => [.requireHuman, .policyGate, .replan, .calculateCoverageResult]
  | .policyGate => [.requireHuman, if blocked then .blockCase else .executeTool]
  | .executeTool => [.requireHuman, .saveObservation]
  | .saveObservation => [.requireHuman, .evaluateGoal]
  | .evaluateGoal => [if blocked then .blockCase else .selectNextAction]
  | .replan => [.requireHuman, .selectNextAction]
  | .calculateCoverageResult => [.requireHuman, .finalizeResult]
  | .requireHuman => [.finalizeResult]
  | .blockCase => [.finalizeResult]
  | .finalizeResult => [.finished]
  | .finished => [.finished]
  | .raised => [.raised]

theorem afterDecision_mem (state : GraphState) :
    afterDecision state ∈ successors (state.caseStatus = .blocked) .selectNextAction := by
  unfold afterDecision
  split
  · exact .head _
  · cases state.nextAction with
    | none => exact .head _
    | some decision =>
      change actionNode decision.action ∈ successors _ _
      cases decision.action <;> simp [actionNode, successors]

theorem nextNode_mem_successors (node : Node) (state : GraphState) :
    nextNode node state ∈ successors (state.caseStatus = .blocked) node := by
  cases node
  case selectNextAction => exact afterDecision_mem state
  all_goals by_cases hhuman : state.caseStatus = .humanRequired
  all_goals by_cases hblocked : state.caseStatus = .blocked
  all_goals simp [nextNode, successors, hhuman, hblocked]

end AgentBack.KT1
