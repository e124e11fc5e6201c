import AgentBack.KT1.Runtime

/-!
# The graph of the purchasing agent (`agents/procurement_agent/graph.py`, `state.py`)

The nodes run one after the other; each changes the state and the metadata of the case, and the state
says which node is next. The planner and the tools are what they answer, call after call, so a run
may meet any planner and any tools; an answer that raises an error which the node catches is the text
of the error. A run also keeps what the source does not: the nodes that have run and the tools that
were called with their arguments.
-/

namespace AgentBack.KT1

open Py (Value)
open Orchestrator (CaseStatus)

/-- The nodes, the end of the graph, and where a run is when a node has raised. -/
inductive Node where
  | validateRequest
  | checkDataQuality
  | loadCaseContext
  | ensurePlan
  | selectNextAction
  | policyGate
  | executeTool
  | saveObservation
  | evaluateGoal
  | replan
  | calculateCoverageResult
  | requireHuman
  | blockCase
  | finalizeResult
  | finished
  | raised
  deriving DecidableEq

/-- `ProcurementCaseState`, the keys that the nodes write and read. -/
structure GraphState where
  caseStatus : CaseStatus
  stopReason : Option String
  missingFields : List String
  iteration : Nat
  plan : Option Plan
  evidence : List Evidence
  identicalCallCounts : Dict String Nat
  successfulCallHashes : Dict String String
  nextAction : Option NextAction
  currentToolCall : Option ToolCall
  currentObservation : Option Evidence
  coverageResult : Option KT1Result
  humanAction : Option HumanActionCard
  recommendation : Option String
  summary : Option String
  status : Option String
  requiresHumanReview : Bool

/-- What a run is given: the case, the request, and what the planner and the tools answer. -/
structure Env where
  lib : Library
  caseId : String
  request : KT1Request
  /-- The goal, the steps and the expected evidence of a new plan. -/
  createPlan : Except String (String × List PlanStep × List String)
  decide : Nat → Except String NextAction
  respond : Nat → Except String ToolResponse
  /-- `uuid4`. -/
  newId : Nat → String
  now : Int

structure Run where
  node : Node
  state : GraphState
  metadata : CaseMetadata
  asked : Nat
  invocations : List (String × Arguments)
  trace : List Node

variable (env : Env) (run : Run)

variable (state : GraphState)

@[simp] def Run.withState : Run := { run with state }

/-- The run of the case stops with a status, for a reason. -/
def GraphState.stop (status : CaseStatus) (reason : String) : GraphState :=
  { state with caseStatus := status, stopReason := some reason }

def Run.saveCheckpoint (plan : Option Plan) : Run :=
  { run with metadata := { run.metadata with
      checkpoint := some
        { iteration := state.iteration
          plan := plan.or state.plan
          evidence := if state.evidence.isEmpty then run.metadata.evidence else state.evidence
          identicalCallCounts := state.identicalCallCounts
          successfulCallHashes := state.successfulCallHashes } } }

def validateRequest : Run :=
  let policy := evaluateProcurementAction env.lib.py.lower
    (if env.request.requestedOperation = "" then "assess_need" else env.request.requestedOperation)
    env.request.autonomyLevel
  let state := { run.state with caseStatus := .dataCheck }
  run.withState
    (if env.request.autonomyLevel ≠ supportedAutonomyLevel then
      state.stop .blocked "Версия графа поддерживает только уровень 0."
    else if policy.allowed then state
    else state.stop (if policy.requiresHuman then .humanRequired else .blocked) policy.reason)

def missingPositionFields (index : Nat) (position : Value) : List String :=
  let place := "positions[" ++ toString index ++ "]"
  match position with
  | .dict _ =>
    let blank (field : String) : Bool :=
      match position.get field with
      | .null => true
      | .str text => text = ""
      | _ => false
    let absent (field : String) : Bool :=
      match position.get field with
      | .null => true
      | _ => false
    ((["line_id", "nomenclature_name", "unit"].filter blank).map fun field =>
      place ++ "." ++ field) ++
    if absent "gross_quantity" && (absent "product_quantity" || absent "consumption_rate") then
      [place ++ ".quantity_or_norm"]
    else []
  | _ => [place]

def checkDataQuality : Run :=
  let missing := match env.request.sourceData.get "positions" with
    | .list positions =>
      positions.zipIdx.flatMap fun entry => missingPositionFields entry.2 entry.1
    | _ => []
  let state := { run.state with missingFields := missing }
  run.withState
    (if missing.isEmpty then state
    else state.stop .humanRequired
      "В переданных строках потребности отсутствуют обязательные реквизиты.")

/-- `checkpoint.get("evidence") or metadata.get("evidence") or []`. -/
def CaseMetadata.restoredEvidence (metadata : CaseMetadata) : List Evidence :=
  match metadata.checkpoint with
  | some checkpoint =>
    if checkpoint.evidence.isEmpty then metadata.evidence else checkpoint.evidence
  | none => metadata.evidence

def loadCaseContext : Run :=
  let checkpoint := run.metadata.checkpoint
  run.withState
    { run.state with
      caseStatus := .coverageCheck
      iteration := (checkpoint.map Checkpoint.iteration).getD 0
      plan := checkpoint.bind Checkpoint.plan
      evidence := run.metadata.restoredEvidence
      identicalCallCounts := (checkpoint.map Checkpoint.identicalCallCounts).getD ∅
      successfulCallHashes := (checkpoint.map Checkpoint.successfulCallHashes).getD ∅ }

def ensurePlan : Run :=
  match run.metadata.getActivePlan with
  | some plan => run.withState { run.state with plan := some plan }
  | none =>
    match env.createPlan with
    | .error error =>
      run.withState (run.state.stop .humanRequired ("Не удалось сформировать план: " ++ error))
    | .ok (goal, steps, expected) =>
      let plan := newPlan goal steps expected
      let run := { run with metadata := run.metadata.storePlan plan }
      (run.saveCheckpoint run.state (some plan)).withState { run.state with plan := some plan }

/-! ## The loop -/

def selectNextAction : Run :=
  let asked := { run with asked := run.asked + 1 }
  match env.decide run.asked with
  | .ok decision => asked.withState { run.state with nextAction := some decision }
  | .error error =>
    asked.withState (run.state.stop .humanRequired
      ("Планировщик не может выбрать безопасное действие: " ++ error))

variable (toolName argsHash : String)

def callKey : String := toolName ++ ":" ++ argsHash

def answered : Bool :=
  (state.evidence.any fun item =>
    item.toolName = toolName ∧ item.argsHash = argsHash ∧ item.freshSuccess = true) ||
    (state.successfulCallHashes.get? (callKey toolName argsHash)).isSome

/-- The counters after a call that has no good answer yet. -/
def countCall : Dict String Nat :=
  if answered state toolName argsHash then state.identicalCallCounts
  else
    state.identicalCallCounts.set (callKey toolName argsHash)
      (state.identicalCallCounts.getD (callKey toolName argsHash) 0 + 1)

def GraphState.counted : GraphState :=
  { state with identicalCallCounts := countCall state toolName argsHash }

def repeatedTooOften : Bool :=
  !answered state toolName argsHash &&
    decide (maxIdenticalToolCalls <
      state.identicalCallCounts.getD (callKey toolName argsHash) 0 + 1)

/-- The step of a decision is marked in the plan; without a value where that raises. -/
def markStep (metadata : CaseMetadata) (stepId : Option String) (status : StepStatus)
    (resultSummary blockingReason : Option String) : Option CaseMetadata :=
  match stepId with
  | some id => if id = "" then some metadata
    else metadata.updateStep id status resultSummary blockingReason
  | none => some metadata

/-- `policy_gate` on a decision whose arguments are bound. -/
def admitCall (decision : NextAction) (arguments : Arguments) : Run :=
  let toolName := decision.toolName.getD ""
  let argsHash := env.lib.stableHash arguments
  let policy := evaluateProcurementTool env.lib.py.lower toolName env.request.autonomyLevel
  if policy.allowed = false then
    run.withState { run.state.stop .blocked policy.reason with currentToolCall := none }
  else
    let state := run.state.counted toolName argsHash
    if repeatedTooOften run.state toolName argsHash then
      run.withState (state.stop .blocked "Превышено допустимое количество одинаковых вызовов.")
    else
      match markStep run.metadata decision.stepId .running none none with
      | none => run.withState
          (run.state.stop .humanRequired "Выбранный шаг отсутствует в активном плане.")
      | some metadata =>
        { run with metadata, state := { state with
            currentToolCall := some
              { toolName, arguments, argsHash, stepId := decision.stepId } } }

/-- `policy_gate`, without a value where it raises. -/
def policyGate : Option Run :=
  run.state.nextAction.bind fun decision =>
    (bindTrustedToolArguments env.lib env.request (decision.toolName.getD "")
      decision.arguments).map (admitCall env run decision)

def executeTool : Option Run :=
  run.state.currentToolCall.map fun call =>
    match cachedEvidence run.state.evidence call with
    | some cached => run.withState { run.state with currentObservation := some cached }
    | none =>
      let called := { run with invocations := run.invocations ++ [(call.toolName, call.arguments)] }
      match env.respond run.invocations.length with
      | .ok response =>
        called.withState { run.state with
          currentObservation := some
            (evidenceFromResponse response (env.newId run.invocations.length) call) }
      | .error error =>
        called.withState
          { run.state.stop .humanRequired
              ("Read-only инструмент завершился ошибкой: " ++ error ++ ".") with
            currentObservation := none }

def known (items : List Evidence) (item : Evidence) : Bool :=
  items.any fun other => other.evidenceId = item.evidenceId

def judgeObservation (item : Evidence) : GraphState :=
  match item.status with
  | .capabilityUnavailable =>
    state.stop .humanRequired ("Обязательная возможность MCP недоступна: " ++ item.toolName ++ ".")
  | .failed =>
    state.stop .humanRequired ("Не удалось получить доказательство: " ++ item.toolName ++ ".")
  | .success =>
    if item.freshness = .fresh then state
    else state.stop .humanRequired
      ("Доказательство не имеет подтверждённой актуальности: " ++ item.toolName ++ ".")

/-- The calls that have a good answer, after an observation. -/
def recordSuccess (item : Evidence) : Dict String String :=
  if item.freshSuccess then
    let callHash := (state.currentToolCall.map ToolCall.argsHash).getD ""
    state.successfulCallHashes.set
      (callKey item.toolName (if callHash = "" then item.argsHash else callHash)) item.evidenceId
  else state.successfulCallHashes

/-- `save_observation` of an evidence item for a decision, without a value where it raises. -/
def storeObservation (decision : NextAction) (item : Evidence) : Option Run :=
  let isKnown := known run.state.evidence item
  let evidence := if isKnown then run.state.evidence else run.state.evidence ++ [item]
  let metadata := if isKnown then run.metadata else run.metadata.addEvidence item
  let success := item.status == .success
  let summary := if success then some ("Получено доказательство " ++ item.evidenceId)
    else item.errorMessage
  (markStep metadata decision.stepId (if success then .completed else .blocked) summary
    (if success then none else item.errorMessage)).map fun metadata =>
      let state := judgeObservation
        { run.state with
          evidence
          currentObservation := some item
          successfulCallHashes := recordSuccess run.state item } item
      ({ run with metadata }.saveCheckpoint state none).withState state

def saveObservation : Option Run :=
  run.state.nextAction.bind fun decision =>
    run.state.currentObservation.bind (storeObservation run decision)

def evaluateGoal : Run :=
  let iteration := run.state.iteration + 1
  if maxLoopIterations ≤ iteration then
    run.withState ({ run.state with iteration }.stop .blocked
      "Достигнуто максимальное количество итераций агентного цикла.")
  else
    (run.saveCheckpoint { run.state with iteration } none).withState
      { run.state with iteration, nextAction := none }

def replan : Option Run :=
  run.state.nextAction.map fun decision =>
    if decision.replanSteps.isEmpty then
      run.withState (run.state.stop .humanRequired
        "Не удалось безопасно изменить план: ValueError.")
    else
      match run.metadata.replan decision with
      | none => run.withState (run.state.stop .humanRequired
          "Не удалось безопасно изменить план: RuntimeError.")
      | some (plan, metadata) =>
        ({ run with metadata }.saveCheckpoint run.state (some plan)).withState
          { run.state with plan := some plan, nextAction := none }

/-- `calculate_coverage_result`, without a value where it raises. -/
def calculateCoverageResult : Option Run :=
  (coverageInput env.lib env.caseId env.request run.state.evidence).bind fun input =>
    let result := calculateCoverage input env.now
    if result.status = .dataInsufficient then
      some (run.withState
        { run.state.stop .humanRequired "Недостаточно достоверных данных для завершения КТ1." with
          coverageResult := some result, humanAction := result.humanActionRequired })
    else
      run.metadata.completePlan.map fun metadata =>
        { run with metadata, state := { run.state with
            coverageResult := some result
            caseStatus := .closed
            recommendation := some result.recommendedNextStep } }

/-- The card of a case that waits for a person without one. -/
def defaultCard : HumanActionCard :=
  let ids := (state.evidence.map Evidence.evidenceId).filter fun id => id ≠ ""
  { stoppedBy := state.stopReason.getD "Агенту требуется решение пользователя."
    obtainedData := ids
    requestedFromHuman := [state.stopReason.getD "Уточнить данные."]
    options := ["Уточнить данные", "Восстановить возможность MCP", "Завершить кейс вручную"]
    risks := ["Продолжение без подтверждения может исказить расчёт обеспеченности."]
    evidenceIds := ids }

def requireHuman : Run :=
  { run with
    metadata := run.metadata.blockPlan (run.state.stopReason.getD "human_required")
    state := { run.state with
      caseStatus := .humanRequired
      humanAction := some (run.state.humanAction.getD (defaultCard run.state))
      requiresHumanReview := true } }

def blockCase : Run :=
  { run with
    metadata := run.metadata.blockPlan (run.state.stopReason.getD "blocked")
    state := { run.state with caseStatus := .blocked } }

def finalizeResult : Run :=
  let state := run.state
  let human := decide (state.caseStatus = .humanRequired)
  let (summary, status) :=
    match state.caseStatus, state.coverageResult with
    | .closed, some coverage =>
      ("КТ1 завершён: статус обеспеченности — " ++ coverage.status.text ++ ".", "completed")
    | _, _ =>
      if human then
        (state.stopReason.getD "Для продолжения требуется участие человека.",
          "completed_with_issues")
      else
        (state.stopReason.getD "Кейс заблокирован техническими ограничениями.", "failed")
  run.withState
    { state with summary := some summary, status := some status, requiresHumanReview := human }

/-! ## The edges -/

def actionNode : ActionKind → Node
  | .tool => .policyGate
  | .replan => .replan
  | .complete => .calculateCoverageResult
  | .humanRequired => .requireHuman

def afterDecision : Node :=
  if state.caseStatus = .humanRequired then .requireHuman
  else (state.nextAction.map fun decision => actionNode decision.action).getD .requireHuman

/-- The node that follows a node, as `build_graph` connects them. -/
def nextNode (node : Node) (state : GraphState) : Node :=
  let human := state.caseStatus = .humanRequired
  let blocked := state.caseStatus = .blocked
  match node with
  | .validateRequest =>
    if human then .requireHuman else if blocked then .blockCase else .checkDataQuality
  | .checkDataQuality => if human then .requireHuman else .loadCaseContext
  | .loadCaseContext => .ensurePlan
  | .ensurePlan => if human then .requireHuman else .selectNextAction
  | .selectNextAction => afterDecision state
  | .policyGate => if blocked then .blockCase else if human then .requireHuman else .executeTool
  | .executeTool => if human then .requireHuman else .saveObservation
  | .saveObservation => if human then .requireHuman else .evaluateGoal
  | .evaluateGoal => if blocked then .blockCase else .selectNextAction
  | .replan => if human then .requireHuman else .selectNextAction
  | .calculateCoverageResult => if human then .requireHuman else .finalizeResult
  | .requireHuman => .finalizeResult
  | .blockCase => .finalizeResult
  | .finalizeResult => .finished
  | .finished => .finished
  | .raised => .raised

/-- What a node does, without a value where it raises. -/
def execute : Option Run :=
  match run.node with
  | .validateRequest => some (validateRequest env run)
  | .checkDataQuality => some (checkDataQuality env run)
  | .loadCaseContext => some (loadCaseContext run)
  | .ensurePlan => some (ensurePlan env run)
  | .selectNextAction => some (selectNextAction env run)
  | .policyGate => policyGate env run
  | .executeTool => executeTool env run
  | .saveObservation => saveObservation run
  | .evaluateGoal => some (evaluateGoal run)
  | .replan => replan run
  | .calculateCoverageResult => calculateCoverageResult env run
  | .requireHuman => some (requireHuman run)
  | .blockCase => some (blockCase run)
  | .finalizeResult => some (finalizeResult run)
  | .finished => some run
  | .raised => some run

/-- The run after a node: the next one is chosen, and the node is noted. -/
def Run.advance (next : Run) : Run :=
  { next with node := nextNode run.node next.state, trace := run.trace ++ [run.node] }

/-- A node of the graph runs. A run that has ended stays as it is. -/
def step : Run :=
  if run.node = .finished ∨ run.node = .raised then run
  else
    match execute env run with
    | some next => run.advance next
    | none => { run with node := .raised, trace := run.trace ++ [run.node] }

/-- The state that `_run_with_session` starts the graph with. -/
def initialState : GraphState :=
  { caseStatus := .new
    stopReason := none
    missingFields := []
    iteration := 0
    plan := none
    evidence := []
    identicalCallCounts := ∅
    successfulCallHashes := ∅
    nextAction := none
    currentToolCall := none
    currentObservation := none
    coverageResult := none
    humanAction := none
    recommendation := none
    summary := none
    status := none
    requiresHumanReview := false }

def start (metadata : CaseMetadata) : Run :=
  { node := .validateRequest, state := initialState, metadata, asked := 0, invocations := [],
    trace := [] }

def runFor (metadata : CaseMetadata) : Nat → Run
  | 0 => start metadata
  | n + 1 => step env (runFor metadata n)

end AgentBack.KT1

/-!
# A case between its runs (`agents/procurement_agent/service.py`)

What a case keeps when a run has ended, and what the next run starts with. A request with the
idempotency key of the case that failed at the planner starts it anew; a request with a new key goes
on with what is stored.
-/

namespace AgentBack.KT1

open Orchestrator (CaseStatus)

/-- `ProcurementCase`, the columns that a run writes and the next one reads. -/
structure CaseRecord where
  status : CaseStatus
  deviationSummary : Option String
  errorMessage : Option String
  /-- The summary of `latest_result`, if there is one. -/
  latestResult : Option (Option String)
  metadata : CaseMetadata

def retryableFailureMarkers : List String :=
  ["PlannerUnavailableError", "ConnectError", "Procurement LLM is unavailable",
    "Не удалось сформировать план", "Планировщик не может выбрать безопасное действие",
    "ClaudeHub request failed", "Обязательная возможность MCP недоступна: onec_get_free_stock",
    "free_stock_semantics_unavailable", "Превышено допустимое количество одинаковых вызовов",
    "identical_call_limit"]

/-- The texts of a case that say why it failed. -/
def CaseRecord.failureSummary (record : CaseRecord) : String :=
  " ".intercalate ([record.deviationSummary.getD "", record.errorMessage.getD "",
    (record.latestResult.bind id).getD ""].filter fun part => part ≠ "")

def CaseRecord.isRetryablePlannerFailure (record : CaseRecord) : Bool :=
  decide (record.status = .humanRequired ∨ record.status = .blocked ∨ record.status = .failed) &&
    retryableFailureMarkers.any fun marker => Text.contains marker record.failureSummary

def CaseRecord.resetRetryableCase (record : CaseRecord) : CaseRecord :=
  { record with
    status := .new
    deviationSummary := none
    errorMessage := none
    latestResult := none
    metadata := { checkpoint := none, evidence := [], activePlan := none } }

/-- What `_run_with_session` starts the graph with; without a value where it answers with the result
that is stored. -/
def CaseRecord.prepare (record : CaseRecord) (replay : Bool) : Option CaseRecord :=
  if replay && record.isRetryablePlannerFailure then some record.resetRetryableCase
  else if replay && record.latestResult.isSome then none
  else some record

/-- What `_run_with_session` stores when the graph has ended. -/
def CaseRecord.store (record : CaseRecord) (run : Run) : CaseRecord :=
  let failed := run.state.caseStatus = .failed ∨ run.state.caseStatus = .blocked
  { record with
    status := run.state.caseStatus
    errorMessage := if failed then run.state.summary else none
    latestResult := some run.state.summary
    metadata := (run.saveCheckpoint run.state
      (run.metadata.activePlan.or run.state.plan)).metadata }

/-- A run of the case on a request, with a number of nodes that the graph runs. -/
def CaseRecord.run (record : CaseRecord) (env : Env) (replay : Bool) (n : Nat) : CaseRecord :=
  match record.prepare replay with
  | some prepared => prepared.store (runFor env prepared.metadata n)
  | none => record

end AgentBack.KT1
