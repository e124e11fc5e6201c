import AgentBack.KT1.Coverage
import AgentBack.KT1.Policy
import AgentBack.Orchestrator.Records

/-!
# The records of a KT1 case (`agents/procurement_agent/schemas.py`, `planner.py`, `planning.py`)

The plan, the evidence and the decisions of the planner, and what a case keeps of them between runs:
a checkpoint, the evidence and the plan that is active. The arguments of an evidence item are those
of the call that it came from; the source keeps their hash alone, and no step reads them.
-/

namespace AgentBack.KT1

open Py (Value)

/-- `ProcurementPlanStep.status`. -/
inductive StepStatus where
  | pending
  | running
  | completed
  | blocked
  | skipped
  deriving DecidableEq

/-- `ProcurementPlanStep`. -/
structure PlanStep where
  stepId : String
  objective : String
  status : StepStatus
  resultSummary : Option String
  blockingReason : Option String

/-- `ProcurementPlan.status`. -/
inductive PlanStatus where
  | active
  | completed
  | blocked
  | superseded
  deriving DecidableEq

/-- `ProcurementPlan`. -/
structure Plan where
  goal : String
  version : Nat
  status : PlanStatus
  steps : List PlanStep
  expectedEvidence : List String
  replanReason : Option String

abbrev Arguments := Dict String Value

/-- `ProcurementEvidence.freshness_status`. -/
inductive Freshness where
  | fresh
  | stale
  | unknown
  deriving DecidableEq

/-- `ProcurementEvidence.status`. -/
inductive EvidenceStatus where
  | success
  | capabilityUnavailable
  | failed
  deriving DecidableEq

/-- `ProcurementEvidence`, with the arguments of the call. -/
structure Evidence where
  evidenceId : String
  toolName : String
  data : Value
  freshness : Freshness
  argsHash : String
  status : EvidenceStatus
  errorMessage : Option String
  arguments : Arguments

/-- The answer is a success and confirmed to be up to date. -/
def Evidence.freshSuccess (item : Evidence) : Bool :=
  item.status == .success && item.freshness == .fresh

/-- `ProcurementNextAction.action`. -/
inductive ActionKind where
  | tool
  | complete
  | replan
  | humanRequired
  deriving DecidableEq

/-- `ProcurementNextAction`. -/
structure NextAction where
  action : ActionKind
  stepId : Option String
  toolName : Option String
  arguments : Arguments
  shortReason : String
  replanSteps : List PlanStep
  expectedEvidence : List String

/-- `current_tool_call`. -/
structure ToolCall where
  toolName : String
  arguments : Arguments
  argsHash : String
  stepId : Option String

/-- `checkpoint` of the metadata. -/
structure Checkpoint where
  iteration : Nat
  plan : Option Plan
  evidence : List Evidence
  identicalCallCounts : Dict String Nat
  successfulCallHashes : Dict String String

structure CaseMetadata where
  checkpoint : Option Checkpoint
  evidence : List Evidence
  activePlan : Option Plan

/-! ## The plan of a case -/

variable (metadata : CaseMetadata)

def CaseMetadata.getActivePlan : Option Plan :=
  metadata.activePlan.filter fun plan => plan.status = .active

/-- `_store`. -/
def CaseMetadata.storePlan (plan : Plan) : CaseMetadata :=
  { metadata with activePlan := some plan }

/-- `create_plan` of the adapter, of a goal and steps. -/
def newPlan (goal : String) (steps : List PlanStep) (expectedEvidence : List String) : Plan :=
  { goal, version := 1, status := .active, steps, expectedEvidence, replanReason := none }

/-- The first step of an id takes a status. -/
def updateFirst (stepId : String) (status : StepStatus) (resultSummary blockingReason : Option String) :
    List PlanStep → List PlanStep
  | [] => []
  | step :: rest =>
    if step.stepId = stepId then { step with status, resultSummary, blockingReason } :: rest
    else step :: updateFirst stepId status resultSummary blockingReason rest

/-- `update_step`, without a value where it raises. -/
def CaseMetadata.updateStep (stepId : String) (status : StepStatus)
    (resultSummary blockingReason : Option String) : Option CaseMetadata :=
  metadata.getActivePlan.bind fun plan =>
    if plan.steps.any fun step => step.stepId = stepId then
      some (metadata.storePlan
        { plan with steps := updateFirst stepId status resultSummary blockingReason plan.steps })
    else none

def CaseMetadata.addEvidence (item : Evidence) : CaseMetadata :=
  if metadata.evidence.any fun known => known.evidenceId = item.evidenceId then metadata
  else { metadata with evidence := metadata.evidence ++ [item] }

/-- `replan` of the adapter, without a value where it raises. -/
def CaseMetadata.replan (decision : NextAction) :
    Option (Plan × CaseMetadata) :=
  metadata.getActivePlan.map fun plan =>
    let plan := { plan with
      version := plan.version + 1
      steps := decision.replanSteps
      expectedEvidence := decision.expectedEvidence
      replanReason := some decision.shortReason }
    (plan, metadata.storePlan plan)

/-- `complete_plan`, without a value where it raises. -/
def CaseMetadata.completePlan : Option CaseMetadata :=
  metadata.getActivePlan.map fun plan => metadata.storePlan { plan with status := .completed }

def CaseMetadata.blockPlan (reason : String) : CaseMetadata :=
  match metadata.getActivePlan with
  | some plan => metadata.storePlan { plan with status := .blocked, replanReason := some reason }
  | none => metadata

end AgentBack.KT1

/-!
# The runtime of the purchasing agent (`agents/procurement_agent/runtime.py`)

The arguments of a tool are bound to the data of the request before it is called. The positions come
from the request, from the evidence of the need lines or from a single reference, the supplies from
the evidence of the other tools, and what is wrong with any of them is an issue of the calculation.
What pydantic makes of a raw position or supply, and the hash of the arguments, are parameters.
-/

namespace AgentBack.KT1

open Py (Value strOf)

/-- `ProcurementAgentRequest`, the fields that the graph reads. -/
structure KT1Request where
  correlationId : String
  sourceType : String
  source1cRef : String
  requestedOperation : String
  autonomyLevel : Fin 3
  sourceData : Value
  sourceData_isDict : sourceData.isDict = true

structure Library where
  py : Py.Reading
  /-- `_stable_hash`. -/
  stableHash : Arguments → String
  /-- `ProcurementNeedPosition.model_validate`, without a value where it raises. -/
  readPosition : Value → Option NeedPosition
  /-- `ProcurementSupplyItem.model_validate`, without a value where it raises. -/
  readSupply : Value → Option SupplyItem

/-- `isinstance(value, list)`. -/
def isList : Value → Bool
  | .list _ => true
  | _ => false

/-- What iterating over `value or []` gives, without a value where it raises. -/
def iterItems : Value → Option (List Value)
  | .null => some []
  | .bool value => if value then none else some []
  | .num value _ => if value = 0 then some [] else none
  | .str text => some (text.toList.map fun c => .str (String.singleton c))
  | .list items => some items
  | .dict fields => some (fields.map fun field => .str field.1)

variable (lib : Library)

def nomenclatureIds (positions : List Value) : List String :=
  (positions.filter fun position => (position.get "nomenclature_id").truthy).map fun position =>
    strOf lib.py (position.get "nomenclature_id")

/-- The arguments of a reading tool are bound to the positions of the request. -/
def bindPositions (positions : List Value) (arguments : Arguments) : Arguments :=
  let ids := nomenclatureIds lib positions
  if ids.isEmpty then arguments
  else arguments.set "nomenclature_ids" (.list (ids.eraseDups.map .str))

variable (sourceData : Value)

/-- The arguments of a reading tool are bound to the warehouses of the request. -/
def bindWarehouses (arguments : Arguments) : Arguments :=
  match sourceData.get "warehouse_ids" with
  | .list warehouses =>
    arguments.set "warehouse_ids" (.list (warehouses.map fun id => .str (strOf lib.py id)))
  | _ => arguments

/-- The arguments of a reading tool are bound to the organization of the request. -/
def bindOrganization (arguments : Arguments) : Arguments :=
  let organization := sourceData.get "organization_id"
  if organization.truthy then
    arguments.set "organization_id" (.str (strOf lib.py organization))
  else arguments

/-- `_bind_trusted_tool_arguments`, without a value where it raises. -/
def bindTrustedToolArguments (request : KT1Request) (toolName : String) (proposed : Arguments) :
    Option Arguments :=
  let arguments := proposed.set "correlation_id" (.str request.correlationId)
  if toolName = needLinesTool then
    some ((arguments.set "source_type" (.str request.sourceType)).set "source_1c_ref"
      (.str request.source1cRef))
  else if toolName ∈ readOnlyToolNames then
    (iterItems (request.sourceData.get "positions")).map fun positions =>
      bindOrganization lib request.sourceData
        (bindWarehouses lib request.sourceData (bindPositions lib positions arguments))
  else some arguments

/-! ## Positions and supplies -/

def singlePosition : Value :=
  let nomenclature := sourceData.get "nomenclature_ref"
  let lineId := sourceData.get "line_id"
  let name := sourceData.get "nomenclature_name"
  .dict
    [("line_id", .str (if lineId.truthy then strOf lib.py lineId else "source-line-1")),
      ("nomenclature_id", nomenclature),
      ("nomenclature_name", if name.truthy then name else .str (strOf lib.py nomenclature)),
      ("unit", sourceData.get "unit"),
      ("gross_quantity", sourceData.get "quantity"),
      ("required_date", sourceData.get "requested_date"),
      ("calculation_source", .str "direct_material_quantity")]

variable (evidence : List Evidence)

def needEvidence : Option Evidence :=
  evidence.find? fun item => item.toolName = needLinesTool ∧ item.status = .success

def rawPositions : Value :=
  let given := sourceData.get "positions"
  let raw := if isList given then given
    else ((needEvidence evidence).map fun item => item.data.get "positions").getD .null
  if !isList raw && (sourceData.get "nomenclature_ref").truthy then
    .list [singlePosition lib sourceData]
  else raw

def readPositions (raw : List Value) : List NeedPosition := raw.filterMap lib.readPosition

def positionIssues (raw : List Value) : List String :=
  ((raw.zipIdx 1).filter fun entry => (lib.readPosition entry.1).isNone).map (fun entry =>
    "Некорректный формат строки потребности " ++ toString entry.2 ++ ".") ++
  if (readPositions lib raw).isEmpty then ["Не получены строки исходной потребности."] else []

/-- `_extract_positions`, without a value where it raises. -/
def extractPositions :
    Option (List NeedPosition × List String) :=
  (iterItems (rawPositions lib sourceData evidence)).map fun raw =>
    (readPositions lib raw, positionIssues lib raw)

def supplyCandidate (item : Evidence) (raw : Value) : Value :=
  match raw with
  | .dict fields =>
    if fields.any fun field => field.1 = "evidence_id" then raw
    else .dict (fields ++ [("evidence_id", .str item.evidenceId)])
  | _ => .dict [("evidence_id", .str item.evidenceId)]

def Evidence.givesSupplies (item : Evidence) : Bool :=
  item.status == .success && item.toolName != needLinesTool

def rawSupplies (item : Evidence) : List Value :=
  (item.data.get "items").listItems.map (supplyCandidate item)

def supplyIssuesOf (item : Evidence) : List String :=
  if isList (item.data.get "items") then
    (((rawSupplies item).zipIdx 1).filter fun entry => (lib.readSupply entry.1).isNone).map
      fun entry => "Некорректная запись обеспечения " ++ toString entry.2 ++
        " в доказательстве " ++ item.evidenceId ++ "."
  else
    ["Доказательство " ++ item.evidenceId ++ " не содержит типизированный список items."]

def extractSupplies : List SupplyItem × List String :=
  let items := evidence.filter Evidence.givesSupplies
  (items.flatMap fun item => (rawSupplies item).filterMap lib.readSupply,
    items.flatMap (supplyIssuesOf lib))

/-- The tools that every case needs. -/
def alwaysRequired : List String :=
  ["onec_get_free_stock", "onec_get_reservations", "onec_get_store_room_stock",
    "onec_get_open_supplier_orders", "onec_get_goods_in_transit", "onec_get_internal_transfers"]

def mandatoryTools : List String :=
  if !isList (sourceData.get "positions") && !(sourceData.get "nomenclature_ref").truthy then
    alwaysRequired ++ [needLinesTool]
  else alwaysRequired

def mandatoryCapabilityIssues : List String :=
  (sortBy (fun name => name) ((mandatoryTools sourceData).filter fun name =>
    !(evidence.any fun item => item.status = .success ∧ item.toolName = name))).map fun name =>
      "Отсутствует обязательное доказательство от " ++ name ++ "."

/-- The issues of evidence that may be out of date. -/
def freshnessIssues : List String :=
  (evidence.filter fun item => item.status = .success ∧ item.freshness ≠ .fresh).map fun item =>
    "Доказательство " ++ item.evidenceId ++ " не имеет подтверждённой актуальности."

def failedIssues : List String :=
  (evidence.filter fun item => item.status = .capabilityUnavailable).map fun item =>
    "Возможность " ++ item.toolName ++ " недоступна."

/-- What `ProcurementRuntime.calculate_coverage` calculates with, without a value where it raises. -/
def coverageInput (caseId : String) (request : KT1Request) (evidence : List Evidence) :
    Option CoverageInput :=
  (extractPositions lib request.sourceData evidence).map fun positions =>
    let supplies := extractSupplies lib evidence
    { caseId
      sourceBasis := [("source_type", request.sourceType), ("source_1c_ref", request.source1cRef),
        ("correlation_id", request.correlationId)]
      positions := positions.1
      supplies := supplies.1
      evidenceIds := evidence.map Evidence.evidenceId
      dataIssues := (positions.2 ++ supplies.2 ++
        mandatoryCapabilityIssues request.sourceData evidence ++ freshnessIssues evidence ++
        failedIssues evidence).eraseDups }

/-- An answer of a tool, as `_evidence_from_response` takes it apart. -/
structure ToolResponse where
  data : Value
  freshness : Freshness
  status : EvidenceStatus
  errorMessage : Option String

def evidenceFromResponse (response : ToolResponse) (evidenceId : String) (call : ToolCall) :
    Evidence :=
  { evidenceId
    toolName := call.toolName
    data := response.data
    freshness := response.freshness
    argsHash := call.argsHash
    status := response.status
    errorMessage := response.errorMessage
    arguments := call.arguments }

/-- The evidence of the same call that is still good. -/
def cachedEvidence (call : ToolCall) : Option Evidence :=
  evidence.find? fun item =>
    item.argsHash = call.argsHash ∧ item.toolName = call.toolName ∧ item.freshSuccess = true

end AgentBack.KT1
