import AgentBack.Supply.Requirements

/-!
# The preparation engineer (`production_preparation_engineer_agent/calculator.py`)

The materials that the products of a case require are served in the order of their dates from the
supplies; what a position takes is gone for the positions after it. A line also carries the
`material` it is about and `included`, what it takes of which supply, which the source does not keep.
The texts of recommendations and summaries and the fingerprint are left out; an assessment that
raises has no answer.
-/

namespace AgentBack.Engineer

open Procurement (DateTime)
open Supply (ValidationIssue isGiven instant before comparable dayMicros)

/-! ## Which supplies count -/

/-- `OTHER_WAREHOUSE_TYPES`. -/
def SourceType.isStock : SourceType → Bool
  | .warehouse | .storeRoom => true
  | _ => false

def futureSupplyTypes : List SourceType := [.supplierOrder, .inTransit, .productionPlan]

def SourceType.value : SourceType → String
  | .warehouse => "warehouse"
  | .storeRoom => "store_room"
  | .semifinished => "semifinished"
  | .inTransit => "in_transit"
  | .supplierOrder => "supplier_order"
  | .internalTransfer => "internal_transfer"
  | .workInProgress => "work_in_progress"
  | .reservation => "reservation"
  | .existingCase => "existing_case"
  | .productionPlan => "production_plan"

inductive ExclusionReason where
  | unconfirmed
  | reservedForOtherOrder
  | forbiddenSafetyStock
  | quarantine
  | defective
  | blocked
  | incomingControlNotPassed
  | overdueWithoutConfirmedDate
  | useNotAllowed
  | analogueNotApproved
  | unitMismatch
  | characteristicMismatch
  | availableAfterRequiredDate
  | alreadyAllocated
  deriving DecidableEq

def exclusionReason (supply : SupplyItem) (material : Material) (requiredDate : DateTime) :
    Option ExclusionReason :=
  if ¬supply.confirmed then some .unconfirmed
  else if supply.reservedForOther then some .reservedForOtherOrder
  else if supply.safetyStockForbidden then some .forbiddenSafetyStock
  else if supply.quarantine then some .quarantine
  else if supply.defective then some .defective
  else if supply.blocked then some .blocked
  else if ¬supply.incomingControlPassed then some .incomingControlNotPassed
  else if supply.expired then some .overdueWithoutConfirmedDate
  else if ¬supply.suitable ∨ ¬supply.useAllowed then some .useNotAllowed
  else if ¬supply.exactMatch then some .analogueNotApproved
  else if some supply.unit ≠ material.unit ∧ supply.unit ≠ "base_unit" then some .unitMismatch
  else if isGiven material.characteristicId ∧
      supply.characteristicId ≠ material.characteristicId then
    some .characteristicMismatch
  else if supply.availableAt.any fun at_ => instant requiredDate < instant at_ then
    some .availableAfterRequiredDate
  else none

/-- Stock on the warehouse of the case, or on none that is named. -/
def SupplyItem.isFree (supply : SupplyItem) (case : CaseInput) : Bool :=
  supply.sourceType.isStock &&
    (!isGiven supply.warehouseId || decide (supply.warehouseId = case.warehouseRef))

/-- `_aware_datetime(value.available_at) if value.available_at else now`. -/
def SupplyItem.moment (supply : SupplyItem) (now : DateTime) : DateTime :=
  supply.availableAt.elim now fun value => ⟨value.wall, some (value.utcOffset.getD 0)⟩

def supplyOrder (case : CaseInput) (now : DateTime) (supply : SupplyItem) : ℕ ×ₗ ℤ ×ₗ String :=
  toLex (if supply.isFree case then 0 else 1,
    toLex (instant (supply.moment now), supply.supplyId))

/-- The supplies in their order; no answer when their datetimes do not compare, which only matters
between two supplies of the same rank. -/
def sortSupplies (case : CaseInput) (now : DateTime) (supplies : List SupplyItem) :
    Option (List SupplyItem) :=
  let free := supplies.filter fun supply => supply.isFree case
  let other := supplies.filter fun supply => !supply.isFree case
  if comparable (free.map fun supply => supply.moment now) ∧
      comparable (other.map fun supply => supply.moment now) then
    some (sortBy (supplyOrder case now) supplies)
  else none

structure ExcludedSupply where
  supplyId : String
  sourceType : SourceType
  quantity : ℚ
  reason : ExclusionReason
  evidenceId : Option String
  deriving DecidableEq

/-- The variables of the loop over the supplies. -/
structure DrawState where
  remaining : Dict String ℚ
  included : List (SupplyItem × ℚ)
  excluded : List ExcludedSupply

def DrawState.exclude (s : DrawState) (supply : SupplyItem) (reason : ExclusionReason) :
    DrawState where
  remaining := s.remaining
  included := s.included
  excluded := s.excluded ++
    [⟨supply.supplyId, supply.sourceType, supply.quantity, reason, supply.evidenceId⟩]

def DrawState.taken (s : DrawState) : ℚ := (s.included.map Prod.snd).sum

/-- The loop over the supplies, which stops where nothing is needed any more. -/
def drawSupplies (material : Material) (requiredDate : DateTime) (gross : ℚ) :
    List SupplyItem → DrawState → DrawState
  | [], s => s
  | supply :: rest, s =>
    if supply.nomenclatureId ≠ material.nomenclatureId then
      drawSupplies material requiredDate gross rest s
    else
      match exclusionReason supply material requiredDate with
      | some reason =>
        drawSupplies material requiredDate gross rest (s.exclude supply reason)
      | none =>
        let available := s.remaining.getD supply.supplyId 0
        if available ≤ 0 then
          drawSupplies material requiredDate gross rest (s.exclude supply .alreadyAllocated)
        else
          let needed := max 0 (gross - s.taken)
          if needed ≤ 0 then s
          else
            let allocated := min needed available
            drawSupplies material requiredDate gross rest
              { s with
                remaining := s.remaining.set supply.supplyId (available - allocated)
                included := s.included ++ [(supply, allocated)] }

/-! ## The verdict on a position -/

inductive Criticality where
  | normal
  | high
  | critical
  deriving DecidableEq

/-- `now + timedelta(days=days)`. -/
def plusDays (now : DateTime) (days : Int) : DateTime := { now with wall := now.wall + dayMicros days }

def criticality (need : NeedLine) (net : ℚ) (now requiredDate : DateTime)
    (hasConfirmedFutureSupply : Bool) : Option Criticality :=
  if net ≤ 0 then some .normal
  else do
    let leadTimeBreached ← need.procurementLeadDays.elim (some false) fun days =>
      before requiredDate (plusDays now days)
    let noAnalogue := decide (need.acceptableAnalogAvailable = some false)
    if (need.stageCannotStartWithoutMaterial && noAnalogue && !hasConfirmedFutureSupply) ||
        leadTimeBreached || need.criticalProductionOrder || need.sectionStopRisk then
      return .critical
    if need.longLeadTime then return .high
    let later ← before (plusDays now 14) requiredDate
    return if later then .normal else .high

inductive Outcome where
  | fullyCovered
  | transferRequired
  | partiallyCovered
  | coveredByOpenOrder
  | procurementRequired
  | criticalShortage
  deriving DecidableEq

/-- What the supplies of one source type give, and their ids. -/
structure SupplyBreakdown where
  quantity : ℚ
  supplyIds : List String
  deriving DecidableEq

/-- The body of the loop over what is included. -/
def addBreakdown (d : Dict SourceType SupplyBreakdown) (item : SupplyItem × ℚ) :
    Dict SourceType SupplyBreakdown :=
  let known := d.getD item.1.sourceType ⟨0, []⟩
  d.set item.1.sourceType ⟨known.quantity + item.2, known.supplyIds ++ [item.1.supplyId]⟩

/-- `breakdown.get(source_type, Decimal("0"))`. -/
def givenBy (breakdown : Dict SourceType SupplyBreakdown) (sourceType : SourceType) : ℚ :=
  (breakdown.getD sourceType ⟨0, []⟩).quantity

def outcome (gross net : ℚ) (breakdown : Dict SourceType SupplyBreakdown)
    (criticality : Criticality) : Outcome :=
  if criticality = .critical ∧ net > 0 then .criticalShortage
  else if net > 0 ∧ gross > net then .partiallyCovered
  else if net > 0 then .procurementRequired
  else if ∃ sourceType ∈ futureSupplyTypes, givenBy breakdown sourceType > 0 then
    .coveredByOpenOrder
  else if givenBy breakdown .internalTransfer > 0 then .transferRequired
  else .fullyCovered

/-- `EngineerCriticalImpact`. -/
structure CriticalImpact where
  productionOrder : Option String
  productionStage : Option String
  shortageStartDate : DateTime
  possibleStopDate : Option DateTime
  unprovidedProductQuantity : Option ℚ
  consequence : String
  deriving DecidableEq

structure AssessmentLine where
  lineId : String
  nomenclatureId : String
  characteristicId : Option String
  unit : String
  productionOrder : Option String
  productionStage : Option String
  productQuantity : ℚ
  grossRequirement : ℚ
  freeStock : ℚ
  availableOtherWarehouses : ℚ
  warehouseStockBefore : ℚ
  warehouseStockRemaining : ℚ
  confirmedArrivals : ℚ
  totalAvailableSupply : ℚ
  netRequirement : ℚ
  requiredDate : DateTime
  criticality : Criticality
  outcome : Outcome
  specificationId : String
  specificationVersion : Option String
  supplyBreakdown : List (SourceType × SupplyBreakdown)
  excludedSupply : List ExcludedSupply
  linkedDocuments : List (String × String × SourceType)
  criticalImpact : Option CriticalImpact
  evidenceIds : List String
  material : Material
  included : List (SupplyItem × ℚ)

/-- `sorted({value for value in values if value})`. -/
def sortedTexts (values : List (Option String)) : List String :=
  sortBy id (Supply.distinct (values.filterMap fun value => value.filter (· ≠ "")))

/-- `gross_requirement`. -/
def Requirement.gross (requirement : Requirement) : ℚ :=
  requirement.quantity * requirement.material.consumptionRate *
    (1 + requirement.material.technologicalLossPercent / 100)

/-- `sum(quantity for supply, quantity in included if ...)`. -/
def includedSum (test : SupplyItem → Bool) (included : List (SupplyItem × ℚ)) : ℚ :=
  ((included.filter fun item => test item.1).map Prod.snd).sum

/-- The body of the loops over the positions: the line and what remains after it. -/
def assessRequirement (case : CaseInput) (supplies : List SupplyItem) (now : DateTime)
    (remaining : Dict String ℚ) (requirement : Requirement) :
    Option (AssessmentLine × Dict String ℚ) := do
  let material := requirement.material
  let need := requirement.need
  let requiredDate ← need.requiredDate <|> case.requiredDate
  let gross := requirement.gross
  let warehouseStockBefore := ((supplies.filter fun supply =>
    decide (supply.nomenclatureId = material.nomenclatureId) && supply.isFree case &&
      decide (exclusionReason supply material requiredDate = none)).map fun supply =>
        remaining.getD supply.supplyId 0).sum
  let rows ← sortSupplies case now supplies
  let drawn := drawSupplies material requiredDate gross rows ⟨remaining, [], []⟩
  let breakdown := drawn.included.foldl addBreakdown ∅
  let available := (breakdown.values.map SupplyBreakdown.quantity).sum
  let net := max 0 (gross - available)
  let criticality ← criticality need net now requiredDate
    (futureSupplyTypes.any fun sourceType => givenBy breakdown sourceType > 0)
  let freeStock := includedSum (fun supply => supply.isFree case) drawn.included
  let productionOrder := Supply.givenOr case.productionOrderNumber case.productionOrderRef
  let productionStage := Supply.givenOr material.productionStageName need.productionStageName
  let impact : CriticalImpact :=
    { productionOrder
      productionStage
      shortageStartDate := requiredDate
      possibleStopDate := if need.sectionStopRisk then some requiredDate else none
      unprovidedProductQuantity :=
        if material.consumptionRate > 0 then some (net / material.consumptionRate) else none
      consequence :=
        if need.stageCannotStartWithoutMaterial ∨ need.sectionStopRisk then
          "Производственный этап не сможет начаться или участок будет остановлен."
        else "Нарушается срок критического производственного заказа." }
  return (
    { lineId := "+".intercalate requirement.lineIds ++ ":" ++ material.lineId
      nomenclatureId := material.nomenclatureId
      characteristicId := material.characteristicId
      unit := material.unit.getD ""
      productionOrder
      productionStage
      productQuantity := requirement.quantity
      grossRequirement := gross
      freeStock
      availableOtherWarehouses := includedSum (fun supply => supply.sourceType.isStock &&
        isGiven supply.warehouseId && decide (supply.warehouseId ≠ case.warehouseRef))
        drawn.included
      warehouseStockBefore
      warehouseStockRemaining := max 0 (warehouseStockBefore - freeStock)
      confirmedArrivals := (futureSupplyTypes.map (givenBy breakdown)).sum
      totalAvailableSupply := available
      netRequirement := net
      requiredDate
      criticality
      outcome := outcome gross net breakdown criticality
      specificationId := requirement.specificationId
      specificationVersion := requirement.specificationVersion
      supplyBreakdown := sortBy (fun item => item.1.value) breakdown.items
      excludedSupply := drawn.excluded
      linkedDocuments := (drawn.included.filter fun item =>
        isGiven item.1.linkedDocumentNumber || isGiven item.1.linkedDocumentRef).map fun item =>
          (item.1.linkedDocumentNumber.getD "", item.1.linkedDocumentRef.getD "",
            item.1.sourceType)
      criticalImpact := if criticality = .critical then some impact else none
      evidenceIds := sortedTexts (requirement.specificationEvidenceId ::
        drawn.included.map fun item => item.1.evidenceId)
      material
      included := drawn.included },
    drawn.remaining)

def assessRequirements (case : CaseInput) (supplies : List SupplyItem) (now : DateTime) :
    Dict String ℚ → List Requirement → Option (List AssessmentLine)
  | _, [] => some []
  | remaining, requirement :: rest => do
    let done ← assessRequirement case supplies now remaining requirement
    let later ← assessRequirements case supplies now done.2 rest
    return done.1 :: later

structure EngineerOutput where
  positions : List AssessmentLine
  validationIssues : List ValidationIssue
  missingData : List String
  excludedCapabilities : List String
  evidenceIds : List String

/-- The loop over the products: the issues of their specifications and the products that have one. -/
def selectSpecifications (casefold : String → String) (case : CaseInput)
    (specifications : List ResourceSpecification) (now : DateTime) :
    List NeedLine → Option (List ValidationIssue × List Selected)
  | [] => some ([], [])
  | need :: rest => do
    let productionDate := (need.requiredDate <|> case.requiredDate).getD now
    let spec ← selectResourceSpecification casefold need specifications productionDate
    let later ← selectSpecifications casefold case specifications now rest
    return (validateSpecification need spec ++ later.1,
      spec.elim later.2 fun spec => (need, spec) :: later.2)

/-- The requirements in the order of their dates; no answer when these do not compare. -/
def sortRequirements (case : CaseInput) (now : DateTime) (requirements : List Requirement) :
    Option (List Requirement) :=
  let date (requirement : Requirement) :=
    (requirement.need.requiredDate <|> case.requiredDate).getD now
  if comparable (requirements.map date) then
    some (sortBy (fun requirement => instant (date requirement)) requirements)
  else none

/-- `remaining` before the first position. -/
def initialRemaining (supplies : List SupplyItem) : Dict String ℚ :=
  Dict.ofList (supplies.map fun item => (item.supplyId, item.quantity))

def calculateEngineerAssessment (casefold : String → String) (case : CaseInput)
    (needs : List NeedLine) (specifications : List ResourceSpecification)
    (supplies : List SupplyItem) (capabilityIssues : List String) (now : DateTime) :
    Option EngineerOutput := do
  let selection ← selectSpecifications casefold case specifications now needs
  let issues := validateCase casefold case needs ++ selection.1 ++ conflictingSupplies ∅ supplies
  if issues ≠ [] then
    return {
      positions := []
      validationIssues := issues
      missingData := issues.map ValidationIssue.message
      excludedCapabilities := Supply.distinct capabilityIssues
      evidenceIds := [] }
  let requirements ← sortRequirements case now
    (aggregateSelectedRequirements selection.2 (case.requiredDate.getD now))
  let positions ← assessRequirements case supplies now (initialRemaining supplies) requirements
  return {
    positions
    validationIssues := []
    missingData := []
    excludedCapabilities := Supply.distinct capabilityIssues
    evidenceIds := sortBy id (Supply.distinct (positions.flatMap AssessmentLine.evidenceIds)) }

end AgentBack.Engineer
