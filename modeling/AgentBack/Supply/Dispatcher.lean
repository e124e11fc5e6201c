import AgentBack.Supply.Records
import Mathlib.Data.Rat.Floor

/-!
# The production dispatcher (`production_dispatcher_agent/calculator.py`)

For every position of a case the stock and the arrivals that it may be covered from, its thresholds,
and what the dispatcher proposes: to reserve, to transfer, to link an arrival or to buy.
`remaining` is what the supplies hold at the start; the loop over the positions reads it. Quantities
are exact rationals, and the constraints of the schema are fields. The texts of recommendations,
formulas and summaries and the fingerprint are left out.
-/

namespace AgentBack.Dispatcher

open Procurement (DateTime)
open Supply (ValidationIssue isGiven givenOr instant dayMicros)

/-! ## The records -/

inductive SourceType where
  | warehouse
  | storeRoom
  | inTransit
  | inProgress
  | supplierOrder
  | internalTransfer
  | workInProgress
  | semifinished
  | reservation
  | existingCase
  deriving DecidableEq

/-- `FREE_STOCK_TYPES` and `OTHER_WAREHOUSE_TYPES`. -/
def SourceType.isStock : SourceType → Bool
  | .warehouse | .storeRoom => true
  | _ => false

/-- `CONFIRMED_ARRIVAL_TYPES`. -/
def SourceType.isArrival : SourceType → Bool
  | .supplierOrder | .internalTransfer | .semifinished => true
  | .inTransit | .inProgress | .workInProgress => true
  | _ => false

structure CaseInput where
  sourceRef : String
  warehouseRef : Option String
  requiredDate : Option DateTime
  stockGrowthCoefficient : ℚ
  coefficient_nonneg : 0 ≤ stockGrowthCoefficient

structure NeedLine where
  lineId : String
  nomenclatureId : String
  nomenclatureName : String
  quantity : ℚ
  requiredDate : Option DateTime
  warehouseId : Option String
  minimumStock : Option ℚ
  maximumStock : Option ℚ
  reorderPoint : Option ℚ
  stockGrowthCoefficient : Option ℚ
  leadTimeDays : Option Nat
  dailyConsumption : Option ℚ
  productionDeficit : Option ℚ
  packageMultiple : Option ℚ
  quantity_pos : 0 < quantity
  minimum_nonneg : ∀ q, minimumStock = some q → 0 ≤ q
  maximum_nonneg : ∀ q, maximumStock = some q → 0 ≤ q
  reorder_nonneg : ∀ q, reorderPoint = some q → 0 ≤ q
  coefficient_nonneg : ∀ q, stockGrowthCoefficient = some q → 0 ≤ q
  consumption_nonneg : ∀ q, dailyConsumption = some q → 0 ≤ q
  deficit_nonneg : ∀ q, productionDeficit = some q → 0 ≤ q
  multiple_pos : ∀ q, packageMultiple = some q → 0 < q

structure SupplyItem where
  supplyId : String
  sourceType : SourceType
  nomenclatureId : String
  quantity : ℚ
  warehouseId : Option String
  availableAt : Option DateTime
  confirmed : Bool
  reservedForOther : Bool
  incomingControlPassed : Bool
  quarantine : Bool
  defective : Bool
  blocked : Bool
  expired : Bool
  suitable : Bool
  exactMatch : Bool
  useAllowed : Bool
  evidenceId : Option String
  quantity_nonneg : 0 ≤ quantity

def validateCase (case : CaseInput) (needs : List NeedLine) : List ValidationIssue :=
  (if case.sourceRef = "" then
    [{ code := "missing_source_ref"
       message := "Отсутствует ссылка на документ-основание 1С."
       field := some "source_1c_ref" }]
  else []) ++
  (if needs = [] then
    [{ code := "no_positions"
       message := "В кейсе нет позиций для расчёта диспетчера."
       field := some "positions" }]
  else []) ++
  needs.flatMap fun need =>
    (if need.nomenclatureId = "" then
      [{ code := "missing_nomenclature"
         message := "У позиции не указана номенклатура."
         lineId := some need.lineId
         field := some "nomenclature_id" }]
    else []) ++
    (if need.minimumStock = none ∧ need.reorderPoint = none then
      [{ code := "missing_minimum"
         message := "Для «" ++ need.nomenclatureName ++ "» не задан минимум или точка заказа."
         lineId := some need.lineId
         field := some "minimum_stock"
         blocking := false }]
    else [])

inductive ExclusionReason where
  | reservedForOther
  | quarantine
  | defective
  | blocked
  | expired
  | incomingControlFailed
  | unconfirmedSupply
  | unsuitable
  | analogueNotApproved
  | nonPositive
  | alreadyAllocated
  deriving DecidableEq

def exclusionReason (supply : SupplyItem) : Option ExclusionReason :=
  if supply.reservedForOther then some .reservedForOther
  else if supply.quarantine then some .quarantine
  else if supply.defective then some .defective
  else if supply.blocked then some .blocked
  else if supply.expired then some .expired
  else if ¬supply.incomingControlPassed ∧ supply.sourceType.isStock then
    some .incomingControlFailed
  else if ¬supply.confirmed ∧ supply.sourceType.isArrival then some .unconfirmedSupply
  else if ¬supply.suitable ∨ ¬supply.useAllowed then some .unsuitable
  else if ¬supply.exactMatch then some .analogueNotApproved
  else if supply.quantity ≤ 0 then some .nonPositive
  else none

/-! ## Thresholds -/

def roundHalfEven (value : ℚ) : Int :=
  let below := ⌊value⌋
  let rest := value - below
  if rest < 1 / 2 then below
  else if rest > 1 / 2 then below + 1
  else if below % 2 = 0 then below
  else below + 1

/-- `value.quantize(Decimal("0.001"))`. -/
def quantize (value : ℚ) : ℚ := roundHalfEven (value * 1000) / 1000

/-- `first or second` of two quantities. -/
def nonzeroOr (first : Option ℚ) (second : ℚ) : ℚ :=
  match first with
  | some value => if value = 0 then second else value
  | none => second

structure Thresholds where
  minimum : ℚ
  maximum : ℚ
  reorderPoint : ℚ
  coefficient : ℚ
  deriving DecidableEq

def resolveThresholds (need : NeedLine) (caseCoefficient : ℚ) : Thresholds :=
  let coefficient := nonzeroOr need.stockGrowthCoefficient (nonzeroOr (some caseCoefficient) 1)
  let coefficient := if coefficient ≤ 0 then 1 else coefficient
  let rawMin := need.minimumStock.getD 0
  let rawMax := need.maximumStock.getD 0
  let rawMax := if rawMax ≤ 0 ∧ need.quantity > 0 then need.quantity else rawMax
  let rawMin := if rawMin ≤ 0 ∧ rawMax > 0 then quantize (rawMax / 3) else rawMin
  let minimum := quantize (rawMin * coefficient)
  let maximum := quantize (rawMax * coefficient)
  let reorderPoint :=
    match need.reorderPoint, need.dailyConsumption.filter (· ≠ 0), need.leadTimeDays with
    | some point, _, _ => quantize (point * coefficient)
    | none, some daily, some days => quantize (daily * days + minimum)
    | none, _, _ => minimum
  let reorderPoint := if reorderPoint < minimum then minimum else reorderPoint
  { minimum
    maximum := if maximum < reorderPoint then reorderPoint else maximum
    reorderPoint
    coefficient }

def ceilMultiple (quantity : ℚ) (multiple : Option ℚ) : ℚ :=
  match multiple with
  | none => quantity
  | some multiple =>
    if multiple ≤ 0 ∨ quantity ≤ 0 then quantity else ⌈quantity / multiple⌉ * multiple

inductive Urgency where
  | normal
  | high
  | critical
  deriving DecidableEq

/-- `_urgency`; `requiredDate` and `now` are instants. -/
def urgency (belowMinimum belowReorder : Bool) (netDeficit : ℚ) (waitAllowed : Bool)
    (requiredDate : Option Int) (now : Int) : Urgency :=
  if belowMinimum ∨ (netDeficit > 0 ∧ ¬waitAllowed) then .critical
  else if belowReorder ∨ netDeficit > 0 then
    if requiredDate.any (· ≤ now + dayMicros 3) then .high
    else if belowReorder then .high else .normal
  else .normal

/-! ## One position -/

inductive Method where
  | reserveStock
  | transfer
  | linkIncoming
  | procurement
  | none
  deriving DecidableEq

structure Recommendation where
  method : Method
  quantity : ℚ
  requiresConfirmation : Bool := true
  deriving DecidableEq

inductive Outcome where
  | reserveStock
  | transferProposed
  | linkIncoming
  | procurementRequired
  | criticalShortage
  | alreadyCovered
  deriving DecidableEq

structure ExcludedSupply where
  supplyId : String
  sourceType : SourceType
  quantity : ℚ
  reason : ExclusionReason
  evidenceId : Option String
  deriving DecidableEq

/-- What the supplies of one source type give, and their ids. -/
structure SupplyBreakdown where
  quantity : ℚ
  supplyIds : List String
  deriving DecidableEq

structure AssessmentLine where
  lineId : String
  nomenclatureId : String
  warehouseId : Option String
  thresholds : Thresholds
  freeStock : ℚ
  storeRoomStock : ℚ
  expectedInTransit : ℚ
  expectedInProgress : ℚ
  confirmedArrivals : ℚ
  availableOtherWarehouses : ℚ
  productionDemand : ℚ
  stockPosition : ℚ
  forecastStock : ℚ
  belowMinimum : Bool
  belowReorderPoint : Bool
  netDeficit : ℚ
  recommendedOrderQuantity : ℚ
  requiredDate : Option DateTime
  urgency : Urgency
  waitAllowed : Bool
  outcome : Outcome
  recommendations : List Recommendation
  supplyBreakdown : Dict SourceType SupplyBreakdown
  excludedSupply : List ExcludedSupply
  evidenceIds : List String

/-- The warehouse of a position: `need.warehouse_id or case.warehouse_1c_ref`. -/
def targetWarehouse (need : NeedLine) (case : CaseInput) : Option String :=
  givenOr need.warehouseId case.warehouseRef

/-- Stock on the warehouse of the position, or on none that is named. -/
def SupplyItem.isFree (supply : SupplyItem) (target : Option String) : Bool :=
  supply.sourceType.isStock && (!isGiven supply.warehouseId || decide (supply.warehouseId = target))

def SupplyItem.isElsewhere (supply : SupplyItem) (target : Option String) : Bool :=
  supply.sourceType.isStock && isGiven supply.warehouseId && decide (supply.warehouseId ≠ target)

def supplyOrder (target : Option String) (now : Int) (supply : SupplyItem) : ℕ ×ₗ ℤ ×ₗ String :=
  toLex (if supply.isFree target then 0 else 1,
    toLex ((supply.availableAt.map instant).getD now, supply.supplyId))

/-- The body of the loop over the supplies: the supplies to count with what remains of them, and
those that are excluded. -/
def includeSupply (remaining : Dict String ℚ) (nomenclatureId : String)
    (s : List (SupplyItem × ℚ) × List ExcludedSupply) (supply : SupplyItem) :
    List (SupplyItem × ℚ) × List ExcludedSupply :=
  if supply.nomenclatureId ≠ nomenclatureId then s
  else
    let available := remaining.getD supply.supplyId 0
    match exclusionReason supply with
    | some reason =>
      (s.1, s.2 ++ [⟨supply.supplyId, supply.sourceType, supply.quantity, reason,
        supply.evidenceId⟩])
    | none =>
      if available ≤ 0 then
        (s.1, s.2 ++ [⟨supply.supplyId, supply.sourceType, supply.quantity, .alreadyAllocated,
          supply.evidenceId⟩])
      else (s.1 ++ [(supply, available)], s.2)

/-- `sum(qty for supply, qty in included if ...)`. -/
def sumOf (test : SupplyItem → Bool) (included : List (SupplyItem × ℚ)) : ℚ :=
  ((included.filter fun item => test item.1).map Prod.snd).sum

/-- The body of the loop that sums up the breakdown. -/
def addBreakdown (d : Dict SourceType SupplyBreakdown) (item : SupplyItem × ℚ) :
    Dict SourceType SupplyBreakdown :=
  if item.2 ≤ 0 then d
  else
    let known := d.getD item.1.sourceType ⟨0, []⟩
    d.set item.1.sourceType ⟨known.quantity + item.2, known.supplyIds ++ [item.1.supplyId]⟩

/-- The quantities that the outcome of a position depends on. -/
structure Balance where
  freeStock : ℚ
  otherStock : ℚ
  confirmedArrivals : ℚ
  productionDemand : ℚ
  netDeficit : ℚ
  recommendedQty : ℚ
  belowMinimum : Bool
  belowReorder : Bool
  waitAllowed : Bool

def decideCoverage (b : Balance) : Outcome × List Recommendation :=
  if b.freeStock ≥ b.productionDemand ∧ ¬b.belowMinimum then
    (.reserveStock, [⟨.reserveStock, b.productionDemand, true⟩])
  else if b.freeStock ≥ b.productionDemand ∧ b.belowMinimum then
    (.procurementRequired,
      [⟨.reserveStock, b.productionDemand, true⟩, ⟨.procurement, b.recommendedQty, true⟩])
  else if b.otherStock > 0 ∧ b.freeStock + b.otherStock ≥ b.productionDemand then
    (.transferProposed,
      [⟨.transfer, min b.otherStock (max 0 (b.productionDemand - b.freeStock)), true⟩])
  else if b.confirmedArrivals > 0 ∧ b.freeStock + b.confirmedArrivals ≥ b.productionDemand then
    (.linkIncoming, [⟨.linkIncoming, max 0 (b.productionDemand - b.freeStock), true⟩])
  else if b.netDeficit ≤ 0 ∧ ¬b.belowReorder then
    (.alreadyCovered, [⟨.none, 0, false⟩])
  else
    (if b.belowMinimum ∨ ¬b.waitAllowed then .criticalShortage else .procurementRequired,
      [⟨.procurement, b.recommendedQty, true⟩])

/-- The body of the loop over the positions. -/
def assessNeed (case : CaseInput) (supplies : List SupplyItem) (remaining : Dict String ℚ)
    (now : Int) (need : NeedLine) : AssessmentLine :=
  let thresholds := resolveThresholds need case.stockGrowthCoefficient
  let requiredDate := need.requiredDate <|> case.requiredDate
  let demand := need.productionDeficit.getD need.quantity
  let target := targetWarehouse need case
  let scan := (sortBy (supplyOrder target now) supplies).foldl
    (includeSupply remaining need.nomenclatureId) ([], [])
  let included := scan.1
  let freeStock := sumOf (fun supply => supply.isFree target) included
  let otherStock := sumOf (fun supply => supply.isElsewhere target) included
  let inTransit := sumOf (fun supply => supply.sourceType = .inTransit) included
  let inProgress := sumOf (fun supply =>
    supply.sourceType = .inProgress ∨ supply.sourceType = .workInProgress) included
  let arrivals := sumOf (fun supply => supply.sourceType.isArrival && supply.confirmed) included
  let stockPosition :=
    if freeStock + arrivals - demand < 0 then 0 else freeStock + arrivals - demand
  let forecast := freeStock + (inTransit + inProgress) - demand
  let belowMinimum := decide (freeStock < thresholds.minimum)
  let belowReorder :=
    decide (stockPosition < thresholds.reorderPoint ∨ forecast < thresholds.reorderPoint)
  let availableToDate := freeStock + arrivals + otherStock
  let shortage := max 0 (demand - availableToDate)
  let toMaximum := max 0 (thresholds.maximum - stockPosition)
  let netDeficit := if belowMinimum ∧ shortage ≤ 0 then toMaximum else shortage
  let recommendedQty :=
    ceilMultiple
      (if demand > availableToDate then max toMaximum (demand - availableToDate) else toMaximum)
      need.packageMultiple
  let waitAllowed :=
    match need.leadTimeDays, requiredDate with
    | some days, some date => decide (now + dayMicros days ≤ instant date)
    | _, _ => true
  let coverage := decideCoverage
    { freeStock
      otherStock
      confirmedArrivals := arrivals
      productionDemand := demand
      netDeficit
      recommendedQty
      belowMinimum
      belowReorder
      waitAllowed }
  { lineId := need.lineId
    nomenclatureId := need.nomenclatureId
    warehouseId := target
    thresholds
    freeStock
    storeRoomStock := sumOf (fun supply => supply.sourceType = .storeRoom) included
    expectedInTransit := inTransit
    expectedInProgress := inProgress
    confirmedArrivals := arrivals
    availableOtherWarehouses := otherStock
    productionDemand := demand
    stockPosition
    forecastStock := forecast
    belowMinimum
    belowReorderPoint := belowReorder
    netDeficit
    recommendedOrderQuantity := recommendedQty
    requiredDate
    urgency := urgency belowMinimum belowReorder netDeficit waitAllowed
      (requiredDate.map instant) now
    waitAllowed
    outcome := coverage.1
    recommendations := coverage.2
    supplyBreakdown := included.foldl addBreakdown ∅
    excludedSupply := scan.2
    evidenceIds := included.filterMap fun item => item.1.evidenceId.filter (· ≠ "") }

inductive DecisionKind where
  | supplyConfirmation
  | criticalAcknowledgement
  | none
  deriving DecidableEq

structure DispatcherOutput where
  positions : List AssessmentLine
  validationIssues : List ValidationIssue
  missingData : List String
  excludedCapabilities : List String
  decisionKind : DecisionKind

def decisionKind (positions : List AssessmentLine) : DecisionKind :=
  let hasDeficit := positions.any fun line =>
    decide (line.netDeficit > 0) || decide (line.outcome = .procurementRequired ∨
      line.outcome = .criticalShortage ∨ line.outcome = .transferProposed ∨
      line.outcome = .linkIncoming)
  let hasCritical := positions.any fun line =>
    decide (line.urgency = .critical ∨ line.outcome = .criticalShortage)
  if hasCritical || hasDeficit then .supplyConfirmation else .none

/-- `remaining` before the first position. -/
def initialRemaining (supplies : List SupplyItem) : Dict String ℚ :=
  Dict.ofList (supplies.map fun item => (item.supplyId, item.quantity))

def calculateDispatcherAssessment (case : CaseInput) (needs : List NeedLine)
    (supplies : List SupplyItem) (capabilityIssues : List String) (now : Int) :
    DispatcherOutput :=
  let capabilityIssues := Supply.distinct capabilityIssues
  let validationIssues := validateCase case needs
  let blocking := validationIssues.filter ValidationIssue.blocking
  let missingData := blocking.map ValidationIssue.message ++ capabilityIssues
  if missingData ≠ [] ∧ blocking ≠ [] then
    { positions := []
      validationIssues
      missingData
      excludedCapabilities := capabilityIssues
      decisionKind := .criticalAcknowledgement }
  else
    let positions := needs.map (assessNeed case supplies (initialRemaining supplies) now)
    { positions
      validationIssues
      missingData
      excludedCapabilities := capabilityIssues
      decisionKind :=
        if validationIssues ≠ [] ∧ blocking ≠ [] then .criticalAcknowledgement
        else decisionKind positions }

end AgentBack.Dispatcher
