import AgentBack.Base.Dict
import AgentBack.Base.PyValue
import AgentBack.Base.SortBy

/-!
# What covers a need (`agents/procurement_agent/coverage.py`, `schemas.py`)

The positions of a need and the supplies that were found for it. Each position goes through the
supplies of its nomenclature in one order, leaves out the ones that may not be counted, counts a
supply id once, and says what is still missing; the result says it for all positions together.
Quantities are the exact values of the source's decimals.
-/

namespace AgentBack.KT1

inductive MatchStatus where
  | exact
  | ambiguous
  | unmatched
  deriving DecidableEq

/-- `ProcurementNeedPosition`, with the bounds that its fields declare. -/
structure NeedPosition where
  lineId : String
  nomenclatureId : Option String
  nomenclatureName : String
  unit : String
  requiredDate : Option Int
  grossQuantity : Option Rat
  productQuantity : Option Rat
  consumptionRate : Option Rat
  lossFactor : Rat
  matchStatus : MatchStatus
  possibleUnits : List String
  gross_nonneg : ∀ q ∈ grossQuantity, 0 ≤ q
  product_nonneg : ∀ q ∈ productQuantity, 0 ≤ q
  rate_nonneg : ∀ q ∈ consumptionRate, 0 ≤ q
  loss_nonneg : 0 ≤ lossFactor

/-- `ProcurementSupplyItem.source_type`. -/
inductive SupplySource where
  | warehouse
  | storeRoom
  | semifinished
  | inTransit
  | supplierOrder
  | internalTransfer
  | semifinishedProduction
  deriving DecidableEq

def SupplySource.text : SupplySource → String
  | warehouse => "warehouse"
  | storeRoom => "store_room"
  | semifinished => "semifinished"
  | inTransit => "in_transit"
  | supplierOrder => "supplier_order"
  | internalTransfer => "internal_transfer"
  | semifinishedProduction => "semifinished_production"

/-- `ProcurementSupplyItem`. -/
structure SupplyItem where
  supplyId : String
  sourceType : SupplySource
  nomenclatureId : String
  unit : String
  quantity : Rat
  confirmed : Bool
  suitable : Bool
  reservedForOther : Bool
  quarantine : Bool
  defective : Bool
  incomingControlPassed : Bool
  expired : Bool
  illiquid : Bool
  exactMatch : Bool
  evidenceId : String
  quantity_nonneg : 0 ≤ quantity

/-- `ProcurementSupplyBreakdown`. -/
structure SupplyBreakdown where
  sourceType : String
  quantity : Rat
  supplyIds : List String

/-- `ProcurementExcludedSupply`. -/
structure ExcludedSupply where
  supplyId : String
  sourceType : SupplySource
  quantity : Rat
  reason : String
  evidenceId : String

inductive CoverageStatus where
  | covered
  | partiallyCovered
  | uncovered
  | dataInsufficient
  deriving DecidableEq

def CoverageStatus.text : CoverageStatus → String
  | covered => "covered"
  | partiallyCovered => "partially_covered"
  | uncovered => "uncovered"
  | dataInsufficient => "data_insufficient"

/-- `ProcurementPositionCoverage`. -/
structure PositionCoverage where
  lineId : String
  nomenclatureId : Option String
  nomenclatureName : String
  unit : String
  requiredDate : Option Int
  grossRequirement : Rat
  grossCalculationSource : String
  availableSupply : Rat
  supplyBreakdown : List SupplyBreakdown
  excludedSupply : List ExcludedSupply
  netRequirement : Rat
  status : CoverageStatus
  warnings : List String
  evidenceIds : List String

/-- `ProcurementHumanActionCard`. -/
structure HumanActionCard where
  stoppedBy : String
  obtainedData : List String
  requestedFromHuman : List String
  options : List String
  risks : List String
  evidenceIds : List String

/-- `ProcurementKT1Result`. -/
structure KT1Result where
  caseId : String
  status : CoverageStatus
  sourceBasis : List (String × String)
  positions : List PositionCoverage
  criticalPositions : List String
  missingData : List String
  evidenceIds : List String
  warnings : List String
  recommendedNextStep : String
  humanActionRequired : Option HumanActionCard
  completedAt : Int

variable (position : NeedPosition)

def grossRequirement : Rat × String :=
  match position.grossQuantity, position.productQuantity, position.consumptionRate with
  | some gross, _, _ => (gross, "direct_material_quantity")
  | none, some product, some rate => (product * rate * position.lossFactor, "production_norm")
  | none, _, _ => (0, "missing_calculation_inputs")

def NeedPosition.gross : Rat := (grossRequirement position).1

/-- The position says neither a quantity nor a norm. -/
def NeedPosition.missesInputs : Bool :=
  position.grossQuantity.isNone &&
    (position.productQuantity.isNone || position.consumptionRate.isNone)

def NeedPosition.unmatched : Bool :=
  decide (position.matchStatus ≠ .exact) || decide (position.nomenclatureId.getD "" = "")

/-- The position may be counted in several units, or in none of those that are possible. -/
def NeedPosition.unitsDiffer : Bool :=
  !position.possibleUnits.isEmpty &&
    (decide (1 < position.possibleUnits.eraseDups.length) ||
      decide (position.unit ∉ position.possibleUnits))

def NeedPosition.matchReason : String :=
  if position.matchStatus = .ambiguous then "Неоднозначное сопоставление номенклатуры."
  else "Номенклатура не сопоставлена."

/-! ## The supplies of a position -/

def exclusionReason (item : SupplyItem) : Option String :=
  if !item.confirmed then some "unconfirmed"
  else if item.reservedForOther then some "reserved_for_other_need"
  else if item.quarantine then some "quarantine"
  else if item.defective then some "defective"
  else if !item.incomingControlPassed then some "incoming_control_not_passed"
  else if item.expired then some "expired"
  else if item.illiquid then some "illiquid_without_permission"
  else if !item.suitable then some "unsuitable"
  else if !item.exactMatch then some "analogue_requires_human"
  else none

def candidateKey (item : SupplyItem) : String ×ₗ String :=
  toLex (item.sourceType.text, item.supplyId)

/-- The supplies of a nomenclature, in the order in which they are counted. -/
def candidates (nomenclature : String) (supplies : List SupplyItem) : List SupplyItem :=
  sortBy candidateKey (supplies.filter fun item => item.nomenclatureId = nomenclature)

/-- What the loop over the supplies of a position has found. -/
structure Tally where
  insufficient : Bool
  duplicateConflict : Bool
  humanReasons : List String
  included : Dict String SupplyItem
  excluded : List ExcludedSupply

def Tally.exclude (t : Tally) (item : SupplyItem) (reason : String) : Tally :=
  { t with
    excluded := t.excluded ++
      [{ supplyId := item.supplyId
         sourceType := item.sourceType
         quantity := item.quantity
         reason
         evidenceId := item.evidenceId }] }

/-- A supply in another unit than the need. -/
def Tally.noteUnit (t : Tally) : Tally :=
  { t with
    insufficient := true
    humanReasons := t.humanReasons ++ ["Единицы измерения потребности и обеспечения не совпадают."] }

/-- A supply that was counted comes again with other data. -/
def Tally.noteConflict (t : Tally) (item : SupplyItem) : Tally :=
  { t with
    duplicateConflict := true
    insufficient := true
    humanReasons := t.humanReasons ++
      ["Противоречивые данные по обеспечению " ++ item.supplyId ++ "; двойной учёт исключён."] }

/-- A supply whose id was counted. -/
def Tally.again (t : Tally) (previous item : SupplyItem) : Tally :=
  let t := if previous.quantity ≠ item.quantity ∨ previous.unit ≠ item.unit then
    t.noteConflict item else t
  t.exclude item "duplicate_supply"

/-- A supply whose id was not counted. -/
def Tally.first (unit : String) (t : Tally) (item : SupplyItem) : Tally :=
  match if item.unit ≠ unit then some "unit_mismatch" else exclusionReason item with
  | some reason => t.exclude item reason
  | none => { t with included := t.included.set item.supplyId item }

/-- One pass of the loop over the supplies of a position. -/
def Tally.take (unit : String) (t : Tally) (item : SupplyItem) : Tally :=
  let noted := if item.unit ≠ unit then t.noteUnit else t
  match t.included.get? item.supplyId with
  | some previous => noted.again previous item
  | none => noted.first unit item

def Tally.start : Tally :=
  { insufficient := false, duplicateConflict := false, humanReasons := [], included := ∅,
    excluded := [] }

/-- The loop over the supplies of a position. -/
def tally (unit : String) (items : List SupplyItem) : Tally :=
  items.foldl (Tally.take unit) Tally.start

/-- The quantities by source type, in the order in which the types came. -/
def breakdownQuantities (items : List SupplyItem) : Dict String Rat :=
  items.foldl (fun sums item =>
    sums.set item.sourceType.text (sums.getD item.sourceType.text 0 + item.quantity)) ∅

/-- `supply_breakdown` of a position. -/
def supplyBreakdown (items : List SupplyItem) : List SupplyBreakdown :=
  (sortBy Prod.fst (breakdownQuantities items).items).map fun sum =>
    { sourceType := sum.1
      quantity := sum.2
      supplyIds :=
        (items.filter fun item => item.sourceType.text = sum.1).map SupplyItem.supplyId }

/-- The sentences of a position about its own data, for its warnings. -/
def positionWarnings : List String :=
  (if position.missesInputs then ["Недостаточно данных для расчёта валовой потребности."] else []) ++
    (if position.unmatched then [position.matchReason] else []) ++
    if position.unitsDiffer then ["Обнаружены несовместимые единицы измерения."] else []

/-- The sentences of a position about its own data, for the person who is asked. -/
def positionReasons : List String :=
  (if position.unmatched then [position.matchReason] else []) ++
    if position.unitsDiffer then ["Требуется выбрать единицу измерения."] else []

def positionStatus (insufficient : Bool) (available net : Rat) : CoverageStatus :=
  if insufficient then .dataInsufficient
  else if net = 0 then .covered
  else if 0 < available then .partiallyCovered
  else .uncovered

/-- One pass of the loop over the positions: what it says of the position, and what it asks for. -/
def coverPosition (supplies : List SupplyItem) (position : NeedPosition) :
    PositionCoverage × List String :=
  let items := candidates (position.nomenclatureId.getD "") supplies
  let found := tally position.unit items
  let available := (breakdownQuantities found.included.values).values.sum
  let net := max 0 (position.gross - available)
  let insufficient := position.missesInputs || position.unmatched || position.unitsDiffer ||
    found.insufficient || found.duplicateConflict
  ({ lineId := position.lineId
     nomenclatureId := position.nomenclatureId
     nomenclatureName := position.nomenclatureName
     unit := position.unit
     requiredDate := position.requiredDate
     grossRequirement := position.gross
     grossCalculationSource := (grossRequirement position).2
     availableSupply := available
     supplyBreakdown := supplyBreakdown found.included.values
     excludedSupply := found.excluded
     netRequirement := net
     status := positionStatus insufficient available net
     warnings := positionWarnings position
     evidenceIds := sortBy (fun id => id)
       ((items.map SupplyItem.evidenceId).filter fun id => id ≠ "").eraseDups },
    positionReasons position ++ found.humanReasons)

def overallStatus (issues : List String) (statuses : List CoverageStatus) : CoverageStatus :=
  if !issues.isEmpty || decide (CoverageStatus.dataInsufficient ∈ statuses) || statuses.isEmpty then
    .dataInsufficient
  else if statuses.all fun status => status = .covered then .covered
  else if statuses.all fun status => status = .uncovered then .uncovered
  else .partiallyCovered

def recommendedNextStep : CoverageStatus → String
  | .partiallyCovered =>
    "Передать подтверждённый дефицит в следующий контур планирования закупки."
  | .uncovered => "Передать подтверждённый дефицит в следующий контур планирования закупки."
  | .covered => "Завершить КТ1: потребность обеспечена."
  | .dataInsufficient => "Запросить уточнение у ответственного пользователя."

def insufficientCard (requested evidenceIds : List String) : HumanActionCard :=
  { stoppedBy := "Недостаточно достоверных данных для завершения КТ1."
    obtainedData := evidenceIds
    requestedFromHuman :=
      if requested.isEmpty then ["Предоставить отсутствующие данные."] else requested
    options := ["Уточнить исходные данные", "Восстановить недоступную возможность MCP"]
    risks := ["Ошибочный расчёт дефицита при продолжении без подтверждения."]
    evidenceIds }

/-- What `calculate_coverage` is given. -/
structure CoverageInput where
  caseId : String
  sourceBasis : List (String × String)
  positions : List NeedPosition
  supplies : List SupplyItem
  evidenceIds : List String
  dataIssues : List String

/-- `calculate_coverage`, completed at an instant. -/
def calculateCoverage (input : CoverageInput) (completedAt : Int) : KT1Result :=
  let results := input.positions.map (coverPosition input.supplies)
  let positions := results.map Prod.fst
  let humanReasons := results.flatMap Prod.snd
  let status := overallStatus input.dataIssues (positions.map PositionCoverage.status)
  { caseId := input.caseId
    status
    sourceBasis := input.sourceBasis
    positions
    criticalPositions := (positions.filter fun position =>
      position.status = .uncovered ∨ position.status = .dataInsufficient).map
        PositionCoverage.lineId
    missingData := input.dataIssues
    evidenceIds := input.evidenceIds
    warnings := humanReasons.eraseDups
    recommendedNextStep := recommendedNextStep status
    humanActionRequired :=
      if status = .dataInsufficient then
        some (insufficientCard (input.dataIssues ++ humanReasons).eraseDups input.evidenceIds)
      else none
    completedAt }

end AgentBack.KT1
