import AgentBack.Supply.Records

/-!
# The warehouse picker (`warehouse_picker_agent/calculator.py`)

For every position of a case the stock rows that it may be served from, what is available of them
after the soft reservations, and what to issue. Quantities are exact rationals; the constraints of
the schema are fields. The texts of recommendations, formulas and summaries and the fingerprint are
left out.
-/

namespace AgentBack.Picker

open Supply (ValidationIssue isGiven givenOr)

inductive SourceType where
  | storeRoom
  | warehouse
  | reservation
  | quality
  | quarantine
  | blocked
  deriving DecidableEq

/-- `_STOCK_SOURCES`. -/
def SourceType.isStock : SourceType → Bool
  | .storeRoom | .warehouse => true
  | _ => false

structure CaseInput where
  sourceRef : String
  warehouseRef : Option String
  warehouseName : Option String

structure NeedLine where
  lineId : String
  nomenclatureId : String
  requestedQuantity : ℚ
  warehouseId : Option String
  assignmentId : Option String
  requested_pos : 0 < requestedQuantity

structure SupplyItem where
  supplyId : String
  sourceType : SourceType
  nomenclatureId : String
  quantity : ℚ
  warehouseId : Option String
  assignmentId : Option String
  accountingQuantity : Option ℚ
  factualQuantity : Option ℚ
  availableForIssue : Bool
  reservedForOther : Bool
  quarantine : Bool
  defective : Bool
  blocked : Bool
  suitable : Bool
  exactMatch : Bool
  useAllowed : Bool
  evidenceId : Option String
  quantity_nonneg : 0 ≤ quantity
  accounting_nonneg : ∀ q, accountingQuantity = some q → 0 ≤ q
  factual_nonneg : ∀ q, factualQuantity = some q → 0 ≤ q

def validateCase (case : CaseInput) (needs : List NeedLine) : List ValidationIssue :=
  (if case.sourceRef = "" then
    [{ code := "missing_source_ref"
       message := "Отсутствует ссылка на заказ материалов 1С."
       field := some "source_1c_ref" }]
  else []) ++
  (if needs = [] then
    [{ code := "no_positions"
       message := "В заказе нет позиций для проверки кладовой."
       field := some "positions" }]
  else []) ++
  (needs.filter fun need => need.nomenclatureId = "").map fun need =>
    { code := "missing_nomenclature"
      message := "У позиции не указана номенклатура."
      lineId := some need.lineId
      field := some "nomenclature_id" }

/-! ## Which rows a position may use -/

inductive ExclusionReason where
  | otherWarehouse
  | reservedForOther
  | reservedForAssignment
  | quarantine
  | defective
  | blocked
  | notAvailableForIssue
  | unsuitable
  | analogueNotApproved
  | nonPositive
  deriving DecidableEq

def targetWarehouse (need : NeedLine) (case : CaseInput) : Option String :=
  givenOr need.warehouseId case.warehouseRef

variable (supply : SupplyItem)

/-- Whether a row lies on another warehouse than the target. -/
def SupplyItem.elsewhere (target : Option String) : Bool :=
  isGiven target && isGiven supply.warehouseId && decide (supply.warehouseId ≠ target)

def exclusionReason (need : NeedLine) (case : CaseInput) :
    Option ExclusionReason :=
  if supply.elsewhere (targetWarehouse need case) then some .otherWarehouse
  else if supply.reservedForOther then some .reservedForOther
  else if isGiven supply.assignmentId ∧
      ¬(isGiven need.assignmentId ∧ supply.assignmentId = need.assignmentId) then
    some .reservedForAssignment
  else if supply.quarantine ∨ supply.sourceType = .quarantine then some .quarantine
  else if supply.defective then some .defective
  else if supply.blocked ∨ supply.sourceType = .blocked then some .blocked
  else if ¬supply.availableForIssue then some .notAvailableForIssue
  else if ¬supply.suitable ∨ ¬supply.useAllowed then some .unsuitable
  else if ¬supply.exactMatch then some .analogueNotApproved
  else if supply.quantity ≤ 0 then some .nonPositive
  else none

/-- A soft reservation, which takes from what is available and is no stock itself. -/
def SupplyItem.isSoftReserve : Bool :=
  decide (supply.sourceType = .reservation) ||
    (supply.reservedForOther && !supply.sourceType.isStock)

structure ExcludedSupply where
  supplyId : String
  sourceType : SourceType
  quantity : ℚ
  warehouseId : Option String
  assignmentId : Option String
  reason : ExclusionReason
  deriving DecidableEq

def SupplyItem.excluded (reason : ExclusionReason) : ExcludedSupply where
  supplyId := supply.supplyId
  sourceType := supply.sourceType
  quantity := supply.quantity
  warehouseId := supply.warehouseId
  assignmentId := supply.assignmentId
  reason

/-- The variables of the loop over the supplies. -/
structure Scan where
  softReserved : ℚ
  reservedOther : ℚ
  matched : List SupplyItem
  excluded : List ExcludedSupply

/-- The body of the loop over the supplies. -/
def scanSupply (case : CaseInput) (need : NeedLine) (s : Scan) (supply : SupplyItem) : Scan :=
  if supply.nomenclatureId ≠ need.nomenclatureId then s
  else if supply.isSoftReserve then
    if supply.elsewhere (targetWarehouse need case) then
      { s with excluded := s.excluded ++ [supply.excluded .otherWarehouse] }
    else
      { s with
        softReserved := s.softReserved + supply.quantity
        reservedOther := s.reservedOther + supply.quantity
        excluded := s.excluded ++ [supply.excluded .reservedForOther] }
  else
    match exclusionReason supply need case with
    | some reason =>
      { s with
        reservedOther :=
          if reason = .reservedForAssignment ∨ reason = .reservedForOther then
            s.reservedOther + supply.quantity
          else s.reservedOther
        excluded := s.excluded ++ [supply.excluded reason] }
    | none => { s with matched := s.matched ++ [supply] }

def scanSupplies (case : CaseInput) (need : NeedLine) (supplies : List SupplyItem) : Scan :=
  supplies.foldl (scanSupply case need) ⟨0, 0, [], []⟩

/-! ## One position -/

inductive Outcome where
  | partialIssue
  | deficitConfirmed
  | discrepancyReturn
  | fullyAvailable
  deriving DecidableEq

structure AssessmentLine where
  lineId : String
  nomenclatureId : String
  requestedQuantity : ℚ
  warehouseId : Option String
  assignmentId : Option String
  storeRoomStock : ℚ
  warehouseStock : ℚ
  accountingQuantity : ℚ
  factualQuantity : ℚ
  availableForIssue : ℚ
  reservedOtherQuantity : ℚ
  discrepancyQuantity : ℚ
  hasDiscrepancy : Bool
  confirmedAvailable : ℚ
  confirmedDeficit : ℚ
  quantityToIssue : ℚ
  quantityToPurchase : ℚ
  outcome : Outcome
  issueAllowed : Bool
  evidenceIds : List String
  excludedSupply : List ExcludedSupply
  deriving DecidableEq

/-- `sum(... for item in matching if item.source_type in _STOCK_SOURCES)`. -/
def stockSum (quantity : SupplyItem → ℚ) (matched : List SupplyItem) : ℚ :=
  ((matched.filter fun item => item.sourceType.isStock).map quantity).sum

def SupplyItem.accounted : ℚ :=
  supply.accountingQuantity.getD supply.quantity

def SupplyItem.counted : ℚ := supply.factualQuantity.getD supply.quantity

/-- What the accounts and the count say, and whether they differ. -/
def hasDiscrepancy (accounting factual : ℚ) : Bool :=
  decide (|accounting - factual| > 0 ∧ accounting > 0 ∧ factual ≥ 0)

/-- The decision on a position: the outcome, what is confirmed and issued, what remains to buy, and
whether the issue is allowed. -/
def decideIssue (discrepant : Bool) (available requested : ℚ) : Outcome × ℚ × ℚ × Bool :=
  if discrepant ∧ available < requested then (.discrepancyReturn, 0, requested, false)
  else if available ≥ requested then (.fullyAvailable, requested, 0, true)
  else if available > 0 then (.partialIssue, available, requested - available, true)
  else (.deficitConfirmed, 0, requested, false)

/-- The body of the loop over the positions. -/
def assessNeed (case : CaseInput) (supplies : List SupplyItem) (need : NeedLine) :
    AssessmentLine :=
  let scan := scanSupplies case need supplies
  let storeRoom := ((scan.matched.filter fun item => item.sourceType = .storeRoom).map
    SupplyItem.quantity).sum
  let warehouseStock := stockSum SupplyItem.quantity scan.matched
  let accounting := stockSum SupplyItem.accounted scan.matched
  let factual := stockSum SupplyItem.counted scan.matched
  let physical := if warehouseStock > 0 then warehouseStock else storeRoom
  let available := if physical - scan.softReserved < 0 then 0 else physical - scan.softReserved
  let discrepant := hasDiscrepancy accounting factual
  let decision := decideIssue discrepant available need.requestedQuantity
  { lineId := need.lineId
    nomenclatureId := need.nomenclatureId
    requestedQuantity := need.requestedQuantity
    warehouseId := targetWarehouse need case
    assignmentId := need.assignmentId
    storeRoomStock := storeRoom
    warehouseStock
    accountingQuantity := accounting
    factualQuantity := factual
    availableForIssue := available
    reservedOtherQuantity := scan.reservedOther
    discrepancyQuantity := |accounting - factual|
    hasDiscrepancy := discrepant
    confirmedAvailable := decision.2.1
    confirmedDeficit := decision.2.2.1
    quantityToIssue := decision.2.1
    quantityToPurchase := decision.2.2.1
    outcome := decision.1
    issueAllowed := decision.2.2.2
    evidenceIds := scan.matched.filterMap fun item => item.evidenceId.filter (· ≠ "")
    excludedSupply := scan.excluded }

inductive DecisionKind where
  | stockConfirmation
  | deficitConfirmation
  | discrepancyReturn
  | criticalAcknowledgement
  | none
  deriving DecidableEq

structure PickerOutput where
  positions : List AssessmentLine
  validationIssues : List ValidationIssue
  missingData : List String
  excludedCapabilities : List String
  decisionKind : DecisionKind
  deriving DecidableEq

def decisionKind (positions : List AssessmentLine) : DecisionKind :=
  let hasDeficit := positions.any fun item => decide (item.confirmedDeficit > 0)
  let hasIssue := positions.any fun item => decide (item.quantityToIssue > 0)
  if positions.any fun item => item.hasDiscrepancy && decide (item.outcome = .discrepancyReturn)
    then .discrepancyReturn
  else if hasDeficit && hasIssue then .stockConfirmation
  else if hasDeficit then .deficitConfirmation
  else if hasIssue then .stockConfirmation
  else .none

def calculatePickerAssessment (case : CaseInput) (needs : List NeedLine)
    (supplies : List SupplyItem) (capabilityIssues : List String) : PickerOutput :=
  let capabilityIssues := Supply.distinct capabilityIssues
  let validationIssues := validateCase case needs
  let blocking := validationIssues.filter ValidationIssue.blocking
  let missingData := blocking.map ValidationIssue.message ++ capabilityIssues
  if missingData ≠ [] ∧ blocking ≠ [] then
    { positions := []
      validationIssues
      missingData
      excludedCapabilities := capabilityIssues
      decisionKind := .criticalAcknowledgement }
  else
    let positions := needs.map (assessNeed case supplies)
    { positions
      validationIssues
      missingData
      excludedCapabilities := capabilityIssues
      decisionKind := decisionKind positions }

end AgentBack.Picker
