import AgentBack.Supply.Records

/-!
# Material requirements (`production_preparation_engineer_agent/calculator.py`)

From the products of a case to the materials that they require: the validation of the case and of
the specifications, the choice of a resource specification for every product, and the aggregation
of equal materials. `casefold` is `str.casefold`. Comparing a datetime that has a zone with one that
has none raises, which is `none` here.
-/

namespace AgentBack.Engineer

open Procurement (DateTime)
open Supply (ValidationIssue isGiven givenOr momentKey before)
open Text (strip)

structure CaseInput where
  sourceRef : String
  sourceStatus : Option String
  warehouseRef : Option String
  requiredDate : Option DateTime
  productionOrderRef : Option String
  productionOrderNumber : Option String

structure NeedLine where
  lineId : String
  nomenclatureId : String
  nomenclatureName : String
  characteristicId : Option String
  unit : Option String
  productQuantity : Option ℚ
  directQuantity : Option ℚ
  requiredDate : Option DateTime
  projectId : Option String
  productionStageId : Option String
  productionStageName : Option String
  warehouseId : Option String
  stageCannotStartWithoutMaterial : Bool
  acceptableAnalogAvailable : Option Bool
  criticalProductionOrder : Bool
  sectionStopRisk : Bool
  longLeadTime : Bool
  procurementLeadDays : Option Nat
  product_pos : ∀ q, productQuantity = some q → 0 < q
  direct_pos : ∀ q, directQuantity = some q → 0 < q
  quantity_given : productQuantity.isSome ∨ directQuantity.isSome

structure Material where
  lineId : String
  nomenclatureId : String
  nomenclatureName : String
  characteristicId : Option String
  unit : Option String
  consumptionRate : ℚ
  technologicalLossPercent : ℚ
  productionStageId : Option String
  productionStageName : Option String
  useConditions : Option String
  rate_pos : 0 < consumptionRate
  loss_nonneg : 0 ≤ technologicalLossPercent

structure ResourceSpecification where
  specificationId : String
  name : String
  version : Option String
  status : String
  deletionMark : Bool
  validFrom : Option DateTime
  validTo : Option DateTime
  productId : String
  productCharacteristicId : Option String
  approved : Bool
  completenessScore : Int
  materials : List Material
  evidenceId : Option String

inductive SourceType where
  | warehouse
  | storeRoom
  | semifinished
  | inTransit
  | supplierOrder
  | internalTransfer
  | workInProgress
  | reservation
  | existingCase
  | productionPlan
  deriving DecidableEq

structure SupplyItem where
  supplyId : String
  sourceType : SourceType
  nomenclatureId : String
  characteristicId : Option String
  unit : String
  quantity : ℚ
  warehouseId : Option String
  availableAt : Option DateTime
  confirmed : Bool
  reservedForOther : Bool
  safetyStockForbidden : Bool
  incomingControlPassed : Bool
  quarantine : Bool
  defective : Bool
  blocked : Bool
  expired : Bool
  suitable : Bool
  exactMatch : Bool
  useAllowed : Bool
  linkedDocumentNumber : Option String
  linkedDocumentRef : Option String
  evidenceId : Option String
  quantity_nonneg : 0 ≤ quantity
  deriving DecidableEq

/-! ## Resource specifications -/

variable (casefold : String → String)

/-- `value.strip().casefold().replace("ё", "е")`. -/
def statusKey (value : String) : String :=
  (Text.normalize casefold value).map fun c => if c = 'ё' then 'е' else c

def activeSpecStatuses : List String := ["действует", "active", "approved", "утверждена"]

def isActiveSpec (spec : ResourceSpecification) (productionDate : DateTime) : Option Bool :=
  if spec.deletionMark ∨ ¬spec.approved then some false
  else if statusKey casefold spec.status ∉ activeSpecStatuses then some false
  else do
    let early ← spec.validFrom.elim (some false) (before productionDate)
    if early then return false
    let late ← spec.validTo.elim (some false) fun validTo => before validTo productionDate
    return !late

def isForProduct (need : NeedLine) (spec : ResourceSpecification) : Bool :=
  decide (spec.productId = need.nomenclatureId) &&
    (!isGiven need.characteristicId || !isGiven spec.productCharacteristicId ||
      decide (spec.productCharacteristicId = need.characteristicId))

def candidates (casefold : String → String) (need : NeedLine) (productionDate : DateTime) :
    List ResourceSpecification → Option (List ResourceSpecification)
  | [] => some []
  | spec :: rest => do
    let active ← if isForProduct need spec then isActiveSpec casefold spec productionDate
      else some false
    let others ← candidates casefold need productionDate rest
    return if active then spec :: others else others

/-- `datetime.min.replace(tzinfo=UTC)`. -/
def datetimeMin : DateTime := ⟨0, some 0⟩

/-- Whether the key of `a` is less than that of `b`: the completeness, the number of materials, the
version, the start and the id. -/
def specLess (a b : ResourceSpecification) : Option Bool :=
  let front (spec : ResourceSpecification) : ℤ ×ₗ ℕ ×ₗ String :=
    toLex (spec.completenessScore, toLex (spec.materials.length, spec.version.getD ""))
  let start (spec : ResourceSpecification) := spec.validFrom.getD datetimeMin
  if front a ≠ front b then some (front a < front b)
  else if momentKey (start a) ≠ momentKey (start b) then before (start a) (start b)
  else some (a.specificationId < b.specificationId)

/-- `max(candidates, key=...)`: the first of the greatest. -/
def bestSpec : ResourceSpecification → List ResourceSpecification → Option ResourceSpecification
  | best, [] => some best
  | best, spec :: rest => do
    let less ← specLess best spec
    bestSpec (if less then spec else best) rest

/-- `select_resource_specification`; the outer answer is missing when a comparison raises. -/
def selectResourceSpecification (need : NeedLine) (specifications : List ResourceSpecification)
    (productionDate : DateTime) :
    Option (Option ResourceSpecification) := do
  match ← candidates casefold need productionDate specifications with
  | [] => return none
  | spec :: rest => return some (← bestSpec spec rest)

/-! ## Validation -/

/-- `_issue`. -/
def mkIssue (code message field : String) (source : Supply.IssueSource := .case)
    (lineId : Option String := none) : ValidationIssue where
  code
  message
  field := some field
  lineId
  source

def inactiveStatuses : List String := ["закрыт", "отменен", "cancelled", "closed"]

/-- The issues of the loop over the positions. -/
def validateNeed (case : CaseInput) (need : NeedLine) : List ValidationIssue :=
  (if ¬isGiven need.unit then
    [mkIssue "unit_missing"
      ("Для позиции «" ++ need.nomenclatureName ++ "» не определена единица измерения.")
      "unit" .case need.lineId]
  else []) ++
  (if need.requiredDate = none ∧ case.requiredDate = none then
    [mkIssue "line_required_date_missing"
      ("Для позиции «" ++ need.nomenclatureName ++ "» не указана требуемая дата.")
      "required_date" .case need.lineId]
  else [])

def validateCase (case : CaseInput) (needs : List NeedLine) :
    List ValidationIssue :=
  let status := statusKey casefold (case.sourceStatus.getD "")
  let isDirectMaterialOrder := needs ≠ [] ∧ ∀ need ∈ needs, need.directQuantity.isSome
  (if case.sourceRef = "" then
    [mkIssue "document_missing" "Документ не найден в 1С." "source_1c_ref" .oneC]
  else []) ++
  (if status = "" then
    [mkIssue "document_status_missing" "Не указан статус документа 1С." "source_status" .oneC]
  else if status ∈ inactiveStatuses then
    [mkIssue "document_inactive" "Статус документа не допускает обеспечение." "source_status" .oneC]
  else []) ++
  (if ¬isGiven case.productionOrderRef ∧ ¬isDirectMaterialOrder then
    [mkIssue "production_order_missing"
      "Не определён производственный заказ, связанный с потребностью."
      "production_order_1c_ref" .oneC]
  else []) ++
  (if case.requiredDate = none ∧ ∀ need ∈ needs, need.requiredDate = none then
    [mkIssue "required_date_missing" "Не заполнен требуемый срок обеспечения." "required_date"]
  else []) ++
  (if ¬isGiven case.warehouseRef then
    [mkIssue "recipient_missing" "Не указан склад, кладовая или подразделение-получатель."
      "warehouse_1c_ref"]
  else []) ++
  (if needs = [] then
    [mkIssue "positions_missing" "В документе отсутствуют активные изделия." "positions"]
  else []) ++
  needs.flatMap (validateNeed case)

/-- The key under which a material of a specification must be unique. -/
def Material.specKey (material : Material) : String × Option String × Option String × Option String :=
  (material.nomenclatureId, material.characteristicId, material.unit, material.productionStageId)

/-- The issues of the loop over the materials; `seen` are the keys of those before. -/
def validateMaterials (need : NeedLine) (spec : ResourceSpecification)
    (seen : List (String × Option String × Option String × Option String)) :
    List Material → List ValidationIssue
  | [] => []
  | material :: rest =>
    (if material.specKey ∈ seen then
      [mkIssue "duplicate_specification_line"
        ("В спецификации «" ++ spec.name ++ "» дублируется материал «" ++
          material.nomenclatureName ++ "».")
        "materials" .specification need.lineId]
    else []) ++
    (if ¬isGiven material.unit then
      [mkIssue "material_unit_missing"
        ("Для материала «" ++ material.nomenclatureName ++ "» отсутствует единица измерения.")
        "unit" .specification material.lineId]
    else []) ++
    (if ¬isGiven material.productionStageId then
      [mkIssue "production_stage_missing"
        ("Для материала «" ++ material.nomenclatureName ++ "» не указан производственный этап.")
        "production_stage_id" .specification material.lineId]
    else []) ++
    validateMaterials need spec (material.specKey :: seen) rest

def validateSpecification (need : NeedLine) (spec : Option ResourceSpecification) :
    List ValidationIssue :=
  match spec with
  | none =>
    [mkIssue "active_specification_missing"
      ("Для изделия «" ++ need.nomenclatureName ++
        "» не найдена утверждённая действующая ресурсная спецификация.")
      "specification" .specification need.lineId]
  | some spec =>
    validateMaterials need spec [] spec.materials ++
    (if spec.materials = [] then
      [mkIssue "specification_materials_missing"
        ("В спецификации «" ++ spec.name ++ "» отсутствуют материалы и работы.")
        "materials" .specification need.lineId]
    else [])

/-- `previous.model_dump() == supply.model_dump()`. -/
def sameSupply (a b : SupplyItem) : Bool :=
  decide ({ a with availableAt := none } = { b with availableAt := none } ∧
    a.availableAt.map momentKey = b.availableAt.map momentKey)

/-- The issues of the loop over the supplies; `known` is `supply_by_id`. -/
def conflictingSupplies (known : Dict String SupplyItem) : List SupplyItem → List ValidationIssue
  | [] => []
  | supply :: rest =>
    (if (known.get? supply.supplyId).any fun previous => !sameSupply previous supply then
      [mkIssue "conflicting_supply_duplicate"
        ("Источник обеспечения «" ++ supply.supplyId ++
          "» получен с противоречивыми данными; двойной учёт исключён.")
        "supply_id" .calculation]
    else []) ++
    conflictingSupplies (known.set supply.supplyId supply) rest

abbrev Selected := NeedLine × ResourceSpecification

/-- `need.product_quantity or need.direct_quantity or Decimal("0")`. -/
def NeedLine.quantity (need : NeedLine) : ℚ :=
  (need.productQuantity <|> need.directQuantity).getD 0

/-- A material that a group of products requires: the first of them with its specification, the sum
of their quantities, and their line ids. -/
structure Requirement where
  need : NeedLine
  specificationId : String
  specificationVersion : Option String
  specificationEvidenceId : Option String
  material : Material
  quantity : ℚ
  lineIds : List String

/-- The key of `grouped`. -/
structure GroupKey where
  nomenclatureId : String
  characteristicId : Option String
  unit : Option String
  projectId : Option String
  requiredDate : Bool × Int
  productionStageId : Option String
  useConditions : Option String
  consumptionRate : ℚ
  technologicalLossPercent : ℚ
  warehouseId : Option String
  deriving DecidableEq

def groupKey (defaultDate : DateTime) (need : NeedLine) (material : Material) : GroupKey where
  nomenclatureId := material.nomenclatureId
  characteristicId := material.characteristicId
  unit := material.unit
  projectId := need.projectId
  requiredDate := momentKey (need.requiredDate.getD defaultDate)
  productionStageId := givenOr material.productionStageId need.productionStageId
  useConditions := material.useConditions
  consumptionRate := material.consumptionRate
  technologicalLossPercent := material.technologicalLossPercent
  warehouseId := need.warehouseId

/-- The body of the loop over the materials of a selected product. -/
def addRequirement (defaultDate : DateTime) (need : NeedLine) (spec : ResourceSpecification)
    (grouped : Dict GroupKey Requirement) (material : Material) : Dict GroupKey Requirement :=
  let key := groupKey defaultDate need material
  match grouped.get? key with
  | none =>
    grouped.set key
      { need
        specificationId := spec.specificationId
        specificationVersion := spec.version
        specificationEvidenceId := spec.evidenceId
        material
        quantity := need.quantity
        lineIds := [need.lineId] }
  | some first =>
    grouped.set key
      { first with
        quantity := first.quantity + need.quantity
        lineIds := first.lineIds ++ [need.lineId] }

def aggregateSelectedRequirements (selected : List Selected) (defaultDate : DateTime) :
    List Requirement :=
  (selected.foldl
    (fun grouped pair =>
      pair.2.materials.foldl (addRequirement defaultDate pair.1 pair.2) grouped)
    (∅ : Dict GroupKey Requirement)).values

end AgentBack.Engineer
