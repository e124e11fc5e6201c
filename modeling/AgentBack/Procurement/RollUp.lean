import AgentBack.Procurement.Allocation

/-!
# The result of an allocation (`procurement_manager_agent/allocation.py`)

`allocate_materials_by_deadline` returns its lines once more under their cases and summed up by
nomenclature, and counts the cases by their tone. Quantities that the source writes as text and reads
back are kept as they are. Of a nomenclature the prices and the estimate, and of the summary the
quantities of the bank, are left out.
-/

namespace AgentBack.Procurement

open Text (strip normalize)

/-! ## Cases -/

def caseTone (tones : List CoverageTone) : CoverageTone :=
  if tones = [] then .uncovered
  else if ∀ tone ∈ tones, tone = .ready then .ready
  else if ∀ tone ∈ tones, tone = .uncovered then .uncovered
  else .attention

/-- `case_lines`: the lines of every case, in the order in which they were served. -/
def caseLines (lines : List LineResult) : Dict String (List LineResult) :=
  lines.foldl (fun index line => index.set line.caseId (index.getD line.caseId [] ++ [line])) ∅

/-- A row of `cases_out`. -/
structure CaseResult where
  caseId : String
  tone : CoverageTone
  label : String
  coveredCount : Nat
  positionsCount : Nat
  uncoveredPositionsCount : Nat
  neededQuantity : ℚ
  coveredQuantity : ℚ
  deficitQuantity : ℚ
  lines : List LineResult

def caseResult (caseId : String) (lines : List LineResult) : CaseResult :=
  let tone := caseTone (lines.map LineResult.tone)
  { caseId
    tone
    label := tone.label
    coveredCount := lines.countP fun line => line.tone ≠ .uncovered
    positionsCount := lines.length
    uncoveredPositionsCount := lines.countP fun line => line.tone = .uncovered
    neededQuantity := (lines.map LineResult.neededQuantity).sum
    coveredQuantity := (lines.map LineResult.coveredQuantity).sum
    deficitQuantity := (lines.map LineResult.deficitQuantity).sum
    lines }

/-- The row of a case without a demand line. -/
def emptyCase (caseId : String) : CaseResult where
  caseId := caseId
  tone := .uncovered
  label := CoverageTone.uncovered.label
  coveredCount := 0
  positionsCount := 0
  uncoveredPositionsCount := 0
  neededQuantity := 0
  coveredQuantity := 0
  deficitQuantity := 0
  lines := []

structure CaseLoop where
  casesOut : List CaseResult
  uncoveredOrders : Nat
  uncoveredPositions : Nat
  readyOrders : Nat
  attentionOrders : Nat

/-- The body of the loop over `case_lines`. -/
def CaseLoop.addCase (s : CaseLoop) (item : String × List LineResult) : CaseLoop :=
  let row := caseResult item.1 item.2
  let s := { s with
    casesOut := s.casesOut ++ [row]
    uncoveredPositions := s.uncoveredPositions + row.uncoveredPositionsCount }
  match row.tone with
  | .uncovered => { s with uncoveredOrders := s.uncoveredOrders + 1 }
  | .ready => { s with readyOrders := s.readyOrders + 1 }
  | .attention => { s with attentionOrders := s.attentionOrders + 1 }

/-- The body of the loop over the cases of the input; `seen` has the ids of those with lines. -/
def CaseLoop.addEmptyCase (seen : List String) (s : CaseLoop) (case : Case) : CaseLoop :=
  let caseId := textOr case.id case.caseId
  if caseId = "" ∨ caseId ∈ seen then s
  else { s with
    uncoveredOrders := s.uncoveredOrders + 1
    casesOut := s.casesOut ++ [emptyCase caseId] }

/-- Both loops, one after the other. -/
def rollUpCases (cases : List Case) (lines : List LineResult) : CaseLoop :=
  let s := (caseLines lines).items.foldl CaseLoop.addCase ⟨[], 0, 0, 0, 0⟩
  cases.foldl (CaseLoop.addEmptyCase (s.casesOut.map CaseResult.caseId)) s

/-! ## Nomenclatures -/

variable (casefold : String → String)

/-- `_norm_key`: the id, or the name when there is no id. -/
def normKey (nomenclatureId : String) (nomenclatureName : Option String) : String :=
  if strip nomenclatureId ≠ "" then casefold (strip nomenclatureId)
  else normalize casefold (text nomenclatureName)

structure SupplierRow where
  supplierId : String
  supplierName : String
  quantity : ℚ
  unitPrice : Option ℚ

/-- The body of the loop of `_merge_supplier_parts`. -/
def mergeSupplierPart (target : Dict String SupplierRow) (part : SupplierPart) :
    Dict String SupplierRow :=
  let sid := strip part.supplierId
  if sid = "" then target
  else if part.quantity ≤ 0 then target
  else
    match target.get? sid with
    | none => target.set sid ⟨sid, textOr part.supplierName (some sid), part.quantity, part.unitPrice⟩
    | some existing => target.set sid { existing with
        quantity := existing.quantity + part.quantity
        supplierName :=
          if existing.supplierName ≠ "" then existing.supplierName else text part.supplierName
        unitPrice := existing.unitPrice <|> part.unitPrice }

def mergeSupplierParts (target : Dict String SupplierRow) (parts : List SupplierPart) :
    Dict String SupplierRow :=
  parts.foldl mergeSupplierPart target

structure Bucket where
  nomenclatureId : String
  nomenclatureName : Option String
  unit : String
  neededQuantity : ℚ
  coveredQuantity : ℚ
  deficitQuantity : ℚ
  fromWarehouse : ℚ
  fromSupplier : ℚ
  positionsCount : Nat
  sources : List CoverageSource
  supplierPartsMap : Dict String SupplierRow

def Bucket.ofLine (line : LineResult) : Bucket where
  nomenclatureId := line.nomenclatureId
  nomenclatureName := line.nomenclatureName
  unit := textOr (some line.unit) (some "шт")
  neededQuantity := line.neededQuantity
  coveredQuantity := line.coveredQuantity
  deficitQuantity := line.deficitQuantity
  fromWarehouse := line.fromWarehouse
  fromSupplier := line.fromSupplier
  positionsCount := 1
  sources := [line.coverageSource]
  supplierPartsMap := mergeSupplierParts ∅ line.supplierParts

def Bucket.add (bucket : Bucket) (line : LineResult) : Bucket :=
  { bucket with
    neededQuantity := bucket.neededQuantity + line.neededQuantity
    coveredQuantity := bucket.coveredQuantity + line.coveredQuantity
    deficitQuantity := bucket.deficitQuantity + line.deficitQuantity
    fromWarehouse := bucket.fromWarehouse + line.fromWarehouse
    fromSupplier := bucket.fromSupplier + line.fromSupplier
    positionsCount := bucket.positionsCount + 1
    sources := bucket.sources ++ [line.coverageSource]
    supplierPartsMap := mergeSupplierParts bucket.supplierPartsMap line.supplierParts }

/-- `_norm_key(…) or line["line_id"]`. -/
def LineResult.positionKey (line : LineResult) : String :=
  let key := normKey casefold line.nomenclatureId line.nomenclatureName
  if key ≠ "" then key else line.lineId

/-- The body of the first loop of `_aggregate_positions`. -/
def addPosition (buckets : Dict String Bucket) (line : LineResult) :
    Dict String Bucket :=
  match buckets.get? (line.positionKey casefold) with
  | none => buckets.set (line.positionKey casefold) (.ofLine line)
  | some bucket => buckets.set (line.positionKey casefold) (bucket.add line)

/-- A row of `by_nomenclature`. -/
structure NomenclatureRow where
  nomenclatureId : String
  nomenclatureName : Option String
  unit : String
  neededQuantity : ℚ
  coveredQuantity : ℚ
  deficitQuantity : ℚ
  fromWarehouse : ℚ
  fromSupplier : ℚ
  positionsCount : Nat
  coverageSource : CoverageSource
  coverageSourceLabel : String
  supplierParts : List SupplierRow

/-- The source of a row: that of its lines with a source when they have one and the same. -/
def Bucket.source (bucket : Bucket) : CoverageSource :=
  match (bucket.sources.filter (· ≠ .none)).eraseDups with
  | [] => .none
  | [source] => source
  | _ => .mixed

/-- The body of the second loop of `_aggregate_positions`. -/
def Bucket.row (bucket : Bucket) : NomenclatureRow where
  nomenclatureId := bucket.nomenclatureId
  nomenclatureName := bucket.nomenclatureName
  unit := bucket.unit
  neededQuantity := bucket.neededQuantity
  coveredQuantity := bucket.coveredQuantity
  deficitQuantity := bucket.deficitQuantity
  fromWarehouse := bucket.fromWarehouse
  fromSupplier := bucket.fromSupplier
  positionsCount := bucket.positionsCount
  coverageSource := bucket.source
  coverageSourceLabel := bucket.source.label
  supplierParts :=
    if bucket.source = .warehouse ∨ bucket.fromSupplier ≤ 0 then []
    else sortBy (fun part => (toLex (-part.quantity, part.supplierName) : ℚ ×ₗ String))
      bucket.supplierPartsMap.values

def aggregatePositions (lines : List LineResult) :
    List NomenclatureRow :=
  sortBy (fun row => textOr row.nomenclatureName (some row.nomenclatureId))
    ((lines.foldl (addPosition casefold) ∅).values.map Bucket.row)

/-- `summary`. -/
structure AllocationSummary where
  totalOrdersCount : Nat
  uncoveredOrdersCount : Nat
  readyOrdersCount : Nat
  attentionOrdersCount : Nat
  uncoveredPositionsCount : Nat
  positionsCount : Nat
  needQuantityTotal : ℚ
  coveredQuantityTotal : ℚ
  activeSuppliersCount : Nat
  warehousesCount : Nat

structure AllocationResult where
  cases : List CaseResult
  lines : List LineResult
  byNomenclature : List NomenclatureRow
  summary : AllocationSummary
  caseIndex : Dict String CaseResult

/-- `allocate_materials_by_deadline`: the whole result. -/
def allocationResult (fromIsoFormat : String → Option DateTime) (store : MaterialBankStore)
    (cases : List Case) : AllocationResult :=
  let lines := allocateMaterialsByDeadline casefold fromIsoFormat store cases
  let orders := rollUpCases cases lines
  { cases := orders.casesOut
    lines
    byNomenclature := aggregatePositions casefold lines
    summary :=
      { totalOrdersCount := orders.casesOut.length
        uncoveredOrdersCount := orders.uncoveredOrders
        readyOrdersCount := orders.readyOrders
        attentionOrdersCount := orders.attentionOrders
        uncoveredPositionsCount := orders.uncoveredPositions
        positionsCount := lines.length
        needQuantityTotal :=
          ((sortedDemands fromIsoFormat cases).map Demand.quantity).sum
        coveredQuantityTotal := (lines.map LineResult.coveredQuantity).sum
        activeSuppliersCount := store.activeSuppliers.length
        warehousesCount := store.warehouses.length }
    caseIndex := Dict.ofList (orders.casesOut.map fun item =>
      (normalize casefold item.caseId, item)) }

end AgentBack.Procurement
