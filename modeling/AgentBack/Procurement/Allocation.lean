import AgentBack.Base.Dict
import AgentBack.Base.SortBy
import AgentBack.Procurement.MaterialBank

/-!
# Allocation by deadline (`procurement_manager_agent/allocation.py`)

`allocate_materials_by_deadline` serves the demand lines of all cases in the order of their
deadlines, from the stock rows first and from the offerings of the suppliers then; what a line
takes is gone for the lines after it. `casefold` is `str.casefold` and `fromIsoFormat` is
`datetime.fromisoformat`.

The parts of a supplier are summed up in the result, so a line also carries `supplierDraws`, the
single quantities under the keys of `remaining_supplier`, which the source does not keep. The
totals over cases and nomenclatures are in `RollUp.lean`.
-/

namespace AgentBack.Procurement

open Text (strip normalize)

variable (casefold : String → String)

/-- `_match_keys`: the id first, then the name. -/
def matchKeys (nomenclatureId nomenclatureName : Option String) :
    List String :=
  let nid := normalize casefold (text nomenclatureId)
  let keys := if nid ≠ "" then [nid] else []
  let name := normalize casefold (text nomenclatureName)
  if name ≠ "" ∧ name ∉ keys then keys ++ [name] else keys

def StockLine.keys (line : StockLine) : List String :=
  matchKeys casefold line.nomenclatureId line.nomenclatureName

/-- `_match_keys(str(offering.get("nomenclature_id") or "").strip(), …)`. -/
def Offering.keys (offering : Offering) : List String :=
  matchKeys casefold (some (strip (text offering.nomenclatureId))) offering.nomenclatureName

/-- `str(offering.get("nomenclature_id") or "").strip().casefold()`. -/
def Offering.nomKey (offering : Offering) : String :=
  normalize casefold (text offering.nomenclatureId)

/-! ## Demand lines -/

/-- A datetime: its wall clock in microseconds since 0001-01-01, and the offset of its zone. -/
structure DateTime where
  wall : Int
  utcOffset : Option Int
  deriving DecidableEq

/-- A `required_date` as it stands in a case or a position. -/
inductive RequiredDate where
  | missing
  | text (value : String)
  | moment (value : DateTime)
  deriving DecidableEq

def RequiredDate.isGiven : RequiredDate → Bool
  | .missing => false
  | .text value => decide (value ≠ "")
  | .moment _ => true

structure Position where
  cancelled : Bool
  lineId : Option String
  id : Option String
  nomenclatureId : Option String
  nomenclatureName : Option String
  quantity : ℚ
  unit : Option String
  requiredDate : RequiredDate

structure Case where
  id : Option String
  caseId : Option String
  requiredDate : RequiredDate
  positions : List Position

structure Demand where
  caseId : String
  lineId : String
  nomenclatureId : String
  nomenclatureName : Option String
  quantity : ℚ
  unit : String
  requiredDate : RequiredDate
  deriving DecidableEq

/-- `str(first or second or "")`. -/
def textOr (first second : Option String) : String :=
  if text first ≠ "" then text first else text second

/-- The demand of a position, unless it is cancelled or asks for nothing. -/
def demandOf (case : Case) (position : Position) : Option Demand :=
  if position.cancelled then none
  else if position.quantity ≤ 0 then none
  else some {
    caseId := textOr case.id case.caseId
    lineId := textOr position.lineId position.id
    nomenclatureId := strip (text position.nomenclatureId)
    nomenclatureName := position.nomenclatureName
    quantity := position.quantity
    unit := textOr position.unit (some "шт")
    requiredDate :=
      if position.requiredDate.isGiven then position.requiredDate else case.requiredDate }

def demandsFromCases (cases : List Case) : List Demand :=
  cases.flatMap fun case => case.positions.filterMap (demandOf case)

/-- The wall clock of `datetime.max`. -/
def sentinel : Int := 3652059 * 86400000000 - 1

/-- `required.replace("Z", "+00:00")`. -/
def replaceZulu (required : String) : String :=
  String.ofList (required.toList.flatMap fun c => if c = 'Z' then "+00:00".toList else [c])

/-- The deadline of `_sort_key`: the wall clock, whatever its zone; a missing date goes last. -/
def sortDate (fromIsoFormat : String → Option DateTime) (required : RequiredDate) : Int :=
  match required with
  | .missing => sentinel
  | .text value => (fromIsoFormat (replaceZulu value)).elim sentinel DateTime.wall
  | .moment value => value.wall

def sortKey (fromIsoFormat : String → Option DateTime) (demand : Demand) :
    Int ×ₗ String ×ₗ String :=
  toLex (sortDate fromIsoFormat demand.requiredDate, toLex (demand.caseId, demand.lineId))

/-! ## The bank as the loop sees it -/

/-- What is left in the bank: `remaining_stock` and `remaining_supplier`. -/
structure Remaining where
  stock : Dict String ℚ
  supplier : Dict (String × String) ℚ

variable (store : MaterialBankStore)

/-- The rows with a `stock_id`, under it. -/
def stockRows : List (String × StockLine) :=
  (store.stockLines.filter fun line => text line.stockId ≠ "").map fun line =>
    (text line.stockId, line)

/-- The offerings with a `nomenclature_id`, under the supplier and the id. -/
def offeringRows :
    List ((String × String) × Offering) :=
  store.activeSuppliers.flatMap fun supplier =>
    (supplier.offerings.filter fun o => strip (text o.nomenclatureId) ≠ "").map fun o =>
      ((text supplier.supplierId, o.nomKey casefold), o)

/-- `stock_meta`: the last row of an id. -/
def stockMeta : Dict String StockLine := Dict.ofList (stockRows store)

/-- `supplier_meta`: the last supplier of an id. -/
def supplierMeta : Dict String Supplier :=
  Dict.ofList (store.activeSuppliers.map fun supplier => (text supplier.supplierId, supplier))

/-- `remaining_stock` and `remaining_supplier` before the first line. -/
def initialRemaining : Remaining where
  stock := Dict.ofList ((stockRows store).map fun row => (row.1, row.2.available))
  supplier := Dict.ofList ((offeringRows casefold store).map fun row => (row.1, row.2.available))

/-- `supplier_offering_name`: the last name, if any, of an offering. -/
def supplierOfferingName :
    Dict (String × String) String :=
  Dict.ofList (((offeringRows casefold store).map fun row =>
    (row.1, normalize casefold (text row.2.nomenclatureName))).filter fun entry => entry.2 ≠ "")

/-- `bucket = index.setdefault(key, [])`, and `id` goes to its end when it is not in it. -/
def addToBucket (index : Dict String (List String)) (id key : String) :
    Dict String (List String) :=
  let bucket := index.getD key []
  if id ∈ bucket then index else index.set key (bucket ++ [id])

def addToBuckets (index : Dict String (List String)) (id : String) (keys : List String) :
    Dict String (List String) :=
  keys.foldl (fun index key => addToBucket index id key) index

/-- `stock_by_nom`: the rows of a key, by warehouse and id. -/
def stockByNom :
    Dict String (List String) :=
  let index := (stockMeta store).items.foldl
    (fun index item => addToBuckets index item.1 (item.2.keys casefold)) ∅
  let warehouseOf (id : String) := text (((stockMeta store).get? id).bind StockLine.warehouseId)
  index.mapItems fun _ bucket =>
    sortBy (fun id => (toLex (warehouseOf id, id) : String ×ₗ String)) bucket

def supplierKeys (names : Dict (String × String) String) (item : (String × String) × ℚ) :
    List String :=
  if item.2 ≤ 0 then []
  else
    match names.get? item.1 with
    | some name => if name = item.1.2 then [item.1.2] else [item.1.2, name]
    | none => [item.1.2]

/-- The lead time that ranks a supplier under a key: that of its first matching offering. -/
def leadTime (supplier : Supplier) (key : String) : Int :=
  ((supplier.offerings.find? fun o => key ∈ o.keys casefold).map fun o =>
    (o.leadTimeDays.filter (· ≠ 0)).getD 99).getD 99

/-- `supplier_by_nom`: the suppliers of a key, by lead time and id. -/
def supplierByNom :
    Dict String (List String) :=
  let names := supplierOfferingName casefold store
  let index := (initialRemaining casefold store).supplier.items.foldl
    (fun index item => addToBuckets index item.1.1 (supplierKeys names item)) ∅
  let leadOf (id key : String) := ((supplierMeta store).get? id).elim 99 (leadTime casefold · key)
  index.mapItems fun key bucket =>
    sortBy (fun id => (toLex (leadOf id key, id) : Int ×ₗ String)) bucket

/-! ## One demand line -/

structure WarehousePart where
  stockId : String
  warehouseId : String
  warehouseName : Option String
  quantity : ℚ
  deriving DecidableEq

structure SupplierPart where
  supplierId : String
  supplierName : Option String
  quantity : ℚ
  unitPrice : Option ℚ
  deriving DecidableEq

structure StockLoop where
  remainingStock : Dict String ℚ
  left : ℚ
  fromWarehouse : ℚ
  warehouseParts : List WarehousePart
  seenStock : List String

/-- `(warehouses.get(wh_id) or {}).get("name")`; the last warehouse of an id counts. -/
def warehouseName (warehouseId : String) : Option String :=
  ((Dict.ofList (store.warehouses.map fun item => (item.warehouseId, item))).get?
    warehouseId).bind Warehouse.name

/-- The body of the loop over the rows of one key. -/
def drawStockRow (s : StockLoop) (stockId : String) : StockLoop :=
  if stockId ∈ s.seenStock then s
  else
    let s := { s with seenStock := s.seenStock ++ [stockId] }
    let available := s.remainingStock.getD stockId 0
    if available ≤ 0 then s
    else
      let take := min s.left available
      let warehouseId := text (((stockMeta store).get? stockId).bind StockLine.warehouseId)
      { s with
        remainingStock := s.remainingStock.set stockId (available - take)
        fromWarehouse := s.fromWarehouse + take
        left := s.left - take
        warehouseParts := s.warehouseParts ++
          [⟨stockId, warehouseId, warehouseName store warehouseId, take⟩] }

/-- The loop over the rows of one key; it breaks when nothing is left to cover. -/
def drawStockRows (store : MaterialBankStore) : List String → StockLoop → StockLoop
  | [], s => s
  | stockId :: rest, s =>
    if s.left ≤ 0 then s else drawStockRows store rest (drawStockRow store s stockId)

/-- The loop over the keys of the line. -/
def drawStock (store : MaterialBankStore) (byNom : Dict String (List String)) :
    List String → StockLoop → StockLoop
  | [], s => s
  | key :: rest, s =>
    let s := drawStockRows store (byNom.getD key []) s
    if s.left ≤ 0 then s else drawStock store byNom rest s

/-- The variables of the loop over the offerings of one supplier. -/
structure OfferingLoop where
  remainingSupplier : Dict (String × String) ℚ
  left : ℚ
  take : ℚ
  supplierDraws : List ((String × String) × ℚ)

/-- `any(key in match_keys for key in offering_keys)`. -/
def Offering.fits (keys : List String) (offering : Offering) : Bool :=
  (offering.keys casefold).any fun key => decide (key ∈ keys)

def drawOffering (keys : List String) (supplierId : String) (s : OfferingLoop) (offering : Offering) :
    OfferingLoop :=
  if ¬ offering.fits casefold keys then s
  else if offering.nomKey casefold = "" then s
  else
    let key := (supplierId, offering.nomKey casefold)
    let available := s.remainingSupplier.getD key 0
    if available ≤ 0 then s
    else
      let part := min s.left available
      { remainingSupplier := s.remainingSupplier.set key (available - part)
        take := s.take + part
        left := s.left - part
        supplierDraws := s.supplierDraws ++ [(key, part)] }

/-- The loop over the offerings; it breaks when nothing is left to cover. -/
def drawOfferings (casefold : String → String) (keys : List String) (supplierId : String) :
    List Offering → OfferingLoop → OfferingLoop
  | [], s => s
  | offering :: rest, s =>
    if s.left ≤ 0 then s
    else drawOfferings casefold keys supplierId rest
      (drawOffering casefold keys supplierId s offering)

/-- The first positive price of a matching offering. -/
def partPrice (keys : List String) (offerings : List Offering) :
    Option ℚ :=
  offerings.findSome? fun o => if o.fits casefold keys then o.unitPrice.filter (0 < ·) else none

structure SupplierLoop where
  remainingSupplier : Dict (String × String) ℚ
  left : ℚ
  fromSupplier : ℚ
  supplierParts : List SupplierPart
  supplierDraws : List ((String × String) × ℚ)

/-- `supplier_meta.get(supplier_id, {}).get("offerings") or []`. -/
def offeringsOf (supplierId : String) : List Offering :=
  ((supplierMeta store).get? supplierId).elim [] Supplier.offerings

def drawSupplier (keys : List String) (s : SupplierLoop) (supplierId : String) : SupplierLoop :=
  let offerings := offeringsOf store supplierId
  let o := drawOfferings casefold keys supplierId offerings
    ⟨s.remainingSupplier, s.left, 0, s.supplierDraws⟩
  let s := { s with
    remainingSupplier := o.remainingSupplier, left := o.left, supplierDraws := o.supplierDraws }
  if o.take ≤ 0 then s
  else
    { s with
      fromSupplier := s.fromSupplier + o.take
      supplierParts := s.supplierParts ++
        [⟨supplierId, ((supplierMeta store).get? supplierId).bind Supplier.name, o.take,
          partPrice casefold keys offerings⟩] }

/-- The loop over the suppliers; it breaks when nothing is left to cover. -/
def drawSuppliers (casefold : String → String) (store : MaterialBankStore) (keys : List String) :
    List String → SupplierLoop → SupplierLoop
  | [], s => s
  | supplierId :: rest, s =>
    if s.left ≤ 0 then s
    else drawSuppliers casefold store keys rest (drawSupplier casefold store keys s supplierId)

/-- `supplier_candidates`: the suppliers of the keys, each once. -/
def supplierCandidates (byNom : Dict String (List String)) (keys : List String) : List String :=
  (keys.flatMap fun key => byNom.getD key []).eraseDups

inductive CoverageSource where
  | warehouse
  | supplier
  | mixed
  | none
  deriving DecidableEq

inductive CoverageTone where
  | ready
  | attention
  | uncovered
  deriving DecidableEq

/-- `TONE_LABELS`. -/
def CoverageTone.label : CoverageTone → String
  | .ready => "Готов"
  | .attention => "Требуют внимания"
  | .uncovered => "Полностью необеспечен"

/-- `coverage_source_label`. -/
def CoverageSource.label : CoverageSource → String
  | .warehouse => "склад"
  | .supplier => "поставщик"
  | .mixed => "смешанный"
  | .none => "нет"

def sourceKind (fromWarehouse fromSupplier : ℚ) : CoverageSource :=
  if fromWarehouse > 0 ∧ fromSupplier > 0 then .mixed
  else if fromWarehouse > 0 then .warehouse
  else if fromSupplier > 0 then .supplier
  else .none

def lineTone (needed covered : ℚ) : CoverageTone :=
  if needed ≤ 0 then .ready
  else if covered ≤ 0 then .uncovered
  else if covered + 1 / 1000000 ≥ needed then .ready
  else .attention

/-- `line_payload`. -/
structure LineResult where
  caseId : String
  lineId : String
  nomenclatureId : String
  nomenclatureName : Option String
  unit : String
  requiredDate : RequiredDate
  neededQuantity : ℚ
  coveredQuantity : ℚ
  deficitQuantity : ℚ
  fromWarehouse : ℚ
  fromSupplier : ℚ
  coverageSource : CoverageSource
  coverageSourceLabel : String
  tone : CoverageTone
  label : String
  warehouseParts : List WarehousePart
  supplierParts : List SupplierPart
  supplierDraws : List ((String × String) × ℚ)
  deriving DecidableEq

def Demand.keys (demand : Demand) : List String :=
  matchKeys casefold (some demand.nomenclatureId) demand.nomenclatureName

/-- The body of the loop over the demands. -/
def allocateLine (remaining : Remaining) (demand : Demand) : LineResult × Remaining :=
  let needed := demand.quantity
  let keys := demand.keys casefold
  let w := drawStock store (stockByNom casefold store) keys ⟨remaining.stock, needed, 0, [], []⟩
  let s := drawSuppliers casefold store keys
    (supplierCandidates (supplierByNom casefold store) keys)
    ⟨remaining.supplier, w.left, 0, [], []⟩
  let covered := w.fromWarehouse + s.fromSupplier
  let source := sourceKind w.fromWarehouse s.fromSupplier
  let tone := lineTone needed covered
  ({ caseId := demand.caseId
     lineId := demand.lineId
     nomenclatureId := demand.nomenclatureId
     nomenclatureName := demand.nomenclatureName
     unit := textOr (some demand.unit) (some "шт")
     requiredDate := demand.requiredDate
     neededQuantity := needed
     coveredQuantity := covered
     deficitQuantity := max 0 (needed - covered)
     fromWarehouse := w.fromWarehouse
     fromSupplier := s.fromSupplier
     coverageSource := source
     coverageSourceLabel := source.label
     tone
     label := tone.label
     warehouseParts := w.warehouseParts
     supplierParts := s.supplierParts
     supplierDraws := s.supplierDraws },
    ⟨w.remainingStock, s.remainingSupplier⟩)

def allocateLines (casefold : String → String) (store : MaterialBankStore) :
    Remaining → List Demand → List LineResult × Remaining
  | remaining, [] => ([], remaining)
  | remaining, demand :: rest =>
    let served := allocateLine casefold store remaining demand
    let later := allocateLines casefold store served.2 rest
    (served.1 :: later.1, later.2)

/-- `sorted(demands_from_cases(cases), key=_sort_key)`. -/
def sortedDemands (fromIsoFormat : String → Option DateTime) (cases : List Case) : List Demand :=
  sortBy (sortKey fromIsoFormat) (demandsFromCases cases)

/-- `allocate_materials_by_deadline`: the lines of its result. -/
def allocateMaterialsByDeadline (fromIsoFormat : String → Option DateTime)
    (store : MaterialBankStore) (cases : List Case) :
    List LineResult :=
  (allocateLines casefold store (initialRemaining casefold store)
    (sortedDemands fromIsoFormat cases)).1

end AgentBack.Procurement
