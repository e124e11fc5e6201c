import AgentBack.Base.Dict
import AgentBack.Base.PyValue

/-!
# Coverage of the positions of a material order (`services/material_order_coverage.py`)

The positions, the supplier orders and the transfer orders are JSON documents. A position takes
from the lines of the transfer orders first and then from those of the supplier orders; what is
taken of a line is kept under the kind of the document, its reference and the id of the line.
Quantities are the exact values of the source's decimals.
-/

namespace AgentBack.Coverage

open Py (Reading Value textOf decimalOf strOf)

variable (py : Reading)

def emptyGuids : List String := ["", "00000000-0000-0000-0000-000000000000"]

/-- `value.replace("\x7b", "").replace("\x7d", "")`. -/
def withoutBraces (value : String) : String :=
  String.ofList (value.toList.filter fun c => c.toNat ≠ 0x7b ∧ c.toNat ≠ 0x7d)

def normRef (value : Value) : String := py.lower (withoutBraces (textOf py value))

def characteristic (value : Value) : Option String :=
  let text := normRef py value
  if text ∈ emptyGuids then none else some text

/-- The words of a status that says that the document is cancelled. -/
def cancelMarkers : List String := ["отмен", "аннулир", "cancelled", "canceled", "deleted"]

def documentCancelled (document : Value) : Bool :=
  if (document.getAny ["cancelled", "canceled", "DeletionMark", "deletion_mark"]).truthy then true
  else
    let status := py.casefold
      (textOf py (document.getAny ["order_status", "status", "Статус", "State"]))
    cancelMarkers.any fun marker => Text.contains marker status

/-- `value is True` and `value is False`. -/
def isBool (value : Value) (b : Bool) : Bool :=
  match value with
  | .bool value => value == b
  | _ => false

def counterpartyKeys : List String :=
  ["counterpartyRef", "counterparty_ref", "Контрагент_Key", "partnerRef", "partner_ref",
    "Партнер_Key"]

def isDefiniteSupplierOrder (order : Value) : Bool :=
  if isBool (order.get "is_definite") false then false
  else if isBool (order.get "is_definite") true || isBool (order.get "definite") true then true
  else counterpartyKeys.any fun key => decide (normRef py (order.get key) ∉ emptyGuids)

def orderRef (order : Value) : String :=
  normRef py (order.getAny ["supplier_order_1c_ref", "transfer_order_1c_ref", "ref", "Ref_Key"])

def chainOf (order : Value) : Value :=
  Value.anyOf [order.get "chain", (order.get "basisResolution").get "chain"]

def parentRefsFromChain (order : Value) : List String :=
  (chainOf order).listItems.flatMap fun node =>
    (["supplierOrderRef", "supplier_order_ref", "ref"].map fun key => normRef py (node.get key)).filter
      fun ref => ref ≠ ""

def byRef (orders : List Value) : Dict String Value :=
  Dict.ofList ((orders.filter fun order =>
    orderRef py order ≠ "" && !documentCancelled py order).map fun order => (orderRef py order, order))

/-- The definite order names the parent, and the parent is conditional. -/
def excludesParent (orders : Dict String Value) (ref : String) (order : Value)
    (parentRef : String) : Bool :=
  decide (parentRef ≠ ref) && decide (parentRef ∈ parentRefsFromChain py order) &&
    match orders.get? parentRef with
    | some parent => !isDefiniteSupplierOrder py parent
    | none => false

/-- The reference is that of a conditional order that a definite order was made of. -/
def isExcludedParent (orders : Dict String Value) (parentRef : String) : Bool :=
  orders.items.any fun item =>
    isDefiniteSupplierOrder py item.2 && excludesParent py orders item.1 item.2 parentRef

def selectSupplierOrdersForQty (orders : List Value) : List Value :=
  let orders := byRef py orders
  (orders.items.filter fun item => !isExcludedParent py orders item.1).map Prod.snd

/-- A line of a document, as `_lines_from_order` gives it. -/
structure OrderLine where
  lineId : String
  nomenclatureId : String
  characteristicId : Option String
  quantity : Rat
  deriving DecidableEq

/-- `bool(raw.get("cancelled") or raw.get("Отменено"))`. -/
def lineCancelled (raw : Value) : Bool := (raw.getAny ["cancelled", "Отменено"]).truthy

def lineOf (raw : Value) (index : Nat) : Option OrderLine :=
  if raw.isDict = false ∨ lineCancelled raw then none
  else
    let nomenclatureId :=
      normRef py (raw.getAny ["nomenclature_id", "nomenclatureRef", "Номенклатура_Key"])
    if nomenclatureId = "" then none
    else
      let lineId := raw.getAny ["line_id", "LineNumber", "line_number", "lineNumber"]
      some
        { lineId := if lineId.truthy then textOf py lineId else toString index
          nomenclatureId
          characteristicId := characteristic py
            (raw.getAny ["characteristic_id", "characteristicRef", "Характеристика_Key"])
          quantity := decimalOf py (raw.getAny ["quantity", "Количество", "КоличествоУпаковок"]) }

def linesFromOrder (order : Value) : List OrderLine :=
  ((order.get "lines").listItems.zipIdx 1).filterMap fun raw => lineOf py raw.1 raw.2

inductive DocKind where
  | transferOrder
  | supplierOrder
  deriving DecidableEq

structure AllocationKey where
  kind : DocKind
  ref : String
  lineId : String
  deriving DecidableEq

/-- A quantity that a position takes from a line. -/
structure Doc where
  key : AllocationKey
  order : Value
  line : OrderLine
  quantity : Rat
  characteristicId : Option String

/-- The state of `_allocate_docs`. -/
structure Allocation where
  remaining : Rat
  used : List Doc
  consumed : Dict AllocationKey Rat

structure Need where
  nomenclatureId : String
  characteristicId : Option String
  deriving DecidableEq

/-- The line is of the material: the characteristics count when both have one. -/
def Need.matches (need : Need) (line : OrderLine) : Bool :=
  decide (line.nomenclatureId = need.nomenclatureId) &&
    match need.characteristicId, line.characteristicId with
    | some c, some c' => decide (c' = c)
    | _, _ => true

/-- One round of the inner loop of `_allocate_docs`. -/
def allocateLine (kind : DocKind) (need : Need) (order : Value) (s : Allocation)
    (line : OrderLine) : Allocation :=
  if s.remaining ≤ 0 ∨ need.matches line = false then s
  else
    let key : AllocationKey := ⟨kind, orderRef py order, line.lineId⟩
    let alreadyConsumed := s.consumed.getD key 0
    let available := max 0 (line.quantity - alreadyConsumed)
    if available ≤ 0 then s
    else
      let take := min s.remaining available
      { remaining := s.remaining - take
        used := s.used ++
          [⟨key, order, line, take, need.characteristicId.orElse fun _ => line.characteristicId⟩]
        consumed := s.consumed.set key (alreadyConsumed + take) }

/-- One round of the outer loop of `_allocate_docs`. -/
def allocateOrder (kind : DocKind) (need : Need) (s : Allocation) (order : Value) : Allocation :=
  if documentCancelled py order then s
  else (linesFromOrder py order).foldl (allocateLine py kind need order) s

/-- `_allocate_docs`: the quantity, the lines it is taken from, and what is consumed then. -/
def allocateDocs (needQty : Rat) (need : Need) (orders : List Value) (kind : DocKind)
    (consumed : Dict AllocationKey Rat) : Rat × List Doc × Dict AllocationKey Rat :=
  if needQty ≤ 0 then (0, [], consumed)
  else
    let s := orders.foldl (allocateOrder py kind need) ⟨needQty, [], consumed⟩
    (needQty - s.remaining, s.used, s.consumed)

/-- The values of `coverage_source`. -/
inductive CoverageSource where
  | uncovered
  | mixed
  | supplierOrder
  | transferOrder
  deriving DecidableEq

def coverageSource (supplierQty transferQty : Rat) : CoverageSource :=
  if supplierQty + transferQty ≤ 0 then .uncovered
  else if 0 < supplierQty ∧ 0 < transferQty then .mixed
  else if 0 < supplierQty then .supplierOrder
  else if 0 < transferQty then .transferOrder
  else .uncovered

structure PositionRow where
  lineId : String
  nomenclatureId : String
  characteristicId : Option String
  requestedQuantity : Rat
  supplierOrderedQuantity : Rat
  transferOrderedQuantity : Rat
  coveredQuantity : Rat
  remainingQuantity : Rat
  source : CoverageSource
  fullyCovered : Bool
  supplierOrders : List Doc
  transferOrders : List Doc

def requestedOf (position : Value) : Rat :=
  decimalOf py (position.getAny ["quantity", "requested_quantity"])

/-- The position is not cancelled and names a material. -/
def isActive (position : Value) : Bool :=
  !(position.get "cancelled").truthy && decide (normRef py (position.get "nomenclature_id") ≠ "")

def positionRow (qtyOrders transfers : List Value) (position : Value)
    (consumed : Dict AllocationKey Rat) : PositionRow × Dict AllocationKey Rat :=
  let need : Need :=
    ⟨normRef py (position.get "nomenclature_id"), characteristic py (position.get "characteristic_id")⟩
  let requested := requestedOf py position
  let transfer := allocateDocs py requested need transfers .transferOrder consumed
  let supplier := allocateDocs py (max 0 (requested - transfer.1)) need qtyOrders .supplierOrder
    transfer.2.2
  let covered := min requested (supplier.1 + transfer.1)
  let remaining := max 0 (requested - covered)
  ({ lineId := textOf py (position.get "line_id")
     nomenclatureId := need.nomenclatureId
     characteristicId := need.characteristicId
     requestedQuantity := requested
     supplierOrderedQuantity := supplier.1
     transferOrderedQuantity := transfer.1
     coveredQuantity := covered
     remainingQuantity := remaining
     source := coverageSource supplier.1 transfer.1
     fullyCovered := decide (remaining ≤ 0 ∧ 0 < requested)
     supplierOrders := supplier.2.1
     transferOrders := transfer.2.1 }, supplier.2.2)

def positionRows (qtyOrders transfers : List Value) :
    List Value → Dict AllocationKey Rat → List PositionRow
  | [], _ => []
  | position :: rest, consumed =>
    if isActive py position then
      let row := positionRow py qtyOrders transfers position consumed
      row.1 :: positionRows qtyOrders transfers rest row.2
    else positionRows qtyOrders transfers rest consumed

/-- The values of `coverage_status`. -/
inductive CoverageStatus where
  | full
  | partly
  | uncovered
  deriving DecidableEq

def coverageStatus (rows : List PositionRow) : CoverageStatus :=
  if rows.length ≠ 0 ∧ (rows.filter PositionRow.fullyCovered).length = rows.length then .full
  else if rows.any fun row => decide (0 < row.coveredQuantity) then .partly
  else .uncovered

/-- What `build_material_order_coverage` returns. -/
structure Snapshot where
  status : CoverageStatus
  coveredPositions : Nat
  positionsCount : Nat
  positions : List PositionRow
  supplierOrders : List Value
  transferOrders : List Value

def buildMaterialOrderCoverage (positions supplierOrders transferOrders : List Value) : Snapshot :=
  let rows := positionRows py (selectSupplierOrdersForQty py supplierOrders) transferOrders positions ∅
  { status := coverageStatus rows
    coveredPositions := (rows.filter PositionRow.fullyCovered).length
    positionsCount := rows.length
    positions := rows
    supplierOrders
    transferOrders }

end AgentBack.Coverage
