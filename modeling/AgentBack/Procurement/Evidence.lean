import AgentBack.Base.SortBy
import AgentBack.Procurement.OrderCoverage

/-!
# The evidence of a reconciliation cycle (`services/supplier_order_reconciliation_service.py`)

A cycle reads the supplier orders and the transfer orders; a read that fails is replaced by what
the last snapshot of the case keeps. The snapshot keeps the transfer orders as they came and the
supplier orders in a form of its own (`normalizedOrder`). Of that form the fields are modelled that
the coverage reads back.
-/

namespace AgentBack.Coverage

open Py (Reading Value textOf decimalOf strOf)

/-- How texts are read, and `str` of a decimal. -/
structure Writing extends Reading where
  print : Rat → String

variable (py : Writing)

def rootSourceRef (order : Value) : String :=
  textOf py.toReading
    (Value.anyOf [order.get "root_source_1c_ref", order.get "rootSourceRef", order.get "source_ref",
      (order.get "basisResolution").get "sourceRef"])

variable (sourceRef : String)

def belongsTo (order : Value) : Bool :=
  decide (py.lower (rootSourceRef py order) = py.lower sourceRef) &&
    (!(order.get "basisResolution").isDict ||
      match (order.get "basisResolution").get "sourceType" with
      | .str sourceType => sourceType == "production_material_order"
      | _ => false)

/-- The reference under which `_apply_case` keeps an order. -/
def listingRef (order : Value) : String :=
  textOf py.toReading (order.getAny ["supplier_order_1c_ref", "ref", "Ref_Key"])

def orderByRef (orders : List Value) : Dict String Value :=
  Dict.ofList ((orders.map fun order => (listingRef py order, order)).filter fun item =>
    item.1 ≠ "")

def normalizedLine (raw : Value) (index : Nat) : Option Value :=
  if raw.isDict = false ∨ lineCancelled raw then none
  else
    let nomenclatureId :=
      textOf py.toReading (raw.getAny ["nomenclature_id", "Номенклатура_Key", "nomenclatureRef"])
    if nomenclatureId = "" then none
    else
      let lineId := raw.getAny ["line_id", "LineNumber", "line_number", "lineNumber"]
      some (.dict
        [("line_id", .str (if lineId.truthy then textOf py.toReading lineId else toString index)),
          ("nomenclature_id", .str nomenclatureId),
          ("quantity", .str (py.print (decimalOf py.toReading
            (raw.getAny ["quantity", "Количество", "КоличествоУпаковок"]))))])

def normalizedLines (order : Value) : List Value :=
  ((order.get "lines").listItems.zipIdx 1).filterMap fun raw => normalizedLine py raw.1 raw.2

/-- `text or None`. -/
def orNone (text : String) : Value := if text = "" then .null else .str text

def normalizedOrder (ref : String) (order : Value) : Value :=
  .dict
    [("supplier_order_1c_ref", .str ref),
      ("order_status", orNone (textOf py.toReading (order.getAny ["order_status", "status"]))),
      ("chain", .list (chainOf order).listItems),
      ("lines", .list (normalizedLines py order))]

/-- `normalized_orders`, sorted by reference. -/
def normalizedOrders (orders : List Value) : List Value :=
  sortBy (fun order => textOf py.toReading (order.get "supplier_order_1c_ref"))
    ((orderByRef py orders).items.map fun item => normalizedOrder py item.1 item.2)

/-- The snapshot that `_apply_case` stores. -/
def appliedSnapshot (positions supplierOrders transferOrders : List Value) : Snapshot :=
  { buildMaterialOrderCoverage py.toReading positions supplierOrders transferOrders with
    supplierOrders := normalizedOrders py supplierOrders }

/-- What the two reads of a cycle answer; a read that fails answers nothing. -/
structure Reads where
  supplierOrders : Option (List Value)
  transferOrders : Option (List Value)

def ofCase (orders : List Value) : List Value :=
  orders.filter fun order => order.isDict && belongsTo py sourceRef order

/-- The orders that a cycle uses: those of the answer, or those of the last snapshot. -/
def evidence (answer : Option (List Value)) (kept : List Value) : List Value :=
  match answer with
  | some orders => ofCase py sourceRef orders
  | none => kept.filter Value.isDict

/-- The snapshot of the case after a cycle of `reconcile`. -/
def reconcileCase (positions : List Value) (last : Option Snapshot) (reads : Reads) :
    Option Snapshot :=
  if reads.supplierOrders.isNone && reads.transferOrders.isNone then last
  else
    some (appliedSnapshot py positions
      (evidence py sourceRef reads.supplierOrders ((last.map Snapshot.supplierOrders).getD []))
      (evidence py sourceRef reads.transferOrders ((last.map Snapshot.transferOrders).getD [])))

def reconcileCycles (positions : List Value) (last : Option Snapshot) (cycles : List Reads) :
    Option Snapshot :=
  cycles.foldl (reconcileCase py sourceRef positions) last

end AgentBack.Coverage
