import AgentBack.Base.Text
import Mathlib.Algebra.Order.Field.Rat

/-!
# The material bank (`procurement_manager_agent/material_bank.py`)

Warehouses with their stock rows, and suppliers with their offerings, as `MaterialBankStore` hands
them out. A field that a row may lack is an `Option`, and `text` reads it as `str(value or "")`
does. Quantities are the exact values that `_dec` reads, 0 for a missing or unreadable one; the 28
digits of Python's decimal context are not modelled. The fields with a default are those that only
the ranking of the suppliers reads.
-/

namespace AgentBack.Procurement

/-- `str(value or "")`. -/
def text (value : Option String) : String := value.getD ""

structure Warehouse where
  warehouseId : String
  name : Option String

/-- A row of `stock_lines`. -/
structure StockLine where
  stockId : Option String
  warehouseId : Option String
  nomenclatureId : Option String
  nomenclatureName : Option String
  quantity : ℚ
  reserved : ℚ

/-- An offering of a supplier; `availableQty` is the other name of the quantity field. -/
structure Offering where
  nomenclatureId : Option String
  nomenclatureName : Option String
  availableQuantity : Option ℚ
  availableQty : Option ℚ
  leadTimeDays : Option Int
  unitPrice : Option ℚ
  unit : Option String := none
  lotSize : Option ℚ := none
  packQty : Option ℚ := none
  packSize : Option ℚ := none
  minOrderQty : Option ℚ := none

inductive AbcClass where
  | a
  | b
  | c
  deriving DecidableEq

structure Supplier where
  supplierId : Option String
  name : Option String
  isActive : Bool
  offerings : List Offering
  abcClass : Option AbcClass := none
  qualityRating : Option ℚ := none
  deliveryRating : Option ℚ := none

structure MaterialBankStore where
  warehouses : List Warehouse
  stockLines : List StockLine
  suppliers : List Supplier

def MaterialBankStore.activeSuppliers (store : MaterialBankStore) : List Supplier :=
  store.suppliers.filter fun item => item.isActive && decide (text item.supplierId ≠ "")

/-- `_dec(line.get("quantity")) - _dec(line.get("reserved"))`, not below 0. -/
def StockLine.available (line : StockLine) : ℚ :=
  let available := line.quantity - line.reserved
  if available < 0 then 0 else available

/-- `_dec(offering.get("available_quantity", offering.get("available_qty")))`. -/
def Offering.available (offering : Offering) : ℚ :=
  (offering.availableQuantity <|> offering.availableQty).getD 0

end AgentBack.Procurement
