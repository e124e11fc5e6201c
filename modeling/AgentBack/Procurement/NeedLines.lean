import AgentBack.Base.Dict
import AgentBack.Base.PyValue

/-!
# The need lines of a document (`agents/procurement_agent/source_discovery.py`)

The rows of a 1C document are JSON values. What `int` reads of a text is a parameter. The dates and
the payload of a line are left out, and so are quantities that are not finite.
-/

namespace AgentBack.NeedLines

open Py (Reading Value strOf)

variable (py : Reading) (int : String → Option Int)

def optionalStr : Value → Option String
  | .null => none
  | value => some (Text.strip (strOf py value)) |>.filter (· ≠ "")

/-- `_decimal`. -/
def decimal : Value → Option Rat
  | .null => none
  | .str text => if text = "" then none else py.decimal text
  | value => py.decimal (strOf py value)

/-- `a or b`. -/
def orElse (a b : Option Rat) : Option Rat := if a.getD 0 = 0 then b else a

def quantityOf (item : Value) : Option Rat :=
  orElse (decimal py (item.get "Количество"))
    (orElse (decimal py (item.get "МаксимальноеКоличествоЗапаса_После"))
      (decimal py (item.get "МинимальноеКоличествоЗапаса_После")))

/-- A row with a nomenclature and a quantity, and its place in the list. -/
structure Row where
  index : Nat
  item : Value
  nomenclatureId : String
  quantity : Rat

def row? (entry : Value × Nat) : Option Row := do
  guard entry.1.isDict
  let nomenclatureId ← optionalStr py (entry.1.get "Номенклатура_Key")
  let quantity ← quantityOf py entry.1
  return ⟨entry.2, entry.1, nomenclatureId, quantity⟩

/-- The rows that the loop does not skip. -/
def rows (rawLines : Value) : List Row := (rawLines.listItems.zipIdx 1).filterMap (row? py)

namespace Row

variable (row : Row)

def rawLineNumber : Value := row.item.get "LineNumber"

def rawLineCode : Value := row.item.get "КодСтроки"

/-- `str(raw_line_code or "") == "0"`. -/
def zeroCode : Bool := strOf py (.anyOf [row.rawLineCode, .str ""]) = "0"

end Row

def ofInt (n : Int) : Value := .num n (toString n)

/-- `int(value)`, without a value where that raises. -/
def intOf : Value → Option Int
  | .bool value => some (if value then 1 else 0)
  | .num value _ => some (value.num.tdiv value.den)
  | .str text => int text
  | _ => none

def Row.lineNumber (row : Row) : Option Int :=
  intOf int (.anyOf [row.rawLineNumber, if row.zeroCode py then .null else row.rawLineCode,
    ofInt row.index])

structure NormalizedNeedLine where
  lineId : String
  lineNumber : Int
  nomenclatureId : String
  nomenclatureName : Option String
  characteristicId : Option String
  unitId : Option String
  unit : Option String
  quantity : Rat
  cancelled : Bool
  supplyAction : Option String

def needLine (row : Row) : Option NormalizedNeedLine :=
  (row.lineNumber py int).map fun lineNumber =>
    { lineId := strOf py (if row.zeroCode py then .anyOf [row.rawLineNumber, ofInt lineNumber]
        else row.rawLineCode)
      lineNumber
      nomenclatureId := row.nomenclatureId
      nomenclatureName := optionalStr py (row.item.getAny ["Номенклатура", "item"])
      characteristicId := optionalStr py (row.item.get "Характеристика_Key")
      unitId := optionalStr py (row.item.get "Упаковка_Key")
      unit := optionalStr py (row.item.getAny ["Упаковка", "unit"])
      quantity := row.quantity
      cancelled := (row.item.get "Отменено").truthy
      supplyAction := optionalStr py (row.item.getAny ["ВариантОбеспечения", "Действие",
        "ОбеспечениеЗаказовПриПоддержанииЗапаса", "МетодОбеспеченияПотребностей"]) }

def needLines : List Row → Option (List NormalizedNeedLine)
  | [] => some []
  | row :: rest => do
    let line ← needLine py int row
    let lines ← needLines rest
    return line :: lines

def normalizeNeedLines (rawLines : Value) : Option (List NormalizedNeedLine) :=
  needLines py int (rows py rawLines)

structure Position where
  lineId : String
  lineNumber : Int
  nomenclatureId : String
  nomenclatureName : Option String
  characteristicId : Option String
  unit : Option String
  quantity : Rat
  cancelled : Bool

def positionOf (line : NormalizedNeedLine) : Position := { line with }

/-- `_replace_positions`. A case has one position under a line id. -/
def replacePositions (lines : List NormalizedNeedLine) : Option (List Position) :=
  if (lines.map (·.lineId)).Nodup then some (lines.map positionOf) else none

/-- `by_line_id` of `_update_case_presentations`. -/
def byLineId (positions : List Position) : Dict String Position :=
  .ofList (positions.map fun position => (position.lineId, position))

end AgentBack.NeedLines
