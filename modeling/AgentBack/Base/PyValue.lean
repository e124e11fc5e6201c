import AgentBack.Base.Text
import Mathlib.Algebra.Order.Ring.Rat

/-!
# JSON values as Python reads them

The value of a parsed JSON document, with the readings that code without a schema uses: `get` of a
key, truth, the first of several keys that has a value, and the text of a value. A number carries
the text that `str` gives it, which is also what `Decimal(str(value))` reads.

What a reading of a text rests on outside the language core is a parameter, `Py.Reading`.
-/

namespace AgentBack.Py

inductive Value where
  | null
  | bool (value : Bool)
  | num (value : Rat) (printed : String)
  | str (value : String)
  | list (items : List Value)
  | dict (fields : List (String × Value))

structure Reading where
  lower : String → String
  casefold : String → String
  /-- `Decimal(text)`, without a value where that raises. -/
  decimal : String → Option Rat
  /-- `str` of a list or a dict. -/
  repr : Value → String

namespace Value

/-- `bool(value)`. -/
def truthy : Value → Bool
  | null => false
  | bool value => value
  | num value _ => decide (value ≠ 0)
  | str value => decide (value ≠ "")
  | list items => !items.isEmpty
  | dict fields => !fields.isEmpty

/-- `isinstance(value, dict)`. -/
def isDict : Value → Bool
  | dict _ => true
  | _ => false

/-- `value.get(key)` of a dict. -/
def get (key : String) : Value → Value
  | dict fields => ((fields.find? fun field => field.1 = key).map Prod.snd).getD null
  | _ => null

/-- `a or b or c`. -/
def anyOf : List Value → Value
  | [] => null
  | [value] => value
  | value :: rest => if value.truthy then value else anyOf rest

/-- `document.get(a) or document.get(b) or document.get(c)`. -/
def getAny (keys : List String) (document : Value) : Value :=
  anyOf (keys.map fun key => document.get key)

/-- The items of a list, none of any other value. -/
def listItems : Value → List Value
  | list items => items
  | _ => []

end Value

variable (py : Reading)

/-- `str(value)`. -/
def strOf : Value → String
  | .null => "None"
  | .bool value => if value then "True" else "False"
  | .num _ printed => printed
  | .str value => value
  | .list items => py.repr (.list items)
  | .dict fields => py.repr (.dict fields)

/-- `str(value or "").strip()`. -/
def textOf (value : Value) : String := if value.truthy then Text.strip (strOf py value) else ""

/-- `Decimal(str(value or 0))`, and zero where that raises. -/
def decimalOf (value : Value) : Rat :=
  if value.truthy then (py.decimal (strOf py value)).getD 0 else 0

@[simp] theorem textOf_null : textOf py .null = "" := rfl

@[simp] theorem decimalOf_null : decimalOf py .null = 0 := rfl

theorem textOf_str (s : String) : textOf py (.str s) = Text.strip s := by
  by_cases h : s = ""
  · rw [h]
    rfl
  · have htruthy : (Value.str s).truthy = true := decide_eq_true h
    unfold textOf
    rw [if_pos htruthy]
    rfl

end AgentBack.Py
