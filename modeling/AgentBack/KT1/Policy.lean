import AgentBack.Base.Text

/-!
# What the purchasing agent may do (`agents/procurement_agent/policy.py`, `config.py`)

An operation has a class, and the class and the level of autonomy say whether the agent may carry it
out. A tool that is not on the closed list of reading tools is forbidden on every level.
-/

namespace AgentBack.KT1

def maxLoopIterations : Nat := 8

def maxIdenticalToolCalls : Nat := 2

def supportedAutonomyLevel : Fin 3 := 0

def needLinesTool : String := "onec_get_procurement_need_lines"

def readOnlyToolNames : List String :=
  [needLinesTool, "onec_get_free_stock", "onec_get_reservations", "onec_get_store_room_stock",
    "onec_get_open_supplier_orders", "onec_get_goods_in_transit", "onec_get_internal_transfers",
    "onec_get_available_semifinished_goods"]

/-- `ProcurementActionClass`. -/
inductive ActionClass where
  | read
  | draft
  | notify
  | human
  | forbidden
  deriving DecidableEq

def readOperations : List String :=
  ["assess_need", "check_data_quality", "check_coverage", "read_case", "read_onec"] ++
    readOnlyToolNames

def draftOperations : List String :=
  ["prepare_purchase_draft", "prepare_rfq", "prepare_supplier_order", "prepare_receipt"]

def notifyOperations : List String :=
  ["notify_deadline", "route_decision_card", "send_internal_summary"]

def humanOperations : List String :=
  ["select_supplier", "approve_price", "approve_payment", "place_supplier_order",
    "approve_quality_result", "post_receipt"]

def forbiddenOperations : List String :=
  ["sign_document", "execute_payment", "cancel_management_decision", "delete_posted_document"]

/-- `ProcurementPolicyDecision`. -/
structure PolicyDecision where
  actionClass : ActionClass
  allowed : Bool
  requiresHuman : Bool
  reason : String

variable (lower : String → String)

def classifyProcurementAction (operation : String) : ActionClass :=
  let normalized := Text.normalize lower operation
  if normalized ∈ forbiddenOperations then .forbidden
  else if normalized ∈ humanOperations then .human
  else if normalized ∈ notifyOperations then .notify
  else if normalized ∈ draftOperations then .draft
  else if normalized ∈ readOperations then .read
  else .human

def evaluateProcurementAction (operation : String) (autonomyLevel : Fin 3) : PolicyDecision :=
  let actionClass := classifyProcurementAction lower operation
  let refuse (requiresHuman : Bool) (reason : String) : PolicyDecision :=
    { actionClass, allowed := false, requiresHuman, reason }
  if actionClass = .forbidden then
    refuse false "Действие безусловно запрещено для ИИ-агента."
  else if actionClass = .human then
    refuse true "Действие выполняется только уполномоченным человеком."
  else if autonomyLevel = 0 ∧ actionClass ≠ .read then
    refuse false "Первый этап работает в режиме наблюдения: разрешены только чтение и расчёты."
  else if actionClass = .draft ∧ autonomyLevel < 1 then
    refuse false "Проекты доступны с уровня 1."
  else if actionClass = .notify ∧ autonomyLevel < 2 then
    refuse false "Уведомления и маршрутизация доступны только с уровня 2."
  else
    { actionClass, allowed := true, requiresHuman := false, reason := "Действие разрешено политикой." }

def evaluateProcurementTool (toolName : String) (autonomyLevel : Fin 3) : PolicyDecision :=
  if toolName ∉ readOnlyToolNames then
    { actionClass := .forbidden
      allowed := false
      requiresHuman := false
      reason := "Инструмент отсутствует в закрытом read-only allowlist закупочного агента." }
  else evaluateProcurementAction lower toolName autonomyLevel

theorem mem_of_tool_allowed {toolName : String} {autonomyLevel : Fin 3}
    (h : (evaluateProcurementTool lower toolName autonomyLevel).allowed = true) :
    toolName ∈ readOnlyToolNames := by
  by_contra hnot
  unfold evaluateProcurementTool at h
  rw [if_pos hnot] at h
  cases h

end AgentBack.KT1
