import AgentBack.Base.PyValue
import AgentBack.Base.Significant

/-!
# Metrics of the quality KPI agent (`agents/quality_kpi_agent/formulas.py`)

The common metrics of an agent, the special ones of its role and those of the whole system, from
tasks and cases whose flags may be missing. A `float` is a rational of 53 binary digits, and each
operation on floats rounds to one.
-/

namespace AgentBack.Quality.Kpi

open Py (Value)

/-- The nearest `float`. -/
def float (x : ℚ) : ℚ := Significant.nearest 2 53 x

/-- `round(x, 2)`. -/
def round2 (x : ℚ) : ℚ := float (Floating.roundHalfEven (x * 100) / 100)

/-! ## Targets -/

def targetAccuracy : ℚ := 95

def targetCompleteness : ℚ := 98

def targetTimeliness : ℚ := 95

def targetReworkPilot : ℚ := 10

def targetTraceability : ℚ := 100

def targetCritical : ℚ := 0

def targetIncomingSla : ℚ := 95

def targetLotsWithoutStatus : ℚ := 0

def targetControlTraceability : ℚ := 100

def targetMandatoryData : ℚ := 95

def targetProcurementSla : ℚ := 95

def targetReceiptSla : ℚ := 98

def warnBandPp : ℚ := 5

/-! ## One metric -/

inductive Tone where
  | ok
  | warn
  | bad
  | unknown
  deriving DecidableEq

/-- `_tone`. A target of 0 or 100 has no band of warning. -/
def tone (value : Option ℚ) (target : ℚ) (higherIsBetter : Bool) (sampleSize : ℕ) : Tone :=
  match value with
  | none => .unknown
  | some value =>
    if sampleSize = 0 then .unknown
    else if higherIsBetter then
      if target ≤ value then .ok
      else if ¬ (target = 0 ∨ target = 100) ∧ float (target - warnBandPp) ≤ value then .warn
      else .bad
    else if value ≤ target then .ok
    else if ¬ (target = 0 ∨ target = 100) ∧ value ≤ float (target + warnBandPp) then .warn
    else .bad

/-- The share in percent, `100.0 * numerator / denominator`. -/
def quotient (numerator denominator : ℕ) : ℚ :=
  float (float (100 * float numerator) / float denominator)

def pct (numerator denominator : ℕ) : Option ℚ :=
  if float denominator ≤ 0 then none else some (round2 (quotient numerator denominator))

structure Metric where
  id : String
  title : String
  formula : String
  value : Option ℚ
  target : ℚ
  targetLabel : String
  unit : String := "%"
  tone : Tone
  sampleSize : ℕ
  details : List (String × ℕ) := []

def metric (id title formula : String) (value : Option ℚ) (target : ℚ) (targetLabel : String)
    (sampleSize : ℕ) (higherIsBetter : Bool := true) (unit : String := "%")
    (details : List (String × ℕ) := []) : Metric where
  id := id
  title := title
  formula := formula
  value := value
  target := target
  targetLabel := targetLabel
  unit := unit
  tone := tone value target higherIsBetter sampleSize
  sampleSize := sampleSize
  details := details

/-- `value is True`. -/
def isTrue : Value → Bool
  | .bool value => value
  | _ => false

/-- `value is not None`. -/
def isSet : Value → Bool
  | .null => false
  | _ => true

/-- `sum(1 for t in records if t.get(flag) is True)`. -/
def hits (flag : String) (records : List Value) : ℕ :=
  records.countP fun record => isTrue (record.get flag)

/-- `[t for t in records if t.get(flag) is not None]`. -/
def known (flag : String) (records : List Value) : List Value :=
  records.filter fun record => isSet (record.get flag)

/-- `[t for t in tasks if t.get("checked")]`. -/
def checked (tasks : List Value) : List Value :=
  tasks.filter fun task => (task.get "checked").truthy

/-- `compute_common_kpis`. Every checked task counts, its flag set or not. -/
def computeCommonKpis (tasks : List Value) : List Metric :=
  let sample := (checked tasks).length
  let count flag := hits flag (checked tasks)
  let share flag := if sample = 0 then none else pct (count flag) sample
  let number flag := if sample = 0 then none else some (float (count flag))
  let detail name flag :=
    if sample = 0 then [] else [(name, count flag), ("checked", sample)]
  [ metric "accuracy" "Точность результата" "confirmed_without_material_error / checked × 100%"
      (share "confirmed_without_material_error") targetAccuracy "≥ 95%" sample true "%"
      (detail "confirmed" "confirmed_without_material_error"),
    metric "completeness" "Полнота" "filled_mandatory / required × 100%"
      (share "completeness_ok") targetCompleteness "≥ 98%" sample true "%"
      (detail "complete" "completeness_ok"),
    metric "timeliness" "Своевременность" "prepared_in_SLA / completed × 100%"
      (share "sla_met") targetTimeliness "≥ 95%" sample true "%" (detail "timely" "sla_met"),
    metric "rework" "Доля существенных доработок" "substantially_reworked / checked × 100%"
      (share "substantially_reworked") targetReworkPilot "≤ 10% (пилот)" sample false "%"
      (detail "reworked" "substantially_reworked"),
    metric "traceability" "Прослеживаемость" "results_with_refs / all × 100%"
      (share "traceability_ok") targetTraceability "100%" sample true "%"
      (detail "traced" "traceability_ok"),
    metric "critical" "Критические / несанкционированные действия" "count"
      (number "critical_unauthorized") targetCritical "0" sample false ""
      (if sample = 0 then [] else [("critical", count "critical_unauthorized")]) ]

structure Spec where
  id : String
  title : String
  target : ℚ
  targetLabel : String
  flag : String
  higherIsBetter : Bool
  asCount : Bool

/-- `SPECIAL_KPI_SPECS`: the special metrics of each role. -/
def specialKpiSpecs : List (String × List Spec) :=
  [ ("otk_head_agent",
    [ ⟨"otk_assign_2wh", "Назначение ≤ 2 раб. ч. (СТО-10-095)", 95, "≥ 95%",
        "assigned_within_2wh", true, false⟩,
      ⟨"otk_confirm_1wh", "Подтверждение акта ≤ 1 раб. ч. (СТО-10-095)", 95, "≥ 95%",
        "act_confirmed_within_1wh", true, false⟩,
      ⟨"otk_zdk_1600", "Акты к ЗДК до 16:00 (СТО-10-095)", 95, "≥ 95%",
        "handed_to_zdk_by_1600", true, false⟩,
      ⟨"otk_missed_critical", "Пропущенные критические нарушения", 0, "0",
        "missed_critical", false, true⟩,
      ⟨"otk_quarterly_report", "Полнота квартального отчёта / плана КД", 100, "100%",
        "quarterly_report_complete", true, false⟩ ]),
    ("quality_engineer_agent",
    [ ⟨"qi_docs", "Полнота обязательных docs", 100, "100%", "docs_complete", true, false⟩,
      ⟨"qi_program", "Точность программы / выборки", 100, "100%", "program_ok", true, false⟩,
      ⟨"qi_results", "Полнота записи результатов", 100, "100%", "results_complete", true, false⟩,
      ⟨"qi_false_release", "Ложные разрешающие статусы", 0, "0",
        "false_releasing_status", false, true⟩,
      ⟨"qi_timely_act", "Своевременность акта / ярлыка", 95, "≥ 95%",
        "act_label_timely", true, false⟩,
      ⟨"qi_recontrol_link", "Повторные контроли со связью с актом", 100, "100%",
        "recontrol_linked", true, false⟩ ]),
    ("quality_deputy_director_agent",
    [ ⟨"zdk_8wh", "Резолюция ≤ 8 раб. ч. (СТО-10-095)", 95, "≥ 95%",
        "resolution_within_8wh", true, false⟩,
      ⟨"zdk_allowlist", "Резолюция в допустимом перечне", 100, "100%",
        "disposition_allowed", true, false⟩,
      ⟨"zdk_conditions", "Полнота условий исполнения", 100, "100%",
        "conditions_complete", true, false⟩,
      ⟨"zdk_contradictory", "Противоречивые / неисполнимые", 0, "0",
        "contradictory_resolution", false, true⟩ ]),
    ("omto_support_manager_agent",
    [ ⟨"omto_status_accuracy", "Точность статусов счёта / отгрузки", 98, "≥ 98%",
        "status_accuracy_ok", true, false⟩,
      ⟨"omto_missed_dates", "Пропущенные контрольные даты", 0, "0",
        "missed_control_date", false, true⟩,
      ⟨"omto_docs_pack", "Полнота комплекта для транспорта / ОТК", 98, "≥ 98%",
        "docs_pack_complete", true, false⟩,
      ⟨"omto_delivery_forecast", "Точность прогноза даты поставки", 95, "≥ 95%",
        "delivery_forecast_ok", true, false⟩ ]),
    ("production_preparation_engineer_agent",
    [ ⟨"ppe_bom_coverage", "Охват позиций ресурсной спецификации", 99, "≥ 99%",
        "bom_coverage_ok", true, false⟩,
      ⟨"ppe_need_accuracy", "Точность валовой / чистой потребности", 98, "≥ 98%",
        "need_calc_ok", true, false⟩,
      ⟨"ppe_material_order", "Полнота заказа материалов", 98, "≥ 98%",
        "material_order_complete", true, false⟩,
      ⟨"ppe_missed_critical", "Пропущенные критические позиции", 0, "0",
        "missed_critical_position", false, true⟩ ]),
    ("production_dispatcher_agent",
    [ ⟨"pd_minmax_accuracy", "Точность МИН / МАКС / точки заказа", 98, "≥ 98%",
        "minmax_ok", true, false⟩,
      ⟨"pd_replenish_timely", "Своевременность сигнала пополнения", 95, "≥ 95%",
        "replenish_signal_timely", true, false⟩,
      ⟨"pd_duplicate_signal", "Дубли сигнала при действующем заказе", 0, "0",
        "duplicate_replenish_signal", false, true⟩,
      ⟨"pd_missed_rop", "Критические дефициты из-за пропущенной ТЗК", 0, "0",
        "missed_rop_deficit", false, true⟩ ]),
    ("department_initiator_agent",
    [ ⟨"di_requisites", "Заявки с полным набором реквизитов", 98, "≥ 98%",
        "requisites_complete", true, false⟩,
      ⟨"di_route_accuracy", "Точность классификации основания / маршрута", 98, "≥ 98%",
        "route_classified_ok", true, false⟩,
      ⟨"di_clarify_cycles", "Среднее число циклов уточнения ≤ 1", 100, "≤ 1 цикл",
        "clarify_cycles_ok", true, false⟩,
      ⟨"di_no_basis", "Заявки без подтверждённого основания", 0, "0",
        "request_without_basis", false, true⟩ ]),
    ("warehouse_manager_agent",
    [ ⟨"wh_task_accuracy", "Точность распределения складских задач", 98, "≥ 98%",
        "warehouse_task_ok", true, false⟩,
      ⟨"wh_defect_zone", "Контроль зоны брака / недоступного остатка", 100, "100%",
        "defect_zone_ok", true, false⟩,
      ⟨"wh_receipt_without_docs", "Оприходование без полного комплекта docs", 0, "0",
        "receipt_without_docs", false, true⟩,
      ⟨"wh_overdue_tasks", "Доля просроченных складских заданий", 5, "≤ 5%",
        "warehouse_task_overdue", false, false⟩ ]),
    ("procurement_logistics_agent",
    [ ⟨"proc_quotes", "Закупки с сопоставимыми предложениями", 90, "≥ 90%",
        "comparable_quotes_ok", true, false⟩,
      ⟨"proc_compare_complete", "Полнота сравнения цены / срока / рисков", 100, "100%",
        "comparison_complete", true, false⟩,
      ⟨"proc_supplier_confirmed", "Рекомендации поставщика, подтверждённые человеком", 90, "≥ 90%",
        "supplier_confirmed", true, false⟩,
      ⟨"proc_critical_order_errors", "Критические ошибки в проекте заказа", 0, "0",
        "critical_order_error", false, true⟩ ]),
    ("finance_director_agent",
    [ ⟨"fd_budget_check", "Точность проверки бюджета / лимита", 100, "100%",
        "budget_check_ok", true, false⟩,
      ⟨"fd_exception_justified", "Исключения с полным обоснованием", 100, "100%",
        "exception_justified", true, false⟩,
      ⟨"fd_timely", "Своевременность финансового решения", 95, "≥ 95%",
        "finance_decision_timely", true, false⟩,
      ⟨"fd_over_limit", "Согласования за пределами полномочий", 0, "0",
        "over_limit_approval", false, true⟩ ]),
    ("executive_director_agent",
    [ ⟨"ed_payment_basis", "Полнота проверки основания платежа", 100, "100%",
        "payment_basis_ok", true, false⟩,
      ⟨"ed_timely", "Своевременность проекта резолюции", 95, "≥ 95%",
        "resolution_timely", true, false⟩,
      ⟨"ed_returned", "Резолюции, возвращённые без основания", 5, "≤ 5%",
        "resolution_returned", false, false⟩,
      ⟨"ed_illegal_exception", "Неразрешённые исключения", 0, "0", "illegal_exception", false, true⟩ ]),
    ("chief_accountant_agent",
    [ ⟨"ca_missed_errors", "Пропущенные критические бух. ошибки", 0, "0",
        "missed_accounting_error", false, true⟩,
      ⟨"ca_docs_check", "Полнота проверки реквизитов / первички", 99, "≥ 99%",
        "accounting_docs_ok", true, false⟩,
      ⟨"ca_timely", "Своевременность бухгалтерского заключения", 95, "≥ 95%",
        "accounting_opinion_timely", true, false⟩,
      ⟨"ca_corrections", "Заключения, исправленные после контроля", 2, "≤ 2%",
        "accounting_corrected", false, false⟩ ]),
    ("accountant_agent",
    [ ⟨"acc_payment_status", "Точность статуса платежа / взаиморасчётов", 100, "100%",
        "payment_status_ok", true, false⟩,
      ⟨"acc_without_approval", "Платежи без полного согласования", 0, "0",
        "payment_without_approval", false, true⟩,
      ⟨"acc_primary_docs", "Полнота регистрации первичных документов", 99, "≥ 99%",
        "primary_docs_ok", true, false⟩,
      ⟨"acc_discrepancy_timely", "Расхождения, обработанные в срок", 95, "≥ 95%",
        "discrepancy_handled_timely", true, false⟩ ]),
    ("legal_specialist_agent",
    [ ⟨"legal_terms", "Полнота проверки существенных условий", 100, "100%",
        "contract_terms_ok", true, false⟩,
      ⟨"legal_missed_risk", "Пропущенные критические юр. риски", 0, "0",
        "missed_legal_risk", false, true⟩,
      ⟨"legal_accepted", "Редакции, принятые без существенной переработки", 90, "≥ 90%",
        "legal_edit_accepted", true, false⟩,
      ⟨"legal_timely", "Своевременность юридического заключения", 95, "≥ 95%",
        "legal_opinion_timely", true, false⟩ ]),
    ("cfo_head_agent",
    [ ⟨"cfo_cfo_article", "Точность ЦФО и статьи расходов", 100, "100%",
        "cfo_article_ok", true, false⟩,
      ⟨"cfo_priority", "Решения с обоснованием приоритета", 100, "100%",
        "priority_justified", true, false⟩,
      ⟨"cfo_timely", "Своевременность проекта согласования", 95, "≥ 95%",
        "approval_timely", true, false⟩,
      ⟨"cfo_budget_conflict", "Решения против утверждённого бюджета", 0, "0",
        "budget_conflict", false, true⟩ ]) ]

/-- The value of a special metric: a count over all checked tasks, or a share of those whose flag is
set. -/
def specialValue (spec : Spec) (tasks : List Value) : Option ℚ :=
  if (checked tasks).length = 0 then none
  else if spec.asCount then some (float (hits spec.flag (checked tasks)))
  else if (known spec.flag (checked tasks)).length = 0 then none
  else pct (hits spec.flag (known spec.flag (checked tasks)))
    (known spec.flag (checked tasks)).length

/-- `SPECIAL_KPI_SPECS.get(agent_id) or []`. -/
def specsOf (agentId : String) : List Spec :=
  ((specialKpiSpecs.find? fun row => row.1 = agentId).map Prod.snd).getD []

def computeSpecialKpis (agentId : String) (tasks : List Value) : List Metric :=
  (specsOf agentId).map fun spec =>
    metric spec.id spec.title spec.flag (specialValue spec tasks) spec.target spec.targetLabel
      (checked tasks).length spec.higherIsBetter (if spec.asCount then "" else "%")

/-- `_case_flag_ratio`, without the size of the sample. -/
def caseFlagRatio (cases : List Value) (flag : String) : Option ℚ :=
  if (known flag cases).length = 0 then none
  else pct (hits flag (known flag cases)) (known flag cases).length

def caseFlagCount (cases : List Value) (flag : String) : Option ℚ :=
  if (known flag cases).length = 0 then none else some (float (hits flag (known flag cases)))

def computeSystemQualityKpis (cases : List Value) : List Metric :=
  let sample flag := (known flag cases).length
  [ metric "mandatory_data" "Полнота обязательных данных" "filled_mandatory / required × 100%"
      (caseFlagRatio cases "mandatory_data_ok") targetMandatoryData "≥ 95%"
      (sample "mandatory_data_ok"),
    metric "purchases_without_basis" "Закупки без основания" "count"
      (caseFlagCount cases "purchase_without_basis") 0 "0" (sample "purchase_without_basis") false
      "",
    metric "procurement_sla" "Соблюдение SLA обработки заявки" "in_SLA / completed × 100%"
      (caseFlagRatio cases "procurement_sla_met") targetProcurementSla "≥ 95%"
      (sample "procurement_sla_met"),
    metric "receipt_sla" "Своевременное оприходование" "on_time / lots × 100%"
      (caseFlagRatio cases "receipt_sla_met") targetReceiptSla "≥ 98%" (sample "receipt_sla_met"),
    metric "hx_ai_actions" "Действия ИИ классов H/X" "count"
      (caseFlagCount cases "hx_action_by_ai") 0 "0" (sample "hx_action_by_ai") false "",
    metric "incoming_control_sla" "Соблюдение SLA входного контроля (СТО-10-095)"
      "in_SLA / completed × 100%" (caseFlagRatio cases "incoming_control_sla_met")
      targetIncomingSla "≥ 95%" (sample "incoming_control_sla_met"),
    metric "lots_without_releasing_status"
      "Партии без разрешающего статуса в доступном запасе" "count"
      (caseFlagCount cases "available_without_releasing_status") targetLotsWithoutStatus "0"
      (sample "available_without_releasing_status") false "",
    metric "control_traceability" "Прослеживаемость результата контроля"
      "lots_with_full_refs / all × 100%" (caseFlagRatio cases "control_traceability_ok")
      targetControlTraceability "100%" (sample "control_traceability_ok") ]

end AgentBack.Quality.Kpi
