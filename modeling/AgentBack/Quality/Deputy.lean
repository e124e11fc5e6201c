import AgentBack.Quality.Context

/-!
# The deputy director for quality (`agents/quality_deputy_director_agent/service.py`, `schemas.py`)

The agent of the deputy director drafts the resolution on a lot: a disposition of a fixed list, read
from a free text or from the rules about scrap, with the conditions under which it is carried out.
`run` answers nothing where the source raises.
-/

namespace AgentBack.Quality.Deputy

open Py (Value strOf)

variable (py : Reading)

/-- The keys of the deputy's `_quality_blob`. -/
def deputyKeys : List String :=
  ["act_ref", "scrap_pct", "analog_in_nomenclature", "disposition", "execution_conditions",
    "impact", "risks"]

/-- The words for a disposition, in the order in which `_normalize_disposition` tries them. -/
def dispositionAliases : List (String × Disposition) :=
  [("оприходовать", .postAndUse), ("использовать", .postAndUse), ("post_and_use", .postAndUse),
    ("запретить", .forbid), ("forbid", .forbid), ("брак", .forbid), ("рассортировать", .sort),
    ("sort", .sort), ("вернуть", .giveBack), ("return", .giveBack), ("доработка", .rework),
    ("rework", .rework), ("иное", .other), ("other", .other), ("комиссия", .commission),
    ("commission", .commission)]

/-- The disposition of the first word that a folded text has. The source then looks the text up
among the codes, which are words of the list themselves. -/
def dispositionOf (text : String) : Option Disposition :=
  (dispositionAliases.find? fun entry => Text.contains entry.1 text).map Prod.snd

def normalizeDisposition (raw : Value) : Option Disposition :=
  match raw with
  | .null => none
  | _ => dispositionOf (foldText py (strOf py.toReading raw))

/-- `QualityDeputyDirectorOutput`, with the reason why a person is waited for. -/
structure DeputyOutput where
  disposition : Disposition
  dispositionLabel : String
  executionConditions : List String
  actRef : String
  withinAllowedList : Bool
  nextStatus : String
  nextAgent : Option String
  findings : List Finding
  actions : List String
  summary : String
  waitReason : String

/-- The disposition of the case, or that of the rules about scrap. -/
def proposedDisposition (quality : Value) (scrap : ScrapDecision) : Option Disposition :=
  (normalizeDisposition py (quality.get "disposition")).or
    (scrap.disposition.bind fun disposition =>
      normalizeDisposition py (.str disposition.text))

/-- The finding about a disposition outside of the list. -/
def outsideAllowlist (caseId : String) (current : Value) : Finding :=
  { field := "disposition"
    ruleId := "QC.ZDK.DISPOSITION.ALLOWLIST"
    sourceRef := "case:" ++ caseId
    message := "Резолюция вне допустимого перечня"
    severity := .critical
    suggestedFix := some ("Выбрать: " ++
      ", ".intercalate (allowedDispositions.map Disposition.label))
    currentValue := current }

/-- The finding about conditions that say nothing. -/
def conditionsUnsaid (caseId : String) : Finding :=
  { field := "execution_conditions"
    ruleId := "QC.ZDK.CONDITIONS"
    sourceRef := "case:" ++ caseId
    message := "Условия исполнения не конкретизированы"
    severity := .critical
    suggestedFix := some "Заполнить execution_conditions"
    currentValue := .null }

def givenConditions (conditions : Value) : List String :=
  let items := match conditions with
    | .str text => [Value.str text]
    | .list items => items
    | _ => []
  (items.map fun item => Text.strip (strOf py.toReading item)).filter fun text => text ≠ ""

/-- The conditions of a disposition when none are given. -/
def defaultConditions : Disposition → List String
  | .postAndUse => ["Оприходовать с разрешающим статусом", "Передать на склад"]
  | .forbid => ["Изолятор брака", "Блокировка доступного запаса"]
  | .sort => ["Рассортировка партии", "Повторный контроль годной части"]
  | .giveBack => ["Оформить возврат поставщику", "Претензия"]
  | .rework => ["Программа доработки", "Повторное предъявление без старого комментария"]
  | .other => ["Указать условия исполнения"]
  | .commission => ["Собрать комиссию", "Зафиксировать протокол"]

def nextStatusOf : Disposition → String
  | .postAndUse => "quality_released"
  | .rework => "rework"
  | _ => "isolated"

def nextAgentOf : Disposition → Option String
  | .postAndUse => some "quality_engineer_agent"
  | .rework => some "quality_engineer_agent"
  | .sort => some "quality_engineer_agent"
  | _ => none

def scrapOf (quality : Value) : ScrapDecision :=
  evaluateScrapDecision py (asFloat py (quality.get "scrap_pct"))
    (if hasKey "analog_in_nomenclature" quality then quality.get "analog_in_nomenclature"
      else .bool true)

/-- `QualityDeputyDirectorService.run` after the pipeline. -/
def resolve (request : Request) : DeputyOutput :=
  let quality := qualityBlob deputyKeys request
  let proposed := proposedDisposition py quality (scrapOf py quality)
  let outside := (quality.get "disposition").truthy && proposed.isNone
  let disposition := proposed.getD .commission
  let given := givenConditions py (quality.get "execution_conditions")
  let conditions := if given.isEmpty then defaultConditions disposition else given
  let unsaid := conditions.any (fun text => Text.contains "указать" (py.casefold text)) &&
    disposition == .other
  let givenRef := quality.get "act_ref"
  let actRef := if givenRef.truthy then strOf py.toReading givenRef
    else "Ф-10-15/" ++ request.caseId
  { disposition
    dispositionLabel := disposition.label
    executionConditions := conditions
    actRef
    withinAllowedList := !outside
    nextStatus := nextStatusOf disposition
    nextAgent := nextAgentOf disposition
    findings :=
      (if outside then [outsideAllowlist request.caseId (quality.get "disposition")] else []) ++
        if unsaid then [conditionsUnsaid request.caseId] else []
    actions := ["DRAFT_DISPOSITION", "ROUTE_COPIES"]
    summary := "Проект резолюции ЗДК по " ++ actRef ++ ": «" ++ disposition.label ++
      "». SLA рассмотрения ≤ 8.0 раб. ч."
    waitReason := "Требуется подпись ЗДК по резолюции (HITL)." }

/-- `QualityDeputyDirectorService.run` on a request, without a value where it raises. -/
def run (request : Request) : Option DeputyOutput :=
  (runQualityPipeline py request).map fun _ => resolve py request

end AgentBack.Quality.Deputy
