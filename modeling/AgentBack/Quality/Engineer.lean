import AgentBack.Quality.Context

/-!
# The quality engineer (`agents/quality_engineer_agent/service.py`, `schemas.py`)

The engineer's agent checks that the documents of a lot are there, that a person has recorded the
inspection, and drafts either the act of a nonconformity or the label of a release. `run` answers
nothing where the source raises.
-/

namespace AgentBack.Quality

open Py (Value strOf)

variable (py : Reading)

/-- The keys of the engineer's `_quality_blob`. -/
def engineerKeys : List String :=
  ["item_group", "category", "present_docs", "documents", "scrap_pct", "analog_in_nomenclature",
    "inspection_complete", "measured_results", "instrument_refs", "evidence_refs",
    "fitness_status", "lot_qty", "quantity", "presentation_ref", "nomenclature_ref",
    "supplier_ref", "supplier_quality_rating"]

/-- `QualityEngineerOutput.stage`. -/
inductive EngineerStage where
  | docCheck
  | program
  | inspection
  | ncAct
  | release
  deriving DecidableEq

inductive FitnessStatus where
  | fit
  | unfit
  | doubtful
  | pending
  deriving DecidableEq

/-- `QualityEngineerOutput`, with the reason why a person is waited for. -/
structure EngineerOutput where
  stage : EngineerStage
  category : Category
  mandatoryDocsOk : Bool
  fitnessStatus : FitnessStatus
  actRef : Option String
  labelRef : Option String
  nextStatus : String
  nextAgent : Option String
  findings : List Finding
  actions : List String
  summary : String
  waitReason : String

variable (request : Request)

def requestedStage : String :=
  py.lower (strOf py.toReading (Value.anyOf
    [request.roleContext.get "quality_stage",
      (qualityBlob engineerKeys request).get "quality_stage", .str "assigned"]))

def workStage : String :=
  let stage := requestedStage py request
  if stage ∈ ["queued", "quality_queued"] then "assigned" else stage

def documentStages : List String :=
  ["assigned", "quality_assigned", "doc_check", "quality_doc_check"]

def inspectionStages : List String := ["inspection", "quality_inspection"]

def reportedCategory : Category :=
  let quality := qualityBlob engineerKeys request
  normalizeCategory py (strOf py.toReading (Value.anyOf
    [quality.get "item_group", quality.get "category",
      .str (extractContext py request).category.text]))

/-- The sample rule, rebuilt from what the engineer knows when it lacks a lot or a size, is accepted
by pydantic. -/
def sampleAccepted : Bool :=
  let ctx := extractContext py request
  let quality := qualityBlob engineerKeys request
  let category := reportedCategory py request
  let given := Value.anyOf [quality.get "lot_qty", quality.get "quantity"]
  let qty := if given.truthy then asFloat py given else ctx.lotQty
  !ctx.sampleOpen py ||
    (sampleSizeComputes (sampleCategory py category) qty &&
      textOrNull (Value.anyOf [quality.get "presentation_ref", ctx.presentationRef]) &&
      textOrNull (Value.anyOf [quality.get "nomenclature_ref", ctx.nomenclatureRef]) &&
      textOrNull (Value.anyOf [quality.get "supplier_ref", ctx.supplierRef]) &&
      ratingOrNull (Value.anyOf
        [quality.get "supplier_quality_rating", ctx.supplierQualityRating]))

def sampleRuleId : String :=
  let ctx := extractContext py request
  let category := if ctx.sampleOpen py then reportedCategory py request else ctx.category
  "QC.SAMPLE." ++ (sampleCategory py category).text.toUpper

/-- `fitness_status` of the context, lowered. -/
def fitnessText : String :=
  py.lower (strOf py.toReading (Value.anyOf
    [(qualityBlob engineerKeys request).get "fitness_status", .str "pending"]))

/-- `quality.get("analog_in_nomenclature", True)`. -/
def analogInNomenclature (quality : Value) : Value :=
  if hasKey "analog_in_nomenclature" quality then quality.get "analog_in_nomenclature"
  else .bool true

def scrapDecision (quality : Value) : ScrapDecision :=
  evaluateScrapDecision py (asFloat py (quality.get "scrap_pct")) (analogInNomenclature quality)

def requestDocuments (category : Category) (findings : List Finding) : EngineerOutput :=
  { stage := .docCheck
    category
    mandatoryDocsOk := false
    fitnessStatus := .pending
    actRef := none
    labelRef := none
    nextStatus := "quality_doc_check"
    nextAgent := some "quality_engineer_agent"
    findings
    actions := ["DOC_CHECK", "REQUEST_DOCS"]
    summary := "Документарная проверка: замечаний " ++ toString findings.length ++
      " (SLA ≤ 0.5 ч)."
    waitReason := "Требуется комплект документов по категории ТМЦ и проверка оригиналов." }

def buildProgram (category : Category) (ruleId : String) : EngineerOutput :=
  { stage := .program
    category
    mandatoryDocsOk := true
    fitnessStatus := .pending
    actRef := none
    labelRef := none
    nextStatus := "quality_inspection"
    nextAgent := some "quality_engineer_agent"
    findings := []
    actions := ["BUILD_PROGRAM", "SAMPLE_RULE"]
    summary := "Программа контроля и выборка готовы (" ++ ruleId ++ ")."
    waitReason := "Подтвердите программу контроля и выполните физический осмотр." }

/-- A finding about a missing part of the record of the inspection. -/
def missingRecord (caseId field ruleId message : String) (severity : Severity) (fix : String) :
    Finding :=
  { field
    ruleId
    sourceRef := "case:" ++ caseId
    message
    severity
    suggestedFix := some fix
    currentValue := .null }

def missingRecords (caseId : String) (quality : Value) : List Finding :=
  (if (quality.get "measured_results").truthy then []
    else [missingRecord caseId "measured_results" "QC.QI.RESULTS"
      "Не зафиксированы результаты измерений / испытаний" .critical
      "Внести measured_results после осмотра человеком"]) ++
  (if (quality.get "instrument_refs").truthy then []
    else [missingRecord caseId "instrument_refs" "QC.QI.INSTRUMENTS"
      "Не указаны средства измерения" .warning "Указать instrument_refs"]) ++
  (if (quality.get "evidence_refs").truthy then []
    else [missingRecord caseId "evidence_refs" "QC.QI.EVIDENCE"
      "Нет ссылок на доказательства (фото/протоколы)" .warning "Приложить evidence_refs"])

def recordInspection (caseId : String) (category : Category) (quality : Value) : EngineerOutput :=
  { stage := .inspection
    category
    mandatoryDocsOk := true
    fitnessStatus := .pending
    actRef := none
    labelRef := none
    nextStatus := "quality_inspection"
    nextAgent := some "quality_engineer_agent"
    findings := missingRecords caseId quality
    actions := ["RECORD_INSPECTION"]
    summary := "Ожидается запись результатов физического контроля человеком."
    waitReason := "Зафиксируйте результаты осмотра, средства измерения и доказательства." }

def nonconformityAct (caseId : String) (category : Category) (doubtful : Bool) : EngineerOutput :=
  { stage := .ncAct
    category
    mandatoryDocsOk := true
    fitnessStatus := if doubtful then .doubtful else .unfit
    actRef := some ("Ф-10-15/" ++ caseId)
    labelRef := none
    nextStatus := "nonconformity"
    nextAgent := some "otk_head_agent"
    findings := []
    actions := ["DRAFT_F10_15", "ISOLATOR_TASK"]
    summary := "Проект акта Ф-10-15/" ++ caseId ++ ". Передача начальнику ОТК."
    waitReason := "Требуется подпись инженера по акту несоответствия." }

def releaseLabel (caseId : String) (category : Category) : EngineerOutput :=
  { stage := .release
    category
    mandatoryDocsOk := true
    fitnessStatus := .fit
    actRef := none
    labelRef := some ("Ф-10-38/" ++ caseId)
    nextStatus := "quality_released"
    nextAgent := none
    findings := []
    actions := ["DRAFT_F10_38", "QUALITY_RELEASED"]
    summary := "Проект разрешающего статуса и ярлыка Ф-10-38/" ++ caseId ++ "."
    waitReason := "Требуется подпись инженера для разрешающего статуса." }

def decidedFitness (fitness : String) (scrap : ScrapDecision) : String :=
  let fitness := if fitness ∈ ["doubtful", "unidentified"] then "doubtful" else fitness
  if fitness = "pending" then
    match scrap.disposition with
    | some .forbid => "unfit"
    | some .commission => "unfit"
    | some .postAndUse => "fit"
    | _ => fitness
  else fitness

/-- The act or the label, after the documents and the inspection. -/
def decideLot (category : Category) : EngineerOutput :=
  let scrap := scrapDecision py (qualityBlob engineerKeys request)
  let fitness := decidedFitness (fitnessText py request) scrap
  if fitness ∈ ["unfit", "doubtful"] ∨ scrap.requireZdk = true then
    nonconformityAct request.caseId category (fitness == "doubtful")
  else releaseLabel request.caseId category

def inspectionComplete : Bool :=
  ((qualityBlob engineerKeys request).get "inspection_complete").truthy

/-- `QualityEngineerService.run` after the pipeline, on its findings. -/
def assess (findings : List Finding) : EngineerOutput :=
  let quality := qualityBlob engineerKeys request
  let stage := workStage py request
  let category := reportedCategory py request
  if findings ≠ [] then requestDocuments category findings
  else if stage ∈ documentStages then buildProgram category (sampleRuleId py request)
  else if inspectionComplete request = false ∨ stage ∈ inspectionStages then
    recordInspection request.caseId category quality
  else decideLot py request category

/-- `QualityEngineerService.run` on a request, without a value where it raises. -/
def run : Option EngineerOutput :=
  (runQualityPipeline py request).bind fun findings =>
    if sampleAccepted py request then some (assess py request findings) else none

end AgentBack.Quality
