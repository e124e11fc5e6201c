import AgentBack.Mail.Routing.Answer
import AgentBack.Mail.Routing.Engine

/-!
# The routing node (`agent_pochta/nodes/n5_route_department.py`)

The department is the one of the rules, the winner of the corrections, or the model's answer; then
come the check on foreign trade, the hint of the kind, the document, the dialog and two checks that
may call an operator. What the calls to the other services answer is a part of the input.
-/

namespace AgentBack.Mail.Routing

open Text (strip)

/-- `Settings`, as far as the node reads them. -/
structure Settings (F : Type) where
  bgeDepartmentRoutingEnabled : Bool
  ragDepartmentEnabled : Bool
  llmConfigured : Bool
  useStubs : Bool
  agentMode : String
  bgeDeptMinScore : F
  spamThreshold : F
  spamGrayZoneLow : F
  deptConfidenceMin : F
  deptConfidenceChairmanMin : F
  deptConfidenceOdMin : F
  deptConfidenceVedMin : F

structure BgeDepartmentPrediction (F : Type) where
  ok : Bool
  deptId : String
  deptName : String
  score : Option F
  candidates : List Candidate

/-- `PriorityDecision`, as far as the node reads it. -/
structure PriorityDecision where
  documentKind : String
  priority : String
  queueTier : Int
  registerErp : Bool
  primaryDepartmentCodes : List String
  hasObligation : Bool

inductive DialogMode where
  | dormant
  | activated
  deriving DecidableEq

def DialogMode.value : DialogMode → String
  | dormant => "dormant"
  | activated => "activated"

/-- `DialogClassification`, with the theme that `apply_dialog_classification` builds. -/
structure DialogClassification where
  isDialog : Bool
  mode : Option DialogMode
  documentKind : String
  registerErp : Bool
  queueTier : Int
  processType : String
  theme : String

/-- `ProcessingStatus`, the values that the node sets. -/
inductive ProcessingStatus where
  | spam
  | awaitingHuman
  | dialog
  deriving DecidableEq

/-- The state of the letter, the settings, and what the calls of the node answer. -/
structure NodeInput (F : Type) where
  settings : Settings F
  email : EmailMessage
  recipient : String
  trace : List String
  existingSpam : Option (SpamResult F)
  restoredFromSpam : Bool
  reanalyze : Bool
  /-- `route_email(…)`. -/
  routed : RoutingDecision
  /-- `engine.rules.get("reserve_code", "00-000066")`. -/
  reserveCode : String
  /-- `engine.rules.get("reserve_name", primary_code)`. -/
  reserveName : String
  /-- `load_onec_department_names_map(…)`. -/
  departmentNames : Dict String String
  /-- `predict_department_bge(…)`. -/
  prediction : BgeDepartmentPrediction F
  /-- `_rag_department_candidates(…)`. -/
  ragCandidates : List Candidate
  llm : Gateway F
  /-- `match_foreign_domain_route(…) is not None`. -/
  foreignDomain : Bool
  /-- `is_commercial_ru_context(…)`. -/
  commercialRu : Bool
  /-- The process of the analysis, or `infer_process_type_heuristic(…)`. -/
  resolvedProcess : String
  /-- The theme of the analysis, or `build_subject_xml_theme(…)`. -/
  xmlTheme : String
  /-- `normalize_organization_code(…)` of the corrections. -/
  orgFromOnec : Option String
  /-- `resolve_partner_name(…)`. -/
  resolvedPartner : Option String
  priorityDecision : PriorityDecision
  /-- `detect_hard_spam(…)`. -/
  detectedHardSpam : Option (SpamResult F)
  /-- `classify_dialog(…)`. -/
  dialog : DialogClassification

/-- What the node leaves in `meta`. -/
structure NodeMeta (F : Type) where
  decision : RoutingDecision
  confidenceLevel : ConfidenceLevel
  confidenceScore : Int
  documentKind : String
  queueTier : Int
  registerErp : Bool
  hasObligation : Bool
  hardForeign : Bool
  ragFallback : Bool
  routingSource : String
  bgeScore : Option F
  bgeDeptCorrectId : Option String
  skipErp : Bool
  ragCandidates : Option (List Candidate)

/-- What the node returns: the keys that it does not set have no value. -/
structure NodePatch (F : Type) where
  spam : Option (SpamResult F)
  routing : Option (RoutingResult F)
  status : Option ProcessingStatus
  humanReview : Bool
  escalationReason : Option String
  trace : List String
  meta_ : Option (NodeMeta F)

def resolveDepartmentDisplayName (names : Dict String String) (code fallback : String) : String :=
  let code := strip code
  if code = "" then strip fallback
  else
    match given (names.get? code) with
    | some name => name
    | none => strip (if fallback ≠ "" then fallback else code)

section
variable {F : Type} [Floating F]

def confidenceToFloat (score : Int) : F :=
  Floating.min (Floating.ofRat 1) (Floating.max (Floating.ofRat 0) (Floating.hundredths score))

def withFallbackConfidence (routing fallback : RoutingResult F) (decisionScore : Int) :
    RoutingResult F :=
  if Floating.positive routing.confidence then routing
  else if Floating.positive fallback.confidence then
    { routing with confidence := fallback.confidence }
  else if 0 < decisionScore then { routing with confidence := confidenceToFloat decisionScore }
  else routing

variable (i : NodeInput F)

/-- `decision.services[0].code`, or the reserve. -/
def NodeInput.primaryCode : String :=
  i.routed.services.head?.elim i.reserveCode ServiceRoute.code

def NodeInput.deptName : String :=
  resolveDepartmentDisplayName i.departmentNames i.primaryCode
    (i.routed.services.head?.elim i.reserveName ServiceRoute.name)

def NodeInput.ruleRouting : RoutingResult F :=
  RoutingResult.of i.primaryCode i.deptName (confidenceToFloat i.routed.confidenceScore)
    (i.routed.services.head?.elim i.routed.matchSource ServiceRoute.reasoning)

def NodeInput.skipSpam : Bool :=
  i.restoredFromSpam || i.reanalyze ||
    i.existingSpam.any fun spam => spam.ruleHit ∈ [some "trusted_sender", some "ministry_not_spam"]

def needsRagFallback (F : Type) [Floating F] (decision : RoutingDecision) : Option Bool :=
  if decision.confidenceLevel = .low then some true
  else if decision.hasConflict then some true
  else if decision.matchSource = "reserve" then some true
  else
    let code := decision.services.head?.elim "" ServiceRoute.code
    (departmentConfidenceAccepted code
      { score := decision.confidenceScore, hardCount := decision.hardSignalCount,
        adaptiveCount := decision.adaptiveSignalCount, hardForeign := decision.hardForeign,
        hasConflict := decision.hasConflict } (Floating.ofRat 0.70 : F)).map fun answer =>
      decide (decision.services ≠ []) && !answer.1 &&
        decide (code ∈ [vedDepartmentCode, "00-000001", "00-000152"])

/-- The candidates for the model and how they were found. -/
structure Retrieval (F : Type) where
  llmCandidates : List Candidate
  ragUsed : Bool
  bgeDirect : Bool
  routingSource : String
  bgeScore : Option F
  bgeDeptCorrectId : Option String
  bgeDeptName : Option String
  notes : List String

def NodeInput.rulesOnly : Retrieval F :=
  { llmCandidates := [{ departmentId := i.primaryCode, departmentName := i.deptName }]
    ragUsed := false, bgeDirect := false, routingSource := "rules", bgeScore := none
    bgeDeptCorrectId := none, bgeDeptName := none, notes := [] }

def NodeInput.ragRetrieval (note : String) : Retrieval F :=
  match i.settings.ragDepartmentEnabled, i.ragCandidates with
  | true, top :: rest =>
    { i.rulesOnly with
      llmCandidates := top :: rest, ragUsed := true, routingSource := "keyword_rag_fallback"
      notes := [note] }
  | _, _ => i.rulesOnly

def NodeInput.bgeRetrieval : Retrieval F :=
  let found : Retrieval F :=
    { i.rulesOnly with
      llmCandidates :=
        if i.prediction.candidates.isEmpty then i.rulesOnly.llmCandidates
        else i.prediction.candidates
      bgeScore := i.prediction.score
      bgeDeptCorrectId := some i.prediction.deptId
      bgeDeptName := some i.prediction.deptName }
  if i.prediction.score.any fun score => Floating.le i.settings.bgeDeptMinScore score then
    { found with
      bgeDirect := true, routingSource := "bge_correction", notes := ["route_department_bge_direct"] }
  else { found with ragUsed := true, routingSource := "llm", notes := ["route_department_bge_llm"] }

def NodeInput.retrieve (needRag : Bool) : Retrieval F :=
  if needRag then
    if i.settings.bgeDepartmentRoutingEnabled then
      if i.prediction.ok then i.bgeRetrieval else i.ragRetrieval "route_department_rag_fallback"
    else i.ragRetrieval "route_department_rag"
  else i.rulesOnly

/-! ## The choice -/

def applySpamDecision (spam : SpamResult F) (settings : Settings F) (trace : List String) :
    Option (NodePatch F) :=
  if !spam.isSpam then none
  else if Floating.le settings.spamThreshold spam.confidence then
    some { spam := some spam, routing := none, status := some .spam, humanReview := false,
           escalationReason := none, trace, meta_ := none }
  else if Floating.le settings.spamGrayZoneLow spam.confidence then
    some { spam := some spam, routing := none, status := some .awaitingHuman, humanReview := true
           escalationReason := some ("Спам в серой зоне (confidence=" ++
             Floating.fixed 2 spam.confidence ++ "): " ++ spam.reason)
           trace, meta_ := none }
  else none

/-- A chosen department, with the spam as it is known then. -/
structure Choice (F : Type) where
  routing : RoutingResult F
  spam : Option (SpamResult F)
  routingSource : String

def NodeInput.startRouting (r : Retrieval F) : RoutingResult F :=
  match r.bgeDirect, given r.bgeDeptCorrectId with
  | true, some winner =>
    RoutingResult.of winner ((given r.bgeDeptName).getD i.deptName)
      (r.bgeScore.getD (Floating.ofRat 0))
      (match r.bgeScore with
        | some score =>
          -- a score of zero prints like no score
          if Json.truthy (.float score "") then
            "BGE correction match score=" ++ Floating.fixed 3 score
          else "BGE correction"
        | none => "BGE correction")
  | _, _ => i.ruleRouting

def NodeInput.applyLlmRouting (r : Retrieval F) : Bool :=
  (r.ragUsed || i.reanalyze || i.restoredFromSpam) && !r.bgeDirect

def NodeInput.useLlmAnalyze : Bool :=
  i.settings.llmConfigured && !i.settings.useStubs

def NodeInput.answered (answer : RoutingResult F) : RoutingResult F :=
  withFallbackConfidence answer i.ruleRouting i.routed.confidenceScore

def answeredSource (r : Retrieval F) : String :=
  if r.routingSource ≠ "keyword_rag_fallback" then "llm" else r.routingSource

/-- The choice between the rules, the corrections and the model; a spam letter ends here. -/
def NodeInput.chooseRouting (r : Retrieval F) :
    Option (Except (NodePatch F) (Choice F)) :=
  if i.useLlmAnalyze then
    (i.llm.analyzeIncoming r.llmCandidates i.skipSpam).map fun analysis =>
      let patch :=
        if i.skipSpam then none
        else applySpamDecision analysis.1 i.settings (i.trace ++ ["route_department"] ++ r.notes)
      match patch with
      | some patch => .error patch
      | none =>
        if i.applyLlmRouting r then
          .ok { routing := i.answered analysis.2, spam := some analysis.1,
                routingSource := answeredSource r }
        else
          .ok { routing := i.startRouting r, spam := some analysis.1,
                routingSource := r.routingSource }
  else if r.ragUsed then
    (i.llm.chooseDepartment r.llmCandidates).map fun choice =>
      .ok { routing := i.answered choice, spam := i.existingSpam, routingSource := answeredSource r }
  else
    some (.ok { routing := i.startRouting r, spam := i.existingSpam,
                routingSource := r.routingSource })

/-! ## After the choice -/

def hasHardForeignEvidence (decision : RoutingDecision) (foreignDomain : Bool) : Bool :=
  decision.hardForeign || decide (decision.matchSource = "det_foreign_domain") || foreignDomain

def rejectVedWithoutHardForeign (routing fallback : RoutingResult F)
    (hardForeign commercialRu : Bool) : RoutingResult F × List String :=
  if routing.departmentId ≠ vedDepartmentCode then (routing, [])
  else if hardForeign then (routing, [])
  else
    let reason := if commercialRu then "ved_blocked_commercial_ru" else "ved_blocked_no_hard_foreign"
    if fallback.departmentId ≠ "" ∧ fallback.departmentId ≠ vedDepartmentCode then
      ({ fallback with reasoning := fallback.reasoning ++ "; " ++ reason }, [reason])
    else
      ({ routing with
          departmentId :=
            if fallback.departmentId ≠ "" then fallback.departmentId else routing.departmentId
          departmentName :=
            if fallback.departmentName ≠ "" then fallback.departmentName else routing.departmentName
          confidence := Floating.min routing.confidence (Floating.ofRat 0.49)
          reasoning := routing.reasoning ++ "; " ++ reason },
        [reason])

def applyKindDepartmentHint (names : Dict String String) (routing : RoutingResult F)
    (decision : RoutingDecision) (priorityDecision : PriorityDecision) (reserveCode : String) :
    RoutingResult F :=
  match priorityDecision.primaryDepartmentCodes with
  | [] => routing
  | hint :: _ =>
    if decision.matchSource ≠ "reserve" ∧ routing.departmentId ≠ reserveCode then routing
    else if hint = routing.departmentId then routing
    else
      { routing with
        departmentId := hint
        departmentName := resolveDepartmentDisplayName names hint hint
        reasoning := routing.reasoning ++ "; hint G.1 " ++ priorityDecision.documentKind ++ "→" ++
          hint }

def NodeInput.hardForeign : Bool :=
  hasHardForeignEvidence i.routed i.foreignDomain

/-- The decision with the foreign evidence, the process, the organization and the partner. -/
def NodeInput.resolvedDecision : RoutingDecision :=
  let decision :=
    if i.hardForeign && !i.routed.hardForeign then { i.routed with hardForeign := true }
    else i.routed
  let decision : RoutingDecision :=
    { decision with
      process := i.resolvedProcess
      services := decision.services.map fun svc : ServiceRoute =>
        { svc with process := i.resolvedProcess } }
  let decision := match given i.orgFromOnec with
    | some organization =>
      if organization ≠ decision.organization then
        { decision with
          organization
          direction := detectDirection organization decision.direction }
      else decision
    | none => decision
  { decision with partner := i.resolvedPartner }

def NodeInput.checkedRouting (choice : Choice F) : RoutingResult F × List String :=
  rejectVedWithoutHardForeign choice.routing i.ruleRouting
    (hasHardForeignEvidence i.resolvedDecision i.foreignDomain) i.commercialRu

def NodeInput.hintedRouting (choice : Choice F) : RoutingResult F :=
  let routing := applyKindDepartmentHint i.departmentNames (i.checkedRouting choice).1
    i.resolvedDecision i.priorityDecision i.reserveCode
  { routing with
    priority := i.priorityDecision.priority
    documentKind := some i.priorityDecision.documentKind
    queueTier := i.priorityDecision.queueTier
    registerErp := i.priorityDecision.registerErp }

section
variable (lower ruleDirection : String → String)

def NodeInput.documentedDecision (i : NodeInput F) (routing : RoutingResult F) : RoutingDecision :=
  let decision :=
    if i.xmlTheme ≠ "" then
      { i.resolvedDecision with theme := sanitizeTheme i.xmlTheme themeMaxLen }
    else i.resolvedDecision
  let changed := decide (routing.departmentId ≠ "" ∧ routing.departmentId ≠ i.primaryCode)
  rebuildDecisionXml lower ruleDirection i.email i.recipient decision
    { departmentId := if changed then some routing.departmentId else none
      departmentName := if changed then some routing.departmentName else none
      theme := none, partner := none, process := some i.resolvedProcess }

def dialogTrace (dialog : DialogClassification) : String :=
  if dialog.mode = some .activated then "dialog_activated" else "dialog_dormant"

def NodeInput.dialogDecision (i : NodeInput F) (decision : RoutingDecision) : RoutingDecision :=
  if i.dialog.isDialog then
    rebuildDecisionXml lower ruleDirection i.email i.recipient
      { decision with
        matchSource := dialogTrace i.dialog
        dialogMode := i.dialog.mode.map DialogMode.value }
      { departmentId := none, departmentName := none, theme := some i.dialog.theme, partner := none,
        process := some i.dialog.processType }
  else decision

def NodeInput.dialogRouting (i : NodeInput F) (routing : RoutingResult F) : RoutingResult F :=
  if i.dialog.isDialog then
    { routing with
      documentKind := some i.dialog.documentKind
      queueTier := i.dialog.queueTier
      registerErp := i.dialog.registerErp }
  else routing

def ConfidenceLevel.value : ConfidenceLevel → String
  | critical => "critical"
  | high => "high"
  | medium => "medium"
  | low => "low"

def needsHumanReview (decision : RoutingDecision) (settings : Settings F) (ragUsed : Bool)
    (routing : RoutingResult F) : Bool × String :=
  if ragUsed && Floating.le settings.deptConfidenceMin routing.confidence then (false, "")
  else if decision.confidenceLevel = .low then
    (true, "Низкая уверенность маршрута (" ++ decision.confidenceLevel.value ++ ", score=" ++
      toString decision.confidenceScore ++ ")")
  else if decision.hasConflict then (true, "Конфликт нескольких правил маршрутизации")
  else if settings.agentMode = "review" ∧ decision.confidenceLevel = .medium then
    (true, "Режим review: требуется подтверждение оператора")
  else (false, "")

def Settings.defaultMin (settings : Settings F) (code : String) : F :=
  if code = "00-000001" then settings.deptConfidenceChairmanMin
  else if code = "00-000152" then settings.deptConfidenceOdMin
  else if code = vedDepartmentCode then settings.deptConfidenceVedMin
  else settings.deptConfidenceMin

/-- `_apply_dept_confidence_gate`: whether an operator is called, and why. -/
def applyDeptConfidenceGate (routing : RoutingResult F) (decision : RoutingDecision)
    (settings : Settings F) (hardForeign : Bool) : Option (Bool × String) :=
  let code := routing.departmentId
  (Floating.percent routing.confidence).bind fun percent =>
    (departmentConfidenceAccepted code
      { score := max percent decision.confidenceScore
        hardCount := decision.hardSignalCount
        adaptiveCount := decision.adaptiveSignalCount
        hardForeign := if code = vedDepartmentCode then hardForeign else decision.hardForeign
        hasConflict := decision.hasConflict } (settings.defaultMin code)).map fun answer =>
      if answer.1 then (false, "")
      else (true, "Порог уверенности отдела не выполнен (" ++ answer.2 ++ ")")

def hardSpamRuleHits : List String :=
  ["blacklist_address", "blacklist_domain", "stop_word", "appendix_a", "list_unsubscribe",
    "suspicious_domain", "no_reply_to_marketing", "tz_noreply", "tz_education", "tz_transport",
    "tz_omto_no_attach", "tz_empty_notice"]

def isHardSpam (spam : Option (SpamResult F)) : Bool :=
  spam.any fun spam => spam.isSpam && decide (strip (spam.ruleHit.getD "") ∈ hardSpamRuleHits)

def NodeInput.hardSpam (i : NodeInput F) (spam : Option (SpamResult F)) : Option (SpamResult F) :=
  if i.restoredFromSpam || i.reanalyze then none
  else if isHardSpam spam then spam
  else i.detectedHardSpam

/-- The level and the score in `meta`: the confidence replaces a lower score. -/
def metaConfidence (routing : RoutingResult F) (decision : RoutingDecision) :
    ConfidenceLevel × Int :=
  match Floating.positive routing.confidence, Floating.percent routing.confidence with
  | true, some llmScore =>
    if decision.confidenceScore < llmScore then (scoreToLevel llmScore, llmScore)
    else (decision.confidenceLevel, decision.confidenceScore)
  | _, _ => (decision.confidenceLevel, decision.confidenceScore)

/-- `meta` of the node. -/
def NodeInput.nodeMeta (i : NodeInput F) (r : Retrieval F) (choice : Choice F)
    (routing : RoutingResult F) (decision : RoutingDecision) : NodeMeta F :=
  { decision
    confidenceLevel := (metaConfidence routing decision).1
    confidenceScore := (metaConfidence routing decision).2
    documentKind := (given routing.documentKind).getD i.priorityDecision.documentKind
    queueTier := routing.queueTier
    registerErp := routing.registerErp
    hasObligation := i.priorityDecision.hasObligation
    hardForeign := i.hardForeign
    ragFallback := r.ragUsed && decide (choice.routingSource = "keyword_rag_fallback")
    routingSource := choice.routingSource
    bgeScore := r.bgeScore
    bgeDeptCorrectId := r.bgeDeptCorrectId
    skipErp := !routing.registerErp
    ragCandidates := if r.ragUsed || r.bgeDirect then some r.llmCandidates else none }

def NodeInput.finish (i : NodeInput F) (r : Retrieval F) (choice : Choice F) :
    Option (NodePatch F) :=
  let trace := i.trace ++ ["route_department"] ++ r.notes ++ (i.checkedRouting choice).2
  match i.hardSpam choice.spam with
  | some hardSpam =>
    some { spam := some hardSpam, routing := none, status := some .spam, humanReview := false
           escalationReason := none, trace := trace ++ ["hard_spam_skip_dialog"], meta_ := none }
  | none =>
    let routing := i.dialogRouting (i.hintedRouting choice)
    let decision := i.dialogDecision lower ruleDirection
      (i.documentedDecision lower ruleDirection (i.hintedRouting choice))
    let trace := if i.dialog.isDialog then trace ++ [dialogTrace i.dialog] else trace
    let review := needsHumanReview decision i.settings r.ragUsed routing
    (applyDeptConfidenceGate routing decision i.settings i.hardForeign).map fun gate =>
      let reason := if gate.1 && decide (gate.2 ≠ "") then gate.2 else review.2
      let info := i.nodeMeta r choice routing decision
      if review.1 || gate.1 || i.restoredFromSpam || i.reanalyze then
        { spam := choice.spam, routing := some routing, status := some .awaitingHuman
          humanReview := true
          escalationReason := some (
            if i.restoredFromSpam then "Восстановлено из спама: требуется подтверждение оператора"
            else if i.reanalyze then
              "Повторный анализ LLM: проверьте партнёра, отдел и организацию"
            else reason)
          trace :=
            if i.restoredFromSpam then trace ++ ["restored_from_spam_hitl"]
            else if i.reanalyze then trace ++ ["reanalyze_hitl"]
            else trace
          meta_ := some info }
      else
        { spam := choice.spam, routing := some routing
          status :=
            if i.dialog.isDialog && decide (i.dialog.mode = some .dormant) then some .dialog else none
          humanReview := false, escalationReason := none, trace, meta_ := some info }

/-- `node_route_department`. There is no value where it raises. -/
def nodeRouteDepartment (i : NodeInput F) : Option (NodePatch F) :=
  (needsRagFallback F i.routed).bind fun fallback =>
    let r := i.retrieve (fallback || i.reanalyze)
    (i.chooseRouting r).bind fun
      | .error patch => some patch
      | .ok choice => i.finish lower ruleDirection r choice

end

end

end AgentBack.Mail.Routing
