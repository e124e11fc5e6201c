import AgentBack.Mail.Routing.Node

/-!
# How the routing node ends

A letter is routed without an operator exactly when it comes from one of three origins, is no spam
and passes both checks (`routed_iff`). A verdict carries, beside the department and the confidence,
the department that the confidence was given for.
-/

namespace AgentBack.Mail.Routing

open Text (strip)

variable {F : Type} {lower ruleDirection : String → String}

/-! ## The evidence of the decision -/

/-- The decision that the checks see: the rules' one, with the foreign evidence of the letter. -/
def NodeInput.scored (i : NodeInput F) : RoutingDecision :=
  { i.routed with hardForeign := i.hardForeign }

structure SameEvidence (a b : RoutingDecision) : Prop where
  level : a.confidenceLevel = b.confidenceLevel
  score : a.confidenceScore = b.confidenceScore
  conflict : a.hasConflict = b.hasConflict
  hard : a.hardSignalCount = b.hardSignalCount
  adaptive : a.adaptiveSignalCount = b.adaptiveSignalCount
  foreign : a.hardForeign = b.hardForeign

theorem SameEvidence.trans {a b c : RoutingDecision} (h : SameEvidence a b) (h' : SameEvidence b c) :
    SameEvidence a c :=
  ⟨h.level.trans h'.level, h.score.trans h'.score, h.conflict.trans h'.conflict,
    h.hard.trans h'.hard, h.adaptive.trans h'.adaptive, h.foreign.trans h'.foreign⟩

theorem sameEvidence_updated (ruleDirection : String → String) (decision : RoutingDecision)
    (call : Rebuild) :
    SameEvidence (updatedDecision ruleDirection decision call) decision := by
  unfold updatedDecision
  cases given call.departmentId with
  | some department => exact ⟨rfl, rfl, rfl, rfl, rfl, rfl⟩
  | none =>
    by_cases hprocess : call.process.isSome
    · simp only [if_pos hprocess]
      exact ⟨rfl, rfl, rfl, rfl, rfl, rfl⟩
    · simp only [if_neg hprocess]
      exact ⟨rfl, rfl, rfl, rfl, rfl, rfl⟩

/-- A new document does not touch the evidence. -/
theorem sameEvidence_rebuild (email : EmailMessage) (recipient : String)
    (decision : RoutingDecision) (call : Rebuild) :
    SameEvidence (rebuildDecisionXml lower ruleDirection email recipient decision call) decision := by
  apply SameEvidence.trans _ (sameEvidence_updated ruleDirection decision call)
  unfold rebuildDecisionXml withDocument
  generalize updatedDecision ruleDirection decision call = updated
  dsimp only
  generalize stripForbiddenTags (buildXmlDocument lower email recipient updated false) = xml
  cases validateXmlDocument xml with
  | false | true => exact ⟨rfl, rfl, rfl, rfl, rfl, rfl⟩

/-- Raising the flag is setting it to the evidence of the letter. -/
theorem raise_hardForeign (decision : RoutingDecision) (foreign : Bool)
    (h : decision.hardForeign = true → foreign = true) :
    (if foreign && !decision.hardForeign then { decision with hardForeign := true } else decision) =
      { decision with hardForeign := foreign } := by
  obtain ⟨_, _, _, _, _, _, _, _, _, _, _, _, _, _, _, flag⟩ := decision
  cases flag with
  | true => rw [h rfl]; rfl
  | false => cases foreign <;> rfl

theorem sameEvidence_resolved (i : NodeInput F) : SameEvidence i.resolvedDecision i.scored := by
  have hforeign := raise_hardForeign i.routed i.hardForeign (by
    intro h
    unfold NodeInput.hardForeign hasHardForeignEvidence
    rw [h]
    rfl)
  unfold NodeInput.resolvedDecision
  rw [hforeign]
  cases given i.orgFromOnec with
  | none => exact ⟨rfl, rfl, rfl, rfl, rfl, rfl⟩
  | some organization =>
    dsimp only
    split_ifs
    · exact ⟨rfl, rfl, rfl, rfl, rfl, rfl⟩
    · exact ⟨rfl, rfl, rfl, rfl, rfl, rfl⟩

theorem matchSource_resolved (i : NodeInput F) :
    i.resolvedDecision.matchSource = i.routed.matchSource := by
  unfold NodeInput.resolvedDecision
  cases given i.orgFromOnec with
  | none | some organization => dsimp only; split_ifs <;> rfl

theorem sameEvidence_documented (lower ruleDirection : String → String) (i : NodeInput F)
    (routing : RoutingResult F) :
    SameEvidence (i.documentedDecision lower ruleDirection routing) i.scored := by
  have hthemed : ∀ theme : String,
      SameEvidence (if i.xmlTheme ≠ "" then { i.resolvedDecision with theme := theme }
        else i.resolvedDecision) i.scored := by
    intro theme
    have h := sameEvidence_resolved i
    split_ifs
    · exact ⟨h.level, h.score, h.conflict, h.hard, h.adaptive, h.foreign⟩
    · exact h
  unfold NodeInput.documentedDecision
  dsimp only
  exact (sameEvidence_rebuild i.email i.recipient _ _).trans (hthemed _)

theorem sameEvidence_final (lower ruleDirection : String → String) (i : NodeInput F)
    (routing : RoutingResult F) :
    SameEvidence (i.dialogDecision lower ruleDirection
      (i.documentedDecision lower ruleDirection routing)) i.scored := by
  have hdocumented := sameEvidence_documented lower ruleDirection i routing
  generalize i.documentedDecision lower ruleDirection routing = decision at hdocumented
  unfold NodeInput.dialogDecision
  split_ifs
  · refine (sameEvidence_rebuild i.email i.recipient _ _).trans ?_
    exact ⟨hdocumented.level, hdocumented.score, hdocumented.conflict, hdocumented.hard,
      hdocumented.adaptive, hdocumented.foreign⟩
  · exact hdocumented

variable [Floating F]

/-! ## The gate -/

def GatedLeadership (code : String) : Prop :=
  strip code = chairmanDepartmentCode ∨ strip code = odDepartmentCode

instance (code : String) : Decidable (GatedLeadership code) :=
  inferInstanceAs (Decidable (_ ∨ _))

def adaptiveNeed (code : String) : Int :=
  if strip code = chairmanDepartmentCode then adaptiveOnlyChairman else adaptiveOnlyOd

structure Accepts (code : String) (evidence : Evidence) (minPct : Int) : Prop where
  score : minPct ≤ evidence.score
  conflict : GatedLeadership code → evidence.hasConflict = false
  signals : GatedLeadership code →
    1 ≤ evidence.hardCount ∨ adaptiveNeed code ≤ evidence.adaptiveCount
  foreign : strip code = vedDepartmentCode → evidence.hardForeign = true

theorem gatedLeadership_iff (code : String) :
    (strip code ∈ leadershipDepartmentCodes ∧
      (strip code = chairmanDepartmentCode ∨ strip code = odDepartmentCode)) ↔
      GatedLeadership code := by
  constructor
  · intro h
    exact h.2
  · intro h
    refine ⟨?_, h⟩
    rcases h with h | h <;> rw [h] <;> decide

theorem not_gatedLeadership_of_ved {code : String} (h : strip code = vedDepartmentCode) :
    ¬ GatedLeadership code := by
  unfold GatedLeadership
  rw [h]
  decide

theorem departmentGateMin_strip (code : String) (defaultMin : F) :
    departmentGateMin (strip code) defaultMin = departmentGateMin code defaultMin := by
  simp only [departmentGateMin, Text.strip_strip]

/-- The gate answers `True` exactly when the department accepts the evidence. -/
theorem departmentConfidenceAccepted_iff (code : String) (evidence : Evidence) (defaultMin : F) :
    (∃ reason, departmentConfidenceAccepted code evidence defaultMin = some (true, reason)) ↔
      ∃ minPct, departmentGateMin code defaultMin = some minPct ∧ Accepts code evidence minPct := by
  simp only [departmentConfidenceAccepted, departmentGateMin_strip]
  cases hmin : departmentGateMin code defaultMin with
  | none => simp only [Option.map_none, reduceCtorEq, exists_const, false_and]
  | some minPct =>
    simp only [Option.map_some, Option.some.injEq, exists_eq_left']
    by_cases hlead : GatedLeadership code
    · have hved : strip code ≠ vedDepartmentCode := fun h => not_gatedLeadership_of_ved h hlead
      have hneed : (if strip code = chairmanDepartmentCode then adaptiveOnlyChairman
          else adaptiveOnlyOd) = adaptiveNeed code := rfl
      rw [if_pos ((gatedLeadership_iff code).mpr hlead), hneed]
      constructor
      · rintro ⟨reason, h⟩
        split_ifs at h with hconflict hsignals hscore
        · cases h
        · cases h
        · cases h
        · exact ⟨by omega, fun _ => by simpa using hconflict, fun _ => by omega,
            fun h => absurd h hved⟩
      · intro h
        have hsignals := h.signals hlead
        have hscore := h.score
        refine ⟨"ok", ?_⟩
        rw [if_neg (by rw [h.conflict hlead]; decide), if_neg (by omega), if_neg (by omega)]
    · rw [if_neg (fun h => hlead ((gatedLeadership_iff code).mp h))]
      by_cases hved : strip code = vedDepartmentCode
      · rw [if_pos hved]
        constructor
        · rintro ⟨reason, h⟩
          split_ifs at h with hforeign hscore
          · cases h
          · cases h
          · refine ⟨by omega, fun h => absurd h hlead, fun h => absurd h hlead, fun _ => ?_⟩
            simpa using hforeign
        · intro h
          refine ⟨"ok", ?_⟩
          rw [if_neg (by rw [h.foreign hved]; decide), if_neg (by have := h.score; omega)]
      · rw [if_neg hved]
        constructor
        · rintro ⟨reason, h⟩
          split_ifs at h with hscore
          · cases h
          · exact ⟨by omega, fun h => absurd h hlead, fun h => absurd h hlead,
              fun h => absurd h hved⟩
        · intro h
          refine ⟨"ok", ?_⟩
          rw [if_neg (by have := h.score; omega)]

/-! ## Where a department comes from -/

/-- Where a department comes from: the rules, the corrections, or the model. -/
inductive Origin (F : Type) where
  | rules
  | corrections (winner : String) (score : F)
  | model (answer : RoutingResult F)
  deriving DecidableEq

/-- A department with a confidence, and the department that the confidence was given for. -/
structure Verdict (F : Type) where
  departmentId : String
  confidence : F
  judgedFor : String

def NodeInput.ruleVerdict (i : NodeInput F) : Verdict F :=
  { departmentId := i.primaryCode
    confidence := confidenceToFloat i.routed.confidenceScore
    judgedFor := i.primaryCode }

/-- The verdict of an origin: an answer without a confidence borrows the one of the rules. -/
def Origin.verdict (i : NodeInput F) : Origin F → Verdict F
  | rules => i.ruleVerdict
  | corrections winner score =>
    { departmentId := winner, confidence := score, judgedFor := winner }
  | model answer =>
    { departmentId := answer.departmentId
      confidence := (i.answered answer).confidence
      judgedFor :=
        if Floating.positive answer.confidence then answer.departmentId
        else if Floating.positive i.ruleRouting.confidence || decide (0 < i.routed.confidenceScore)
        then i.primaryCode
        else answer.departmentId }

def Retrieval.startOrigin (r : Retrieval F) : Origin F :=
  match r.bgeDirect, given r.bgeDeptCorrectId with
  | true, some winner => .corrections winner (r.bgeScore.getD (Floating.ofRat 0))
  | _, _ => .rules

def NodeInput.search (i : NodeInput F) : Option (Retrieval F) :=
  (needsRagFallback F i.routed).map fun fallback => i.retrieve (fallback || i.reanalyze)

/-- The answer that is read from the model, with the spam as it is known then; a letter that the
answer makes spam has none. -/
def NodeInput.reading (i : NodeInput F) (r : Retrieval F) :
    Option (RoutingResult F × Option (SpamResult F)) :=
  if i.useLlmAnalyze then
    (i.llm.analyzeIncoming r.llmCandidates i.skipSpam).bind fun analysis =>
      if i.skipSpam || (applySpamDecision analysis.1 i.settings []).isNone then
        some (analysis.2, some analysis.1)
      else none
  else (i.llm.chooseDepartment r.llmCandidates).map fun choice => (choice, i.existingSpam)

/-- The origin of the department, with the spam as it is known then. -/
def NodeInput.origin (i : NodeInput F) (r : Retrieval F) :
    Option (Origin F × Option (SpamResult F)) :=
  if i.useLlmAnalyze then
    (i.reading r).map fun answer =>
      (if i.applyLlmRouting r then .model answer.1 else r.startOrigin, answer.2)
  else if r.ragUsed then (i.reading r).map fun answer => (.model answer.1, answer.2)
  else some (r.startOrigin, i.existingSpam)

/-- The routing has the department and the confidence of the verdict. -/
structure Shows (routing : RoutingResult F) (verdict : Verdict F) : Prop where
  department : routing.departmentId = verdict.departmentId
  confidence : routing.confidence = verdict.confidence

theorem answered_departmentId (i : NodeInput F) (answer : RoutingResult F) :
    (i.answered answer).departmentId = answer.departmentId := by
  unfold NodeInput.answered withFallbackConfidence
  split_ifs <;> rfl

theorem startRouting_shows (i : NodeInput F) (r : Retrieval F) :
    Shows (i.startRouting r) (r.startOrigin.verdict i) := by
  unfold NodeInput.startRouting Retrieval.startOrigin
  cases r.bgeDirect with
  | false => exact ⟨rfl, rfl⟩
  | true =>
    cases given r.bgeDeptCorrectId with
    | none | some winner => exact ⟨rfl, rfl⟩

theorem answered_shows (i : NodeInput F) (answer : RoutingResult F) :
    Shows (i.answered answer) ((Origin.model answer).verdict i) :=
  ⟨answered_departmentId i answer, rfl⟩

/-- Whether a letter is spam does not depend on the trace. -/
theorem applySpamDecision_isNone (spam : SpamResult F) (settings : Settings F)
    (trace : List String) :
    (applySpamDecision spam settings trace).isNone = (applySpamDecision spam settings []).isNone := by
  unfold applySpamDecision
  split_ifs <;> rfl

/-- The choice of the node is the origin of the department. -/
theorem chooseRouting_spec (i : NodeInput F) (r : Retrieval F) :
    match i.chooseRouting r with
    | some (.ok choice) => ∃ origin, i.origin r = some (origin, choice.spam) ∧
        Shows choice.routing (origin.verdict i)
    | some (.error patch) => patch.routing = none ∧ i.origin r = none
    | none => i.origin r = none := by
  unfold NodeInput.chooseRouting NodeInput.origin NodeInput.reading
  cases i.useLlmAnalyze with
  | true =>
    simp only [if_true]
    cases i.llm.analyzeIncoming r.llmCandidates i.skipSpam with
    | none => rfl
    | some analysis =>
      have htrace := applySpamDecision_isNone analysis.1 i.settings
        (i.trace ++ ["route_department"] ++ r.notes)
      simp only [Option.map_some, Option.bind_some]
      cases i.skipSpam with
      | true =>
        cases i.applyLlmRouting r with
        | true => exact ⟨_, rfl, answered_shows i analysis.2⟩
        | false => exact ⟨_, rfl, startRouting_shows i r⟩
      | false =>
        rw [← htrace]
        simp only [Bool.false_or, Bool.false_eq_true, if_false]
        cases hspam : applySpamDecision analysis.1 i.settings
            (i.trace ++ ["route_department"] ++ r.notes) with
        | some patch =>
          refine ⟨?_, rfl⟩
          unfold applySpamDecision at hspam
          split_ifs at hspam <;> cases hspam <;> rfl
        | none =>
          cases i.applyLlmRouting r with
          | true => exact ⟨_, rfl, answered_shows i analysis.2⟩
          | false => exact ⟨_, rfl, startRouting_shows i r⟩
  | false =>
    simp only [Bool.false_eq_true, if_false]
    cases r.ragUsed with
    | true =>
      cases i.llm.chooseDepartment r.llmCandidates with
      | none => rfl
      | some choice => exact ⟨_, rfl, answered_shows i choice⟩
    | false => exact ⟨_, rfl, startRouting_shows i r⟩

/-! ## What the later stages make of a verdict -/

def NodeInput.checkedVerdict (i : NodeInput F) (verdict : Verdict F) : Verdict F :=
  if verdict.departmentId = vedDepartmentCode ∧ i.hardForeign = false then
    if i.primaryCode ≠ "" ∧ i.primaryCode ≠ vedDepartmentCode then i.ruleVerdict
    else
      { verdict with confidence := Floating.min verdict.confidence (Floating.ofRat 0.49) }
  else verdict

/-- The hint of the kind, when it may replace the department. -/
def NodeInput.hint (i : NodeInput F) (department : String) : Option String :=
  if i.routed.matchSource = "reserve" ∨ department = i.reserveCode then
    i.priorityDecision.primaryDepartmentCodes.head?
  else none

/-- The verdict after the hint: the confidence stays the one of the department before. -/
def NodeInput.hintedVerdict (i : NodeInput F) (verdict : Verdict F) : Verdict F :=
  { verdict with departmentId := (i.hint verdict.departmentId).getD verdict.departmentId }

def Origin.finalVerdict (i : NodeInput F) (origin : Origin F) : Verdict F :=
  i.hintedVerdict (i.checkedVerdict (origin.verdict i))

omit [Floating F] in
theorem hardForeign_resolved (i : NodeInput F) :
    hasHardForeignEvidence i.resolvedDecision i.foreignDomain = i.hardForeign := by
  have h := (sameEvidence_resolved i).foreign
  unfold hasHardForeignEvidence
  rw [h, matchSource_resolved]
  simp only [NodeInput.scored, NodeInput.hardForeign, hasHardForeignEvidence]
  cases i.routed.hardForeign <;> cases i.foreignDomain <;> simp

variable {i : NodeInput F} {verdict : Verdict F}

theorem checkedRouting_shows {choice : Choice F} (h : Shows choice.routing verdict) :
    Shows (i.checkedRouting choice).1 (i.checkedVerdict verdict) := by
  unfold NodeInput.checkedRouting rejectVedWithoutHardForeign NodeInput.checkedVerdict
  rw [hardForeign_resolved, h.department]
  by_cases hved : verdict.departmentId = vedDepartmentCode
  · cases hforeign : i.hardForeign with
    | true => simpa [hved] using h
    | false =>
      simp only [hved, ne_eq, not_true, if_false, Bool.false_eq_true, and_self, if_true]
      have hprimary : (i.ruleRouting).departmentId = i.primaryCode := rfl
      rw [hprimary]
      by_cases hfallback : i.primaryCode ≠ "" ∧ i.primaryCode ≠ vedDepartmentCode
      · rw [if_pos hfallback, if_pos hfallback]
        exact ⟨rfl, rfl⟩
      · rw [if_neg hfallback, if_neg hfallback]
        constructor
        · dsimp only
          split_ifs with hempty
          · rfl
          · by_contra hother
            exact hfallback ⟨hempty, hother⟩
        · simp only [h.confidence]
  · simpa [hved] using h

theorem hintedRouting_shows {choice : Choice F} (h : Shows choice.routing verdict) :
    Shows (i.dialogRouting (i.hintedRouting choice)) (i.hintedVerdict (i.checkedVerdict verdict)) := by
  have hchecked := checkedRouting_shows (i := i) h
  have hhinted : Shows (i.hintedRouting choice) (i.hintedVerdict (i.checkedVerdict verdict)) := by
    unfold NodeInput.hintedRouting applyKindDepartmentHint NodeInput.hintedVerdict NodeInput.hint
    rw [matchSource_resolved, hchecked.department]
    generalize i.checkedVerdict verdict = checked at hchecked
    cases i.priorityDecision.primaryDepartmentCodes with
    | nil =>
      refine ⟨?_, hchecked.confidence⟩
      simp only [hchecked.department, List.head?_nil, ite_self, Option.getD_none]
    | cons hint rest =>
      by_cases hkept : i.routed.matchSource ≠ "reserve" ∧ checked.departmentId ≠ i.reserveCode
      · have hnone : ¬ (i.routed.matchSource = "reserve" ∨ checked.departmentId = i.reserveCode) := by
          tauto
        simp only [if_pos hkept, if_neg hnone, Option.getD_none]
        exact ⟨hchecked.department, hchecked.confidence⟩
      · have hsome : i.routed.matchSource = "reserve" ∨ checked.departmentId = i.reserveCode := by
          tauto
        simp only [if_neg hkept, if_pos hsome, List.head?_cons, Option.getD_some]
        by_cases hsame : hint = checked.departmentId
        · simp only [if_pos hsame]
          exact ⟨hchecked.department.trans hsame.symm, hchecked.confidence⟩
        · simp only [if_neg hsame]
          exact ⟨rfl, hchecked.confidence⟩
  unfold NodeInput.dialogRouting
  split_ifs
  · exact ⟨hhinted.department, hhinted.confidence⟩
  · exact hhinted

def NodeInput.evidence (i : NodeInput F) (score : Int) : Evidence :=
  { score
    hardCount := i.routed.hardSignalCount
    adaptiveCount := i.routed.adaptiveSignalCount
    hardForeign := i.hardForeign
    hasConflict := i.routed.hasConflict }

/-- Both checks let the verdict through. -/
structure Passes (i : NodeInput F) (ragUsed : Bool) (verdict : Verdict F) : Prop where
  review : (ragUsed = true ∧
      Floating.le i.settings.deptConfidenceMin verdict.confidence = true) ∨
    (i.routed.confidenceLevel ≠ .low ∧ i.routed.hasConflict = false ∧
      ¬ (i.settings.agentMode = "review" ∧ i.routed.confidenceLevel = .medium))
  gate : ∃ percent minPct, Floating.percent verdict.confidence = some percent ∧
    departmentGateMin verdict.departmentId (i.settings.defaultMin verdict.departmentId) =
      some minPct ∧
    Accepts verdict.departmentId (i.evidence (max percent i.routed.confidenceScore)) minPct

theorem needsHumanReview_iff (ragUsed : Bool) {decision : RoutingDecision}
    {routing : RoutingResult F} (hsame : SameEvidence decision i.scored)
    (h : Shows routing verdict) :
    (needsHumanReview decision i.settings ragUsed routing).1 = false ↔
      (ragUsed = true ∧ Floating.le i.settings.deptConfidenceMin verdict.confidence = true) ∨
      (i.routed.confidenceLevel ≠ .low ∧ i.routed.hasConflict = false ∧
        ¬ (i.settings.agentMode = "review" ∧ i.routed.confidenceLevel = .medium)) := by
  have hlevel : decision.confidenceLevel = i.routed.confidenceLevel := hsame.level
  have hconflict : decision.hasConflict = i.routed.hasConflict := hsame.conflict
  unfold needsHumanReview
  rw [h.confidence, hlevel, hconflict]
  split_ifs with hsure hlow hconflict hreview
  · simp only [Bool.and_eq_true] at hsure
    exact iff_of_true rfl (.inl hsure)
  all_goals simp only [Bool.and_eq_true] at hsure
  · simp only [hsure, hlow, false_or, ne_eq, not_true, false_and]
  · simp only [hsure, hconflict, Bool.true_eq_false, false_or, false_and, and_false]
  · simp only [hsure, hreview, false_or, not_true, and_false, and_self]
  · simp only [hsure, false_or, true_iff]
    exact ⟨hlow, by simpa using hconflict, hreview⟩

theorem applyDeptConfidenceGate_iff {decision : RoutingDecision}
    {routing : RoutingResult F} (hsame : SameEvidence decision i.scored)
    (h : Shows routing verdict) :
    (∃ reason, applyDeptConfidenceGate routing decision i.settings i.hardForeign =
      some (false, reason)) ↔
    ∃ percent minPct, Floating.percent verdict.confidence = some percent ∧
      departmentGateMin verdict.departmentId (i.settings.defaultMin verdict.departmentId) =
        some minPct ∧
      Accepts verdict.departmentId (i.evidence (max percent i.routed.confidenceScore)) minPct := by
  have hforeign : decision.hardForeign = i.hardForeign := hsame.foreign
  unfold applyDeptConfidenceGate
  rw [h.confidence, h.department, hsame.score, hsame.hard, hsame.adaptive, hsame.conflict, hforeign]
  cases Floating.percent verdict.confidence with
  | none => simp only [Option.bind_none, reduceCtorEq, exists_const, false_and]
  | some percent =>
    have hgate := departmentConfidenceAccepted_iff verdict.departmentId
      (i.evidence (max percent i.routed.confidenceScore))
      (i.settings.defaultMin verdict.departmentId)
    simp only [Option.bind_some, ite_self, Option.some.injEq, exists_and_left, exists_eq_left']
    rw [← hgate]
    change (∃ reason, (departmentConfidenceAccepted verdict.departmentId
      (i.evidence (max percent i.routed.confidenceScore)) _).map _ = some (false, reason)) ↔ _
    cases departmentConfidenceAccepted verdict.departmentId
        (i.evidence (max percent i.routed.confidenceScore))
        (i.settings.defaultMin verdict.departmentId) with
    | none => simp only [Option.map_none, reduceCtorEq, exists_const]
    | some answer =>
      obtain ⟨accepted, reason⟩ := answer
      cases accepted with
      | true => simp
      | false => simp

/-- The letter goes to the verdict of its origin without an operator. -/
structure Automatic (i : NodeInput F) (r : Retrieval F) (origin : Origin F)
    (spam : Option (SpamResult F)) : Prop where
  search : i.search = some r
  chosen : i.origin r = some (origin, spam)
  notRestored : i.restoredFromSpam = false
  notReanalyzed : i.reanalyze = false
  notSpam : i.hardSpam spam = none
  passes : Passes i r.ragUsed (origin.finalVerdict i)

/-- After the choice the node ends without an operator exactly when both checks let it. -/
theorem finish_iff (lower ruleDirection : String → String) {r : Retrieval F}
    {choice : Choice F} (h : Shows choice.routing verdict) (routing : RoutingResult F) :
    (∃ patch, i.finish lower ruleDirection r choice = some patch ∧ patch.humanReview = false ∧
      patch.routing = some routing) ↔
    i.restoredFromSpam = false ∧ i.reanalyze = false ∧ i.hardSpam choice.spam = none ∧
      routing = i.dialogRouting (i.hintedRouting choice) ∧
      Passes i r.ragUsed (i.hintedVerdict (i.checkedVerdict verdict)) := by
  have hshows := hintedRouting_shows (i := i) h
  have hsame := sameEvidence_final lower ruleDirection i (i.hintedRouting choice)
  unfold NodeInput.finish
  cases i.hardSpam choice.spam with
  | some spam => simp
  | none =>
    dsimp only
    generalize i.dialogDecision lower ruleDirection
      (i.documentedDecision lower ruleDirection (i.hintedRouting choice)) = decision at hsame ⊢
    generalize i.dialogRouting (i.hintedRouting choice) = final at hshows ⊢
    have hreview := needsHumanReview_iff r.ragUsed hsame hshows
    have hgate := applyDeptConfidenceGate_iff hsame hshows
    have hpasses : Passes i r.ragUsed (i.hintedVerdict (i.checkedVerdict verdict)) ↔
        (needsHumanReview decision i.settings r.ragUsed final).1 = false ∧
        ∃ reason, applyDeptConfidenceGate final decision i.settings i.hardForeign =
          some (false, reason) := by
      rw [hreview, hgate]
      exact ⟨fun h => ⟨h.review, h.gate⟩, fun h => ⟨h.1, h.2⟩⟩
    rw [hpasses]
    generalize needsHumanReview decision i.settings r.ragUsed final = review
    generalize applyDeptConfidenceGate final decision i.settings i.hardForeign = gate
    obtain ⟨called, why⟩ := review
    cases gate with
    | none => simp
    | some gate =>
      obtain ⟨stopped, reason⟩ := gate
      simp only [Option.map_some, Option.some.injEq, exists_eq_left']
      cases i.restoredFromSpam with
      | true => simp
      | false =>
        cases i.reanalyze with
        | true => simp
        | false =>
          cases called with
          | true => simp
          | false =>
            cases stopped with
            | true => simp
            | false => simp [@eq_comm _ final routing]

/-- **How the node ends.** It ends with a routing and without an operator exactly when the letter
is automatic, and the routing shows the verdict of its origin. -/
theorem routed_automatic {patch : NodePatch F} {routing : RoutingResult F}
    (hnode : nodeRouteDepartment lower ruleDirection i = some patch)
    (hhuman : patch.humanReview = false) (hrouting : patch.routing = some routing) :
    ∃ r origin spam, Automatic i r origin spam ∧ Shows routing (origin.finalVerdict i) := by
  obtain ⟨fallback, hfallback, hrest⟩ := Option.bind_eq_some_iff.mp hnode
  obtain ⟨chosen, hchosen, hend⟩ := Option.bind_eq_some_iff.mp hrest
  have hspec := chooseRouting_spec i (i.retrieve (fallback || i.reanalyze))
  rw [hchosen] at hspec
  cases chosen with
  | error stopped =>
    cases hend
    rw [hspec.1] at hrouting
    cases hrouting
  | ok choice =>
    obtain ⟨origin, horigin, hshows⟩ := hspec
    obtain ⟨hrestored, hreanalyze, hspam, rfl, hpasses⟩ :=
      (finish_iff lower ruleDirection hshows routing).mp ⟨patch, hend, hhuman, hrouting⟩
    refine ⟨_, origin, choice.spam, ⟨?_, horigin, hrestored, hreanalyze, hspam, hpasses⟩,
      hintedRouting_shows hshows⟩
    exact Option.map_eq_some_iff.mpr ⟨fallback, hfallback, rfl⟩

theorem automatic_routed (lower ruleDirection : String → String) {r : Retrieval F}
    {origin : Origin F} {spam : Option (SpamResult F)} (h : Automatic i r origin spam) :
    ∃ patch routing, nodeRouteDepartment lower ruleDirection i = some patch ∧
      patch.humanReview = false ∧ patch.routing = some routing ∧
      Shows routing (origin.finalVerdict i) := by
  obtain ⟨fallback, hfallback, rfl⟩ := Option.map_eq_some_iff.mp h.search
  have hspec := chooseRouting_spec i (i.retrieve (fallback || i.reanalyze))
  cases hchosen : i.chooseRouting (i.retrieve (fallback || i.reanalyze)) with
  | none =>
    rw [hchosen, h.chosen] at hspec
    cases hspec
  | some chosen =>
    cases chosen with
    | error stopped =>
      rw [hchosen, h.chosen] at hspec
      cases hspec.2
    | ok choice =>
      rw [hchosen] at hspec
      obtain ⟨other, hother, hshows⟩ := hspec
      rw [h.chosen] at hother
      cases hother
      obtain ⟨patch, hend, hhuman, hrouting⟩ :=
        (finish_iff lower ruleDirection hshows _).mpr
          ⟨h.notRestored, h.notReanalyzed, h.notSpam, rfl, h.passes⟩
      refine ⟨patch, _, ?_, hhuman, hrouting, hintedRouting_shows hshows⟩
      exact Option.bind_eq_some_iff.mpr
        ⟨fallback, hfallback, Option.bind_eq_some_iff.mpr ⟨_, hchosen, hend⟩⟩

/-- A letter to the legal department that the rules are not sure of, with the default settings, one
candidate and no model. -/
def plainLetter : NodeInput ℚ :=
  { settings :=
      { bgeDepartmentRoutingEnabled := false, ragDepartmentEnabled := true, llmConfigured := true
        useStubs := false, agentMode := "live", bgeDeptMinScore := 0.8, spamThreshold := 0.85
        spamGrayZoneLow := 0.7, deptConfidenceMin := 0.7, deptConfidenceChairmanMin := 0.98
        deptConfidenceOdMin := 0.95, deptConfidenceVedMin := 0.9 }
    email :=
      { senderEmail := "a@b.ru", subject := "Договор и счёт", mailDatetime := (2025, 3, 4, 10, 0, 0) }
    recipient := "info@turbo-don.ru", trace := [], existingSpam := none
    restoredFromSpam := false, reanalyze := false
    routed :=
      { organization := "НП", direction := "КС", process := "рассмотрение"
        services := [
          { code := "00-000044", name := "Юридический отдел", process := "рассмотрение"
            reasoning := "content", direction := "КС" }]
        confidenceLevel := .low, confidenceScore := 40, partner := none, claim := false
        theme := "Договор и счёт", hasConflict := false, matchSource := "content"
        dialogMode := none, xmlDocument := none, hardSignalCount := 0, adaptiveSignalCount := 2
        hardForeign := false }
    reserveCode := "00-000066", reserveName := "00-000066", departmentNames := ∅
    prediction := { ok := false, deptId := "", deptName := "", score := none, candidates := [] }
    ragCandidates := [{ departmentId := "00-000063", departmentName := "Бухгалтерия" }]
    llm := .stub { isSpam := false, confidence := 0.05, reason := "", ruleHit := none }
    foreignDomain := false, commercialRu := false, resolvedProcess := "рассмотрение"
    xmlTheme := "Рассмотреть: договор и счёт", orgFromOnec := none, resolvedPartner := none
    priorityDecision :=
      { documentKind := "contracts", priority := "normal", queueTier := 1, registerErp := true
        primaryDepartmentCodes := ["00-000155"], hasObligation := false }
    detectedHardSpam := none
    dialog :=
      { isDialog := false, mode := none, documentKind := "dialog", registerErp := false
        queueTier := 2, processType := "ознакомление", theme := "" } }

end AgentBack.Mail.Routing
