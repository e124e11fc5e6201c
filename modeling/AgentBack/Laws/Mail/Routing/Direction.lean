import AgentBack.Laws.Mail.Routing.Node
import AgentBack.Laws.Mail.Routing.Rebuild

/-!
# One direction for an organization and a department

The direction of a document comes from `route`, from a rebuild with another department, or from a
correction of the organization in the routing node. The rules' routing puts the departments with a
direction of their own before the organization, and the others put it after; and a correction to
the main organization keeps the direction of the former one. So the ways agree for a department
exactly when it has a direction of its own and the organization is the main one, or neither
(`directionFollows_iff`).
-/

namespace AgentBack.Mail.Routing

open Text (strip)

def ownDirectionCodes : List String :=
  commercialDepartmentCodes ++ productionDirectionDepartmentCodes ++ ksPayerDirectionDepartmentCodes

def ownDirection (department : String) : String :=
  if department ∈ ksPayerDirectionDepartmentCodes then directionUnclear else directionDefault

section
variable (lower : String → String) (rules : RoutingRules) (F : Type) [Floating F]

/-- The decisions that the ways to a department leave. -/
inductive Written : RoutingDecision → Prop
  | routed (input : RouteInput) : Written (route lower input)
  /-- The routing node, with the organization that it corrects and the department that it chooses. -/
  | node (i : NodeInput F) (input : RouteInput) (h : i.routed = route lower input)
      (choice : Choice F) :
      Written (i.dialogDecision lower rules.direction
        (i.documentedDecision lower rules.direction (i.hintedRouting choice)))
  | rebuilt (decision : RoutingDecision) (h : Written decision) (email : EmailMessage)
      (recipient : String) (call : Rebuild) :
      Written (rebuildDecisionXml lower rules.direction email recipient decision call)

structure DecidedFor (organization department : String) (decision : RoutingDecision) : Prop where
  organization : decision.organization = organization
  department : decision.services.head?.map ServiceRoute.code = some department

/-- **The direction follows the organization and the department.** All ways write the same
direction, and none writes the code of another organization. -/
structure DirectionFollows (organization department : String) : Prop where
  same : ∀ {decision other}, Written lower rules F decision → Written lower rules F other →
    DecidedFor organization department decision → DecidedFor organization department other →
    documentDirection decision = documentDirection other
  own : ∀ {decision}, Written lower rules F decision → DecidedFor organization department decision →
    documentDirection decision ∈ organizationCodes →
    documentDirection decision = documentOrganization decision

end

/-! ## The resolvers -/

theorem routedDirection_own {primary : RouteCandidate} (h : primary.code ∈ ownDirectionCodes)
    (organization : String) : routedDirection organization primary = ownDirection primary.code := by
  unfold routedDirection ownDirection
  rcases List.mem_append.mp h with h | hleads
  · have hnot : primary.code ∉ ksPayerDirectionDepartmentCodes := by
      intro hleads
      have hboth : ∀ code ∈ commercialDepartmentCodes ++ productionDirectionDepartmentCodes,
          code ∉ ksPayerDirectionDepartmentCodes := by decide
      exact hboth _ h hleads
    rcases List.mem_append.mp h with hcommercial | hproduction
    · rw [if_pos hcommercial, if_neg hnot]
      rfl
    · rw [if_pos hproduction, if_neg hnot]
      split
      · rfl
      · rfl
  · have hfirst : ∀ code ∈ ksPayerDirectionDepartmentCodes,
        code ∉ commercialDepartmentCodes ∧ code ∉ productionDirectionDepartmentCodes := by decide
    rw [if_neg (hfirst _ hleads).1, if_neg (hfirst _ hleads).2, if_pos hleads, if_pos hleads]

theorem routedDirection_other {primary : RouteCandidate} (h : primary.code ∉ ownDirectionCodes)
    (organization : String) :
    routedDirection organization primary = detectDirection organization primary.direction := by
  unfold ownDirectionCodes at h
  simp only [List.mem_append, not_or] at h
  unfold routedDirection
  rw [if_neg h.1.1, if_neg h.1.2, if_neg h.2]

theorem resolveDirectionForDepartment_organization {organization : String}
    (h : organization ∈ orgDirectionCodes) (ruleDirection : String → String)
    (department fallback : String) :
    resolveDirectionForDepartment ruleDirection department organization fallback = organization := by
  unfold resolveDirectionForDepartment
  exact if_pos h

theorem resolveDirectionForDepartment_own {organization department : String}
    (horganization : organization ∉ orgDirectionCodes) (h : department ∈ ownDirectionCodes)
    (ruleDirection : String → String) (fallback : String) :
    resolveDirectionForDepartment ruleDirection department organization fallback =
      ownDirection department := by
  have hstrip : ∀ code ∈ ownDirectionCodes, strip code = code := by decide
  unfold resolveDirectionForDepartment ownDirection
  dsimp only
  rw [if_neg horganization, hstrip department h]
  split
  · rfl
  · next hleads =>
    rcases List.mem_append.mp h with h | h
    · rcases List.mem_append.mp h with hcommercial | hproduction
      · rw [if_pos hcommercial]
        rfl
      · rw [if_pos hproduction]
        split
        · rfl
        · rfl
    · exact absurd h hleads

theorem detectDirection_organization {organization : String} (h : organization ∈ orgDirectionCodes)
    (direction : String) : detectDirection organization direction = organization :=
  if_pos h

theorem detectDirection_other {organization direction : String}
    (h : organization ∉ orgDirectionCodes) (hdirection : direction ≠ "") :
    detectDirection organization direction = direction := by
  unfold detectDirection
  rw [if_neg h, if_pos hdirection]

theorem ownDirection_ne (department : String) : ownDirection department ≠ "" := by
  unfold ownDirection
  split
  · decide
  · decide

/-! ## One step -/

section
variable {lower ruleDirection : String → String} {email : EmailMessage} {recipient : String}

variable (decision : RoutingDecision)

@[simp] theorem withDocument_organization :
    (withDocument lower email recipient decision).organization = decision.organization := by
  unfold withDocument
  dsimp only
  split
  · rfl
  · rfl

@[simp] theorem withDocument_direction :
    (withDocument lower email recipient decision).direction = decision.direction := by
  unfold withDocument
  dsimp only
  split
  · rfl
  · rfl

@[simp] theorem withDocument_services :
    (withDocument lower email recipient decision).services = decision.services := by
  unfold withDocument
  dsimp only
  split
  · rfl
  · rfl

theorem rebuildDecisionXml_organization (call : Rebuild) :
    (rebuildDecisionXml lower ruleDirection email recipient decision call).organization =
      decision.organization := by
  unfold rebuildDecisionXml
  rw [withDocument_organization]
  unfold updatedDecision
  dsimp only
  split
  · rfl
  · split
    · rfl
    · rfl

/-- A rebuild without a department leaves the department and the direction. -/
theorem rebuildDecisionXml_kept {decision : RoutingDecision} {call : Rebuild}
    (h : given call.departmentId = none) :
    (rebuildDecisionXml lower ruleDirection email recipient decision call).direction =
        decision.direction ∧
      (rebuildDecisionXml lower ruleDirection email recipient decision call).services.head?.map
        ServiceRoute.code = decision.services.head?.map ServiceRoute.code := by
  unfold rebuildDecisionXml
  rw [withDocument_direction, withDocument_services]
  unfold updatedDecision
  dsimp only
  rw [h]
  dsimp only
  split
  · dsimp only
    rw [List.head?_map, Option.map_map]
    exact ⟨rfl, rfl⟩
  · exact ⟨rfl, rfl⟩

/-- A rebuild leaves the department and the direction, or resolves the direction of the new
department. -/
theorem rebuildDecisionXml_direction {decision : RoutingDecision} {call : Rebuild}
    {department : String}
    (h : (rebuildDecisionXml lower ruleDirection email recipient decision call).services.head?.map
      ServiceRoute.code = some department) :
    (decision.services.head?.map ServiceRoute.code = some department ∧
      (rebuildDecisionXml lower ruleDirection email recipient decision call).direction =
        decision.direction) ∨
    (rebuildDecisionXml lower ruleDirection email recipient decision call).direction =
      resolveDirectionForDepartment ruleDirection department decision.organization
        decision.direction := by
  cases hgiven : given call.departmentId with
  | none =>
    obtain ⟨hdirection, hcode⟩ := @rebuildDecisionXml_kept lower ruleDirection email recipient
      decision call hgiven
    exact .inl ⟨hcode.symm.trans h, hdirection⟩
  | some chosen =>
    unfold rebuildDecisionXml at h ⊢
    rw [withDocument_services] at h
    rw [withDocument_direction]
    unfold updatedDecision at h ⊢
    dsimp only at h ⊢
    rw [hgiven] at h ⊢
    cases h
    dsimp only
    by_cases hchanged : decision.services.head?.map ServiceRoute.code = some chosen
    · simp [hchanged]
    · simp [hchanged]

theorem route_organization (input : RouteInput) :
    (route lower input).organization = input.decidedOrganization := by
  unfold route
  dsimp only
  rw [withDocument_organization]

theorem route_department (input : RouteInput) :
    (route lower input).services.head?.map ServiceRoute.code = some input.primary.code := by
  unfold route
  dsimp only
  rw [withDocument_services]
  rfl

theorem route_decidedFor {input : RouteInput} {organization department : String}
    (h : DecidedFor organization department (route lower input)) :
    input.decidedOrganization = organization ∧ input.primary.code = department := by
  obtain ⟨horganization, hdepartment⟩ := h
  rw [route_organization] at horganization
  rw [route_department] at hdepartment
  exact ⟨horganization, Option.some.inj hdepartment⟩

theorem route_direction (input : RouteInput) :
    (route lower input).direction = routedDirection input.decidedOrganization input.primary := by
  unfold route
  dsimp only
  rw [withDocument_direction]

end

/-! ## Runs -/

/-- The direction that all ways write where they agree. -/
def settledDirection (organization department : String) : String :=
  if organization ∈ orgDirectionCodes then organization else ownDirection department

/-- The department has a direction of its own, or the organization has, and not both. -/
def OneOwner (organization department : String) : Prop :=
  department ∈ ownDirectionCodes ↔ organization ∉ orgDirectionCodes

/-- A decision for the organization and the department has the settled direction. -/
def Settles (organization department : String) (decision : RoutingDecision) : Prop :=
  DecidedFor organization department decision →
    decision.direction = settledDirection organization department

section
variable {lower : String → String} {rules : RoutingRules} {F : Type} [Floating F]
  {organization department : String}

theorem settles_route (h : OneOwner organization department) (input : RouteInput) :
    Settles organization department (route lower input) := by
  intro hfor
  obtain ⟨horganization, hdepartment⟩ := route_decidedFor hfor
  rw [route_direction, horganization]
  unfold settledDirection
  by_cases hmain : organization ∈ orgDirectionCodes
  · have hother : input.primary.code ∉ ownDirectionCodes := by
      rw [hdepartment]
      exact fun hown => h.mp hown hmain
    rw [routedDirection_other hother, detectDirection_organization hmain, if_pos hmain]
  · have hown : input.primary.code ∈ ownDirectionCodes := by
      rw [hdepartment]
      exact h.mpr hmain
    rw [routedDirection_own hown, if_neg hmain, hdepartment]

theorem settles_rebuilt (h : OneOwner organization department) {decision : RoutingDecision}
    (hsettles : Settles organization department decision) (email : EmailMessage)
    (recipient : String) (call : Rebuild) :
    Settles organization department
      (rebuildDecisionXml lower rules.direction email recipient decision call) := by
  intro hfor
  have horganization : decision.organization = organization := by
    rw [← hfor.organization, rebuildDecisionXml_organization]
  rcases rebuildDecisionXml_direction hfor.department with ⟨hdepartment, hkept⟩ | hresolved
  · rw [hkept]
    exact hsettles ⟨horganization, hdepartment⟩
  · rw [hresolved, horganization]
    unfold settledDirection
    by_cases hmain : organization ∈ orgDirectionCodes
    · rw [resolveDirectionForDepartment_organization hmain, if_pos hmain]
    · rw [resolveDirectionForDepartment_own hmain (h.mpr hmain), if_neg hmain]

omit [Floating F] in
/-- The department and the partner aside, the node corrects the organization and detects its
direction. -/
theorem resolvedDecision_cases (i : NodeInput F) :
    i.resolvedDecision.services.head?.map ServiceRoute.code =
        i.routed.services.head?.map ServiceRoute.code ∧
      (i.resolvedDecision.organization = i.routed.organization ∧
          i.resolvedDecision.direction = i.routed.direction ∨
        i.resolvedDecision.direction =
          detectDirection i.resolvedDecision.organization i.routed.direction) := by
  unfold NodeInput.resolvedDecision
  cases i.hardForeign && !i.routed.hardForeign with
  | true | false =>
    cases given i.orgFromOnec with
    | none => simp [Function.comp_def]
    | some corrected =>
      by_cases hsame : corrected = i.routed.organization
      · simp [hsame, Function.comp_def]
      · simp [hsame, Function.comp_def]

omit [Floating F] in
theorem settles_resolved (h : OneOwner organization department) {i : NodeInput F}
    {input : RouteInput} (hrouted : i.routed = route lower input) :
    Settles organization department i.resolvedDecision := by
  intro hfor
  obtain ⟨hcode, hdirection⟩ := resolvedDecision_cases i
  have hdepartment : i.routed.services.head?.map ServiceRoute.code = some department :=
    hcode.symm.trans hfor.department
  rcases hdirection with ⟨hsame, hkept⟩ | hdetected
  · rw [hkept, hrouted]
    refine settles_route h input ⟨?_, ?_⟩
    · rw [← hrouted, ← hsame, hfor.organization]
    · rw [← hrouted, hdepartment]
  · rw [hdetected, hfor.organization]
    unfold settledDirection
    by_cases hmain : organization ∈ orgDirectionCodes
    · rw [detectDirection_organization hmain, if_pos hmain]
    · have hown : i.routed.direction = ownDirection department := by
        rw [hrouted] at hdepartment ⊢
        obtain ⟨-, hprimary⟩ := @route_decidedFor lower input _ department ⟨rfl, hdepartment⟩
        rw [route_direction, routedDirection_own (hprimary ▸ h.mpr hmain), hprimary]
      rw [hown, detectDirection_other hmain (ownDirection_ne _), if_neg hmain]

variable (h : OneOwner organization department)
include h

theorem settles_node {i : NodeInput F} {input : RouteInput} (hrouted : i.routed = route lower input)
    (choice : Choice F) :
    Settles organization department (i.dialogDecision lower rules.direction
      (i.documentedDecision lower rules.direction (i.hintedRouting choice))) := by
  have hdocumented : Settles organization department
      (i.documentedDecision lower rules.direction (i.hintedRouting choice)) := by
    refine settles_rebuilt h ?_ _ _ _
    have hresolved := @settles_resolved lower F _ _ h i input hrouted
    split
    · exact fun hfor => hresolved ⟨hfor.organization, hfor.department⟩
    · exact hresolved
  unfold NodeInput.dialogDecision
  generalize i.documentedDecision lower rules.direction (i.hintedRouting choice) = documented
    at hdocumented ⊢
  split
  · refine settles_rebuilt h ?_ _ _ _
    exact fun hfor => hdocumented ⟨hfor.organization, hfor.department⟩
  · exact hdocumented

theorem settles_written {decision : RoutingDecision} (hwritten : Written lower rules F decision) :
    Settles organization department decision := by
  induction hwritten with
  | routed input => exact settles_route h input
  | node i input hrouted choice => exact settles_node h hrouted choice
  | rebuilt decision _ email recipient call ih => exact settles_rebuilt h ih email recipient call

/-- Where the department or the organization has a direction of its own, and not both, the direction
follows them. -/
theorem directionFollows_of_oneOwner :
    DirectionFollows lower rules F organization department where
  same := by
    intro decision other hdecision hother hfor hfor'
    unfold documentDirection
    rw [settles_written h hdecision hfor, settles_written h hother hfor']
  own := by
    intro decision hdecision hfor hcode
    have hdirection := settles_written h hdecision hfor
    unfold settledDirection at hdirection
    by_cases hmain : organization ∈ orgDirectionCodes
    · rw [if_pos hmain] at hdirection
      unfold documentDirection documentOrganization
      rw [hdirection, hfor.organization]
      have hstrip : ∀ code ∈ orgDirectionCodes, strip code ≠ "" := by decide
      unfold stripOr
      rw [if_neg (hstrip _ hmain), if_neg (hstrip _ hmain)]
    · rw [if_neg hmain] at hdirection
      exfalso
      revert hcode
      unfold documentDirection
      rw [hdirection]
      unfold ownDirection
      split
      · decide
      · decide

end

section
variable {lower : String → String} {rules : RoutingRules} {F : Type} [Floating F] {i : NodeInput F}

omit [Floating F] in
theorem primaryCode_of_department {department : String}
    (h : i.routed.services.head?.map ServiceRoute.code = some department) :
    i.primaryCode = department := by
  unfold NodeInput.primaryCode
  cases hhead : i.routed.services.head? with
  | none =>
    rw [hhead] at h
    cases h
  | some svc =>
    rw [hhead] at h
    exact Option.some.inj h

/-- Without a hint the node keeps the department of the rules. -/
theorem hintedRouting_rules (hved : i.primaryCode ≠ vedDepartmentCode)
    (hhint : i.priorityDecision.primaryDepartmentCodes = []) (spam : Option (SpamResult F))
    (source : String) :
    (i.hintedRouting ⟨i.ruleRouting, spam, source⟩).departmentId = i.primaryCode := by
  have hchecked : (i.checkedRouting ⟨i.ruleRouting, spam, source⟩).1 = i.ruleRouting := by
    unfold NodeInput.checkedRouting rejectVedWithoutHardForeign
    dsimp only
    rw [if_pos (show i.ruleRouting.departmentId ≠ vedDepartmentCode from hved)]
  unfold NodeInput.hintedRouting applyKindDepartmentHint
  dsimp only
  rw [hhint, hchecked]
  rfl

omit [Floating F] in
theorem resolvedDecision_corrected {organization : String}
    (h : given i.orgFromOnec = some organization) (hother : organization ≠ i.routed.organization) :
    i.resolvedDecision.organization = organization ∧
      i.resolvedDecision.direction = detectDirection organization i.routed.direction := by
  unfold NodeInput.resolvedDecision
  rw [h]
  cases i.hardForeign && !i.routed.hardForeign with
  | true | false => simp [hother]

omit [Floating F] in
theorem documentedDecision_kept (lower : String → String) (rules : RoutingRules)
    {routing : RoutingResult F} (h : routing.departmentId = i.primaryCode) :
    (i.documentedDecision lower rules.direction routing).organization =
        i.resolvedDecision.organization ∧
      (i.documentedDecision lower rules.direction routing).direction =
        i.resolvedDecision.direction ∧
      (i.documentedDecision lower rules.direction routing).services.head?.map ServiceRoute.code =
        i.resolvedDecision.services.head?.map ServiceRoute.code := by
  have hsame : decide (routing.departmentId ≠ "" ∧ routing.departmentId ≠ i.primaryCode) = false :=
    decide_eq_false fun hchanged => hchanged.2 h
  unfold NodeInput.documentedDecision
  dsimp only
  rw [hsame, if_neg Bool.false_ne_true, if_neg Bool.false_ne_true]
  obtain ⟨hdirection, hcode⟩ := @rebuildDecisionXml_kept lower rules.direction i.email i.recipient
    (if i.xmlTheme ≠ "" then
      { i.resolvedDecision with theme := sanitizeTheme i.xmlTheme themeMaxLen }
    else i.resolvedDecision) ⟨none, none, none, none, some i.resolvedProcess⟩ rfl
  rw [rebuildDecisionXml_organization, hdirection, hcode]
  split
  · exact ⟨rfl, rfl, rfl⟩
  · exact ⟨rfl, rfl, rfl⟩

omit [Floating F] in
theorem dialogDecision_none (lower : String → String) (rules : RoutingRules)
    (h : i.dialog.isDialog = false) (decision : RoutingDecision) :
    i.dialogDecision lower rules.direction decision = decision := by
  unfold NodeInput.dialogDecision
  rw [h]
  exact if_neg Bool.false_ne_true

end

/-! ## Ways that disagree -/

section
variable (lower : String → String) (rules : RoutingRules) (F : Type) [Floating F]

/-- A letter that an operator's correction sends to a department. -/
def learnedLetter (organization department : String) : RouteInput where
  email := { senderEmail := "a@b.ru", subject := "", mailDatetime := (2025, 3, 4, 10, 0, 0) }
  recipient := "info@turbo-don.ru"
  partner := none
  organization
  first :=
    { code := department, name := department, direction := directionDefault
      source := "human_correction", reasoning := "", topicHits := 1, organization := none }
  others := []
  onecOrganization := none
  onecPartner := ""
  evidence := ⟨100, .high, 1, 0, false, [], []⟩
  process := "исполнение"
  claim := false

theorem primary_learned (organization department : String) :
    (learnedLetter organization department).primary.code = department := rfl

theorem decidedFor_learned (organization department : String) :
    DecidedFor organization department (route lower (learnedLetter organization department)) := by
  constructor
  · rw [route_organization]
    rfl
  · rw [route_department, primary_learned]

def changeTo (department : String) : Rebuild where
  departmentId := some department
  departmentName := none
  theme := none
  partner := none
  process := none

/-- The rules' routing puts the direction of the department first and a rebuild the organization. -/
theorem not_directionFollows_both {organization department : String}
    (horganization : organization ∈ orgDirectionCodes) (h : department ∈ ownDirectionCodes) :
    ¬ DirectionFollows lower rules F organization department := by
  intro hfollows
  have hgiven : given (some department) = some department := by
    have hne : ∀ code ∈ ownDirectionCodes, given (some code) = some code := by decide
    exact hne _ h
  have hchanged : some reserveDepartmentCode ≠ some department := by
    have hne : ∀ code ∈ ownDirectionCodes, some reserveDepartmentCode ≠ some code := by decide
    exact hne _ h
  let reserved := route lower (learnedLetter organization reserveDepartmentCode)
  let rebuilt := rebuildDecisionXml lower rules.direction
    (learnedLetter organization department).email "info@turbo-don.ru" reserved (changeTo department)
  have hreserved := decidedFor_learned lower organization reserveDepartmentCode
  have hdepartment : rebuilt.services.head?.map ServiceRoute.code = some department := by
    dsimp only [rebuilt, rebuildDecisionXml]
    rw [withDocument_services]
    unfold updatedDecision changeTo
    dsimp only
    rw [hgiven]
    rfl
  have hdirection : rebuilt.direction = organization := by
    rcases rebuildDecisionXml_direction hdepartment with ⟨hsame, -⟩ | hresolved
    · exact absurd (hreserved.department.symm.trans hsame) hchanged
    · rw [hresolved, hreserved.organization,
        resolveDirectionForDepartment_organization horganization]
  have hrouted : (route lower (learnedLetter organization department)).direction =
      ownDirection department := by
    rw [route_direction]
    exact routedDirection_own h organization
  have hsame := hfollows.same (.routed (learnedLetter organization department))
    (.rebuilt _ (.routed (learnedLetter organization reserveDepartmentCode)) _ _ _)
    (decidedFor_learned lower organization department)
    ⟨(rebuildDecisionXml_organization _ _).trans hreserved.organization, hdepartment⟩
  unfold documentDirection at hsame
  rw [hrouted, show (rebuildDecisionXml lower rules.direction _ _ _ _).direction = organization from
    hdirection] at hsame
  have hdiffer : ∀ code ∈ orgDirectionCodes, ∀ own ∈ ownDirectionCodes,
      stripOr (ownDirection own) directionDefault ≠ stripOr code directionDefault := by decide
  exact hdiffer _ horganization _ h hsame

def correctedLetter (routed : RoutingDecision) : NodeInput F where
  settings :=
    { bgeDepartmentRoutingEnabled := false, ragDepartmentEnabled := false, llmConfigured := false
      useStubs := true, agentMode := "live", bgeDeptMinScore := Floating.ofRat 0
      spamThreshold := Floating.ofRat 0, spamGrayZoneLow := Floating.ofRat 0
      deptConfidenceMin := Floating.ofRat 0, deptConfidenceChairmanMin := Floating.ofRat 0
      deptConfidenceOdMin := Floating.ofRat 0, deptConfidenceVedMin := Floating.ofRat 0 }
  email := { senderEmail := "a@b.ru", subject := "", mailDatetime := (2025, 3, 4, 10, 0, 0) }
  recipient := "info@turbo-don.ru"
  trace := []
  existingSpam := none
  restoredFromSpam := false
  reanalyze := false
  routed
  reserveCode := reserveDepartmentCode
  reserveName := reserveDepartmentCode
  departmentNames := ∅
  prediction :=
    { ok := false, deptId := "", deptName := "", score := none, candidates := [] }
  ragCandidates := []
  llm := .stub { isSpam := false, confidence := Floating.ofRat 0, reason := "", ruleHit := none }
  foreignDomain := false
  commercialRu := false
  resolvedProcess := "исполнение"
  xmlTheme := ""
  orgFromOnec := some "НП"
  resolvedPartner := none
  priorityDecision :=
    { documentKind := "letters", priority := "normal", queueTier := 1, registerErp := true
      primaryDepartmentCodes := [], hasObligation := false }
  detectedHardSpam := none
  dialog :=
    { isDialog := false, mode := none, documentKind := "dialog", registerErp := false
      queueTier := 2, processType := "ознакомление", theme := "" }

/-- What the node leaves of the corrected letter when it keeps the rules' department. -/
def correctedDecision (routed : RoutingDecision) : RoutingDecision :=
  NodeInput.dialogDecision lower rules.direction (correctedLetter F routed)
    (NodeInput.documentedDecision lower rules.direction (correctedLetter F routed)
      ((correctedLetter F routed).hintedRouting
        ⟨(correctedLetter F routed).ruleRouting, none, "rules"⟩))

theorem written_corrected {routed : RoutingDecision} {input : RouteInput}
    (h : routed = route lower input) :
    Written lower rules F (correctedDecision lower rules F routed) :=
  .node (correctedLetter F routed) input h ⟨(correctedLetter F routed).ruleRouting, none, "rules"⟩

/-- The correction keeps the direction of the former organization. -/
theorem correctedDecision_facts {routed : RoutingDecision} {organization department : String}
    (hfor : DecidedFor organization department routed) (hother : "НП" ≠ organization)
    (hved : department ≠ vedDepartmentCode) :
    DecidedFor "НП" department (correctedDecision lower rules F routed) ∧
      (correctedDecision lower rules F routed).direction =
        detectDirection "НП" routed.direction := by
  have hprimary : (correctedLetter F routed).primaryCode = department :=
    primaryCode_of_department hfor.department
  have hkept := @hintedRouting_rules F _ (correctedLetter F routed) (hprimary ▸ hved) rfl none "rules"
  obtain ⟨horganization, hdirection⟩ := @resolvedDecision_corrected F (correctedLetter F routed)
    "НП" rfl (by rw [← hfor.organization] at hother; exact hother)
  obtain ⟨horganization', hdirection', hcode⟩ := documentedDecision_kept lower rules hkept
  have hdepartment := (resolvedDecision_cases (correctedLetter F routed)).1.trans hfor.department
  unfold correctedDecision
  rw [dialogDecision_none lower rules rfl]
  exact ⟨⟨horganization'.trans horganization, hcode.trans hdepartment⟩,
    hdirection'.trans hdirection⟩

/-- A correction to the main organization keeps the direction of the former one. -/
theorem not_directionFollows_none {department : String} (h : department ∉ ownDirectionCodes) :
    ¬ DirectionFollows lower rules F "НП" department := by
  intro hfollows
  have hlearned := decidedFor_learned lower "АЛ" department
  have hrouted : (route lower (learnedLetter "АЛ" department)).direction = "АЛ" := by
    rw [route_direction]
    exact routedDirection_other h "АЛ"
  obtain ⟨hfor, hdirection⟩ := correctedDecision_facts lower rules F hlearned (by decide)
    (fun hved => h (hved ▸ by decide))
  have hown := hfollows.own (written_corrected lower rules F rfl) hfor
  unfold documentDirection documentOrganization at hown
  rw [hdirection, hrouted, hfor.organization] at hown
  exact absurd (hown (by decide)) (by decide)

/-- **The direction of a document.** For the code of an organization all ways to a department write
one direction, the organization's own where it has one, exactly when the department has a direction
of its own and the organization is the main one, or neither. -/
theorem directionFollows_iff (organization department : String)
    (h : organization ∈ organizationCodes) :
    DirectionFollows lower rules F organization department ↔
      (department ∈ ownDirectionCodes ↔ organization = "НП") := by
  have hmain : organization = "НП" ↔ organization ∉ orgDirectionCodes := by
    have hcodes : ∀ code ∈ organizationCodes, code = "НП" ↔ code ∉ orgDirectionCodes := by decide
    exact hcodes _ h
  rw [hmain]
  refine ⟨fun hfollows => ?_, directionFollows_of_oneOwner⟩
  constructor
  · exact fun hown horganization => not_directionFollows_both lower rules F horganization hown hfollows
  · intro hnone
    by_contra hother
    rw [hmain.mpr hnone] at hfollows
    exact not_directionFollows_none lower rules F hother hfollows

end

theorem directionFollows_almaz_reserve :
    DirectionFollows id ⟨[], [], []⟩ ℚ "АЛ" reserveDepartmentCode :=
  (directionFollows_iff id ⟨[], [], []⟩ ℚ "АЛ" reserveDepartmentCode (by decide)).mpr (by decide)

/-- For the tender department of Almaz the rules' routing and a rebuild write two directions, and a
letter of the reserve department that is corrected to the main organization keeps that of Almaz. -/
theorem not_directionFollows_almaz_tender :
    ¬ DirectionFollows id ⟨[], [], []⟩ ℚ "АЛ" "00-000054" ∧
      ¬ DirectionFollows id ⟨[], [], []⟩ ℚ "НП" reserveDepartmentCode :=
  ⟨not_directionFollows_both id _ ℚ (by decide) (by decide),
    not_directionFollows_none id _ ℚ (by decide)⟩

end AgentBack.Mail.Routing
