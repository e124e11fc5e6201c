import AgentBack.Base.Dict
import AgentBack.Mail.Routing.Document
import AgentBack.Mail.Routing.Scoring

/-!
# The rules' routing (`agent_pochta/routing/engine.py`, `agent_pochta/routing/organizations.py`)

`route` takes the first of the candidates that the rules pick, or the best exact address where they
disagree, and decides the organization and the direction. What finds the candidates, the organization
in the text, the correction in 1C and the evidence is a part of the input.
-/

namespace AgentBack.Mail.Routing

open Text (strip)

structure RoutingRule where
  code : String
  /-- `rule.get("direction", "")`. -/
  direction : String

structure RoutingRules where
  contentRules : List RoutingRule
  exactEmailRules : List RoutingRule
  emailKeywordRules : List RoutingRule

def directionsByCodeFromRules (rules : RoutingRules) : Dict String String :=
  (rules.contentRules ++ rules.exactEmailRules ++ rules.emailKeywordRules).foldl
    (fun result rule =>
      if strip rule.direction ≠ "" then result.set rule.code (strip rule.direction) else result) ∅

/-- `directions_by_code_from_rules(rules).get(code) or ""`. -/
def RoutingRules.direction (rules : RoutingRules) (code : String) : String :=
  (directionsByCodeFromRules rules).getD code ""

/-- The codes of `ORG_FULL_NAMES`. -/
def organizationCodes : List String := ["НП", "АЛ", "МГ", "АМ", "МИ", "БМ"]

def normalizeOrganizationCode (value : Option String) : Option String :=
  value.bind fun value => if strip value ∈ organizationCodes then some (strip value) else none

def detectDirection (organization candidateDirection : String) : String :=
  if organization ∈ orgDirectionCodes then organization
  else if candidateDirection ≠ "" then candidateDirection
  else directionUnclear

/-! ## `RouteEngine.route` -/

/-- `_Candidate`. -/
structure RouteCandidate where
  code : String
  name : String
  direction : String
  source : String
  reasoning : String
  topicHits : Nat
  organization : Option String

/-- What `route` reads, and what its calls answer. -/
structure RouteInput where
  email : EmailMessage
  recipient : String
  /-- `_resolve_partner(sender)`. -/
  partner : Option String
  /-- `detect_organization(…)`. -/
  organization : String
  /-- The first that `_pick_candidates(…)` answers; it answers at least one. -/
  first : RouteCandidate
  others : List RouteCandidate
  /-- The organization of `find_onec_correction_match(…)`. -/
  onecOrganization : Option String
  /-- The partner of `find_onec_correction_match(…)`. -/
  onecPartner : String
  /-- `evaluate_route_confidence(…)`. -/
  evidence : EvidenceResult
  /-- `infer_process_type_heuristic(…)`. -/
  process : String
  /-- `contains_claim_marker(…)`. -/
  claim : Bool

variable (i : RouteInput)

def RouteInput.candidates : List RouteCandidate := i.first :: i.others

/-- `len({c.code for c in candidates}) > 1`. -/
def severalCodes (candidates : List RouteCandidate) : Bool :=
  decide (1 < (candidates.map RouteCandidate.code).eraseDups.length)

/-- `[c for c in candidates if c.source == "exact_email"]`. -/
def RouteInput.exact : List RouteCandidate :=
  i.candidates.filter fun candidate => candidate.source = "exact_email"

def RouteInput.primary : RouteCandidate :=
  if severalCodes i.candidates then (i.exact.argmax RouteCandidate.topicHits).getD i.first
  else i.first

def RouteInput.hasConflict : Bool :=
  severalCodes i.candidates &&
    (!i.exact.isEmpty || decide (((i.candidates.filter fun candidate =>
      candidate.source ≠ "reserve").map RouteCandidate.code).eraseDups.length ≠ 1))

def RouteInput.decidedOrganization : String :=
  match normalizeOrganizationCode i.onecOrganization with
  | some organization => organization
  | none => (given i.primary.organization).getD i.organization

def RouteInput.decidedPartner : Option String :=
  if strip i.onecPartner ≠ "" then some (strip i.onecPartner) else i.partner

/-- The direction that `route` gives a department. -/
def routedDirection (organization : String) (primary : RouteCandidate) : String :=
  if primary.code ∈ commercialDepartmentCodes then directionCommercial
  else if primary.code ∈ productionDirectionDepartmentCodes then directionDefault
  else if primary.code ∈ ksPayerDirectionDepartmentCodes then directionUnclear
  else detectDirection organization primary.direction

def route (lower : String → String) (i : RouteInput) : RoutingDecision :=
  let direction := routedDirection i.decidedOrganization i.primary
  withDocument lower i.email i.recipient
    { organization := i.decidedOrganization
      direction
      process := i.process
      services :=
        [{ code := i.primary.code, name := i.primary.name, process := i.process,
           reasoning := i.primary.reasoning, direction }]
      confidenceLevel := i.evidence.level
      confidenceScore := i.evidence.score
      partner := i.decidedPartner
      claim := i.claim
      theme := sanitizeTheme i.email.subject themeMaxLen
      hasConflict := i.hasConflict
      matchSource := i.primary.source
      dialogMode := none
      xmlDocument := none
      hardSignalCount := i.evidence.hardCount
      adaptiveSignalCount := i.evidence.adaptiveCount
      hardForeign := i.evidence.hardForeign }

end AgentBack.Mail.Routing
