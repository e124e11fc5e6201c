import AgentBack.Base.Text
import AgentBack.Base.Floating

/-!
# Routing decisions (`agent_pochta/routing/models.py`, `agent_pochta/routing/organizations.py`)

A decision with the fields that the documents and the checks read. `ruleDirection` is what
`directions_by_code_from_rules(rules).get(code) or ""` answers for the rules in force.
-/

namespace AgentBack.Mail.Routing

open Text (strip)

inductive ConfidenceLevel where
  | critical
  | high
  | medium
  | low
  deriving DecidableEq

def directionUnclear : String := "КС"

def directionDefault : String := "ПР"

def directionCommercial : String := "ПР"

structure ServiceRoute where
  code : String
  name : String
  process : String
  reasoning : String
  direction : String
  deriving DecidableEq

structure RoutingDecision where
  organization : String
  direction : String
  process : String
  services : List ServiceRoute
  confidenceLevel : ConfidenceLevel
  confidenceScore : Int
  partner : Option String
  claim : Bool
  theme : String
  hasConflict : Bool
  matchSource : String
  dialogMode : Option String
  xmlDocument : Option String
  hardSignalCount : Int
  adaptiveSignalCount : Int
  hardForeign : Bool
  deriving DecidableEq

def orgDirectionCodes : List String := ["АЛ", "МГ", "АМ", "МИ", "БМ"]

def commercialDepartmentCodes : List String :=
  ["00-000015", "00-000042", "00-000054", "00-000058", "00-000076", "00-000155"]

def productionDirectionDepartmentCodes : List String := ["00-000065"]

def leadershipDepartmentCodes : List String := ["00-000001", "00-000152", "00-000182"]

def legalDepartmentCodes : List String := ["00-000044"]

def ksPayerDirectionDepartmentCodes : List String :=
  leadershipDepartmentCodes ++ legalDepartmentCodes

def resolveDirectionForDepartment (ruleDirection : String → String)
    (departmentCode organization fallbackDirection : String) : String :=
  let code := strip departmentCode
  if organization ∈ orgDirectionCodes then organization
  else if code ∈ ksPayerDirectionDepartmentCodes then directionUnclear
  else if code ∈ commercialDepartmentCodes then directionCommercial
  else if code ∈ productionDirectionDepartmentCodes then directionDefault
  else
    let fromRules := if code = "" then "" else strip (ruleDirection code)
    let candidate := if fromRules ≠ "" then fromRules else strip fallbackDirection
    if candidate ≠ "" then candidate
    else if code ≠ "" then directionDefault
    else directionUnclear

end AgentBack.Mail.Routing

/-!
# The gates of the departments (`agent_pochta/routing/evidence.py`)

A department takes a letter only when the score and the signals reach its gate. The answers that
need a rounded minimum have no value where the rounding fails.
-/

namespace AgentBack.Mail.Routing

open Text (strip)

def chairmanDepartmentCode : String := "00-000001"

def odDepartmentCode : String := "00-000152"

def vedDepartmentCode : String := "00-000015"

def gateChairman : Int := 98

def gateOd : Int := 95

def gateVed : Int := 90

def adaptiveOnlyChairman : Int := 4

def adaptiveOnlyOd : Int := 3

def scoreToLevel (score : Int) : ConfidenceLevel :=
  if 98 ≤ score then .critical
  else if 95 ≤ score then .high
  else if 70 ≤ score then .medium
  else .low

section
variable {F : Type} [Floating F]

def departmentGateMin (departmentCode : String) (defaultMin : F) : Option Int :=
  let code := strip departmentCode
  if code = chairmanDepartmentCode then some gateChairman
  else if code = odDepartmentCode then some gateOd
  else if code = vedDepartmentCode then some gateVed
  else (Floating.percent defaultMin).map fun percent => max 0 (min 100 percent)

/-- What a gate looks at, apart from the department and its minimum. -/
structure Evidence where
  score : Int
  hardCount : Int
  adaptiveCount : Int
  hardForeign : Bool
  hasConflict : Bool
  deriving DecidableEq

def departmentConfidenceAccepted (departmentCode : String) (evidence : Evidence)
    (defaultMin : F) : Option (Bool × String) :=
  let code := strip departmentCode
  (departmentGateMin code defaultMin).map fun minPct =>
    if code ∈ leadershipDepartmentCodes ∧
        (code = chairmanDepartmentCode ∨ code = odDepartmentCode) then
      let needAdaptive :=
        if code = chairmanDepartmentCode then adaptiveOnlyChairman else adaptiveOnlyOd
      if evidence.hasConflict then (false, "leadership_conflict")
      else if evidence.hardCount < 1 ∧ evidence.adaptiveCount < needAdaptive then
        (false, "leadership_need_hard_or_" ++ toString needAdaptive ++ "_adaptive")
      else if evidence.score < minPct then
        (false, "leadership_score_below_" ++ toString minPct)
      else (true, "ok")
    else if code = vedDepartmentCode then
      if !evidence.hardForeign then (false, "ved_requires_hard_foreign")
      else if evidence.score < minPct then (false, "ved_score_below_" ++ toString minPct)
      else (true, "ok")
    else if evidence.score < minPct then (false, "score_below_" ++ toString minPct)
    else (true, "ok")

end

end AgentBack.Mail.Routing
