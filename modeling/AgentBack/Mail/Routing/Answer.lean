import AgentBack.Base.Dict
import AgentBack.Mail.Routing.Decision

/-!
# The answer of the language model (`agent_pochta/services/llm_analyze.py`,
`agent_pochta/services/http_llm.py`, `agent_pochta/services/llm_gateway.py`)

The model answers with a JSON object. What is read of it as a department and as a verdict on spam
is here; its texts (the summary, the theme, the partner, the process) are not.
-/

namespace AgentBack.Mail.Routing

/-- A value of the answer. A text carries the number that `float` reads in it, a list or an object
whether it has items and how it prints. -/
inductive Json (F : Type) where
  | null
  | bool (value : Bool)
  | int (value : Int)
  | float (value : F) (printed : String)
  | text (value : String) (number : Option F)
  | nested (nonEmpty : Bool) (printed : String)
  deriving DecidableEq

structure SpamResult (F : Type) where
  isSpam : Bool
  confidence : F
  reason : String
  ruleHit : Option String
  deriving DecidableEq

structure RoutingResult (F : Type) where
  departmentId : String
  departmentName : String
  confidence : F
  reasoning : String
  priority : String
  documentKind : Option String
  queueTier : Int
  registerErp : Bool
  deriving DecidableEq

structure Candidate where
  departmentId : String
  departmentName : String
  deriving DecidableEq

section
variable {F : Type} [Floating F]

namespace Json

/-- `bool(value)`. -/
def truthy : Json F → Bool
  | null => false
  | bool value => value
  | int value => decide (value ≠ 0)
  | float value _ => !(Floating.le value (Floating.ofRat 0) && Floating.le (Floating.ofRat 0) value)
  | text value _ => decide (value ≠ "")
  | nested nonEmpty _ => nonEmpty

/-- `str(value)`. -/
def str : Json F → String
  | null => "None"
  | bool value => if value then "True" else "False"
  | int value => toString value
  | float _ printed => printed
  | text value _ => value
  | nested _ printed => printed

/-- `float(value)`. -/
def toFloat : Json F → Option F
  | null => none
  | bool value => some (Floating.ofRat (if value then 1 else 0))
  | int value => Floating.ofInt value
  | float value _ => some value
  | text _ number => number
  | nested _ _ => none

end Json

variable (data : Dict String (Json F))

/-- `str(data.get(key) or "")`. -/
def textOf (key : String) : String :=
  match data.get? key with
  | some value => if value.truthy then value.str else ""
  | none => ""

/-- `float(data.get(key) or 0)`. -/
def numberOf (key : String) : Option F :=
  match data.get? key with
  | some value => if value.truthy then value.toFloat else some (Floating.ofRat 0)
  | none => some (Floating.ofRat 0)

/-- A routing with the defaults of `RoutingResult`. -/
def RoutingResult.of (departmentId departmentName : String) (confidence : F)
    (reasoning : String) : RoutingResult F :=
  { departmentId, departmentName, confidence, reasoning, priority := "normal", documentKind := none,
    queueTier := 1, registerErp := true }

def trustedSpam : SpamResult F :=
  { isSpam := false, confidence := Floating.ofRat 0.05,
    reason := "Доверенный корпоративный отправитель", ruleHit := some "trusted_sender" }

def parseSpam : Option (SpamResult F) :=
  let isSpam := (data.get? "is_spam").elim false Json.truthy
  let default : F := Floating.ofRat (if isSpam then 0.9 else 0.05)
  let confidence :=
    if (data.get? "spam_confidence").isSome then numberOf data "spam_confidence"
    else if (data.get? "dept_confidence").isSome then some default
    else if (data.get? "confidence").isSome then numberOf data "confidence"
    -- `float(data.get("confidence", default) or 0)`: the default is not zero
    else some default
  confidence.map fun confidence =>
    { isSpam, confidence
      reason := if textOf data "spam_reason" ≠ "" then textOf data "spam_reason"
        else textOf data "reason"
      ruleHit := none }

def parseConfidence : Option F :=
  if (data.get? "dept_confidence").isSome then numberOf data "dept_confidence"
  -- the confidence of the verdict on spam is not one of the department
  else if (data.get? "spam_confidence").isSome then some (Floating.ofRat 0)
  else numberOf data "confidence"

/-- The department of an answer: without one, the first candidate, with the confidence as it is
unless it is not positive. -/
def parseRouting (candidates : List Candidate) :
    Option (RoutingResult F) :=
  (parseConfidence data).map fun confidence =>
    let reasoning := textOf data "reasoning"
    match textOf data "department_id", candidates with
    | "", top :: _ =>
      RoutingResult.of top.departmentId top.departmentName
        (if Floating.le confidence (Floating.ofRat 0) then Floating.ofRat 0 else confidence) reasoning
    | departmentId, _ =>
      RoutingResult.of departmentId (textOf data "department_name") confidence reasoning

/-- `parse_analyze_response`, of the spam and the department. -/
def parseAnalyzeResponse (candidates : List Candidate) (skipSpamCheck : Bool) :
    Option (SpamResult F × RoutingResult F) :=
  (if skipSpamCheck then some trustedSpam else parseSpam data).bind fun spam =>
    (parseRouting data candidates).map fun routing => (spam, routing)

/-- The gateway: the one without a model, with its verdict on spam, or the one to a model, with the
model's answer. -/
inductive Gateway (F : Type) where
  | stub (spam : SpamResult F)
  | chatCompletions (answer : Dict String (Json F))

/-- The choice of `StubLLMGateway`. -/
def stubChoice (candidates : List Candidate) : RoutingResult F :=
  match candidates with
  | [] => RoutingResult.of "" "" (Floating.ofRat 0) "Кандидаты не найдены"
  | top :: _ =>
    RoutingResult.of top.departmentId top.departmentName (Floating.ofRat 0.88)
      ("Совпадение по ключевым словам отдела «" ++ top.departmentName ++ "»")

/-- `str(choice.get(key, ""))`. -/
def choiceText (choice : Dict String (Json F)) (key : String) : String :=
  (choice.get? key).elim "" Json.str

def routingFromChoice (choice : Dict String (Json F)) : Option (RoutingResult F) :=
  ((choice.get? "confidence").elim (some (Floating.ofRat 0)) Json.toFloat).map fun confidence =>
    RoutingResult.of (choiceText choice "department_id") (choiceText choice "department_name")
      confidence (choiceText choice "reasoning")

/-- `choose_department` of a gateway, read by `_routing_from_choice`. -/
def Gateway.chooseDepartment (llm : Gateway F) (candidates : List Candidate) :
    Option (RoutingResult F) :=
  match llm with
  | .stub _ => some (stubChoice candidates)
  | .chatCompletions answer =>
    match answer.items, candidates with
    | [], top :: _ =>
      some (RoutingResult.of top.departmentId top.departmentName (Floating.ofRat 0)
        "LLM не вернул JSON, выбран первый кандидат")
    | _, _ => routingFromChoice answer

/-- `analyze_incoming` of a gateway, of the spam and the department. -/
def Gateway.analyzeIncoming (llm : Gateway F) (candidates : List Candidate)
    (skipSpamCheck : Bool) : Option (SpamResult F × RoutingResult F) :=
  match llm with
  | .stub spam => some (if skipSpamCheck then trustedSpam else spam, stubChoice candidates)
  | .chatCompletions answer => parseAnalyzeResponse answer candidates skipSpamCheck

end

end AgentBack.Mail.Routing
