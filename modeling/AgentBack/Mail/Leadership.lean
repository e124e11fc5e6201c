import AgentBack.Base.Dict
import AgentBack.Mail.Filters
import AgentBack.Mail.Routing.Document

/-!
# Letters to the leadership (`agent_pochta/routing/organizations.py`,
`agent_pochta/routing/engine.py`, `agent_pochta/services/odata_incoming_mapper.py`)

Whether a department of the leadership may get a letter is asked by the router, with the source of
the match and the aliases of the mailboxes, and once more by the mapper to the ERP.
-/

namespace AgentBack.Mail.Leadership

open Text (strip)
open Routing (DocumentFields leadershipDepartmentCodes parseDocumentXml)

/-- `EmailMessage`, as far as its way to the ERP reads it. -/
structure Letter where
  mailbox : String
  to_ : List String
  cc : List String
  routingRecipient : Option String
  deriving DecidableEq

def infoLeadershipMailbox : String := "info@turbo-don.ru"

def leadershipDedicatedMailboxSources : List String := ["exact_email", "email_keyword"]

section
variable (lower : String → String)

/-- `normalize_email_address` of the router; without aliases the dictionary is empty. -/
def normalizeRoutingAddress (address : String) (aliases : Dict String String) : String :=
  let addr := strip (lower address)
  match aliases.get? addr with
  | some mailbox => mailbox
  | none =>
    let candidate := addr ++ "@turbo-don.ru"
    if '@' ∉ addr.toList ∧ candidate ∈ aliases.values then candidate else addr

def isLeadershipDepartment (departmentCode : String) : Bool :=
  decide (strip departmentCode ∈ leadershipDepartmentCodes)

def isInfoLeadershipMailbox (recipient : String) (aliases : Dict String String) : Bool :=
  decide (normalizeRoutingAddress lower recipient aliases = infoLeadershipMailbox)

def leadershipDepartmentAllowed (recipient departmentCode matchSource : String)
    (aliases : Dict String String) : Bool :=
  if isLeadershipDepartment departmentCode then
    isInfoLeadershipMailbox lower recipient aliases ||
      decide (matchSource ∈ leadershipDedicatedMailboxSources) ||
      decide (matchSource = "human_correction")
  else true

/-- The recipient that the router works with (`RouteEngine.route`). -/
def routeRecipient (letter : Letter) (aliases : Dict String String) : String :=
  normalizeRoutingAddress lower ((Routing.given letter.routingRecipient).getD letter.mailbox) aliases

/-- `_leadership_allowed`, of a candidate with a code and a source. -/
def leadershipAllowed (letter : Letter) (aliases : Dict String String) (code source : String) :
    Bool :=
  leadershipDepartmentAllowed lower (routeRecipient lower letter aliases) code source aliases

/-- `email_eligible_for_erp`; a retry gives the stored payload. -/
def eligibleForErp (letter : Letter) (payload : Option Payload) : Bool :=
  emailEligibleForErp lower letter.mailbox (payload.getD
    (emailInfoFilterPayload lower letter.mailbox letter.to_ letter.cc letter.routingRecipient))

inductive MapperError where
  /-- `xml_document is required for OData payload` -/
  | documentRequired
  /-- `Маршрут на руководство ({code}) недопустим для получателя {recipient!r}; только …` -/
  | leadershipRecipient (code recipient : String)
  deriving DecidableEq

def validateLeadershipRoutingForErp (departmentId emailRecipient matchSource : String)
    (aliases : Dict String String) : Except MapperError Unit :=
  let code := strip departmentId
  if isLeadershipDepartment code then
    let recipient := strip emailRecipient
    if leadershipDepartmentAllowed lower recipient code matchSource aliases then .ok ()
    else .error (.leadershipRecipient code recipient)
  else .ok ()

def erpRecipient (letter : Letter) (document : DocumentFields) : String :=
  strip (if document.emailRecipient ≠ "" then document.emailRecipient
    else (Routing.given letter.routingRecipient).getD letter.mailbox)

/-- `build_incoming_document_payload`, up to its checks: the document that the payload is made of. -/
def checkIncomingDocument (letter : Letter) (departmentId : String) (xmlDocument : Option String) :
    Except MapperError DocumentFields :=
  match xmlDocument.bind (parseDocumentXml lower) with
  | none => .error .documentRequired
  | some parsed => do
    validateLeadershipRoutingForErp lower departmentId (erpRecipient letter parsed) "" ∅
    return parsed

end

end AgentBack.Mail.Leadership
