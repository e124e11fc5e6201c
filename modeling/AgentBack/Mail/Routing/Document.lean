import AgentBack.Base.Xml
import AgentBack.Mail.Routing.Decision
import AgentBack.Mail.Routing.Theme

/-!
# The XML document (`agent_pochta/routing/xml_builder.py`, `agent_pochta/routing/xml_parser.py`)

The document is built as text, validated and parsed again. The time of the letter is its wall clock
in Moscow.
-/

namespace AgentBack.Mail.Routing

open Text (contains strip)

/-- `EmailMessage`, as far as the document reads it. -/
structure EmailMessage where
  senderEmail : String
  subject : String
  /-- Year, month, day, hour, minute and second of `received_at` in Moscow. -/
  mailDatetime : Nat × Nat × Nat × Nat × Nat × Nat
  deriving DecidableEq

def reserveDepartmentCode : String := "00-000066"

def spamDepartmentCode : String := "00-999999"

def decimalZeros : List Nat :=
  [0x30, 0x660, 0x6f0, 0x7c0, 0x966, 0x9e6, 0xa66, 0xae6, 0xb66, 0xbe6, 0xc66, 0xce6, 0xd66, 0xde6,
    0xe50, 0xed0, 0xf20, 0x1040, 0x1090, 0x17e0, 0x1810, 0x1946, 0x19d0, 0x1a80, 0x1a90, 0x1b50,
    0x1bb0, 0x1c40, 0x1c50, 0xa620, 0xa8d0, 0xa900, 0xa9d0, 0xa9f0, 0xaa50, 0xabf0, 0xff10, 0x104a0,
    0x10d30, 0x11066, 0x110f0, 0x11136, 0x111d0, 0x112f0, 0x11450, 0x114d0, 0x11650, 0x116c0,
    0x11730, 0x118e0, 0x11950, 0x11c50, 0x11d50, 0x11da0, 0x16a60, 0x16ac0, 0x16b50, 0x1d7ce,
    0x1d7d8, 0x1d7e2, 0x1d7ec, 0x1d7f6, 0x1e140, 0x1e2f0, 0x1e950, 0x1fbf0]

/-- `\d`. -/
def isDecimal (c : Char) : Bool :=
  decimalZeros.any fun start => decide (start ≤ c.toNat ∧ c.toNat < start + 10)

/-- `_DEPT_CODE_RE.match`, of a stripped text. -/
def isDeptCode (value : String) : Bool :=
  match value.toList with
  | '0' :: '0' :: '-' :: digits => decide (digits.length = 6) && digits.all isDecimal
  | _ => false

def resolveServiceCode (code name fallback : String) : String :=
  if isDeptCode (strip code) then strip code
  else if isDeptCode (strip name) then strip name
  else fallback

/-! ## Building -/

def esc (value : String) : String := String.ofList (Xml.escape value.toList)

def tagged (tag content : String) : String :=
  "<" ++ tag ++ ">" ++ content ++ "</" ++ tag ++ ">"

def formatPartner (partner : Option String) : String :=
  let value := strip (partner.getD "")
  if value = "" ∨ value = "-" then "-" else value

def serviceReasoning (email : EmailMessage) (decision : RoutingDecision) : String :=
  sanitizeTheme (if email.subject ≠ "" then email.subject else decision.theme) themeMaxLen

variable (decision : RoutingDecision)

def ensureServiceRoutes (isSpam : Bool) : List ServiceRoute :=
  if isSpam then
    [{ code := spamDepartmentCode, name := "Спам", process := "ознакомление", reasoning := "",
       direction := decision.direction }]
  else if decision.services = [] then
    [{ code := reserveDepartmentCode, name := reserveDepartmentCode, process := "исполнение",
       reasoning := "", direction := decision.direction }]
  else decision.services

def twoDigits (n : Nat) : String :=
  String.ofList [Nat.digitChar (n / 10 % 10), Nat.digitChar (n % 10)]

def formatMailDatetimeForXml (moment : Nat × Nat × Nat × Nat × Nat × Nat) : String :=
  let (year, month, day, hour, minute, second) := moment
  toString year ++ "-" ++ twoDigits month ++ "-" ++ twoDigits day ++ " " ++ twoDigits hour ++ ":" ++
    twoDigits minute ++ ":" ++ twoDigits second

def serviceTitleBlock (serviceCode departmentName : String) : String :=
  let title := strip departmentName
  if title = "" ∨ title = serviceCode ∨ isDeptCode title then "" else tagged "title" (esc title)

/-- `svc.process or "исполнение"`. -/
def processOrDefault (process : String) : String := if process = "" then "исполнение" else process

def serviceCode (isSpam : Bool) (svc : ServiceRoute) : String :=
  resolveServiceCode svc.code svc.name (if isSpam then spamDepartmentCode else reserveDepartmentCode)

def serviceBlock (isSpam : Bool) (reasoning : String) (svc : ServiceRoute) : String :=
  let code := serviceCode isSpam svc
  tagged "service"
    (tagged "name" (esc code) ++ serviceTitleBlock code svc.name ++
      tagged "process" (esc (processOrDefault svc.process)) ++ tagged "reasoning" (esc reasoning))

def documentProcess (isSpam : Bool) : String :=
  let services := ensureServiceRoutes decision isSpam
  if strip decision.process ≠ "" then strip decision.process
  else processOrDefault (services.head?.elim "" fun svc => svc.process)

variable (lower : String → String)

variable (email : EmailMessage)

def documentTheme (decision : RoutingDecision) (isSpam : Bool) : String :=
  let process := documentProcess decision isSpam
  if decision.theme ≠ "" then
    resolveDocumentTheme lower email.subject decision.theme "" process decision.claim
  else buildSubjectXmlTheme lower email.subject "" process decision.claim

/-- `(value or default).strip() or default`. -/
def stripOr (value default : String) : String := if strip value = "" then default else strip value

def documentOrganization : String := stripOr decision.organization "НП"

def documentDirection : String :=
  stripOr decision.direction directionDefault

def dialogBlock : String :=
  match decision.dialogMode with
  | some mode => if mode = "" then "" else tagged "dialog_mode" (esc mode)
  | none => ""

def buildXmlDocument (recipient : String) (decision : RoutingDecision) (isSpam : Bool) : String :=
  let services := ensureServiceRoutes decision isSpam
  let reasoning := serviceReasoning email decision
  tagged "document"
    (tagged "organization" (esc (documentOrganization decision)) ++
      tagged "theme" (esc (documentTheme lower email decision isSpam)) ++
      tagged "направление" (esc (documentDirection decision)) ++
      tagged "claim" (if decision.claim then "true" else "false") ++
      tagged "partner" (esc (formatPartner decision.partner)) ++
      tagged "services" (String.join (services.map (serviceBlock isSpam reasoning))) ++
      tagged "email_sender" (esc email.senderEmail) ++
      tagged "email_recipient" (esc recipient) ++
      tagged "mail_datetime" (formatMailDatetimeForXml email.mailDatetime) ++
      tagged "process" (esc (documentProcess decision isSpam)) ++
      dialogBlock decision)

/-! ## Validating and parsing -/

def name (tag : String) (valid : Xml.isName tag.toList = true := by decide) : Xml.Name :=
  ⟨tag.toList, valid⟩

def requiredTags : List String :=
  ["organization", "theme", "направление", "claim", "partner", "services", "email_sender",
    "email_recipient", "mail_datetime", "process"]

/-- `ET.fromstring(xml.strip())`. -/
def fromstring (xml : String) : Option Xml.Element := Xml.parse (strip xml).toList

/-- `(service.findtext("name") or "").strip()`. -/
def nodeText (parent : Xml.Element) (tag : Xml.Name) : String :=
  match parent.find tag with
  | some node => strip (String.ofList node.text)
  | none => ""

def validateXmlDocument (xml : String) : Bool :=
  if (requiredTags.all fun tag => contains ("<" ++ tag ++ ">") xml) &&
      decide ("<document>".toList <+: (strip xml).toList) then
    match fromstring xml with
    | none => false
    | some root =>
      if root.tag ≠ name "document" then false
      else
        match root.find (name "services") with
        | none => false
        | some services =>
          let nodes := services.findall (name "service")
          !nodes.isEmpty && nodes.all fun service => isDeptCode (nodeText service (name "name"))
  else false

structure ServiceFields where
  name : String
  title : String
  process : String
  reasoning : String
  deriving DecidableEq

/-- What `parse_document_xml` returns. -/
structure DocumentFields where
  organization : String
  theme : String
  direction : String
  claim : Bool
  partner : String
  services : List ServiceFields
  emailSender : String
  emailRecipient : String
  mailDatetime : String
  process : String
  spam : Bool
  confidenceLevel : String
  matchingKeywords : String
  processingNotes : String
  deriving DecidableEq

def boolText (value : String) : Bool :=
  decide (lower (strip value) = "true")

def parseDocumentXml (xml : String) : Option DocumentFields :=
  if xml = "" then none
  else
    match fromstring xml with
    | none => none
    | some root =>
      if root.tag ≠ name "document" then none
      else
        let services := match root.find (name "services") with
          | none => []
          | some services => (services.findall (name "service")).map fun service =>
            { name := nodeText service (name "name")
              title := nodeText service (name "title")
              process := nodeText service (name "process")
              reasoning := nodeText service (name "reasoning") }
        some
          { organization := nodeText root (name "organization")
            theme := nodeText root (name "theme")
            direction := nodeText root (name "направление")
            claim := boolText lower (nodeText root (name "claim"))
            partner := nodeText root (name "partner")
            services
            emailSender := nodeText root (name "email_sender")
            emailRecipient := nodeText root (name "email_recipient")
            mailDatetime := nodeText root (name "mail_datetime")
            process := nodeText root (name "process")
            spam := boolText lower (nodeText root (name "spam"))
            confidenceLevel := nodeText root (name "confidence_level")
            matchingKeywords := nodeText root (name "matching_keywords")
            processingNotes := nodeText root (name "processing_notes") }

def leaf (tag : Xml.Name) (text : String) : Xml.Element := .mk tag text.toList []

def titleLeaves (code departmentName : String) : List Xml.Element :=
  let title := strip departmentName
  if title = "" ∨ title = code ∨ isDeptCode title then [] else [leaf (name "title") title]

def serviceElement (isSpam : Bool) (reasoning : String) (svc : ServiceRoute) : Xml.Element :=
  let code := serviceCode isSpam svc
  .mk (name "service") []
    (leaf (name "name") code :: (titleLeaves code svc.name ++
      [leaf (name "process") (processOrDefault svc.process), leaf (name "reasoning") reasoning]))

def dialogLeaves : List Xml.Element :=
  match decision.dialogMode with
  | some mode => if mode = "" then [] else [leaf (name "dialog_mode") mode]
  | none => []

def documentElement (recipient : String) (decision : RoutingDecision) (isSpam : Bool) :
    Xml.Element :=
  .mk (name "document") []
    (leaf (name "organization") (documentOrganization decision) ::
      leaf (name "theme") (documentTheme lower email decision isSpam) ::
      leaf (name "направление") (documentDirection decision) ::
      leaf (name "claim") (if decision.claim then "true" else "false") ::
      leaf (name "partner") (formatPartner decision.partner) ::
      .mk (name "services") [] ((ensureServiceRoutes decision isSpam).map
        (serviceElement isSpam (serviceReasoning email decision))) ::
      leaf (name "email_sender") email.senderEmail ::
      leaf (name "email_recipient") recipient ::
      leaf (name "mail_datetime") (formatMailDatetimeForXml email.mailDatetime) ::
      leaf (name "process") (documentProcess decision isSpam) :: dialogLeaves decision)

def servicesElement (decision : RoutingDecision) (isSpam : Bool) :
    Xml.Element :=
  .mk (name "services") [] ((ensureServiceRoutes decision isSpam).map
    (serviceElement isSpam (serviceReasoning email decision)))

/-- What a call of `rebuild_decision_xml` changes. -/
structure Rebuild where
  departmentId : Option String
  departmentName : Option String
  theme : Option String
  partner : Option String
  process : Option String

def given (value : Option String) : Option String := value.filter (· ≠ "")

def resolvedProcess (call : Rebuild) : String :=
  match given call.process with
  | some process => process
  | none =>
    if decision.process ≠ "" then decision.process
    else decision.services.head?.elim "исполнение" fun svc => svc.process

def updatedDecision (ruleDirection : String → String) (decision : RoutingDecision)
    (call : Rebuild) : RoutingDecision :=
  let process := resolvedProcess decision call
  let previous := decision.services.head?
  let decision := match given call.departmentId with
    | some department =>
      let changed := decide (previous.map ServiceRoute.code ≠ some department)
      let direction :=
        if changed then
          resolveDirectionForDepartment ruleDirection department decision.organization
            decision.direction
        else decision.direction
      let baseName := match previous with
        | some base => base.name
        | none => (given call.departmentName).getD department
      { decision with
        services := [{ code := department, name := (given call.departmentName).getD baseName,
                       process, reasoning := "", direction }]
        direction := if changed then direction else decision.direction }
    | none =>
      if call.process.isSome then
        { decision with
          services := decision.services.map fun svc : ServiceRoute => { svc with process := process } }
      else decision
  { decision with
    process
    theme := call.theme.getD decision.theme
    partner := call.partner.orElse fun _ => decision.partner }

def withDocument (recipient : String) (decision : RoutingDecision) : RoutingDecision :=
  let xml := stripForbiddenTags (buildXmlDocument lower email recipient decision false)
  if validateXmlDocument xml then { decision with xmlDocument := some xml } else decision

def rebuildDecisionXml (lower ruleDirection : String → String) (email : EmailMessage)
    (recipient : String) (decision : RoutingDecision) (call : Rebuild) : RoutingDecision :=
  withDocument lower email recipient (updatedDecision ruleDirection decision call)

end AgentBack.Mail.Routing
