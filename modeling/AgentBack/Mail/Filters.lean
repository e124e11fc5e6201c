import AgentBack.Base.Like
import AgentBack.Base.Text

/-!
# Filters of the message list (`agent_pochta/db/message_filters.py`)

Who a message is addressed to is asked twice: of a row in Python, over the payload's strings, and of
the table in SQL, over the JSON of the payload column. `lower` is `str.lower`.
-/

namespace AgentBack.Mail

open Text (contains strip)

inductive JsonField (α : Type) where
  | missing
  | null
  | value (a : α)
  deriving DecidableEq

/-- A stored payload, as far as the filters read it. -/
structure Payload where
  to_ : JsonField (List String)
  cc : JsonField (List String)
  routingRecipient : JsonField String
  hasOtherKeys : Bool
  deriving DecidableEq

def infoMailbox : String := "info@turbo-don.ru"

def testIiMailbox : String := "test_ii@turbo-don.ru"

/-- `payload.get(key) or []`. -/
def JsonField.items : JsonField (List String) → List String
  | .value items => items
  | _ => []

/-- `payload.get(key) or ""`. -/
def JsonField.text : JsonField String → String
  | .value text => text
  | _ => ""

/-- `not payload`, of an object: it has no keys. -/
def Payload.isEmpty (payload : Payload) : Bool :=
  decide (payload.to_ = .missing ∧ payload.cc = .missing ∧ payload.routingRecipient = .missing ∧
    payload.hasOtherKeys = false)

/-! ## The predicates -/

variable (lower : String → String)

def normalizeEmailAddress (addr : String) : String := strip (lower addr)

/-- One list of `payload_recipient_lists`. -/
def recipientList (field : JsonField (List String)) : List String :=
  (field.items.filter fun item => strip item ≠ "").map (normalizeEmailAddress lower)

/-- `normalize_email_address(str(routing_raw)) if routing_raw else ""`. -/
def routingOf (payload : Payload) : String :=
  if payload.routingRecipient.text = "" then ""
  else normalizeEmailAddress lower payload.routingRecipient.text

variable (mailbox : String)

variable (payload : Option Payload)

def isInfoToTestIiRouting :
    Bool :=
  match payload with
  | none => false
  | some payload =>
    if payload.isEmpty then false
    else if routingOf lower payload ≠ testIiMailbox then false
    else
      let toList := recipientList lower payload.to_
      let ccList := recipientList lower payload.cc
      let hasInfo := decide (infoMailbox ∈ toList ∨ infoMailbox ∈ ccList)
      if testIiMailbox ∈ toList ∧ hasInfo = false then false
      else if hasInfo then true
      else if toList = [] ∧ ccList = [] then
        decide (normalizeEmailAddress lower mailbox = testIiMailbox)
      else false

def isOnlyInfoTo : Bool :=
  match payload with
  | none => false
  | some payload =>
    if payload.isEmpty then false
    else
      let toList := recipientList lower payload.to_
      if recipientList lower payload.cc ≠ [] then false
      else if toList.filter (fun addr => addr ≠ infoMailbox) ≠ [] then false
      else if routingOf lower payload ≠ "" then decide (routingOf lower payload = infoMailbox)
      else if toList = [infoMailbox] then true
      else decide (toList = [] ∧ normalizeEmailAddress lower mailbox = infoMailbox)

def emailInfoFilterPayload (to_ cc : List String) (routingRecipient : Option String) : Payload :=
  { to_ := .value to_
    cc := .value cc
    routingRecipient :=
      match routingRecipient.filter (· ≠ "") with
      | some recipient => .value recipient
      | none =>
        if normalizeEmailAddress lower mailbox = infoMailbox then .value infoMailbox else .missing
    hasOtherKeys := false }

/-- `email_eligible_for_erp`, of a payload. -/
def emailEligibleForErp (payload : Payload) : Bool :=
  if isOnlyInfoTo lower mailbox (some payload) then true
  else if isInfoToTestIiRouting lower mailbox (some payload) then true
  else if recipientList lower payload.cc ≠ [] then false
  else
    decide (routingOf lower payload = infoMailbox ∧ infoMailbox ∈ recipientList lower payload.to_)

def recipientDisplayValue : String :=
  match payload with
  | none => ""
  | some payload =>
    if payload.isEmpty then ""
    else
      let routing := strip payload.routingRecipient.text
      if routing ≠ "" then routing else ", ".intercalate (recipientList lower payload.to_)

def matchesRecipientQ (query : String) : Bool :=
  let needle := lower (strip query)
  if needle = "" then true
  else if payload.all Payload.isEmpty then false
  else
    let displayed := lower (recipientDisplayValue lower payload)
    if displayed ≠ "" then contains needle displayed
    else contains needle (normalizeEmailAddress lower mailbox)

/-! ## The SQL filters

A filter answers whether a row satisfies it, or nothing when the query ends in an error.
-/

/-- What the database does to a row: its `lower`, and the cast of the payload's text to `jsonb`
(`safe_payload_jsonb`, which takes `\u0000` out of the text first). -/
structure Postgres where
  lower : String → String
  castPayload : Payload → Option Payload

/-- The column as `jsonb`; every key of `NULL` is missing. -/
def safePayloadJsonb (db : Postgres) : Option Payload → Option Payload
  | none => some { to_ := .missing, cc := .missing, routingRecipient := .missing, hasOtherKeys := false }
  | some payload => db.castPayload payload

/-- The elements of `coalesce(payload[key], '[]')`: an error for a JSON `null`. -/
def sqlItems : JsonField (List String) → Option (List String)
  | .missing => some []
  | .null => none
  | .value items => some items

def jsonbContainsEmail (db : Postgres) (items : List String) (email : String) : Bool :=
  items.any fun item => db.lower item = email

def onlyInfoToSqlFilter (db : Postgres) (mailbox : String) (column : Option Payload) :
    Option Bool := do
  let payload ← safePayloadJsonb db column
  let to_ ← sqlItems payload.to_
  let cc ← sqlItems payload.cc
  let emptyCc := decide (cc.length = 0)
  let noForeignTo := !to_.any fun item => db.lower item ≠ infoMailbox
  let routing := db.lower payload.routingRecipient.text
  let withRoutingInfo := decide (routing = infoMailbox) && noForeignTo
  let withoutRouting := decide (routing = "") &&
    ((jsonbContainsEmail db to_ infoMailbox && noForeignTo) ||
      (decide (to_.length = 0) && decide (db.lower mailbox = infoMailbox)))
  return column.isSome && emptyCc && (withRoutingInfo || withoutRouting)

def infoToTestIiSqlFilter (db : Postgres) (mailbox : String) (column : Option Payload) :
    Option Bool := do
  let payload ← safePayloadJsonb db column
  let to_ ← sqlItems payload.to_
  let cc ← sqlItems payload.cc
  let infoInTo := jsonbContainsEmail db to_ infoMailbox
  let infoInCc := jsonbContainsEmail db cc infoMailbox
  let testIiInTo := jsonbContainsEmail db to_ testIiMailbox
  let intakeOk := infoInTo || infoInCc ||
    (decide (to_.length = 0) && decide (cc.length = 0) &&
      decide (db.lower mailbox = testIiMailbox))
  let notDirectTestIi := infoInTo || infoInCc || !testIiInTo
  return decide (db.lower payload.routingRecipient.text = testIiMailbox) && column.isSome &&
    intakeOk && notDirectTestIi

/-- `text LIKE '%needle%'`. -/
def likeAround (needle text : String) : Bool := like ('%' :: needle.toList ++ ['%']) text.toList

/-- `recipient_q_sql_filter`; the case of the query is lowered in Python. -/
def recipientQSqlFilter (db : Postgres) (mailbox : String) (column : Option Payload)
    (query : String) : Option Bool := do
  let payload ← safePayloadJsonb db column
  let to_ ← sqlItems payload.to_
  let needle := lower (strip query)
  let routing := payload.routingRecipient.text
  let routingMatch := decide (routing ≠ "") && likeAround needle (db.lower routing)
  let toAnyMatch := to_.any fun item => likeAround needle (db.lower item)
  let mailboxMatch := decide (routing = "") && decide (to_.length = 0) &&
    likeAround needle (db.lower mailbox)
  return column.isSome && (routingMatch || (decide (routing = "") && toAnyMatch) || mailboxMatch)

end AgentBack.Mail
