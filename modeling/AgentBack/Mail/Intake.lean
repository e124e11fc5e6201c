import AgentBack.Base.Split
import AgentBack.Procurement.Allocation

/-!
# Recipients and row keys (`agent_pochta/routing/recipients.py`)

A letter is processed once for every recipient; the row of such an attempt has the Message-ID with
the recipient behind a `#` as its key. `lower` is `str.lower`.
-/

namespace AgentBack.Mail

open Procurement (DateTime)
open Text (strip)

/-- `EmailMessage`; its texts and attachments are left out. -/
structure EmailMessage where
  messageId : String
  mailbox : String
  senderEmail : String
  receivedAt : DateTime
  to_ : List String
  cc : List String := []
  routingRecipient : Option String := none
  deriving DecidableEq

/-- What a program may rely on when it lowers the case of an address. -/
structure LowersAddresses (lower : String → String) : Prop extends Text.LawfulLower lower where
  hash : ∀ s, '#' ∈ (lower s).toList ↔ '#' ∈ s.toList
  at_ : ∀ s, '@' ∈ (lower s).toList ↔ '@' ∈ s.toList

variable (lower : String → String)

/-- The body of the loop over `email.to`. -/
def addRecipient (recipients : List String) (addr : String) :
    List String :=
  let normalized := strip (lower addr)
  if normalized ≠ "" ∧ normalized ∉ recipients then recipients ++ [normalized] else recipients

def splitRoutingRecipients (email : EmailMessage) : List String :=
  let listed := email.to_.foldl (addRecipient lower) []
  let routed :=
    match email.routingRecipient.filter (· ≠ "") with
    | none => listed
    | some recipient =>
      let normalized := strip (lower recipient)
      if normalized ∉ listed then listed ++ [normalized] else listed
  if routed ≠ [] then routed
  else if '@' ∈ email.mailbox.toList then [strip (lower email.mailbox)]
  else ["info@turbo-don.ru"]

def routingMessageId (baseMessageId recipient : String) : String :=
  if recipient = "" then baseMessageId else baseMessageId ++ "#" ++ lower recipient

/-- The loop of `parse_routing_message_id`, which takes the suffixes with an `@` off. -/
def parseSuffixes (base : List Char) (recipient : Option (List Char)) :
    List Char × Option (List Char) :=
  match _h : splitLast '#' base with
  | none => (base, recipient)
  | some (front, suffix) =>
    if '@' ∈ suffix then parseSuffixes front (some suffix) else (base, recipient)
termination_by base.length
decreasing_by exact length_splitLast _h

def parseRoutingMessageId (messageId : String) :
    String × Option String :=
  match parseSuffixes messageId.toList none with
  | (_, none) => (messageId, none)
  | (base, some recipient) => (String.ofList base, some (lower (String.ofList recipient)))

def normalizeRoutingEmail (email : EmailMessage) : EmailMessage :=
  match parseRoutingMessageId lower email.messageId with
  | (_, none) => email
  | (base, some recipient) =>
    { email with
      messageId := base
      routingRecipient :=
        if (email.routingRecipient.filter (· ≠ "")).isSome then email.routingRecipient
        else some recipient }

/-- The base of a row key in `known_bases`: `(mid or "").split("#", 1)[0]`. -/
def knownBase (messageId : String) : String := String.ofList (beforeFirst '#' messageId.toList)

end AgentBack.Mail

/-!
# The rows of the letters (`agent_pochta/workers/tasks.py`, `db/repository.py`)

A letter has one row for every recipient. `processEmail` writes them; `shouldEnqueueEmail` reads them
to say whether a letter that a poll sees again goes to the queue once more.
-/

namespace AgentBack.Mail

open Procurement (DateTime)
open Text (contains strip)

/-- What the intake takes from its host: `str.lower`, and the `TIMESTAMP` that the database keeps of
a datetime, in microseconds since the first day. -/
structure Host where
  lower : String → String
  stored : DateTime → Int

inductive ProcessingStatus where
  | processing
  | done
  | spam
  | error
  | awaitingHuman
  | dialog
  deriving DecidableEq

/-- `EmailMessageRow`, as far as the intake reads it; `startedAt` is the `processing_started_at` of
its payload. -/
structure EmailMessageRow where
  messageId : String
  mailbox : String
  receivedAt : Int
  status : ProcessingStatus
  startedAt : Option Int
  deriving DecidableEq

def demoSenderDomains : List String := ["romashka.ru", "spam.example", "service.example"]

def demoMessageIdMarkers : List String :=
  ["demo-", "enqueue-demo", "@example>", "tender-happy@", "<t@example", "<s@example", "<g@example",
    "<noreply@example"]

def senderDomain (lower : String → String) (senderEmail : String) : String :=
  match splitLast '@' (lower (strip senderEmail)).toList with
  | none => ""
  | some (_, domain) => String.ofList domain

def isDemoMessage (lower : String → String) (messageId senderEmail : String) : Bool :=
  let mid := lower messageId
  if senderDomain lower senderEmail ∈ demoSenderDomains then true
  else if demoMessageIdMarkers.any fun marker => contains marker mid then true
  else if contains "demo-" mid && contains "nalog.gov.ru" mid then true
  else false

def isDemoEmail (lower : String → String) (email : EmailMessage) : Bool :=
  isDemoMessage lower email.messageId email.senderEmail

def skipImapRequeueStatuses : List ProcessingStatus := [.done, .spam, .awaitingHuman, .error, .dialog]

/-- `_STALE_PROCESSING_AFTER_SEC`, in microseconds. -/
def staleProcessingAfter : Int := 900 * 1000000

variable (rows : List EmailMessageRow)

/-- The row with a key: `filter_by(message_id=message_id).one_or_none()`. -/
def findRow (messageId : String) : Option EmailMessageRow :=
  rows.find? fun row => row.messageId = messageId

def isTerminalInDb (messageId : String) : Bool :=
  (findRow rows messageId).any fun row => row.status ∈ skipImapRequeueStatuses

def shouldSkipImapEnqueue (now : Int) (rows : List EmailMessageRow) (messageId : String) : Bool :=
  if isTerminalInDb rows messageId then true
  else
    match findRow rows messageId with
    | none => false
    | some row =>
      if row.status ≠ .processing then false
      else
        match row.startedAt with
        | none => false
        | some started => decide (now - started < staleProcessingAfter)

def shouldEnqueueEmail (host : Host) (now : Int) (rows : List EmailMessageRow)
    (email : EmailMessage) : Bool :=
  (splitRoutingRecipients host.lower email).any fun recipient =>
    !shouldSkipImapEnqueue now rows (routingMessageId host.lower email.messageId recipient)

def attemptEmail (lower : String → String) (email : EmailMessage) (recipient : String) :
    EmailMessage :=
  { email with
    routingRecipient := some recipient
    messageId := routingMessageId lower email.messageId recipient }

/-- Write the row of its key, over the old one when there is one. -/
def setRow (row : EmailMessageRow) : List EmailMessageRow :=
  rows.filter (fun old => old.messageId ≠ row.messageId) ++ [row]

/-- `persist_processing_start` and `persist_processing_result`: neither keeps a demo letter. -/
def persist (host : Host) (rows : List EmailMessageRow) (email : EmailMessage)
    (status : ProcessingStatus) (startedAt : Option Int) : List EmailMessageRow :=
  if isDemoEmail host.lower email then rows
  else
    setRow rows
      { messageId := email.messageId
        mailbox := email.mailbox
        receivedAt := host.stored email.receivedAt
        status := status
        startedAt := startedAt }

/-- How the graph ends for one recipient: with the status that it writes (or without writing), or
with an exception, the last one allowed or not. -/
inductive GraphRun where
  | finished (status : Option ProcessingStatus)
  | raised (exhausted : Bool)

/-- `_fail_reprocessing`: a row that is still being processed becomes an error. -/
def failReprocessing (messageId : String) : List EmailMessageRow :=
  rows.map fun row =>
    if row.messageId = messageId ∧ row.status = .processing then { row with status := .error }
    else row

/-- The loop of `process_email_task` over the recipients. An exception ends it. -/
def processRecipients (host : Host) (now : Int) (graph : String → GraphRun) (email : EmailMessage) :
    List String → List EmailMessageRow → List EmailMessageRow
  | [], rows => rows
  | recipient :: rest, rows =>
    let attempt := attemptEmail host.lower email recipient
    if isTerminalInDb rows attempt.messageId then processRecipients host now graph email rest rows
    else
      let started := persist host rows attempt .processing (some now)
      match graph recipient with
      | .raised false => started
      | .raised true => failReprocessing started attempt.messageId
      | .finished none => processRecipients host now graph email rest started
      | .finished (some status) =>
        processRecipients host now graph email rest (persist host started attempt status none)

/-- `process_email_task`, as far as it writes rows. -/
def processEmail (host : Host) (now : Int) (graph : String → GraphRun)
    (rows : List EmailMessageRow) (queued : EmailMessage) : List EmailMessageRow :=
  let email := normalizeRoutingEmail host.lower queued
  if isDemoEmail host.lower email then rows
  else processRecipients host now graph email (splitRoutingRecipients host.lower email) rows

end AgentBack.Mail
