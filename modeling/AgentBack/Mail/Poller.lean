import AgentBack.Mail.Intake

/-!
# The poller of the mailboxes (`agent_pochta/imap/poller.py`, `imap/client.py`)

A poll goes over the mailboxes. In each it fetches the letters without `\Seen`, which sets the flag,
and then, read-only, those since the last row of the mailbox whose Message-ID the rows do not know;
of both it puts new letters in the queue, up to a number that all mailboxes share.
-/

namespace AgentBack.Mail

/-- A letter on the server: what `SINCE` compares (the day), the Message-ID of its header as the
header scan reads it, and the e-mail that the parser makes of it, which says its mailbox. -/
structure Letter where
  uid : Nat
  date : Int
  headerId : String
  email : EmailMessage
  seen : Bool
  deriving DecidableEq

structure PollSettings where
  mailboxList : List String
  imapPollMaxEnqueue : Int := 5
  processingBacklogPauseThreshold : Int := 50
  imapCatchupDays : Int := 7
  imapCatchupMaxUids : Int := 50

/-! ## Fetching -/

/-- What happens to one fetch: which letters the server sends, how many of them are parsed before
the time limit of the task ends the loop, and the text of an exception that loses them all. -/
structure Fetch where
  sends : Nat → Bool
  parsed : Nat
  raised : Option String

/-- `sorted(uids, reverse=True)`. -/
def newestFirst (letters : List Letter) : List Letter :=
  (sortBy (fun letter => letter.uid) letters).reverse

variable (settings : PollSettings)

/-- `max(0, int(imap_catchup_max_uids or 0))`: no limit at zero. -/
def maxScan : Nat := settings.imapCatchupMaxUids.toNat

/-- The letters of a search whose headers are looked at. -/
def scanUids (exclude : List String) (found : List Letter) :
    List Letter :=
  let scan := newestFirst found
  if maxScan settings = 0 then scan
  else if exclude ≠ [] then scan.take (max (maxScan settings * 10) 200)
  else scan.take (maxScan settings)

/-- Whether the header scan passes a letter over. -/
def isExcluded (exclude : List String) (letter : Letter) : Bool :=
  decide (letter.headerId ≠ "" ∧ letter.headerId ∈ exclude)

def targetUids (exclude : List String) (found : List Letter) :
    List Letter :=
  let scan := scanUids settings exclude found
  if exclude = [] then scan
  else
    let targets := scan.filter fun letter => !isExcluded exclude letter
    if maxScan settings = 0 then targets else targets.take (maxScan settings)

/-- The letters that the server sends, of those that are fetched. -/
def delivered (fetch : Fetch) (exclude : List String) (found : List Letter) : List Letter :=
  (targetUids settings exclude found).filter fun letter => fetch.sends letter.uid

/-- `_fetch_by_search`: the e-mails, or the exception. -/
def fetchBySearch (fetch : Fetch) (exclude : List String) (found : List Letter) :
    Except String (List EmailMessage) :=
  match fetch.raised with
  | some text => .error text
  | none => .ok (((delivered settings fetch exclude found).take fetch.parsed).map (·.email))

/-- `UNSEEN`. -/
def searchUnseen (letters : List Letter) (mailbox : String) : List Letter :=
  letters.filter fun letter => letter.email.mailbox = mailbox ∧ letter.seen = false

/-- `SINCE since`. -/
def searchSince (letters : List Letter) (mailbox : String) (since : Int) : List Letter :=
  letters.filter fun letter => letter.email.mailbox = mailbox ∧ since ≤ letter.date

/-- The letters of a mailbox that a fetch with `mark_seen` flags. -/
def isFlagged (fetch : Fetch) (letters : List Letter) (mailbox : String) (letter : Letter) : Prop :=
  letter.email.mailbox = mailbox ∧
    letter.uid ∈ (delivered settings fetch [] (searchUnseen letters mailbox)).map (·.uid)

instance (settings : PollSettings) (fetch : Fetch) (letters : List Letter) (mailbox : String)
    (letter : Letter) : Decidable (isFlagged settings fetch letters mailbox letter) :=
  inferInstanceAs (Decidable (_ ∧ _))

/-- The server after `fetch_unseen`. -/
def markSeen (fetch : Fetch) (letters : List Letter) (mailbox : String) :
    List Letter :=
  letters.map fun letter =>
    if isFlagged settings fetch letters mailbox letter then { letter with seen := true } else letter

/-! ## One mailbox -/

variable (rows : List EmailMessageRow)

/-- The last `received_at` of the rows of a mailbox. -/
def lastReceivedAt (mailbox : String) : Option Int :=
  ((rows.filter fun row => row.mailbox = mailbox).map (·.receivedAt)).max?

def catchupSinceDate (today : Int) (last : Option Int) : Int :=
  match last with
  | none => today - settings.imapCatchupDays
  | some last => last / 86400000000 - 1

def knownBases (mailbox : String) : List String :=
  ((rows.filter fun row => row.mailbox = mailbox ∧ row.messageId ≠ "").map
    fun row => knownBase row.messageId).eraseDups

/-- The body of the loops of `merge_emails_by_message_id`. -/
def mergeEmail (merged : List EmailMessage) (email : EmailMessage) : List EmailMessage :=
  if email.messageId ∈ merged.map (·.messageId) then merged else merged ++ [email]

def mergeEmailsByMessageId (emailLists : List (List EmailMessage)) : List EmailMessage :=
  emailLists.flatten.foldl mergeEmail []

structure Outcome where
  unseen : Fetch
  catchup : Fetch

/-- What a poll does not get from the settings and the letters: the clock, the date and the rows. -/
structure PollContext where
  now : Int
  today : Int
  rows : List EmailMessageRow

def processingCount : Nat :=
  rows.countP fun row => row.status = .processing

def backlogPaused : Bool :=
  decide (settings.processingBacklogPauseThreshold ≤ processingCount rows)

def maxEnqueue : Int :=
  if backlogPaused settings rows then 0 else settings.imapPollMaxEnqueue

/-- The letters that the fetches of a mailbox bring, and the errors on the way. -/
def fetchMailbox (context : PollContext) (outcome : Outcome) (letters : List Letter)
    (mailbox : String) : List EmailMessage × List String :=
  let since := catchupSinceDate settings context.today (lastReceivedAt context.rows mailbox)
  match fetchBySearch settings outcome.unseen [] (searchUnseen letters mailbox) with
  | .error text => ([], [mailbox ++ ": " ++ text])
  | .ok unseen =>
    if backlogPaused settings context.rows then (mergeEmailsByMessageId [unseen, []], [])
    else
      match fetchBySearch settings outcome.catchup (knownBases context.rows mailbox)
          (searchSince (markSeen settings outcome.unseen letters mailbox) mailbox since) with
      -- the letters without the flag do not wait for the catch-up
      | .error text => (mergeEmailsByMessageId [unseen, []], [mailbox ++ ": catchup " ++ text])
      | .ok catchup => (mergeEmailsByMessageId [unseen, catchup], [])

/-- The server, the letters put in the queue and the counters of a poll. -/
structure Poll where
  letters : List Letter
  queued : List EmailMessage := []
  enqueued : Nat := 0
  skippedDemo : Nat := 0
  skippedProcessed : Nat := 0
  skippedBacklog : Nat := 0
  errors : List String := []

/-- The body of the loop over the letters of a mailbox. -/
def visitEmail (host : Host) (settings : PollSettings) (context : PollContext) (poll : Poll)
    (email : EmailMessage) : Poll :=
  if maxEnqueue settings context.rows ≤ poll.enqueued then
    { poll with skippedBacklog := poll.skippedBacklog + 1 }
  else if isDemoEmail host.lower email then { poll with skippedDemo := poll.skippedDemo + 1 }
  else if !shouldEnqueueEmail host context.now context.rows email then
    { poll with skippedProcessed := poll.skippedProcessed + 1 }
  else { poll with queued := poll.queued ++ [email], enqueued := poll.enqueued + 1 }

def pollMailbox (host : Host) (settings : PollSettings) (context : PollContext) (poll : Poll)
    (mailbox : String × Outcome) : Poll :=
  let (emails, errors) := fetchMailbox settings context mailbox.2 poll.letters mailbox.1
  emails.foldl (visitEmail host settings context)
    { poll with
      letters := markSeen settings mailbox.2.unseen poll.letters mailbox.1
      errors := poll.errors ++ errors }

/-- The mailboxes with what happens to their fetches. -/
def visits (outcomes : Nat → Outcome) : List (String × Outcome) :=
  settings.mailboxList.zipIdx.map fun mailbox => (mailbox.1, outcomes mailbox.2)

def pollMailboxes (host : Host) (settings : PollSettings) (context : PollContext)
    (outcomes : Nat → Outcome) (letters : List Letter) : Poll :=
  (visits settings outcomes).foldl (pollMailbox host settings context) { letters := letters }

end AgentBack.Mail

/-!
# The intake of letters

The server, the rows and the queue under what happens to them: letters arrive, polls run, and workers
take letters out of the queue in any order and process them.
-/

namespace AgentBack.Mail

structure Delivery where
  letters : List Letter := []
  rows : List EmailMessageRow := []
  queue : List EmailMessage := []
  deriving DecidableEq

inductive Event where
  | arrive (letter : Letter)
  /-- `poll_mailboxes` runs. -/
  | poll (now today : Int) (outcomes : Nat → Outcome)
  /-- `process_email_task` takes a letter out of the queue and runs to its end. -/
  | work (place : Nat) (now : Int) (graph : String → GraphRun)

/-- What happens to the intake; nothing when the event cannot occur. -/
def Delivery.step (host : Host) (settings : PollSettings) (state : Delivery) :
    Event → Option Delivery
  | .arrive letter =>
    -- a new letter has no flag, and a number of its own in its mailbox
    if letter.seen = false ∧ ∀ old ∈ state.letters,
        old.email.mailbox = letter.email.mailbox → old.uid ≠ letter.uid then
      some { state with letters := state.letters ++ [letter] }
    else none
  | .poll now today outcomes =>
    let poll := pollMailboxes host settings { now := now, today := today, rows := state.rows }
      outcomes state.letters
    some { state with letters := poll.letters, queue := state.queue ++ poll.queued }
  | .work place now graph =>
    match state.queue[place]? with
    | none => none
    | some email =>
      some { state with
        rows := processEmail host now graph state.rows email
        queue := state.queue.eraseIdx place }

/-- The states that runs reach in which every event meets a condition on the state before it. The
runs start with the rows of an earlier time, no letters and an empty queue. -/
inductive Delivery.Reaches (host : Host) (settings : PollSettings)
    (condition : Delivery → Event → Prop) : Delivery → Prop where
  | start (rows : List EmailMessageRow) : Reaches host settings condition { rows := rows }
  | step {state state' : Delivery} {event : Event} (before : Reaches host settings condition state)
      (met : condition state event) (does : state.step host settings event = some state') :
      Reaches host settings condition state'

end AgentBack.Mail
