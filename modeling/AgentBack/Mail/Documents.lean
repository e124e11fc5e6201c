import AgentBack.Mail.Erp

/-!
# The documents of a letter (`agent_pochta/workers/tasks.py`)

The tasks that may create a document of 1C for one letter and recipient, as workers run them: each
reads the row, calls 1C and writes the row in steps of its own, tasks overlap, and a task whose
worker dies goes back to the queue.
-/

namespace AgentBack.Mail

open Supply (isGiven)

/-- What a task is about: the mailbox of the letter and the recipients of its payload. -/
structure ErpLetter where
  mailbox : String
  recipients : Payload
  deriving DecidableEq

inductive ErpTask where
  | process
  | reprocess (restoredFromSpam : Bool)
  | continueAfterHuman
  | retry (force : Bool)
  deriving DecidableEq

/-- What becomes of the node of 1C in a run of the graph. -/
inductive NodeCall where
  | notReached
  | skipped (number : String)
  | made (create : CreateCall) (attach : AttachCall)
  deriving DecidableEq

def NodeCall.patch (humanApproved : Bool) : NodeCall → Option ErpPatch
  | .notReached => none
  | .skipped number => some (skippedPatch number)
  | .made create attach => some (createdPatch humanApproved create attach)

def NodeCall.creates : NodeCall → Bool
  | .made create _ => create.creates
  | _ => false

inductive ErpJob where
  /-- The graph runs and has not come to 1C. -/
  | graph (task : ErpTask) (letter : ErpLetter)
  /-- The node of 1C is over; the row is not written. -/
  | called (task : ErpTask) (letter : ErpLetter) (node : NodeCall)
  /-- The row is written; the task has not ended. -/
  | saved (task : ErpTask) (state : GraphState) (node : NodeCall)
  | creating (force : Bool)
  /-- A retry after its call; the row is not written. -/
  | created (force : Bool) (create : CreateCall) (attach : AttachCall)
  /-- A retry that synchronises the document of the row. -/
  | syncing (force : Bool)
  deriving DecidableEq

def ErpJob.task : ErpJob → ErpTask
  | .graph task _ | .called task _ _ | .saved task _ _ => task
  | .creating force | .created force _ _ | .syncing force => .retry force

/-- Whether the letter goes on after the decision of an operator. -/
def ErpTask.humanApproved : ErpTask → Bool
  | .process | .reprocess _ => false
  | .continueAfterHuman | .retry _ => true

/-- `ensure_processing_row`: the payload is written anew. -/
def ensureProcessingRow (letter : ErpLetter) (row : Option ErpRow) : ErpRow :=
  let payload : ErpPayload :=
    { recipients := letter.recipients, xmlDocument := none, erpAttachments := [] }
  match row with
  | none =>
    { status := .processing
      humanReview := false
      mailbox := letter.mailbox
      departmentId := none
      summaryRu := none
      erpDocumentNumber := none
      erpTaskId := none
      erpRetryCount := 0
      payload := some payload }
  | some row =>
    { row with
      status := .processing
      humanReview := false
      mailbox := letter.mailbox
      payload := some payload }

/-- `persist_processing_start`, which passes over a failure of the database. -/
def persistProcessingStart (letter : ErpLetter) (row : Option ErpRow) (persisted : Bool) :
    Option ErpRow :=
  if persisted then some (ensureProcessingRow letter row) else row

def markRestoredFromSpam (row : ErpRow) : ErpRow :=
  { row with
    status := .awaitingHuman
    humanReview := true
    payload := row.payload.map fun payload => { payload with xmlDocument := none } }

variable (lower : String → String)

variable (settings : ErpSettings)

/-- A task that a worker takes: the row that it writes first, and the job that it becomes, if it does
not end at once. The database may fail the first read, and the write before the graph. -/
def startTask (letter : ErpLetter) (row : Option ErpRow) (read persisted : Bool) :
    ErpTask → Option ErpRow × Option ErpJob
  | .process =>
    -- `_is_terminal_in_db` takes a row that it cannot read for one that is not over
    if read && row.any fun row => row.status ∈ skipImapRequeueStatuses then (row, none)
    else (persistProcessingStart letter row persisted, some (.graph .process letter))
  | .reprocess restoredFromSpam =>
    match if read then row else none with
    | none => (row, none)
    | some row =>
      match row.payload with
      | none => (some row, none)
      | some payload =>
        let stored : ErpLetter := { mailbox := row.mailbox, recipients := payload.recipients }
        let row := if restoredFromSpam then markRestoredFromSpam row else row
        (persistProcessingStart stored (some row) persisted,
          some (.graph (.reprocess restoredFromSpam) stored))
  | .continueAfterHuman =>
    match if read then row else none with
    | none => (row, none)
    | some row =>
      match row.payload with
      | none => (some row, none)
      | some payload =>
        if !isGiven row.departmentId then
          (some (if row.status = .processing then { row with status := .error, humanReview := false }
            else row), none)
        else
          (some { row with status := .processing, humanReview := false },
            some (.graph .continueAfterHuman
              { mailbox := row.mailbox, recipients := payload.recipients }))
  | .retry force =>
    match if read then row else none with
    | none => (row, none)
    | some row =>
      match retryStart lower settings row with
      | .finished row _ => (some row, none)
      | .pipeline payload =>
        (some row,
          some (.graph (.retry force) { mailbox := row.mailbox, recipients := payload.recipients }))
      | .syncExisting => (some row, some (.syncing force))
      | .create row => (some row, some (.creating force))

def syncPostHitlResult (row : ErpRow) (state : GraphState) (patch : Option ErpPatch) : ErpRow :=
  let status := (patch.bind (·.status)).getD state.status
  let row := { row with
    status := if status = .processing then .done else status
    humanReview := (patch.bind (·.humanReview)).getD state.humanReview
    summaryRu := if isGiven state.summaryRu then state.summaryRu else row.summaryRu }
  match patch with
  | none => row
  | some patch =>
    if patch.erp.success then
      { row with
        erpDocumentNumber := patch.erp.erpDocumentNumber
        erpTaskId := patch.erp.erpTaskId
        erpRetryCount := 0 }
    else row

/-- Whether a task that ran the graph schedules a retry at its end. -/
def schedulesRetry (task : ErpTask) (node : NodeCall) : Bool :=
  let patch := node.patch task.humanApproved
  match task with
  | .process =>
    patch.any fun patch =>
      patch.status = some .error && !patch.erp.success && patch.erpRetryScheduled
  | .continueAfterHuman => patch.any fun patch => !patch.erp.success && patch.erpRetryScheduled
  | .reprocess _ | .retry _ => false

/-- The row when a task that ran the graph ends. -/
def finishRow (row : Option ErpRow) (task : ErpTask) (state : GraphState) (node : NodeCall) :
    Option ErpRow :=
  match task with
  | .continueAfterHuman =>
    row.map fun row => syncPostHitlResult row state (node.patch task.humanApproved)
  | _ => row

/-- The row when a node before 1C raises: with retries left the task goes back to the queue. -/
def raisedRow (row : Option ErpRow) (task : ErpTask) (again : Bool) : Option ErpRow :=
  if again then row
  else
    match task with
    | .process | .retry _ => row
    | .reprocess _ => row.map fun row =>
      if row.status = .processing then escalate row else row
    | .continueAfterHuman => row.map fun row =>
      if row.status = .processing then { row with status := .error, humanReview := false } else row

/-! ## Workers -/

/-- The row of the letter, the documents that 1C has for it, and the tasks in the queue and with the
workers. -/
structure ErpSystem where
  row : Option ErpRow
  documents : Nat := 0
  queue : List ErpTask := []
  running : List ErpJob := []
  deriving DecidableEq

/-- What happens to the tasks of a letter. A place is one in the queue or among the workers. -/
inductive ErpEvent where
  /-- The poller, the recovery of stale rows, an operator or a task asks for a task. -/
  | enqueue (task : ErpTask)
  | start (place : Nat) (read persisted : Bool)
  /-- A node before 1C raises. -/
  | raise (place : Nat) (again : Bool)
  /-- The graph comes to its last node. -/
  | node (place : Nat) (call : NodeCall)
  /-- The last node writes the row, or fails to. -/
  | save (place : Nat) (state : GraphState) (persisted : Bool)
  | finish (place : Nat)
  | createRetry (place : Nat) (create : CreateCall) (attach : AttachCall)
  | saveRetry (place : Nat)
  | saveSync (place : Nat) (calls : SyncCalls)
  /-- The worker dies; the task is delivered again. -/
  | die (place : Nat)

/-- Whether the node may do this; the graph does not come to it with a letter that is not to be
registered. -/
def nodeAllows (task : ErpTask) (letter : ErpLetter) (call : NodeCall) : Bool :=
  let number := skipsErp lower settings false letter.mailbox letter.recipients.to_.items
    letter.recipients.cc.items letter.recipients.routingRecipient.toOption
  match call with
  | .notReached => !task.humanApproved
  | .skipped given => decide (number = some given)
  | .made _ _ => decide (number = none)

def pick (place : Nat) (running : List ErpJob) : Option (ErpJob × List ErpJob) :=
  running[place]?.map fun job => (job, running.eraseIdx place)

/-- What a worker does with a job in an event, when it can: the row, how many documents it adds, the
tasks it asks for and the job that it goes on with. -/
structure Effect where
  row : Option ErpRow
  documents : Nat := 0
  asks : List ErpTask := []
  job : Option ErpJob := none

def advance (row : Option ErpRow) :
    ErpEvent → ErpJob → Option Effect
  | .raise _ again, .graph task _ =>
    -- only the tasks with `self.retry` are run again
    if again ∧ (task = .process ∨ task = .retry false ∨ task = .retry true) then none
    else some { row := raisedRow row task again, asks := if again then [task] else [] }
  | .node _ call, .graph task letter =>
    if nodeAllows lower settings task letter call then
      some { row := row
             documents := if call.creates then 1 else 0
             job := some (.called task letter call) }
    else none
  | .save _ state persisted, .called task letter call =>
    if state.mailbox = letter.mailbox then
      some { row := if persisted then
               some (upsertFromState row state (call.patch task.humanApproved)) else row
             job := some (.saved task state call) }
    else none
  | .finish _, .saved task state call =>
    some { row := finishRow row task state call
           asks := if schedulesRetry task call then [.retry false] else [] }
  | .createRetry _ create attach, .creating force =>
    some { row := row
           documents := if create.creates then 1 else 0
           job := some (.created force create attach) }
  | .saveRetry _, .created _ create attach =>
    match row with
    | none => some { row := none }
    | some row =>
      let attempt := retryCreated settings row create attach
      some { row := some attempt.row, asks := if attempt.scheduled then [.retry false] else [] }
  | .saveSync _ calls, .syncing force =>
    match row with
    | none => some { row := none }
    | some row =>
      match syncExisting force row calls with
      | none => some { row := some row }
      | some attempt => some { row := some attempt.row }
  | .die _, job => some { row := row, asks := [job.task] }
  | _, _ => none

def ErpEvent.place : ErpEvent → Nat
  | .enqueue _ => 0
  | .start place _ _ | .raise place _ | .node place _ | .save place _ _ | .finish place
  | .createRetry place _ _ | .saveRetry place | .saveSync place _ | .die place => place

/-- What happens; nothing when the event cannot occur. -/
def ErpSystem.step (letter : ErpLetter) (system : ErpSystem) (event : ErpEvent) :
    Option ErpSystem :=
  match event with
  | .enqueue task => some { system with queue := system.queue ++ [task] }
  | .start place read persisted =>
    match system.queue[place]? with
    | none => none
    | some task =>
      let (row, job) := startTask lower settings letter system.row read persisted task
      some { system with
        row := row
        queue := system.queue.eraseIdx place
        running := job.toList ++ system.running }
  | event =>
    match pick event.place system.running with
    | none => none
    | some (job, others) =>
      (advance lower settings system.row event job).map fun effect =>
        { row := effect.row
          documents := system.documents + effect.documents
          queue := system.queue ++ effect.asks
          running := effect.job.toList ++ others }

/-- The states that runs reach whose events all meet a condition on the state before them. -/
inductive ErpSystem.Reaches (lower : String → String) (settings : ErpSettings) (letter : ErpLetter)
    (condition : ErpSystem → ErpEvent → Prop) : ErpSystem → Prop where
  | start : Reaches lower settings letter condition { row := none }
  | step {system system' : ErpSystem} {event : ErpEvent}
      (before : Reaches lower settings letter condition system) (met : condition system event)
      (does : system.step lower settings letter event = some system') :
      Reaches lower settings letter condition system'

end AgentBack.Mail
