import AgentBack.Mail.Filters
import AgentBack.Mail.Intake
import AgentBack.Supply.Records

/-!
# The hand-off to 1C (`nodes/n7_create_erp_task.py`, `db/repository.py`, `services/erp_sync.py`)

A document of 1C is created by the node of the graph or by the retry task, and the row keeps its
number and its key. What 1C answers is given to the functions as outcomes.
-/

namespace AgentBack.Mail

open Supply (isGiven givenOr)
open Text (strip)

/-- An entry of `erp_attachments`. -/
structure ErpAttachment where
  filename : String
  extension : String
  deriving DecidableEq

/-- What the work with 1C reads of a stored payload. -/
structure ErpPayload where
  recipients : Payload
  xmlDocument : Option String
  erpAttachments : List ErpAttachment
  deriving DecidableEq

/-- `EmailMessageRow`, as far as the work with 1C reads and writes it. -/
structure ErpRow where
  status : ProcessingStatus
  humanReview : Bool
  mailbox : String
  departmentId : Option String
  summaryRu : Option String
  erpDocumentNumber : Option String
  erpTaskId : Option String
  erpRetryCount : Nat
  payload : Option ErpPayload
  deriving DecidableEq

structure ErpSettings where
  erpRetryMax : Int := 5
  /-- `agent_mode == "dry_run"`. -/
  dryRun : Bool := false

/-! ## The document of a row (`services/erp_attachments.py`) -/

def skipErpDocumentNumbers : List String := ["SKIP-ERP", "DRY-RUN"]

def isRealErpTaskId (taskId : Option String) : Bool :=
  let text := strip (taskId.getD "")
  if text = "" ∨ text ∈ skipErpDocumentNumbers then false
  else !"TASK-STUB-".toList.isPrefixOf text.toList

def existingErpDocumentRefKey (row : ErpRow) : Option String :=
  let ref := strip (row.erpTaskId.getD "")
  if isRealErpTaskId (some ref) then some ref else none

inductive RetryMode where
  | create
  | syncExisting
  deriving DecidableEq

def resolveRetryErpMode (row : ErpRow) : RetryMode :=
  let docNumber := strip (row.erpDocumentNumber.getD "")
  if existingErpDocumentRefKey row = none ∨ docNumber = "" ∨ docNumber ∈ skipErpDocumentNumbers then
    .create
  else .syncExisting

/-- `extract_xml_document_from_row`. -/
def extractXmlDocument (row : ErpRow) : Option String :=
  match row.payload.bind (·.xmlDocument) with
  | none => none
  | some xml => if strip xml = "" then none else some (strip xml)

/-- `merge_erp_attachment_lists`. -/
def mergeErpAttachments (existing new : List ErpAttachment) : List ErpAttachment :=
  (Dict.ofList (((existing ++ new).map fun item => (strip item.filename, item)).filter
    fun item => item.1 ≠ "")).values

/-- `_merge_attachment_meta_into_payload`, of the attachments. -/
def mergeAttachmentMeta (payload : Option ErpPayload) (attached : List ErpAttachment) :
    Option ErpPayload :=
  if attached = [] then payload
  else payload.map fun payload =>
    { payload with erpAttachments := mergeErpAttachments payload.erpAttachments attached }

/-- What becomes of `create_incoming_correspondence`: an answer, or an exception, before or after the
document was created. -/
inductive CreateCall where
  | answered (number taskId documentId : Option String)
  | failed (created : Bool)
  deriving DecidableEq

/-- What becomes of `attach_email_files_to_document`: the files, or the text of an exception. -/
inductive AttachCall where
  | files (attached : List ErpAttachment)
  | failed (text : String)
  deriving DecidableEq

/-- Whether a document exists after the call that did not before. -/
def CreateCall.creates : CreateCall → Bool
  | .answered _ _ _ => true
  | .failed created => created

/-- `attach_error`, when it is true for Python. -/
def attachError (documentId : Option String) (attach : AttachCall) : Option String :=
  if isGiven documentId then
    match attach with
    | .files [] =>
      some "Не удалось прикрепить письмо к документу 1С (нет файлов для загрузки)"
    | .files (_ :: _) => none
    | .failed text => if text = "" then none else some text
  else none

def attachedFiles (documentId : Option String) (attach : AttachCall) : List ErpAttachment :=
  match attach with
  | .files attached => if isGiven documentId then attached else []
  | .failed _ => []

/-! ## The node of the graph -/

/-- `ErpTaskResult`, without the text of the error. -/
structure ErpTaskResult where
  success : Bool
  erpDocumentNumber : Option String
  erpTaskId : Option String
  deriving DecidableEq

/-- What the node adds to the state of the graph. -/
structure ErpPatch where
  erp : ErpTaskResult
  status : Option ProcessingStatus := none
  humanReview : Option Bool := none
  erpAttachments : List ErpAttachment := []
  erpRetryScheduled : Bool := false
  deriving DecidableEq

/-- The number that the node gives without a call of 1C, when it makes none. -/
def skipsErp (lower : String → String) (settings : ErpSettings) (skip : Bool) (mailbox : String)
    (to_ cc : List String) (routingRecipient : Option String) : Option String :=
  if skip then some "SKIP-ERP"
  else if !emailEligibleForErp lower mailbox
      (emailInfoFilterPayload lower mailbox to_ cc routingRecipient) then some "SKIP-ERP"
  else if settings.dryRun then some "DRY-RUN"
  else none

def skippedPatch (number : String) : ErpPatch :=
  { erp := { success := true, erpDocumentNumber := some number, erpTaskId := none } }

/-- The patch of a node that could not hand the letter over: a letter that an operator approved goes
on without review. -/
def failedPatch (humanApproved : Bool) (number taskId : Option String) : ErpPatch :=
  { erp := { success := false, erpDocumentNumber := number, erpTaskId := taskId }
    status := if humanApproved then none else some .error
    humanReview := some (!humanApproved)
    erpRetryScheduled := true }

/-- `node_create_erp_task`, from the call of 1C on. -/
def createdPatch (humanApproved : Bool) (create : CreateCall) (attach : AttachCall) : ErpPatch :=
  match create with
  | .failed _ => failedPatch humanApproved none none
  | .answered number taskId documentId =>
    match attachError documentId attach with
    | some _ => failedPatch humanApproved number (givenOr taskId documentId)
    | none =>
      { erp :=
          { success := true
            erpDocumentNumber := number
            erpTaskId := givenOr taskId documentId }
        erpAttachments := attachedFiles documentId attach }

/-- What the other nodes of the graph leave for the row: the payload of the letter, the XML, the
department, the summary, and the status and review that stand when no node of 1C sets them. -/
structure GraphState where
  mailbox : String
  recipients : Payload
  xmlDocument : Option String
  departmentId : Option String
  summaryRu : Option String
  status : ProcessingStatus := .processing
  humanReview : Bool := false
  deriving DecidableEq

/-- A field that a new value replaces when it is true for Python. -/
def orOld (new old : Option String) : Option String := if isGiven new then new else old

/-- `upsert_from_state`: the row of a letter after the last node of the graph. -/
def upsertFromState (row : Option ErpRow) (state : GraphState) (patch : Option ErpPatch) : ErpRow :=
  let status := (patch.bind (·.status)).getD state.status
  { status := if status = .processing then .done else status
    humanReview := (patch.bind (·.humanReview)).getD state.humanReview
    mailbox := state.mailbox
    departmentId := orOld state.departmentId (row.bind (·.departmentId))
    summaryRu := orOld state.summaryRu (row.bind (·.summaryRu))
    erpDocumentNumber :=
      orOld (patch.bind (·.erp.erpDocumentNumber)) (row.bind (·.erpDocumentNumber))
    erpTaskId := orOld (patch.bind (·.erp.erpTaskId)) (row.bind (·.erpTaskId))
    erpRetryCount :=
      if patch.any (·.erp.success) then 0 else (row.map (·.erpRetryCount)).getD 0
    payload := some
      { recipients := state.recipients
        xmlDocument := state.xmlDocument
        erpAttachments := (patch.map (·.erpAttachments)).getD [] } }

/-! ## The retry task (`workers/tasks.py`) -/

/-- What a run of `retry_erp_task` answers. -/
structure RetryResult where
  ok : Bool
  reason : Option String := none
  deriving DecidableEq

/-- How far `retry_erp_task` comes before it calls 1C. -/
inductive RetryStart where
  | finished (row : ErpRow) (result : RetryResult)
  /-- There is no summary yet: the rest of the graph runs. -/
  | pipeline (payload : ErpPayload)
  | syncExisting
  | create (row : ErpRow)
  deriving DecidableEq

def escalate (row : ErpRow) : ErpRow := { row with status := .error, humanReview := true }

/-- `retry_erp_task`, up to its calls. -/
def retryStart (lower : String → String) (settings : ErpSettings) (row : ErpRow) : RetryStart :=
  if settings.erpRetryMax ≤ row.erpRetryCount then
    .finished (escalate row) { ok := false, reason := some "max_retries_exceeded" }
  else
    match row.payload with
    | none => .finished row { ok := false, reason := some "incomplete_record" }
    | some payload =>
      if !isGiven row.departmentId then
        .finished row { ok := false, reason := some "incomplete_record" }
      else if !emailEligibleForErp lower row.mailbox payload.recipients then
        .finished row { ok := true, reason := some "not_info_mailbox" }
      else if !isGiven row.summaryRu then .pipeline payload
      else
        match resolveRetryErpMode row with
        | .syncExisting => .syncExisting
        | .create =>
          match extractXmlDocument row with
          | none =>
            .finished (escalate row) { ok := false, reason := some "missing_xml_document" }
          | some _ => .create { row with erpRetryCount := row.erpRetryCount + 1 }

/-- What an attempt to create leaves: the row, what the task answers, and whether the next attempt
is scheduled. -/
structure Attempt where
  row : ErpRow
  result : RetryResult
  scheduled : Bool := false

/-- The exception handler of `retry_erp_task`. -/
def retryFailed (settings : ErpSettings) (row : ErpRow) : Attempt :=
  if row.erpRetryCount < settings.erpRetryMax then
    { row := row, result := { ok := false }, scheduled := true }
  else { row := escalate row, result := { ok := false } }

/-- `retry_erp_task`, after its call of 1C. -/
def retryCreated (settings : ErpSettings) (row : ErpRow) (create : CreateCall)
    (attach : AttachCall) : Attempt :=
  match create with
  | .failed _ => retryFailed settings row
  | .answered number taskId documentId =>
    match attachError documentId attach with
    | some _ =>
      { row :=
          { row with erpDocumentNumber := number, erpTaskId := givenOr taskId documentId }
        result := { ok := false, reason := some "attach_failed" }
        scheduled := decide (row.erpRetryCount < settings.erpRetryMax) }
    | none =>
      { row :=
          { row with
            erpDocumentNumber := number
            erpTaskId := givenOr taskId documentId
            status := .done
            humanReview := false
            erpRetryCount := 0
            payload := mergeAttachmentMeta row.payload (attachedFiles documentId attach) }
        result := { ok := true } }

/-- What becomes of the calls of `sync_existing_erp_document`: the update of the fields (none when
the integration cannot), the list of the old files, the missing files, and the text of an exception
when the old ones are deleted. -/
structure SyncCalls where
  update : Option (Except String Bool)
  oldFiles : Except String (List String)
  attach : Except String (List ErpAttachment)
  cleanupError : Option String

/-- `uploaded_erp_attachment_filenames`. -/
def uploadedNames (attached : List ErpAttachment) : List String :=
  attached.flatMap fun item =>
    let name := strip item.filename
    let extension := String.ofList ((strip item.extension).toList.dropWhile (· = '.'))
    if name = "" then []
    else if extension ≠ "" ∧ '.' ∉ name.toList then [name, name ++ "." ++ extension]
    else [name]

def updateErrors (summary : Option String) (xml : Option String) (calls : SyncCalls) :
    List String × Bool :=
  match calls.update with
  | none => ([], false)
  | some update =>
    if xml = none then (["missing_xml_document"], false)
    else if strip (summary.getD "") = "" then (["missing_summary_ru"], false)
    else
      match update with
      | .ok updated => ([], updated)
      | .error text => (["update: " ++ text], false)

/-- `sync_existing_erp_document` and `_persist_erp_sync_result`: no answer when the list of the old
files cannot be read, an exception that nothing catches. With `force` the files are uploaded again
and those in the payload are forgotten. -/
def syncExisting (force : Bool) (row : ErpRow) (calls : SyncCalls) : Option Attempt :=
  let (updateErrs, updated) := updateErrors row.summaryRu (extractXmlDocument row) calls
  let stored := ((row.payload.map (·.erpAttachments)).getD [])
  let skip := if force then [] else uploadedNames stored
  let oldFiles := if force then calls.oldFiles else .ok []
  match oldFiles with
  | .error _ => none
  | .ok oldFiles =>
    let (attachErrs, attached) :=
      match calls.attach with
      | .error text => (["attach: " ++ text], [])
      | .ok attached =>
        if force ∧ oldFiles ≠ [] ∧ attached ≠ [] then
          ((calls.cleanupError.map ("cleanup: " ++ ·)).toList, attached)
        else ([], attached)
    let errors := updateErrs ++ attachErrs
    let ok := updated || !attached.isEmpty || (errors.isEmpty && skip.isEmpty)
    let cleared := if force then row.payload.map fun payload => { payload with erpAttachments := [] }
      else row.payload
    some
      { row := { row with payload := mergeAttachmentMeta cleared attached, humanReview := false }
        result := { ok := ok, reason := if ok then none else errors.head? } }

end AgentBack.Mail

/-!
# Chains of retries (`agent_pochta/workers/tasks.py`)

A run of the retry task may schedule the next one. The state of a chain is the row, the runs that are
scheduled, and what the runs so far did.
-/

namespace AgentBack.Mail

/-- A text of a JSON object, when there is one. -/
def JsonField.toOption {α : Type} : JsonField α → Option α
  | .value a => some a
  | _ => none

/-- What the nodes before 1C leave when the graph goes on after a review. -/
structure PipelineRun where
  summary : String
  xmlDocument : Option String

/-- What becomes of the calls of one run of the retry task; no pipeline means that one of its nodes
ends in an exception. -/
structure RetryCalls where
  force : Bool := false
  create : CreateCall
  attach : AttachCall
  sync : SyncCalls
  pipeline : Option PipelineRun

/-- What one run of the retry task leaves; no result means that it ends in an exception. -/
structure RetryRun where
  row : ErpRow
  result : Option RetryResult
  scheduled : Bool := false
  creates : Nat := 0

/-- The run did not hand the letter over. -/
def RetryRun.failed (run : RetryRun) : Bool := run.result.all fun result => !result.ok

/-- The number that the node gives in a pipeline that makes no call. -/
def pipelineSkips (lower : String → String) (settings : ErpSettings) (row : ErpRow)
    (payload : ErpPayload) : Option String :=
  skipsErp lower settings false row.mailbox payload.recipients.to_.items payload.recipients.cc.items
    payload.recipients.routingRecipient.toOption

/-- `continue_after_human_approval` on a row without summary, to its last node. -/
def runPipeline (lower : String → String) (settings : ErpSettings) (row : ErpRow)
    (payload : ErpPayload) (run : PipelineRun) (create : CreateCall) (attach : AttachCall) :
    RetryRun :=
  let skips := pipelineSkips lower settings row payload
  let patch :=
    match skips with
    | some number => skippedPatch number
    | none => createdPatch true create attach
  { row := upsertFromState (some row)
      { mailbox := row.mailbox
        recipients := payload.recipients
        xmlDocument := run.xmlDocument
        departmentId := row.departmentId
        summaryRu := some run.summary }
      (some patch)
    result := some
      { ok := patch.erp.success
        reason := if patch.erp.success then none else some "summary_or_erp_failed" }
    creates := if skips = none then 1 else 0 }

/-- `retry_erp_task`, on a row that exists. -/
def retryErp (lower : String → String) (settings : ErpSettings) (row : ErpRow) (calls : RetryCalls) :
    RetryRun :=
  match retryStart lower settings row with
  | .finished row result => { row := row, result := some result }
  | .pipeline payload =>
    match calls.pipeline with
    | none => { row := row, result := none }
    | some run => runPipeline lower settings row payload run calls.create calls.attach
  | .syncExisting =>
    match syncExisting calls.force row calls.sync with
    | none => { row := row, result := none }
    | some attempt => { row := attempt.row, result := some attempt.result }
  | .create row =>
    let attempt := retryCreated settings row calls.create calls.attach
    { row := attempt.row
      result := some attempt.result
      scheduled := attempt.scheduled
      creates := 1 }

/-- The chains of a row: what is scheduled, the calls that create, and how the last run ended. -/
structure RetryChain where
  row : ErpRow
  pending : Nat
  creates : Nat := 0
  lastFailed : Bool := false
  lastScheduled : Bool := false

/-- One of the scheduled runs takes place. -/
def RetryChain.next (chain : RetryChain) (run : RetryRun) : RetryChain :=
  { row := run.row
    pending := chain.pending - 1 + (if run.scheduled then 1 else 0)
    creates := chain.creates + run.creates
    lastFailed := run.failed
    lastScheduled := run.scheduled }

/-- What the chains of a row reach when each of their runs meets a condition. -/
inductive RetryChain.Reaches (lower : String → String) (settings : ErpSettings)
    (condition : ErpRow → RetryCalls → Prop) : RetryChain → Prop where
  | start (row : ErpRow) (pending : Nat) :
      Reaches lower settings condition { row := row, pending := pending }
  | step {chain : RetryChain} {calls : RetryCalls}
      (before : Reaches lower settings condition chain) (scheduled : 0 < chain.pending)
      (met : condition chain.row calls) :
      Reaches lower settings condition (chain.next (retryErp lower settings chain.row calls))

end AgentBack.Mail
