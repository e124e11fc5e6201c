import AgentBack.Base.PyValue

/-!
# Jobs of the drawing check (`integration/document_service.py`, `integration/job_service.py`)

Other systems hand over cards of documents and get a job for each. A card is merged into the row of
its document; jobs that were made for another content of it are marked as stale.

Whether the statement that marks the jobs of other contents can be built is a parameter: it calls
`join` on an `update`, and where the library has no such method the call raises after the document
has been committed. The exchange log is left out.
-/

namespace AgentBack.Eskd

open Py (Value)

structure IntegrationDocument where
  id : Nat
  externalDocumentId : String
  sourceSystem : String
  designation : Option String
  documentType : Option String
  name : Option String
  revision : Option String
  sheetCount : Option Int
  author : Option String
  department : Option String
  productId : Option String
  checksum : Option String
  files : List Value
  relatedDocuments : List Value
  routeStatus : Option String
  submittedAt : Option Int
  metadataExtra : List (String × Value)

structure IntegrationJob where
  id : Nat
  requestId : String
  documentId : Nat
  sourceSystem : String
  status : String
  rulesetVersion : String
  submittedBy : Option String
  resultStatus : Option String := none
  resultPayload : Option Value := none
  criticalCount : Int := 0
  majorCount : Int := 0
  minorCount : Int := 0
  blocksWorkflow : Bool := false
  checkRunId : Option Nat := none
  errorMessage : Option String := none
  isStale : Bool := false
  completedAt : Option Int := none

/-- `UnifiedDocumentCard`. -/
structure DocumentCard where
  documentId : String
  sourceSystem : String := "manual"
  designation : Option String := none
  documentType : Option String := none
  name : Option String := none
  revision : Option String := none
  sheetCount : Option Int := none
  author : Option String := none
  department : Option String := none
  productId : Option String := none
  files : List Value := []
  relatedDocuments : List Value := []
  status : Option String := none
  checksum : Option String := none
  submittedAt : Option Int := none
  metadataExtra : List (String × Value) := []

/-- The rows. Ids count the rows that have been added. -/
structure World where
  documents : List IntegrationDocument := []
  jobs : List IntegrationJob := []

/-! ## Documents -/

def given (text : Option String) : Bool := text.any fun s => s ≠ ""

/-- `new or old` of texts. -/
def orText (new old : Option String) : Option String := if given new then new else old

/-- The assignments of `upsert` to a row that exists. -/
def DocumentCard.update (card : DocumentCard) (existing : IntegrationDocument) :
    IntegrationDocument :=
  { existing with
    designation := orText card.designation existing.designation
    documentType := orText card.documentType existing.documentType
    name := orText card.name existing.name
    sheetCount := if card.sheetCount.any (· ≠ 0) then card.sheetCount else existing.sheetCount
    author := orText card.author existing.author
    department := orText card.department existing.department
    productId := orText card.productId existing.productId
    checksum := orText card.checksum existing.checksum
    files := if card.files.isEmpty then existing.files else card.files
    relatedDocuments :=
      if card.relatedDocuments.isEmpty then existing.relatedDocuments else card.relatedDocuments
    routeStatus := orText card.status existing.routeStatus
    submittedAt := card.submittedAt <|> existing.submittedAt
    metadataExtra :=
      if card.metadataExtra.isEmpty then existing.metadataExtra else card.metadataExtra }

/-- The row of `upsert` for a document that does not exist. -/
def DocumentCard.row (card : DocumentCard) (now : Int) (id : Nat) : IntegrationDocument :=
  { id
    externalDocumentId := card.documentId
    sourceSystem := card.sourceSystem
    designation := card.designation
    documentType := card.documentType
    name := card.name
    revision := if given card.revision then card.revision else none
    sheetCount := card.sheetCount
    author := card.author
    department := card.department
    productId := card.productId
    checksum := card.checksum
    files := card.files
    relatedDocuments := card.relatedDocuments
    routeStatus := card.status
    submittedAt := some (card.submittedAt.getD now)
    metadataExtra := card.metadataExtra }

def World.markStale (world : World) (test : IntegrationJob → Bool) : World :=
  { world with
    jobs := world.jobs.map fun job => if test job then { job with isStale := true } else job }

def invalidateJobsForDocument (documentId : Nat) (world : World) : World :=
  world.markStale fun job => job.documentId = documentId && !job.isStale

/-- The query of `upsert`: `revision` is the empty text for a card without one, and a row without a
revision has no value that is equal to it. -/
def findDocument (world : World) (card : DocumentCard) : Option IntegrationDocument :=
  world.documents.find? fun row =>
    row.sourceSystem = card.sourceSystem && row.externalDocumentId = card.documentId &&
      row.revision = some (card.revision.getD "")

def upsert (now : Int) (card : DocumentCard) (world : World) : World × IntegrationDocument :=
  match findDocument world card with
  | some existing =>
    let world :=
      if given card.checksum && given existing.checksum && card.checksum ≠ existing.checksum then
        invalidateJobsForDocument existing.id world
      else world
    let row := card.update existing
    ({ world with
       documents := world.documents.map fun other => if other.id = existing.id then row else other },
      row)
  | none =>
    let row := card.row now world.documents.length
    ({ world with documents := world.documents ++ [row] }, row)

/-! ## Jobs -/

/-- `IntegrationDocument.checksum != doc.checksum` for a checksum that is given; a missing one is
not different from it. -/
def otherChecksum (row document : IntegrationDocument) : Bool :=
  row.checksum.any fun checksum => decide (some checksum ≠ document.checksum)

/-- The update of `_invalidate_other_checksum_jobs`. -/
def invalidateOtherChecksumJobs (document : IntegrationDocument) (world : World) : World :=
  if !given document.checksum then world
  else
    world.markStale fun job =>
      !job.isStale && world.documents.any fun row =>
        row.id = job.documentId && row.sourceSystem = document.sourceSystem &&
          row.externalDocumentId = document.externalDocumentId && otherChecksum row document

def rulesetVersion : String := "ESKD-2026.04"

/-- The arguments of `create_or_get`. -/
structure Submission where
  requestId : String
  card : DocumentCard
  submittedBy : Option String := none
  rulesetVersion : Option String := none

/-- `create_or_get`: the job and whether it is new, without a value where the call raises. -/
def createOrGet (joins : Bool) (now : Int) (submission : Submission) (world : World) :
    World × Option (IntegrationJob × Bool) :=
  match world.jobs.find? fun job => job.requestId = submission.requestId with
  | some existing => (world, some (existing, false))
  | none =>
    let (world, document) := upsert now submission.card world
    if given submission.card.checksum && !joins then (world, none)
    else
      let world :=
        if given submission.card.checksum then invalidateOtherChecksumJobs document world else world
      let job : IntegrationJob :=
        { id := world.jobs.length
          requestId := submission.requestId
          documentId := document.id
          sourceSystem := submission.card.sourceSystem
          status := "accepted"
          rulesetVersion :=
            if given submission.rulesetVersion then submission.rulesetVersion.getD ""
            else Eskd.rulesetVersion
          submittedBy := submission.submittedBy }
      ({ world with jobs := world.jobs ++ [job] }, some (job, true))

def IntegrationJob.setStatus (status : String) (job : IntegrationJob) : IntegrationJob :=
  { job with status }

structure CheckResult where
  resultPayload : Value
  resultStatus : String
  critical : Int
  major : Int
  minor : Int
  checkRunId : Option Nat := none

def CheckResult.status (result : CheckResult) : String :=
  if result.critical ≠ 0 ∨ result.major ≠ 0 ∨ result.minor ≠ 0 then "completed_with_remarks"
  else "completed"

def IntegrationJob.complete (now : Int) (result : CheckResult) (job : IntegrationJob) :
    IntegrationJob :=
  { job with
    status := result.status
    resultStatus := some result.resultStatus
    resultPayload := some result.resultPayload
    criticalCount := result.critical
    majorCount := result.major
    minorCount := result.minor
    blocksWorkflow := decide (0 < result.critical)
    checkRunId := result.checkRunId
    completedAt := some now }

def IntegrationJob.fail (now : Int) (message : String) (job : IntegrationJob) : IntegrationJob :=
  { job with status := "error", errorMessage := some message, completedAt := some now }

def IntegrationJob.cancel (now : Int) (job : IntegrationJob) : IntegrationJob :=
  { job with status := "cancelled", completedAt := some now }

/-- What happens to a job. A check (`run_cached`, `persist_ai_result`) is two of these with other calls
between them: the job is set to running, and it is completed with what has been found. -/
inductive JobEvent where
  | setStatus (status : String)
  | complete (result : CheckResult)
  | fail (message : String)
  | cancel

def JobEvent.apply (now : Int) : JobEvent → IntegrationJob → IntegrationJob
  | .setStatus status => IntegrationJob.setStatus status
  | .complete result => IntegrationJob.complete now result
  | .fail message => IntegrationJob.fail now message
  | .cancel => IntegrationJob.cancel now

inductive Call where
  | submit (submission : Submission)
  | job (jobId : Nat) (event : JobEvent)

def World.step (joins : Bool) (world : World) : Int × Call → World
  | (now, .submit submission) => (createOrGet joins now submission world).1
  | (now, .job jobId event) =>
    { world with
      jobs := world.jobs.map fun job => if job.id = jobId then event.apply now job else job }

end AgentBack.Eskd
