import AgentBack.Knowledge.Access

/-!
# Requests to change a normative document (`services/nd_change_service.py`)

A request is led from the detection of its document over the place of the change and the draft to
the approval. Its operations run in sessions of the database: what a session has done is committed or
rolled back as a whole, and an operation that raises rolls it back. The files of a draft lie in an
object storage, which has no part in this.

What an operation takes from other services is an argument of its call: the documents that are found
with their scores, the places that are located, and what becomes of the edit. Audit and journal
records, which nothing reads back here, are left out.
-/

namespace AgentBack.NdChange

open Py (Value)
open Knowledge (User KnowledgeBase canAccessKnowledgeBase)

/-- `NdChangeRequestStatus`. -/
inductive RequestStatus where
  | draft
  | submitted
  | detectingDocument
  | requiresManualDocumentSelection
  | documentSelected
  | locatingChangePlace
  | requiresManualLocationSelection
  | applyingChanges
  | readyForUserReview
  | sentToApproval
  | approved
  | rejected
  | completed
  | failed
  deriving DecidableEq

/-- `NdChangeApprovalStatus`. -/
inductive ApprovalStatus where
  | draft
  | sent
  | approved
  | rejected
  | completed
  deriving DecidableEq

/-- `NdChangeResultStatus`. -/
inductive ResultStatus where
  | draft
  | readyForUserReview
  | sentToApproval
  | failed
  deriving DecidableEq

/-- `NdChangeLocationStatus`. -/
inductive LocationStatus where
  | found
  | candidate
  | ambiguous
  | notFound
  | confirmed
  deriving DecidableEq

/-! ## The rows -/

/-- `NdChangeCandidateDocument`. -/
structure CandidateDocument where
  documentId : Nat
  documentVersionId : Option Nat
  score : Rat
  rank : Nat
  isSelected : Bool

/-- `NdChangeTargetLocation`. -/
structure TargetLocation where
  id : Nat
  documentId : Nat
  currentText : Option String
  confidence : Option Rat
  status : LocationStatus

/-- `NdChangeOperation`. -/
structure ChangeOperation where
  targetLocationId : Option Nat
  oldText : Option String
  newText : Option String
  requiresManualReview : Bool

/-- `NdChangeDraftFile`. -/
structure DraftFile where
  documentId : Nat
  sourceDocumentVersionId : Option Nat
  draftObjectName : String
  fileType : String
  hasWarnings : Bool

/-- `NdChangeApprovalParticipant`. -/
structure ApprovalParticipant where
  userId : Nat
  approvalOrder : Nat
  status : ApprovalStatus

/-- `NdChangeApprovalRoute`. -/
structure ApprovalRoute where
  status : ApprovalStatus
  createdByUserId : Nat
  participants : List ApprovalParticipant

/-- `NdChangeResult`. -/
structure ChangeResult where
  status : ResultStatus
  confidence : Option Rat
  selectedDocumentId : Nat
  warnings : List String

/-- `NdChangeRequest` with its children, as a session has it in memory. A dictionary that is changed
in place is the value that the row was loaded with, so that the session sees no change to write:
`metadataRow` is what the row holds. -/
structure ChangeRequest where
  id : Nat
  number : String
  reason : String
  changeText : String
  status : RequestStatus
  selectedDocumentId : Option Nat
  selectedDocumentVersionId : Option Nat
  detectionConfidence : Option Rat
  requiresManualDocumentSelection : Bool
  requiresManualLocationSelection : Bool
  metadata : Option (Dict String Value)
  metadataRow : Option (Dict String Value)
  candidates : List CandidateDocument
  targetLocations : List TargetLocation
  operations : List ChangeOperation
  draftFiles : List DraftFile
  approvalRoutes : List ApprovalRoute
  results : List ChangeResult

/-- What the access to documents rests on while an operation runs. -/
structure Access where
  db : Knowledge.Db
  now : Knowledge.Moment
  /-- `knowledge_base_sources` with the knowledge base of each. -/
  sources : List (KnowledgeBase × Nat)

def accessibleDocuments (access : Access) (user : User) : List Nat :=
  ((access.sources.filter fun source =>
    source.1.status = .ready &&
      (canAccessKnowledgeBase access.db access.now user source.1
        { requiredAccess := .search, allowNonReadyForAdmin := false }).allowed).map
    Prod.snd).eraseDups

/-- `_ensure_document_access` does not raise. -/
def hasDocumentAccess (access : Access) (user : User) (documentId : Nat) : Bool :=
  user.isSuperuser || decide (documentId ∈ accessibleDocuments access user)

/-- A document that `_build_candidates` finds. -/
structure FoundDocument where
  documentId : Nat
  documentVersionId : Option Nat
  score : Rat

/-- A place that `locate_change_place` finds. -/
structure LocatedChange where
  id : Nat
  documentId : Nat
  currentText : Option String
  confidence : Rat

/-- A file that the edit has put into the storage. -/
structure GeneratedArtifact where
  objectName : String
  warnings : List String

structure EditResult where
  draftFile : GeneratedArtifact
  noticeFile : GeneratedArtifact
  diff : List (String × String)
  warnings : List String

/-- What becomes of the edit: it raises before it has put the draft into the storage, or the draft is
there and something after it raises, or all goes well. -/
inductive EditOutcome where
  | raises
  | breaksOff
  | done (result : EditResult)

/-! ## The operations -/

/-- `NdChangeCreate`. -/
structure NewRequest where
  number : String
  reason : String
  changeText : String
  assumedDocumentId : Option Nat
  assumedDocumentCode : Value
  attachments : Value
  distributionList : Value
  initiatorComment : Value
  metadata : Dict String Value

def create (id : Nat) (payload : NewRequest) : ChangeRequest :=
  let metadata := ((((payload.metadata.set "assumed_document_code" payload.assumedDocumentCode).set
    "attachments" payload.attachments).set
    "distribution_list" payload.distributionList).set
    "initiator_comment" payload.initiatorComment).set
    "user_reviewed" (.bool false)
  { id
    number := payload.number
    reason := payload.reason
    changeText := payload.changeText
    status := .draft
    selectedDocumentId := payload.assumedDocumentId
    selectedDocumentVersionId := none
    detectionConfidence := none
    requiresManualDocumentSelection := false
    requiresManualLocationSelection := false
    metadata := some metadata
    metadataRow := some metadata
    candidates := []
    targetLocations := []
    operations := []
    draftFiles := []
    approvalRoutes := []
    results := [] }

variable (request : ChangeRequest)

/-- `metadata = request.metadata_ or {}`, a write of `user_reviewed`, and `request.metadata_ =
metadata`: a dictionary that is not empty is changed in place. -/
def ChangeRequest.setReviewed (reviewed : Bool) : ChangeRequest :=
  let fresh : Dict String Value := Dict.empty.set "user_reviewed" (.bool reviewed)
  match request.metadata with
  | none => { request with metadata := some fresh, metadataRow := some fresh }
  | some metadata =>
    if metadata.items.isEmpty then { request with metadata := some fresh, metadataRow := some fresh }
    else { request with metadata := some (metadata.set "user_reviewed" (.bool reviewed)) }

/-- `metadata.get("user_reviewed")` is true. -/
def ChangeRequest.userReviewed : Bool :=
  ((request.metadata.bind fun metadata => metadata.get? "user_reviewed").getD .null).truthy

def selectDocument (access : Access) (user : User) (documentId : Nat)
    (documentVersionId : Option Nat) (request : ChangeRequest) : Option ChangeRequest :=
  if !hasDocumentAccess access user documentId then none
  else
    let candidates := request.candidates.map fun candidate =>
      { candidate with isSelected := candidate.documentId = documentId }
    some
      { request with
        selectedDocumentId := some documentId
        selectedDocumentVersionId := documentVersionId
        requiresManualDocumentSelection := false
        status := .documentSelected
        candidates
        detectionConfidence := candidates.foldl (fun confidence candidate =>
          if candidate.isSelected then some candidate.score else confidence)
          request.detectionConfidence }

def detectDocument (access : Access) (user : User) (found : List FoundDocument)
    (request : ChangeRequest) : Option ChangeRequest :=
  if request.reason = "" ∨ request.changeText = "" then none
  else
    let candidates := found.mapIdx fun index item =>
      CandidateDocument.mk item.documentId item.documentVersionId item.score (index + 1) false
    let detecting :=
      { request with
        status := .detectingDocument
        candidates
        detectionConfidence := some ((candidates.head?.map (·.score)).getD 0)
        requiresManualDocumentSelection := false }
    let manual :=
      { detecting with
        status := .requiresManualDocumentSelection
        requiresManualDocumentSelection := true }
    match candidates.head? with
    | none => some manual
    | some top =>
      if (8 / 10 : Rat) ≤ top.score then
        selectDocument access user top.documentId top.documentVersionId detecting
      else some manual

/-- `find_location`; `located` is `none` where the search raises. -/
def findLocation (access : Access) (user : User) (located : Option (List LocatedChange))
    (request : ChangeRequest) : Option ChangeRequest :=
  match request.selectedDocumentId with
  | none => none
  | some documentId =>
    if !hasDocumentAccess access user documentId then none
    else
      located.map fun places =>
        let targetLocations : List TargetLocation := places.map fun location =>
          TargetLocation.mk location.id location.documentId location.currentText
            (some location.confidence)
            (if (8 / 10 : Rat) ≤ location.confidence then .found else .candidate)
        let high := targetLocations.filter fun location =>
          decide ((8 / 10 : Rat) ≤ location.confidence.getD 0)
        { request with
          targetLocations
          requiresManualLocationSelection := decide (high.length ≠ 1)
          status :=
            if high.length = 1 then .locatingChangePlace else .requiresManualLocationSelection }

def selectLocation (locations : List TargetLocation) : Option Nat → Option TargetLocation
  | some locationId => locations.find? fun location => location.id = locationId
  | none =>
    match locations.filter fun location => decide ((8 / 10 : Rat) ≤ location.confidence.getD 0) with
    | [location] => some location
    | _ =>
      match locations with
      | [location] => some location
      | _ => none

def addArtifact (documentId : Nat) (artifact : GeneratedArtifact) (fileType : String) : DraftFile :=
  { documentId
    sourceDocumentVersionId := request.selectedDocumentVersionId
    draftObjectName := artifact.objectName
    fileType
    hasWarnings := !artifact.warnings.isEmpty }

def addOperation (location : Option TargetLocation) (editResult : EditResult) : ChangeOperation :=
  { targetLocationId := location.map (·.id)
    oldText := editResult.diff.head?.map Prod.fst
    newText := some ((editResult.diff.head?.map Prod.snd).getD request.changeText)
    requiresManualReview := !editResult.warnings.isEmpty }

/-- `apply_changes`, and whether it has put a draft into the storage. -/
def applyChanges (access : Access) (user : User) (locationId : Option Nat)
    (markUserReviewed : Bool) (edit : EditOutcome) (request : ChangeRequest) :
    Bool × Option ChangeRequest :=
  match request.selectedDocumentId with
  | none => (false, none)
  | some documentId =>
    if access.db.documents.all fun document => document.id ≠ documentId then (false, none)
    else if !hasDocumentAccess access user documentId then (false, none)
    else
      match edit with
      | .raises => (false, none)
      | .breaksOff => (true, none)
      | .done editResult =>
        let location := selectLocation request.targetLocations locationId
        let applied :=
          { request with
            draftFiles := request.draftFiles ++
              [addArtifact request documentId editResult.draftFile "draft",
                addArtifact request documentId editResult.noticeFile "notice"]
            operations := request.operations ++ [addOperation request location editResult]
            results := request.results ++
              [ChangeResult.mk .readyForUserReview request.detectionConfidence documentId
                editResult.warnings]
            status := .readyForUserReview }
        (true, some (applied.setReviewed markUserReviewed))

def sendToApproval (user : User) (approvalUserIds : List Nat) (request : ChangeRequest) :
    Option ChangeRequest :=
  if request.status ≠ .readyForUserReview ∨ request.draftFiles.isEmpty then none
  else if !request.userReviewed then none
  else
    let participants := approvalUserIds.mapIdx fun index userId =>
      ApprovalParticipant.mk userId (index + 1) .sent
    some
      { request with
        approvalRoutes := request.approvalRoutes ++ [⟨.sent, user.id, participants⟩]
        status := .sentToApproval
        results := request.results.map fun result => { result with status := .sentToApproval } }

/-! ## The sessions -/

/-- The operations on a request, with what other services answer. -/
inductive Operation where
  | detectDocument (found : List FoundDocument)
  | selectDocument (documentId : Nat) (documentVersionId : Option Nat)
  | findLocation (located : Option (List LocatedChange))
  | applyChanges (locationId : Option Nat) (markUserReviewed : Bool) (edit : EditOutcome)
  | markUserReviewed
  | sendToApproval (approvalUserIds : List Nat)

structure Call where
  user : User
  access : Access
  operation : Operation

/-- What a call leaves of the request, without a value where it raises, and whether it has put a
draft into the storage. -/
def Call.run (call : Call) (request : ChangeRequest) : Bool × Option ChangeRequest :=
  match call.operation with
  | .detectDocument found => (false, NdChange.detectDocument call.access call.user found request)
  | .selectDocument documentId versionId =>
    (false, NdChange.selectDocument call.access call.user documentId versionId request)
  | .findLocation located => (false, NdChange.findLocation call.access call.user located request)
  | .applyChanges locationId mark edit =>
    NdChange.applyChanges call.access call.user locationId mark edit request
  | .markUserReviewed => (false, some (request.setReviewed true))
  | .sendToApproval approvalUserIds =>
    (false, NdChange.sendToApproval call.user approvalUserIds request)

/-- The request as it was last committed, the request as the session has it, and how often a draft
was put into the storage under the name of the request. -/
structure World where
  stored : ChangeRequest
  loaded : ChangeRequest
  draftsWritten : Nat

inductive Event where
  | call (call : Call)
  | commit
  | rollback

def ChangeRequest.reload : ChangeRequest :=
  { request with metadata := request.metadataRow }

/-- One event: a call that raises rolls the session back. -/
def World.step (world : World) : Event → World
  | .call call =>
    let (written, outcome) := call.run world.loaded
    let draftsWritten := if written then world.draftsWritten + 1 else world.draftsWritten
    match outcome with
    | some request => { world with loaded := request, draftsWritten }
    | none => { world with loaded := world.stored, draftsWritten }
  | .commit => { world with stored := world.loaded.reload, loaded := world.loaded.reload }
  | .rollback => { world with loaded := world.stored }

def World.created (id : Nat) (payload : NewRequest) : World :=
  ⟨create id payload, create id payload, 0⟩

end AgentBack.NdChange
