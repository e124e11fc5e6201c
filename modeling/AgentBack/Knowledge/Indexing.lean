import AgentBack.Base.SortBy
import AgentBack.Knowledge.Search

/-!
# Indexing a knowledge base (`services/knowledge_base_indexing_service.py`)

A job indexes the sources of a knowledge base one after the other: it parses the document again where
its fragments are of an older chunking, deletes the points of the source from the vector index, makes
the rows of its fragments, computes the embeddings, writes the new points and marks what is indexed.
The tables are kept twice: as the session of the job sees them, and as they were committed last. The
vector index has no transactions. The decisions of a user about sources and fragments
(`services/knowledge_base_service.py`) are the other operations.

What the parsers make of a document, which call fails, and after how many of its looks at the flag a
job sees that it is cancelled are parameters.
-/

namespace AgentBack.Knowledge

open Py (Value strOf)

/-! ## The rows -/

/-- `KnowledgeBaseSourceStatus`. -/
inductive SourceStatus where
  | draft
  | processing
  | needsReview
  | ready
  | updating
  | error
  | archived
  | excluded
  | needsOcr
  | readyToIndex
  deriving DecidableEq

def skipStatuses : List SourceStatus := [.archived, .excluded]

/-- A row of `knowledge_base_sources`. -/
structure Source where
  id : Nat
  knowledgeBaseId : Nat
  documentId : Nat
  documentVersionId : Nat
  processingStatus : SourceStatus := .draft
  deriving DecidableEq

/-- A row of `document_versions`. -/
structure DocumentVersion where
  id : Nat
  isCurrent : Bool := true
  isIndexed : Bool := false
  /-- `text_extract_status` of the version and of its document is `EXTRACTED`. -/
  isExtracted : Bool := true
  deriving DecidableEq

structure Tables where
  search : SearchDb
  sources : List Source
  versions : List DocumentVersion
  nextId : Nat

/-- A point of the vector index, whose id is that of the row of its fragment. -/
structure Point where
  id : Nat
  knowledgeBaseId : Nat
  sourceId : Nat
  chunkId : Nat
  isActive : Bool
  deriving DecidableEq

/-- The tables as the session sees them and as they were committed, the vector index, and how often
the job still sees that it is not cancelled. -/
structure World where
  session : Tables
  saved : Tables
  points : List Point
  polls : Option Nat := none

namespace Tables

variable (tables : Tables)

def mapRows (f : KbChunk → KbChunk) : Tables :=
  { tables with search := { tables.search with kbChunks := tables.search.kbChunks.map f } }

def mapChunks (f : DocumentChunk → DocumentChunk) : Tables :=
  { tables with search := { tables.search with documentChunks := tables.search.documentChunks.map f } }

def mapSources (f : Source → Source) : Tables := { tables with sources := tables.sources.map f }

/-- `source.processing_status = status`. -/
def setStatus (sourceId : Nat) (status : SourceStatus) : Tables :=
  tables.mapSources fun source =>
    if source.id = sourceId then { source with processingStatus := status } else source

/-- The sources that a cancelled or aborted job leaves in work can be indexed again. -/
def restoreSources (knowledgeBaseId : Nat) : Tables :=
  tables.mapSources fun source =>
    if source.knowledgeBaseId = knowledgeBaseId ∧ source.processingStatus = .processing then
      { source with processingStatus := .readyToIndex }
    else source

def source? (knowledgeBaseId sourceId : Nat) : Option Source :=
  tables.sources.find? fun source => source.id = sourceId && source.knowledgeBaseId = knowledgeBaseId

def excludeSource (knowledgeBaseId sourceId : Nat) : Tables :=
  if (tables.source? knowledgeBaseId sourceId).isSome then tables.setStatus sourceId .excluded
  else tables

/-- `remove_source`, whose rows are deleted with it. -/
def removeSource (knowledgeBaseId sourceId : Nat) : Tables :=
  if (tables.source? knowledgeBaseId sourceId).isSome then
    { tables with
      sources := tables.sources.filter fun source => source.id ≠ sourceId
      search :=
        { tables.search with
          kbChunks := tables.search.kbChunks.filter fun row => row.sourceId ≠ sourceId } }
  else tables

def kbChunk? (knowledgeBaseId kbChunkId : Nat) : Option KbChunk :=
  tables.search.kbChunks.find? fun row => row.id = kbChunkId && row.knowledgeBaseId = knowledgeBaseId

/-- `exclude_chunk`, which also restores one. -/
def excludeChunk (knowledgeBaseId kbChunkId : Nat) (isExcluded : Bool) : Tables :=
  if (tables.kbChunk? knowledgeBaseId kbChunkId).isSome then
    tables.mapRows fun row =>
      if row.id = kbChunkId then { row with isExcludedFromSearch := isExcluded } else row
  else tables

def loadDocumentChunks (documentVersionId : Nat) : List DocumentChunk :=
  (sortBy DocumentChunk.chunkIndex (tables.search.documentChunks.filter fun chunk =>
    chunk.documentVersionId = documentVersionId)).filter fun chunk =>
      (chunk.text.any fun text => text ≠ "") || decide (chunk.content ≠ "")

/-- `replace_chunks` of the chunking service: the rows of the old fragments are deleted with them. -/
def replaceChunks (documentVersionId : Nat) (parts : List DocumentChunk) : Tables :=
  { tables with
    search :=
      { tables.search with
        documentChunks :=
          (tables.search.documentChunks.filter fun chunk =>
            chunk.documentVersionId ≠ documentVersionId) ++
          parts.mapIdx fun index part =>
            { part with
              id := tables.nextId + index
              documentVersionId := documentVersionId
              chunkIndex := index
              isIndexed := false }
        kbChunks := tables.search.kbChunks.filter fun row =>
          !(tables.search.documentChunks.any fun chunk =>
            chunk.documentVersionId = documentVersionId && chunk.id = row.documentChunkId) }
    nextId := tables.nextId + parts.length }

end Tables

def chunkingVersion : Rat := 7

/-- A fragment of another version of the chunking (the loop body of `_chunks_outdated`). -/
def DocumentChunk.isOutdated (chunk : DocumentChunk) : Bool :=
  match ((((chunkMetadata chunk).getD Dict.empty).get? "chunking").getD .null).get "version" with
  | .num version _ => decide (version ≠ chunkingVersion)
  | _ => true

section Rows

variable (py : Py.Reading)

def chunkQuality (chunk : DocumentChunk) : String :=
  let text := chunkEmbeddingText chunk
  let field := fun key => (((chunkMetadata chunk).getD Dict.empty).get? key).getD .null
  let notes := Value.anyOf [field "quality_notes", field "ocr_quality"]
  if text.isEmpty then "failed"
  else if notes.truthy && (py.lower (strOf py notes) ∈ ["low", "poor", "bad"]) then "low"
  else if text.length < 20 then "low"
  else if (field "ocr_used").truthy then "medium"
  else "good"

/-- `metadata.get("clause") or metadata.get("clause_number")`. -/
def clauseNumber (chunk : DocumentChunk) : Option String :=
  let field := fun key => (((chunkMetadata chunk).getD Dict.empty).get? key).getD .null
  match Value.anyOf [field "clause", field "clause_number"] with
  | .str clause => some clause
  | _ => none

/-- The row of a fragment in a knowledge base (`_load_kb_chunks`). -/
def Tables.rowOfChunk (tables : Tables) (knowledgeBaseId chunkId : Nat) : Option KbChunk :=
  tables.search.kbChunks.find? fun row =>
    row.knowledgeBaseId = knowledgeBaseId && row.documentChunkId = chunkId

/-- The loop body that makes the row of a fragment, or takes the one there is. -/
def Tables.writeRow (source : Source) (tables : Tables) (chunk : DocumentChunk) : Tables :=
  if (tables.rowOfChunk source.knowledgeBaseId chunk.id).isSome then
    tables.mapRows fun row =>
      if row.knowledgeBaseId = source.knowledgeBaseId ∧ row.documentChunkId = chunk.id then
        { row with
          isExcludedFromSearch := false
          embeddingStatus := "pending"
          qualityStatus := chunkQuality py chunk }
      else row
  else
    { tables with
      search :=
        { tables.search with
          kbChunks := tables.search.kbChunks ++
            [{ id := tables.nextId
               knowledgeBaseId := source.knowledgeBaseId
               sourceId := source.id
               documentChunkId := chunk.id
               clauseNumber := clauseNumber chunk
               qualityStatus := chunkQuality py chunk }] }
      nextId := tables.nextId + 1 }

/-- The loop over the fragments of a source. -/
def Tables.writeRows (source : Source) (tables : Tables) : Tables :=
  (tables.loadDocumentChunks source.documentVersionId).foldl (Tables.writeRow py source) tables

end Rows

def Tables.pointOf (tables : Tables) (source : Source) (chunk : DocumentChunk) : Option Point :=
  let isCurrent := tables.versions.any fun version =>
    version.id = source.documentVersionId && version.isCurrent
  (tables.rowOfChunk source.knowledgeBaseId chunk.id).bind fun row =>
    if row.isExcludedFromSearch then none
    else some
      { id := row.id
        knowledgeBaseId := source.knowledgeBaseId
        sourceId := source.id
        chunkId := chunk.id
        isActive := isCurrent && !row.isExcludedFromSearch }

/-- The points of `_index_loaded_source`. -/
def Tables.pointsOf (tables : Tables) (source : Source) : List Point :=
  (tables.loadDocumentChunks source.documentVersionId).filterMap (tables.pointOf source)

/-- `delete_by_filter` with the knowledge base and the source. -/
def deletePoints (source : Source) (points : List Point) : List Point :=
  points.filter fun point =>
    !(point.knowledgeBaseId = source.knowledgeBaseId && point.sourceId = source.id)

/-- `upsert_points`: a point takes the place of the one that has its id. -/
def upsertPoints (new points : List Point) : List Point :=
  (points.filter fun point => !(new.any fun other => other.id = point.id)) ++ new

/-- The rows and the fragments of a source are marked when its points are written. -/
def Tables.markChunks (source : Source) (tables : Tables) : Tables :=
  let ids := (tables.loadDocumentChunks source.documentVersionId).map (·.id)
  (tables.mapRows fun row =>
    if row.knowledgeBaseId = source.knowledgeBaseId ∧ row.documentChunkId ∈ ids then
      { row with embeddingStatus := "indexed" }
    else row).mapChunks fun chunk =>
      if chunk.id ∈ ids then { chunk with isIndexed := true } else chunk

/-- The source is ready and its version marked. -/
def Tables.finish (source : Source) (tables : Tables) : Tables :=
  let tables := tables.setStatus source.id .ready
  { tables with
    versions := tables.versions.map fun version =>
      if version.id = source.documentVersionId then { version with isIndexed := true } else version }

inductive ParseEnd where
  | done
  | raised
  | timedOut
  deriving DecidableEq

/-- What a parser does: it may have replaced the fragments, also when it fails after that. -/
structure Parse where
  replaced : Option (List DocumentChunk) := none
  ending : ParseEnd := .raised

/-- The first call of `_index_loaded_source` that fails, with whether the vector index took it all the
same. -/
inductive Fault where
  | deletion (applied : Bool)
  | rows
  | embeddings
  | upsert (applied : Bool)
  | fulltext
  | classification
  deriving DecidableEq

structure Attempt where
  parse : Parse := {}
  fault : Option Fault := none

/-- `PrecheckResult`. -/
structure Precheck where
  passed : Bool := true
  needsOcr : Bool := false

structure Job where
  cancelledAfter : Option Nat := none
  precheck : Nat → Precheck := fun _ => {}
  attempt : Nat → Attempt
  /-- What comes after the sources fails: the quality control, or the last commit. -/
  endFails : Bool := false

/-! ## The session -/

/-- How a part of a job ends: it goes on, it raises an error that the loop over the sources catches, or
the session is of no use any more, and everything up to the worker raises. After a rollback it is not:
the attributes of all objects are expired, and reading one outside an `await` raises. -/
inductive Ended where
  | returned
  | raised
  | broken
  deriving DecidableEq

abbrev Action := World → World × Ended

/-- One part after the other, as long as they return. -/
def Action.seq : List Action → Action
  | [], world => (world, .returned)
  | action :: rest, world =>
    match action world with
    | (world, .returned) => Action.seq rest world
    | stopped => stopped

namespace World

variable (world : World)

def edit (f : Tables → Tables) : World := { world with session := f world.session }

def commit : World := { world with saved := world.session }

/-- The ids that were given are not given again. -/
def rollback : World :=
  { world with session := { world.saved with nextId := world.session.nextId } }

/-- `_is_job_cancelled`. -/
def poll : World × Bool :=
  match world.polls with
  | none => (world, false)
  | some 0 => (world, true)
  | some (polls + 1) => ({ world with polls := some polls }, false)

def commitCheckpoint : World × Ended :=
  match world.poll with
  | (world, true) => (world.rollback, .broken)
  | (world, false) => (world.commit, .returned)

/-- `_update_job_progress`, with whether the job goes on. -/
def updateJobProgress : World × Ended × Bool :=
  match world.poll with
  | (world, true) => (world, .returned, false)
  | (world, false) =>
    match world.commitCheckpoint with
    | (world, .returned) => (world.poll.1, .returned, !world.poll.2)
    | (world, ended) => (world, ended, false)

/-- `_abort_if_cancelled` (a forced cancellation restores the sources in a session of its own). -/
def abortIfCancelled (knowledgeBaseId : Nat) : World × Bool :=
  match world.poll with
  | (world, true) => (world.edit fun tables => tables.restoreSources knowledgeBaseId, true)
  | (world, false) => (world, false)

end World

/-! ## One source -/

section Service

variable (py : Py.Reading)

def saveProgress : Action := fun world =>
  match world.updateJobProgress with
  | (world, ended, _) => (world, ended)

variable (source : Source)

def ensureSourceDocumentProcessed (parse : Parse) : Action := fun world =>
  let existing := world.session.loadDocumentChunks source.documentVersionId
  if !existing.isEmpty && !(existing.any DocumentChunk.isOutdated) then (world, .returned)
  else
    let isExtracted := world.session.versions.any fun version =>
      version.id = source.documentVersionId && version.isExtracted
    Action.seq
      [fun world => if !isExtracted || existing.isEmpty then saveProgress world else (world, .returned),
       fun world =>
        let world := match parse.replaced with
          | none => world
          | some parts => world.edit fun tables =>
            tables.replaceChunks source.documentVersionId parts
        match parse.ending with
        | .done => (world, .returned)
        | .timedOut => (world, .raised)
        | .raised => if existing.isEmpty then (world, .raised) else (world, .returned)]
      world

/-- A call of the vector index that changes its points, unless it fails. -/
def changePoints (failed : Option Bool) (f : World → List Point) : Action := fun world =>
  match failed with
  | none => ({ world with points := f world }, .returned)
  | some applied => (if applied then { world with points := f world } else world, .raised)

/-- The document and the version are there, and the source is in work. -/
def openSource : Action := fun world =>
  if (world.session.search.access.documents.any fun document => document.id = source.documentId) &&
      (world.session.versions.any fun version => version.id = source.documentVersionId) then
    (world.edit fun tables => tables.setStatus source.id .processing, .returned)
  else (world, .raised)

def requireChunks : Action := fun world =>
  (world,
    if (world.session.loadDocumentChunks source.documentVersionId).isEmpty then .raised else .returned)

variable (attempt : Attempt)

def Attempt.deletionFails : Option Bool :=
  match attempt.fault with
  | some (.deletion applied) => some applied
  | _ => none

def Attempt.upsertFails : Option Bool :=
  match attempt.fault with
  | some (.upsert applied) => some applied
  | _ => none

def deleteOldPoints : Action :=
  changePoints attempt.deletionFails fun world => deletePoints source world.points

/-- The rows; a statement that the database refuses leaves the transaction of no use. -/
def makeRows : Action := fun world =>
  (world.edit fun tables => tables.writeRows py source,
    if attempt.fault = some .rows then .broken else .returned)

def embedTexts : Action := fun world =>
  (world, if attempt.fault = some .embeddings then .raised else .returned)

def writePoints : Action :=
  changePoints attempt.upsertFails fun world =>
    upsertPoints (world.session.pointsOf source) world.points

def markIndexed : Action := fun world =>
  (world.edit fun tables => tables.markChunks source,
    if attempt.fault = some .fulltext then .broken else .returned)

def finishSource : Action := fun world =>
  (world.edit fun tables => tables.finish source,
    if attempt.fault = some .classification then .raised else .returned)

/-- `_index_loaded_source` until it has the fragments. -/
def prepareSource : List Action :=
  [openSource source, saveProgress, ensureSourceDocumentProcessed source attempt.parse,
    requireChunks source, saveProgress]

/-- `_index_loaded_source` from there on. -/
def writeSource : List Action :=
  [deleteOldPoints source attempt, makeRows py source attempt, embedTexts attempt,
    writePoints source attempt, markIndexed source attempt, saveProgress,
    finishSource source attempt]

def indexLoadedSource : Action :=
  Action.seq (prepareSource source attempt ++ writeSource py source attempt)

/-- `_mark_job_running`, the second look at the flag, the checkpoint and the third look; the last
component says whether the job goes on. -/
def startJob (knowledgeBaseId : Nat) (world : World) : World × Ended × Bool :=
  match world.abortIfCancelled knowledgeBaseId with
  | (world, true) => (world, .returned, false)
  | (world, false) =>
    match world.poll with
    | (world, true) => (world, .returned, false)
    | (world, false) =>
      match world.commitCheckpoint with
      | (world, .returned) =>
        match world.poll with
        | (world, true) => (world, .returned, false)
        | (world, false) =>
          match world.commitCheckpoint with
          | (world, .returned) =>
            match world.abortIfCancelled knowledgeBaseId with
            | (world, cancelled) => (world, .returned, !cancelled)
          | (world, ended) => (world, ended, false)
      | (world, ended) => (world, ended, false)

/-- The loop of `precheck_all_sources`, with the sources that passed. -/
def precheckAllSources (knowledgeBaseId : Nat) (job : Job) :
    List Source → World → List Source → World × Ended × List Source
  | [], world, eligible => (world, .returned, eligible)
  | source :: rest, world, eligible =>
    match world.abortIfCancelled knowledgeBaseId with
    | (world, true) => (world, .returned, eligible)
    | (world, false) =>
      let answer := job.precheck source.id
      let world :=
        if !answer.passed then world.edit fun tables => tables.setStatus source.id .error
        else if !answer.needsOcr then
          world.edit fun tables => tables.setStatus source.id .readyToIndex
        else world
      match world.updateJobProgress with
      | (world, .returned, _) =>
        precheckAllSources knowledgeBaseId job rest world
          (if answer.passed then eligible ++ [source] else eligible)
      | (world, ended, _) => (world, ended, eligible)

/-- The loop over the sources, which catches the error of one. -/
def indexSources (knowledgeBaseId : Nat) (job : Job) : List Source → Action
  | [], world => (world, .returned)
  | source :: rest, world =>
    match world.abortIfCancelled knowledgeBaseId with
    | (world, true) => (world, .returned)
    | (world, false) =>
      match indexLoadedSource py source (job.attempt source.id) world with
      | (world, .broken) => (world, .broken)
      | (world, .raised) =>
        indexSources knowledgeBaseId job rest
          (world.edit fun tables => tables.setStatus source.id .error)
      | (world, .returned) =>
        match world.updateJobProgress with
        | (world, .returned, true) => indexSources knowledgeBaseId job rest world
        | (world, ended, _) => (world, ended)

def indexKnowledgeBase (knowledgeBaseId : Nat) (job : Job) : Action := fun world =>
  match startJob knowledgeBaseId world with
  | (world, .returned, true) =>
    let sources := world.session.sources.filter fun source =>
      source.knowledgeBaseId = knowledgeBaseId && source.processingStatus ∉ skipStatuses
    match precheckAllSources knowledgeBaseId job sources world [] with
    | (world, .returned, eligible) =>
      match world.abortIfCancelled knowledgeBaseId with
      | (world, true) => (world, .returned)
      | (world, false) =>
        match world.updateJobProgress with
        | (world, .returned, true) => indexSources py knowledgeBaseId job eligible world
        | (world, ended, _) => (world, ended)
    | (world, ended, _) => (world, ended)
  | (world, ended, _) => (world, ended)

def indexSource (knowledgeBaseId sourceId : Nat) (job : Job) : Action := fun world =>
  match world.session.source? knowledgeBaseId sourceId with
  | none => (world, .raised)
  | some source =>
    match startJob knowledgeBaseId world with
    | (world, .returned, true) =>
      if !(job.precheck sourceId).passed then
        (world.edit fun tables => tables.setStatus sourceId .error, .raised)
      else
        match world.abortIfCancelled knowledgeBaseId with
        | (world, true) => (world, .returned)
        | (world, false) => indexLoadedSource py source (job.attempt sourceId) world
    | (world, ended, _) => (world, ended)

/-- What the worker does: it commits what a job has done, or takes it back, and then restores the
sources in another session, unless the job was cancelled. -/
def World.runJob (knowledgeBaseId : Nat) (job : Job) (run : Action) (world : World) : World :=
  match run { world.rollback with polls := job.cancelledAfter } with
  | (world, .returned) => if job.endFails then abort world else world.commit
  | (world, _) => abort world
where
  abort (world : World) : World :=
    let world := world.rollback
    match world.poll with
    | (world, true) => world
    | (world, false) => (world.edit fun tables => tables.restoreSources knowledgeBaseId).commit

end Service

end AgentBack.Knowledge
