import AgentBack.Knowledge.Access

/-!
# Search in a knowledge base (`services/knowledge_base_search_service.py`)

The retriever returns hits of the index; `_attach_chunks` (`knowledge_base/retriever.py`) puts the text
of their fragments into the payloads. The search drops what is excluded or has no row, asks the access
service about each of the others, and makes the hits of the response. The preview is an answer of the
language model to the snippets of the first hits, or the first of the snippets that is prose.

The hits of the index, the answer of the model, the letters of Unicode and the reading of ids are
parameters.
-/

namespace AgentBack.Knowledge

open Py (Value)

/-- A row of `knowledge_base_chunks`. -/
structure KbChunk where
  id : Nat
  knowledgeBaseId : Nat
  sourceId : Nat
  documentChunkId : Nat
  isExcludedFromSearch : Bool := false
  clauseNumber : Option String := none
  qualityStatus : String := "unknown"
  embeddingStatus : String := "pending"

/-- A row of `document_chunks`. -/
structure DocumentChunk where
  id : Nat
  documentId : Option Nat
  documentVersionId : Nat
  text : Option String
  pageNumber : Option Int := none
  sectionTitle : Option String := none
  metadata : Option (Dict String Value)
  content : String
  chunkMetadata : Option (Dict String Value)
  chunkIndex : Nat := 0
  isIndexed : Bool := false

structure SearchDb where
  access : Db
  kbChunks : List KbChunk
  documentChunks : List DocumentChunk

structure RawHit where
  id : Value
  score : Rat
  payload : Dict String Value
  hybridScore : Option Rat := none
  vectorScore : Option Rat := none
  ftsScore : Option Rat := none

structure SearchEnv where
  py : Py.Reading
  /-- `uuid.UUID(str(value))`, without a value where it raises. -/
  uuid : Value → Option Nat
  /-- `str.isalpha` of a character. -/
  isAlpha : Char → Bool
  /-- `_generate_grounded_answer`. -/
  groundedAnswer : String → List String → Option String
  /-- `KB_SEARCH_MIN_SCORE`. -/
  minScore : Rat
  now : Moment

/-- `chunk.text or chunk.content or ""`, stripped. -/
def chunkEmbeddingText (chunk : DocumentChunk) : String :=
  Text.strip (match chunk.text with
    | some text => if text ≠ "" then text else chunk.content
    | none => chunk.content)

/-- `chunk.content or chunk.text or ""`, stripped. -/
def chunkDisplayText (chunk : DocumentChunk) : String :=
  Text.strip (if chunk.content ≠ "" then chunk.content else chunk.text.getD "")

def chunkMetadata (chunk : DocumentChunk) : Option (Dict String Value) :=
  match chunk.metadata with
  | some metadata => if metadata.items.isEmpty then chunk.chunkMetadata else some metadata
  | none => chunk.chunkMetadata

/-- `{**base, **more}`. -/
def merged (base more : Dict String Value) : Dict String Value :=
  more.items.foldl (fun dict item => dict.set item.1 item.2) base

def RawHit.chunkId (hit : RawHit) : Value := (hit.payload.get? "chunk_id").getD .null

variable (env : SearchEnv)

variable (db : SearchDb)

def RawHit.attached (hit : RawHit) : Option DocumentChunk :=
  if hit.chunkId.truthy then
    (env.uuid hit.chunkId).bind fun id => db.documentChunks.find? fun chunk => chunk.id = id
  else none

/-- The loop body of `_attach_chunks`. -/
def RawHit.enrich (hit : RawHit) : RawHit :=
  match hit.attached env db with
  | none => hit
  | some chunk =>
    let content := if chunk.content ≠ "" then Value.str chunk.content
      else (chunk.text.map Value.str).getD .null
    let metadata := ((chunkMetadata chunk).map fun fields => Value.dict fields.items).getD .null
    { hit with payload := (hit.payload.set "content" content).set "metadata" metadata }

/-- `_attach_chunks`, without a value where it raises: an id that cannot be read is passed over when
the ids are collected, and not when the payloads are made. -/
def attachChunks (hits : List RawHit) : Option (List RawHit) :=
  let chunkIds := hits.filterMap fun hit =>
    if hit.chunkId.truthy then env.uuid hit.chunkId else none
  if chunkIds.isEmpty then some hits
  else if hits.any fun hit => hit.chunkId.truthy && (env.uuid hit.chunkId).isNone then none
  else some (hits.map (RawHit.enrich env db))

/-! ## The hits -/

/-- `KnowledgeBaseSearchHit`. -/
structure SearchHit where
  content : String
  score : Rat
  accessible : Bool
  accessReason : String
  knowledgeBaseId : Nat
  knowledgeBaseChunkId : Nat
  documentId : Option Nat
  documentVersionId : Nat
  chunkId : Nat
  documentTitle : Value
  pageNumber : Option Int
  sectionTitle : Option String
  clauseNumber : Option String
  metadata : Dict String Value

/-- `KnowledgeBaseTestSearchResponse`. -/
structure SearchResponse where
  hits : List SearchHit
  answerPreview : Option String

/-- The arguments of `search`. -/
structure SearchRequest where
  knowledgeBase : KnowledgeBase
  query : String
  user : User
  topK : Int := 5
  agentId : Option Nat := none
  includeInaccessible : Bool := false
  testMode : Bool := false
  viewer : Option User := none

variable (request : SearchRequest)

def SearchRequest.normalizedTopK : Nat := (max 1 (min request.topK 50)).toNat

def relevanceScore (hit : RawHit) : Rat :=
  match hit.vectorScore, hit.ftsScore with
  | some score, _ => max 0 (min 1 score)
  | none, some score => max 0 (min 1 score)
  | none, none =>
    match hit.hybridScore with
    | some score => if score ≠ 0 then score else hit.score
    | none => hit.score

def safeUuid (value : Value) : Option Nat :=
  if value.truthy then env.uuid value else none

/-- The row of `_load_rows` of a hit. -/
def rowOf (hit : RawHit) :
    Option (KbChunk × DocumentChunk × Option Document) :=
  let id := safeUuid env
    (Value.anyOf [(hit.payload.get? "knowledge_base_chunk_id").getD .null, hit.id])
  id.bind fun id =>
    (db.kbChunks.find? fun kbChunk => kbChunk.id = id).bind fun kbChunk =>
      (db.documentChunks.find? fun chunk => chunk.id = kbChunk.documentChunkId).map fun chunk =>
        (kbChunk, chunk, chunk.documentId.bind fun documentId =>
          db.access.documents.find? fun document => document.id = documentId)

/-- The access that `search` asks for a fragment. -/
def effectiveAccess (kbChunk : KbChunk) (document : Option Document) : EffectiveAccess :=
  canUseChunk env.py db.access env.now request.user request.knowledgeBase
    kbChunk.isExcludedFromSearch document request.agentId
    (if request.agentId.isSome then .useViaAgent else .search) .searchOnly

def placeholder : String := "(фрагмент недоступен текущему сценарию)"

def makeHit (canViewRestricted : Bool) (hit : RawHit) (kbChunk : KbChunk) (chunk : DocumentChunk)
    (document : Option Document) :
    SearchHit :=
  let effective := effectiveAccess env db request kbChunk document
  let content := chunkDisplayText chunk
  let embeddingText := chunkEmbeddingText chunk
  { content := if effective.allowed || canViewRestricted then content else placeholder
    score := relevanceScore hit
    accessible := effective.allowed
    accessReason := effective.reason
    knowledgeBaseId := request.knowledgeBase.id
    knowledgeBaseChunkId := kbChunk.id
    documentId := (document.map (·.id)) <|> chunk.documentId
    documentVersionId := chunk.documentVersionId
    chunkId := chunk.id
    documentTitle := (document.map fun document => Value.str document.title).getD
      ((hit.payload.get? "document_title").getD .null)
    pageNumber := chunk.pageNumber
    sectionTitle := chunk.sectionTitle
    clauseNumber := kbChunk.clauseNumber
    metadata :=
      ((merged hit.payload ((chunkMetadata chunk).getD Dict.empty)).set
        "quality_status" (.str kbChunk.qualityStatus)).set
        "embedding_text" (if embeddingText ≠ content then .str embeddingText else .null) }

/-- The body of the loop of `search`: a hit, or `continue`. -/
def hitOf (canViewRestricted : Bool) (hit : RawHit) : Option SearchHit :=
  match rowOf env db hit with
  | none => none
  | some (kbChunk, chunk, document) =>
    if kbChunk.isExcludedFromSearch then none
    else if !(effectiveAccess env db request kbChunk document).allowed &&
        !request.includeInaccessible then none
    else if 0 < env.minScore ∧ relevanceScore hit < env.minScore then none
    else some (makeHit env db request canViewRestricted hit kbChunk chunk document)

/-- The loop of `search`, which ends when there are enough hits. -/
def collectHits (env : SearchEnv) (db : SearchDb) (request : SearchRequest)
    (canViewRestricted : Bool) : List RawHit → List SearchHit → List SearchHit
  | [], hits => hits
  | raw :: rest, hits =>
    match hitOf env db request canViewRestricted raw with
    | none => collectHits env db request canViewRestricted rest hits
    | some hit =>
      let hits := hits ++ [hit]
      let enough :=
        if request.includeInaccessible then hits.length
        else (hits.filter fun hit => hit.accessible).length
      if request.normalizedTopK ≤ enough then hits
      else collectHits env db request canViewRestricted rest hits

def isProse (text : String) : Bool :=
  let letters := (text.toList.filter env.isAlpha).length
  !text.isEmpty && decide (40 ≤ letters) && decide (55 * text.length ≤ 100 * letters)

/-- How long the text is up to its last end of a sentence: one of `.!?…` before white space, which
counts, or at the end. -/
def sentenceEnd : List Char → Nat → Nat → Nat
  | [], _, found => found
  | c :: rest, position, found =>
    let isEnd := c ∈ ['.', '!', '?', '…']
    match rest with
    | [] => if isEnd then position + 1 else found
    | next :: _ =>
      sentenceEnd rest (position + 1) (if isEnd && Text.isSpace next then position + 2 else found)

def trimToSentence (text : String) (limit : Nat) : Option String :=
  if text.isEmpty then none
  else if text.length ≤ limit then some text
  else
    let window := text.toList.take limit
    let found := sentenceEnd window 0 0
    if 0 < found then some (Text.strip (String.ofList (window.take found)))
    else
      let head := if ' ' ∈ window then (window.rdropWhile (· ≠ ' ')).dropLast else window
      some (Text.strip (String.ofList head) ++ "…")

/-- The snippets of `_answer_preview`. -/
def contextSnippets (hits : List SearchHit) : List String :=
  (hits.take 4).filterMap fun hit =>
    let embedding := (hit.metadata.get? "embedding_text").getD .null
    let source := match embedding with
      | .str text => if text ≠ "" then text else hit.content
      | _ => hit.content
    let text := Text.collapse source
    if text.isEmpty then none else some (String.ofList (text.toList.take 500))

def answerPreview (query : String) (hits : List SearchHit) : Option String :=
  match contextSnippets hits with
  | [] => none
  | first :: rest =>
    let answer := env.groundedAnswer query (first :: rest)
    if answer.any fun text => text ≠ "" then answer
    else trimToSentence (((first :: rest).find? (isProse env)).getD first) 400

def canViewRestrictedTestHits (viewer : User) (knowledgeBase : KnowledgeBase) : Bool :=
  viewer.isSuperuser ||
    (knowledgeBase.ownerUserId = some viewer.id || knowledgeBase.responsibleUserId = some viewer.id) ||
    (canAccessKnowledgeBase db.access env.now viewer knowledgeBase
      { requiredAccess := .search, allowNonReadyForAdmin := true }).allowed

def showsRestricted : Bool :=
  request.testMode &&
    canViewRestrictedTestHits env db (request.viewer.getD request.user) request.knowledgeBase

def respond (hits : List SearchHit) : SearchResponse :=
  let accessibleHits := hits.filter fun hit => hit.accessible
  let previewHits :=
    if !request.testMode then accessibleHits
    else hits.filter fun hit => !hit.content.isEmpty && !"(фрагмент".toList.isPrefixOf hit.content.toList
  { hits :=
      if request.includeInaccessible then hits.take request.normalizedTopK
      else accessibleHits.take request.normalizedTopK
    answerPreview := answerPreview env request.query previewHits }

/-- `search` on what the retriever returns before the texts are attached, without a value where it
raises. -/
def search (retrieved : List RawHit) :
    Option SearchResponse :=
  (attachChunks env db retrieved).map fun hits =>
    respond env request
      (collectHits env db request (showsRestricted env db request) hits [])

end AgentBack.Knowledge
