import AgentBack.Base.Guarded
import AgentBack.Laws.Knowledge.Indexing
import AgentBack.Laws.Knowledge.Search
import Mathlib.Data.List.Sigma

/-!
# The vector index and the database

Where a version, its fragments or the rows of a source are marked as indexed, the vector index has one
point for each row of the source that is not excluded, and its points of the source are of rows that are
there. A job deletes the points of a source before it computes the embeddings and writes the new ones,
and no mark is taken away when that fails. `run_agrees` says that the two agree after every run of jobs
whose attempts go through, or end before the points are deleted, or are of a source without marks.
-/

namespace AgentBack.Knowledge

section Law

variable (tables : Tables) (points : List Point) (source : Source)

/-- The version of a source, one of its fragments, or one of the rows is marked as indexed. -/
def Marked : Prop :=
  (∃ version ∈ tables.versions, version.id = source.documentVersionId ∧ version.isIndexed = true) ∨
    (∃ chunk ∈ tables.search.documentChunks, chunk.documentVersionId = source.documentVersionId ∧
      chunk.isIndexed = true) ∨
    ∃ row ∈ tables.search.kbChunks, row.sourceId = source.id ∧ row.embeddingStatus = "indexed"

/-- One point for each row that is not excluded, and no point without its row and fragment. -/
structure Faithful : Prop where
  onePoint : ∀ row ∈ tables.search.kbChunks, row.sourceId = source.id →
    row.isExcludedFromSearch = false → points.countP (fun point => point.id = row.id) = 1
  chunkThere : ∀ point ∈ points, point.knowledgeBaseId = source.knowledgeBaseId →
    point.sourceId = source.id →
      (∃ row ∈ tables.search.kbChunks, row.id = point.id ∧ row.sourceId = source.id) ∧
        ∃ chunk ∈ tables.search.documentChunks, chunk.id = point.chunkId ∧
          chunk.documentVersionId = source.documentVersionId

/-- **The vector index and the database agree**. -/
def Agrees : Prop := ∀ source ∈ tables.sources, Marked tables source → Faithful tables points source

end Law

/-! ## The condition -/

/-- The attempt gets to the points, no call fails before the marks are made, and the job is not first
seen to be cancelled when the checkpoint after that has begun. -/
def GoesThrough (source : Source) (attempt : Attempt) (world : World) : Prop :=
  (Action.seq (prepareSource source attempt) world).2 = .returned ∧
    (attempt.fault = none ∨ attempt.fault = some .classification) ∧
    (Action.seq (prepareSource source attempt) world).1.polls ≠ some 1

/-- Other sources of the version have the points that their rows need, and none where the fragments are
replaced. -/
def OthersReady (source : Source) (attempt : Attempt) (world : World) : Prop :=
  ∀ other ∈ world.session.sources, other.id ≠ source.id →
    other.documentVersionId = source.documentVersionId →
      Faithful world.session world.points other ∧
        (Replaces source attempt world → ∀ point ∈ world.points,
          point.knowledgeBaseId = other.knowledgeBaseId → point.sourceId ≠ other.id)

/-- The attempt ends before the points are deleted, and does not replace fragments. -/
def KeepsPoints (source : Source) (attempt : Attempt) (world : World) : Prop :=
  ¬ Replaces source attempt world ∧
    ((Action.seq (prepareSource source attempt) world).2 = .returned →
      attempt.fault = some (.deletion false))

structure Careful (source : Source) (attempt : Attempt) (world : World) : Prop where
  through : GoesThrough source attempt world → OthersReady source attempt world
  short : ¬ GoesThrough source attempt world → KeepsPoints source attempt world ∨
    (¬ Marked world.session source ∧ ¬ Marked world.saved source)
  classification : attempt.fault = some .classification →
    (Action.seq (prepareSource source attempt) world).1.polls ≠ some 0

inductive JobRun where
  | knowledgeBase (knowledgeBaseId : Nat) (job : Job)
  | source (knowledgeBaseId sourceId : Nat) (job : Job)

def World.step (py : Py.Reading) (world : World) : JobRun → World
  | .knowledgeBase knowledgeBaseId job =>
    world.runJob knowledgeBaseId job (indexKnowledgeBase py knowledgeBaseId job)
  | .source knowledgeBaseId sourceId job =>
    world.runJob knowledgeBaseId job (indexSource py knowledgeBaseId sourceId job)

def World.begun (world : World) (job : Job) : World :=
  { world.rollback with polls := job.cancelledAfter }

/-- The attempts of a job are careful, and a job that was cancelled does not fail at its end. -/
def JobMeets (py : Py.Reading) : JobRun → World → Prop
  | .knowledgeBase knowledgeBaseId job, world =>
    (∀ sources start, loopStart knowledgeBaseId job (world.begun job) = some (sources, start) →
      AttemptsMeet py knowledgeBaseId job Careful sources start) ∧
    (job.endFails = true →
      (indexKnowledgeBase py knowledgeBaseId job (world.begun job)).1.polls ≠ some 0)
  | .source knowledgeBaseId sourceId job, world =>
    (∀ source start,
      attemptStart knowledgeBaseId job sourceId (world.begun job) = some (source, start) →
        Careful source (job.attempt sourceId) start) ∧
    (job.endFails = true →
      (indexSource py knowledgeBaseId sourceId job (world.begun job)).1.polls ≠ some 0)

/-! ## Well-formed tables -/

def Source.key (source : Source) : Nat × Nat × Nat :=
  (source.id, source.knowledgeBaseId, source.documentVersionId)

/-- What a row keeps as long as it is there. -/
def KbChunk.place (row : KbChunk) : Nat × Nat × Nat :=
  (row.sourceId, row.knowledgeBaseId, row.documentChunkId)

/-- The fragment has a text (`_load_document_chunks`). -/
def DocumentChunk.HasText (chunk : DocumentChunk) : Prop :=
  ((chunk.text.any fun text => text ≠ "") || decide (chunk.content ≠ "")) = true

/-- The ids of the sources, and the versions of a knowledge base, are distinct. -/
structure Keyed (keys : List (Nat × Nat × Nat)) : Prop where
  ids : (keys.map Prod.fst).Nodup
  versions : (keys.map Prod.snd).Nodup

/-- What the constraints of the tables and the ids of the points give, below a bound of the ids. -/
structure Formed (keys : List (Nat × Nat × Nat)) (bound : Nat) (tables : Tables)
    (points : List Point) : Prop where
  sources : tables.sources.map Source.key = keys
  chunkIds : (tables.search.documentChunks.map (·.id)).Nodup
  rowIds : (tables.search.kbChunks.map (·.id)).Nodup
  rowChunks :
    (tables.search.kbChunks.map fun row => (row.knowledgeBaseId, row.documentChunkId)).Nodup
  rowSource : ∀ row ∈ tables.search.kbChunks, ∃ key ∈ keys, key.1 = row.sourceId ∧
    key.2.1 = row.knowledgeBaseId ∧ ∃ chunk ∈ tables.search.documentChunks,
      chunk.id = row.documentChunkId ∧ chunk.documentVersionId = key.2.2 ∧ chunk.HasText
  freshChunks : ∀ chunk ∈ tables.search.documentChunks, chunk.id < bound
  freshRows : ∀ row ∈ tables.search.kbChunks, row.id < bound
  freshPoints : ∀ point ∈ points, point.id < bound
  pointIds : (points.map (·.id)).Nodup
  pointRow : ∀ point ∈ points, ∀ row ∈ tables.search.kbChunks, point.id = row.id →
    point.sourceId = row.sourceId ∧ point.knowledgeBaseId = row.knowledgeBaseId ∧
      point.chunkId = row.documentChunkId

theorem mem_loadDocumentChunks {tables : Tables} {documentVersionId : Nat} {chunk : DocumentChunk} :
    chunk ∈ tables.loadDocumentChunks documentVersionId ↔
      chunk ∈ tables.search.documentChunks ∧ chunk.documentVersionId = documentVersionId ∧
        chunk.HasText := by
  unfold Tables.loadDocumentChunks
  rw [List.mem_filter, mem_sortBy, List.mem_filter, decide_eq_true_eq, and_assoc]
  rfl

/-- The ids of the fragments of a source are distinct. -/
theorem nodup_loadDocumentChunks {tables : Tables} (documentVersionId : Nat)
    (h : (tables.search.documentChunks.map (·.id)).Nodup) :
    ((tables.loadDocumentChunks documentVersionId).map (·.id)).Nodup := by
  unfold Tables.loadDocumentChunks
  refine List.Nodup.sublist (List.filter_sublist.map _) ?_
  refine ((perm_sortBy DocumentChunk.chunkIndex _).map _).nodup_iff.mpr ?_
  exact h.sublist (List.filter_sublist.map _)

section Formed

variable {keys : List (Nat × Nat × Nat)} {bound : Nat} {tables : Tables} {points : List Point}

section

variable (h : Formed keys bound tables points)
include h

/-- Ids that are below a bound are below a larger one. -/
theorem Formed.mono {bound' : Nat} (hle : bound ≤ bound') :
    Formed keys bound' tables points :=
  { h with
    freshChunks := fun chunk hchunk => (h.freshChunks chunk hchunk).trans_le hle
    freshRows := fun row hrow => (h.freshRows row hrow).trans_le hle
    freshPoints := fun point hpoint => (h.freshPoints point hpoint).trans_le hle }

theorem Formed.mapSources {f : Source → Source} (hkey : ∀ source, (f source).key = source.key) :
    Formed keys bound (tables.mapSources f) points :=
  { h with
    sources := by
      unfold Tables.mapSources
      rw [List.map_map, ← h.sources]
      exact List.map_congr_left fun source _ => hkey source }

theorem Formed.setStatus (sourceId : Nat) (status : SourceStatus) :
    Formed keys bound (tables.setStatus sourceId status) points :=
  h.mapSources fun source => by split <;> rfl

theorem Formed.restoreSources (knowledgeBaseId : Nat) :
    Formed keys bound (tables.restoreSources knowledgeBaseId) points :=
  h.mapSources fun source => by split <;> rfl

/-- Rows that stand where they stood. -/
theorem Formed.mapRows {f : KbChunk → KbChunk} (hid : ∀ row, (f row).id = row.id)
    (hbase : ∀ row, (f row).knowledgeBaseId = row.knowledgeBaseId)
    (hsource : ∀ row, (f row).sourceId = row.sourceId)
    (hchunk : ∀ row, (f row).documentChunkId = row.documentChunkId) :
    Formed keys bound (tables.mapRows f) points :=
  { h with
    rowIds := by
      unfold Tables.mapRows
      rw [List.map_map]
      exact (List.map_congr_left fun row _ => hid row) ▸ h.rowIds
    rowChunks := by
      unfold Tables.mapRows
      rw [List.map_map]
      refine (List.map_congr_left fun row _ => ?_) ▸ h.rowChunks
      rw [Function.comp_apply, hbase, hchunk]
    rowSource := by
      intro row hrow
      obtain ⟨old, hold, rfl⟩ := List.mem_map.mp hrow
      rw [hsource, hbase, hchunk]
      exact h.rowSource old hold
    freshRows := by
      intro row hrow
      obtain ⟨old, hold, rfl⟩ := List.mem_map.mp hrow
      rw [hid]
      exact h.freshRows old hold
    pointRow := by
      intro point hpoint row hrow
      obtain ⟨old, hold, rfl⟩ := List.mem_map.mp hrow
      rw [hid, hsource, hbase, hchunk]
      exact h.pointRow point hpoint old hold }

/-- Fragments with the same places and texts. -/
theorem Formed.mapChunks {f : DocumentChunk → DocumentChunk}
    (hid : ∀ chunk, (f chunk).id = chunk.id)
    (hversion : ∀ chunk, (f chunk).documentVersionId = chunk.documentVersionId)
    (htext : ∀ chunk, chunk.HasText → (f chunk).HasText) :
    Formed keys bound (tables.mapChunks f) points :=
  { h with
    chunkIds := by
      unfold Tables.mapChunks
      rw [List.map_map]
      exact (List.map_congr_left fun chunk _ => hid chunk) ▸ h.chunkIds
    rowSource := by
      intro row hrow
      obtain ⟨key, hkey, hid', hbase, chunk, hchunk, hsame, hof, hhas⟩ := h.rowSource row hrow
      exact ⟨key, hkey, hid', hbase, f chunk, List.mem_map_of_mem hchunk, (hid chunk).trans hsame,
        (hversion chunk).trans hof, htext chunk hhas⟩
    freshChunks := by
      intro chunk hchunk
      obtain ⟨old, hold, rfl⟩ := List.mem_map.mp hchunk
      rw [hid]
      exact h.freshChunks old hold }

theorem Formed.markChunks (source : Source) :
    Formed keys bound (tables.markChunks source) points := by
  unfold Tables.markChunks
  refine (h.mapRows (fun row => ?_) (fun row => ?_) (fun row => ?_) fun row => ?_).mapChunks
    (fun chunk => ?_) (fun chunk => ?_) fun chunk hhas => ?_
  all_goals split <;> first | rfl | assumption

theorem Formed.finish (source : Source) :
    Formed keys bound (tables.finish source) points :=
  { h.setStatus source.id .ready with }

theorem Formed.chunk_eq {chunk chunk' : DocumentChunk}
    (hchunk : chunk ∈ tables.search.documentChunks)
    (hchunk' : chunk' ∈ tables.search.documentChunks) (hid : chunk.id = chunk'.id) :
    chunk = chunk' :=
  List.inj_on_of_nodup_map h.chunkIds hchunk hchunk' hid

variable (hkeyed : Keyed keys) {source : Source} (hsource : source.key ∈ keys) {row : KbChunk}
  (hrow : row ∈ tables.search.kbChunks)
include hkeyed hsource hrow

theorem Formed.version_of_row (hid : row.sourceId = source.id) :
    row.knowledgeBaseId = source.knowledgeBaseId ∧ ∃ chunk ∈ tables.search.documentChunks,
      chunk.id = row.documentChunkId ∧ chunk.documentVersionId = source.documentVersionId ∧
        chunk.HasText := by
  obtain ⟨key, hkey, hsame, hbase, hchunk⟩ := h.rowSource row hrow
  have hkeys : key = source.key :=
    List.inj_on_of_nodup_map hkeyed.ids hkey hsource (hsame.trans hid)
  rw [hkeys] at hbase hchunk
  exact ⟨hbase.symm, hchunk⟩

/-- A row of a knowledge base for a fragment of the source's version is of the source. -/
theorem Formed.source_of_row (hbase : row.knowledgeBaseId = source.knowledgeBaseId)
    {chunk : DocumentChunk} (hchunk : chunk ∈ tables.search.documentChunks)
    (hid : row.documentChunkId = chunk.id)
    (hversion : chunk.documentVersionId = source.documentVersionId) :
    row.sourceId = source.id := by
  obtain ⟨key, hkey, hsame, hbase', chunk', hchunk', hid', hversion', -⟩ := h.rowSource row hrow
  have hone := h.chunk_eq hchunk' hchunk (hid'.trans hid)
  have hpair : key.2 = source.key.2 := by
    refine Prod.ext (hbase'.trans hbase) ?_
    rw [← hversion', hone]
    exact hversion
  have hkeys : key = source.key := List.inj_on_of_nodup_map hkeyed.versions hkey hsource hpair
  rw [← hsame, hkeys]
  rfl

end

theorem Formed.replaceChunks (h : Formed keys tables.nextId tables points) (documentVersionId : Nat)
    (parts : List DocumentChunk) :
    Formed keys (tables.replaceChunks documentVersionId parts).nextId
      (tables.replaceChunks documentVersionId parts) points := by
  have hnew : ∀ chunk ∈ parts.mapIdx fun index part =>
      { part with
        id := tables.nextId + index
        documentVersionId := documentVersionId
        chunkIndex := index
        isIndexed := false },
      tables.nextId ≤ chunk.id ∧ chunk.id < tables.nextId + parts.length := by
    intro chunk hchunk
    obtain ⟨index, hindex, rfl⟩ := List.mem_mapIdx.mp hchunk
    exact ⟨Nat.le_add_right _ _, Nat.add_lt_add_left hindex _⟩
  have hle : tables.nextId ≤ (tables.replaceChunks documentVersionId parts).nextId :=
    Nat.le_add_right _ _
  constructor
  · exact h.sources
  · unfold Tables.replaceChunks
    dsimp only
    rw [List.map_append]
    refine List.nodup_append.mpr ⟨h.chunkIds.sublist (List.filter_sublist.map _), ?_, ?_⟩
    · rw [List.mapIdx_eq_zipIdx_map, List.map_map]
      refine List.Nodup.map_on ?_ ?_
      · rintro ⟨part, index⟩ hin ⟨part', index'⟩ hin' hsame
        have hindex : index = index' := Nat.add_left_cancel hsame
        subst hindex
        rw [List.mem_zipIdx_iff_getElem?] at hin hin'
        rw [hin] at hin'
        exact congrArg (fun p => (p, index)) (Option.some.inj hin')
      · exact List.Nodup.of_map Prod.snd (List.nodup_zipIdx_map_snd parts)
    · intro id hold id' hfresh
      obtain ⟨chunk, hchunk, rfl⟩ := List.mem_map.mp hold
      obtain ⟨chunk', hchunk', rfl⟩ := List.mem_map.mp hfresh
      have hlt := h.freshChunks chunk (List.mem_of_mem_filter hchunk)
      exact Nat.ne_of_lt (hlt.trans_le (hnew chunk' hchunk').1)
  · exact h.rowIds.sublist (List.filter_sublist.map _)
  · exact h.rowChunks.sublist (List.filter_sublist.map _)
  · intro row hrow
    obtain ⟨hold, hkept⟩ := List.mem_filter.mp hrow
    obtain ⟨key, hkey, hid, hbase, chunk, hchunk, hsame, hversion, hhas⟩ := h.rowSource row hold
    refine ⟨key, hkey, hid, hbase, chunk, ?_, hsame, hversion, hhas⟩
    refine List.mem_append_left _ (List.mem_filter.mpr ⟨hchunk, decide_eq_true fun hreplaced => ?_⟩)
    rw [Bool.not_eq_true', List.any_eq_false] at hkept
    refine hkept chunk hchunk ?_
    rw [Bool.and_eq_true, decide_eq_true_eq, decide_eq_true_eq]
    exact ⟨hreplaced, hsame⟩
  · intro chunk hchunk
    rcases List.mem_append.mp hchunk with hold | hfresh
    · exact (h.freshChunks chunk (List.mem_of_mem_filter hold)).trans_le hle
    · exact (hnew chunk hfresh).2
  · exact fun row hrow => (h.freshRows row (List.mem_of_mem_filter hrow)).trans_le hle
  · exact fun point hpoint => (h.freshPoints point hpoint).trans_le hle
  · exact h.pointIds
  · exact fun point hpoint row hrow => h.pointRow point hpoint row (List.mem_of_mem_filter hrow)

variable (py : Py.Reading) {source : Source}

/-- The row of a fragment of the source's version is made or taken. -/
theorem Formed.writeRow (h : Formed keys tables.nextId tables points) (hsource : source.key ∈ keys)
    {chunk : DocumentChunk} (hchunk : chunk ∈ tables.loadDocumentChunks source.documentVersionId) :
    Formed keys (tables.writeRow py source chunk).nextId (tables.writeRow py source chunk)
      points := by
  unfold Tables.writeRow
  split
  · exact h.mapRows (fun row => by split <;> rfl) (fun row => by split <;> rfl)
      (fun row => by split <;> rfl) (fun row => by split <;> rfl)
  · next hmissing =>
    obtain ⟨hin, hversion, hhas⟩ := mem_loadDocumentChunks.mp hchunk
    have hle : tables.nextId ≤ tables.nextId + 1 := Nat.le_succ _
    constructor
    · exact h.sources
    · exact h.chunkIds
    · dsimp only
      rw [List.map_append]
      refine List.nodup_append.mpr ⟨h.rowIds, List.nodup_singleton _, fun id hold id' hnew => ?_⟩
      obtain ⟨row, hrow, rfl⟩ := List.mem_map.mp hold
      rw [List.mem_singleton.mp hnew]
      exact Nat.ne_of_lt (h.freshRows row hrow)
    · dsimp only
      rw [List.map_append]
      refine List.nodup_append.mpr ⟨h.rowChunks, List.nodup_singleton _, fun pair hold pair' hnew => ?_⟩
      obtain ⟨row, hrow, rfl⟩ := List.mem_map.mp hold
      rw [List.mem_singleton.mp hnew]
      intro hsame
      obtain ⟨hbase, hid⟩ := Prod.mk.inj hsame
      refine hmissing (List.find?_isSome.mpr ⟨row, hrow, ?_⟩)
      rw [Bool.and_eq_true, decide_eq_true_eq, decide_eq_true_eq]
      exact ⟨hbase, hid⟩
    · intro row hrow
      rcases List.mem_append.mp hrow with hold | hnew
      · exact h.rowSource row hold
      · obtain rfl := List.mem_singleton.mp hnew
        exact ⟨source.key, hsource, rfl, rfl, chunk, hin, rfl, hversion, hhas⟩
    · exact fun other hother => (h.freshChunks other hother).trans_le hle
    · intro row hrow
      rcases List.mem_append.mp hrow with hold | hnew
      · exact (h.freshRows row hold).trans_le hle
      · obtain rfl := List.mem_singleton.mp hnew
        exact Nat.lt_succ_self _
    · exact fun point hpoint => (h.freshPoints point hpoint).trans_le hle
    · exact h.pointIds
    · intro point hpoint row hrow hid
      rcases List.mem_append.mp hrow with hold | hnew
      · exact h.pointRow point hpoint row hold hid
      · obtain rfl := List.mem_singleton.mp hnew
        exact absurd hid (Nat.ne_of_lt (h.freshPoints point hpoint))

end Formed

section Rows

variable {keys : List (Nat × Nat × Nat)} {tables : Tables} {points : List Point}
  (py : Py.Reading) {source : Source}

/-- What the loop over the fragments of a source does. -/
structure Wrote (source : Source) (tables tables' : Tables) : Prop where
  chunksSame : tables'.search.documentChunks = tables.search.documentChunks
  versionsSame : tables'.versions = tables.versions
  others : ∀ row : KbChunk, row.sourceId ≠ source.id →
    (row ∈ tables'.search.kbChunks ↔ row ∈ tables.search.kbChunks)
  pending : ∀ row ∈ tables'.search.kbChunks, row.sourceId = source.id →
    row ∈ tables.search.kbChunks ∨ row.embeddingStatus = "pending"
  places : ∀ row ∈ tables'.search.kbChunks, row.id < tables.nextId →
    ∃ old ∈ tables.search.kbChunks, old.id = row.id ∧ old.place = row.place
  le : tables.nextId ≤ tables'.nextId

theorem load_writeRow (chunk : DocumentChunk) (documentVersionId : Nat) :
    (tables.writeRow py source chunk).loadDocumentChunks documentVersionId =
      tables.loadDocumentChunks documentVersionId := by
  unfold Tables.writeRow
  split <;> rfl

theorem Wrote.step {tables₀ : Tables} (h : Wrote source tables₀ tables)
    (hformed : Formed keys tables.nextId tables points) (hkeyed : Keyed keys)
    (hsource : source.key ∈ keys) {chunk : DocumentChunk}
    (hchunk : chunk ∈ tables.loadDocumentChunks source.documentVersionId) :
    Wrote source tables₀ (tables.writeRow py source chunk) := by
  obtain ⟨hin, hversion, -⟩ := mem_loadDocumentChunks.mp hchunk
  have hof : ∀ row ∈ tables.search.kbChunks, row.knowledgeBaseId = source.knowledgeBaseId →
      row.documentChunkId = chunk.id → row.sourceId = source.id := fun row hrow hbase hid =>
    hformed.source_of_row hkeyed hsource hrow hbase hin hid hversion
  unfold Tables.writeRow
  split
  · refine ⟨h.chunksSame, h.versionsSame, fun row hrow => ?_, fun row hrow hid => ?_,
      fun row hrow hlt => ?_, h.le⟩
    · rw [← h.others row hrow]
      constructor
      · intro hmem
        obtain ⟨old, hold, rfl⟩ := List.mem_map.mp hmem
        by_cases hsame : old.knowledgeBaseId = source.knowledgeBaseId ∧
            old.documentChunkId = chunk.id
        · rw [if_pos hsame] at hrow
          exact absurd (hof old hold hsame.1 hsame.2) hrow
        · rw [if_neg hsame]
          exact hold
      · intro hold
        refine List.mem_map.mpr ⟨row, hold, if_neg fun hsame => ?_⟩
        exact hrow (hof row hold hsame.1 hsame.2)
    · obtain ⟨old, hold, rfl⟩ := List.mem_map.mp hrow
      by_cases hsame : old.knowledgeBaseId = source.knowledgeBaseId ∧
          old.documentChunkId = chunk.id
      · rw [if_pos hsame]
        exact .inr rfl
      · rw [if_neg hsame] at hid ⊢
        exact h.pending old hold hid
    · obtain ⟨old, hold, rfl⟩ := List.mem_map.mp hrow
      by_cases hsame : old.knowledgeBaseId = source.knowledgeBaseId ∧
          old.documentChunkId = chunk.id
      · rw [if_pos hsame] at hlt ⊢
        exact h.places old hold hlt
      · rw [if_neg hsame] at hlt ⊢
        exact h.places old hold hlt
  · refine ⟨h.chunksSame, h.versionsSame, fun row hrow => ?_, fun row hrow hid => ?_,
      fun row hrow hlt => ?_, h.le.trans (Nat.le_succ _)⟩
    · rw [← h.others row hrow]
      constructor
      · intro hmem
        rcases List.mem_append.mp hmem with hold | hnew
        · exact hold
        · obtain rfl := List.mem_singleton.mp hnew
          exact absurd rfl hrow
      · exact fun hold => List.mem_append_left _ hold
    · rcases List.mem_append.mp hrow with hold | hnew
      · exact h.pending row hold hid
      · obtain rfl := List.mem_singleton.mp hnew
        exact .inr rfl
    · rcases List.mem_append.mp hrow with hold | hnew
      · exact h.places row hold hlt
      · obtain rfl := List.mem_singleton.mp hnew
        exact absurd hlt (Nat.not_lt.mpr h.le)

theorem writeRows_spec (hformed : Formed keys tables.nextId tables points)
    (hkeyed : Keyed keys) (hsource : source.key ∈ keys) :
    Formed keys (tables.writeRows py source).nextId (tables.writeRows py source) points ∧
      Wrote source tables (tables.writeRows py source) := by
  have hloop : ∀ (rest : List DocumentChunk) (now : Tables),
      (∀ chunk ∈ rest, chunk ∈ now.loadDocumentChunks source.documentVersionId) →
      Formed keys now.nextId now points → Wrote source tables now →
        Formed keys (rest.foldl (Tables.writeRow py source) now).nextId
            (rest.foldl (Tables.writeRow py source) now) points ∧
          Wrote source tables (rest.foldl (Tables.writeRow py source) now) := by
    intro rest
    induction rest with
    | nil => exact fun now _ hnow hwrote => ⟨hnow, hwrote⟩
    | cons chunk rest ih =>
      intro now hload hnow hwrote
      have hchunk := hload chunk (.head _)
      refine ih (now.writeRow py source chunk) (fun other hother => ?_)
        (hnow.writeRow py hsource hchunk) (hwrote.step py hnow hkeyed hsource hchunk)
      rw [load_writeRow]
      exact hload other (List.mem_cons_of_mem chunk hother)
  exact hloop _ tables (fun chunk hchunk => hchunk) hformed
    ⟨rfl, rfl, fun _ _ => Iff.rfl, fun row hrow _ => .inl hrow, fun row hrow _ => ⟨row, hrow, rfl, rfl⟩,
      Nat.le_refl _⟩

end Rows

/-! ## What a source sees -/

section Frames

variable {keys : List (Nat × Nat × Nat)} {bound : Nat} {tables tables' : Tables}
  {points : List Point} {source other : Source}

/-- The tables have the same rows, fragments and version of a source. -/
structure SameFor (source : Source) (tables tables' : Tables) : Prop where
  rows : ∀ row : KbChunk, row.sourceId = source.id →
    (row ∈ tables'.search.kbChunks ↔ row ∈ tables.search.kbChunks)
  chunks : ∀ chunk : DocumentChunk, chunk.documentVersionId = source.documentVersionId →
    (chunk ∈ tables'.search.documentChunks ↔ chunk ∈ tables.search.documentChunks)
  versions : ∀ version : DocumentVersion, version.id = source.documentVersionId →
    (version ∈ tables'.versions ↔ version ∈ tables.versions)

section

variable (h : SameFor source tables tables')
include h

theorem SameFor.marked (hmarked : Marked tables' source) :
    Marked tables source := by
  rcases hmarked with ⟨version, hin, hid, hmark⟩ | ⟨chunk, hin, hid, hmark⟩ | ⟨row, hin, hid, hmark⟩
  · exact .inl ⟨version, (h.versions version hid).mp hin, hid, hmark⟩
  · exact .inr (.inl ⟨chunk, (h.chunks chunk hid).mp hin, hid, hmark⟩)
  · exact .inr (.inr ⟨row, (h.rows row hid).mp hin, hid, hmark⟩)

theorem SameFor.faithful (hfaithful : Faithful tables points source) :
    Faithful tables' points source where
  onePoint row hrow hid := hfaithful.onePoint row ((h.rows row hid).mp hrow) hid
  chunkThere point hpoint hbase hid := by
    obtain ⟨⟨row, hrow, hsame, hof⟩, chunk, hchunk, hsame', hversion⟩ :=
      hfaithful.chunkThere point hpoint hbase hid
    exact ⟨⟨row, (h.rows row hof).mpr hrow, hsame, hof⟩, chunk,
      (h.chunks chunk hversion).mpr hchunk, hsame', hversion⟩

/-- Where a source is marked, it is faithful. -/
def Settled (tables : Tables) (points : List Point) (source : Source) : Prop :=
  Marked tables source → Faithful tables points source

theorem SameFor.settled (hsettled : Settled tables points source) :
    Settled tables' points source := fun hmarked => h.faithful (hsettled (h.marked hmarked))

end

def Accord (keys : List (Nat × Nat × Nat)) (tables : Tables) (points : List Point) : Prop :=
  ∀ source : Source, source.key ∈ keys → Settled tables points source

/-- The law speaks of the key of a source alone. -/
theorem faithful_of_key (hkey : source.key = other.key) (h : Faithful tables points source) :
    Faithful tables points other := by
  obtain ⟨hid, hpair⟩ := Prod.mk.inj hkey
  obtain ⟨hbase, hversion⟩ := Prod.mk.inj hpair
  constructor
  · rw [← hid]
    exact h.onePoint
  · rw [← hbase, ← hid, ← hversion]
    exact h.chunkThere

theorem settled_of_key (hkey : source.key = other.key) (h : Settled tables points source) :
    Settled tables points other := by
  obtain ⟨hid, hpair⟩ := Prod.mk.inj hkey
  obtain ⟨-, hversion⟩ := Prod.mk.inj hpair
  intro hmarked
  unfold Marked at hmarked
  rw [← hid, ← hversion] at hmarked
  exact faithful_of_key hkey (h hmarked)

/-- The statuses of the sources, and the next id, do not matter. -/
theorem accord_congr (h : Accord keys tables points) (hsearch : tables'.search = tables.search)
    (hkeyed : tables'.versions = tables.versions) : Accord keys tables' points := by
  intro other hother
  refine SameFor.settled ⟨fun row _ => ?_, fun chunk _ => ?_, fun version _ => ?_⟩ (h other hother)
  · rw [hsearch]
  · rw [hsearch]
  · rw [hkeyed]

theorem accord_iff (hsources : tables.sources.map Source.key = keys) :
    Accord keys tables points ↔ Agrees tables points := by
  constructor
  · intro h source hsource
    exact h source (hsources ▸ List.mem_map_of_mem hsource)
  · intro h source hkey
    rw [← hsources] at hkey
    obtain ⟨found, hfound, hsame⟩ := List.mem_map.mp hkey
    exact settled_of_key hsame (h found hfound)

section

variable (hformed : Formed keys bound tables points) (hkeyed : Keyed keys)
  (hkey : source.key ∈ keys)
include hformed hkeyed hkey

/-- The replaced fragments are those of another version. -/
theorem sameFor_replaceChunks {documentVersionId : Nat}
    (hother : source.documentVersionId ≠ documentVersionId) (parts : List DocumentChunk) :
    SameFor source tables (tables.replaceChunks documentVersionId parts) := by
  refine ⟨fun row hid => ⟨List.mem_of_mem_filter, fun hrow => ?_⟩, fun chunk hversion => ?_,
    fun _ _ => Iff.rfl⟩
  · refine List.mem_filter.mpr ⟨hrow, ?_⟩
    rw [Bool.not_eq_true', List.any_eq_false]
    intro chunk hchunk hreplaced
    rw [Bool.and_eq_true, decide_eq_true_eq, decide_eq_true_eq] at hreplaced
    obtain ⟨-, chunk', hchunk', hsame, hversion, -⟩ :=
      hformed.version_of_row hkeyed hkey hrow hid
    have hone := hformed.chunk_eq hchunk hchunk' (hreplaced.2.trans hsame.symm)
    rw [← hone, hreplaced.1] at hversion
    exact hother hversion.symm
  · constructor
    · intro hin
      rcases List.mem_append.mp hin with hold | hnew
      · exact List.mem_of_mem_filter hold
      · obtain ⟨index, hindex, rfl⟩ := List.mem_mapIdx.mp hnew
        exact absurd hversion.symm hother
    · intro hin
      exact List.mem_append_left _ (List.mem_filter.mpr
        ⟨hin, decide_eq_true fun hsame => hother (hversion.symm.trans hsame)⟩)

/-- After its fragments are replaced, a source has no rows, and no mark but that of its version. -/
theorem replaceChunks_bare (parts : List DocumentChunk) :
    (∀ row ∈ (tables.replaceChunks source.documentVersionId parts).search.kbChunks,
        row.sourceId ≠ source.id) ∧
      (Marked (tables.replaceChunks source.documentVersionId parts) source →
        ∃ version ∈ tables.versions, version.id = source.documentVersionId ∧
          version.isIndexed = true) := by
  have hnone : ∀ row ∈ (tables.replaceChunks source.documentVersionId parts).search.kbChunks,
      row.sourceId ≠ source.id := by
    intro row hrow hid
    obtain ⟨hold, hkept⟩ := List.mem_filter.mp hrow
    obtain ⟨-, chunk, hchunk, hsame, hversion, -⟩ :=
      hformed.version_of_row hkeyed hkey hold hid
    rw [Bool.not_eq_true', List.any_eq_false] at hkept
    refine hkept chunk hchunk ?_
    rw [Bool.and_eq_true, decide_eq_true_eq, decide_eq_true_eq]
    exact ⟨hversion, hsame⟩
  refine ⟨hnone, fun hmarked => ?_⟩
  rcases hmarked with hversion | ⟨chunk, hin, hid, hmark⟩ | ⟨row, hin, hid, -⟩
  · exact hversion
  · rcases List.mem_append.mp hin with hold | hnew
    · have hkept := (List.mem_filter.mp hold).2
      rw [decide_eq_true_eq] at hkept
      exact absurd hid hkept
    · obtain ⟨index, hindex, rfl⟩ := List.mem_mapIdx.mp hnew
      cases hmark
  · exact absurd hid (hnone row hin)

end

/-- A source without rows and points is faithful. -/
theorem faithful_of_none (hrows : ∀ row ∈ tables.search.kbChunks, row.sourceId ≠ source.id)
    (hpoints : ∀ point ∈ points, point.knowledgeBaseId = source.knowledgeBaseId →
      point.sourceId ≠ source.id) : Faithful tables points source where
  onePoint row hrow hid := absurd hid (hrows row hrow)
  chunkThere point hpoint hbase hid := absurd hid (hpoints point hpoint hbase)

theorem Wrote.sameFor (h : Wrote source tables tables')
    (hid : other.id ≠ source.id) : SameFor other tables tables' where
  rows row hrow := h.others row fun hsame => hid (hrow.symm.trans hsame)
  chunks chunk _ := by rw [h.chunksSame]
  versions version _ := by rw [h.versionsSame]

/-- Without marks before, the source has none after its rows are made. -/
theorem Wrote.unmarked (h : Wrote source tables tables')
    (hnot : ¬ Marked tables source) : ¬ Marked tables' source := by
  rintro (⟨version, hin, hid, hmark⟩ | ⟨chunk, hin, hid, hmark⟩ | ⟨row, hin, hid, hmark⟩)
  · exact hnot (.inl ⟨version, h.versionsSame ▸ hin, hid, hmark⟩)
  · exact hnot (.inr (.inl ⟨chunk, h.chunksSame ▸ hin, hid, hmark⟩))
  · rcases h.pending row hin hid with hold | hpending
    · exact hnot (.inr (.inr ⟨row, hold, hid, hmark⟩))
    · rw [hpending] at hmark
      exact absurd hmark (by decide)

/-- Membership in a list whose items of a kind are left alone. -/
theorem mem_map_of_fixed {α : Type*} {l : List α} {f : α → α} {p : α → Prop}
    (hp : ∀ a ∈ l, p (f a) → p a) (hf : ∀ a ∈ l, p a → f a = a) {b : α} (hb : p b) :
    b ∈ l.map f ↔ b ∈ l := by
  constructor
  · intro hin
    obtain ⟨a, ha, rfl⟩ := List.mem_map.mp hin
    rw [hf a ha (hp a ha hb)]
    exact ha
  · exact fun hin => List.mem_map.mpr ⟨b, hin, hf b hin hb⟩

/-- The marks of a source say nothing about the sources of other versions. -/
theorem sameFor_markChunks (hformed : Formed keys bound tables points)
    (hkeyed : Keyed keys) (hkey : source.key ∈ keys)
    (hversion : other.documentVersionId ≠ source.documentVersionId) (hid : other.id ≠ source.id) :
    SameFor other tables (tables.markChunks source) := by
  refine ⟨fun row hrow => ?_, fun chunk hchunk => ?_, fun _ _ => Iff.rfl⟩
  · refine mem_map_of_fixed (p := fun row : KbChunk => row.sourceId = other.id) (fun a _ h => ?_)
      (fun a ha h => if_neg ?_) hrow
    · split at h <;> exact h
    · rintro ⟨hbase, hin⟩
      obtain ⟨loaded, hloaded, hsame⟩ := List.mem_map.mp hin
      obtain ⟨hin', hversion', -⟩ := mem_loadDocumentChunks.mp hloaded
      exact hid (h.symm.trans
        (hformed.source_of_row hkeyed hkey ha hbase hin' hsame.symm hversion'))
  · refine mem_map_of_fixed
      (p := fun chunk : DocumentChunk => chunk.documentVersionId = other.documentVersionId)
      (fun a _ h => ?_) (fun a ha h => if_neg ?_) hchunk
    · split at h <;> exact h
    · intro hin
      obtain ⟨loaded, hloaded, hsame⟩ := List.mem_map.mp hin
      obtain ⟨hin', hversion', -⟩ := mem_loadDocumentChunks.mp hloaded
      have hone := hformed.chunk_eq hin' ha hsame
      rw [hone, h] at hversion'
      exact hversion hversion'

/-- The marks do not change what points a source needs. -/
theorem Faithful.markChunks (h : Faithful tables points other) (source : Source) :
    Faithful (tables.markChunks source) points other where
  onePoint row hrow hid hflag := by
    obtain ⟨old, hold, rfl⟩ := List.mem_map.mp hrow
    split at hid
    · next hmarked =>
      rw [if_pos hmarked] at hflag ⊢
      exact h.onePoint old hold hid hflag
    · next hnot =>
      rw [if_neg hnot] at hflag ⊢
      exact h.onePoint old hold hid hflag
  chunkThere point hpoint hbase hid := by
    obtain ⟨⟨row, hrow, hsame, hof⟩, chunk, hchunk, hsame', hversion⟩ :=
      h.chunkThere point hpoint hbase hid
    refine ⟨⟨_, List.mem_map_of_mem hrow, ?_, ?_⟩, _, List.mem_map_of_mem hchunk, ?_, ?_⟩
    · split <;> exact hsame
    · split <;> exact hof
    · split <;> exact hsame'
    · split <;> exact hversion

theorem sameFor_finish (hversion : other.documentVersionId ≠ source.documentVersionId) :
    SameFor other tables (tables.finish source) := by
  refine ⟨fun _ _ => Iff.rfl, fun _ _ => Iff.rfl, fun version hid => ?_⟩
  refine mem_map_of_fixed (p := fun version : DocumentVersion => version.id = other.documentVersionId)
    (fun a _ h => ?_) (fun a _ h => if_neg fun hsame => hversion (h.symm.trans hsame)) hid
  split at h <;> exact h

theorem Faithful.finish (h : Faithful tables points other) (source : Source) :
    Faithful (tables.finish source) points other :=
  ⟨h.onePoint, h.chunkThere⟩

end Frames

/-! ## The points -/

section Points

variable {keys : List (Nat × Nat × Nat)} {bound : Nat} {tables : Tables} {points : List Point}
  {source other : Source}

theorem Formed.subPoints (h : Formed keys bound tables points) {points' : List Point}
    (hsub : points'.Sublist points) : Formed keys bound tables points' :=
  { h with
    freshPoints := fun point hpoint => h.freshPoints point (hsub.subset hpoint)
    pointIds := h.pointIds.sublist (hsub.map _)
    pointRow := fun point hpoint => h.pointRow point (hsub.subset hpoint) }

theorem Faithful.deletePoints (hformed : Formed keys bound tables points)
    (h : Faithful tables points other) (hid : other.id ≠ source.id) :
    Faithful tables (deletePoints source points) other where
  onePoint row hrow hof hflag := by
    rw [← h.onePoint row hrow hof hflag]
    unfold AgentBack.Knowledge.deletePoints
    rw [List.countP_filter]
    refine List.countP_congr fun point hpoint => ?_
    simp only [Bool.and_eq_true, decide_eq_true_eq, Bool.not_eq_true', Bool.and_eq_false_iff,
      decide_eq_false_iff_not, and_iff_left_iff_imp]
    intro hsame
    right
    rw [(hformed.pointRow point hpoint row hrow hsame).1, hof]
    exact hid
  chunkThere point hpoint := h.chunkThere point (List.mem_of_mem_filter hpoint)

theorem of_rowOfChunk {knowledgeBaseId chunkId : Nat} {row : KbChunk}
    (h : tables.rowOfChunk knowledgeBaseId chunkId = some row) :
    row ∈ tables.search.kbChunks ∧ row.knowledgeBaseId = knowledgeBaseId ∧
      row.documentChunkId = chunkId := by
  have hfound := List.find?_some h
  rw [Bool.and_eq_true, decide_eq_true_eq, decide_eq_true_eq] at hfound
  exact ⟨List.mem_of_find?_eq_some h, hfound⟩

theorem row_of_pointOf {chunk : DocumentChunk} {point : Point}
    (h : tables.pointOf source chunk = some point) :
    ∃ row ∈ tables.search.kbChunks, row.id = point.id ∧
      row.knowledgeBaseId = source.knowledgeBaseId ∧ row.documentChunkId = chunk.id ∧
      point.chunkId = chunk.id ∧ point.sourceId = source.id ∧
      point.knowledgeBaseId = source.knowledgeBaseId := by
  unfold Tables.pointOf at h
  obtain ⟨row, hrow, hmade⟩ := Option.bind_eq_some_iff.mp h
  obtain ⟨hthere, hbase, hchunk⟩ := of_rowOfChunk hrow
  split at hmade
  · cases hmade
  · cases hmade
    exact ⟨row, hthere, rfl, hbase, hchunk, rfl, rfl, rfl⟩

theorem pointOf_of_row {chunk : DocumentChunk} {row : KbChunk}
    (h : tables.rowOfChunk source.knowledgeBaseId chunk.id = some row)
    (hflag : row.isExcludedFromSearch = false) :
    ∃ point, tables.pointOf source chunk = some point ∧ point.id = row.id := by
  unfold Tables.pointOf
  refine ⟨_, Option.bind_eq_some_iff.mpr ⟨row, h, if_neg ?_⟩, rfl⟩
  rw [hflag]
  exact Bool.false_ne_true

theorem row_of_pointsOf (hformed : Formed keys bound tables points)
    (hkeyed : Keyed keys) (hkey : source.key ∈ keys) {point : Point}
    (hpoint : point ∈ tables.pointsOf source) :
    ∃ row ∈ tables.search.kbChunks, row.id = point.id ∧ row.sourceId = source.id ∧
      row.knowledgeBaseId = source.knowledgeBaseId ∧ row.documentChunkId = point.chunkId ∧
      point.sourceId = source.id ∧ point.knowledgeBaseId = source.knowledgeBaseId ∧
      ∃ chunk ∈ tables.search.documentChunks, chunk.id = point.chunkId ∧
        chunk.documentVersionId = source.documentVersionId := by
  obtain ⟨chunk, hchunk, hmade⟩ := List.mem_filterMap.mp hpoint
  obtain ⟨hin, hversion, -⟩ := mem_loadDocumentChunks.mp hchunk
  obtain ⟨row, hrow, hid, hbase, hchunkId, hsame, hof, hbase'⟩ := row_of_pointOf hmade
  exact ⟨row, hrow, hid, hformed.source_of_row hkeyed hkey hrow hbase hin hchunkId hversion,
    hbase, hchunkId.trans hsame.symm, hof, hbase', chunk, hin, hsame.symm, hversion⟩

theorem nodup_pointsOf (hformed : Formed keys bound tables points) :
    ((tables.pointsOf source).map (·.id)).Nodup := by
  unfold Tables.pointsOf
  have hchunks := nodup_loadDocumentChunks source.documentVersionId hformed.chunkIds
  generalize tables.loadDocumentChunks source.documentVersionId = chunks at hchunks
  induction chunks with
  | nil => exact List.nodup_nil
  | cons chunk rest ih =>
    obtain ⟨hnot, hrest⟩ := List.nodup_cons.mp (List.map_cons ▸ hchunks)
    cases hmade : tables.pointOf source chunk with
    | none =>
      rw [List.filterMap_cons_none hmade]
      exact ih hrest
    | some point =>
      rw [List.filterMap_cons_some hmade, List.map_cons]
      refine List.nodup_cons.mpr ⟨fun hin => ?_, ih hrest⟩
      obtain ⟨row, hrow, hid, -, hchunkId, -⟩ := row_of_pointOf hmade
      obtain ⟨point', hin', hsame⟩ := List.mem_map.mp hin
      obtain ⟨chunk', hchunk', hmade'⟩ := List.mem_filterMap.mp hin'
      obtain ⟨row', hrow', hid', -, hchunkId', -⟩ := row_of_pointOf hmade'
      have hone := List.inj_on_of_nodup_map hformed.rowIds hrow' hrow
        (hid'.trans (hsame.trans hid.symm))
      rw [hone, hchunkId] at hchunkId'
      exact hnot (List.mem_map.mpr ⟨chunk', hchunk', hchunkId'.symm⟩)

/-- New points take their places. -/
theorem Formed.upsertPoints (h : Formed keys bound tables points) {new : List Point}
    (hnodup : (new.map (·.id)).Nodup) (hfresh : ∀ point ∈ new, point.id < bound)
    (hrow : ∀ point ∈ new, ∀ row ∈ tables.search.kbChunks, point.id = row.id →
      point.sourceId = row.sourceId ∧ point.knowledgeBaseId = row.knowledgeBaseId ∧
        point.chunkId = row.documentChunkId) :
    Formed keys bound tables (upsertPoints new points) := by
  have hkept : Formed keys bound tables (points.filter fun point =>
      !(new.any fun other => other.id = point.id)) := h.subPoints List.filter_sublist
  refine { hkept with freshPoints := ?_, pointIds := ?_, pointRow := ?_ }
  · intro point hpoint
    rcases List.mem_append.mp hpoint with hold | hin
    · exact hkept.freshPoints point hold
    · exact hfresh point hin
  · unfold AgentBack.Knowledge.upsertPoints
    rw [List.map_append]
    refine List.nodup_append.mpr ⟨hkept.pointIds, hnodup, ?_⟩
    intro id hold id' hin hsame
    obtain ⟨point, hpoint, rfl⟩ := List.mem_map.mp hold
    obtain ⟨point', hpoint', rfl⟩ := List.mem_map.mp hin
    have hnot := (List.mem_filter.mp hpoint).2
    rw [Bool.not_eq_true', List.any_eq_false] at hnot
    exact hnot point' hpoint' (decide_eq_true hsame.symm)
  · intro point hpoint row hthere hid
    rcases List.mem_append.mp hpoint with hold | hin
    · exact hkept.pointRow point hold row hthere hid
    · exact hrow point hin row hthere hid

/-- New points of a source leave those of others alone. -/
theorem Faithful.upsertPoints (h : Faithful tables points other) (source : Source) {new : List Point}
    (hof : ∀ point ∈ new, point.sourceId = source.id)
    (hrow : ∀ point ∈ new, ∀ row ∈ tables.search.kbChunks, point.id = row.id →
      row.sourceId = source.id) (hid : other.id ≠ source.id) :
    Faithful tables (upsertPoints new points) other where
  onePoint row hthere hother hflag := by
    have hnone : ∀ point ∈ new, point.id ≠ row.id := fun point hpoint hsame =>
      hid (hother.symm.trans (hrow point hpoint row hthere hsame))
    unfold AgentBack.Knowledge.upsertPoints
    rw [List.countP_append, ← h.onePoint row hthere hother hflag, List.countP_filter]
    have hzero : new.countP (fun point => decide (point.id = row.id)) = 0 := by
      refine List.countP_eq_zero.mpr fun point hpoint hsame => ?_
      exact hnone point hpoint (of_decide_eq_true hsame)
    rw [hzero, Nat.add_zero]
    refine List.countP_congr fun point hpoint => ?_
    rw [Bool.and_eq_true, and_iff_left_iff_imp, decide_eq_true_eq, Bool.not_eq_true',
      List.any_eq_false]
    intro hsame point' hpoint' hequal
    exact hnone point' hpoint' ((of_decide_eq_true hequal).trans hsame)
  chunkThere point hpoint hbase hsource := by
    rcases List.mem_append.mp hpoint with hold | hin
    · exact h.chunkThere point (List.mem_of_mem_filter hold) hbase hsource
    · exact absurd (hsource.symm.trans (hof point hin)) hid

/-- The new points of a source are well-formed with its tables. -/
theorem Formed.upsertPointsOf (h : Formed keys bound tables points)
    (hkeyed : Keyed keys) (hkey : source.key ∈ keys) :
    Formed keys bound tables (AgentBack.Knowledge.upsertPoints (tables.pointsOf source) points) := by
  refine h.upsertPoints (nodup_pointsOf h) (fun point hpoint => ?_) fun point hpoint row hrow hid => ?_
  · obtain ⟨row, hrow, hid, -⟩ := row_of_pointsOf h hkeyed hkey hpoint
    exact hid ▸ h.freshRows row hrow
  · obtain ⟨row', hrow', hid', hof, hbase, hchunk, hof', hbase', -⟩ :=
      row_of_pointsOf h hkeyed hkey hpoint
    have hone := List.inj_on_of_nodup_map h.rowIds hrow' hrow (hid'.trans hid)
    rw [← hone]
    exact ⟨hof'.trans hof.symm, hbase'.trans hbase.symm, hchunk.symm⟩

/-- Once its rows are made and its points are written, a source is faithful. -/
theorem faithful_upsertPoints (hformed : Formed keys bound tables points)
    (hkeyed : Keyed keys)
    (hkey : source.key ∈ keys)
    (hgone : ∀ point ∈ points, point.knowledgeBaseId = source.knowledgeBaseId →
      point.sourceId ≠ source.id) :
    Faithful tables (upsertPoints (tables.pointsOf source) points) source where
  onePoint row hrow hof hflag := by
    obtain ⟨hbase, chunk, hin, hsame, hversion, hhas⟩ :=
      hformed.version_of_row hkeyed hkey hrow hof
    have hloaded : chunk ∈ tables.loadDocumentChunks source.documentVersionId :=
      mem_loadDocumentChunks.mpr ⟨hin, hversion, hhas⟩
    have hfind : tables.rowOfChunk source.knowledgeBaseId chunk.id = some row := by
      have hsome : (tables.rowOfChunk source.knowledgeBaseId chunk.id).isSome = true := by
        unfold Tables.rowOfChunk
        refine List.find?_isSome.mpr ⟨row, hrow, ?_⟩
        rw [Bool.and_eq_true, decide_eq_true_eq, decide_eq_true_eq]
        exact ⟨hbase, hsame.symm⟩
      obtain ⟨found, hfound⟩ := Option.isSome_iff_exists.mp hsome
      obtain ⟨hthere, hbase', hchunk'⟩ := of_rowOfChunk hfound
      have hone := List.inj_on_of_nodup_map hformed.rowChunks hthere hrow
        (Prod.ext (hbase'.trans hbase.symm) (hchunk'.trans hsame))
      exact hone ▸ hfound
    obtain ⟨point, hpoint, hid⟩ := pointOf_of_row hfind hflag
    have hmem : point ∈ upsertPoints (tables.pointsOf source) points :=
      List.mem_append_right _ (List.mem_filterMap.mpr ⟨chunk, hloaded, hpoint⟩)
    have hnodup := (hformed.upsertPointsOf hkeyed hkey).pointIds
    have hcount : ((upsertPoints (tables.pointsOf source) points).map (·.id)).count row.id = 1 :=
      List.count_eq_one_of_mem hnodup (hid ▸ List.mem_map_of_mem hmem)
    rw [List.count, List.countP_map] at hcount
    rw [← hcount]
    exact List.countP_congr fun other _ => by simp
  chunkThere point hpoint hbase hof := by
    rcases List.mem_append.mp hpoint with hold | hnew
    · exact absurd hof (hgone point (List.mem_of_mem_filter hold) hbase)
    · obtain ⟨row, hrow, hid, hof', -, -, -, -, hchunk⟩ :=
        row_of_pointsOf hformed hkeyed hkey hnew
      exact ⟨⟨row, hrow, hid, hof'⟩, hchunk⟩

end Points

/-! ## Worlds -/

/-- Both states of the tables are well-formed with the points, and have one row under one id. -/
structure World.WellFormed (keys : List (Nat × Nat × Nat)) (world : World) : Prop where
  session : Formed keys world.session.nextId world.session world.points
  saved : Formed keys world.session.nextId world.saved world.points
  rows : ∀ row ∈ world.session.search.kbChunks, ∀ row' ∈ world.saved.search.kbChunks,
    row.id = row'.id → row.place = row'.place

/-- The vector index agrees with both states of the tables. -/
structure World.Good (keys : List (Nat × Nat × Nat)) (world : World) : Prop where
  formed : world.WellFormed keys
  session : Accord keys world.session world.points
  saved : Accord keys world.saved world.points

section Worlds

variable {keys : List (Nat × Nat × Nat)} {world : World} {source : Source}

section

variable {bound : Nat} {tables : Tables} {points : List Point} (h : Formed keys bound tables points)
include h

theorem Formed.withNextId (nextId : Nat) :
    Formed keys bound { tables with nextId } points := { h with }

theorem Formed.places : ∀ row ∈ tables.search.kbChunks,
      ∀ row' ∈ tables.search.kbChunks, row.id = row'.id → row.place = row'.place :=
  fun _ hrow _ hrow' hid => congrArg KbChunk.place (List.inj_on_of_nodup_map h.rowIds hrow hrow' hid)

end

theorem closed_wellFormed : SessionClosed (World.WellFormed keys) where
  polls _ _ h := ⟨h.session, h.saved, h.rows⟩
  commit _ h := ⟨h.session, h.session, h.session.places⟩
  rollback _ h := ⟨h.saved.withNextId _, h.saved, h.saved.places⟩

theorem closed_good : SessionClosed (World.Good keys) where
  polls _ _ h := ⟨closed_wellFormed.polls _ _ h.formed, h.session, h.saved⟩
  commit _ h := ⟨closed_wellFormed.commit _ h.formed, h.session, h.session⟩
  rollback _ h := ⟨closed_wellFormed.rollback _ h.formed, accord_congr h.saved rfl rfl, h.saved⟩

section

variable (h : world.WellFormed keys)
include h

/-- The session changes the tables, and moves no row. -/
theorem World.WellFormed.edit {f : Tables → Tables}
    (hformed : Formed keys (f world.session).nextId (f world.session) world.points)
    (hle : world.session.nextId ≤ (f world.session).nextId)
    (hplaces : ∀ row ∈ (f world.session).search.kbChunks, row.id < world.session.nextId →
      ∃ old ∈ world.session.search.kbChunks, old.id = row.id ∧ old.place = row.place) :
    (world.edit f).WellFormed keys where
  session := hformed
  saved := h.saved.mono hle
  rows row hrow row' hrow' hid := by
    obtain ⟨old, hold, hid', hplace⟩ :=
      hplaces row hrow (hid ▸ h.saved.freshRows row' hrow')
    exact hplace.symm.trans (h.rows old hold row' hrow' (hid'.trans hid))

theorem World.WellFormed.setStatus (sourceId : Nat) (status : SourceStatus) :
    (world.edit fun tables => tables.setStatus sourceId status).WellFormed keys :=
  h.edit (h.session.setStatus sourceId status) (Nat.le_refl _)
    fun row hrow _ => ⟨row, hrow, rfl, rfl⟩

theorem World.WellFormed.restoreSources (knowledgeBaseId : Nat) :
    (world.edit fun tables => tables.restoreSources knowledgeBaseId).WellFormed keys :=
  h.edit (h.session.restoreSources knowledgeBaseId) (Nat.le_refl _)
    fun row hrow _ => ⟨row, hrow, rfl, rfl⟩

theorem World.WellFormed.replaceChunks (documentVersionId : Nat) (parts : List DocumentChunk) :
    (world.edit fun tables => tables.replaceChunks documentVersionId parts).WellFormed keys :=
  h.edit (h.session.replaceChunks documentVersionId parts) (Nat.le_add_right _ _)
    fun row hrow _ => ⟨row, List.mem_of_mem_filter hrow, rfl, rfl⟩

theorem World.WellFormed.markChunks (source : Source) :
    (world.edit fun tables => tables.markChunks source).WellFormed keys := by
  refine h.edit (h.session.markChunks source) (Nat.le_refl _) fun row hrow _ => ?_
  obtain ⟨old, hold, rfl⟩ := List.mem_map.mp hrow
  refine ⟨old, hold, ?_⟩
  split <;> exact ⟨rfl, rfl⟩

theorem World.WellFormed.finish (source : Source) :
    (world.edit fun tables => tables.finish source).WellFormed keys :=
  h.edit (h.session.finish source) (Nat.le_refl _) fun row hrow _ => ⟨row, hrow, rfl, rfl⟩

theorem World.WellFormed.deletePoints (source : Source) :
    World.WellFormed keys { world with points := deletePoints source world.points } :=
  ⟨h.session.subPoints List.filter_sublist, h.saved.subPoints List.filter_sublist, h.rows⟩

/-- A new point has the place of the row of its id, also where that is committed. -/
theorem World.WellFormed.pointRow (hkeyed : Keyed keys) (hkey : source.key ∈ keys) {point : Point}
    (hpoint : point ∈ world.session.pointsOf source) {row : KbChunk}
    (hrow : row ∈ world.saved.search.kbChunks) (hid : point.id = row.id) :
    point.sourceId = row.sourceId ∧ point.knowledgeBaseId = row.knowledgeBaseId ∧
      point.chunkId = row.documentChunkId := by
  obtain ⟨row', hrow', hid', hof, hbase, hchunk, hof', hbase', -⟩ :=
    row_of_pointsOf h.session hkeyed hkey hpoint
  have hplace := h.rows row' hrow' row hrow (hid'.trans hid)
  obtain ⟨hsource, hrest⟩ := Prod.mk.inj hplace
  obtain ⟨hbases, hchunks⟩ := Prod.mk.inj hrest
  exact ⟨hof'.trans (hof.symm.trans hsource), hbase'.trans (hbase.symm.trans hbases),
    hchunk.symm.trans hchunks⟩

theorem World.WellFormed.upsertPoints (hkeyed : Keyed keys) (hkey : source.key ∈ keys) :
    World.WellFormed keys
      { world with points := upsertPoints (world.session.pointsOf source) world.points } where
  session := h.session.upsertPointsOf hkeyed hkey
  saved := by
    refine h.saved.upsertPoints (nodup_pointsOf h.session) (fun point hpoint => ?_)
      fun point hpoint row hrow hid => h.pointRow hkeyed hkey hpoint hrow hid
    obtain ⟨row, hrow, hid, -⟩ := row_of_pointsOf h.session hkeyed hkey hpoint
    exact hid ▸ h.session.freshRows row hrow
  rows := h.rows

theorem World.WellFormed.writeRows (py : Py.Reading) (hkeyed : Keyed keys)
    (hkey : source.key ∈ keys) :
    (world.edit fun tables => tables.writeRows py source).WellFormed keys := by
  obtain ⟨hformed, hwrote⟩ := writeRows_spec py h.session hkeyed hkey
  exact h.edit hformed hwrote.le hwrote.places

end

theorem World.Good.setStatus (h : world.Good keys) (sourceId : Nat) (status : SourceStatus) :
    (world.edit fun tables => tables.setStatus sourceId status).Good keys :=
  ⟨h.formed.setStatus sourceId status, accord_congr h.session rfl rfl, h.saved⟩

theorem World.Good.restoreSources (h : world.Good keys) (knowledgeBaseId : Nat) :
    (world.edit fun tables => tables.restoreSources knowledgeBaseId).Good keys :=
  ⟨h.formed.restoreSources knowledgeBaseId, accord_congr h.session rfl rfl, h.saved⟩

theorem accord_of_others {tables : Tables} {points : List Point}
    (hkeyed : Keyed keys) (hkey : source.key ∈ keys)
    (hsource : Settled tables points source)
    (hothers : ∀ other : Source, other.key ∈ keys → other.id ≠ source.id →
      Settled tables points other) : Accord keys tables points := by
  intro other hother
  by_cases hid : other.id = source.id
  · have hsame : source.key = other.key :=
      List.inj_on_of_nodup_map hkeyed.ids hkey hother hid.symm
    exact settled_of_key hsame hsource
  · exact hothers other hother hid

/-- What a part of a job leaves: where the session is of no use, the committed tables agree, where it
goes on, the session does, and what is committed unless the cancellation was seen. -/
def Leaves (keys : List (Nat × Nat × Nat)) : Ended → World → Prop
  | .returned, world => world.WellFormed keys ∧ Accord keys world.session world.points ∧
    (world.polls ≠ some 0 → Accord keys world.saved world.points)
  | .raised, world => world.Good keys
  | .broken, world => world.WellFormed keys ∧ Accord keys world.saved world.points

theorem World.Good.leaves (h : world.Good keys) (ended : Ended) : Leaves keys ended world := by
  cases ended with
  | returned => exact ⟨h.formed, h.session, fun _ => h.saved⟩
  | raised => exact h
  | broken => exact ⟨h.formed, h.saved⟩

theorem openSource_good (h : world.Good keys) (source : Source) :
    (openSource source world).1.Good keys := by
  unfold openSource
  split
  · exact h.setStatus source.id .processing
  · exact h

variable (py : Py.Reading) {attempt : Attempt}

theorem leaves_of_keepsPoints (h : world.Good keys) (hkeeps : KeepsPoints source attempt world) :
    Leaves keys (indexLoadedSource py source attempt world).2
      (indexLoadedSource py source attempt world).1 := by
  obtain ⟨hsame, hfault⟩ := hkeeps
  have hprepared : (Action.seq (prepareSource source attempt) world).1.Good keys :=
    (prepareSource_leads closed_good.progressing source attempt
      ⟨openSource_good h source, fun _ => openSource_good h source⟩
      fun hreplaces => absurd hreplaces hsame).1
  unfold indexLoadedSource
  rw [Action.seq_append]
  match hended : Action.seq (prepareSource source attempt) world with
  | (next, .raised) | (next, .broken) =>
    rw [hended] at hprepared
    exact hprepared.leaves _
  | (next, .returned) =>
    rw [hended] at hprepared hfault
    have hdeletion : attempt.deletionFails = some false := by
      unfold Attempt.deletionFails
      rw [hfault rfl]
    have hstops : Action.seq (writeSource py source attempt) next = (next, .raised) := by
      unfold writeSource
      rw [Action.seq]
      unfold deleteOldPoints changePoints
      rw [hdeletion]
      rfl
    dsimp only
    rw [hstops]
    exact hprepared.leaves _

def pointActions (source : Source) (attempt : Attempt) : List Action :=
  [deleteOldPoints source attempt, makeRows py source attempt, embedTexts attempt,
    writePoints source attempt]

def World.written (source : Source) (world : World) : World :=
  { world with
    session := world.session.writeRows py source
    points :=
      upsertPoints ((world.session.writeRows py source).pointsOf source)
        (deletePoints source world.points) }

/-- No call fails before the new points are written. -/
def Attempt.Writes (attempt : Attempt) : Prop :=
  attempt.fault = none ∨ attempt.fault = some .fulltext ∨ attempt.fault = some .classification

theorem seq_writeSource (world : World) :
    Action.seq (writeSource py source attempt) world =
      match Action.seq (pointActions py source attempt) world with
      | (world, .returned) =>
        Action.seq [markIndexed source attempt, saveProgress, finishSource source attempt] world
      | stopped => stopped :=
  Action.seq_append (pointActions py source attempt)
    [markIndexed source attempt, saveProgress, finishSource source attempt] world

theorem seq_pointActions (h : attempt.Writes) (world : World) :
    Action.seq (pointActions py source attempt) world = (world.written py source, .returned) := by
  unfold pointActions deleteOldPoints makeRows embedTexts writePoints Attempt.deletionFails
    Attempt.upsertFails
  rcases h with hfault | hfault | hfault <;> rw [hfault] <;> rfl

theorem seq_pointActions_stops (h : ¬ attempt.Writes) (world : World) :
    (Action.seq (pointActions py source attempt) world).2 ≠ .returned := by
  unfold Attempt.Writes at h
  unfold pointActions deleteOldPoints makeRows embedTexts writePoints Attempt.deletionFails
    Attempt.upsertFails
  cases hfault : attempt.fault with
  | none => exact absurd (.inl hfault) h
  | some fault =>
    cases fault with
    | fulltext => exact absurd (.inr (.inl hfault)) h
    | classification => exact absurd (.inr (.inr hfault)) h
    | deletion applied | rows | embeddings | upsert applied => exact fun hended => by cases hended

/-! ## An attempt without marks -/

structure World.Bare (keys : List (Nat × Nat × Nat)) (source : Source) (world : World) : Prop where
  good : world.Good keys
  session : ¬ Marked world.session source
  saved : ¬ Marked world.saved source

theorem closed_bare : SessionClosed (World.Bare keys source) where
  polls _ polls h := ⟨closed_good.polls _ polls h.good, h.session, h.saved⟩
  commit _ h := ⟨closed_good.commit _ h.good, h.session, h.session⟩
  rollback _ h := ⟨closed_good.rollback _ h.good, h.saved, h.saved⟩

theorem World.Bare.edit (h : world.Bare keys source) {f : Tables → Tables}
    (hformed : (world.edit f).WellFormed keys)
    (hsource : ¬ Marked (f world.session) source)
    (hothers : ∀ other : Source, other.key ∈ keys → other.id ≠ source.id →
      Settled world.session world.points other → Settled (f world.session) world.points other)
    (hkeyed : Keyed keys) (hkey : source.key ∈ keys) :
    (world.edit f).Bare keys source where
  good := ⟨hformed, accord_of_others hkeyed hkey (fun hmarked => absurd hmarked hsource)
    fun other hother hid => hothers other hother hid (h.good.session other hother), h.good.saved⟩
  session := hsource
  saved := h.saved

theorem World.Bare.replaceChunks (h : world.Bare keys source)
    (hkeyed : Keyed keys) (hkey : source.key ∈ keys) (parts : List DocumentChunk) :
    (world.edit fun tables => tables.replaceChunks source.documentVersionId parts).Bare
      keys source := by
  have hformed := h.good.formed.session
  have hversion : ¬ ∃ version ∈ world.session.versions,
      version.id = source.documentVersionId ∧ version.isIndexed = true :=
    fun hmark => h.session (.inl hmark)
  refine h.edit (h.good.formed.replaceChunks _ parts)
    (fun hmarked => hversion ((replaceChunks_bare hformed hkeyed hkey parts).2 hmarked))
    (fun other hother _ hsettled => ?_) hkeyed hkey
  by_cases hsame : other.documentVersionId = source.documentVersionId
  · intro hmarked
    rw [← hsame] at hmarked hversion
    exact absurd ((replaceChunks_bare hformed hkeyed hother parts).2 hmarked) hversion
  · exact (sameFor_replaceChunks hformed hkeyed hother hsame parts).settled hsettled

theorem World.Bare.withPoints (h : world.Bare keys source) {points : List Point}
    (hformed : World.WellFormed keys { world with points })
    (hothers : ∀ tables, Formed keys world.session.nextId tables world.points →
      (∀ row ∈ tables.search.kbChunks, ∀ point ∈ world.session.pointsOf source,
        point.id = row.id → row.sourceId = source.id) →
      ∀ other : Source, other.id ≠ source.id →
        Faithful tables world.points other → Faithful tables points other)
    (hkeyed : Keyed keys)
    (hkey : source.key ∈ keys) : World.Bare keys source { world with points } := by
  have hof : ∀ point ∈ world.session.pointsOf source, point.sourceId = source.id := by
    intro point hpoint
    obtain ⟨-, -, -, -, -, -, hof, -⟩ :=
      row_of_pointsOf h.good.formed.session hkeyed hkey hpoint
    exact hof
  refine ⟨⟨hformed, accord_of_others hkeyed hkey (fun hmarked => absurd hmarked h.session) ?_,
    accord_of_others hkeyed hkey (fun hmarked => absurd hmarked h.saved) ?_⟩, h.session, h.saved⟩
  · intro other hother hid hmarked
    refine hothers _ h.good.formed.session (fun row hrow point hpoint hsame => ?_) other hid
      (h.good.session other hother hmarked)
    obtain ⟨row', hrow', hid', hof', -⟩ :=
      row_of_pointsOf h.good.formed.session hkeyed hkey hpoint
    have hone := List.inj_on_of_nodup_map h.good.formed.session.rowIds hrow' hrow
      (hid'.trans hsame)
    exact hone ▸ hof'
  · intro other hother hid hmarked
    refine hothers _ h.good.formed.saved (fun row hrow point hpoint hsame => ?_) other hid
      (h.good.saved other hother hmarked)
    rw [← (h.good.formed.pointRow hkeyed hkey hpoint hrow hsame).1]
    exact hof point hpoint

theorem bare_pointActions (attempt : Attempt) (hkeyed : Keyed keys) (hkey : source.key ∈ keys) :
    Leads (World.Bare keys source) (World.Bare keys source)
      (Action.seq (pointActions py source attempt)) := by
  refine leads_seq closed_bare.progressing fun action haction => ?_
  simp only [pointActions, List.mem_cons, List.not_mem_nil, or_false] at haction
  rcases haction with rfl | rfl | rfl | rfl
  · refine leads_changePoints closed_bare.progressing fun world h => ?_
    exact h.withPoints (h.good.formed.deletePoints source)
      (fun tables hformed _ other hid hfaithful => hfaithful.deletePoints hformed hid)
      hkeyed hkey
  · intro world h
    obtain ⟨-, hwrote⟩ := writeRows_spec py h.good.formed.session hkeyed hkey
    have hmade : (makeRows py source attempt world).1.Bare keys source :=
      h.edit (h.good.formed.writeRows py hkeyed hkey) (hwrote.unmarked h.session)
        (fun other _ hid hsettled => (hwrote.sameFor hid).settled hsettled) hkeyed hkey
    exact ⟨hmade, fun _ => hmade⟩
  · exact fun world h => ⟨h, fun _ => h⟩
  · refine leads_changePoints closed_bare.progressing fun world h => ?_
    refine h.withPoints (h.good.formed.upsertPoints hkeyed hkey)
      (fun tables hformed hrows other hid hfaithful => ?_) hkeyed hkey
    refine hfaithful.upsertPoints source (fun point hpoint => ?_)
      (fun point hpoint row hrow hsame => hrows row hrow point hpoint hsame) hid
    obtain ⟨-, -, -, -, -, -, hof, -⟩ :=
      row_of_pointsOf h.good.formed.session hkeyed hkey hpoint
    exact hof

/-- The checkpoint after the marks is taken back. -/
theorem saveProgress_undone (h : world.polls = some 1) :
    saveProgress world = ({ world with polls := some 0 }.rollback, .broken) := by
  unfold saveProgress World.updateJobProgress World.commitCheckpoint World.poll
  rw [h]

theorem leaves_of_bare (h : world.Bare keys source) (hkeyed : Keyed keys) (hkey : source.key ∈ keys)
    (hshort : ¬ GoesThrough source attempt world) :
    Leaves keys (indexLoadedSource py source attempt world).2
      (indexLoadedSource py source attempt world).1 := by
  have hopen : (openSource source world).1.Bare keys source := by
    unfold openSource
    split
    · exact ⟨h.good.setStatus source.id .processing, h.session, h.saved⟩
    · exact h
  have hprepared := prepareSource_leads closed_bare.progressing source attempt
    ⟨hopen, fun _ => hopen⟩ fun _ next parts _ hnext => hnext.replaceChunks hkeyed hkey parts
  unfold indexLoadedSource
  unfold GoesThrough at hshort
  rw [Action.seq_append]
  match hended : Action.seq (prepareSource source attempt) world with
  | (next, .raised) | (next, .broken) =>
    rw [hended] at hprepared
    exact hprepared.1.good.leaves _
  | (reached, .returned) =>
    rw [hended] at hprepared hshort
    have hpoints := bare_pointActions py attempt hkeyed hkey reached
      (hprepared.2 rfl)
    dsimp only
    rw [seq_writeSource]
    by_cases hwrites : attempt.Writes
    · rw [seq_pointActions py hwrites] at hpoints ⊢
      have hmarked := hpoints.1.good.formed.markChunks source
      dsimp only
      rw [Action.seq]
      unfold markIndexed
      by_cases hfulltext : attempt.fault = some .fulltext
      · rw [if_pos hfulltext]
        exact ⟨hmarked, hpoints.1.good.saved⟩
      · rw [if_neg hfulltext]
        have hpolls : reached.polls = some 1 := by
          by_contra hpolls
          refine hshort ⟨rfl, ?_, hpolls⟩
          rcases hwrites with hfault | hfault | hfault
          · exact .inl hfault
          · exact absurd hfault hfulltext
          · exact .inr hfault
        have hmarks : ((reached.written py source).edit fun tables =>
            tables.markChunks source).polls = some 1 := hpolls
        dsimp only
        rw [Action.seq, saveProgress_undone hmarks]
        exact ⟨closed_wellFormed.rollback _ (closed_wellFormed.polls _ _ hmarked),
          hpoints.1.good.saved⟩
    · have hstops : (Action.seq (pointActions py source attempt) reached).2 ≠ .returned :=
        seq_pointActions_stops py hwrites reached
      rcases hdone : Action.seq (pointActions py source attempt) reached with ⟨next, ended⟩
      rw [hdone] at hstops hpoints
      cases ended with
      | returned => exact absurd rfl hstops
      | raised | broken => exact hpoints.1.good.leaves _

/-! ## An attempt that goes through -/

/-- The other sources are settled, and those of the version have the points that they need. -/
def OthersFine (keys : List (Nat × Nat × Nat)) (source : Source) (tables : Tables)
    (points : List Point) : Prop :=
  ∀ other : Source, other.key ∈ keys → other.id ≠ source.id → Settled tables points other ∧
    (other.documentVersionId = source.documentVersionId → Faithful tables points other)

section Tables

variable {tables tables' : Tables} {points points' : List Point}

variable (h : OthersFine keys source tables points)
include h

theorem OthersFine.keep (hmarked : ∀ other : Source, other.key ∈ keys → other.id ≠ source.id →
      Marked tables' other → Marked tables other)
    (hfaithful : ∀ other : Source, other.key ∈ keys → other.id ≠ source.id →
      Faithful tables points other → Faithful tables' points' other) :
    OthersFine keys source tables' points' := fun other hother hid =>
  ⟨fun hmark => hfaithful other hother hid
      ((h other hother hid).1 (hmarked other hother hid hmark)),
    fun hsame => hfaithful other hother hid ((h other hother hid).2 hsame)⟩

theorem OthersFine.same (hsame : ∀ other : Source, other.key ∈ keys → other.id ≠ source.id →
      SameFor other tables tables') : OthersFine keys source tables' points :=
  h.keep (fun other hother hid => (hsame other hother hid).marked)
    fun other hother hid => (hsame other hother hid).faithful

/-- The version of the source is marked where all of its sources have their points. -/
theorem OthersFine.accord (hsource : Faithful tables points source)
    (hmarks : ∀ other : Source, Faithful tables points other → Faithful tables' points other)
    (hother : ∀ other : Source, other.key ∈ keys → other.id ≠ source.id →
      other.documentVersionId ≠ source.documentVersionId → SameFor other tables tables')
    (hkeyed : Keyed keys) (hkey : source.key ∈ keys) :
    Accord keys tables' points ∧ Faithful tables' points source ∧
      OthersFine keys source tables' points := by
  have hfine : OthersFine keys source tables' points := by
    intro other hin hid
    by_cases hversion : other.documentVersionId = source.documentVersionId
    · have hready := hmarks other ((h other hin hid).2 hversion)
      exact ⟨fun _ => hready, fun _ => hready⟩
    · exact ⟨(hother other hin hid hversion).settled (h other hin hid).1,
        fun hsame => absurd hsame hversion⟩
  exact ⟨accord_of_others hkeyed hkey (fun _ => hmarks source hsource)
    fun other hin hid => (hfine other hin hid).1, hmarks source hsource, hfine⟩

end Tables

/-- The worlds in which an attempt that goes through prepares its source. -/
structure World.Preparing (keys : List (Nat × Nat × Nat)) (source : Source) (replaces : Prop)
    (world : World) : Prop where
  formed : world.WellFormed keys
  others : OthersFine keys source world.session world.points
  noPoints : replaces → ∀ other : Source, other.key ∈ keys → other.id ≠ source.id →
    other.documentVersionId = source.documentVersionId →
      ∀ point ∈ world.points, point.knowledgeBaseId = other.knowledgeBaseId →
        point.sourceId ≠ other.id

variable {replaces : Prop}

theorem progressing_preparing :
    Progressing (World.Preparing keys source replaces) (fun _ => True) where
  polls _ polls h := ⟨closed_wellFormed.polls _ polls h.formed, h.others, h.noPoints⟩
  commit _ h := ⟨closed_wellFormed.commit _ h.formed, h.others, h.noPoints⟩
  rollback _ _ := trivial
  stops _ _ := trivial

theorem World.Preparing.replaceChunks (h : world.Preparing keys source replaces)
    (hreplaces : replaces) (hkeyed : Keyed keys) (parts : List DocumentChunk) :
    (world.edit fun tables => tables.replaceChunks source.documentVersionId parts).Preparing
      keys source replaces where
  formed := h.formed.replaceChunks _ parts
  others other hother hid := by
    by_cases hsame : other.documentVersionId = source.documentVersionId
    · have hrows := (replaceChunks_bare h.formed.session hkeyed hother parts).1
      rw [hsame] at hrows
      have hnone : Faithful (world.session.replaceChunks source.documentVersionId parts)
          world.points other :=
        faithful_of_none hrows (h.noPoints hreplaces other hother hid hsame)
      exact ⟨fun _ => hnone, fun _ => hnone⟩
    · exact ⟨(sameFor_replaceChunks h.formed.session hkeyed hother hsame parts).settled
        (h.others other hother hid).1, fun hversion => absurd hversion hsame⟩
  noPoints := h.noPoints

/-- The worlds that agree are those in which such an attempt begins. -/
theorem preparing_of_good (h : world.Good keys) (hothers : OthersReady source attempt world) :
    world.Preparing keys source (Replaces source attempt world) := by
  have hfound : ∀ other : Source, other.key ∈ keys →
      ∃ other' ∈ world.session.sources, other'.key = other.key := by
    intro other hother
    rw [← h.formed.session.sources] at hother
    exact List.mem_map.mp hother
  refine ⟨h.formed, fun other hother hid => ⟨h.session other hother, fun hversion => ?_⟩,
    fun hreplaces other hother hid hversion => ?_⟩
  · obtain ⟨other', hin, hkey⟩ := hfound other hother
    obtain ⟨hid', hpair⟩ := Prod.mk.inj hkey
    exact faithful_of_key hkey (hothers other' hin (hid'.symm ▸ hid)
      ((Prod.mk.inj hpair).2.trans hversion)).1
  · obtain ⟨other', hin, hkey⟩ := hfound other hother
    obtain ⟨hid', hpair⟩ := Prod.mk.inj hkey
    obtain ⟨hbase, hversion'⟩ := Prod.mk.inj hpair
    rw [← hbase, ← hid']
    exact (hothers other' hin (hid'.symm ▸ hid) (hversion'.trans hversion)).2 hreplaces

def World.marked (source : Source) (world : World) : World :=
  (world.written py source).edit fun tables => tables.markChunks source

/-- When the marks are made the session agrees with the points, and it does when the version is marked. -/
theorem marked_agrees {reached : World} (h : reached.Preparing keys source replaces)
    (hkeyed : Keyed keys)
    (hkey : source.key ∈ keys) :
    (reached.marked py source).WellFormed keys ∧
      Accord keys (reached.marked py source).session (reached.marked py source).points ∧
      Accord keys ((reached.marked py source).session.finish source)
        (reached.marked py source).points := by
  have hdeleted := h.formed.deletePoints source
  obtain ⟨-, hwrote⟩ := writeRows_spec py h.formed.session hkeyed hkey
  have hrows := hdeleted.writeRows py hkeyed hkey
  have hwritten := hrows.upsertPoints hkeyed hkey
  have hgone : ∀ point ∈ deletePoints source reached.points,
      point.knowledgeBaseId = source.knowledgeBaseId → point.sourceId ≠ source.id := by
    intro point hpoint hbase hof
    have hkept := (List.mem_filter.mp hpoint).2
    rw [hbase, hof, decide_eq_true rfl, decide_eq_true rfl] at hkept
    cases hkept
  have hsource := faithful_upsertPoints hrows.session hkeyed hkey hgone
  have hothers : OthersFine keys source (reached.session.writeRows py source)
      (reached.written py source).points := by
    have hleft : OthersFine keys source reached.session (deletePoints source reached.points) :=
      h.others.keep (fun other _ _ hmarked => hmarked) fun other _ hid hfaithful =>
        hfaithful.deletePoints h.formed.session hid
    refine (hleft.same fun other _ hid => hwrote.sameFor hid).keep
      (fun other _ _ hmarked => hmarked) ?_
    intro other hother hid hfaithful
    refine hfaithful.upsertPoints source (fun point hpoint => ?_)
      (fun point hpoint row hrow hsame => ?_) hid
    · obtain ⟨-, -, -, -, -, -, hof, -⟩ := row_of_pointsOf hrows.session hkeyed hkey hpoint
      exact hof
    · obtain ⟨row', hrow', hid', hof', -⟩ := row_of_pointsOf hrows.session hkeyed hkey hpoint
      have hone := List.inj_on_of_nodup_map hrows.session.rowIds hrow' hrow (hid'.trans hsame)
      exact hone ▸ hof'
  obtain ⟨haccord, hsource', hothers'⟩ := hothers.accord hsource
    (fun other hfaithful => hfaithful.markChunks source)
    (fun other hother hid hversion =>
      sameFor_markChunks hwritten.session hkeyed hkey hversion hid) hkeyed hkey
  exact ⟨hwritten.markChunks source, haccord,
    (hothers'.accord hsource' (fun other hfaithful => hfaithful.finish source)
      (fun other _ _ hversion => sameFor_finish hversion) hkeyed hkey).1⟩

/-- The checkpoint after the marks is made, unless the cancellation was seen before. -/
theorem saveProgress_kept (h : world.polls ≠ some 1) :
    (∃ polls, saveProgress world = ({ world.commit with polls }, .returned)) ∨
      world.polls = some 0 ∧ saveProgress world = (world, .returned) := by
  unfold saveProgress World.updateJobProgress World.commitCheckpoint World.poll
  match hpolls : world.polls with
  | none => exact .inl ⟨none, by simp only [World.commit, hpolls]⟩
  | some 0 => exact .inr ⟨rfl, rfl⟩
  | some 1 => exact absurd hpolls h
  | some 2 => exact .inl ⟨some 0, rfl⟩
  | some (polls + 3) => exact .inl ⟨some polls, rfl⟩

theorem leaves_of_goesThrough (h : world.Good keys) (hkeyed : Keyed keys) (hkey : source.key ∈ keys)
    (hthrough : GoesThrough source attempt world) (hcareful : Careful source attempt world) :
    Leaves keys (indexLoadedSource py source attempt world).2
      (indexLoadedSource py source attempt world).1 := by
  have hbegun := preparing_of_good h (hcareful.through hthrough)
  have hopen : (openSource source world).1.Preparing keys source
      (Replaces source attempt world) := by
    unfold openSource
    split
    · exact ⟨h.formed.setStatus source.id .processing,
        hbegun.others.same fun other _ _ => ⟨fun _ _ => Iff.rfl, fun _ _ => Iff.rfl,
          fun _ _ => Iff.rfl⟩, hbegun.noPoints⟩
    · exact hbegun
  have hprepared := (prepareSource_leads progressing_preparing source attempt
    ⟨trivial, fun _ => hopen⟩ fun hreplaces next parts _ hnext =>
      hnext.replaceChunks hreplaces hkeyed parts).2 hthrough.1
  obtain ⟨hreturned, hfault, hpolls⟩ := hthrough
  have hclass := hcareful.classification
  unfold indexLoadedSource
  rw [Action.seq_append]
  match hended : Action.seq (prepareSource source attempt) world with
  | (next, .raised) | (next, .broken) =>
    rw [hended] at hreturned
    cases hreturned
  | (reached, .returned) =>
    rw [hended] at hprepared hpolls hclass
    have hwrites : attempt.Writes := hfault.imp id .inr
    have hfulltext : attempt.fault ≠ some .fulltext := by
      rcases hfault with hnone | hsome
      · rw [hnone]
        exact fun hsame => by cases hsame
      · rw [hsome]
        exact fun hsame => by cases hsame
    obtain ⟨hformed, haccord, hfinished⟩ := marked_agrees py hprepared hkeyed hkey
    dsimp only
    rw [seq_writeSource, seq_pointActions py hwrites]
    dsimp only
    have hmade : markIndexed source attempt (reached.written py source) =
        (reached.marked py source, .returned) := by
      unfold markIndexed
      rw [if_neg hfulltext]
      rfl
    rw [Action.seq, hmade]
    dsimp only
    rw [Action.seq]
    have hmarks : (reached.marked py source).polls ≠ some 1 := hpolls
    rcases saveProgress_kept hmarks with ⟨polls, hsaved⟩ | ⟨hseen, hsaved⟩
    · rw [hsaved]
      have hdone : ({ (reached.marked py source).commit with polls }.edit fun tables =>
          tables.finish source).Good keys :=
        ⟨(closed_wellFormed.polls _ polls (closed_wellFormed.commit _ hformed)).finish source,
          hfinished, haccord⟩
      dsimp only
      rw [Action.seq]
      unfold finishSource
      by_cases hclassified : attempt.fault = some .classification
      · rw [if_pos hclassified]
        exact hdone.leaves .raised
      · rw [if_neg hclassified]
        exact hdone.leaves .returned
    · rw [hsaved]
      dsimp only
      rw [Action.seq]
      unfold finishSource
      rw [if_neg fun hsome => hclass hsome hseen]
      exact ⟨hformed.finish source, hfinished, fun hpolls => absurd hseen hpolls⟩

theorem leaves_of_careful (h : world.Good keys) (hkeyed : Keyed keys) (hkey : source.key ∈ keys)
    (hcareful : Careful source attempt world) :
    Leaves keys (indexLoadedSource py source attempt world).2
      (indexLoadedSource py source attempt world).1 := by
  by_cases hthrough : GoesThrough source attempt world
  · exact leaves_of_goesThrough py h hkeyed hkey hthrough hcareful
  · rcases hcareful.short hthrough with hkeeps | ⟨hsession, hsaved⟩
    · exact leaves_of_keepsPoints py h hkeeps
    · exact leaves_of_bare py ⟨h, hsession, hsaved⟩ hkeyed hkey hthrough

theorem keeps_good (keys : List (Nat × Nat × Nat)) (knowledgeBaseId : Nat) :
    Keeps knowledgeBaseId (Leaves keys) (World.Good keys) := by
  refine closed_good.keeps (fun world h => h.restoreSources knowledgeBaseId)
    (fun world sourceId status _ h => h.setStatus sourceId status) (fun ended _ h => h.leaves ended)
    (fun _ h => h) fun world h => ?_
  obtain ⟨hformed, hsession, hsaved⟩ := h
  by_cases hpolls : world.polls = some 0
  · have hseen : world.updateJobProgress = (world, .returned, false) := by
      unfold World.updateJobProgress World.poll
      rw [hpolls]
    rw [hseen]
    exact ⟨⟨hformed, hsession, hsaved⟩, fun hgo => by cases hgo⟩
  · have hgood := closed_good.updateJobProgress ⟨hformed, hsession, hsaved hpolls⟩
    exact ⟨hgood.leaves _, fun _ => hgood⟩

/-- A job keeps what is committed in agreement with the points when its run leaves it so. -/
theorem good_runJob (knowledgeBaseId : Nat) (job : Job) {run : Action}
    (hrun : Leaves keys (run (world.begun job)).2 (run (world.begun job)).1)
    (hends : job.endFails = true → (run (world.begun job)).1.polls ≠ some 0) :
    (world.runJob knowledgeBaseId job run).WellFormed keys ∧
      Accord keys (world.runJob knowledgeBaseId job run).saved
        (world.runJob knowledgeBaseId job run).points := by
  have habort : ∀ world : World, world.WellFormed keys → Accord keys world.saved world.points →
      (World.runJob.abort knowledgeBaseId world).WellFormed keys ∧
        Accord keys (World.runJob.abort knowledgeBaseId world).saved
          (World.runJob.abort knowledgeBaseId world).points := by
    intro world hformed hsaved
    have hback : world.rollback.Good keys :=
      ⟨closed_wellFormed.rollback _ hformed, accord_congr hsaved rfl rfl, hsaved⟩
    have hpoll := closed_good.poll hback
    unfold World.runJob.abort
    dsimp only
    match hpolled : world.rollback.poll with
    | (next, true) =>
      rw [hpolled] at hpoll
      exact ⟨hpoll.formed, hpoll.saved⟩
    | (next, false) =>
      rw [hpolled] at hpoll
      have hdone := closed_good.commit _ (hpoll.restoreSources knowledgeBaseId)
      exact ⟨hdone.formed, hdone.saved⟩
  unfold World.begun at hrun hends
  unfold World.runJob
  match hended : run { world.rollback with polls := job.cancelledAfter } with
  | (next, .returned) =>
    rw [hended] at hrun hends
    obtain ⟨hformed, hsession, hsaved⟩ := hrun
    dsimp only
    split
    · next hfails => exact habort next hformed (hsaved (hends hfails))
    · exact ⟨closed_wellFormed.commit next hformed, hsession⟩
  | (next, .raised) =>
    rw [hended] at hrun
    exact habort next hrun.formed hrun.saved
  | (next, .broken) =>
    rw [hended] at hrun
    exact habort next hrun.1 hrun.2

theorem good_step (hkeyed : Keyed keys)
    (run : JobRun) (h : world.WellFormed keys ∧ Accord keys world.saved world.points)
    (hmeets : JobMeets py run world) :
    (world.step py run).WellFormed keys ∧
      Accord keys (world.step py run).saved (world.step py run).points := by
  have hbegun : ∀ job : Job, (world.begun job).Good keys := fun job =>
    closed_good.polls _ job.cancelledAfter
      ⟨closed_wellFormed.rollback _ h.1, accord_congr h.2 rfl rfl, h.2⟩
  have hin : ∀ world : World, world.Good keys → ∀ source ∈ world.session.sources,
      source.key ∈ keys := fun world hgood source hsource =>
    hgood.formed.session.sources ▸ List.mem_map_of_mem hsource
  cases run with
  | knowledgeBase knowledgeBaseId job =>
    exact good_runJob knowledgeBaseId job
      (indexKnowledgeBase_keeps (keeps_good keys knowledgeBaseId) hin
        (fun source attempt world hkey hgood hcareful =>
          leaves_of_careful py hgood hkeyed hkey hcareful)
        hmeets.1 (hbegun job)) hmeets.2
  | source knowledgeBaseId sourceId job =>
    exact good_runJob knowledgeBaseId job
      (indexSource_keeps (keeps_good keys knowledgeBaseId) hin
        (fun source attempt world hkey hgood hcareful =>
          leaves_of_careful py hgood hkeyed hkey hcareful)
        hmeets.1 (hbegun job)) hmeets.2

end Worlds

/-- Tables of which nothing is indexed, with the constraints that they keep. -/
structure Tables.Unindexed (tables : Tables) : Prop where
  rows : tables.search.kbChunks = []
  sources : (tables.sources.map (·.id)).Nodup
  versions :
    (tables.sources.map fun source => (source.knowledgeBaseId, source.documentVersionId)).Nodup
  chunkIds : (tables.search.documentChunks.map (·.id)).Nodup
  fresh : ∀ chunk ∈ tables.search.documentChunks, chunk.id < tables.nextId

def World.fresh (tables : Tables) : World := { session := tables, saved := tables, points := [] }

/-- In every run of jobs that meet the condition, the vector index agrees with the database. -/
theorem run_agrees (py : Py.Reading) {tables : Tables} (hstart : tables.Unindexed)
    {runs : List JobRun}
    (hmeets : Guarded (World.step py) (JobMeets py) runs (World.fresh tables)) :
    Agrees (runs.foldl (World.step py) (World.fresh tables)).saved
      (runs.foldl (World.step py) (World.fresh tables)).points := by
  have hnone : ∀ row, row ∉ tables.search.kbChunks := by
    intro row hrow
    rw [hstart.rows] at hrow
    cases hrow
  have hformed : Formed (tables.sources.map Source.key) tables.nextId tables [] :=
    { sources := rfl
      chunkIds := hstart.chunkIds
      rowIds := hstart.rows ▸ List.nodup_nil
      rowChunks := hstart.rows ▸ List.nodup_nil
      rowSource := fun row hrow => absurd hrow (hnone row)
      freshChunks := hstart.fresh
      freshRows := fun row hrow => absurd hrow (hnone row)
      freshPoints := fun point hpoint => absurd hpoint List.not_mem_nil
      pointIds := List.nodup_nil
      pointRow := fun point hpoint => absurd hpoint List.not_mem_nil }
  have haccord : Accord (tables.sources.map Source.key) tables [] := fun source _ _ =>
    faithful_of_none (fun row hrow => absurd hrow (hnone row))
      fun point hpoint => absurd hpoint List.not_mem_nil
  have hkeyed : Keyed (tables.sources.map Source.key) :=
    ⟨by rw [List.map_map]; exact hstart.sources, by rw [List.map_map]; exact hstart.versions⟩
  have hrun := hmeets.invariant
    (fun run world h hrun => good_step py hkeyed run h hrun)
    (show (World.fresh tables).WellFormed (tables.sources.map Source.key) ∧
      Accord (tables.sources.map Source.key) (World.fresh tables).saved (World.fresh tables).points
      from ⟨⟨hformed, hformed, hformed.places⟩, haccord⟩)
  exact (accord_iff hrun.1.saved.sources).mp hrun.2

def orderSource : Source := ⟨1, 1, 1, 1, .draft⟩

theorem unindexed_orderTables : orderTables.Unindexed where
  rows := rfl
  sources := by decide
  versions := by decide
  chunkIds := by decide
  fresh := by decide

theorem careful_orderSource :
    Careful orderSource {} (World.fresh orderTables) where
  through _ other hother hid := by
    obtain rfl := List.mem_singleton.mp hother
    exact absurd rfl hid
  short hshort := by
    refine absurd ⟨?_, .inl rfl, ?_⟩ hshort
    · decide +kernel
    · decide +kernel
  classification hfault := by cases hfault

theorem run_agrees_smooth :
    Agrees ([.source 1 1 smoothJob].foldl (World.step smallIds.py) (World.fresh orderTables)).saved
      ([.source 1 1 smoothJob].foldl (World.step smallIds.py) (World.fresh orderTables)).points := by
  refine run_agrees smallIds.py unindexed_orderTables
    ⟨⟨fun source start hstart => ?_, fun hfails => by cases hfails⟩, trivial⟩
  have hsource : attemptStart 1 smoothJob 1 ((World.fresh orderTables).begun smoothJob) =
      some (orderSource, World.fresh orderTables) := rfl
  rw [hsource] at hstart
  cases hstart
  exact careful_orderSource

def embeddingJob : Job := { attempt := fun _ => { fault := some .embeddings } }

/-- The source is indexed, and indexed again without the embeddings. -/
def reindexed : World :=
  [.source 1 1 smoothJob, .source 1 1 embeddingJob].foldl (World.step smallIds.py)
    (World.fresh orderTables)

theorem agrees_reindexed_fails : ¬ Agrees reindexed.saved reindexed.points := by
  intro h
  have hmarked : (reindexed.saved.search.kbChunks.any fun row =>
      row.sourceId = 1 && row.embeddingStatus = "indexed" && !row.isExcludedFromSearch) = true := by
    decide +kernel
  have hpoints : reindexed.points.length = 0 := by decide +kernel
  have hthere : (reindexed.saved.sources.any fun source => source.id = 1) = true := by
    decide +kernel
  obtain ⟨source, hsource, hid⟩ := List.any_eq_true.mp hthere
  obtain ⟨row, hrow, hflags⟩ := List.any_eq_true.mp hmarked
  simp only [Bool.and_eq_true, decide_eq_true_eq, Bool.not_eq_true'] at hid hflags
  obtain ⟨⟨hof, hstatus⟩, hflag⟩ := hflags
  have hone := (h source hsource (.inr (.inr ⟨row, hrow, hof.trans hid.symm, hstatus⟩))).onePoint
    row hrow (hof.trans hid.symm) hflag
  rw [List.length_eq_zero_iff.mp hpoints] at hone
  cases hone

end AgentBack.Knowledge
