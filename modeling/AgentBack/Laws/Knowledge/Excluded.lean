import AgentBack.Base.Guarded
import AgentBack.Laws.Knowledge.Indexing
import AgentBack.Laws.Knowledge.Search

/-!
# What is excluded from a knowledge base

Users exclude fragments and sources, restore fragments and remove sources, and jobs index. A search
looks at the flag of the row alone: a source that is excluded stays in the search unless its rows are
flagged, and a job that finds a flagged row for a fragment of its source takes the flag away.
`run_staysExcluded` says that without these two what is excluded stays out of every search.
-/

namespace AgentBack.Knowledge

inductive Op where
  | excludeChunk (knowledgeBaseId kbChunkId : Nat) (isExcluded : Bool)
  | excludeSource (knowledgeBaseId sourceId : Nat)
  | removeSource (knowledgeBaseId sourceId : Nat)
  | indexKnowledgeBase (knowledgeBaseId : Nat) (job : Job)
  | indexSource (knowledgeBaseId sourceId : Nat) (job : Job)

/-- The world, and the rows that a user excluded and none has restored since. -/
structure Watched where
  world : World
  excluded : List Nat

def World.decided (world : World) (f : Tables → Tables) : World := (world.rollback.edit f).commit

def Watched.step (py : Py.Reading) (watched : Watched) : Op → Watched
  | .excludeChunk knowledgeBaseId kbChunkId isExcluded =>
    if (watched.world.saved.kbChunk? knowledgeBaseId kbChunkId).isSome then
      { world := watched.world.decided fun tables =>
          tables.excludeChunk knowledgeBaseId kbChunkId isExcluded
        excluded :=
          if isExcluded then kbChunkId :: watched.excluded
          else watched.excluded.filter fun id => id ≠ kbChunkId }
    else watched
  | .excludeSource knowledgeBaseId sourceId =>
    { watched with
      world := watched.world.decided fun tables => tables.excludeSource knowledgeBaseId sourceId }
  | .removeSource knowledgeBaseId sourceId =>
    { watched with
      world := watched.world.decided fun tables => tables.removeSource knowledgeBaseId sourceId }
  | .indexKnowledgeBase knowledgeBaseId job =>
    { watched with
      world := watched.world.runJob knowledgeBaseId job (indexKnowledgeBase py knowledgeBaseId job) }
  | .indexSource knowledgeBaseId sourceId job =>
    { watched with
      world := watched.world.runJob knowledgeBaseId job
        (indexSource py knowledgeBaseId sourceId job) }

def Watched.fresh (tables : Tables) : Watched :=
  { world := { session := tables, saved := tables, points := [] }, excluded := [] }

/-- **Excluded stays excluded**: the rows that a user excluded are flagged, and no search returns one of
them, one that is flagged, or one whose source is excluded or removed. -/
structure StaysExcluded (watched : Watched) : Prop where
  rows : ∀ row ∈ watched.world.saved.search.kbChunks, row.id ∈ watched.excluded →
    row.isExcludedFromSearch = true
  searches : ∀ env request retrieved response,
    search env watched.world.saved.search request retrieved = some response →
      ∀ hit ∈ response.hits, hit.knowledgeBaseChunkId ∉ watched.excluded ∧
        ∃ row ∈ watched.world.saved.search.kbChunks, row.id = hit.knowledgeBaseChunkId ∧
          row.isExcludedFromSearch = false ∧
          ∃ source ∈ watched.world.saved.sources, source.id = row.sourceId ∧
            source.processingStatus ≠ .excluded

/-- An attempt that gets to the rows finds none flagged for the fragments of its source. -/
def SparesExcluded (source : Source) (attempt : Attempt) (world : World) : Prop :=
  ∀ reached, Action.seq (prepareSource source attempt ++ [deleteOldPoints source attempt]) world =
      (reached, .returned) →
    ∀ chunk ∈ reached.session.loadDocumentChunks source.documentVersionId,
      ∀ row ∈ reached.session.search.kbChunks, row.knowledgeBaseId = source.knowledgeBaseId →
        row.documentChunkId = chunk.id → row.isExcludedFromSearch = false

/-- A fragment is restored only where its source is not excluded, a source is excluded only where its
rows are flagged, and the attempts of jobs spare what is excluded. -/
def OpMeets (py : Py.Reading) : Op → Watched → Prop
  | .excludeChunk _ kbChunkId isExcluded, watched =>
    isExcluded = false → ∀ row ∈ watched.world.saved.search.kbChunks, row.id = kbChunkId →
      ∀ source ∈ watched.world.saved.sources, source.id = row.sourceId →
        source.processingStatus ≠ .excluded
  | .excludeSource knowledgeBaseId sourceId, watched =>
    (watched.world.saved.source? knowledgeBaseId sourceId).isSome = true →
      ∀ row ∈ watched.world.saved.search.kbChunks, row.sourceId = sourceId →
        row.isExcludedFromSearch = true
  | .removeSource _ _, _ => True
  | .indexKnowledgeBase knowledgeBaseId job, watched =>
    ∀ sources start, loopStart knowledgeBaseId job
        { watched.world.rollback with polls := job.cancelledAfter } = some (sources, start) →
      AttemptsMeet py knowledgeBaseId job SparesExcluded sources start
  | .indexSource knowledgeBaseId sourceId job, watched =>
    ∀ source start, attemptStart knowledgeBaseId job sourceId
        { watched.world.rollback with polls := job.cancelledAfter } = some (source, start) →
      SparesExcluded source (job.attempt sourceId) start

/-! ## The invariant -/

/-- What tables keep: excluded rows are flagged, a row has a source, and where that is excluded the row
is flagged. -/
structure Tables.Sound (excluded : List Nat) (tables : Tables) : Prop where
  rows : ∀ row ∈ tables.search.kbChunks, row.id ∈ excluded → row.isExcludedFromSearch = true
  sources : ∀ row ∈ tables.search.kbChunks, ∃ source ∈ tables.sources, source.id = row.sourceId ∧
    (source.processingStatus = .excluded → row.isExcludedFromSearch = true)
  fresh : ∀ row ∈ tables.search.kbChunks, row.id < tables.nextId
  old : ∀ id ∈ excluded, id < tables.nextId

/-- What the worlds of a job keep: both states of the tables are sound, and have the same sources. -/
structure World.Sound (excluded ids : List Nat) (world : World) : Prop where
  session : world.session.Sound excluded
  saved : world.saved.Sound excluded
  sessionIds : world.session.sources.map Source.id = ids
  savedIds : world.saved.sources.map Source.id = ids
  le : world.saved.nextId ≤ world.session.nextId

section Tables

variable {excluded : List Nat} {tables : Tables}

section

variable (h : tables.Sound excluded)
include h

/-- Other rows of no new ids, and other statuses. -/
theorem Tables.Sound.mapSources {f : Source → Source} (hid : ∀ source, (f source).id = source.id)
    (hstatus : ∀ source ∈ tables.sources, (f source).processingStatus = .excluded →
      source.processingStatus = .excluded) : (tables.mapSources f).Sound excluded where
  rows := h.rows
  sources row hrow := by
    obtain ⟨source, hsource, hsame, hflag⟩ := h.sources row hrow
    exact ⟨f source, List.mem_map.mpr ⟨source, hsource, rfl⟩, (hid source).trans hsame,
      fun hexcluded => hflag (hstatus source hsource hexcluded)⟩
  fresh := h.fresh
  old := h.old

theorem Tables.Sound.setStatus (sourceId : Nat) {status : SourceStatus}
    (hstatus : status ≠ .excluded) : (tables.setStatus sourceId status).Sound excluded := by
  refine h.mapSources (fun source => ?_) fun source _ hexcluded => ?_
  · split <;> rfl
  · split at hexcluded
    · exact absurd hexcluded hstatus
    · exact hexcluded

theorem Tables.Sound.restoreSources (knowledgeBaseId : Nat) :
    (tables.restoreSources knowledgeBaseId).Sound excluded := by
  refine h.mapSources (fun source => ?_) fun source _ hexcluded => ?_
  · split <;> rfl
  · split at hexcluded
    · cases hexcluded
    · exact hexcluded

theorem Tables.Sound.filterRows {rows : List KbChunk}
    (hrows : ∀ row ∈ rows, row ∈ tables.search.kbChunks) {chunks : List DocumentChunk}
    {nextId : Nat} (hnext : tables.nextId ≤ nextId) : Tables.Sound excluded
      { tables with
        search := { tables.search with documentChunks := chunks, kbChunks := rows }
        nextId := nextId } where
  rows row hrow := h.rows row (hrows row hrow)
  sources row hrow := h.sources row (hrows row hrow)
  fresh row hrow := (h.fresh row (hrows row hrow)).trans_le hnext
  old id hid := (h.old id hid).trans_le hnext

theorem Tables.Sound.replaceChunks (documentVersionId : Nat) (parts : List DocumentChunk) :
    (tables.replaceChunks documentVersionId parts).Sound excluded :=
  h.filterRows (fun _ hrow => List.mem_of_mem_filter hrow) (Nat.le_add_right _ _)

/-- The rows are changed, and none that is flagged loses its flag. -/
theorem Tables.Sound.mapRows {f : KbChunk → KbChunk} (hid : ∀ row, (f row).id = row.id)
    (hsource : ∀ row, (f row).sourceId = row.sourceId)
    (hflag : ∀ row ∈ tables.search.kbChunks, row.isExcludedFromSearch = true →
      (f row).isExcludedFromSearch = true) : (tables.mapRows f).Sound excluded where
  rows row hrow hin := by
    obtain ⟨old, hold, rfl⟩ := List.mem_map.mp hrow
    exact hflag old hold (h.rows old hold (hid old ▸ hin))
  sources row hrow := by
    obtain ⟨old, hold, rfl⟩ := List.mem_map.mp hrow
    obtain ⟨source, hfound, hsame, hexcluded⟩ := h.sources old hold
    exact ⟨source, hfound, hsame.trans (hsource old).symm,
      fun hstatus => hflag old hold (hexcluded hstatus)⟩
  fresh row hrow := by
    obtain ⟨old, hold, rfl⟩ := List.mem_map.mp hrow
    rw [hid]
    exact h.fresh old hold
  old := h.old

end

/-- The source of new rows is not excluded. -/
def Tables.InWork (source : Source) (tables : Tables) : Prop :=
  ∃ other ∈ tables.sources, other.id = source.id ∧ other.processingStatus ≠ .excluded

def Tables.Unflagged (source : Source) (chunk : DocumentChunk) (tables : Tables) : Prop :=
  ∀ row ∈ tables.search.kbChunks, row.knowledgeBaseId = source.knowledgeBaseId →
    row.documentChunkId = chunk.id → row.isExcludedFromSearch = false

variable (py : Py.Reading) {source : Source}

theorem Tables.Sound.writeRow (h : tables.Sound excluded) (hwork : tables.InWork source)
    {chunk : DocumentChunk} (hflags : tables.Unflagged source chunk) :
    (tables.writeRow py source chunk).Sound excluded := by
  unfold Tables.writeRow
  split
  · refine h.mapRows (fun row => ?_) (fun row => ?_) fun row hrow hflag => ?_
    · split <;> rfl
    · split <;> rfl
    · split
      · next hsame =>
        have hnot := hflags row hrow hsame.1 hsame.2
        rw [hflag] at hnot
        cases hnot
      · exact hflag
  · constructor
    · intro row hrow hin
      rcases List.mem_append.mp hrow with hold | hnew
      · exact h.rows row hold hin
      · obtain rfl := List.mem_singleton.mp hnew
        exact absurd (h.old _ hin) (Nat.lt_irrefl _)
    · intro row hrow
      rcases List.mem_append.mp hrow with hold | hnew
      · exact h.sources row hold
      · obtain rfl := List.mem_singleton.mp hnew
        obtain ⟨other, hother, hsame, hstatus⟩ := hwork
        exact ⟨other, hother, hsame, fun hexcluded => absurd hexcluded hstatus⟩
    · intro row hrow
      rcases List.mem_append.mp hrow with hold | hnew
      · exact (h.fresh row hold).trans (Nat.lt_succ_self _)
      · obtain rfl := List.mem_singleton.mp hnew
        exact Nat.lt_succ_self _
    · exact fun id hid => (h.old id hid).trans (Nat.lt_succ_self _)

theorem sources_writeRow (chunk : DocumentChunk) :
    (tables.writeRow py source chunk).sources = tables.sources := by
  unfold Tables.writeRow
  split <;> rfl

/-- A row that is made or taken has no flag, for this fragment and for the others. -/
theorem Tables.Unflagged.writeRow {chunk other : DocumentChunk} (h : tables.Unflagged source other) :
    (tables.writeRow py source chunk).Unflagged source other := by
  intro row hrow hbase hchunk
  unfold Tables.writeRow at hrow
  split at hrow
  · obtain ⟨old, hold, rfl⟩ := List.mem_map.mp hrow
    split at hbase
    · next hsame => rw [if_pos hsame]
    · next hsame =>
      rw [if_neg hsame] at hchunk ⊢
      exact h old hold hbase hchunk
  · rcases List.mem_append.mp hrow with hold | hnew
    · exact h row hold hbase hchunk
    · obtain rfl := List.mem_singleton.mp hnew
      rfl

theorem Tables.Sound.writeRows (h : tables.Sound excluded) (hwork : tables.InWork source)
    (hflags : ∀ chunk ∈ tables.loadDocumentChunks source.documentVersionId,
      tables.Unflagged source chunk) : (tables.writeRows py source).Sound excluded := by
  unfold Tables.writeRows
  generalize tables.loadDocumentChunks source.documentVersionId = chunks at hflags
  induction chunks generalizing tables with
  | nil => exact h
  | cons chunk rest ih =>
    rw [List.foldl_cons]
    refine ih (h.writeRow py hwork (hflags chunk (.head _))) ?_ fun other hother =>
      (hflags other (List.mem_cons_of_mem chunk hother)).writeRow py
    unfold Tables.InWork
    rw [sources_writeRow]
    exact hwork

theorem sources_writeRows : (tables.writeRows py source).sources = tables.sources := by
  unfold Tables.writeRows
  generalize tables.loadDocumentChunks source.documentVersionId = chunks
  induction chunks generalizing tables with
  | nil => rfl
  | cons chunk rest ih =>
    rw [List.foldl_cons]
    exact ih.trans (sources_writeRow py chunk)

theorem nextId_writeRows : tables.nextId ≤ (tables.writeRows py source).nextId := by
  unfold Tables.writeRows
  generalize tables.loadDocumentChunks source.documentVersionId = chunks
  induction chunks generalizing tables with
  | nil => exact Nat.le_refl _
  | cons chunk rest ih =>
    rw [List.foldl_cons]
    refine Nat.le_trans ?_ ih
    unfold Tables.writeRow
    split
    · exact Nat.le_refl _
    · exact Nat.le_succ _

theorem Tables.Sound.markChunks (h : tables.Sound excluded) :
    (tables.markChunks source).Sound excluded := by
  unfold Tables.markChunks
  have hrows := h.mapRows
    (f := fun row => if row.knowledgeBaseId = source.knowledgeBaseId ∧ row.documentChunkId ∈
      (tables.loadDocumentChunks source.documentVersionId).map (·.id) then
        { row with embeddingStatus := "indexed" }
      else row) (fun row => by split <;> rfl) (fun row => by split <;> rfl)
    (fun row _ hflag => by split <;> exact hflag)
  exact ⟨hrows.rows, hrows.sources, hrows.fresh, hrows.old⟩

theorem Tables.Sound.finish (h : tables.Sound excluded) : (tables.finish source).Sound excluded := by
  have hready := h.setStatus source.id (show SourceStatus.ready ≠ .excluded by decide)
  exact ⟨hready.rows, hready.sources, hready.fresh, hready.old⟩

end Tables

/-! ## Worlds -/

section Worlds

variable {excluded ids : List Nat}

theorem closed_sound : SessionClosed (World.Sound excluded ids) where
  polls _ _ h := ⟨h.session, h.saved, h.sessionIds, h.savedIds, h.le⟩
  commit _ h := ⟨h.session, h.session, h.sessionIds, h.sessionIds, Nat.le_refl _⟩
  rollback _ h :=
    ⟨⟨h.saved.rows, h.saved.sources, fun row hrow => (h.saved.fresh row hrow).trans_le h.le,
      fun id hid => (h.saved.old id hid).trans_le h.le⟩, h.saved, h.savedIds, h.savedIds, h.le⟩

variable {world : World}

theorem World.Sound.edit (h : world.Sound excluded ids) {f : Tables → Tables}
    (hsound : (f world.session).Sound excluded)
    (hids : (f world.session).sources.map Source.id = world.session.sources.map Source.id)
    (hnext : world.session.nextId ≤ (f world.session).nextId) :
    (world.edit f).Sound excluded ids :=
  ⟨hsound, h.saved, hids.trans h.sessionIds, h.savedIds, h.le.trans hnext⟩

theorem ids_mapSources (tables : Tables) {f : Source → Source}
    (hid : ∀ source, (f source).id = source.id) :
    (tables.mapSources f).sources.map Source.id = tables.sources.map Source.id := by
  unfold Tables.mapSources
  rw [List.map_map]
  exact List.map_congr_left fun source _ => hid source

theorem ids_setStatus (tables : Tables) (sourceId : Nat) (status : SourceStatus) :
    (tables.setStatus sourceId status).sources.map Source.id = tables.sources.map Source.id :=
  ids_mapSources tables fun source => by split <;> rfl

theorem World.Sound.setStatus (h : world.Sound excluded ids) (sourceId : Nat)
    {status : SourceStatus} (hstatus : status ≠ .excluded) :
    (world.edit fun tables => tables.setStatus sourceId status).Sound excluded ids :=
  h.edit (h.session.setStatus sourceId hstatus) (ids_setStatus _ sourceId status) (Nat.le_refl _)

theorem World.Sound.restoreSources (h : world.Sound excluded ids) (knowledgeBaseId : Nat) :
    (world.edit fun tables => tables.restoreSources knowledgeBaseId).Sound excluded ids :=
  h.edit (h.session.restoreSources knowledgeBaseId)
    (ids_mapSources _ fun source => by split <;> rfl) (Nat.le_refl _)

theorem keeps_sound (knowledgeBaseId : Nat) :
    Keeps knowledgeBaseId (fun _ => World.Sound excluded ids) (World.Sound excluded ids) := by
  refine closed_sound.keeps (fun world h => h.restoreSources knowledgeBaseId)
    (fun world sourceId status hstatus h => h.setStatus sourceId ?_) (fun _ _ h => h) (fun _ h => h)
    fun world h => ⟨closed_sound.updateJobProgress h, fun _ => closed_sound.updateJobProgress h⟩
  rcases hstatus with rfl | rfl <;> decide

variable {source : Source}

def World.Working (excluded ids : List Nat) (source : Source) (world : World) : Prop :=
  world.Sound excluded ids ∧ world.session.InWork source

theorem progressing_working :
    Progressing (World.Working excluded ids source) (World.Sound excluded ids) where
  polls _ _ h := ⟨closed_sound.polls _ _ h.1, h.2⟩
  commit _ h := ⟨closed_sound.commit _ h.1, h.2⟩
  rollback _ h := closed_sound.rollback _ h.1
  stops _ h := h.1

theorem World.Sound.withPoints (h : world.Sound excluded ids)
    (points : List Point) : World.Sound excluded ids { world with points } :=
  ⟨h.session, h.saved, h.sessionIds, h.savedIds, h.le⟩

theorem openSource_working (h : world.Sound excluded ids) (hid : source.id ∈ ids) :
    (openSource source world).1.Sound excluded ids ∧
      ((openSource source world).2 = .returned →
        (openSource source world).1.Working excluded ids source) := by
  unfold openSource
  split
  · have hsound := h.setStatus source.id (show SourceStatus.processing ≠ .excluded by decide)
    refine ⟨hsound, fun _ => ⟨hsound, ?_⟩⟩
    rw [← h.sessionIds] at hid
    obtain ⟨other, hother, hsame⟩ := List.mem_map.mp hid
    refine ⟨{ other with processingStatus := .processing }, ?_, hsame, fun hstatus => by cases hstatus⟩
    exact List.mem_map.mpr ⟨other, hother, if_pos hsame⟩
  · exact ⟨h, fun hended => by cases hended⟩

variable (py : Py.Reading)

/-- An attempt that spares what is excluded keeps the worlds sound. -/
theorem indexLoadedSource_sound {attempt : Attempt} (hid : source.id ∈ ids)
    (h : world.Sound excluded ids) (hspares : SparesExcluded source attempt world) :
    (indexLoadedSource py source attempt world).1.Sound excluded ids := by
  have hsplit : prepareSource source attempt ++ writeSource py source attempt =
      (prepareSource source attempt ++ [deleteOldPoints source attempt]) ++
        [makeRows py source attempt, embedTexts attempt, writePoints source attempt,
          markIndexed source attempt, saveProgress, finishSource source attempt] := rfl
  have hprepared : (Action.seq (prepareSource source attempt) world).1.Sound excluded ids ∧
      ((Action.seq (prepareSource source attempt) world).2 = .returned →
        (Action.seq (prepareSource source attempt) world).1.Working excluded ids source) :=
    prepareSource_leads progressing_working source attempt (openSource_working h hid) fun _ next parts _ hnext =>
      ⟨hnext.1.edit (hnext.1.session.replaceChunks source.documentVersionId parts) rfl
        (Nat.le_add_right _ _), hnext.2⟩
  have hfirst : (Action.seq (prepareSource source attempt ++ [deleteOldPoints source attempt])
        world).1.Sound excluded ids ∧
      ((Action.seq (prepareSource source attempt ++ [deleteOldPoints source attempt])
        world).2 = .returned → (Action.seq (prepareSource source attempt ++
          [deleteOldPoints source attempt]) world).1.session.InWork source) := by
    rw [Action.seq_append]
    match hended : Action.seq (prepareSource source attempt) world with
    | (next, .raised) | (next, .broken) =>
      rw [hended] at hprepared
      exact ⟨hprepared.1, fun hended => by cases hended⟩
    | (next, .returned) =>
      rw [hended] at hprepared
      have hleads : Leads (World.Working excluded ids source) (World.Sound excluded ids)
          (Action.seq [deleteOldPoints source attempt]) := by
        refine leads_seq progressing_working fun action haction => ?_
        obtain rfl := List.mem_singleton.mp haction
        exact leads_changePoints progressing_working fun other hother =>
          ⟨hother.1.withPoints _, hother.2⟩
      have hdeleted := hleads next (hprepared.2 rfl)
      exact ⟨hdeleted.1, fun hended => (hdeleted.2 hended).2⟩
  unfold indexLoadedSource
  rw [hsplit, Action.seq_append]
  match hreached : Action.seq (prepareSource source attempt ++ [deleteOldPoints source attempt])
      world with
  | (reached, .raised) | (reached, .broken) =>
    rw [hreached] at hfirst
    exact hfirst.1
  | (reached, .returned) =>
    rw [hreached] at hfirst
    have hrows : (makeRows py source attempt reached).1.Sound excluded ids := by
      refine hfirst.1.edit (hfirst.1.session.writeRows py (hfirst.2 rfl) ?_) ?_
        (nextId_writeRows py)
      · exact fun chunk hchunk row hrow => hspares reached hreached chunk hchunk row hrow
      · rw [sources_writeRows]
    have hrest : ∀ action ∈ [embedTexts attempt, writePoints source attempt,
        markIndexed source attempt, saveProgress, finishSource source attempt],
        ∀ world, world.Sound excluded ids → (action world).1.Sound excluded ids := by
      intro action haction world hworld
      simp only [List.mem_cons, List.not_mem_nil, or_false] at haction
      rcases haction with rfl | rfl | rfl | rfl | rfl
      · exact hworld
      · exact (leads_changePoints closed_sound.progressing
          (fun other hother => hother.withPoints _) world hworld).1
      · exact hworld.edit hworld.session.markChunks rfl (Nat.le_refl _)
      · exact closed_sound.saveProgress hworld
      · exact hworld.edit hworld.session.finish (ids_setStatus _ source.id .ready) (Nat.le_refl _)
    dsimp only
    rw [Action.seq]
    rcases hmade : makeRows py source attempt reached with ⟨next, ended⟩
    rw [hmade] at hrows
    cases ended with
    | returned => exact Action.seq_keeps hrest hrows
    | raised | broken => exact hrows

end Worlds

/-! ## Runs -/

section Runs

variable (py : Py.Reading) {watched : Watched}

/-- What every history keeps: for the rows that users excluded, and some sources. -/
def Watched.Sound (watched : Watched) : Prop :=
  ∃ ids, watched.world.Sound watched.excluded ids

variable {excluded : List Nat} {tables : Tables}

theorem sound_decided {world : World} {f : Tables → Tables}
    (hsound : (f world.rollback.session).Sound excluded) :
    ∃ ids, (world.decided f).Sound excluded ids :=
  ⟨_, hsound, hsound, rfl, rfl, Nat.le_refl _⟩

/-- A job keeps the worlds sound when its run does. -/
theorem sound_runJob {ids : List Nat} {world : World} (knowledgeBaseId : Nat) (job : Job)
    {run : Action}
    (hrun : (run { world.rollback with polls := job.cancelledAfter }).1.Sound excluded ids) :
    (world.runJob knowledgeBaseId job run).Sound excluded ids := by
  have habort : ∀ world : World, world.Sound excluded ids →
      (World.runJob.abort knowledgeBaseId world).Sound excluded ids := by
    intro world hworld
    have hpoll := closed_sound.poll (closed_sound.rollback world hworld)
    unfold World.runJob.abort
    dsimp only
    match hpolled : world.rollback.poll with
    | (next, true) =>
      rw [hpolled] at hpoll
      exact hpoll
    | (next, false) =>
      rw [hpolled] at hpoll
      exact closed_sound.commit _ (hpoll.restoreSources knowledgeBaseId)
  unfold World.runJob
  match hended : run { world.rollback with polls := job.cancelledAfter } with
  | (next, .returned) =>
    rw [hended] at hrun
    dsimp only
    split
    · exact habort next hrun
    · exact closed_sound.commit next hrun
  | (next, .raised) | (next, .broken) =>
    rw [hended] at hrun
    exact habort next hrun

section

variable (h : tables.Sound excluded)
include h

theorem Tables.Sound.excludeChunk {knowledgeBaseId kbChunkId : Nat}
    (hthere : (tables.kbChunk? knowledgeBaseId kbChunkId).isSome = true) :
    (tables.excludeChunk knowledgeBaseId kbChunkId true).Sound (kbChunkId :: excluded) := by
  unfold Tables.excludeChunk
  rw [if_pos hthere]
  have hmapped := h.mapRows
    (f := fun row => if row.id = kbChunkId then { row with isExcludedFromSearch := true } else row)
    (fun row => by split <;> rfl) (fun row => by split <;> rfl)
    (fun row _ hflag => by split; exacts [rfl, hflag])
  refine ⟨fun row hrow hin => ?_, hmapped.sources, hmapped.fresh, fun id hid => ?_⟩
  · rcases List.mem_cons.mp hin with hsame | hold
    · obtain ⟨old, hold, rfl⟩ := List.mem_map.mp hrow
      by_cases hfound : old.id = kbChunkId
      · rw [if_pos hfound]
      · rw [if_neg hfound] at hsame
        exact absurd hsame hfound
    · exact hmapped.rows row hrow hold
  · rcases List.mem_cons.mp hid with rfl | hold
    · obtain ⟨row, hrow⟩ := Option.isSome_iff_exists.mp hthere
      unfold Tables.kbChunk? at hrow
      have hsame := List.find?_some hrow
      rw [Bool.and_eq_true, decide_eq_true_eq] at hsame
      exact hsame.1 ▸ h.fresh row (List.mem_of_find?_eq_some hrow)
    · exact h.old id hold

/-- A user restores a row, whose source is not excluded. -/
theorem Tables.Sound.restoreChunk (knowledgeBaseId : Nat) {kbChunkId : Nat}
    (hsource : ∀ row ∈ tables.search.kbChunks, row.id = kbChunkId → ∀ source ∈ tables.sources,
      source.id = row.sourceId → source.processingStatus ≠ .excluded) :
    (tables.excludeChunk knowledgeBaseId kbChunkId false).Sound
      (excluded.filter fun id => id ≠ kbChunkId) := by
  have hfewer : tables.Sound (excluded.filter fun id => id ≠ kbChunkId) :=
    ⟨fun row hrow hin => h.rows row hrow (List.mem_of_mem_filter hin), h.sources, h.fresh,
      fun id hid => h.old id (List.mem_of_mem_filter hid)⟩
  unfold Tables.excludeChunk
  split
  · constructor
    · intro row hrow hin
      obtain ⟨old, hold, rfl⟩ := List.mem_map.mp hrow
      by_cases hfound : old.id = kbChunkId
      · rw [if_pos hfound] at hin
        have hne := (List.mem_filter.mp hin).2
        rw [decide_eq_true_eq] at hne
        exact absurd hfound hne
      · rw [if_neg hfound] at hin ⊢
        exact hfewer.rows old hold hin
    · intro row hrow
      obtain ⟨old, hold, rfl⟩ := List.mem_map.mp hrow
      obtain ⟨source, hfound, hsame, hflag⟩ := h.sources old hold
      by_cases hkbChunk : old.id = kbChunkId
      · rw [if_pos hkbChunk]
        exact ⟨source, hfound, hsame, fun hstatus =>
          absurd hstatus (hsource old hold hkbChunk source hfound hsame)⟩
      · rw [if_neg hkbChunk]
        exact ⟨source, hfound, hsame, hflag⟩
    · intro row hrow
      obtain ⟨old, hold, rfl⟩ := List.mem_map.mp hrow
      have hid : (if old.id = kbChunkId then { old with isExcludedFromSearch := false } else old).id =
          old.id := by split <;> rfl
      rw [hid]
      exact h.fresh old hold
    · exact hfewer.old
  · exact hfewer

/-- A user excludes a source whose rows are flagged. -/
theorem Tables.Sound.excludeSource {knowledgeBaseId sourceId : Nat}
    (hflags : (tables.source? knowledgeBaseId sourceId).isSome = true →
      ∀ row ∈ tables.search.kbChunks, row.sourceId = sourceId → row.isExcludedFromSearch = true) :
    (tables.excludeSource knowledgeBaseId sourceId).Sound excluded := by
  unfold Tables.excludeSource
  split
  · next hthere =>
    refine ⟨h.rows, fun row hrow => ?_, h.fresh, h.old⟩
    obtain ⟨source, hsource, hsame, hflag⟩ := h.sources row hrow
    refine ⟨_, List.mem_map.mpr ⟨source, hsource, rfl⟩, ?_, fun hexcluded => ?_⟩
    · split
      · exact hsame
      · exact hsame
    · by_cases hid : source.id = sourceId
      · exact hflags hthere row hrow (hsame.symm.trans hid)
      · rw [if_neg hid] at hexcluded
        exact hflag hexcluded
  · exact h

theorem Tables.Sound.removeSource (knowledgeBaseId sourceId : Nat) :
    (tables.removeSource knowledgeBaseId sourceId).Sound excluded := by
  unfold Tables.removeSource
  split
  · refine ⟨fun row hrow => h.rows row (List.mem_of_mem_filter hrow), fun row hrow => ?_,
      fun row hrow => h.fresh row (List.mem_of_mem_filter hrow), h.old⟩
    obtain ⟨source, hsource, hsame, hflag⟩ := h.sources row (List.mem_of_mem_filter hrow)
    have hkept := (List.mem_filter.mp hrow).2
    rw [decide_eq_true_eq] at hkept
    refine ⟨source, List.mem_filter.mpr ⟨hsource, decide_eq_true ?_⟩, hsame, hflag⟩
    exact fun hid => hkept (hsame.symm.trans hid)
  · exact h

end

theorem sound_step (op : Op) (h : watched.Sound) (hmeets : OpMeets py op watched) :
    (watched.step py op).Sound := by
  obtain ⟨ids, hworld⟩ := h
  have hrollback := closed_sound.rollback _ hworld
  cases op with
  | excludeChunk knowledgeBaseId kbChunkId isExcluded =>
    by_cases hthere : (watched.world.saved.kbChunk? knowledgeBaseId kbChunkId).isSome = true
    · simp only [Watched.step, if_pos hthere]
      cases isExcluded with
      | true => exact sound_decided (hrollback.session.excludeChunk hthere)
      | false => exact sound_decided (hrollback.session.restoreChunk knowledgeBaseId (hmeets rfl))
    · simp only [Watched.step, if_neg hthere]
      exact ⟨ids, hworld⟩
  | excludeSource knowledgeBaseId sourceId =>
    exact sound_decided (hrollback.session.excludeSource hmeets)
  | removeSource knowledgeBaseId sourceId =>
    exact sound_decided (hrollback.session.removeSource knowledgeBaseId sourceId)
  | indexKnowledgeBase knowledgeBaseId job =>
    refine ⟨ids, sound_runJob knowledgeBaseId job ?_⟩
    exact indexKnowledgeBase_keeps (S := fun source => source.id ∈ ids)
      (P := fun _ => World.Sound watched.excluded ids) (keeps_sound knowledgeBaseId)
      (fun world hsound source hsource => hsound.sessionIds ▸ List.mem_map_of_mem hsource)
      (fun source attempt world hid hsound hspares =>
        indexLoadedSource_sound py hid hsound hspares)
      hmeets (closed_sound.polls _ _ hrollback)
  | indexSource knowledgeBaseId sourceId job =>
    refine ⟨ids, sound_runJob knowledgeBaseId job ?_⟩
    exact indexSource_keeps (S := fun source => source.id ∈ ids)
      (P := fun _ => World.Sound watched.excluded ids) (keeps_sound knowledgeBaseId)
      (fun world hsound source hsource => hsound.sessionIds ▸ List.mem_map_of_mem hsource)
      (fun source attempt world hid hsound hspares =>
        indexLoadedSource_sound py hid hsound hspares)
      hmeets (closed_sound.polls _ _ hrollback)

end Runs

theorem row_of_hit {env : SearchEnv} {db : SearchDb} {request : SearchRequest}
    {retrieved : List RawHit} {response : SearchResponse}
    (h : search env db request retrieved = some response) {hit : SearchHit}
    (hhit : hit ∈ response.hits) :
    ∃ row ∈ db.kbChunks, row.id = hit.knowledgeBaseChunkId ∧ row.isExcludedFromSearch = false := by
  rw [search_eq] at h
  split at h
  · cases h
  · rw [← Option.some.inj h, hits_respond] at hhit
    obtain ⟨raw, -, hmade⟩ := List.mem_filterMap.mp hhit
    unfold hitOf at hmade
    split at hmade
    · cases hmade
    · next kbChunk chunk document hrow =>
      split at hmade
      · cases hmade
      · next hflag =>
        split at hmade
        · cases hmade
        · split at hmade
          · cases hmade
          · cases hmade
            refine ⟨kbChunk, ?_, rfl, Bool.not_eq_true _ ▸ hflag⟩
            unfold rowOf at hrow
            obtain ⟨id, -, hid⟩ := Option.bind_eq_some_iff.mp hrow
            obtain ⟨row, hfound, hrest⟩ := Option.bind_eq_some_iff.mp hid
            obtain ⟨found, -, heq⟩ := Option.map_eq_some_iff.mp hrest
            cases heq
            exact List.mem_of_find?_eq_some hfound

theorem Watched.Sound.staysExcluded {watched : Watched} (h : watched.Sound) :
    StaysExcluded watched := by
  obtain ⟨ids, hworld⟩ := h
  refine ⟨hworld.saved.rows, fun env request retrieved response hsearch hit hhit => ?_⟩
  obtain ⟨row, hrow, hid, hflag⟩ := row_of_hit hsearch hhit
  refine ⟨fun hexcluded => ?_, row, hrow, hid, hflag, ?_⟩
  · have := hworld.saved.rows row hrow (hid ▸ hexcluded)
    rw [hflag] at this
    cases this
  · obtain ⟨source, hsource, hsame, himplies⟩ := hworld.saved.sources row hrow
    refine ⟨source, hsource, hsame, fun hstatus => ?_⟩
    have := himplies hstatus
    rw [hflag] at this
    cases this

/-- In every history whose operations meet the condition, what is excluded stays excluded. -/
theorem run_staysExcluded (py : Py.Reading) {tables : Tables}
    (hfresh : tables.search.kbChunks = []) {ops : List Op}
    (hmeets : Guarded (Watched.step py) (OpMeets py) ops (Watched.fresh tables)) :
    StaysExcluded (ops.foldl (Watched.step py) (Watched.fresh tables)) := by
  have hstart : (Watched.fresh tables).Sound := by
    have hnone : ∀ row, row ∉ tables.search.kbChunks := by
      intro row hrow
      rw [hfresh] at hrow
      cases hrow
    have hsound : tables.Sound [] :=
      ⟨fun row hrow => absurd hrow (hnone row), fun row hrow => absurd hrow (hnone row),
        fun row hrow => absurd hrow (hnone row), fun id hid => absurd hid List.not_mem_nil⟩
    exact ⟨_, hsound, hsound, rfl, rfl, Nat.le_refl _⟩
  exact (hmeets.invariant (fun op watched hsound hop => sound_step py op hsound hop)
    hstart).staysExcluded

def excludingOps : List Op := [.indexSource 1 1 smoothJob, .excludeChunk 1 10 true]

theorem run_staysExcluded_excluding :
    StaysExcluded (excludingOps.foldl (Watched.step smallIds.py) (Watched.fresh orderTables)) := by
  refine run_staysExcluded smallIds.py rfl ⟨?_, (fun h => by cases h), trivial⟩
  intro source start hstart reached hreached chunk _ row hrow
  have hsource : attemptStart 1 smoothJob 1
      { (Watched.fresh orderTables).world.rollback with polls := smoothJob.cancelledAfter } =
        some (⟨1, 1, 1, 1, .draft⟩, (Watched.fresh orderTables).world) := rfl
  rw [hsource] at hstart
  cases hstart
  have hnone := congrArg (fun result => result.1.session.search.kbChunks) hreached
  change [] = reached.session.search.kbChunks at hnone
  rw [← hnone] at hrow
  cases hrow

def reindexingOps : List Op := excludingOps ++ [.indexSource 1 1 smoothJob]

theorem staysExcluded_reindexing_fails :
    ¬ StaysExcluded (reindexingOps.foldl (Watched.step smallIds.py) (Watched.fresh orderTables)) := by
  intro h
  have hback : ((reindexingOps.foldl (Watched.step smallIds.py)
      (Watched.fresh orderTables)).world.saved.search.kbChunks.any fun row =>
        decide (row.id ∈ (reindexingOps.foldl (Watched.step smallIds.py)
          (Watched.fresh orderTables)).excluded) && !row.isExcludedFromSearch) = true := by
    decide +kernel
  obtain ⟨row, hrow, hflag⟩ := List.any_eq_true.mp hback
  obtain ⟨hexcluded, hnot⟩ := Bool.and_eq_true_iff.mp hflag
  rw [h.rows row hrow (of_decide_eq_true hexcluded)] at hnot
  cases hnot

end AgentBack.Knowledge
