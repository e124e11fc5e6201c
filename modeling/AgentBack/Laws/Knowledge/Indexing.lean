import AgentBack.Knowledge.Indexing

/-!
# What indexing jobs keep

The rules for the jobs of `Knowledge/Indexing.lean`. What every part of a sequence keeps, the sequence
keeps (`Action.seq_keeps`). A property of the worlds that the handling of the flag, the statuses of the
sources and every attempt keep holds after a job (`indexKnowledgeBase_keeps`, `indexSource_keeps`);
`AttemptsMeet` says that the attempts of a job meet a guard in the worlds in which they are made.
-/

namespace AgentBack.Knowledge

theorem Action.seq_append (actions rest : List Action) (world : World) :
    Action.seq (actions ++ rest) world =
      match Action.seq actions world with
      | (world, .returned) => Action.seq rest world
      | stopped => stopped := by
  induction actions generalizing world with
  | nil => rfl
  | cons action actions ih =>
    rw [List.cons_append, Action.seq, Action.seq]
    match action world with
    | (world, .returned) => exact ih world
    | (world, .raised) => rfl
    | (world, .broken) => rfl

theorem Action.seq_keeps {P : World → Prop} {actions : List Action}
    (h : ∀ action ∈ actions, ∀ world, P world → P (action world).1) {world : World}
    (hworld : P world) : P (Action.seq actions world).1 := by
  induction actions generalizing world with
  | nil => exact hworld
  | cons action rest ih =>
    have hnext := h action (.head _) world hworld
    unfold Action.seq
    match haction : action world with
    | (next, .returned) =>
      rw [haction] at hnext
      exact ih (fun other hother => h other (List.mem_cons_of_mem action hother)) hnext
    | (next, .raised) | (next, .broken) =>
      rw [haction] at hnext
      exact hnext

/-- A property of worlds that looks at the flag, commits and rollbacks keep. -/
structure SessionClosed (P : World → Prop) : Prop where
  polls : ∀ world polls, P world → P { world with polls }
  commit : ∀ world, P world → P world.commit
  rollback : ∀ world, P world → P world.rollback

section Session

variable {P : World → Prop} {world : World}

variable (hclosed : SessionClosed P) (hworld : P world)
include hclosed hworld

theorem SessionClosed.poll : P world.poll.1 := by
  unfold World.poll
  split
  · exact hworld
  · exact hworld
  · exact hclosed.polls world _ hworld

theorem SessionClosed.commitCheckpoint :
    P world.commitCheckpoint.1 := by
  have hpoll := hclosed.poll hworld
  unfold World.commitCheckpoint
  match hpolled : world.poll with
  | (next, true) =>
    rw [hpolled] at hpoll
    exact hclosed.rollback next hpoll
  | (next, false) =>
    rw [hpolled] at hpoll
    exact hclosed.commit next hpoll

theorem SessionClosed.updateJobProgress :
    P world.updateJobProgress.1 := by
  have hpoll := hclosed.poll hworld
  unfold World.updateJobProgress
  match hpolled : world.poll with
  | (next, true) =>
    rw [hpolled] at hpoll
    exact hpoll
  | (next, false) =>
    rw [hpolled] at hpoll
    have hcheckpoint := hclosed.commitCheckpoint hpoll
    dsimp only
    match hchecked : next.commitCheckpoint with
    | (last, .returned) =>
      rw [hchecked] at hcheckpoint
      exact hclosed.poll hcheckpoint
    | (last, .raised) | (last, .broken) =>
      rw [hchecked] at hcheckpoint
      exact hcheckpoint

theorem SessionClosed.saveProgress : P (saveProgress world).1 :=
  hclosed.updateJobProgress hworld

end Session

/-- Where the session was not rolled back, it sees the same tables. -/
theorem session_saveProgress {world : World} (h : (saveProgress world).2 = .returned) :
    (saveProgress world).1.session = world.session := by
  have hpoll : ∀ world : World, world.poll.1.session = world.session := by
    intro world
    unfold World.poll
    split <;> rfl
  unfold saveProgress World.updateJobProgress at h ⊢
  match hpolled : world.poll with
  | (next, true) =>
    rw [hpolled] at h
    exact (congrArg (fun result => result.1.session) hpolled).symm.trans (hpoll world)
  | (next, false) =>
    have hfirst := (congrArg (fun result => result.1.session) hpolled).symm.trans (hpoll world)
    rw [hpolled] at h
    unfold World.commitCheckpoint at h ⊢
    dsimp only at h ⊢
    match hpolled' : next.poll with
    | (last, true) =>
      rw [hpolled'] at h
      cases h
    | (last, false) =>
      have hsecond := (congrArg (fun result => result.1.session) hpolled').symm.trans (hpoll next)
      dsimp only
      rw [hpoll]
      exact hsecond.trans hfirst

/-! ## Parts that lead on -/

/-- From the worlds of `R` the action leads to worlds of `F`, and where it returns to ones of `R`. -/
def Leads (R F : World → Prop) (action : Action) : Prop :=
  ∀ world, R world → F (action world).1 ∧ ((action world).2 = .returned → R (action world).1)

/-- What looks at the flag, commits and rollbacks do to the worlds of `R`. -/
structure Progressing (R F : World → Prop) : Prop where
  polls : ∀ world polls, R world → R { world with polls }
  commit : ∀ world, R world → R world.commit
  rollback : ∀ world, R world → F world.rollback
  stops : ∀ world, R world → F world

theorem SessionClosed.progressing {P : World → Prop} (h : SessionClosed P) : Progressing P P :=
  ⟨h.polls, h.commit, h.rollback, fun _ hworld => hworld⟩

section Leads

variable {R F : World → Prop}

variable (hprogressing : Progressing R F)
include hprogressing

theorem leads_seq {actions : List Action} (h : ∀ action ∈ actions, Leads R F action) :
    Leads R F (Action.seq actions) := by
  intro world hworld
  induction actions generalizing world with
  | nil => exact ⟨hprogressing.stops world hworld, fun _ => hworld⟩
  | cons action rest ih =>
    have hnext := h action (.head _) world hworld
    unfold Action.seq
    match haction : action world with
    | (next, .returned) =>
      rw [haction] at hnext
      exact ih (fun other hother => h other (List.mem_cons_of_mem action hother)) next (hnext.2 rfl)
    | (next, .raised) | (next, .broken) =>
      rw [haction] at hnext
      exact ⟨hnext.1, fun hended => by cases hended⟩

theorem Progressing.poll {world : World} (h : R world) :
    R world.poll.1 := by
  unfold World.poll
  split
  · exact h
  · exact h
  · exact hprogressing.polls world _ h

theorem leads_saveProgress : Leads R F saveProgress := by
  intro world hworld
  have hfirst := hprogressing.poll hworld
  unfold saveProgress World.updateJobProgress
  match hpolled : world.poll with
  | (next, true) =>
    rw [hpolled] at hfirst
    exact ⟨hprogressing.stops next hfirst, fun _ => hfirst⟩
  | (next, false) =>
    rw [hpolled] at hfirst
    have hsecond := hprogressing.poll hfirst
    unfold World.commitCheckpoint
    dsimp only
    match hpolled' : next.poll with
    | (last, true) =>
      rw [hpolled'] at hsecond
      exact ⟨hprogressing.rollback last hsecond, fun hended => by cases hended⟩
    | (last, false) =>
      rw [hpolled'] at hsecond
      have hthird := hprogressing.poll (hprogressing.commit last hsecond)
      exact ⟨hprogressing.stops _ hthird, fun _ => hthird⟩

/-- The document is parsed again, and its fragments are replaced. -/
def Replaces (source : Source) (attempt : Attempt) (world : World) : Prop :=
  attempt.parse.replaced.isSome = true ∧
    ((world.session.loadDocumentChunks source.documentVersionId).isEmpty ||
      (world.session.loadDocumentChunks source.documentVersionId).any
        DocumentChunk.isOutdated) = true

theorem leads_ensureSourceDocumentProcessed {source : Source} {attempt : Attempt} {start : World}
    (hreplace : Replaces source attempt start → ∀ world parts,
      attempt.parse.replaced = some parts → R world →
        R (world.edit fun tables => tables.replaceChunks source.documentVersionId parts))
    {world : World} (hworld : R world) (hload :
      world.session.loadDocumentChunks source.documentVersionId =
        start.session.loadDocumentChunks source.documentVersionId) :
    F (ensureSourceDocumentProcessed source attempt.parse world).1 ∧
      ((ensureSourceDocumentProcessed source attempt.parse world).2 = .returned →
        R (ensureSourceDocumentProcessed source attempt.parse world).1) := by
  unfold ensureSourceDocumentProcessed
  dsimp only
  rw [hload]
  split
  · exact ⟨hprogressing.stops world hworld, fun _ => hworld⟩
  · next hasked =>
    have hold : ((start.session.loadDocumentChunks source.documentVersionId).isEmpty ||
        (start.session.loadDocumentChunks source.documentVersionId).any
          DocumentChunk.isOutdated) = true := by
      rw [← Bool.not_or, Bool.not_eq_true', Bool.not_eq_false] at hasked
      exact hasked
    refine leads_seq hprogressing (fun action haction => ?_) world hworld
    rcases List.mem_cons.mp haction with rfl | haction
    · intro next hnext
      dsimp only
      split
      · exact leads_saveProgress hprogressing next hnext
      · exact ⟨hprogressing.stops next hnext, fun _ => hnext⟩
    · obtain rfl := List.mem_singleton.mp haction
      intro next hnext
      dsimp only
      cases hreplaced : attempt.parse.replaced with
      | none =>
        have hstops := hprogressing.stops next hnext
        dsimp only
        split
        · exact ⟨hstops, fun _ => hnext⟩
        · exact ⟨hstops, fun _ => hnext⟩
        · split <;> exact ⟨hstops, fun _ => hnext⟩
      | some parts =>
        have hparsed := hreplace ⟨by rw [hreplaced]; rfl, hold⟩ next parts hreplaced hnext
        have hstops := hprogressing.stops _ hparsed
        dsimp only
        split
        · exact ⟨hstops, fun _ => hparsed⟩
        · exact ⟨hstops, fun _ => hparsed⟩
        · split <;> exact ⟨hstops, fun _ => hparsed⟩

/-- Where the first part of an attempt leads. -/
theorem prepareSource_leads (source : Source) (attempt : Attempt) {start : World}
    (hopen : F (openSource source start).1 ∧
      ((openSource source start).2 = .returned → R (openSource source start).1))
    (hreplace : Replaces source attempt start → ∀ world parts,
      attempt.parse.replaced = some parts → R world →
        R (world.edit fun tables => tables.replaceChunks source.documentVersionId parts)) :
    F (Action.seq (prepareSource source attempt) start).1 ∧
      ((Action.seq (prepareSource source attempt) start).2 = .returned →
        R (Action.seq (prepareSource source attempt) start).1) := by
  have hsame : (openSource source start).1.session.search = start.session.search := by
    unfold openSource
    split <;> rfl
  unfold prepareSource
  rw [Action.seq]
  match hopened : openSource source start with
  | (next, .raised) | (next, .broken) =>
    rw [hopened] at hopen
    exact ⟨hopen.1, fun hended => by cases hended⟩
  | (next, .returned) =>
    rw [hopened] at hopen hsame
    dsimp only
    rw [Action.seq]
    have hsaved := leads_saveProgress hprogressing next (hopen.2 rfl)
    match hprogress : saveProgress next with
    | (last, .raised) | (last, .broken) =>
      rw [hprogress] at hsaved
      exact ⟨hsaved.1, fun hended => by cases hended⟩
    | (last, .returned) =>
      rw [hprogress] at hsaved
      have hsession : last.session = next.session := by
        have := session_saveProgress (show (saveProgress next).2 = .returned by rw [hprogress])
        rwa [hprogress] at this
      have hload : last.session.loadDocumentChunks source.documentVersionId =
          start.session.loadDocumentChunks source.documentVersionId := by
        unfold Tables.loadDocumentChunks
        rw [hsession, hsame]
      have hensured := leads_ensureSourceDocumentProcessed hprogressing hreplace (hsaved.2 rfl) hload
      dsimp only
      rw [Action.seq]
      match hended : ensureSourceDocumentProcessed source attempt.parse last with
      | (done, .raised) | (done, .broken) =>
        rw [hended] at hensured
        exact ⟨hensured.1, fun hended => by cases hended⟩
      | (done, .returned) =>
        rw [hended] at hensured
        refine leads_seq hprogressing (fun action haction => ?_) done (hensured.2 rfl)
        rcases List.mem_cons.mp haction with rfl | haction
        · exact fun world hworld => ⟨hprogressing.stops world hworld, fun _ => hworld⟩
        · obtain rfl := List.mem_singleton.mp haction
          exact leads_saveProgress hprogressing

theorem leads_changePoints {failed : Option Bool} {f : World → List Point}
    (h : ∀ world, R world → R { world with points := f world }) :
    Leads R F (changePoints failed f) := by
  intro world hworld
  unfold changePoints
  split
  · exact ⟨hprogressing.stops _ (h world hworld), fun _ => h world hworld⟩
  · split
    · exact ⟨hprogressing.stops _ (h world hworld), fun _ => h world hworld⟩
    · exact ⟨hprogressing.stops world hworld, fun _ => hworld⟩

end Leads

/-! ## Jobs -/

section Jobs

variable (py : Py.Reading) (knowledgeBaseId : Nat) (job : Job)
  (guard : Source → Attempt → World → Prop)

/-- Every attempt of the loop meets the guard in the world in which it is made. -/
def AttemptsMeet : List Source → World → Prop
  | [], _ => True
  | source :: rest, world =>
    (world.abortIfCancelled knowledgeBaseId).2 = false →
      let world := (world.abortIfCancelled knowledgeBaseId).1
      guard source (job.attempt source.id) world ∧
        match indexLoadedSource py source (job.attempt source.id) world with
        | (_, .broken) => True
        | (world, .raised) =>
          AttemptsMeet rest (world.edit fun tables => tables.setStatus source.id .error)
        | (world, .returned) =>
          world.updateJobProgress.2 = (.returned, true) →
            AttemptsMeet rest world.updateJobProgress.1

/-- The eligible sources of a job and the world in which the loop over them begins, where it does. -/
def loopStart (world : World) : Option (List Source × World) :=
  match startJob knowledgeBaseId world with
  | (world, .returned, true) =>
    let sources := world.session.sources.filter fun source =>
      source.knowledgeBaseId = knowledgeBaseId && source.processingStatus ∉ skipStatuses
    match precheckAllSources knowledgeBaseId job sources world [] with
    | (world, .returned, eligible) =>
      match world.abortIfCancelled knowledgeBaseId with
      | (_, true) => none
      | (world, false) =>
        match world.updateJobProgress with
        | (world, .returned, true) => some (eligible, world)
        | _ => none
    | _ => none
  | _ => none

/-- The source of a job for one and the world in which its attempt is made, where it is. -/
def attemptStart (sourceId : Nat) (world : World) : Option (Source × World) :=
  match world.session.source? knowledgeBaseId sourceId with
  | none => none
  | some source =>
    match startJob knowledgeBaseId world with
    | (world, .returned, true) =>
      if !(job.precheck sourceId).passed then none
      else
        match world.abortIfCancelled knowledgeBaseId with
        | (_, true) => none
        | (world, false) => some (source, world)
    | _ => none

/-- What the parts of a job keep outside its attempts, in the worlds in which these are made (`Q`), and
what an attempt leaves, which may depend on how it ended (`P`). -/
structure Keeps (P : Ended → World → Prop) (Q : World → Prop) : Prop where
  start : ∀ world, Q world → Q (startJob knowledgeBaseId world).1
  abort : ∀ world, Q world → Q (world.abortIfCancelled knowledgeBaseId).1
  progress : ∀ world, Q world → Q world.updateJobProgress.1
  status : ∀ world sourceId status, status = .error ∨ status = .readyToIndex →
    Q world → Q (world.edit fun tables => tables.setStatus sourceId status)
  done : ∀ ended world, Q world → P ended world
  caught : ∀ world, P .raised world → Q world
  saved : ∀ world, P .returned world →
    P world.updateJobProgress.2.1 world.updateJobProgress.1 ∧
      (world.updateJobProgress.2 = (.returned, true) → Q world.updateJobProgress.1)

variable {py knowledgeBaseId job guard} {P : Ended → World → Prop} {Q : World → Prop}
  {S : Source → Prop}

theorem indexSources_keeps (hkeeps : Keeps knowledgeBaseId P Q)
    (hattempt : ∀ source attempt world, S source → Q world → guard source attempt world →
      P (indexLoadedSource py source attempt world).2 (indexLoadedSource py source attempt world).1)
    {sources : List Source} (hsources : ∀ source ∈ sources, S source) {world : World}
    (hmeet : AttemptsMeet py knowledgeBaseId job guard sources world) (hworld : Q world) :
    P (indexSources py knowledgeBaseId job sources world).2
      (indexSources py knowledgeBaseId job sources world).1 := by
  induction sources generalizing world with
  | nil => exact hkeeps.done .returned world hworld
  | cons source rest ih =>
    have hrest := fun other hother => hsources other (List.mem_cons_of_mem source hother)
    have habort := hkeeps.abort world hworld
    unfold AttemptsMeet at hmeet
    unfold indexSources
    match hcancelled : world.abortIfCancelled knowledgeBaseId with
    | (world, true) =>
      rw [hcancelled] at habort
      exact hkeeps.done .returned world habort
    | (world, false) =>
      rw [hcancelled] at habort hmeet
      obtain ⟨hguard, hnext⟩ := hmeet rfl
      have hdone := hattempt source _ world (hsources source (.head _)) habort hguard
      dsimp only at hguard hnext ⊢
      match hended : indexLoadedSource py source (job.attempt source.id) world with
      | (world, .broken) =>
        rw [hended] at hdone
        exact hdone
      | (world, .raised) =>
        rw [hended] at hdone hnext
        exact ih hrest hnext
          (hkeeps.status world source.id .error (.inl rfl) (hkeeps.caught world hdone))
      | (world, .returned) =>
        rw [hended] at hdone hnext
        obtain ⟨hprogress, hgo⟩ := hkeeps.saved world hdone
        dsimp only at hnext ⊢
        match hsaved : world.updateJobProgress with
        | (world, .returned, true) =>
          rw [hsaved] at hgo hnext
          exact ih hrest (hnext rfl) (hgo rfl)
        | (world, .returned, false) | (world, .raised, _) | (world, .broken, _) =>
          rw [hsaved] at hprogress
          exact hprogress

/-- The prechecks keep the property, and pass sources that were given. -/
theorem precheckAllSources_keeps (hkeeps : Keeps knowledgeBaseId P Q) (job : Job)
    (sources eligible : List Source) {world : World} (hworld : Q world) :
    Q (precheckAllSources knowledgeBaseId job sources world eligible).1 ∧
      ∀ source ∈ (precheckAllSources knowledgeBaseId job sources world eligible).2.2,
        source ∈ sources ∨ source ∈ eligible := by
  induction sources generalizing world eligible with
  | nil => exact ⟨hworld, fun source hin => .inr hin⟩
  | cons source rest ih =>
    have habort := hkeeps.abort world hworld
    unfold precheckAllSources
    match hcancelled : world.abortIfCancelled knowledgeBaseId with
    | (world, true) =>
      rw [hcancelled] at habort
      exact ⟨habort, fun source hin => .inr hin⟩
    | (world, false) =>
      rw [hcancelled] at habort
      dsimp only
      have hedited : Q (if (!(job.precheck source.id).passed) = true then
            world.edit fun tables => tables.setStatus source.id .error
          else if (!(job.precheck source.id).needsOcr) = true then
            world.edit fun tables => tables.setStatus source.id .readyToIndex
          else world) := by
        split
        · exact hkeeps.status world source.id .error (.inl rfl) habort
        · split
          · exact hkeeps.status world source.id .readyToIndex (.inr rfl) habort
          · exact habort
      have hprogress := hkeeps.progress _ hedited
      match hsaved : World.updateJobProgress (if (!(job.precheck source.id).passed) = true then
            world.edit fun tables => tables.setStatus source.id .error
          else if (!(job.precheck source.id).needsOcr) = true then
            world.edit fun tables => tables.setStatus source.id .readyToIndex
          else world) with
      | (next, .returned, _) =>
        rw [hsaved] at hprogress
        obtain ⟨hdone, hpassed⟩ := ih
          (if (job.precheck source.id).passed then eligible ++ [source] else eligible) hprogress
        refine ⟨hdone, fun other hother => ?_⟩
        rcases hpassed other hother with hin | hin
        · exact .inl (List.mem_cons_of_mem source hin)
        · split at hin
          · rcases List.mem_append.mp hin with hold | hnew
            · exact .inr hold
            · exact .inl (List.mem_singleton.mp hnew ▸ List.mem_cons_self)
          · exact .inr hin
      | (next, .raised, _) | (next, .broken, _) =>
        rw [hsaved] at hprogress
        exact ⟨hprogress, fun source hin => .inr hin⟩

section

variable (hkeeps : Keeps knowledgeBaseId P Q)
  (hin : ∀ world, Q world → ∀ source ∈ world.session.sources, S source)
  (hattempt : ∀ source attempt world, S source → Q world → guard source attempt world →
    P (indexLoadedSource py source attempt world).2 (indexLoadedSource py source attempt world).1)
include hkeeps hin hattempt

theorem indexKnowledgeBase_keeps {world : World}
    (hmeet : ∀ sources start, loopStart knowledgeBaseId job world = some (sources, start) →
      AttemptsMeet py knowledgeBaseId job guard sources start) (hworld : Q world) :
    P (indexKnowledgeBase py knowledgeBaseId job world).2
      (indexKnowledgeBase py knowledgeBaseId job world).1 := by
  have hstart := hkeeps.start world hworld
  unfold loopStart at hmeet
  unfold indexKnowledgeBase
  match hstarted : startJob knowledgeBaseId world with
  | (world, .returned, true) =>
    rw [hstarted] at hstart hmeet
    dsimp only at hmeet ⊢
    have hchecked := precheckAllSources_keeps hkeeps job (world.session.sources.filter fun source =>
        source.knowledgeBaseId = knowledgeBaseId && source.processingStatus ∉ skipStatuses)
      [] hstart
    have hsources := hin world hstart
    match hprechecked : precheckAllSources knowledgeBaseId job (world.session.sources.filter
        fun source => source.knowledgeBaseId = knowledgeBaseId &&
          source.processingStatus ∉ skipStatuses) world [] with
    | (next, .returned, eligible) =>
      rw [hprechecked] at hchecked hmeet
      obtain ⟨hnext, hpassed⟩ := hchecked
      have heligible : ∀ source ∈ eligible, S source := by
        intro source hsource
        rcases hpassed source hsource with hfound | hnone
        · exact hsources source (List.mem_of_mem_filter hfound)
        · cases hnone
      have habort := hkeeps.abort next hnext
      dsimp only at hmeet ⊢
      match hcancelled : next.abortIfCancelled knowledgeBaseId with
      | (world, true) =>
        rw [hcancelled] at habort
        exact hkeeps.done .returned world habort
      | (world, false) =>
        rw [hcancelled] at habort hmeet
        have hprogress := hkeeps.progress world habort
        dsimp only at hmeet ⊢
        match hsaved : world.updateJobProgress with
        | (world, .returned, true) =>
          rw [hsaved] at hprogress hmeet
          exact indexSources_keeps hkeeps hattempt heligible (hmeet eligible world rfl) hprogress
        | (world, .returned, false) | (world, .raised, _) | (world, .broken, _) =>
          rw [hsaved] at hprogress
          exact hkeeps.done _ world hprogress
    | (next, .raised, eligible) | (next, .broken, eligible) =>
      rw [hprechecked] at hchecked
      exact hkeeps.done _ next hchecked.1
  | (world, .returned, false) | (world, .raised, _) | (world, .broken, _) =>
    rw [hstarted] at hstart
    exact hkeeps.done _ world hstart

theorem indexSource_keeps {sourceId : Nat} {world : World}
    (hmeet : ∀ source start, attemptStart knowledgeBaseId job sourceId world = some (source, start) →
      guard source (job.attempt sourceId) start) (hworld : Q world) :
    P (indexSource py knowledgeBaseId sourceId job world).2
      (indexSource py knowledgeBaseId sourceId job world).1 := by
  have hstart := hkeeps.start world hworld
  unfold attemptStart at hmeet
  unfold indexSource
  cases hfound : world.session.source? knowledgeBaseId sourceId with
  | none => exact hkeeps.done .raised world hworld
  | some source =>
    have hsource : S source := by
      unfold Tables.source? at hfound
      exact hin world hworld source (List.mem_of_find?_eq_some hfound)
    rw [hfound] at hmeet
    dsimp only at hmeet ⊢
    match hstarted : startJob knowledgeBaseId world with
    | (world, .returned, true) =>
      rw [hstarted] at hstart hmeet
      dsimp only at hmeet ⊢
      by_cases hpassed : (!(job.precheck sourceId).passed) = true
      · rw [if_pos hpassed]
        exact hkeeps.done .raised _ (hkeeps.status world sourceId .error (.inl rfl) hstart)
      · rw [if_neg hpassed] at hmeet ⊢
        have habort := hkeeps.abort world hstart
        match hcancelled : world.abortIfCancelled knowledgeBaseId with
        | (world, true) =>
          rw [hcancelled] at habort
          exact hkeeps.done .returned world habort
        | (world, false) =>
          rw [hcancelled] at habort hmeet
          exact hattempt source _ world hsource habort (hmeet source world rfl)
    | (world, .returned, false) | (world, .raised, _) | (world, .broken, _) =>
      rw [hstarted] at hstart
      exact hkeeps.done _ world hstart

end

theorem SessionClosed.keeps (hclosed : SessionClosed Q)
    (hrestore : ∀ world, Q world →
      Q (world.edit fun tables => tables.restoreSources knowledgeBaseId))
    (hstatus : ∀ world sourceId status, status = .error ∨ status = .readyToIndex → Q world →
      Q (world.edit fun tables => tables.setStatus sourceId status))
    (hdone : ∀ ended world, Q world → P ended world)
    (hcaught : ∀ world, P .raised world → Q world)
    (hsaved : ∀ world, P .returned world →
      P world.updateJobProgress.2.1 world.updateJobProgress.1 ∧
        (world.updateJobProgress.2 = (.returned, true) → Q world.updateJobProgress.1)) :
    Keeps knowledgeBaseId P Q := by
  have habort : ∀ world, Q world → Q (world.abortIfCancelled knowledgeBaseId).1 := by
    intro world hworld
    have hpoll := hclosed.poll hworld
    unfold World.abortIfCancelled
    match hpolled : world.poll with
    | (next, true) =>
      rw [hpolled] at hpoll
      exact hrestore next hpoll
    | (next, false) =>
      rw [hpolled] at hpoll
      exact hpoll
  refine ⟨fun world hworld => ?_, habort, fun world hworld => hclosed.updateJobProgress hworld,
    hstatus, hdone, hcaught, hsaved⟩
  have hfirst := habort world hworld
  unfold startJob
  match hcancelled : world.abortIfCancelled knowledgeBaseId with
  | (next, true) =>
    rw [hcancelled] at hfirst
    exact hfirst
  | (next, false) =>
    rw [hcancelled] at hfirst
    have hsecond := hclosed.poll hfirst
    dsimp only
    match hpolled : next.poll with
    | (next, true) =>
      rw [hpolled] at hsecond
      exact hsecond
    | (next, false) =>
      rw [hpolled] at hsecond
      have hthird := hclosed.commitCheckpoint hsecond
      dsimp only
      match hchecked : next.commitCheckpoint with
      | (next, .raised) | (next, .broken) =>
        rw [hchecked] at hthird
        exact hthird
      | (next, .returned) =>
        rw [hchecked] at hthird
        have hfourth := hclosed.poll hthird
        dsimp only
        match hpolled : next.poll with
        | (next, true) =>
          rw [hpolled] at hfourth
          exact hfourth
        | (next, false) =>
          rw [hpolled] at hfourth
          have hfifth := hclosed.commitCheckpoint hfourth
          dsimp only
          match hchecked : next.commitCheckpoint with
          | (next, .raised) | (next, .broken) =>
            rw [hchecked] at hfifth
            exact hfifth
          | (next, .returned) =>
            rw [hchecked] at hfifth
            exact habort next hfifth

end Jobs

/-- A document with one fragment, in a knowledge base. -/
def orderTables : Tables where
  search :=
    { access := { departments := ⟨[], id, descends_nil⟩, documents := [{ id := 1 }] }
      kbChunks := []
      documentChunks :=
        [{ id := 2
           documentId := some 1
           documentVersionId := 1
           text := some "Приказ об окладах"
           metadata := some (Dict.ofList [("chunking", .dict [("version", .num 7 "7")])])
           content := "Приказ об окладах"
           chunkMetadata := none }] }
  sources := [{ id := 1, knowledgeBaseId := 1, documentId := 1, documentVersionId := 1 }]
  versions := [{ id := 1 }]
  nextId := 10

def smoothJob : Job := { attempt := fun _ => {} }

end AgentBack.Knowledge
