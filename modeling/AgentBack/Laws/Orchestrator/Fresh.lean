import AgentBack.Laws.Orchestrator.HandOff

/-!
# No hand-off with a stale output

The chief of supply and the dispatcher of production work with the output of the role that handed the
case over. The marks of the hand-off stay in the metadata when the document changes, so a new task of
theirs can rest on an output that is about an older revision. `Step.UpToDate` is about the steps where
this cannot start, and `noStaleHandOff_run` about the runs of such steps.
-/

namespace AgentBack.Orchestrator

/-- The case was handed to the agent, and every role that handed it over worked on the revision that
the case has. -/
def Backed (agent : AgentId) (c : Case) : Prop :=
  (∃ desk, c.handedBy desk agent) ∧
    ∀ desk, c.handedBy desk agent → (c.metadata.desk desk).hand.computedFor = some c.revision

/-- A new task of the chief of supply or of the dispatcher, for a production case, rests on outputs
for the revision of the case. -/
def NoStaleHandOff (s s' : State) : Prop :=
  s'.case.sourceType = .productionMaterialOrder →
    ∀ task ∈ s'.tasks.drop s.tasks.length, task.agentSlug ∈ handOffAgents →
      Backed task.agentSlug s'.case

/-! ## The invariant -/

/-- The roles that handed the case over worked on its revision. -/
def Fresh (c : Case) : Prop :=
  ∀ desk agent, c.handedBy desk agent →
    (c.metadata.desk desk).hand.computedFor = some c.revision

/-- The control point of a hand-off has its mark, and quality control gives the case to none of the
agents of a hand-off. -/
structure Marked (c : Case) : Prop where
  point : ∀ agent point, handOffPoint agent = some point → c.controlPoint = some point →
    ∃ desk, c.handedBy desk agent
  next : ∀ agent ∈ handOffAgents, c.metadata.nextQualityAgent ≠ some agent

/-- The hand-offs of the case have their marks, and those of an open case are fresh. -/
structure Supported (s : State) : Prop where
  marked : Marked s.case
  fresh : s.case.status.terminal = false → Fresh s.case

/-- The step keeps the hand-offs supported, and those that it starts a task for are backed. -/
structure Lawful (s s' : State) : Prop where
  supported : Supported s'
  tasks : ∃ new, s'.slugs = s.slugs ++ new ∧ (s'.case.sourceType = .productionMaterialOrder →
    ∀ agent ∈ new, agent ∈ handOffAgents → Backed agent s'.case)

theorem Lawful.noStaleHandOff {s s' : State} (h : Lawful s s') : NoStaleHandOff s s' := by
  obtain ⟨new, hnew, hbacked⟩ := h.tasks
  intro hsource task htask hhand
  refine hbacked hsource task.agentSlug ?_ hhand
  have hslugs : (s'.tasks.drop s.tasks.length).map Task.agentSlug = new := by
    have hlength : s.slugs.length = s.tasks.length := List.length_map _
    rw [List.map_drop, ← hlength]
    change s'.slugs.drop _ = new
    rw [hnew, List.drop_left]
  rw [← hslugs]
  exact List.mem_map_of_mem htask

section
variable {c c' : Case}

theorem SameBasis.fresh (h : SameBasis c c') (hc : Fresh c) : Fresh c' := by
  intro desk agent hhanded
  rw [h.hand desk hhanded.1, h.revision]
  exact hc desk agent ((h.handedBy desk agent).mp hhanded)

theorem SameBasis.marked (h : SameBasis c c') (hc : Marked c) : Marked c' where
  point agent point hagent hpoint := by
    obtain ⟨desk, hhanded⟩ := hc.point agent point hagent (h.point agent point hagent hpoint)
    exact ⟨desk, (h.handedBy desk agent).mpr hhanded⟩
  next := by
    rw [h.next]
    exact hc.next

theorem SameBasis.backed (h : SameBasis c c') {agent : AgentId} (hc : Backed agent c) :
    Backed agent c' := by
  obtain ⟨⟨desk, hhanded⟩, hall⟩ := hc
  refine ⟨⟨desk, (h.handedBy desk agent).mpr hhanded⟩, fun desk' hhanded' => ?_⟩
  rw [h.hand desk' hhanded'.1, h.revision]
  exact hall desk' ((h.handedBy desk' agent).mp hhanded')

/-- What a basis warrants is backed when its hand-offs are marked and fresh. -/
theorem Fresh.backed (hc : Fresh c) (hmarked : Marked c) {agent : AgentId}
    (hagent : agent ∈ handOffAgents) (hw : Warranted c agent) : Backed agent c := by
  refine ⟨?_, fun desk => hc desk agent⟩
  rcases hw with hnext | hhanded | ⟨point, hpoint, hat⟩
  · exact absurd hnext (hmarked.next agent hagent)
  · exact hhanded
  · exact hmarked.point agent point hpoint hat

end

section
variable {s s' s'' : State}

theorem Supported.carries (hs : Supported s) (h : Carries s s') : Supported s' where
  marked := h.basis.marked hs.marked
  fresh hopen := h.basis.fresh (hs.fresh (h.terminal.symm.trans hopen))

theorem Carries.lawful (h : Carries s s') (hs : Supported s) : Lawful s s' := by
  obtain ⟨new, hnew, hreason⟩ := h.tasks
  refine ⟨hs.carries h, new, hnew, fun hsource agent hagent hhand => ?_⟩
  obtain ⟨hopen, hwarranted⟩ := hreason agent hagent
  exact h.basis.backed ((hs.fresh hopen).backed hs.marked hhand
    (hwarranted (h.basis.sourceType.symm.trans hsource) hhand))

theorem Lawful.carries (h : Lawful s s') (h' : Carries s' s'') : Lawful s s'' := by
  obtain ⟨new, hnew, hbacked⟩ := h.tasks
  obtain ⟨new', hnew', hbacked'⟩ := (h'.lawful h.supported).tasks
  refine ⟨h.supported.carries h', new ++ new', ?_, fun hsource agent hagent hhand => ?_⟩
  · rw [hnew', hnew, List.append_assoc]
  · rcases List.mem_append.mp hagent with hold | hlate
    · exact h'.basis.backed (hbacked (h'.basis.sourceType.symm.trans hsource) agent hold hhand)
    · exact hbacked' hsource agent hlate hhand

/-- A step before that starts no task. -/
theorem Lawful.of_slugs (h : Lawful s' s'') (hslugs : s'.slugs = s.slugs) : Lawful s s'' := by
  obtain ⟨new, hnew, hbacked⟩ := h.tasks
  exact ⟨h.supported, new, by rw [hnew, hslugs], hbacked⟩

theorem Supported.lawful (hs : Supported s') (hslugs : s'.slugs = s.slugs) : Lawful s s' :=
  ⟨hs, [], by rw [hslugs, List.append_nil], fun _ _ h => by cases h⟩

end

/-! ## Polls -/

/-- The poll writes the document into the case. -/
def takesOver (document : Document) (c : Case) : Bool :=
  (document.recent || !c.status.terminal) && !document.skipReason.isSome && !c.released &&
    !c.unchanged document

section
variable (env : Env) (now : Time) {s : State}

/-- The hand-offs and the next agent of quality control are the same. -/
structure SameHands (m m' : Metadata) : Prop where
  next : m'.nextQualityAgent = m.nextQualityAgent
  hand : ∀ desk, (m'.desk desk).hand = (m.desk desk).hand

theorem SameHands.trans {m m' m'' : Metadata} (h : SameHands m m') (h' : SameHands m' m'') :
    SameHands m m'' :=
  ⟨h'.next.trans h.next, fun desk => (h'.hand desk).trans (h.hand desk)⟩

theorem SameHands.marked {c c' : Case} (h : SameHands c.metadata c'.metadata) (hc : Marked c)
    (hpoint : c'.controlPoint = c.controlPoint) : Marked c' where
  point agent point hagent hat := by
    obtain ⟨desk, hdesk, hhanded⟩ := hc.point agent point hagent (hpoint.symm.trans hat)
    exact ⟨desk, hdesk, by rw [h.hand desk]; exact hhanded⟩
  next := by
    rw [h.next]
    exact hc.next

theorem sameHands_withDesk (desk : Desk) {f : Workspace → Workspace} (hf : ∀ w, (f w).hand = w.hand)
    (m : Metadata) : SameHands m (m.withDesk desk f) := by
  refine ⟨rfl, fun desk' => ?_⟩
  unfold Metadata.withDesk
  dsimp only
  split
  · exact hf _
  · rfl

theorem sameHands_archiveDeskIf (test : Bool) (desk : Desk) (m : Metadata) :
    SameHands m (archiveDeskIf test desk now m) := by
  unfold archiveDeskIf
  split
  · exact sameHands_withDesk desk (f := archiveDesk now) (fun _ => rfl) m
  · exact ⟨rfl, fun _ => rfl⟩

theorem sameHands_archiveWorkspaces (c : Case) (m : Metadata) :
    SameHands m (archiveWorkspaces env c now m) := by
  have hthen : ∀ {m' : Metadata}, SameHands m m' → ∀ test desk,
      SameHands m (archiveDeskIf test desk now m') :=
    fun h test desk => h.trans (sameHands_archiveDeskIf now test desk _)
  unfold archiveWorkspaces
  dsimp only
  split
  · refine SameHands.trans ?_ (sameHands_withDesk .manager (fun _ => by rfl) _)
    exact hthen (hthen (hthen (hthen ⟨rfl, fun _ => rfl⟩ _ _) _ _) _ _) _ _
  · exact hthen (hthen (hthen (hthen ⟨rfl, fun _ => rfl⟩ _ _) _ _) _ _) _ _

theorem slugs_cancelCurrentTask (s : State) : s.cancelCurrentTask.slugs = s.slugs := by
  unfold State.cancelCurrentTask
  split
  · rfl
  · next id _ =>
    cases s.task? id with
    | none => rfl
    | some task =>
      dsimp only
      split
      · exact slugs_setTaskStatus id .cancelled s
      · rfl

theorem metadata_cancelCurrentTask (s : State) :
    s.cancelCurrentTask.case.metadata = s.case.metadata ∧
      s.cancelCurrentTask.case.controlPoint = s.case.controlPoint := by
  unfold State.cancelCurrentTask
  split
  · exact ⟨rfl, rfl⟩
  · next id _ =>
    cases s.task? id with
    | none => exact ⟨rfl, rfl⟩
    | some task =>
      dsimp only
      split <;> exact ⟨rfl, rfl⟩

variable (hs : Supported s)
include hs

/-- The marks of a hand-off stay in the archive. -/
theorem lawful_archiveCase (closedReason eventType key : String) (mark : SourceMark) :
    Lawful s (archiveCase env closedReason eventType key mark now s) := by
  unfold archiveCase
  split
  · exact (Carries.refl s).lawful hs
  · dsimp only
    refine Lawful.carries ?_ (carries_appendEvent _ _ _ _ _)
    generalize hclosing : State.withCase _ s = closing
    have hslugs : closing.slugs = s.slugs := by
      rw [← hclosing]
      rfl
    have hhands : SameHands s.case.metadata closing.case.metadata := by
      rw [← hclosing]
      exact sameHands_archiveWorkspaces env now s.case s.case.metadata
    have hpoint : closing.case.controlPoint = s.case.controlPoint := by
      rw [← hclosing]
      rfl
    have hstatus : closing.case.status = .closed := by
      rw [← hclosing]
      rfl
    refine Supported.lawful ⟨?_, fun hopen => ?_⟩ ((slugs_cancelCurrentTask closing).trans hslugs)
    · refine SameHands.marked (c := s.case) ?_ hs.marked ?_
      · rw [(metadata_cancelCurrentTask closing).1]
        exact hhands
      · exact (metadata_cancelCurrentTask closing).2.trans hpoint
    · rw [(case_cancelCurrentTask closing).1, hstatus] at hopen
      cases hopen

theorem supported_updateCaseCard {document : Document}
    (hfresh : Fresh (updateCaseCard document s.case)) :
    Supported (s.withCase (updateCaseCard document)) :=
  ⟨SameHands.marked (c := s.case) ⟨rfl, fun _ => rfl⟩ hs.marked rfl, fun _ => hfresh⟩

theorem supported_reactivateCase (hfresh : Fresh s.case) (document : Document) :
    Supported (reactivateCase env document s) := by
  have hpoint : ∀ agent, handOffPoint agent ≠
      some (if env.planningEnabled then "KT1" else "basis") := by
    split <;> exact handOffPoint_ne (by decide) (by decide)
  have hbasis : SameBasis s.case { s.case with
      status := .new
      closedAt := none
      closedReason := none
      controlPoint := some (if env.planningEnabled then "KT1" else "basis") } :=
    (sameBasis_withPoint hpoint).trans (sameBasis_of_point rfl rfl rfl rfl)
  unfold reactivateCase
  refine Supported.carries ⟨?_, fun _ => ?_⟩ (carries_appendEvent _ _ _ _ _)
  · exact hbasis.marked hs.marked
  · exact hbasis.fresh hfresh

theorem lawful_documentChanged {document : Document}
    (hfresh : Fresh (updateCaseCard document s.case)) :
    Lawful s (documentChanged env document s) := by
  have hcard := supported_updateCaseCard hs hfresh
  have hnoted := carries_noteEvent "source_document_changed"
    (document.pollIdempotencyKey ++ ":changed") (s.withCase (updateCaseCard document))
  unfold documentChanged
  dsimp only
  split
  · refine (supported_reactivateCase env (hcard.carries hnoted) (hnoted.basis.fresh hfresh)
      document).lawful ?_
    unfold reactivateCase State.slugs
    rw [tasks_appendEvent, tasks_withCase, tasks_noteEvent]
    rfl
  · refine (hcard.carries hnoted).lawful ?_
    unfold State.slugs
    rw [tasks_noteEvent]
    rfl

theorem lawful_upsertCaseFromDocument {document : Document}
    (hfresh : takesOver document s.case = true → Fresh (updateCaseCard document s.case)) :
    Lawful s (upsertCaseFromDocument env document now s) := by
  have hsynced : Carries s (s.withCase fun c => { c with sourceSyncedAt := some now }) :=
    carries_withCase s rfl (sameBasis_of_point rfl rfl rfl rfl)
  have hs' := hs.carries hsynced
  unfold upsertCaseFromDocument
  dsimp only
  split
  · exact hsynced.lawful hs
  next hrecent =>
  split
  · exact (lawful_archiveCase env now hs' _ _ _ _).of_slugs rfl
  next hskip =>
  split
  · exact hsynced.lawful hs
  next hreleased =>
  split
  · refine (hsynced.trans (Carries.trans ?_ (carries_enqueueRoleAgent env now _))).lawful hs
    exact carries_withCase _ (by rfl) (sameBasis_of_point rfl rfl rfl rfl)
  next hchanged =>
  refine ((lawful_documentChanged env hs' ?_).carries (carries_enqueueRoleAgent env now _)).of_slugs rfl
  refine (SameBasis.fresh (c := updateCaseCard document s.case) ?_) (hfresh ?_)
  · exact sameBasis_of_point rfl rfl rfl rfl
  · change ¬ (!document.recent && s.case.status.terminal) = true at hrecent
    change ¬ s.case.released = true at hreleased
    change ¬ s.case.unchanged document = true at hchanged
    have hread : (document.recent || !s.case.status.terminal) = true := by
      cases hr : document.recent with
      | true => rfl
      | false =>
        rw [hr, Bool.not_false, Bool.true_and, Bool.not_eq_true] at hrecent
        rw [hrecent]
        rfl
    unfold takesOver
    rw [hread, Bool.eq_false_iff.mpr hskip, Bool.eq_false_iff.mpr hreleased,
      Bool.eq_false_iff.mpr hchanged]
    rfl

theorem lawful_closeOutsideActiveRefs (reason : InactiveReason) :
    Lawful s (closeOutsideActiveRefs env reason now s) := by
  unfold closeOutsideActiveRefs
  split
  · have hsynced : Carries s (s.withCase fun c => { c with sourceSyncedAt := some now }) :=
      carries_withCase s rfl (sameBasis_of_point rfl rfl rfl rfl)
    exact (lawful_archiveCase env now (hs.carries hsynced) _ _ _ _).of_slugs rfl
  · exact (Carries.refl s).lawful hs

end

/-! ## Results -/

/-- A result that is stored where a hand-off rests on it is about the revision of the case. -/
def upToDateOutput (agentId : AgentId) (id : TaskId) (result : RoleResult) (s : State) : Prop :=
  ∀ task desk, s.task? id = some task → waitingDesk agentId = some desk →
    (handsOff agentId result = true ∨ (s.case.metadata.desk desk).handoffAgentId.isSome = true) →
      task.sourceData = s.case.revision

/-- A result is up to date: what it is stored for is fresh, a closed case has no stale hand-off, and
quality control names none of the agents of a hand-off. -/
def upToDateResult (id : TaskId) (result : RoleResult) (s : State) : Prop :=
  let result := withAgentOf result s
  let agentId := result.agentId.getD ""
  (s.case.status.terminal = true → Fresh s.case) ∧ upToDateOutput agentId id result s ∧
    (agentId ∈ qualityRoleAgentIds → ∀ agent ∈ handOffAgents,
      result.output.bind Output.nextAgent ≠ some agent)

section
variable (env : Env) (now : Time) {s : State} {agentId : AgentId} {id : TaskId}
  {result : RoleResult} {sourceData : Revision}

/-- What a result stores: the output of the workspace that waits, that of the purchase manager, or the
next agent of quality control. -/
theorem recordOutput_cases (agentId : AgentId) (result : RoleResult) (sourceData : Revision)
    (m : Metadata) :
    (∃ desk, waitingDesk agentId = some desk ∧
      recordOutput agentId result sourceData m =
        m.withDesk desk (storeOutput ⟨result.output, sourceData⟩)) ∨
    waitingDesk agentId = none ∧
      (recordOutput agentId result sourceData m =
          m.withDesk .manager (storeManagerOutput ⟨result.output, sourceData⟩) ∨
        agentId ∈ qualityRoleAgentIds ∧ recordOutput agentId result sourceData m =
          { m with nextQualityAgent := nextQualityAgentAfter result m } ∨
        recordOutput agentId result sourceData m = m) := by
  unfold recordOutput waitingDesk
  dsimp only
  split
  · exact .inl ⟨.engineer, rfl, rfl⟩
  split
  · exact .inl ⟨.dispatcher, rfl, rfl⟩
  split
  · next desk hdesk => exact .inl ⟨desk, hdesk, rfl⟩
  next hdesk =>
  refine .inr ⟨hdesk, ?_⟩
  split
  · exact .inl rfl
  split
  · next hquality => exact .inr (.inl ⟨hquality, rfl⟩)
  · exact .inr (.inr rfl)

theorem waitingDesk_ne {desk : Desk} (h : waitingDesk agentId = some desk) : desk ≠ .manager := by
  unfold waitingDesk warehouseAvailabilitySpec at h
  rintro rfl
  split at h
  · cases h
  split at h
  · cases h
  split at h
  · cases h
  split at h
  · cases h
  · cases h

theorem nextQualityAgentAfter_ne {m : Metadata} {agent : AgentId}
    (houtput : result.output.bind Output.nextAgent ≠ some agent)
    (hm : m.nextQualityAgent ≠ some agent) : nextQualityAgentAfter result m ≠ some agent := by
  unfold nextQualityAgentAfter
  split
  · next other hother =>
    rw [hother] at houtput
    exact houtput
  · split
    · exact fun h => by cases h
    · exact hm

theorem slugs_recordResult (agentId : AgentId) (id : TaskId) (result : RoleResult)
    (sourceData : Revision) (s : State) :
    (recordResult agentId id result sourceData s).slugs = s.slugs :=
  slugs_withTask (f := fun task => { task with finalResult := some result }) (fun _ => rfl) id _

theorem case_recordResult :
    (recordResult agentId id result sourceData s).case =
      { s.case with metadata := recordOutput agentId result sourceData s.case.metadata } :=
  rfl

theorem handedBy_recordResult (desk : Desk) (agent : AgentId) :
    (recordResult agentId id result sourceData s).case.handedBy desk agent ↔
      s.case.handedBy desk agent := by
  unfold Case.handedBy
  refine and_congr_right fun hdesk => ?_
  rw [case_recordResult]
  dsimp only
  rcases recordOutput_cases agentId result sourceData s.case.metadata with
    ⟨desk', -, hstored⟩ | ⟨-, hstored | ⟨-, hstored⟩ | hstored⟩
  · rw [hstored, desk_withDesk]
    split <;> exact Iff.rfl
  · rw [hstored, desk_withDesk]
    split <;> exact Iff.rfl
  · rw [hstored]
  · rw [hstored]

theorem computedFor_recordResult {desk : Desk} (h : waitingDesk agentId = some desk) :
    ((recordResult agentId id result sourceData s).case.metadata.desk desk).hand.computedFor =
      some sourceData := by
  rw [case_recordResult]
  dsimp only
  rcases recordOutput_cases agentId result sourceData s.case.metadata with
    ⟨desk', hdesk, hstored⟩ | ⟨hnone, -⟩
  · rw [h] at hdesk
    rw [hstored, Option.some.inj hdesk, desk_withDesk, if_pos rfl]
    rfl
  · rw [h] at hnone
    cases hnone

theorem marked_recordResult (hs : Marked s.case) (hnext : agentId ∈ qualityRoleAgentIds →
      ∀ agent ∈ handOffAgents, result.output.bind Output.nextAgent ≠ some agent) :
    Marked (recordResult agentId id result sourceData s).case where
  point agent point hagent hat := by
    obtain ⟨desk, hhanded⟩ := hs.point agent point hagent hat
    exact ⟨desk, (handedBy_recordResult desk agent).mpr hhanded⟩
  next agent hagent := by
    rw [case_recordResult]
    dsimp only
    rcases recordOutput_cases agentId result sourceData s.case.metadata with
      ⟨desk', -, hstored⟩ | ⟨-, hstored | ⟨hquality, hstored⟩ | hstored⟩
    · rw [hstored]
      exact hs.next agent hagent
    · rw [hstored]
      exact hs.next agent hagent
    · rw [hstored]
      exact nextQualityAgentAfter_ne (hnext hquality agent hagent) (hs.next agent hagent)
    · rw [hstored]
      exact hs.next agent hagent

theorem fresh_recordResult (hs : Fresh s.case)
    (hdata : ∀ desk, waitingDesk agentId = some desk →
      (s.case.metadata.desk desk).handoffAgentId.isSome = true → sourceData = s.case.revision) :
    Fresh (recordResult agentId id result sourceData s).case := by
  intro desk agent hhanded
  have hbefore := (handedBy_recordResult desk agent).mp hhanded
  by_cases hdesk : waitingDesk agentId = some desk
  · have hmark : (s.case.metadata.desk desk).handoffAgentId = some agent := hbefore.2
    rw [computedFor_recordResult hdesk, hdata desk hdesk (by rw [hmark]; rfl)]
    rfl
  · -- the output of the workspace is as before
    have hsame : ((recordResult agentId id result sourceData s).case.metadata.desk desk).hand =
        (s.case.metadata.desk desk).hand := by
      rw [case_recordResult]
      dsimp only
      rcases recordOutput_cases agentId result sourceData s.case.metadata with
        ⟨desk', hdesk', hstored⟩ | ⟨-, hstored | ⟨-, hstored⟩ | hstored⟩
      · have hne : desk ≠ desk' := by
          rintro rfl
          exact hdesk hdesk'
        rw [hstored, desk_withDesk, if_neg hne]
      · rw [hstored, desk_withDesk, if_neg hbefore.1]
      · rw [hstored]
      · rw [hstored]
    rw [hsame]
    exact hs desk agent hbefore

/-! ## What a result does -/

/-- A result without a hand-off changes nothing of the basis. -/
theorem sameBasis_completeCase (agentId : AgentId) (result : RoleResult) (key : Option String)
    (c : Case) : SameBasis c (completeCase agentId result key now c) := by
  have hcoverage : ∀ agent, handOffPoint agent ≠ some "coverage" :=
    handOffPoint_ne (by decide) (by decide)
  have hreleased : SameBasis c (closeReleased agentId result now
      { c with
        status := completedStatus agentId result
        metadata := { c.metadata with roleAgentCompletionKey := key } }) := by
    unfold closeReleased
    split <;> exact ⟨rfl, rfl, rfl, fun _ _ => rfl, fun _ _ _ h => h⟩
  unfold completeCase
  dsimp only
  generalize closeReleased agentId result now _ = released at hreleased ⊢
  split
  · have hpoint : SameBasis released { released with controlPoint := some "coverage" } :=
      sameBasis_withPoint hcoverage
    refine hreleased.trans (hpoint.trans ⟨rfl, rfl, rfl, fun desk _ => ?_, fun _ _ _ h => h⟩)
    change (if desk = .dispatcher then doneDesk _ now (released.metadata.desk desk)
      else released.metadata.desk desk).hand = _
    split <;> rfl
  · exact hreleased.trans (sameBasis_of_point rfl rfl rfl rfl)

theorem sameBasis_completedState (agentId : AgentId) (id : TaskId) (result : RoleResult) (s : State) :
    SameBasis s.case (completedState agentId id result now s).case :=
  sameBasis_completeCase now agentId result _ s.case

theorem slugs_completedState (agentId : AgentId) (id : TaskId) (result : RoleResult) (s : State) :
    (completedState agentId id result now s).slugs = s.slugs :=
  slugs_setTaskStatus id .completed s

/-- A result without a hand-off. -/
theorem basis_applyRoleStatus (id : TaskId) (s : State) (h : handsOff agentId result = false) :
    SameBasis s.case (applyRoleStatus env agentId id result now s).case ∧
      (applyRoleStatus env agentId id result now s).slugs = s.slugs := by
  have hstatus : ∀ status, SameBasis s.case { s.case with status } :=
    fun _ => sameBasis_of_point rfl rfl rfl rfl
  unfold handsOff at h
  unfold applyRoleStatus
  cases hrole : result.roleStatus with
  | waitingHuman =>
    unfold applyWaitingHuman
    dsimp only
    split
    · exact ⟨(hstatus _).trans (sameBasis_withDesk _ fun _ => rfl), slugs_setTaskStatus id _ s⟩
    · exact ⟨hstatus _, slugs_setTaskStatus id _ s⟩
  | waitingExternal => exact ⟨hstatus _, slugs_setTaskStatus id _ s⟩
  | completed =>
    rw [hrole, beq_self_eq_true, Bool.true_and, Bool.or_eq_false_iff] at h
    dsimp only
    rw [applyCompleted_eq]
    unfold handOffAfter
    rw [if_neg (by rw [beq_eq_false_iff_ne] at h; exact h.1)]
    cases hdesk : warehouseAvailabilitySpec agentId with
    | none => exact ⟨sameBasis_completedState now agentId id result s, slugs_completedState now _ _ _ s⟩
    | some desk =>
      rw [hdesk] at h
      cases h.2
  | failed => exact ⟨hstatus _, slugs_setTaskStatus id _ s⟩

theorem handOffPoint_inj {agent agent' : AgentId} {point : String}
    (h : handOffPoint agent = some point) (h' : handOffPoint agent' = some point) :
    agent = agent' := by
  unfold handOffPoint at h h'
  split at h
  · next homto =>
    cases h
    split at h'
    · next homto' => rw [homto, homto']
    split at h'
    · exact absurd (Option.some.inj h') (by decide)
    · cases h'
  split at h
  · next hdispatcher =>
    cases h
    split at h'
    · exact absurd (Option.some.inj h') (by decide)
    split at h'
    · next hdispatcher' => rw [hdispatcher, hdispatcher']
    · cases h'
  · cases h

/-- A hand-off by a role whose output is about the revision of the case. -/
theorem lawful_handOff (hfresh : Fresh s.case) (hmarked : Marked s.case) {desk : Desk}
    (hdesk : desk ≠ .manager)
    (hcomputed : (s.case.metadata.desk desk).hand.computedFor = some s.case.revision)
    {nextAgent : AgentId} {controlPoint : String}
    (hpoint : handOffPoint nextAgent = some controlPoint) (bucket : Bucket)
    (eventType key : String) (previous : CaseStatus) :
    Lawful s (handOff env desk bucket nextAgent controlPoint eventType key previous now s) := by
  unfold handOff
  dsimp only
  generalize hmoved : State.withCase _ (s.withDesk desk _) = moved
  have hrevision : moved.case.revision = s.case.revision := by
    rw [← hmoved]
    rfl
  have hat : moved.case.controlPoint = some controlPoint := by
    rw [← hmoved]
    rfl
  have hnext : moved.case.metadata.nextQualityAgent = s.case.metadata.nextQualityAgent := by
    rw [← hmoved]
    rfl
  have hown : (moved.case.metadata.desk desk).hand =
      ⟨some nextAgent, (s.case.metadata.desk desk).hand.computedFor⟩ := by
    rw [← hmoved, case_withCase, case_withDesk]
    dsimp only
    rw [desk_withDesk, if_pos rfl]
    rfl
  have hother : ∀ desk', desk' ≠ desk →
      (moved.case.metadata.desk desk').hand = (s.case.metadata.desk desk').hand := by
    intro desk' hne
    rw [← hmoved, case_withCase, case_withDesk]
    dsimp only
    rw [desk_withDesk, if_neg hne]
  have hslugs : moved.slugs = s.slugs := by
    rw [← hmoved]
    rfl
  have hsupported : Supported moved := by
    refine ⟨⟨fun agent point hagent hpoint' => ?_, ?_⟩, fun _ desk' agent hhanded => ?_⟩
    · rw [hat, Option.some.injEq] at hpoint'
      rw [← hpoint'] at hagent
      exact ⟨desk, hdesk, by rw [hown, handOffPoint_inj hpoint hagent]⟩
    · rw [hnext]
      exact hmarked.next
    · rw [hrevision]
      by_cases hd : desk' = desk
      · rw [hd, hown]
        exact hcomputed
      · have hbefore : s.case.handedBy desk' agent := ⟨hhanded.1, by rw [← hother desk' hd]; exact hhanded.2⟩
        rw [hother desk' hd]
        exact hfresh desk' agent hbefore
  exact (((carries_appendEvent _ _ _ _ moved).trans
    (carries_enqueueRoleAgent env now _)).lawful hsupported).of_slugs hslugs

theorem lawful_handOffAfter (hfresh : Fresh s.case) (hmarked : Marked s.case)
    (hcomputed : ∀ desk, waitingDesk agentId = some desk →
      (s.case.metadata.desk desk).hand.computedFor = some s.case.revision)
    (hhands : agentId = productionPreparationEngineer ∨
      (warehouseAvailabilitySpec agentId).isSome = true) (id : TaskId) (result : RoleResult)
    (previous : CaseStatus) : Lawful s (handOffAfter env agentId id result previous now s) := by
  unfold handOffAfter
  split
  · next hengineer =>
    refine lawful_handOff env now hfresh hmarked (by decide) (hcomputed .engineer ?_) (by decide) _ _ _ _
    unfold waitingDesk
    rw [if_pos hengineer]
  next hengineer =>
  cases hspec : warehouseAvailabilitySpec agentId with
  | none =>
    rw [hspec] at hhands
    rcases hhands with heq | hnone
    · exact absurd heq hengineer
    · cases hnone
  | some desk =>
    have hdesk : waitingDesk agentId = some desk := by
      unfold waitingDesk
      rw [if_neg hengineer, if_neg, hspec]
      rintro rfl
      cases hspec
    exact lawful_handOff env now hfresh hmarked (waitingDesk_ne hdesk) (hcomputed desk hdesk) (by decide) _ _ _ _

theorem lawful_applyRoleAgentResult (hs : Supported s) (eventType : String) (id : TaskId)
    (result : RoleResult) (h : upToDateResult id result s) :
    Lawful s (applyRoleAgentResult env eventType id result now s) := by
  cases htask : s.task? id with
  | none =>
    unfold applyRoleAgentResult
    rw [htask]
    exact (Carries.refl s).lawful hs
  | some task =>
    rw [applyRoleAgentResult_eq env now s eventType result htask]
    refine Lawful.carries ?_ (carries_appendEvent _ _ _ _ _)
    unfold upToDateResult at h
    unfold resultState
    dsimp only at h ⊢
    generalize withAgentOf result s = filled at h ⊢
    generalize filled.agentId.getD "" = agentId at h ⊢
    obtain ⟨hclosed, houtput, hnext⟩ := h
    have hfresh : Fresh s.case := by
      cases hterminal : s.case.status.terminal with
      | true => exact hclosed hterminal
      | false => exact hs.fresh hterminal
    have hfresh' : Fresh (recordResult agentId id filled task.sourceData s).case :=
      fresh_recordResult hfresh fun desk hdesk hmark => houtput task desk htask hdesk (.inr hmark)
    have hmarked' : Marked (recordResult agentId id filled task.sourceData s).case :=
      marked_recordResult hs.marked hnext
    refine Lawful.of_slugs ?_ (slugs_recordResult agentId id filled task.sourceData s)
    cases hhands : handsOff agentId filled with
    | false =>
      have hdone := basis_applyRoleStatus env now id (recordResult agentId id filled task.sourceData s)
        hhands
      exact Supported.lawful ⟨hdone.1.marked hmarked', fun _ => hdone.1.fresh hfresh'⟩ hdone.2
    | true =>
      have hparts := hhands
      unfold handsOff at hparts
      rw [Bool.and_eq_true, beq_iff_eq, Bool.or_eq_true, beq_iff_eq] at hparts
      unfold applyRoleStatus
      rw [hparts.1]
      dsimp only
      rw [applyCompleted_eq]
      have hbasis := sameBasis_completedState now agentId id filled
        (recordResult agentId id filled task.sourceData s)
      refine Lawful.of_slugs ?_ (slugs_completedState now agentId id filled _)
      refine lawful_handOffAfter env now (hbasis.fresh hfresh') (hbasis.marked hmarked') ?_ hparts.2 _ _ _
      intro desk hdesk
      rw [hbasis.hand desk (waitingDesk_ne hdesk), hbasis.revision, computedFor_recordResult hdesk,
        houtput task desk htask hdesk (.inl hhands)]
      rfl

theorem lawful_resumeCaseAgent (hs : Supported s) (result : RoleResult)
    (h : ∀ id task, s.case.currentTaskId = some id → s.currentTask? = some task →
      (task.status.waiting || task.status == .failed) = true → upToDateResult id result s) :
    Lawful s (resumeCaseAgent env result now s) :=
  resumeCaseAgent_of env result (P := Lawful s) ((Carries.refl s).lawful hs)
    fun id task hcurrent htask hstatus =>
      lawful_applyRoleAgentResult env now hs _ id result (h id task hcurrent htask hstatus)

theorem upToDateResult_congr {s' : State} (hterminal : s'.case.status.terminal = s.case.status.terminal)
    (hbasis : SameBasis s.case s'.case) (hagent : s'.case.currentAgentId = s.case.currentAgentId)
    (htasks : s'.tasks = s.tasks) (h : upToDateResult id result s) : upToDateResult id result s' := by
  obtain ⟨hclosed, houtput, hnext⟩ := h
  have hfilled : withAgentOf result s' = withAgentOf result s := by
    unfold withAgentOf
    rw [hagent]
  refine ⟨fun hc => hbasis.fresh (hclosed (hterminal.symm.trans hc)), ?_, ?_⟩
  · rw [hfilled]
    intro task desk htask hdesk hreason
    have hhand := congrArg Hand.agent (hbasis.hand desk (waitingDesk_ne hdesk))
    change (s'.case.metadata.desk desk).handoffAgentId = (s.case.metadata.desk desk).handoffAgentId
      at hhand
    rw [hhand] at hreason
    rw [task?_congr htasks] at htask
    rw [hbasis.revision]
    exact houtput task desk htask hdesk hreason
  · rw [hfilled]
    exact hnext

def Confirmation.answers (k : Confirmation) (w : Workspace) : Bool := !k.doneBefore w && k.decides w

theorem lawful_confirm (hs : Supported s) (k : Confirmation) (user : String)
    (h : k.answers (s.case.metadata.desk k.desk) = true → ∀ id task,
      s.case.currentTaskId = some id → s.currentTask? = some task → task.status = .waitingHuman →
        upToDateResult id (confirmedResult k task (s.case.metadata.desk k.desk)) s) :
    Lawful s (confirm env k user now s).1 := by
  refine confirm_of env (P := Lawful s) ((Carries.refl s).lawful hs) ?_
  intro id task hcurrent htask hdone hdecides hwaiting
  have hanswers : k.answers (s.case.metadata.desk k.desk) = true := by
    unfold Confirmation.answers
    rw [hdone, hdecides]
    rfl
  have hconfirmed : Carries s (confirmedState now s k user id) :=
    (carries_withDesk s (f := fun w => { w with
      actionAt := some now, actionBy := some user }) fun _ => rfl).trans (carries_noteEvent _ _ _)
  have hquiet := quiet_confirmedState now s k user id
  have hresult := upToDateResult_congr hconfirmed.terminal hconfirmed.basis
    hquiet.currentAgentId hquiet.tasks (h hanswers id task hcurrent htask hwaiting)
  refine (lawful_applyRoleAgentResult env now (hs.carries hconfirmed) "role_agent_resumed" id _
    hresult).of_slugs ?_
  unfold State.slugs
  rw [hquiet.tasks]

end

/-- The document does not change once a role handed the case over, unless back to what its output is
about, and the results that a hand-off rests on are about the revision of the case. -/
def Step.UpToDate : Step → World → Prop
  | .operation (.upsert document _), w => takesOver document w.state.case = true →
      Fresh (updateCaseCard document w.state.case)
  | .operation (.resume result _), w => ∀ id task, w.state.case.currentTaskId = some id →
      w.state.currentTask? = some task → (task.status.waiting || task.status == .failed) = true →
        upToDateResult id result w.state
  | .operation (.confirm desk _ _), w => ∀ k, confirmationOf desk = some k →
      k.answers (w.state.case.metadata.desk k.desk) = true → ∀ id task,
        w.state.case.currentTaskId = some id → w.state.currentTask? = some task →
          task.status = .waitingHuman →
            upToDateResult id (confirmedResult k task (w.state.case.metadata.desk k.desk)) w.state
  | .finish id result _, w => w.workers.any (fun worker => worker.task = id) = true →
      upToDateResult id result w.state
  | _, _ => True

theorem Step.lawful {step : Step} {w : World} (env : Env) (hs : Supported w.state)
    (h : step.UpToDate w) : Lawful w.state (step.apply env w).state := by
  refine Step.apply_of (P := Lawful w.state) ((Carries.refl _).lawful hs) ?_
    (fun id _ _ => (carries_setTaskStatus id .running w.state).lawful hs) ?_
    (fun _ _ _ => (carries_setTaskStatus _ _ w.state).lawful hs)
  · rintro operation rfl
    cases operation with
    | upsert document now => exact lawful_upsertCaseFromDocument env now hs h
    | closeOutside reason now => exact lawful_closeOutsideActiveRefs env now hs reason
    | assign now => exact ((passing_carries env now).ensureActiveCaseAssignment w.state).lawful hs
    | availability desk stale now =>
      exact ((passing_carries env now).ensureWarehouseAvailabilityWork w.state desk stale).lawful hs
    | migrate now => exact ((passing_carries env now).migrateUndecidedEngineerCase w.state).lawful hs
    | purchase stale now => exact ((passing_carries env now).ensurePurchaseManagerWork w.state stale).lawful hs
    | supplier evidence now =>
      exact (carries_reconcileSupplierOrders env now w.state evidence).lawful hs
    | journal evidence now =>
      exact (carries_reconcilePresentations env now w.state evidence).lawful hs
    | resume result now => exact lawful_resumeCaseAgent env now hs result h
    | confirm desk user now =>
      unfold Operation.apply
      dsimp only
      split
      · next k hk => exact lawful_confirm env now hs k user (h k hk)
      · exact (Carries.refl _).lawful hs
    | acknowledge desk user now => exact (carries_acknowledgeCritical now w.state desk user).lawful hs
  · rintro id result now rfl hrunning
    exact lawful_applyRoleAgentResult env now hs _ id result (h hrunning)

/-! ## Runs -/

theorem supported_createCase (id : String) (document : Document) (now : Time) :
    Supported (createCase id document now) := by
  refine ⟨⟨fun agent point hagent hpoint => ?_, fun _ _ h => by cases h⟩, fun _ _ _ hhanded => ?_⟩
  · rw [← Option.some.inj hpoint] at hagent
    exact absurd hagent (handOffPoint_ne (by decide) (by decide) agent)
  · cases hhanded.2

/-- In a run of steps that are up to date, every new task of the chief of supply or of the dispatcher
rests on outputs for the revision of the case: the first poll starts no other, and no step does. -/
theorem noStaleHandOff_run (env : Env) (id : String) (document : Document) (now : Time)
    (steps : List Step)
    (h : GuardedRun env Step.UpToDate steps (World.first env id document now)) :
    NoStaleHandOff (createCase id document now) (firstPoll env id document now) ∧
      let w := (World.first env id document now).run env steps
      ∀ step : Step, step.UpToDate w → NoStaleHandOff w.state (step.apply env w).state := by
  have hfirst := (carries_enqueueRoleAgent env now (createCase id document now)).lawful
    (supported_createCase id document now)
  refine ⟨hfirst.noStaleHandOff, fun step hstep => ?_⟩
  refine (Step.lawful env ?_ hstep).noStaleHandOff
  exact h.invariant (P := fun w => Supported w.state)
    (fun _ _ hs hstep => (Step.lawful env hs hstep).supported) hfirst.supported

def complexDone : RoleResult := ⟨.completed, some warehouseComplexChief, none⟩

/-- The chief of the warehouse complex hands the case to the chief of supply. -/
def handedToOmto : List Step := [.start 0, .finish 0 complexDone "t"]

theorem noStaleHandOff_handedToOmto :
    NoStaleHandOff (createCase "case" plainDocument "t") (firstPoll plainEnv "case" plainDocument "t") ∧
      let w := plainWorld.run plainEnv handedToOmto
      ∀ step : Step, step.UpToDate w → NoStaleHandOff w.state (step.apply plainEnv w).state := by
  refine noStaleHandOff_run plainEnv "case" plainDocument "t" handedToOmto
    ⟨trivial, fun _ => ⟨fun hterminal => ?_, fun task desk htask _ _ => ?_, fun hquality => ?_⟩, trivial⟩
  · have hopen : ((Step.start 0).apply plainEnv plainWorld).state.case.status.terminal = false := by
      decide +kernel
    exact absurd (hterminal.symm.trans hopen) (by decide)
  · have hdata : (((Step.start 0).apply plainEnv plainWorld).state.task? 0).map Task.sourceData =
        some ((Step.start 0).apply plainEnv plainWorld).state.case.revision := by
      decide +kernel
    change ((Step.start 0).apply plainEnv plainWorld).state.task? 0 = some task at htask
    rw [htask] at hdata
    exact Option.some.inj hdata
  · exact absurd hquality (by decide)

def omtoWaits : List Step :=
  handedToOmto ++ [.start 1, .finish 1 ⟨.waitingHuman, some omtoChief, none⟩ "t"]

def changedDocument : Document :=
  { plainDocument with contentHash := "h2", positions := [⟨"1", "steel", 7⟩] }

/-- The chief of supply gets a new task for the changed document, with the output for the old one. -/
theorem noStaleHandOff_changedDocument_fails :
    ¬ NoStaleHandOff (plainWorld.run plainEnv omtoWaits).state
      ((Step.operation (.upsert changedDocument "u")).apply plainEnv
        (plainWorld.run plainEnv omtoWaits)).state := by
  intro h
  have hsource : ((Step.operation (.upsert changedDocument "u")).apply plainEnv
      (plainWorld.run plainEnv omtoWaits)).state.case.sourceType = .productionMaterialOrder := by
    decide +kernel
  have hstarted : ((((Step.operation (.upsert changedDocument "u")).apply plainEnv
      (plainWorld.run plainEnv omtoWaits)).state.tasks.drop
        (plainWorld.run plainEnv omtoWaits).state.tasks.length).map Task.agentSlug) =
      [omtoChief] := by
    decide +kernel
  have hhand : (((Step.operation (.upsert changedDocument "u")).apply plainEnv
      (plainWorld.run plainEnv omtoWaits)).state.case.metadata.desk .complex).hand =
      ⟨some omtoChief, some ⟨"h", [⟨"1", "steel", 5⟩]⟩⟩ := by
    decide +kernel
  have hrevision : ((Step.operation (.upsert changedDocument "u")).apply plainEnv
      (plainWorld.run plainEnv omtoWaits)).state.case.revision = ⟨"h2", [⟨"1", "steel", 7⟩]⟩ := by
    decide +kernel
  obtain ⟨task, htask, hslug⟩ := List.mem_map.mp (hstarted ▸ List.mem_singleton_self omtoChief)
  have hbacked := h hsource task htask (by rw [hslug]; decide)
  rw [hslug] at hbacked
  have hcomputed := hbacked.2 .complex ⟨by decide, by rw [hhand]⟩
  rw [hhand, hrevision] at hcomputed
  exact absurd hcomputed (by decide)

end AgentBack.Orchestrator
