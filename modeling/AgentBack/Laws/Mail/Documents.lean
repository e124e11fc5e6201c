import AgentBack.Laws.Mail.Retry
import AgentBack.Mail.Documents

/-!
# One document for a letter

A task creates a document without asking 1C for one of the letter, and writes it down afterwards.
That there is one document at most is therefore up to the runs: tasks that may create do not overlap,
the graph is not run for a letter that has its document, and no worker dies between the call and the
row.
-/

namespace AgentBack.Mail

open Supply (isGiven givenOr)

variable {lower : String → String} {settings : ErpSettings} {letter : ErpLetter}

/-- Whether the row has a document that a retry would find. -/
def hasDocument (row : Option ErpRow) : Bool :=
  row.any fun row => resolveRetryErpMode row = .syncExisting

/-- Whether a job may still create or write a document. -/
def ErpJob.busy : ErpJob → Bool
  | .syncing _ => false
  | _ => true

def ErpJob.runsGraph : ErpJob → Bool
  | .graph _ _ => true
  | _ => false

/-- Whether a job has created a document that is not written down. -/
def ErpJob.holds : ErpJob → Bool
  | .called _ _ node => node.creates
  | .created _ create _ => create.creates
  | _ => false

def CreateCall.Names : CreateCall → Prop
  | .answered number taskId documentId => Named number (givenOr taskId documentId)
  | .failed _ => False

/-- The condition under which an event leads to no second document. -/
def OneAtATime (lower : String → String) (settings : ErpSettings) (letter : ErpLetter)
    (system : ErpSystem) : ErpEvent → Prop
  | .start place read persisted =>
    ∀ task ∈ system.queue[place]?,
      ∀ job ∈ (startTask lower settings letter system.row read persisted task).2, job.busy = true →
        (∀ other ∈ system.running, other.busy = false) ∧
          (job.runsGraph = true → hasDocument system.row = false)
  | .node _ (.made create _) => create.creates = true → create.Names
  | .createRetry _ create _ => create.creates = true → create.Names
  | .save place _ persisted =>
    persisted = false → ∀ picked ∈ pick place system.running, picked.1.holds = false
  | .die place => ∀ picked ∈ pick place system.running, picked.1.holds = false
  | _ => True

def NodeCall.Names : NodeCall → Prop
  | .made create _ => create.Names
  | _ => False

/-- The documents that 1C has, as a job knows them. -/
def ErpJob.Sound (row : Option ErpRow) (documents : Nat) : ErpJob → Prop
  | .graph _ _ => documents = 0
  | .called _ _ node => if node.creates then documents = 1 ∧ node.Names else documents = 0
  | .saved _ _ node =>
    if node.creates then documents = 1 ∧ node.Names ∧ hasDocument row = true else documents = 0
  | .creating _ => documents = 0 ∧ row.isSome = true
  | .created _ create _ =>
    row.isSome = true ∧ if create.creates then documents = 1 ∧ create.Names else documents = 0
  | .syncing _ => True

def Settled (row : Option ErpRow) (documents : Nat) : Prop :=
  documents = 0 ∨ documents = 1 ∧ hasDocument row = true

/-- One job at most may create or write a document, every job knows the documents, and when there is
no such job the row does. -/
structure ErpSystem.Sound (system : ErpSystem) : Prop where
  alone : system.running.countP ErpJob.busy ≤ 1
  jobs : ∀ job ∈ system.running, job.Sound system.row system.documents
  settled : system.running.countP ErpJob.busy = 0 → Settled system.row system.documents

variable {job : ErpJob} {row : Option ErpRow} {documents : Nat} {system : ErpSystem}
    {node : NodeCall} {row' : Option ErpRow}

theorem sound_of_idle (h : job.busy = false) (row : Option ErpRow)
    (documents : Nat) : job.Sound row documents := by
  cases job with
  | syncing force => trivial
  | _ => cases h

theorem ErpJob.Sound.le_one
    (h : job.Sound row documents) (hbusy : job.busy = true) : documents ≤ 1 := by
  have hif {creates : Bool} {names : Prop}
      (h : if creates then documents = 1 ∧ names else documents = 0) : documents ≤ 1 := by
    split at h
    · exact h.1.le
    · exact h.le.trans (Nat.zero_le 1)
  cases job with
  | graph task letter => exact (show documents = 0 from h).le.trans (Nat.zero_le 1)
  | called task letter node | saved task state node => exact hif h
  | creating force => exact h.1.le.trans (Nat.zero_le 1)
  | created force create attach => exact hif h.2
  | syncing force => cases hbusy

theorem ErpSystem.Sound.documents_le_one (h : system.Sound) : system.documents ≤ 1 := by
  by_cases hidle : system.running.countP ErpJob.busy = 0
  · rcases h.settled hidle with hnone | ⟨hone, -⟩
    · rw [hnone]
      exact Nat.zero_le 1
    · rw [hone]
  · obtain ⟨job, hmem, hbusy⟩ := List.countP_pos_iff.mp (Nat.pos_of_ne_zero hidle)
    exact (h.jobs job hmem).le_one hbusy

/-! ## Rows that keep their document -/

theorem hasDocument_some {row : ErpRow} :
    hasDocument (some row) = true ↔ resolveRetryErpMode row = .syncExisting := by
  unfold hasDocument
  rw [Option.any_some, decide_eq_true_eq]

theorem hasDocument_of_named {row : ErpRow} (h : Named row.erpDocumentNumber row.erpTaskId) :
    hasDocument (some row) = true :=
  hasDocument_some.mpr (resolveRetryErpMode_of_named h)

theorem resolveRetryErpMode_of_no_task {row : ErpRow} (h : row.erpTaskId = none) :
    resolveRetryErpMode row = .create := by
  have href : existingErpDocumentRefKey row = none := by
    unfold existingErpDocumentRefKey
    rw [h]
    decide +kernel
  unfold resolveRetryErpMode
  dsimp only
  rw [if_pos (.inl href)]

theorem hasDocument_ensureProcessingRow (letter : ErpLetter) (row : Option ErpRow) :
    hasDocument (some (ensureProcessingRow letter row)) = hasDocument row := by
  cases row with
  | none =>
    rw [hasDocument, Option.any_some, resolveRetryErpMode_of_no_task rfl]
    rfl
  | some row => rfl

theorem hasDocument_persistProcessingStart (letter : ErpLetter) (row : Option ErpRow)
    (persisted : Bool) :
    hasDocument (persistProcessingStart letter row persisted) = hasDocument row := by
  cases persisted with
  | false => rfl
  | true => exact hasDocument_ensureProcessingRow letter row

theorem NodeCall.Names.patch (h : node.Names) (humanApproved : Bool) :
    ∃ patch, node.patch humanApproved = some patch ∧
      Named patch.erp.erpDocumentNumber patch.erp.erpTaskId := by
  cases node with
  | notReached | skipped number => exact h.elim
  | made create attach =>
    cases create with
    | failed created => exact h.elim
    | answered number taskId documentId =>
      refine ⟨_, rfl, ?_⟩
      unfold createdPatch
      dsimp only
      split
      · exact h
      · exact h

/-- The last node of the graph writes the document down. -/
theorem hasDocument_upsert (h : node.Names) (row : Option ErpRow)
    (state : GraphState) (humanApproved : Bool) :
    hasDocument (some (upsertFromState row state (node.patch humanApproved))) = true := by
  obtain ⟨patch, hpatch, hnamed⟩ := h.patch humanApproved
  rw [hpatch]
  refine hasDocument_of_named ?_
  show Named (orOld patch.erp.erpDocumentNumber _) (orOld patch.erp.erpTaskId _)
  rw [orOld_of_given hnamed.given.1, orOld_of_given hnamed.given.2]
  exact hnamed

theorem hasDocument_finishRow (h : node.Names)
    (hrow : hasDocument row = true) (task : ErpTask) (state : GraphState) :
    hasDocument (finishRow row task state node) = true := by
  cases task with
  | process | reprocess restored | retry force => exact hrow
  | continueAfterHuman =>
    cases row with
    | none => cases hrow
    | some row =>
      obtain ⟨patch, hpatch, hnamed⟩ := h.patch ErpTask.continueAfterHuman.humanApproved
      unfold finishRow
      dsimp only
      rw [hpatch, Option.map_some]
      unfold syncPostHitlResult
      dsimp only
      split
      · exact hasDocument_of_named hnamed
      · exact hrow

theorem hasDocument_retryCreated {create : CreateCall} (h : create.Names) (row : ErpRow)
    (attach : AttachCall) :
    hasDocument (some (retryCreated settings row create attach).row) = true := by
  cases create with
  | failed created => exact h.elim
  | answered number taskId documentId =>
    refine hasDocument_of_named ?_
    unfold retryCreated
    dsimp only
    split
    · exact h
    · exact h

theorem hasDocument_syncExisting {force : Bool} {row : ErpRow} {calls : SyncCalls}
    {attempt : Attempt} (h : syncExisting force row calls = some attempt) :
    hasDocument (some attempt.row) = hasDocument (some row) := by
  obtain ⟨payload, hrow⟩ := syncExisting_row h
  rw [hrow]
  rfl

/-! ## One step of a job -/

/-- Everything that a step of a job owes to the invariant: a busy one goes on as a busy one that knows
the documents, or leaves them to the row; a synchronisation leaves them alone. -/
def Effect.Sound (effect : Effect) (row : Option ErpRow) (documents : Nat) (busy : Bool) : Prop :=
  if busy then
    (∀ job ∈ effect.job, job.busy = true ∧ job.Sound effect.row (documents + effect.documents)) ∧
      (effect.job = none → Settled effect.row (documents + effect.documents))
  else
    effect.documents = 0 ∧ effect.job = none ∧ hasDocument effect.row = hasDocument row ∧
      effect.row.isSome = row.isSome

theorem Effect.Sound.ends {asks : List ErpTask} (h : Settled row' documents) :
    Effect.Sound { row := row', asks := asks } row documents true := by
  refine ⟨fun job hjob => ?_, fun _ => h⟩
  cases hjob

theorem Effect.Sound.goesOn {created : Nat}
    (hbusy : job.busy = true) (h : job.Sound row' (documents + created)) :
    Effect.Sound { row := row', documents := created, job := some job } row documents true := by
  refine ⟨fun job' hjob => ?_, fun hnone => ?_⟩
  · cases hjob
    exact ⟨hbusy, h⟩
  · cases hnone

/-- The node adds its document to none. -/
theorem sound_called (hnames : node.creates = true → node.Names) (task : ErpTask)
    (letter : ErpLetter) (row : Option ErpRow) :
    (ErpJob.called task letter node).Sound row (0 + if node.creates then 1 else 0) := by
  show if node.creates then _ else _
  split
  · rename_i hcreates
    exact ⟨rfl, hnames hcreates⟩
  · rfl

/-- Writing the row, the last node writes the document down; it may fail to when there is none. -/
theorem sound_saved {task : ErpTask} {letter : ErpLetter} {persisted : Bool} (h : (ErpJob.called task letter node).Sound row documents)
    (hpersisted : persisted = false → node.creates = false) (state : GraphState) :
    (ErpJob.saved task state node).Sound
      (if persisted then some (upsertFromState row state (node.patch task.humanApproved)) else row)
      documents := by
  have hcalled : if node.creates then documents = 1 ∧ node.Names else documents = 0 := h
  show if node.creates then _ else _
  split
  · rename_i hcreates
    rw [if_pos hcreates] at hcalled
    cases persisted with
    | false => exact absurd hcreates (by rw [hpersisted rfl]; exact Bool.false_ne_true)
    | true => exact ⟨hcalled.1, hcalled.2, hasDocument_upsert hcalled.2 row state _⟩
  · rename_i hnone
    rw [if_neg hnone] at hcalled
    exact hcalled

/-- A document that there is when one was created is settled once it is written down. -/
theorem settled_of_written {creates : Bool} {names : Prop}
    (h : if creates then documents = 1 ∧ names else documents = 0)
    (hwritten : creates = true → names → hasDocument row = true) : Settled row documents := by
  split at h
  · rename_i hcreates
    exact .inr ⟨h.1, hwritten hcreates h.2⟩
  · exact .inl h

theorem settled_finish {task : ErpTask} {state : GraphState} (h : (ErpJob.saved task state node).Sound row documents) :
    Settled (finishRow row task state node) documents := by
  apply settled_of_written h
  intro _ hwritten
  exact hasDocument_finishRow hwritten.1 hwritten.2 task state

theorem settled_retryCreated {force : Bool} {create : CreateCall} {attach : AttachCall}
    {row : ErpRow}
    (h : (ErpJob.created force create attach).Sound (some row) documents) :
    Settled (some (retryCreated settings row create attach).row) documents :=
  settled_of_written h.2 fun _ hnames => hasDocument_retryCreated hnames row attach

/-- A worker dies: what its job has not written down is no document. -/
theorem settled_die
    (h : job.Sound row documents) (hbusy : job.busy = true) (hholds : job.holds = false) :
    Settled row documents := by
  cases job with
  | graph task letter => exact .inl h
  | called task letter node =>
    apply settled_of_written h
    intro hcreates _
    exact absurd (hcreates.symm.trans hholds) Bool.true_eq_false.mp
  | saved task state node => exact settled_of_written h fun _ hwritten => hwritten.2
  | creating force => exact .inl h.1
  | created force create attach =>
    apply settled_of_written h.2
    intro hcreates _
    exact absurd (hcreates.symm.trans hholds) Bool.true_eq_false.mp
  | syncing force => cases hbusy

theorem advance_sound {event : ErpEvent} {others : List ErpJob} {effect : Effect}
    (hpick : pick event.place system.running = some (job, others))
    (hcondition : OneAtATime lower settings letter system event)
    (hsound : job.Sound system.row system.documents)
    (h : advance lower settings system.row event job = some effect) :
    effect.Sound system.row system.documents job.busy := by
  cases event with
  | enqueue task | start place read persisted => cases job <;> cases h
  | raise place again =>
    cases job with
    | graph task letter' =>
      simp only [advance] at h
      split at h
      · cases h
      · cases h
        exact .ends (.inl hsound)
    | _ => cases h
  | node place node =>
    cases job with
    | graph task letter' =>
      simp only [advance] at h
      split at h
      · cases h
        have hnone : system.documents = 0 := hsound
        refine .goesOn rfl ?_
        rw [hnone]
        refine sound_called (fun hcreates => ?_) task letter' system.row
        cases node with
        | notReached | skipped number => cases hcreates
        | made create attach => exact hcondition hcreates
      · cases h
    | _ => cases h
  | save place state persisted =>
    cases job with
    | called task letter' node =>
      simp only [advance] at h
      split at h
      · cases h
        refine .goesOn rfl (sound_saved hsound (fun hfails => ?_) state)
        exact hcondition hfails _ hpick
      · cases h
    | _ => cases h
  | finish place =>
    cases job with
    | saved task state node =>
      cases h
      exact .ends (settled_finish hsound)
    | _ => cases h
  | createRetry place create attach =>
    cases job with
    | creating force =>
      cases h
      obtain ⟨hnone, hrow⟩ := hsound
      refine .goesOn rfl ⟨hrow, ?_⟩
      rw [hnone]
      split
      · rename_i hcreates
        exact ⟨rfl, hcondition hcreates⟩
      · rfl
    | _ => cases h
  | saveRetry place =>
    cases job with
    | created force create attach =>
      obtain ⟨row, hrow⟩ := Option.isSome_iff_exists.mp hsound.1
      rw [hrow] at h hsound
      cases h
      exact .ends (settled_retryCreated hsound)
    | _ => cases h
  | saveSync place calls =>
    cases job with
    | syncing force =>
      cases hrow : system.row with
      | none =>
        rw [hrow] at h
        cases h
        exact ⟨rfl, rfl, rfl, rfl⟩
      | some row =>
        rw [hrow] at h
        simp only [advance] at h
        split at h
        · cases h
          exact ⟨rfl, rfl, rfl, rfl⟩
        · rename_i attempt hsync
          cases h
          exact ⟨rfl, rfl, hasDocument_syncExisting hsync, rfl⟩
    | _ => cases h
  | die place =>
    have heffect : effect = { row := system.row, asks := [job.task] } := by
      cases job <;> exact (Option.some.inj h).symm
    rw [heffect]
    cases hbusy : job.busy with
    | true => exact .ends (settled_die hsound hbusy (hcondition _ hpick))
    | false => exact ⟨rfl, rfl, rfl, rfl⟩

/-! ## The system -/

theorem perm_of_pick {place : Nat} {running others : List ErpJob}
    (h : pick place running = some (job, others)) : running.Perm (job :: others) := by
  obtain ⟨job', hjob, heq⟩ := Option.map_eq_some_iff.mp h
  cases heq
  obtain ⟨hplace, rfl⟩ := List.getElem?_eq_some_iff.mp hjob
  exact (List.getElem_cons_eraseIdx_perm hplace).symm

/-- Where no job may create or write a document, every job is sound. -/
theorem sound_of_countP {running : List ErpJob} (h : running.countP ErpJob.busy = 0)
    (row : Option ErpRow) (documents : Nat) : ∀ job ∈ running, job.Sound row documents := by
  intro job hmem
  exact sound_of_idle (Bool.eq_false_iff.mpr (List.countP_eq_zero.mp h job hmem)) row documents

/-- A job may only look at the document of the row. -/
theorem ErpJob.Sound.congr
    (h : job.Sound row documents) (hdocument : hasDocument row' = hasDocument row)
    (hsome : row'.isSome = row.isSome) : job.Sound row' documents := by
  cases job with
  | graph task letter => exact h
  | called task letter node => exact h
  | saved task state node =>
    show if node.creates then _ ∧ _ ∧ hasDocument row' = true else _
    rw [hdocument]
    exact h
  | creating force => exact ⟨h.1, hsome.trans h.2⟩
  | created force create attach => exact ⟨hsome.trans h.1, h.2⟩
  | syncing force => trivial

theorem ErpSystem.Sound.advance {event : ErpEvent}
    {others : List ErpJob} {effect : Effect} (h : system.Sound)
    (hpick : pick event.place system.running = some (job, others))
    (hcondition : OneAtATime lower settings letter system event)
    (hadvance : Mail.advance lower settings system.row event job = some effect) :
    ErpSystem.Sound
      { row := effect.row
        documents := system.documents + effect.documents
        queue := system.queue ++ effect.asks
        running := effect.job.toList ++ others } := by
  have hperm := perm_of_pick hpick
  have heffect := advance_sound hpick hcondition (h.jobs job (hperm.mem_iff.mpr (.head _)))
    hadvance
  have hcount := hperm.countP_eq ErpJob.busy
  rw [List.countP_cons] at hcount
  have halone := h.alone
  cases hbusy : job.busy with
  | true =>
    rw [hbusy] at heffect
    obtain ⟨hgoes, hends⟩ := heffect
    rw [hbusy, if_pos rfl] at hcount
    have hothers : others.countP ErpJob.busy = 0 := by omega
    cases hjob : effect.job with
    | none =>
      exact ⟨hothers.le.trans (Nat.zero_le 1), sound_of_countP hothers _ _, fun _ => hends hjob⟩
    | some next =>
      obtain ⟨hnext, hsound⟩ := hgoes next hjob
      have hone : (next :: others).countP ErpJob.busy = 1 := by
        rw [List.countP_cons, hothers, hnext, if_pos rfl]
      refine ⟨hone.le, fun job' hmem => ?_, fun hidle => ?_⟩
      · rcases List.mem_cons.mp hmem with rfl | hother
        · exact hsound
        · exact sound_of_countP hothers _ _ job' hother
      · exact absurd (hidle.symm.trans hone) Nat.zero_ne_one
  | false =>
    rw [hbusy] at heffect
    obtain ⟨hnone, hjob, hdocument, hsome⟩ := heffect
    rw [hbusy, if_neg Bool.false_ne_true, Nat.add_zero] at hcount
    rw [hnone, hjob, Nat.add_zero]
    refine ⟨hcount ▸ halone, fun job' hmem => ?_, fun hidle => ?_⟩
    · exact (h.jobs job' (hperm.mem_iff.mpr (List.mem_cons_of_mem job hmem))).congr hdocument hsome
    · show Settled effect.row system.documents
      unfold Settled
      rw [hdocument]
      exact h.settled (hcount.trans hidle)

/-- What a task does when a worker takes it: the row keeps its document; a job that may create knows
of none, and has asked the row for one unless it runs the graph. -/
structure Started (row : Option ErpRow) (started : Option ErpRow × Option ErpJob) : Prop where
  document : hasDocument started.1 = hasDocument row
  sound : ∀ job ∈ started.2, job.busy = true → job.Sound started.1 0
  asked : ∀ job ∈ started.2, job.busy = true → job.runsGraph = false → hasDocument row = false
  isSome : (∀ job ∈ started.2, job.busy = false) → started.1.isSome = row.isSome

theorem Started.ends (hdocument : hasDocument row' = hasDocument row)
    (hsome : row'.isSome = row.isSome) : Started row (row', none) where
  document := hdocument
  sound job hjob := by cases hjob
  asked job hjob := by cases hjob
  isSome _ := hsome

theorem Started.graph (hdocument : hasDocument row' = hasDocument row)
    (task : ErpTask) (letter : ErpLetter) : Started row (row', some (.graph task letter)) where
  document := hdocument
  sound job hjob _ := by
    cases hjob
    exact rfl
  asked job hjob _ hgraph := by
    cases hjob
    cases hgraph
  isSome hidle := by cases hidle _ rfl

/-- A task that cannot read its row ends. -/
theorem started_of_read {read : Bool} {stored : ErpRow → Option ErpRow × Option ErpJob}
    (h : ∀ row, Started (some row) (stored row)) :
    Started row (match if read then row else none with
      | none => (row, none)
      | some row => stored row) := by
  cases read with
  | false => exact .ends rfl rfl
  | true =>
    cases row with
    | none => exact .ends rfl rfl
    | some row => exact h row

theorem started_startTask (lower : String → String) (settings : ErpSettings) (letter : ErpLetter)
    (row : Option ErpRow) (read persisted : Bool) (task : ErpTask) :
    Started row (startTask lower settings letter row read persisted task) := by
  cases task with
  | process =>
    rw [startTask]
    split
    · exact .ends rfl rfl
    · exact .graph (hasDocument_persistProcessingStart letter row persisted) _ _
  | reprocess restored =>
    apply started_of_read
    intro row
    split
    · exact .ends rfl rfl
    · refine .graph ?_ _ _
      rw [hasDocument_persistProcessingStart]
      cases restored <;> rfl
  | continueAfterHuman =>
    apply started_of_read
    intro row
    split
    · exact .ends rfl rfl
    · split
      · refine .ends ?_ rfl
        split <;> rfl
      · refine .graph ?_ _ _
        rfl
  | retry force =>
    apply started_of_read
    intro row
    have hstart := startsAs_retryStart lower settings row
    generalize retryStart lower settings row = start at hstart
    cases hstart with
    | exhausted h | incomplete h hrow | otherMailbox hrow | noXml hrow => exact .ends rfl rfl
    | pipeline h hsummary => exact .graph rfl _ _
    | syncExisting hmode =>
      refine ⟨rfl, fun job hjob hbusy => ?_, fun job hjob hbusy => ?_, fun _ => rfl⟩
      · cases hjob
        cases hbusy
      · cases hjob
        cases hbusy
    | create h hsummary hmode =>
      refine ⟨rfl, fun job hjob _ => ?_, fun job hjob _ _ => ?_, fun hidle => ?_⟩
      · cases hjob
        exact ⟨rfl, rfl⟩
      · rw [hasDocument, Option.any_some, hmode]
        rfl
      · cases hidle _ rfl

theorem ErpSystem.Sound.start {place : Nat} {read persisted : Bool}
    {task : ErpTask} {started : Option ErpRow × Option ErpJob} (h : system.Sound)
    (htask : system.queue[place]? = some task)
    (hcondition : OneAtATime lower settings letter system (.start place read persisted))
    (hstart : startTask lower settings letter system.row read persisted task = started) :
    ErpSystem.Sound
      { row := started.1
        documents := system.documents
        queue := system.queue.eraseIdx place
        running := started.2.toList ++ system.running } := by
  have hstarted := started_startTask lower settings letter system.row read persisted task
  have hallowed := hcondition task htask
  rw [hstart] at hstarted hallowed
  obtain ⟨row, job⟩ := started
  by_cases hbusy : ∃ busy ∈ job, ErpJob.busy busy = true
  · -- the new job is the only one that may create, and there is no document yet
    obtain ⟨busy, hjob, hbusy⟩ := hbusy
    cases hjob
    obtain ⟨hothers, hgraph⟩ := hallowed busy rfl hbusy
    have hidle : system.running.countP ErpJob.busy = 0 :=
      List.countP_eq_zero.mpr fun other hmem => by
        rw [hothers other hmem]
        exact Bool.false_ne_true
    have hnoDocument : hasDocument system.row = false := by
      cases hruns : busy.runsGraph with
      | true => exact hgraph hruns
      | false => exact hstarted.asked busy rfl hbusy hruns
    have hnone : system.documents = 0 := by
      rcases h.settled hidle with hnone | ⟨-, hdocument⟩
      · exact hnone
      · exact absurd (hnoDocument.symm.trans hdocument) Bool.false_ne_true
    have hone : (busy :: system.running).countP ErpJob.busy = 1 := by
      rw [List.countP_cons, hidle, hbusy, if_pos rfl]
    refine ⟨hone.le, fun job hmem => ?_, fun hzero => ?_⟩
    · rcases List.mem_cons.mp hmem with rfl | hother
      · show job.Sound row system.documents
        rw [hnone]
        exact hstarted.sound job rfl hbusy
      · exact sound_of_countP hidle _ _ job hother
    · exact absurd (hzero.symm.trans hone) Nat.zero_ne_one
  · have hidle : ∀ other ∈ job, ErpJob.busy other = false := by
      intro other hother
      exact Bool.eq_false_iff.mpr fun hother' => hbusy ⟨other, hother, hother'⟩
    have hcount : (job.toList ++ system.running).countP ErpJob.busy =
        system.running.countP ErpJob.busy := by
      rw [List.countP_append, Nat.add_eq_right, List.countP_eq_zero]
      intro other hother
      rw [hidle other (Option.mem_toList.mp hother)]
      exact Bool.false_ne_true
    refine ⟨hcount.le.trans h.alone, fun other hmem => ?_, fun hzero => ?_⟩
    · rcases List.mem_append.mp hmem with hnew | hold
      · exact sound_of_idle (hidle other (Option.mem_toList.mp hnew)) _ _
      · exact (h.jobs other hold).congr hstarted.document (hstarted.isSome hidle)
    · show Settled row system.documents
      unfold Settled
      rw [hstarted.document]
      exact h.settled (hcount.symm.trans hzero)

theorem ErpSystem.Sound.step {system' : ErpSystem} {event : ErpEvent} (h : system.Sound)
    (hcondition : OneAtATime lower settings letter system event)
    (hstep : system.step lower settings letter event = some system') : system'.Sound := by
  have hworker (hstep : ((pick event.place system.running).bind fun picked =>
      (Mail.advance lower settings system.row event picked.1).map fun effect =>
        ({ row := effect.row
           documents := system.documents + effect.documents
           queue := system.queue ++ effect.asks
           running := effect.job.toList ++ picked.2 } : ErpSystem)) = some system') :
      system'.Sound := by
    obtain ⟨⟨job, others⟩, hpick, heffect⟩ := Option.bind_eq_some_iff.mp hstep
    obtain ⟨effect, hadvance, rfl⟩ := Option.map_eq_some_iff.mp heffect
    exact h.advance hpick hcondition hadvance
  cases event with
  | enqueue task =>
    cases hstep
    exact ⟨h.alone, h.jobs, h.settled⟩
  | start place read persisted =>
    rw [ErpSystem.step] at hstep
    split at hstep
    · cases hstep
    · rename_i task htask
      cases hstep
      exact h.start htask hcondition rfl
  | _ =>
    refine hworker ?_
    rw [← hstep]
    unfold ErpSystem.step
    dsimp only
    cases pick _ system.running <;> rfl

/-- In every run in which tasks that may create do not overlap, the graph is run only for a row
without document, a created document is named in the answer, and neither a worker dies nor the row
fails to be written between the call and the row, 1C has one document at most. -/
theorem one_document (lower : String → String) (settings : ErpSettings) (letter : ErpLetter)
    {system : ErpSystem}
    (hrun : ErpSystem.Reaches lower settings letter (OneAtATime lower settings letter) system) :
    system.documents ≤ 1 := by
  have hsound : system.Sound := by
    induction hrun with
    | start =>
      refine ⟨Nat.zero_le 1, fun job hmem => ?_, fun _ => .inl rfl⟩
      cases hmem
    | step before met does ih => exact ih.step met does
  exact hsound.documents_le_one

/-! ## Runs -/

instance : (create : CreateCall) → Decidable create.Names
  | .answered _ _ _ => inferInstanceAs (Decidable (_ ∧ _ ∧ _))
  | .failed _ => inferInstanceAs (Decidable False)

instance (system : ErpSystem) :
    (event : ErpEvent) → Decidable (OneAtATime lower settings letter system event)
  | .start _ _ _ => inferInstanceAs (Decidable (∀ _ ∈ _, ∀ _ ∈ _, _ → _ ∧ _))
  | .node _ (.made create _) | .createRetry _ create _ =>
    inferInstanceAs (Decidable (create.creates = true → create.Names))
  | .save _ _ _ => inferInstanceAs (Decidable (_ → ∀ _ ∈ _, _))
  | .die _ => inferInstanceAs (Decidable (∀ _ ∈ _, _))
  | .enqueue _ | .raise _ _ | .node _ .notReached | .node _ (.skipped _) | .finish _ | .saveRetry _
  | .saveSync _ _ => inferInstanceAs (Decidable True)

/-- A run of the events, as far as they can occur and meet the condition. -/
def ErpSystem.run (lower : String → String) (settings : ErpSettings) (letter : ErpLetter)
    (condition : ErpSystem → ErpEvent → Prop) [∀ system event, Decidable (condition system event)] :
    List ErpEvent → ErpSystem → Option ErpSystem
  | [], system => some system
  | event :: events, system =>
    if condition system event then
      (system.step lower settings letter event).bind
        (ErpSystem.run lower settings letter condition events)
    else none

theorem reaches_of_run {condition : ErpSystem → ErpEvent → Prop}
    [∀ system event, Decidable (condition system event)] (events : List ErpEvent) (hreaches : ErpSystem.Reaches lower settings letter condition system)
    (holds : ErpSystem → Bool)
    (h : (system.run lower settings letter condition events).any holds = true) :
    ∃ system', ErpSystem.Reaches lower settings letter condition system' ∧ holds system' = true := by
  induction events generalizing system with
  | nil => exact ⟨system, hreaches, h⟩
  | cons event events ih =>
    rw [ErpSystem.run] at h
    split at h
    · rename_i hmet
      cases hdoes : system.step lower settings letter event with
      | none =>
        rw [hdoes] at h
        cases h
      | some next =>
        rw [hdoes] at h
        exact ih (hreaches.step hmet hdoes) h
    · cases h

def infoLetter : ErpLetter :=
  { mailbox := "info@turbo-don.ru"
    recipients :=
      { to_ := .value ["info@turbo-don.ru"]
        cc := .value []
        routingRecipient := .null
        hasOtherKeys := true } }

def registered : NodeCall :=
  .made (.answered (some "A1") none (some "ref-1"))
    (.files [{ filename := "letter.eml", extension := "eml" }])

theorem one_document_processed :
    ∃ system : ErpSystem, hasDocument system.row = true ∧ system.documents ≤ 1 := by
  obtain ⟨system, hreaches, hdocument⟩ := reaches_of_run
    [.enqueue .process, .start 0 true true, .node 0 registered,
      .save 0
        { mailbox := infoLetter.mailbox
          recipients := infoLetter.recipients
          xmlDocument := some "<doc/>"
          departmentId := some "D1"
          summaryRu := some "summary" } true,
      .finish 0]
    (ErpSystem.Reaches.start : ErpSystem.Reaches id {} infoLetter (OneAtATime id {} infoLetter) _)
    (fun system => hasDocument system.row) (by decide +kernel)
  exact ⟨system, hdocument, one_document id {} infoLetter hreaches⟩

/-- The worker dies between the call and the row; the task is delivered again, and creates again. -/
theorem redelivery_creates_second :
    ∃ system, ErpSystem.Reaches id {} infoLetter (fun _ _ => True) system ∧
      ¬ system.documents ≤ 1 := by
  obtain ⟨system, hreaches, htwo⟩ := reaches_of_run
    [.enqueue .process, .start 0 true true, .node 0 registered, .die 0,
      .start 0 true true, .node 0 registered]
    (ErpSystem.Reaches.start : ErpSystem.Reaches id {} infoLetter (fun _ _ => True) _)
    (fun system => decide (1 < system.documents)) (by decide +kernel)
  exact ⟨system, hreaches, not_le.mpr (of_decide_eq_true htwo)⟩

end AgentBack.Mail
