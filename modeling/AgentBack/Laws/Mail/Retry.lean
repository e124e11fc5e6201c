import AgentBack.Mail.Erp

/-!
# Hand-offs that are dropped

A run of the retry task that does not hand the letter over has to schedule the next one or leave the
row to an operator. Each branch is examined on its own (`retryErp_escalates_iff`); the number of calls
that create is bounded by the counter of the row, which a success resets, as long as the answer names
the document that later runs have to find.
-/

namespace AgentBack.Mail

open Supply (isGiven givenOr)
open Text (strip)

variable {lower : String → String} {settings : ErpSettings}

def Waiting (row : ErpRow) : Prop := row.status = .error ∧ row.humanReview = true

theorem waiting_escalate (row : ErpRow) : Waiting (escalate row) := ⟨rfl, rfl⟩

/-- Why a run ends before it calls 1C, or how it goes on. -/
inductive StartsAs (lower : String → String) (settings : ErpSettings) (row : ErpRow) :
    RetryStart → Prop where
  | exhausted (h : settings.erpRetryMax ≤ row.erpRetryCount) :
      StartsAs lower settings row
        (.finished (escalate row) { ok := false, reason := some "max_retries_exceeded" })
  | incomplete (h : row.erpRetryCount < settings.erpRetryMax)
      (hrow : row.payload = none ∨ isGiven row.departmentId = false) :
      StartsAs lower settings row
        (.finished row { ok := false, reason := some "incomplete_record" })
  | otherMailbox (hrow : ¬ (row.payload = none ∨ isGiven row.departmentId = false)) :
      StartsAs lower settings row (.finished row { ok := true, reason := some "not_info_mailbox" })
  | noXml (hrow : ¬ (row.payload = none ∨ isGiven row.departmentId = false)) :
      StartsAs lower settings row
        (.finished (escalate row) { ok := false, reason := some "missing_xml_document" })
  | pipeline {payload : ErpPayload} (h : row.erpRetryCount < settings.erpRetryMax)
      (hsummary : isGiven row.summaryRu = false) : StartsAs lower settings row (.pipeline payload)
  | syncExisting (hmode : resolveRetryErpMode row = .syncExisting) :
      StartsAs lower settings row .syncExisting
  | create (h : row.erpRetryCount < settings.erpRetryMax) (hsummary : isGiven row.summaryRu = true)
      (hmode : resolveRetryErpMode row = .create) :
      StartsAs lower settings row (.create { row with erpRetryCount := row.erpRetryCount + 1 })

theorem startsAs_retryStart (lower : String → String) (settings : ErpSettings) (row : ErpRow) :
    StartsAs lower settings row (retryStart lower settings row) := by
  unfold retryStart
  split
  · rename_i hmax
    exact .exhausted hmax
  · rename_i hmax
    have hlt : (row.erpRetryCount : Int) < settings.erpRetryMax := Int.not_le.mp hmax
    split
    · rename_i hpayload
      exact .incomplete hlt (.inl hpayload)
    · rename_i payload hpayload
      split
      · rename_i hdepartment
        exact .incomplete hlt (.inr (by simpa using hdepartment))
      · rename_i hdepartment
        have hrow : ¬ (row.payload = none ∨ isGiven row.departmentId = false) := by
          rintro (hnone | hmissing)
          · rw [hpayload] at hnone
            cases hnone
          · exact hdepartment (by rw [hmissing]; rfl)
        split_ifs with heligible hsummary
        · exact .otherMailbox hrow
        · exact .pipeline hlt (by simpa using hsummary)
        · split
          · rename_i hmode
            exact .syncExisting hmode
          · rename_i hmode
            split
            · exact .noXml hrow
            · exact .create hlt (by simpa using hsummary) hmode

/-! ## When a run escalates -/

/-- 1C takes the letter: the create is answered and the files are attached. -/
def Accepts (create : CreateCall) (attach : AttachCall) : Prop :=
  match create with
  | .failed _ => False
  | .answered _ _ documentId => attachError documentId attach = none

/-- 1C takes the changes of a document: its fields are updated, or a file is attached, or nothing
fails and no file was to be skipped. -/
def SyncAccepts (force : Bool) (row : ErpRow) (calls : SyncCalls) : Prop :=
  (updateErrors row.summaryRu (extractXmlDocument row) calls).2 = true ∨
    (∃ attached, calls.attach = .ok attached ∧ attached ≠ []) ∨
      ((updateErrors row.summaryRu (extractXmlDocument row) calls).1 = [] ∧
        calls.attach = .ok [] ∧
          (force = true ∨ uploadedNames ((row.payload.map (·.erpAttachments)).getD []) = []))

variable {row : ErpRow} {creates : Nat}

section

variable {force : Bool} {calls : SyncCalls} {attempt : Attempt}
  (h : syncExisting force row calls = some attempt)
include h

theorem syncExisting_ok_iff :
    attempt.result.ok = true ↔ SyncAccepts force row calls := by
  unfold syncExisting at h
  unfold SyncAccepts
  dsimp only at h
  split at h
  · cases h
  · cases h
    dsimp only
    generalize updateErrors row.summaryRu (extractXmlDocument row) calls = update
    generalize uploadedNames ((row.payload.map (·.erpAttachments)).getD []) = uploaded
    cases calls.attach with
    | error text => simp
    | ok attached =>
      by_cases hnil : attached = []
      · rw [hnil]
        cases force <;> simp
      · have hsame (again : Prop) [Decidable again] (errors : List String) :
            (if again then (errors, attached) else ([], attached)).2 = attached := by
          split <;> rfl
        simp [hsame, hnil]

/-- A synchronisation writes the payload and takes the review off. -/
theorem syncExisting_row :
    ∃ payload, attempt.row = { row with payload := payload, humanReview := false } := by
  unfold syncExisting at h
  dsimp only at h
  split at h
  · cases h
  · cases h
    exact ⟨_, rfl⟩

end

/-- Under which condition a run that does not hand the letter over schedules the next one or leaves
the row to an operator, branch by branch. -/
def Escalates (lower : String → String) (settings : ErpSettings) (row : ErpRow)
    (calls : RetryCalls) : Prop :=
  match retryStart lower settings row with
  | .finished _ _ =>
    row.payload = none ∨ isGiven row.departmentId = false →
      settings.erpRetryMax ≤ row.erpRetryCount ∨ Waiting row
  | .pipeline payload =>
    match calls.pipeline with
    | none => Waiting row
    | some _ => pipelineSkips lower settings row payload = none → Accepts calls.create calls.attach
  | .syncExisting =>
    match syncExisting calls.force row calls.sync with
    | none => Waiting row
    | some _ => SyncAccepts calls.force row calls.sync
  | .create _ =>
    match calls.create with
    | .failed _ => True
    | .answered _ _ documentId =>
      attachError documentId calls.attach ≠ none →
        row.erpRetryCount + 1 < settings.erpRetryMax ∨ Waiting row

/-- The run hands the letter over, schedules the next one, or leaves the row to an operator. -/
def RetryRun.Kept (run : RetryRun) : Prop :=
  run.failed = true → run.scheduled = false → Waiting run.row

theorem pipeline_kept_iff {payload : ErpPayload} {run : PipelineRun}
    {create : CreateCall} {attach : AttachCall} :
    (runPipeline lower settings row payload run create attach).Kept ↔
      (pipelineSkips lower settings row payload = none → Accepts create attach) := by
  unfold runPipeline RetryRun.Kept RetryRun.failed Accepts
  cases pipelineSkips lower settings row payload with
  | some number => simp [skippedPatch]
  | none =>
    cases create with
    | failed created => simp [createdPatch, failedPatch, Waiting, upsertFromState]
    | answered number taskId documentId =>
      cases herror : attachError documentId attach with
      | none => simp [createdPatch, herror]
      | some text => simp [createdPatch, herror, failedPatch, Waiting, upsertFromState]

def Attempt.Kept (attempt : Attempt) : Prop :=
  attempt.result.ok = false → attempt.scheduled = false → Waiting attempt.row

theorem retryFailed_kept (settings : ErpSettings) (row : ErpRow) : (retryFailed settings row).Kept := by
  unfold retryFailed Attempt.Kept
  intro _ hscheduled
  split at hscheduled
  · cases hscheduled
  · rename_i hmax
    rw [if_neg hmax]
    exact waiting_escalate row

theorem retryCreated_kept_iff (settings : ErpSettings) (row : ErpRow) (create : CreateCall)
    (attach : AttachCall) :
    (retryCreated settings row create attach).Kept ↔
      ∀ number taskId documentId, create = .answered number taskId documentId →
        attachError documentId attach ≠ none →
          row.erpRetryCount < settings.erpRetryMax ∨ Waiting row := by
  cases create with
  | failed created =>
    exact iff_of_true (retryFailed_kept settings row) fun _ _ _ h => by cases h
  | answered number taskId documentId =>
    unfold retryCreated Attempt.Kept
    cases herror : attachError documentId attach with
    | none => simp [herror]
    | some text =>
      simp only [herror, forall_const, decide_eq_false_iff_not]
      rw [← or_iff_not_imp_left]
      constructor
      · intro h _ _ _ hcreate _
        exact h
      · intro h
        exact h number taskId documentId rfl (by simp [herror])

/-- A run keeps the hand-off exactly under that condition. -/
theorem retryErp_kept_iff {calls : RetryCalls} :
    (retryErp lower settings row calls).Kept ↔ Escalates lower settings row calls := by
  unfold retryErp Escalates
  have hstart := startsAs_retryStart lower settings row
  generalize retryStart lower settings row = start at hstart
  cases hstart with
  | exhausted h => simp [RetryRun.Kept, waiting_escalate, h]
  | incomplete h hrow => simp [RetryRun.Kept, RetryRun.failed, hrow, Int.not_le.mpr h]
  | otherMailbox hrow => simp [RetryRun.Kept, RetryRun.failed, hrow]
  | noXml hrow => simp [RetryRun.Kept, waiting_escalate, hrow]
  | pipeline h hsummary =>
    cases calls.pipeline with
    | none => simp [RetryRun.Kept, RetryRun.failed]
    | some run => exact pipeline_kept_iff
  | syncExisting hmode =>
    cases hsync : syncExisting calls.force row calls.sync with
    | none => simp [RetryRun.Kept, RetryRun.failed]
    | some attempt =>
      obtain ⟨payload, hrow⟩ := syncExisting_row hsync
      simp [RetryRun.Kept, RetryRun.failed, ← syncExisting_ok_iff hsync, Waiting, hrow]
  | create h hsummary hmode =>
    have hkept := retryCreated_kept_iff settings
      { row with erpRetryCount := row.erpRetryCount + 1 } calls.create calls.attach
    have hrun (attempt : Attempt) : RetryRun.Kept
        { row := attempt.row
          result := some attempt.result
          scheduled := attempt.scheduled
          creates := 1 } ↔ attempt.Kept := by
      simp [RetryRun.Kept, RetryRun.failed, Attempt.Kept]
    refine (hrun _).trans (hkept.trans ?_)
    cases calls.create with
    | failed created => exact iff_of_true (fun _ _ _ h => by cases h) trivial
    | answered number taskId documentId =>
      constructor
      · intro h herror
        exact h number taskId documentId rfl herror
      · intro h number' taskId' documentId' heq herror
        cases heq
        exact h herror

/-! ## How often a run creates -/

/-- A number and a key under which later runs find the document. -/
def Named (number taskId : Option String) : Prop :=
  isRealErpTaskId taskId = true ∧ strip (number.getD "") ≠ "" ∧
    strip (number.getD "") ∉ skipErpDocumentNumbers

/-- Every answer of 1C names the document, and a pipeline writes a summary. -/
def Names (calls : RetryCalls) : Prop :=
  (∀ number taskId documentId, calls.create = .answered number taskId documentId →
    Named number (givenOr taskId documentId)) ∧
  ∀ run ∈ calls.pipeline, run.summary ≠ ""

theorem resolveRetryErpMode_of_named (h : Named row.erpDocumentNumber row.erpTaskId) :
    resolveRetryErpMode row = .syncExisting := by
  obtain ⟨hreal, hnumber, hskip⟩ := h
  have href : existingErpDocumentRefKey row ≠ none := by
    unfold existingErpDocumentRefKey
    dsimp only
    unfold isRealErpTaskId at hreal ⊢
    rw [Option.getD_some, Text.strip_strip, if_pos hreal]
    exact Option.some_ne_none _
  unfold resolveRetryErpMode
  dsimp only
  rw [if_neg]
  rintro (hnone | hempty | hmem)
  · exact href hnone
  · exact hnumber hempty
  · exact hskip hmem

theorem isGiven_of_strip_ne {text : Option String} (h : strip (text.getD "") ≠ "") :
    isGiven text = true := by
  have hempty : strip "" = "" := by decide +kernel
  cases text with
  | none => exact absurd hempty h
  | some text =>
    refine decide_eq_true fun htext => h ?_
    rw [Option.getD_some, htext, hempty]

theorem orOld_of_given {new : Option String} (h : isGiven new = true) (old : Option String) :
    orOld new old = new := by
  rw [orOld, if_pos h]

theorem Named.given {number taskId : Option String} (h : Named number taskId) :
    isGiven number = true ∧ isGiven taskId = true := by
  refine ⟨isGiven_of_strip_ne h.2.1, isGiven_of_strip_ne fun hempty => ?_⟩
  have hreal := h.1
  unfold isRealErpTaskId at hreal
  rw [if_pos (.inl hempty)] at hreal
  cases hreal

/-- What bounds the calls: none without a summary, and no more than the counter says while the row
has no document. -/
structure Bounded (settings : ErpSettings) (row : ErpRow) (creates : Nat) : Prop where
  max : creates ≤ settings.erpRetryMax.toNat
  unsummarised : isGiven row.summaryRu = false → creates = 0
  counted : resolveRetryErpMode row = .create → creates ≤ row.erpRetryCount

/-- A row whose hand-off is as before. -/
theorem Bounded.frame {row' : ErpRow} (h : Bounded settings row creates)
    (hsummary : row'.summaryRu = row.summaryRu)
    (hmode : resolveRetryErpMode row' = resolveRetryErpMode row)
    (hcount : row'.erpRetryCount = row.erpRetryCount) : Bounded settings row' creates where
  max := h.max
  unsummarised := by
    rw [hsummary]
    exact h.unsummarised
  counted := by
    rw [hmode, hcount]
    exact h.counted

theorem Bounded.syncExisting {force : Bool} {calls : SyncCalls} {attempt : Attempt} (h : Bounded settings row creates)
    (hsync : syncExisting force row calls = some attempt) : Bounded settings attempt.row creates := by
  obtain ⟨payload, hrow⟩ := syncExisting_row hsync
  rw [hrow]
  exact h.frame rfl rfl rfl

theorem Bounded.runPipeline {payload : ErpPayload} {run : PipelineRun}
    {create : CreateCall} {attach : AttachCall} (hmax : row.erpRetryCount < settings.erpRetryMax)
    (haccepts : pipelineSkips lower settings row payload = none → Accepts create attach)
    (hnamed : ∀ number taskId documentId, create = .answered number taskId documentId →
      Named number (givenOr taskId documentId)) (hsummary : run.summary ≠ "") :
    Bounded settings (runPipeline lower settings row payload run create attach).row
      (runPipeline lower settings row payload run create attach).creates := by
  have hgiven : isGiven (some run.summary) = true := decide_eq_true hsummary
  have hwritten (patch : Option ErpPatch) (state : GraphState)
      (hstate : state.summaryRu = some run.summary) :
      isGiven (upsertFromState (some row) state patch).summaryRu = true := by
    show isGiven (orOld state.summaryRu _) = true
    rw [hstate, orOld_of_given hgiven]
    exact hgiven
  unfold Mail.runPipeline
  dsimp only
  cases hskips : pipelineSkips lower settings row payload with
  | some number =>
    refine ⟨Nat.zero_le _, fun _ => rfl, fun _ => Nat.zero_le _⟩
  | none =>
    have hpositive : 1 ≤ settings.erpRetryMax.toNat := by omega
    refine ⟨hpositive, fun hnone => ?_, fun hmode => ?_⟩
    · rw [hwritten _ _ rfl] at hnone
      cases hnone
    · have haccepted := haccepts hskips
      cases create with
      | failed created => exact haccepted.elim
      | answered number taskId documentId =>
        have hname := hnamed number taskId documentId rfl
        have herror : attachError documentId attach = none := haccepted
        exfalso
        rw [resolveRetryErpMode_of_named] at hmode
        · cases hmode
        · simp only [createdPatch, herror, upsertFromState, Option.bind_some]
          rw [orOld_of_given hname.given.1, orOld_of_given hname.given.2]
          exact hname

theorem Bounded.retryCreated {create : CreateCall} {attach : AttachCall} (h : Bounded settings row creates)
    (hnamed : ∀ number taskId documentId, create = .answered number taskId documentId →
      Named number (givenOr taskId documentId)) :
    Bounded settings (retryCreated settings row create attach).row creates := by
  cases create with
  | failed created =>
    unfold Mail.retryCreated retryFailed
    dsimp only
    split
    · exact h
    · exact h.frame rfl rfl rfl
  | answered number taskId documentId =>
    have hname := hnamed number taskId documentId rfl
    have hmode {row' : ErpRow} (hnumber : row'.erpDocumentNumber = number)
        (htask : row'.erpTaskId = givenOr taskId documentId) :
        resolveRetryErpMode row' = .syncExisting := by
      refine resolveRetryErpMode_of_named ?_
      rw [hnumber, htask]
      exact hname
    unfold Mail.retryCreated
    cases herror : attachError documentId attach with
    | none | some text =>
      simp only [herror]
      refine ⟨h.max, h.unsummarised, fun hcreate => ?_⟩
      rw [hmode rfl rfl] at hcreate
      cases hcreate

theorem Bounded.retryErp {calls : RetryCalls}
    (h : Bounded settings row creates) (hescalates : Escalates lower settings row calls)
    (hnames : Names calls) :
    Bounded settings (retryErp lower settings row calls).row
      (creates + (retryErp lower settings row calls).creates) := by
  unfold Mail.retryErp
  unfold Escalates at hescalates
  have hstart := startsAs_retryStart lower settings row
  generalize retryStart lower settings row = start at hstart hescalates
  cases hstart with
  | exhausted hmax => exact h.frame rfl rfl rfl
  | incomplete hmax hrow => exact h
  | otherMailbox hrow => exact h
  | noXml hrow => exact h.frame rfl rfl rfl
  | pipeline hmax hsummary =>
    cases hpipeline : calls.pipeline with
    | none => exact h
    | some run =>
      rw [hpipeline] at hescalates
      rw [h.unsummarised hsummary, Nat.zero_add]
      exact Bounded.runPipeline hmax hescalates hnames.1 (hnames.2 run hpipeline)
  | syncExisting hmode =>
    cases hsync : Mail.syncExisting calls.force row calls.sync with
    | none => exact h
    | some attempt => exact h.syncExisting hsync
  | create hmax hsummary hmode =>
    refine Bounded.retryCreated ⟨?_, fun hnone => ?_, fun _ => ?_⟩ hnames.1
    · have hcounted := h.counted hmode
      show creates + 1 ≤ settings.erpRetryMax.toNat
      omega
    · have hgiven : isGiven row.summaryRu = false := hnone
      rw [hsummary] at hgiven
      cases hgiven
    · exact Nat.succ_le_succ (h.counted hmode)

/-- A run that keeps the hand-off, with answers of 1C that name the document. -/
def RetryKeeps (lower : String → String) (settings : ErpSettings) (row : ErpRow)
    (calls : RetryCalls) : Prop :=
  Escalates lower settings row calls ∧ Names calls

/-- In chains whose runs all keep the hand-off, 1C is asked for a document at most as often as the
limit says, and a run that fails and schedules nothing leaves the row to an operator. -/
theorem retry_never_drops (lower : String → String) (settings : ErpSettings) {chain : RetryChain}
    (hrun : RetryChain.Reaches lower settings (RetryKeeps lower settings) chain) :
    chain.creates ≤ settings.erpRetryMax.toNat ∧
      (chain.lastFailed = true → chain.lastScheduled = false → Waiting chain.row) := by
  have hkept : Bounded settings chain.row chain.creates ∧
      (chain.lastFailed = true → chain.lastScheduled = false → Waiting chain.row) := by
    induction hrun with
    | start row pending =>
      refine ⟨⟨Nat.zero_le _, fun _ => rfl, fun _ => Nat.zero_le _⟩, fun hfailed => ?_⟩
      cases hfailed
    | step before scheduled met ih =>
      exact ⟨ih.1.retryErp met.1 met.2, retryErp_kept_iff.mpr met.1⟩
  exact ⟨hkept.1.max, hkept.2⟩

def failedRow (retryCount : Nat) : ErpRow :=
  { status := .error
    humanReview := true
    mailbox := "info@turbo-don.ru"
    departmentId := some "D1"
    summaryRu := some "summary"
    erpDocumentNumber := none
    erpTaskId := none
    erpRetryCount := retryCount
    payload := some
      { recipients :=
          { to_ := .value ["info@turbo-don.ru"]
            cc := .value []
            routingRecipient := .null
            hasOtherKeys := true }
        xmlDocument := some "<doc/>"
        erpAttachments := [] } }

def refusing : RetryCalls :=
  { create := .failed false
    attach := .failed "timeout"
    sync :=
      { update := some (.error "500")
        oldFiles := .ok []
        attach := .error "timeout"
        cleanupError := none }
    pipeline := none }

/-- The last of five attempts to create fails. -/
theorem retry_never_drops_last : Waiting (retryErp id {} (failedRow 4) refusing).row := by
  have hstart : retryStart id {} (failedRow 4) = .create (failedRow 5) := by decide +kernel
  have hkeeps : RetryKeeps id {} (failedRow 4) refusing := by
    refine ⟨?_, fun _ _ _ h => ?_, fun run h => ?_⟩
    · unfold Escalates
      rw [hstart]
      trivial
    · cases h
    · cases h
  have hstart : RetryChain.Reaches id {} (RetryKeeps id {}) { row := failedRow 4, pending := 1 } :=
    .start _ _
  exact (retry_never_drops id {} (hstart.step Nat.one_pos hkeeps)).2 (by decide +kernel) (by decide +kernel)

/-- 1C creates the document and then refuses its files; the next run finds the document, is refused
again, schedules nothing and takes the review off. -/
theorem retry_drops :
    ∃ chain, RetryChain.Reaches id {} (fun _ _ => True) chain ∧
      ¬ (chain.creates ≤ 5 ∧
        (chain.lastFailed = true → chain.lastScheduled = false → Waiting chain.row)) := by
  let created : RetryCalls :=
    { refusing with create := .answered (some "A1") none (some "ref-1") }
  let chain : RetryChain := { row := failedRow 0, pending := 1 }
  let first := chain.next (retryErp id {} chain.row created)
  have hfirst : RetryChain.Reaches id {} (fun _ _ => True) first :=
    (RetryChain.Reaches.start (failedRow 0) 1).step Nat.one_pos trivial
  have hsecond : RetryChain.Reaches id {} (fun _ _ => True)
      (first.next (retryErp id {} first.row refusing)) :=
    hfirst.step (by decide +kernel) trivial
  refine ⟨_, hsecond, fun h => ?_⟩
  have hreview := (h.2 (by decide +kernel) (by decide +kernel)).2
  revert hreview
  decide +kernel

end AgentBack.Mail
