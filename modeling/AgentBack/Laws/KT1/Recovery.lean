import AgentBack.Laws.KT1.Trust

/-!
# What a run takes over from the runs before it

The evidence of a run in the loop is what it restored and, after that, only good answers: an answer
that is not good stops the run. Its counters are those it restored and what it did itself. So the
stored checkpoint alone decides whether old evidence keeps a recovered case from being closed, and a
run is blocked for what it did itself when the stored counters are empty.
-/

namespace AgentBack.KT1

open Orchestrator (CaseStatus)
open Py (Value)

variable {env : Env} {metadata : CaseMetadata} {run : Run}

/-! ## What is taken over -/

def CaseMetadata.restoredIteration (metadata : CaseMetadata) : Nat :=
  (metadata.checkpoint.map Checkpoint.iteration).getD 0

/-- The counter of a call that the checkpoint says. -/
def CaseMetadata.restoredCount (metadata : CaseMetadata) (key : String) : Nat :=
  ((metadata.checkpoint.map Checkpoint.identicalCallCounts).getD ∅).getD key 0

/-- How often the run itself has called a tool under a key. -/
def Run.callsOf (env : Env) (run : Run) (key : String) : Nat :=
  run.invocations.countP fun call => callKey call.1 (env.lib.stableHash call.2) = key

/-- The iteration that the node has still to count. -/
def uncounted : Node → Nat
  | .saveObservation => 1
  | .evaluateGoal => 1
  | _ => 0

/-- The call that the node is about to make. -/
def pending (run : Run) (key : String) : Nat :=
  match run.state.currentToolCall with
  | some call =>
    if run.node = .executeTool ∧ callKey call.toolName call.argsHash = key ∧
      cachedEvidence run.state.evidence call = none then 1 else 0
  | none => 0

/-- What a run in the loop has taken over and done itself. -/
structure Ledger (env : Env) (metadata : CaseMetadata) (run : Run) : Prop where
  hash : ∀ call, run.state.currentToolCall = some call →
    call.argsHash = env.lib.stableHash call.arguments
  evidence : ∃ own, run.state.evidence = metadata.restoredEvidence ++ own ∧
    ∀ item ∈ own, item.freshSuccess = true
  iteration : run.state.iteration + uncounted run.node ≤ metadata.restoredIteration + run.tools
  counts : ∀ key, run.state.identicalCallCounts.getD key 0 ≤
    metadata.restoredCount key + run.callsOf env key + pending run key

/-- The request is one that `validate_request` blocks. -/
def RequestRefused (env : Env) : Prop :=
  env.request.autonomyLevel ≠ supportedAutonomyLevel ∨
    (evaluateProcurementAction env.lib.py.lower
      (if env.request.requestedOperation = "" then "assess_need"
        else env.request.requestedOperation) env.request.autonomyLevel).allowed = false

/-- The tool of the decision is one that the policy does not allow. -/
def ToolRefused (env : Env) (run : Run) : Prop :=
  ∃ decision, run.state.nextAction = some decision ∧
    (evaluateProcurementTool env.lib.py.lower (decision.toolName.getD "")
      env.request.autonomyLevel).allowed = false

/-- Why a run is blocked, with the counters that it started with. -/
def BlockReason (env : Env) (run : Run) (iteration : Nat) (count : String → Nat) : Prop :=
  RequestRefused env ∨ ToolRefused env run ∨ maxLoopIterations ≤ iteration + run.tools ∨
    ∃ key, maxIdenticalToolCalls ≤ count key + run.callsOf env key

structure Accounted (env : Env) (metadata : CaseMetadata) (run : Run) : Prop where
  ledger : run.state.caseStatus = .coverageCheck → Ledger env metadata run
  blocked : run.state.caseStatus = .blocked →
    BlockReason env run metadata.restoredIteration metadata.restoredCount

theorem uncounted_nextNode {node : Node} (state : GraphState) (hnode : node ≠ .executeTool) :
    uncounted (nextNode node state) ≤ uncounted node := by
  have hall : ∀ blocked, node ≠ .executeTool →
      ∀ next ∈ successors blocked node, uncounted next ≤ uncounted node := by
    cases node <;> decide
  exact hall _ hnode _ (nextNode_mem_successors node state)

theorem executeTool_of_nextNode {node : Node} {state : GraphState}
    (h : nextNode node state = .executeTool) : node = .policyGate := by
  have hall : ∀ blocked, .executeTool ∈ successors blocked node → node = .policyGate := by
    cases node <;> decide
  exact hall _ (h ▸ nextNode_mem_successors node state)

theorem pending_of_ne {key : String} (h : run.node ≠ .executeTool) : pending run key = 0 := by
  unfold pending
  split
  · exact if_neg fun hall => h hall.1
  · rfl

variable {next : Run}

/-- A node that neither calls nor counts. -/
theorem Ledger.advance (h : Ledger env metadata run)
    (hnode : run.node ≠ .executeTool ∧ run.node ≠ .policyGate)
    (hinvocations : next.invocations = run.invocations)
    (hcall : next.state.currentToolCall = run.state.currentToolCall)
    (hevidence : ∃ own, next.state.evidence = metadata.restoredEvidence ++ own ∧
      ∀ item ∈ own, item.freshSuccess = true)
    (hiteration : next.state.iteration = run.state.iteration)
    (hcounts : next.state.identicalCallCounts = run.state.identicalCallCounts) :
    Ledger env metadata (run.advance next) where
  hash := by
    change ∀ call, next.state.currentToolCall = some call → _
    rw [hcall]
    exact h.hash
  evidence := hevidence
  iteration := by
    have hle := uncounted_nextNode next.state hnode.1
    have hold := h.iteration
    rw [tools_advance_ne hnode.1]
    change next.state.iteration + uncounted (nextNode run.node next.state) ≤ _
    rw [hiteration]
    omega
  counts := by
    intro key
    have hold := h.counts key
    rw [pending_of_ne hnode.1] at hold
    rw [pending_of_ne fun hnext => hnode.2 (executeTool_of_nextNode hnext)]
    change next.state.identicalCallCounts.getD key 0 ≤
      metadata.restoredCount key + next.invocations.countP _ + 0
    rw [hcounts, hinvocations]
    exact hold

/-- What blocked a run is still there after a node that keeps the decision and calls nothing. -/
theorem BlockReason.advance {iteration : Nat} {count : String → Nat}
    (h : BlockReason env run iteration count) (hnode : run.node ≠ .executeTool)
    (haction : next.state.nextAction = run.state.nextAction)
    (hinvocations : next.invocations = run.invocations) :
    BlockReason env (run.advance next) iteration count := by
  have hcalls : ∀ key, (run.advance next).callsOf env key = run.callsOf env key := by
    intro key
    change next.invocations.countP _ = _
    rw [hinvocations]
    rfl
  rcases h with hrequest | ⟨decision, hdecision, hrefused⟩ | hlimit | ⟨key, hkey⟩
  · exact .inl hrequest
  · exact .inr (.inl ⟨decision, haction.trans hdecision, hrefused⟩)
  · refine .inr (.inr (.inl ?_))
    rw [tools_advance_ne hnode]
    exact hlimit
  · refine .inr (.inr (.inr ⟨key, ?_⟩))
    rw [hcalls key]
    exact hkey

/-- A node that keeps the case in the loop, or takes it out of it without blocking it. -/
theorem Accounted.of_same (h : Accounted env metadata run)
    (hnode : run.node ≠ .executeTool ∧ run.node ≠ .policyGate)
    (hinvocations : next.invocations = run.invocations)
    (hcall : next.state.currentToolCall = run.state.currentToolCall)
    (hevidence : next.state.evidence = run.state.evidence)
    (hiteration : next.state.iteration = run.state.iteration)
    (hcounts : next.state.identicalCallCounts = run.state.identicalCallCounts)
    (hloop : next.state.caseStatus = .coverageCheck → run.state.caseStatus = .coverageCheck)
    (hblocked : next.state.caseStatus = .blocked →
      BlockReason env (run.advance next) metadata.restoredIteration metadata.restoredCount) :
    Accounted env metadata (run.advance next) where
  ledger := by
    intro hstatus
    have hledger := h.ledger (hloop hstatus)
    refine hledger.advance hnode hinvocations hcall ?_ hiteration hcounts
    rw [hevidence]
    exact hledger.evidence
  blocked := hblocked

/-- A node that stops the case for a person. -/
theorem Accounted.of_human (hstatus : next.state.caseStatus = .humanRequired) :
    Accounted env metadata (run.advance next) where
  ledger := fun hloop => by cases hstatus.symm.trans hloop
  blocked := fun hblocked => by cases hstatus.symm.trans hblocked

/-! ## The nodes keep the books -/

theorem requestRefused_of_blocked
    (h : (validateRequest env run).state.caseStatus = .blocked) : RequestRefused env := by
  unfold RequestRefused
  by_cases hlevel : env.request.autonomyLevel ≠ supportedAutonomyLevel
  · exact .inl hlevel
  · right
    unfold validateRequest at h
    simp only [if_neg hlevel, Run.withState] at h
    by_contra hallowed
    rw [Bool.not_eq_false] at hallowed
    rw [if_pos hallowed] at h
    cases h

theorem accounted_validateRequest (env : Env) (metadata : CaseMetadata) (run : Run) :
    Accounted env metadata (run.advance (validateRequest env run)) where
  ledger := by
    intro hloop
    change (validateRequest env run).state.caseStatus = _ at hloop
    rcases validateRequest_cases env run with hvalidate | ⟨status, reason, hstatus, hvalidate⟩
    · rw [hvalidate] at hloop
      cases hloop
    · rw [hvalidate] at hloop
      change status = _ at hloop
      rcases hstatus with rfl | rfl <;> cases hloop
  blocked := fun hblocked => .inl (requestRefused_of_blocked hblocked)

theorem accounted_checkDataQuality (h : Accounted env metadata run)
    (hnode : run.node = .checkDataQuality) :
    Accounted env metadata (run.advance (checkDataQuality env run)) := by
  obtain ⟨missing, hcheck | ⟨reason, hcheck⟩⟩ := checkDataQuality_cases env run
  · rw [hcheck]
    exact h.of_same (by rw [hnode]; decide) rfl rfl rfl rfl rfl id fun hblocked =>
      (h.blocked hblocked).advance (by rw [hnode]; decide) rfl rfl
  · rw [hcheck]
    exact Accounted.of_human rfl

theorem accounted_loadCaseContext (hmetadata : run.metadata = metadata)
    (hnode : run.node = .loadCaseContext) (hcall : run.state.currentToolCall = none) :
    Accounted env metadata (run.advance (loadCaseContext run)) where
  ledger := by
    intro _
    subst hmetadata
    refine ⟨fun call hsome => ?_, ⟨[], (List.append_nil _).symm, fun _ hmem => by cases hmem⟩, ?_,
      fun key => ?_⟩
    · cases hcall.symm.trans hsome
    · change _ + uncounted (nextNode run.node _) ≤ _
      rw [hnode]
      exact Nat.le_add_right _ _
    · exact (Nat.le_add_right _ _).trans (Nat.le_add_right _ _)
  blocked := fun hblocked => by cases hblocked

theorem accounted_ensurePlan (h : Accounted env metadata run) (hnode : run.node = .ensurePlan)
    (hstatus : run.state.caseStatus = .coverageCheck) :
    Accounted env metadata (run.advance (ensurePlan env run)) := by
  rcases ensurePlan_cases env run with ⟨error, hplan⟩ | ⟨metadata', plan, -, hplan⟩
  · rw [hplan]
    exact Accounted.of_human rfl
  · rw [hplan]
    exact h.of_same (by rw [hnode]; decide) rfl rfl rfl rfl rfl id fun hblocked => by
      cases hstatus.symm.trans hblocked

theorem accounted_selectNextAction (h : Accounted env metadata run)
    (hnode : run.node = .selectNextAction) (hstatus : run.state.caseStatus = .coverageCheck) :
    Accounted env metadata (run.advance (selectNextAction env run)) := by
  unfold selectNextAction
  cases env.decide run.asked with
  | error error => exact Accounted.of_human rfl
  | ok decision =>
    exact h.of_same (by rw [hnode]; decide) rfl rfl rfl rfl rfl id fun hblocked => by
      cases hstatus.symm.trans hblocked

/-- A call that has no good answer is counted once, and it will be made. -/
theorem counts_admitted (h : Ledger env metadata run) (hnode : run.node = .policyGate)
    (hstatus : run.state.caseStatus = .coverageCheck) (metadata' : CaseMetadata) (call : ToolCall)
    (key : String) :
    (run.state.counted call.toolName call.argsHash).identicalCallCounts.getD key 0 ≤
      metadata.restoredCount key + run.callsOf env key +
        pending (run.advance { run with
          metadata := metadata'
          state := { run.state.counted call.toolName call.argsHash with
            currentToolCall := some call } }) key := by
  have hold := h.counts key
  rw [pending_of_ne (by rw [hnode]; decide), Nat.add_zero] at hold
  change (countCall run.state call.toolName call.argsHash).getD key 0 ≤ _
  unfold countCall
  by_cases hanswered : answered run.state call.toolName call.argsHash = true
  · rw [if_pos hanswered]
    exact hold.trans (Nat.le_add_right _ _)
  · rw [if_neg hanswered]
    by_cases hkey : callKey call.toolName call.argsHash = key
    · subst hkey
      have hcached : cachedEvidence run.state.evidence call = none := by
        refine List.find?_eq_none.mpr fun item hitem hmatch => hanswered ?_
        obtain ⟨hhash, hname, hfresh⟩ := of_decide_eq_true hmatch
        exact Bool.or_eq_true_iff.mpr (.inl (List.any_eq_true.mpr
          ⟨item, hitem, decide_eq_true ⟨hname, hhash, hfresh⟩⟩))
      have hnext : nextNode run.node
          { run.state.counted call.toolName call.argsHash with currentToolCall := some call } =
            .executeTool := by
        rw [hnode]
        have hblocked : run.state.caseStatus ≠ .blocked := by rw [hstatus]; decide
        have hhuman : run.state.caseStatus ≠ .humanRequired := by rw [hstatus]; decide
        exact (if_neg hblocked).trans (if_neg hhuman)
      have hpending : pending (run.advance { run with
          metadata := metadata'
          state := { run.state.counted call.toolName call.argsHash with
            currentToolCall := some call } }) (callKey call.toolName call.argsHash) = 1 :=
        if_pos ⟨hnext, rfl, hcached⟩
      rw [hpending]
      unfold Dict.getD at hold ⊢
      rw [Dict.get?_set_self]
      exact Nat.succ_le_succ hold
    · unfold Dict.getD at hold ⊢
      rw [Dict.get?_set_ne _ hkey]
      exact hold.trans (Nat.le_add_right _ _)

section

variable (h : Accounted env metadata run)
include h

theorem accounted_policyGate (hnode : run.node = .policyGate)
    (hstatus : run.state.caseStatus = .coverageCheck) (hexecute : policyGate env run = some next) :
    Accounted env metadata (run.advance next) := by
  unfold policyGate at hexecute
  obtain ⟨decision, hdecision, hexecute⟩ := Option.bind_eq_some_iff.mp hexecute
  obtain ⟨arguments, -, rfl⟩ := Option.map_eq_some_iff.mp hexecute
  have hledger := h.ledger hstatus
  have hne : run.node ≠ .executeTool := by rw [hnode]; decide
  rcases admitCall_cases env run decision arguments with
    ⟨hrefused, reason, hgate⟩ | ⟨hrepeated, hgate⟩ | hgate | ⟨metadata', -, -, -, hgate⟩
  · rw [hgate]
    exact
      { ledger := fun hloop => by cases hloop
        blocked := fun _ => .inr (.inl ⟨decision, hdecision, hrefused⟩) }
  · rw [hgate]
    refine ⟨fun hloop => (by cases hloop), fun _ => ?_⟩
    refine .inr (.inr (.inr ⟨callKey (decision.toolName.getD "") (env.lib.stableHash arguments), ?_⟩))
    have hcount := hledger.counts
      (callKey (decision.toolName.getD "") (env.lib.stableHash arguments))
    rw [pending_of_ne hne, Nat.add_zero] at hcount
    unfold repeatedTooOften at hrepeated
    have hmany := of_decide_eq_true (Bool.and_eq_true_iff.mp hrepeated).2
    exact (Nat.le_of_lt_succ hmany).trans hcount
  · rw [hgate]
    exact Accounted.of_human rfl
  · rw [hgate]
    refine ⟨fun _ => ?_, fun hblocked => by cases hstatus.symm.trans hblocked⟩
    refine ⟨fun call hcall => ?_, hledger.evidence, ?_, fun key => ?_⟩
    · cases hcall
      rfl
    · have hold := hledger.iteration
      rw [tools_advance_ne hne]
      have hle := uncounted_nextNode (run.state.counted (decision.toolName.getD "")
        (env.lib.stableHash arguments)) hne
      exact (Nat.add_le_add_left hle _).trans hold
    · exact counts_admitted hledger hnode hstatus metadata'
        { toolName := decision.toolName.getD "", arguments
          argsHash := env.lib.stableHash arguments, stepId := decision.stepId } key

theorem accounted_executeTool (hnode : run.node = .executeTool)
    (hstatus : run.state.caseStatus = .coverageCheck) (hexecute : executeTool env run = some next) :
    Accounted env metadata (run.advance next) := by
  obtain ⟨call, hcall⟩ : ∃ call, run.state.currentToolCall = some call := by
    unfold executeTool at hexecute
    obtain ⟨call, hcall, -⟩ := Option.map_eq_some_iff.mp hexecute
    exact ⟨call, hcall⟩
  have hledger := h.ledger hstatus
  have hiteration : ∀ next : Run, next.state.iteration = run.state.iteration →
      next.state.iteration + uncounted (nextNode run.node next.state) ≤
        metadata.restoredIteration + (run.advance next).tools := by
    intro next hsame
    have hold := hledger.iteration
    have hone : ∀ node, uncounted node ≤ 1 := by
      intro node
      cases node <;> decide
    rw [hnode] at hold ⊢
    have hnext := hone (nextNode .executeTool next.state)
    have htools : (run.advance next).tools = run.tools + 1 := by
      rw [tools_advance, if_pos hnode]
    change _ + 0 ≤ _ at hold
    omega
  have hnext : ∀ next : Run, (run.advance next).node ≠ .executeTool := by
    intro next hother
    cases hnode.symm.trans (executeTool_of_nextNode hother)
  rcases executeTool_cases env hcall with
    ⟨cached, hcached, htool⟩ | ⟨response, item, hitem, htool⟩ | ⟨error, htool⟩
  · cases htool.symm.trans hexecute
    refine ⟨fun _ => ⟨hledger.hash, hledger.evidence, hiteration _ rfl, fun key => ?_⟩,
      fun hblocked => by cases hstatus.symm.trans hblocked⟩
    have hold := hledger.counts key
    have hpending : pending run key = 0 := by
      unfold pending
      rw [hcall]
      exact if_neg fun hall => by cases hcached.symm.trans hall.2.2
    rw [hpending] at hold
    rw [pending_of_ne (hnext _)]
    exact hold
  · cases htool.symm.trans hexecute
    refine ⟨fun _ => ⟨hledger.hash, hledger.evidence, hiteration _ rfl, fun key => ?_⟩,
      fun hblocked => by cases hstatus.symm.trans hblocked⟩
    have hold := hledger.counts key
    rw [pending_of_ne (hnext _), Nat.add_zero]
    change run.state.identicalCallCounts.getD key 0 ≤ metadata.restoredCount key +
      (run.invocations ++ [(call.toolName, call.arguments)]).countP _
    rw [List.countP_append, List.countP_singleton]
    unfold pending Run.callsOf at hold
    rw [hcall] at hold
    simp only [hledger.hash call hcall] at hold
    by_cases hkey : callKey call.toolName (env.lib.stableHash call.arguments) = key
    · rw [if_pos (by simpa using hkey)]
      split at hold <;> omega
    · rw [if_neg (fun hall => hkey hall.2.1)] at hold
      omega
  · cases htool.symm.trans hexecute
    exact Accounted.of_human rfl

theorem accounted_saveObservation (hinvariant : Invariant run) (hnode : run.node = .saveObservation)
    (hexecute : saveObservation run = some next) :
    Accounted env metadata (run.advance next) := by
  have hstatus := (hinvariant.holds hnode).2.2.1.1
  obtain ⟨item, metadata', -, -, ⟨hfresh, rfl⟩ | ⟨reason, rfl⟩⟩ :=
    saveObservation_next (hinvariant.holds hnode) hexecute
  · have hledger := h.ledger hstatus
    obtain ⟨own, hown, hall⟩ := hledger.evidence
    refine ⟨fun _ => hledger.advance (by rw [hnode]; decide) rfl rfl ?_ rfl rfl,
      fun hblocked => by cases hstatus.symm.trans hblocked⟩
    change ∃ own, observed run.state.evidence item = _ ∧ _
    unfold observed
    split
    · exact ⟨own, hown, hall⟩
    · refine ⟨own ++ [item], by rw [hown, List.append_assoc], fun other hother => ?_⟩
      rcases List.mem_append.mp hother with hother | hother
      · exact hall other hother
      · rw [List.mem_singleton.mp hother]
        exact hfresh
  · exact Accounted.of_human rfl

theorem accounted_evaluateGoal (hnode : run.node = .evaluateGoal)
    (hstatus : run.state.caseStatus = .coverageCheck) :
    Accounted env metadata (run.advance (evaluateGoal run)) := by
  have hledger := h.ledger hstatus
  have hne : run.node ≠ .executeTool := by rw [hnode]; decide
  have hiteration := hledger.iteration
  rw [hnode] at hiteration
  change run.state.iteration + 1 ≤ _ at hiteration
  unfold evaluateGoal
  by_cases hlimit : maxLoopIterations ≤ run.state.iteration + 1
  · rw [if_pos hlimit]
    refine ⟨fun hloop => (by cases hloop), fun _ => .inr (.inr (.inl ?_))⟩
    rw [tools_advance_ne hne]
    exact hlimit.trans hiteration
  · rw [if_neg hlimit]
    refine ⟨fun _ => ⟨hledger.hash, hledger.evidence, ?_, fun key => ?_⟩,
      fun hblocked => by cases hstatus.symm.trans hblocked⟩
    · have hblocked : run.state.caseStatus ≠ .blocked := by rw [hstatus]; decide
      rw [tools_advance_ne hne]
      change run.state.iteration + 1 + uncounted (nextNode run.node _) ≤ _
      rw [hnode]
      change run.state.iteration + 1 + uncounted (if run.state.caseStatus = .blocked then _ else _) ≤ _
      rw [if_neg hblocked]
      exact hiteration
    · have hold := hledger.counts key
      rw [pending_of_ne hne] at hold
      rw [pending_of_ne fun hother => by cases hnode.symm.trans (executeTool_of_nextNode hother)]
      exact hold

theorem accounted_replan (hinvariant : Invariant run) (hnode : run.node = .replan)
    (hexecute : replan run = some next) :
    Accounted env metadata (run.advance next) := by
  have hstatus := (hinvariant.holds hnode).2.2.1.1
  rcases replan_next (hinvariant.holds hnode) hexecute with ⟨reason, rfl⟩ | ⟨_, _, -, rfl⟩
  · exact Accounted.of_human rfl
  · exact h.of_same (by rw [hnode]; decide) rfl rfl rfl rfl rfl id fun hblocked => by
      cases hstatus.symm.trans hblocked

end

theorem accounted_calculateCoverageResult (hinvariant : Invariant run)
    (hnode : run.node = .calculateCoverageResult)
    (hexecute : calculateCoverageResult env run = some next) :
    Accounted env metadata (run.advance next) := by
  obtain ⟨input, -, ⟨reason, rfl⟩ | ⟨-, metadata', rfl⟩⟩ :=
    calculateCoverageResult_next (hinvariant.holds hnode) hexecute
  · exact Accounted.of_human rfl
  · exact ⟨fun hloop => (by cases hloop), fun hblocked => by cases hblocked⟩

theorem blocked_of_nextNode {node : Node} {state : GraphState}
    (h : nextNode node state = .blockCase) : state.caseStatus = .blocked := by
  have hall : ∀ blocked, .blockCase ∈ successors blocked node → blocked = true := by
    cases node <;> decide
  exact of_decide_eq_true (hall _ (h ▸ nextNode_mem_successors node state))

theorem blocked_of_blockCase (n : Nat) (h : (runFor env metadata n).node = .blockCase) :
    (runFor env metadata n).state.caseStatus = .blocked := by
  cases n with
  | zero => cases h
  | succ n =>
    change (step env (runFor env metadata n)).node = _ at h
    change (step env (runFor env metadata n)).state.caseStatus = _
    rcases step_cases env (invariant_runFor env metadata n) with
      ⟨hended, hstep⟩ | ⟨-, -, hraised⟩ | ⟨-, next, -, hstep⟩
    · rw [hstep] at h
      rcases hended with hnode | hnode <;> cases hnode.symm.trans h
    · cases hraised.symm.trans h
    · rw [hstep] at h ⊢
      exact blocked_of_nextNode h

theorem currentToolCall_of_before (n : Nat) (h : Before (runFor env metadata n).node) :
    (runFor env metadata n).state.currentToolCall = none := by
  induction n with
  | zero => rfl
  | succ n ih =>
    change Before (step env (runFor env metadata n)).node at h
    change (step env (runFor env metadata n)).state.currentToolCall = none
    rcases step_cases env (invariant_runFor env metadata n) with
      ⟨-, hstep⟩ | ⟨-, -, hraised⟩ | ⟨-, next, hexecute, hstep⟩
    · rw [hstep] at h ⊢
      exact ih h
    · rw [hraised] at h
      rcases h with h | h | h <;> cases h
    · rw [hstep] at h ⊢
      change next.state.currentToolCall = none
      unfold execute at hexecute
      rcases before_of_nextNode h with hnode | hnode <;> rw [hnode] at hexecute <;>
        cases hexecute
      · have hbefore := ih (.inl hnode)
        rcases validateRequest_cases env (runFor env metadata n) with hcase | ⟨_, _, -, hcase⟩ <;>
          rw [hcase] <;> exact hbefore
      · have hbefore := ih (.inr (.inl hnode))
        obtain ⟨missing, hcase | ⟨reason, hcase⟩⟩ :=
          checkDataQuality_cases env (runFor env metadata n) <;> rw [hcase] <;> exact hbefore

theorem accounted_end (h : Accounted env metadata run)
    (hblockCase : run.node = .blockCase → run.state.caseStatus = .blocked)
    (hend : run.node = .requireHuman ∨ run.node = .blockCase ∨ run.node = .finalizeResult) (hexecute : execute env run = some next) :
    Accounted env metadata (run.advance next) := by
  unfold execute at hexecute
  rcases hend with hnode | hnode | hnode <;> rw [hnode] at hexecute <;>
    cases hexecute
  · exact Accounted.of_human rfl
  · exact ⟨fun hloop => (by cases hloop), fun _ =>
      (h.blocked (hblockCase hnode)).advance (by rw [hnode]; decide) rfl rfl⟩
  · exact h.of_same (by rw [hnode]; decide) rfl rfl rfl rfl rfl id fun hblocked =>
      (h.blocked hblocked).advance (by rw [hnode]; decide) rfl rfl

theorem accounted_execute (h : Accounted env metadata run) (hinvariant : Invariant run)
    (hbefore : Before run.node → run.metadata = metadata ∧ run.state.currentToolCall = none)
    (hblockCase : run.node = .blockCase → run.state.caseStatus = .blocked)
    (hended : ¬ run.Ended) (hexecute : execute env run = some next) :
    Accounted env metadata (run.advance next) := by
  have hmain := hexecute
  have hholds := hinvariant
  unfold execute at hmain
  unfold Invariant at hholds
  cases hnode : run.node <;> rw [hnode] at hmain hholds
  case validateRequest => exact Option.some.inj hmain ▸ accounted_validateRequest env metadata run
  case checkDataQuality => exact Option.some.inj hmain ▸ accounted_checkDataQuality h hnode
  case loadCaseContext =>
    obtain ⟨hmetadata, hcall⟩ := hbefore (.inr (.inr hnode))
    exact Option.some.inj hmain ▸ accounted_loadCaseContext hmetadata hnode hcall
  case ensurePlan => exact Option.some.inj hmain ▸ accounted_ensurePlan h hnode hholds.2.2
  case selectNextAction =>
    exact Option.some.inj hmain ▸ accounted_selectNextAction h hnode hholds.2.2.1
  case policyGate => exact accounted_policyGate h hnode hholds.2.2.1.1 hmain
  case executeTool => exact accounted_executeTool h hnode hholds.2.2.1.1 hmain
  case saveObservation => exact accounted_saveObservation h hinvariant hnode hmain
  case evaluateGoal => exact Option.some.inj hmain ▸ accounted_evaluateGoal h hnode hholds.2.2.1
  case replan => exact accounted_replan h hinvariant hnode hmain
  case calculateCoverageResult => exact accounted_calculateCoverageResult hinvariant hnode hmain
  case requireHuman => exact accounted_end h hblockCase (.inl hnode) hexecute
  case blockCase => exact accounted_end h hblockCase (.inr (.inl hnode)) hexecute
  case finalizeResult => exact accounted_end h hblockCase (.inr (.inr hnode)) hexecute
  case finished => exact absurd (.inl hnode) hended
  case raised => exact absurd (.inr hnode) hended

theorem loop_of_raises (h : Invariant run) (hraises : Raises env run) :
    run.node ≠ .executeTool ∧ run.state.caseStatus = .coverageCheck := by
  unfold Invariant at h
  rcases hraises with ⟨hnode, -⟩ | ⟨hnode, -⟩ <;> rw [hnode] at h ⊢
  · exact ⟨by decide, h.2.2.1.1⟩
  · exact ⟨by decide, h.2.2.1⟩

theorem accounted_runFor (env : Env) (metadata : CaseMetadata) (n : Nat) :
    Accounted env metadata (runFor env metadata n) := by
  induction n with
  | zero => exact ⟨fun hloop => (by cases hloop), fun hblocked => by cases hblocked⟩
  | succ n ih =>
    change Accounted env metadata (step env (runFor env metadata n))
    have hinvariant := invariant_runFor env metadata n
    have hkept : Kept env metadata (fun _ => True) (runFor env metadata n) :=
      kept_runFor (fun _ _ => trivial) (fun _ _ _ _ => trivial) n
    by_cases hended : (runFor env metadata n).Ended
    · rw [step_of_ended hended]
      exact ih
    · obtain ⟨hfinished, hraised⟩ := not_or.mp hended
      cases hexecute : execute env (runFor env metadata n) with
      | some next =>
        rw [step_of_execute hfinished hraised hexecute]
        exact accounted_execute ih hinvariant
          (fun hbefore => ⟨hkept.before hbefore, currentToolCall_of_before n hbefore⟩)
          (blocked_of_blockCase n) hended hexecute
      | none =>
        rw [step_of_raise hfinished hraised hexecute]
        obtain ⟨hne, hstatus⟩ := loop_of_raises hinvariant (raises_of_execute hinvariant hexecute)
        have hledger := ih.ledger hstatus
        refine ⟨fun _ => ⟨hledger.hash, hledger.evidence, ?_, fun key => ?_⟩,
          fun hblocked => by cases hstatus.symm.trans hblocked⟩
        · change (runFor env metadata n).state.iteration + 0 ≤
            _ + ((runFor env metadata n).advance (runFor env metadata n)).tools
          rw [tools_advance_ne hne]
          exact (Nat.le_add_right _ _).trans hledger.iteration
        · have hcounts := hledger.counts key
          rw [pending_of_ne hne] at hcounts
          exact hcounts.trans (Nat.le_add_right _ _)

/-! ## A case that has recovered -/

def latest (evidence : List Evidence) (toolName : String) : Option Evidence :=
  (evidence.filter fun item => item.toolName = toolName).getLast?

/-- The case has recovered: the latest answer of every mandatory tool is good, the positions and the
supplies can be read, and no position of the calculation lacks data. -/
structure Recovered (env : Env) (evidence : List Evidence) : Prop where
  tools : ∀ toolName ∈ mandatoryTools env.request.sourceData,
    ∃ item, latest evidence toolName = some item ∧ item.freshSuccess = true
  positions : (extractPositions env.lib env.request.sourceData evidence).map Prod.snd = some []
  supplies : (extractSupplies env.lib evidence).2 = []
  calculation : ∀ positions ∈ extractPositions env.lib env.request.sourceData evidence,
    ∀ position ∈ positions.1,
      (coverPosition (extractSupplies env.lib evidence).1 position).1.status ≠ .dataInsufficient

/-- Evidence without a capability that was unavailable and without an answer that is not up to
date. -/
def Untroubled (evidence : List Evidence) : Prop :=
  ∀ item ∈ evidence, item.status ≠ .capabilityUnavailable ∧
    (item.status = .success → item.freshness = .fresh)

theorem untroubled_iff (evidence : List Evidence) :
    Untroubled evidence ↔ freshnessIssues evidence = [] ∧ failedIssues evidence = [] := by
  unfold Untroubled freshnessIssues failedIssues
  rw [List.map_eq_nil_iff, List.map_eq_nil_iff, List.filter_eq_nil_iff, List.filter_eq_nil_iff,
    ← forall₂_and]
  refine forall₂_congr fun item _ => ?_
  rw [decide_eq_true_eq, decide_eq_true_eq, not_and, not_not]
  exact and_comm

theorem untroubled_append (restored own : List Evidence)
    (hown : ∀ item ∈ own, item.freshSuccess = true) :
    Untroubled (restored ++ own) ↔ Untroubled restored := by
  refine ⟨fun h item hitem => h item (List.mem_append_left _ hitem), fun h item hitem => ?_⟩
  rcases List.mem_append.mp hitem with hitem | hitem
  · exact h item hitem
  · have hfresh := hown item hitem
    unfold Evidence.freshSuccess at hfresh
    rw [Bool.and_eq_true, beq_iff_eq, beq_iff_eq] at hfresh
    rw [hfresh.1, hfresh.2]
    exact ⟨by decide, fun _ => rfl⟩

/-- Where the mandatory tools have answered, no capability is missing. -/
theorem mandatoryCapabilityIssues_of_recovered {evidence : List Evidence}
    (h : Recovered env evidence) :
    mandatoryCapabilityIssues env.request.sourceData evidence = [] := by
  unfold mandatoryCapabilityIssues
  rw [List.map_eq_nil_iff, sortBy_eq_nil, List.filter_eq_nil_iff]
  intro toolName htool
  obtain ⟨item, hlatest, hfresh⟩ := h.tools toolName htool
  unfold Evidence.freshSuccess at hfresh
  rw [Bool.and_eq_true, beq_iff_eq] at hfresh
  obtain ⟨hitem, hname⟩ := List.mem_filter.mp (List.mem_of_getLast? hlatest)
  rw [Bool.not_eq_true', Bool.not_eq_false, List.any_eq_true]
  exact ⟨item, hitem, decide_eq_true ⟨hfresh.1, of_decide_eq_true hname⟩⟩

theorem readPositions_ne_nil {lib : Library} {raw : List Value} (h : positionIssues lib raw = []) :
    readPositions lib raw ≠ [] := by
  intro hnone
  unfold positionIssues at h
  rw [hnone] at h
  exact List.cons_ne_nil _ _ (List.append_eq_nil_iff.mp h).2

/-- Of a case that has recovered, the data suffice exactly when no evidence is troubled. -/
theorem sufficient_iff_untroubled {evidence : List Evidence} {input : CoverageInput}
    (h : Recovered env evidence)
    (hinput : coverageInput env.lib env.caseId env.request evidence = some input)
    (completedAt : Int) :
    (calculateCoverage input completedAt).status ≠ .dataInsufficient ↔ Untroubled evidence := by
  unfold coverageInput at hinput
  obtain ⟨positions, hpositions, rfl⟩ := Option.map_eq_some_iff.mp hinput
  have hissues : positions.2 = [] := by
    have hsnd := h.positions
    rw [hpositions] at hsnd
    exact Option.some.inj hsnd
  have hsome : positions.1 ≠ [] := by
    have hextract := hpositions
    unfold extractPositions at hextract
    obtain ⟨raw, -, rfl⟩ := Option.map_eq_some_iff.mp hextract
    exact readPositions_ne_nil hissues
  have hdata : (positions.2 ++ (extractSupplies env.lib evidence).2 ++
      mandatoryCapabilityIssues env.request.sourceData evidence ++ freshnessIssues evidence ++
      failedIssues evidence).eraseDups = [] ↔ Untroubled evidence := by
    rw [untroubled_iff, hissues, h.supplies, mandatoryCapabilityIssues_of_recovered h]
    constructor
    · exact fun hnone => List.append_eq_nil_iff.mp (eq_nil_of_eraseDups hnone)
    · rintro ⟨hfresh, hfailed⟩
      rw [hfresh, hfailed]
      rfl
  rw [sufficient_iff]
  exact ⟨fun hall => hdata.mp hall.1, fun huntroubled =>
    ⟨hdata.mpr huntroubled, hsome, h.calculation positions hpositions⟩⟩

def Uncharged (metadata : CaseMetadata) : Prop :=
  metadata.restoredIteration = 0 ∧ ∀ key, metadata.restoredCount key = 0

/-- A run is not held back by the runs before it: when its case has recovered the calculation does
not end in insufficient data, and it is blocked only for what its request, its planner and its own
calls are. -/
def NotHeldBack (env : Env) (run : Run) : Prop :=
  (run.node = .calculateCoverageResult → Recovered env run.state.evidence →
    ∀ input, coverageInput env.lib env.caseId env.request run.state.evidence = some input →
      (calculateCoverage input env.now).status ≠ .dataInsufficient) ∧
  (run.state.caseStatus = .blocked → BlockReason env run 0 fun _ => 0)

/-- A run that starts with a clean checkpoint is not held back; and whatever it starts with, a case
that has recovered lacks data exactly when the evidence that was stored is troubled, and the stored
counters and its own calls together are why a run is blocked. -/
theorem recovery_unblocks (env : Env) (metadata : CaseMetadata) :
    (Untroubled metadata.restoredEvidence → Uncharged metadata →
      ∀ n, NotHeldBack env (runFor env metadata n)) ∧
    (∀ n, (runFor env metadata n).node = .calculateCoverageResult →
      Recovered env (runFor env metadata n).state.evidence →
      ∀ input, coverageInput env.lib env.caseId env.request
        (runFor env metadata n).state.evidence = some input →
      ((calculateCoverage input env.now).status ≠ .dataInsufficient ↔
        Untroubled metadata.restoredEvidence)) ∧
    ∀ n, (runFor env metadata n).state.caseStatus = .blocked →
      BlockReason env (runFor env metadata n) metadata.restoredIteration metadata.restoredCount := by
  have hexact : ∀ n, (runFor env metadata n).node = .calculateCoverageResult →
      Recovered env (runFor env metadata n).state.evidence →
      ∀ input, coverageInput env.lib env.caseId env.request
        (runFor env metadata n).state.evidence = some input →
      ((calculateCoverage input env.now).status ≠ .dataInsufficient ↔
        Untroubled metadata.restoredEvidence) := by
    intro n hnode hrecovered input hinput
    have hholds := invariant_runFor env metadata n
    unfold Invariant at hholds
    rw [hnode] at hholds
    obtain ⟨own, hevidence, hown⟩ := ((accounted_runFor env metadata n).ledger hholds.2.2.1).evidence
    rw [sufficient_iff_untroubled hrecovered hinput, hevidence]
    exact untroubled_append metadata.restoredEvidence own hown
  refine ⟨fun huntroubled ⟨hiteration, hcount⟩ n => ⟨?_, fun hblocked => ?_⟩, hexact,
    fun n => (accounted_runFor env metadata n).blocked⟩
  · intro hnode hrecovered input hinput
    exact (hexact n hnode hrecovered input hinput).mpr huntroubled
  · have hreason := (accounted_runFor env metadata n).blocked hblocked
    have hzero : metadata.restoredCount = fun _ => 0 := funext hcount
    rw [hiteration, hzero] at hreason
    exact hreason

/-- The tools of `givenEnv`, when free stock is not available. -/
def unavailableEnv : Env where
  __ := givenEnv
  respond := fun _ => .ok
    { data := .dict []
      freshness := .unknown
      status := .capabilityUnavailable
      errorMessage := some "no connection" }
  newId := fun called => "first-" ++ toString called

/-- The case after a run in which free stock was not available. -/
def interruptedCase : CaseRecord :=
  CaseRecord.run
    { status := .new, deviationSummary := none, errorMessage := none, latestResult := none
      metadata := newCase } unavailableEnv false 12

def resumedRun : Run := runFor givenEnv interruptedCase.metadata 35

/-- What `resumedRun` has found, as far as it can be computed. -/
def resumedFacts : Bool :=
  decide (interruptedCase.status = .humanRequired) &&
    decide (resumedRun.node = .calculateCoverageResult) &&
    (mandatoryTools givenEnv.request.sourceData).all (fun toolName =>
      (latest resumedRun.state.evidence toolName).any Evidence.freshSuccess) &&
    decide ((extractPositions rowLibrary givenEnv.request.sourceData
      resumedRun.state.evidence).map Prod.snd = some []) &&
    decide ((extractSupplies rowLibrary resumedRun.state.evidence).2 = []) &&
    (extractPositions rowLibrary givenEnv.request.sourceData resumedRun.state.evidence).all
      (fun positions => positions.1.all fun position =>
        decide ((coverPosition (extractSupplies rowLibrary resumedRun.state.evidence).1
          position).1.status ≠ .dataInsufficient)) &&
    decide ((coverageInput rowLibrary givenEnv.caseId givenEnv.request
      resumedRun.state.evidence).map (fun input => (calculateCoverage input 0).status) =
        some .dataInsufficient)

theorem recovery_unblocks_interrupted_fails :
    interruptedCase.status = .humanRequired ∧
      ¬ ∀ n, NotHeldBack givenEnv (runFor givenEnv interruptedCase.metadata n) := by
  have hfacts : resumedFacts = true := by decide +kernel
  unfold resumedFacts at hfacts
  simp only [Bool.and_eq_true, decide_eq_true_eq] at hfacts
  obtain ⟨⟨⟨⟨⟨⟨hstatus, hnode⟩, htools⟩, hpositions⟩, hsupplies⟩, hcalculation⟩, hinsufficient⟩ :=
    hfacts
  refine ⟨hstatus, fun h => ?_⟩
  have hheld : NotHeldBack givenEnv resumedRun := h 35
  obtain ⟨input, hinput, hlacks⟩ := Option.map_eq_some_iff.mp hinsufficient
  refine hheld.1 hnode ⟨fun toolName htool => ?_, hpositions, hsupplies, ?_⟩ input hinput hlacks
  · have hany := List.all_eq_true.mp htools toolName htool
    obtain ⟨item, hitem, hfresh⟩ := (Option.any_eq_true _ _).mp hany
    exact ⟨item, hitem, hfresh⟩
  · intro positions hsome position hposition
    have hall := (Option.all_eq_true _ _).mp hcalculation positions hsome
    exact of_decide_eq_true (List.all_eq_true.mp hall position hposition)

end AgentBack.KT1
