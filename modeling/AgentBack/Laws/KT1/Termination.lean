import AgentBack.Laws.KT1.Steps

/-!
# The loop of the purchasing agent

The loop has two cycles. A tool step counts the iterations and stops at the eighth, whatever the
checkpoint says, so a run executes at most eight tools. A replan counts nothing: a planner that
replans for ever keeps the run going for ever. `graph_stops` says that this, and a value that cannot
be iterated, are all that keeps a run from `finalize_result`, and bounds the nodes of a run by its
replans.
-/

namespace AgentBack.KT1

open Orchestrator (CaseStatus)

def Run.tools (run : Run) : Nat := run.trace.count .executeTool

def Run.replans (run : Run) : Nat := run.trace.count .replan

/-- The nodes that have run are no more than five for a tool, two for a replan and some. -/
def Run.Within (run : Run) (some_ : Nat) : Prop :=
  run.trace.length ≤ some_ + 5 * run.tools + 2 * run.replans

/-- The tools that were executed are counted, before the execution of one. -/
def Run.Counted (run : Run) : Prop :=
  run.tools = 0 ∨ run.tools ≤ run.state.iteration ∧ run.state.iteration < maxLoopIterations

/-- The tools that were executed are counted, but for the last one. -/
def Run.Uncounted (run : Run) : Prop :=
  run.tools = 1 ∨
    run.tools ≤ run.state.iteration + 1 ∧ run.state.iteration < maxLoopIterations

/-- The case is in the loop: its coverage is checked, and it has an active plan. -/
def Run.Looping (run : Run) : Prop :=
  run.state.caseStatus = .coverageCheck ∧ (activeSteps run.metadata).isSome = true

/-- A decision was made, and its step can be marked. -/
def Run.Decided (run : Run) : Prop :=
  ∃ decision, run.state.nextAction = some decision ∧
    Markable (activeSteps run.metadata) decision.stepId

/-- The tools that were executed are no more than the iterations of the loop. -/
def Run.Limited (run : Run) : Prop := run.tools ≤ maxLoopIterations

def Holds (node : Node) (run : Run) : Prop :=
  match node with
  | .validateRequest => run.Within 0 ∧ run.tools = 0
  | .checkDataQuality => run.Within 1 ∧ run.tools = 0
  | .loadCaseContext => run.Within 2 ∧ run.tools = 0
  | .ensurePlan => run.Within 3 ∧ run.tools = 0 ∧ run.state.caseStatus = .coverageCheck
  | .selectNextAction => run.Within 4 ∧ run.Counted ∧ run.Looping
  | .policyGate => run.Within 5 ∧ run.Counted ∧ run.Looping ∧ run.state.nextAction.isSome = true
  | .executeTool => run.Within 6 ∧ run.Counted ∧ run.Looping ∧ run.Decided ∧
      run.state.currentToolCall.isSome = true
  | .saveObservation => run.Within 2 ∧ run.Uncounted ∧ run.Looping ∧ run.Decided ∧
      run.state.currentObservation.isSome = true
  | .evaluateGoal => run.Within 3 ∧ run.Uncounted ∧ run.Looping
  | .replan => run.Within 5 ∧ run.Counted ∧ run.Looping ∧ run.state.nextAction.isSome = true
  | .calculateCoverageResult => run.Within 5 ∧ run.Limited ∧ run.Looping
  | .requireHuman => run.Within 6 ∧ run.Limited
  | .blockCase => run.Within 6 ∧ run.Limited
  | .finalizeResult => run.Within 7 ∧ run.Limited
  | .finished => run.Within 8 ∧ run.Limited
  | .raised => run.Within 8 ∧ run.Limited

def Invariant (run : Run) : Prop := Holds run.node run

variable {env : Env} {run : Run}

/-! ## Counting -/

theorem length_advance (next : Run) :
    (run.advance next).trace.length = run.trace.length + 1 :=
  List.length_append

theorem tools_advance (next : Run) :
    (run.advance next).tools = run.tools + if run.node = .executeTool then 1 else 0 := by
  unfold Run.tools
  change (run.trace ++ [run.node]).count _ = _
  rw [List.count_append, List.count_singleton]
  by_cases h : run.node = .executeTool <;> simp [h]

theorem replans_advance (next : Run) :
    (run.advance next).replans = run.replans + if run.node = .replan then 1 else 0 := by
  unfold Run.replans
  change (run.trace ++ [run.node]).count _ = _
  rw [List.count_append, List.count_singleton]
  by_cases h : run.node = .replan <;> simp [h]

variable {next : Run} {n : Nat}

theorem within_advance {m : Nat} (h : run.Within n) (hm : n + 1 ≤ m) :
    (run.advance next).Within m := by
  unfold Run.Within at h ⊢
  rw [length_advance, tools_advance, replans_advance]
  omega

theorem within_weaken {m : Nat} (h : run.Within n) (hm : n ≤ m) : run.Within m := by
  unfold Run.Within at h ⊢
  omega

/-- The execution of a tool makes up for five nodes. -/
theorem within_advance_tool (hnode : run.node = .executeTool)
    (h : run.Within (n + 4)) : (run.advance next).Within n := by
  unfold Run.Within at h ⊢
  rw [length_advance, tools_advance, replans_advance, if_pos hnode]
  omega

/-- A replan makes up for two nodes. -/
theorem within_advance_replan (hnode : run.node = .replan)
    (h : run.Within (n + 1)) : (run.advance next).Within n := by
  unfold Run.Within at h ⊢
  rw [length_advance, tools_advance, replans_advance, if_pos hnode]
  omega

theorem tools_advance_ne (hnode : run.node ≠ .executeTool) :
    (run.advance next).tools = run.tools := by
  rw [tools_advance, if_neg hnode, Nat.add_zero]

theorem Run.Counted.limited (h : run.Counted) : run.Limited := by
  unfold Run.Limited
  rcases h with h | ⟨h, hlt⟩ <;> omega

theorem Run.Uncounted.limited (h : run.Uncounted) : run.Limited := by
  unfold Run.Limited maxLoopIterations
  rcases h with h | ⟨h, hlt⟩
  · omega
  · unfold maxLoopIterations at hlt
    omega

theorem limited_advance (hnode : run.node ≠ .executeTool) (h : run.Limited) :
    (run.advance next).Limited := by
  unfold Run.Limited at h ⊢
  rw [tools_advance_ne hnode]
  exact h

section

variable (hnode : run.node ≠ .executeTool) (hiteration : next.state.iteration = run.state.iteration)
include hnode hiteration

theorem counted_advance (h : run.Counted) :
    (run.advance next).Counted := by
  unfold Run.Counted at h ⊢
  rw [tools_advance_ne hnode]
  change _ ∨ _ ≤ next.state.iteration ∧ next.state.iteration < _
  rw [hiteration]
  exact h

theorem uncounted_advance (h : run.Uncounted) :
    (run.advance next).Uncounted := by
  unfold Run.Uncounted at h ⊢
  rw [tools_advance_ne hnode]
  change _ ∨ _ ≤ next.state.iteration + 1 ∧ next.state.iteration < _
  rw [hiteration]
  exact h

end

theorem uncounted_advance_tool (hnode : run.node = .executeTool)
    (hiteration : next.state.iteration = run.state.iteration) (h : run.Counted) :
    (run.advance next).Uncounted := by
  unfold Run.Counted at h
  unfold Run.Uncounted
  rw [tools_advance, if_pos hnode]
  change _ ∨ _ ≤ next.state.iteration + 1 ∧ next.state.iteration < _
  rw [hiteration]
  omega

/-- A node is followed by another one, at which its invariant holds. -/
theorem holds_goto (node : Node) (hnext : nextNode run.node next.state = node)
    (h : Holds node (run.advance next)) : Invariant (run.advance next) := by
  change Holds (nextNode run.node next.state) _
  rw [hnext]
  exact h

/-- A node that stops the case with a status that a person has to look at, or that blocks it. -/
theorem holds_stop {node : Node} (hnode : run.node ≠ .executeTool)
    (hwithin : run.Within n) (hn : n ≤ 5) (hlimited : run.Limited)
    (hnext : nextNode run.node next.state = node)
    (hstop : node = .requireHuman ∨ node = .blockCase) : Invariant (run.advance next) := by
  have hboth : (run.advance next).Within 6 ∧ (run.advance next).Limited :=
    ⟨within_advance hwithin (by omega), limited_advance hnode hlimited⟩
  refine holds_goto node hnext ?_
  rcases hstop with rfl | rfl
  · exact hboth
  · exact hboth

theorem holds_raise (hnode : run.node ≠ .executeTool) (hwithin : run.Within n)
    (hn : n ≤ 7) (hlimited : run.Limited) :
    Invariant { run with node := .raised, trace := run.trace ++ [run.node] } := by
  have hboth : (run.advance run).Within 8 ∧ (run.advance run).Limited :=
    ⟨within_advance hwithin (by omega), limited_advance hnode hlimited⟩
  exact hboth

theorem Invariant.holds {node : Node} (h : Invariant run) (hnode : run.node = node) :
    Holds node run :=
  hnode ▸ h

/-- What the gate leaves is what the admission of the bound call leaves. -/
theorem policyGate_next (h : Holds .policyGate run) (hexecute : policyGate env run = some next) :
    ∃ decision arguments, run.state.nextAction = some decision ∧
      bindTrustedToolArguments env.lib env.request (decision.toolName.getD "") decision.arguments =
        some arguments ∧
      next = admitCall env run decision arguments := by
  obtain ⟨decision, hdecision⟩ := Option.isSome_iff_exists.mp h.2.2.2
  unfold policyGate at hexecute
  rw [hdecision, Option.bind_some] at hexecute
  obtain ⟨arguments, hbind, rfl⟩ := Option.map_eq_some_iff.mp hexecute
  exact ⟨decision, arguments, hdecision, hbind, rfl⟩

/-- The observation is kept, and the case stops where it is no fresh success. -/
theorem saveObservation_next (h : Holds .saveObservation run)
    (hexecute : saveObservation run = some next) :
    ∃ item metadata, run.state.currentObservation = some item ∧
      activeSteps metadata = activeSteps run.metadata ∧
      let saved : GraphState := { run.state with
        evidence := observed run.state.evidence item
        currentObservation := some item
        successfulCallHashes := recordSuccess run.state item }
      (item.freshSuccess = true ∧ next = { run with metadata, state := saved }) ∨
        ∃ reason, next = { run with metadata, state := saved.stop .humanRequired reason } := by
  obtain ⟨-, -, -, ⟨decision, hdecision, hmarkable⟩, hsome⟩ := h
  obtain ⟨item, hitem⟩ := Option.isSome_iff_exists.mp hsome
  obtain ⟨metadata, state, hstore, hids, hstate⟩ := storeObservation_cases item hmarkable
  unfold saveObservation at hexecute
  rw [hdecision, hitem] at hexecute
  cases hstore.symm.trans hexecute
  refine ⟨item, metadata, hitem, hids, ?_⟩
  rw [hstate]
  rcases judgeObservation_cases _ item with ⟨hfresh, hjudge⟩ | ⟨-, reason, hjudge⟩
  · exact .inl ⟨hfresh, by rw [hjudge]⟩
  · exact .inr ⟨reason, by rw [hjudge]⟩

theorem replan_next (h : Holds .replan run) (hexecute : replan run = some next) :
    (∃ reason, next = run.withState (run.state.stop .humanRequired reason)) ∨
      ∃ metadata plan, (activeSteps metadata).isSome = true ∧ next =
        { run with metadata, state := { run.state with plan := some plan, nextAction := none } } := by
  obtain ⟨decision, hdecision⟩ := Option.isSome_iff_exists.mp h.2.2.2
  rcases replan_cases hdecision h.2.2.1.2 with
    ⟨-, reason, hreplan⟩ | ⟨-, metadata, plan, hactive, hreplan⟩
  · exact .inl ⟨reason, Option.some.inj (hexecute.symm.trans hreplan)⟩
  · exact .inr ⟨metadata, plan, hactive, Option.some.inj (hexecute.symm.trans hreplan)⟩

theorem calculateCoverageResult_next (h : Holds .calculateCoverageResult run)
    (hexecute : calculateCoverageResult env run = some next) :
    ∃ input, coverageInput env.lib env.caseId env.request run.state.evidence = some input ∧
      ((∃ reason, next = run.withState { run.state.stop .humanRequired reason with
          coverageResult := some (calculateCoverage input env.now)
          humanAction := (calculateCoverage input env.now).humanActionRequired }) ∨
        (calculateCoverage input env.now).status ≠ .dataInsufficient ∧ ∃ metadata, next =
          { run with metadata, state := { run.state with
              coverageResult := some (calculateCoverage input env.now)
              caseStatus := .closed
              recommendation := some (calculateCoverage input env.now).recommendedNextStep } }) := by
  have hbind := hexecute
  unfold calculateCoverageResult at hbind
  obtain ⟨input, hinput, -⟩ := Option.bind_eq_some_iff.mp hbind
  refine ⟨input, hinput, ?_⟩
  rcases calculateCoverageResult_cases hinput h.2.2.2 with
    ⟨-, reason, hresult⟩ | ⟨hsufficient, metadata, hresult⟩
  · exact .inl ⟨reason, Option.some.inj (hexecute.symm.trans hresult)⟩
  · exact .inr ⟨hsufficient, metadata, Option.some.inj (hexecute.symm.trans hresult)⟩

section Raising

variable (env)

/-- The gate raises where the positions of the request cannot be iterated. -/
def GateRaises (run : Run) : Prop :=
  run.node = .policyGate ∧ ∀ decision, run.state.nextAction = some decision →
    bindTrustedToolArguments env.lib env.request (decision.toolName.getD "") decision.arguments =
      none

/-- The calculation raises where the raw positions cannot be iterated. -/
def CalculationRaises (run : Run) : Prop :=
  run.node = .calculateCoverageResult ∧
    iterItems (rawPositions env.lib env.request.sourceData run.state.evidence) = none

end Raising

def Run.Ended (run : Run) : Prop := run.node = .finished ∨ run.node = .raised

/-- The node at which a run is raises: the positions that it needs cannot be iterated. -/
def Raises (env : Env) (run : Run) : Prop := GateRaises env run ∨ CalculationRaises env run

theorem raises_of_execute (h : Invariant run) (hexecute : execute env run = none) :
    Raises env run := by
  unfold Invariant at h
  unfold execute at hexecute
  cases hnode : run.node <;> rw [hnode] at h hexecute <;> try cases hexecute
  case policyGate =>
    obtain ⟨decision, hdecision⟩ := Option.isSome_iff_exists.mp h.2.2.2
    refine .inl ⟨hnode, fun other hother => ?_⟩
    cases hdecision.symm.trans hother
    change policyGate env run = none at hexecute
    unfold policyGate at hexecute
    rw [hdecision, Option.bind_some] at hexecute
    exact Option.map_eq_none_iff.mp hexecute
  case executeTool =>
    obtain ⟨call, hcall⟩ := Option.isSome_iff_exists.mp h.2.2.2.2
    change executeTool env run = none at hexecute
    rcases executeTool_cases env hcall with ⟨_, -, htool⟩ | ⟨_, _, -, htool⟩ | ⟨_, htool⟩ <;>
      cases hexecute.symm.trans htool
  case saveObservation =>
    obtain ⟨-, -, -, ⟨decision, hdecision, hmarkable⟩, hsome⟩ := h
    obtain ⟨item, hitem⟩ := Option.isSome_iff_exists.mp hsome
    obtain ⟨metadata, state, hstore, -, -⟩ := storeObservation_cases item hmarkable
    change saveObservation run = none at hexecute
    unfold saveObservation at hexecute
    rw [hdecision, hitem] at hexecute
    cases hexecute.symm.trans hstore
  case replan =>
    obtain ⟨decision, hdecision⟩ := Option.isSome_iff_exists.mp h.2.2.2
    change replan run = none at hexecute
    rcases replan_cases hdecision h.2.2.1.2 with ⟨-, _, hreplan⟩ | ⟨-, _, _, -, hreplan⟩ <;>
      cases hexecute.symm.trans hreplan
  case calculateCoverageResult =>
    refine .inr ⟨hnode, ?_⟩
    by_contra hsome
    obtain ⟨items, hitems⟩ := Option.ne_none_iff_exists'.mp hsome
    change calculateCoverageResult env run = none at hexecute
    have hinput : ∃ input,
        coverageInput env.lib env.caseId env.request run.state.evidence = some input := by
      unfold coverageInput extractPositions
      rw [hitems]
      exact ⟨_, rfl⟩
    obtain ⟨input, hinput⟩ := hinput
    rcases calculateCoverageResult_cases hinput h.2.2.2 with ⟨-, _, hresult⟩ | ⟨-, _, hresult⟩ <;>
      cases hexecute.symm.trans hresult

/-! ## The nodes keep the invariant -/

section Nodes

variable (env)

theorem invariant_validateRequest (hnode : run.node = .validateRequest)
    (h : Holds .validateRequest run) : Invariant (run.advance (validateRequest env run)) := by
  obtain ⟨hwithin, htools⟩ := h
  have hne : run.node ≠ .executeTool := by rw [hnode]; decide
  have hlimited : run.Limited := by unfold Run.Limited; omega
  by_cases hhuman : (validateRequest env run).state.caseStatus = .humanRequired
  · exact holds_stop hne hwithin (by omega) hlimited (by rw [hnode]; exact if_pos hhuman) (.inl rfl)
  · by_cases hblocked : (validateRequest env run).state.caseStatus = .blocked
    · exact holds_stop hne hwithin (by omega) hlimited
        (by rw [hnode]; exact (if_neg hhuman).trans (if_pos hblocked)) (.inr rfl)
    · have hnext : nextNode run.node (validateRequest env run).state = .checkDataQuality := by
        rw [hnode]
        exact (if_neg hhuman).trans (if_neg hblocked)
      exact holds_goto .checkDataQuality hnext
        ⟨within_advance hwithin le_rfl, (tools_advance_ne hne).trans htools⟩

theorem invariant_checkDataQuality (hnode : run.node = .checkDataQuality)
    (h : Holds .checkDataQuality run) : Invariant (run.advance (checkDataQuality env run)) := by
  obtain ⟨hwithin, htools⟩ := h
  have hne : run.node ≠ .executeTool := by rw [hnode]; decide
  have hlimited : run.Limited := by unfold Run.Limited; omega
  by_cases hhuman : (checkDataQuality env run).state.caseStatus = .humanRequired
  · exact holds_stop hne hwithin (by omega) hlimited (by rw [hnode]; exact if_pos hhuman) (.inl rfl)
  · have hnext : nextNode run.node (checkDataQuality env run).state = .loadCaseContext := by
      rw [hnode]
      exact if_neg hhuman
    exact holds_goto .loadCaseContext hnext
      ⟨within_advance hwithin le_rfl, (tools_advance_ne hne).trans htools⟩

theorem invariant_loadCaseContext (hnode : run.node = .loadCaseContext)
    (h : Holds .loadCaseContext run) : Invariant (run.advance (loadCaseContext run)) := by
  obtain ⟨hwithin, htools⟩ := h
  have hne : run.node ≠ .executeTool := by rw [hnode]; decide
  exact holds_goto .ensurePlan (by rw [hnode]; rfl)
    ⟨within_advance hwithin le_rfl, (tools_advance_ne hne).trans htools, rfl⟩

theorem invariant_ensurePlan (hnode : run.node = .ensurePlan) (h : Holds .ensurePlan run) :
    Invariant (run.advance (ensurePlan env run)) := by
  obtain ⟨hwithin, htools, hstatus⟩ := h
  have hne : run.node ≠ .executeTool := by rw [hnode]; decide
  have hlimited : run.Limited := by unfold Run.Limited; omega
  rcases ensurePlan_cases env run with ⟨error, hplan⟩ | ⟨metadata, plan, hactive, hplan⟩
  · rw [hplan]
    exact holds_stop hne hwithin (by omega) hlimited (by rw [hnode]; rfl) (.inl rfl)
  · rw [hplan]
    have hnext : nextNode run.node { run.state with plan := some plan } = .selectNextAction := by
      rw [hnode]
      exact if_neg (by rw [hstatus]; decide)
    exact holds_goto .selectNextAction hnext ⟨within_advance hwithin le_rfl,
      .inl ((tools_advance_ne hne).trans htools), hstatus, hactive⟩

theorem invariant_selectNextAction (hnode : run.node = .selectNextAction)
    (h : Holds .selectNextAction run) : Invariant (run.advance (selectNextAction env run)) := by
  obtain ⟨hwithin, hcounted, hstatus, hactive⟩ := h
  have hne : run.node ≠ .executeTool := by rw [hnode]; decide
  unfold selectNextAction
  cases hdecide : env.decide run.asked with
  | error error =>
    exact holds_stop hne hwithin (by omega) hcounted.limited (by rw [hnode]; rfl) (.inl rfl)
  | ok decision =>
    simp only [Run.withState]
    have hwithin' : ∀ next : Run, (run.advance next).Within 5 := fun next =>
      within_advance hwithin le_rfl
    have hhuman : run.state.caseStatus ≠ .humanRequired := by rw [hstatus]; decide
    have hnext : nextNode run.node { run.state with nextAction := some decision } =
        actionNode decision.action := by
      rw [hnode]
      exact if_neg hhuman
    cases haction : decision.action with
    | tool =>
      rw [haction] at hnext
      exact holds_goto .policyGate hnext
        ⟨hwithin' _, counted_advance hne rfl hcounted, ⟨hstatus, hactive⟩, rfl⟩
    | replan =>
      rw [haction] at hnext
      exact holds_goto .replan hnext
        ⟨hwithin' _, counted_advance hne rfl hcounted, ⟨hstatus, hactive⟩, rfl⟩
    | complete =>
      rw [haction] at hnext
      exact holds_goto .calculateCoverageResult hnext
        ⟨hwithin' _, limited_advance hne hcounted.limited, hstatus, hactive⟩
    | humanRequired =>
      rw [haction] at hnext
      exact holds_stop hne hwithin (by omega) hcounted.limited hnext (.inl rfl)

theorem invariant_policyGate (hnode : run.node = .policyGate) (h : Holds .policyGate run)
    (hexecute : policyGate env run = some next) : Invariant (run.advance next) := by
  obtain ⟨decision, arguments, hdecision, -, rfl⟩ := policyGate_next h hexecute
  obtain ⟨hwithin, hcounted, ⟨hstatus, hactive⟩, -⟩ := h
  have hne : run.node ≠ .executeTool := by rw [hnode]; decide
  rcases admitCall_cases env run decision arguments with
    ⟨-, reason, hgate⟩ | ⟨-, hgate⟩ | hgate | ⟨metadata, -, -, hmark, hgate⟩
  · rw [hgate]
    exact holds_stop hne hwithin (by omega) hcounted.limited (by rw [hnode]; rfl) (.inr rfl)
  · rw [hgate]
    exact holds_stop hne hwithin (by omega) hcounted.limited (by rw [hnode]; rfl) (.inr rfl)
  · rw [hgate]
    exact holds_stop hne hwithin (by omega) hcounted.limited (by rw [hnode]; rfl) (.inl rfl)
  · rw [hgate]
    have hmarkable := (markStep_isSome_iff run.metadata decision.stepId .running none none).mp
      (by rw [hmark]; rfl)
    have hids := activeSteps_markStep hmark
    have hblocked : run.state.caseStatus ≠ .blocked := by rw [hstatus]; decide
    have hhuman : run.state.caseStatus ≠ .humanRequired := by rw [hstatus]; decide
    have hnext : ∀ state : GraphState, state.caseStatus = run.state.caseStatus →
        nextNode run.node state = .executeTool := by
      intro state hsame
      rw [hnode]
      exact (if_neg (by rw [hsame]; exact hblocked)).trans
        (if_neg (by rw [hsame]; exact hhuman))
    refine holds_goto .executeTool (hnext _ rfl) ⟨within_advance hwithin le_rfl,
      counted_advance hne rfl hcounted, ⟨hstatus, ?_⟩, ⟨decision, hdecision, ?_⟩, rfl⟩
    · change (activeSteps metadata).isSome = true
      rw [hids]
      exact hactive
    · change Markable (activeSteps metadata) _
      rw [hids]
      exact hmarkable

theorem invariant_executeTool (hnode : run.node = .executeTool) (h : Holds .executeTool run)
    (hexecute : executeTool env run = some next) : Invariant (run.advance next) := by
  obtain ⟨hwithin, hcounted, ⟨hstatus, hactive⟩, hdecided, hsome⟩ := h
  obtain ⟨call, hcall⟩ := Option.isSome_iff_exists.mp hsome
  have hhuman : run.state.caseStatus ≠ .humanRequired := by rw [hstatus]; decide
  have hgo : next.state.caseStatus = run.state.caseStatus →
      next.state.iteration = run.state.iteration → next.state.nextAction = run.state.nextAction →
      next.metadata = run.metadata → next.state.currentObservation.isSome = true →
      Invariant (run.advance next) := by
    intro hsame hiteration haction hmetadata hobservation
    have hnext : nextNode run.node next.state = .saveObservation := by
      rw [hnode]
      exact if_neg (by rw [hsame]; exact hhuman)
    refine holds_goto .saveObservation hnext ⟨within_advance_tool hnode hwithin,
      uncounted_advance_tool hnode hiteration hcounted, ⟨hsame.trans hstatus, ?_⟩, ?_, hobservation⟩
    · change (activeSteps next.metadata).isSome = true
      rw [hmetadata]
      exact hactive
    · obtain ⟨decision, hdecision, hmarkable⟩ := hdecided
      refine ⟨decision, haction.trans hdecision, ?_⟩
      change Markable (activeSteps next.metadata) _
      rw [hmetadata]
      exact hmarkable
  rcases executeTool_cases env hcall with
    ⟨cached, -, htool⟩ | ⟨response, item, -, htool⟩ | ⟨error, htool⟩ <;>
    cases htool.symm.trans hexecute
  · exact hgo rfl rfl rfl rfl rfl
  · exact hgo rfl rfl rfl rfl rfl
  · exact holds_goto .requireHuman (by rw [hnode]; rfl)
      ⟨within_weaken (within_advance_tool (n := 2) hnode hwithin) (by omega),
        (uncounted_advance_tool hnode rfl hcounted).limited⟩

theorem invariant_saveObservation (hnode : run.node = .saveObservation)
    (h : Holds .saveObservation run) (hexecute : saveObservation run = some next) :
    Invariant (run.advance next) := by
  obtain ⟨item, metadata, -, hids, hnext⟩ := saveObservation_next h hexecute
  obtain ⟨hwithin, huncounted, ⟨hstatus, hactive⟩, -⟩ := h
  have hne : run.node ≠ .executeTool := by rw [hnode]; decide
  rcases hnext with ⟨-, rfl⟩ | ⟨reason, rfl⟩
  · have hhuman : run.state.caseStatus ≠ .humanRequired := by rw [hstatus]; decide
    refine holds_goto .evaluateGoal ?_ ⟨within_advance hwithin le_rfl,
      uncounted_advance hne rfl huncounted, hstatus, ?_⟩
    · rw [hnode]
      exact if_neg hhuman
    · change (activeSteps metadata).isSome = true
      rw [hids]
      exact hactive
  · exact holds_stop hne hwithin (by omega) huncounted.limited (by rw [hnode]; rfl) (.inl rfl)

theorem invariant_evaluateGoal (hnode : run.node = .evaluateGoal) (h : Holds .evaluateGoal run) :
    Invariant (run.advance (evaluateGoal run)) := by
  obtain ⟨hwithin, huncounted, hstatus, hactive⟩ := h
  have hne : run.node ≠ .executeTool := by rw [hnode]; decide
  unfold evaluateGoal
  by_cases hlimit : maxLoopIterations ≤ run.state.iteration + 1
  · rw [if_pos hlimit]
    exact holds_stop hne hwithin (by omega) huncounted.limited (by rw [hnode]; rfl) (.inr rfl)
  · rw [if_neg hlimit]
    have hblocked : run.state.caseStatus ≠ .blocked := by rw [hstatus]; decide
    refine holds_goto .selectNextAction ?_ ⟨within_advance hwithin le_rfl, .inr ?_, hstatus, hactive⟩
    · rw [hnode]
      exact if_neg hblocked
    · rw [tools_advance_ne hne]
      refine ⟨?_, by exact not_le.mp hlimit⟩
      change run.tools ≤ run.state.iteration + 1
      rcases huncounted with h | ⟨h, -⟩ <;> omega

theorem invariant_replan (hnode : run.node = .replan) (h : Holds .replan run)
    (hexecute : replan run = some next) : Invariant (run.advance next) := by
  have hnext := replan_next h hexecute
  obtain ⟨hwithin, hcounted, ⟨hstatus, -⟩, -⟩ := h
  have hne : run.node ≠ .executeTool := by rw [hnode]; decide
  rcases hnext with ⟨reason, rfl⟩ | ⟨metadata, plan, hactive, rfl⟩
  · exact holds_stop hne hwithin (by omega) hcounted.limited (by rw [hnode]; rfl) (.inl rfl)
  · have hhuman : run.state.caseStatus ≠ .humanRequired := by rw [hstatus]; decide
    refine holds_goto .selectNextAction ?_ ⟨within_advance_replan hnode hwithin,
      counted_advance hne rfl hcounted, hstatus, hactive⟩
    rw [hnode]
    exact if_neg hhuman

theorem invariant_calculateCoverageResult (hnode : run.node = .calculateCoverageResult)
    (h : Holds .calculateCoverageResult run)
    (hexecute : calculateCoverageResult env run = some next) : Invariant (run.advance next) := by
  have hne : run.node ≠ .executeTool := by rw [hnode]; decide
  obtain ⟨input, -, ⟨reason, rfl⟩ | ⟨-, metadata, rfl⟩⟩ := calculateCoverageResult_next h hexecute
  · exact holds_stop hne h.1 (by omega) h.2.1 (by rw [hnode]; rfl) (.inl rfl)
  · exact holds_goto .finalizeResult (by rw [hnode]; rfl)
      ⟨within_advance h.1 (by omega), limited_advance hne h.2.1⟩

theorem invariant_execute (h : Invariant run) (hended : ¬ run.Ended)
    (hexecute : execute env run = some next) : Invariant (run.advance next) := by
  have hgo : ∀ next n m node, run.node ≠ .executeTool → run.Within n → n + 1 ≤ m →
      run.Limited → nextNode run.node next.state = node →
      ((run.advance next).Within m ∧ (run.advance next).Limited → Holds node (run.advance next)) →
      Invariant (run.advance next) := by
    intro next n m node hne hwithin hm hlimited hnext hholds
    exact holds_goto node hnext (hholds ⟨within_advance hwithin hm, limited_advance hne hlimited⟩)
  unfold Invariant at h
  unfold execute at hexecute
  cases hnode : run.node <;> rw [hnode] at h hexecute
  case validateRequest => exact Option.some.inj hexecute ▸ invariant_validateRequest env hnode h
  case checkDataQuality => exact Option.some.inj hexecute ▸ invariant_checkDataQuality env hnode h
  case loadCaseContext => exact Option.some.inj hexecute ▸ invariant_loadCaseContext hnode h
  case ensurePlan => exact Option.some.inj hexecute ▸ invariant_ensurePlan env hnode h
  case selectNextAction => exact Option.some.inj hexecute ▸ invariant_selectNextAction env hnode h
  case policyGate => exact invariant_policyGate env hnode h hexecute
  case executeTool => exact invariant_executeTool env hnode h hexecute
  case saveObservation => exact invariant_saveObservation hnode h hexecute
  case evaluateGoal => exact Option.some.inj hexecute ▸ invariant_evaluateGoal hnode h
  case replan => exact invariant_replan hnode h hexecute
  case calculateCoverageResult => exact invariant_calculateCoverageResult env hnode h hexecute
  case requireHuman =>
    cases hexecute
    exact hgo _ 6 7 .finalizeResult (by rw [hnode]; decide) h.1 (by omega) h.2 (by rw [hnode]; rfl) id
  case blockCase =>
    cases hexecute
    exact hgo _ 6 7 .finalizeResult (by rw [hnode]; decide) h.1 (by omega) h.2 (by rw [hnode]; rfl) id
  case finalizeResult =>
    cases hexecute
    exact hgo _ 7 8 .finished (by rw [hnode]; decide) h.1 (by omega) h.2 (by rw [hnode]; rfl) id
  case finished => exact absurd (.inl hnode) hended
  case raised => exact absurd (.inr hnode) hended

theorem invariant_step (h : Invariant run) : Invariant (step env run) := by
  by_cases hended : run.Ended
  · rw [step_of_ended hended]
    exact h
  · obtain ⟨hfinished, hraised⟩ := not_or.mp hended
    cases hexecute : execute env run with
    | some next =>
      rw [step_of_execute hfinished hraised hexecute]
      exact invariant_execute env h hended hexecute
    | none =>
      rw [step_of_raise hfinished hraised hexecute]
      rcases raises_of_execute h hexecute with ⟨hnode, -⟩ | ⟨hnode, -⟩
      · obtain ⟨hwithin, hcounted, -⟩ := h.holds hnode
        exact holds_raise (by rw [hnode]; decide) hwithin (by omega) hcounted.limited
      · obtain ⟨hwithin, hlimited, -⟩ := h.holds hnode
        exact holds_raise (by rw [hnode]; decide) hwithin (by omega) hlimited

theorem invariant_runFor (metadata : CaseMetadata) (n : Nat) :
    Invariant (runFor env metadata n) := by
  induction n with
  | zero => exact ⟨by unfold Run.Within; exact Nat.zero_le _, rfl⟩
  | succ n ih => exact invariant_step env ih

end Nodes

end AgentBack.KT1
