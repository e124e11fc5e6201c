import AgentBack.Laws.KT1.Coverage
import AgentBack.Laws.KT1.Stops

/-!
# What a closed case rests on

The gate binds the arguments of every tool but the one that reads the need lines to the positions,
the warehouses and the organization of the request. Evidence that a run gets is evidence of such a
call, and a case is closed only when each mandatory tool has answered and no answer is out of date.
The positions that are bound are those of the request alone, so a case whose positions come from the
need lines is closed on evidence that nothing ties to them.
-/

namespace AgentBack.KT1

open Orchestrator (CaseStatus)
open Py (Value strOf)

/-! ## The arguments of a call -/

def namedIds (arguments : Arguments) : List String :=
  match arguments.get? "nomenclature_ids" with
  | some (.list ids) => ids.filterMap fun id =>
    match id with
    | .str text => some text
    | _ => none
  | _ => []

/-- A call is one of the case: it has its correlation id, its warehouses and its organization. -/
structure OfCase (lib : Library) (request : KT1Request) (arguments : Arguments) : Prop where
  correlation : arguments.get? "correlation_id" = some (.str request.correlationId)
  warehouses : ∀ ids, request.sourceData.get "warehouse_ids" = .list ids →
    arguments.get? "warehouse_ids" = some (.list (ids.map fun id => .str (strOf lib.py id)))
  organization : (request.sourceData.get "organization_id").truthy = true →
    arguments.get? "organization_id" =
      some (.str (strOf lib.py (request.sourceData.get "organization_id")))

/-- A call is one of the case, and it names the nomenclature of the positions of the request. -/
structure Bound (lib : Library) (request : KT1Request) (arguments : Arguments) : Prop extends
    OfCase lib request arguments where
  ids : ∀ id ∈ nomenclatureIds lib (request.sourceData.get "positions").listItems,
    id ∈ namedIds arguments

theorem namedIds_set_self (arguments : Arguments) (ids : List String) :
    namedIds (arguments.set "nomenclature_ids" (.list (ids.map .str))) = ids := by
  unfold namedIds
  rw [Dict.get?_set_self]
  simp [List.filterMap_map]

section Binding

variable (lib : Library) (sourceData : Value) (arguments : Arguments)

theorem get?_bindPositions (positions : List Value) {key : String} (h : key ≠ "nomenclature_ids") :
    (bindPositions lib positions arguments).get? key = arguments.get? key := by
  unfold bindPositions
  simp only
  split
  · rfl
  · exact Dict.get?_set_ne _ (Ne.symm h) _

theorem get?_bindWarehouses {key : String} (h : key ≠ "warehouse_ids") :
    (bindWarehouses lib sourceData arguments).get? key = arguments.get? key := by
  unfold bindWarehouses
  split
  · exact Dict.get?_set_ne _ (Ne.symm h) _
  · rfl

theorem get?_bindOrganization {key : String} (h : key ≠ "organization_id") :
    (bindOrganization lib sourceData arguments).get? key = arguments.get? key := by
  unfold bindOrganization
  simp only
  split
  · exact Dict.get?_set_ne _ (Ne.symm h) _
  · rfl

theorem mem_namedIds_bindPositions (positions : List Value) {id : String}
    (h : id ∈ nomenclatureIds lib positions) :
    id ∈ namedIds (bindPositions lib positions arguments) := by
  unfold bindPositions
  simp only
  rw [if_neg (by rw [List.isEmpty_iff]; exact List.ne_nil_of_mem h), namedIds_set_self]
  exact List.mem_eraseDups.mpr h

theorem namedIds_congr {a b : Arguments}
    (h : a.get? "nomenclature_ids" = b.get? "nomenclature_ids") : namedIds a = namedIds b := by
  unfold namedIds
  rw [h]

end Binding

theorem iterItems_eq_listItems {value : Value} {items : List Value}
    (h : iterItems value = some items) (hlist : value.listItems ≠ []) :
    items = value.listItems := by
  cases value <;> try exact absurd rfl hlist
  exact (Option.some.inj h).symm

/-- The arguments that the gate binds for a tool other than the one that reads the need lines. -/
theorem bound_of_bind {lib : Library} {request : KT1Request} {toolName : String}
    {proposed arguments : Arguments} (hreadOnly : toolName ∈ readOnlyToolNames)
    (hne : toolName ≠ needLinesTool)
    (h : bindTrustedToolArguments lib request toolName proposed = some arguments) :
    Bound lib request arguments := by
  unfold bindTrustedToolArguments at h
  simp only at h
  rw [if_neg hne, if_pos hreadOnly] at h
  obtain ⟨positions, hpositions, rfl⟩ := Option.map_eq_some_iff.mp h
  refine ⟨⟨?_, fun ids hids => ?_, fun htruthy => ?_⟩, fun id hid => ?_⟩
  · rw [get?_bindOrganization _ _ _ (by decide), get?_bindWarehouses _ _ _ (by decide),
      get?_bindPositions _ _ _ (by decide), Dict.get?_set_self]
  · rw [get?_bindOrganization _ _ _ (by decide)]
    unfold bindWarehouses
    rw [hids]
    exact Dict.get?_set_self _ _ _
  · unfold bindOrganization
    simp only
    rw [if_pos htruthy]
    exact Dict.get?_set_self _ _ _
  · have hitems := iterItems_eq_listItems hpositions (fun hnil => by
      rw [hnil] at hid
      cases hid)
    rw [namedIds_congr ((get?_bindOrganization lib _ _ (by decide)).trans
      (get?_bindWarehouses lib _ _ (by decide))), hitems]
    exact mem_namedIds_bindPositions lib _ _ hid

/-! ## What a run keeps -/

/-- A call that the gate lets through. -/
def Admitted (env : Env) (call : ToolCall) : Prop :=
  call.toolName ∈ readOnlyToolNames ∧
    (call.toolName ≠ needLinesTool → Bound env.lib env.request call.arguments)

/-- The nodes that run before the checkpoint is read. -/
def Before (node : Node) : Prop :=
  node = .validateRequest ∨ node = .checkDataQuality ∨ node = .loadCaseContext

/-- A closed case holds the result of the calculation on its evidence, and the data sufficed. -/
def Settled (env : Env) (state : GraphState) : Prop :=
  ∃ input, coverageInput env.lib env.caseId env.request state.evidence = some input ∧
    state.coverageResult = some (calculateCoverage input env.now) ∧
    (calculateCoverage input env.now).status ≠ .dataInsufficient

/-- What a run keeps, for a property of evidence. -/
structure Kept (env : Env) (metadata : CaseMetadata) (P : Evidence → Prop) (run : Run) : Prop where
  calls : ∀ call ∈ run.invocations, call.1 ∈ readOnlyToolNames
  call : ∀ call, run.state.currentToolCall = some call → Admitted env call
  observation : ∀ item, run.state.currentObservation = some item → P item
  evidence : ∀ item ∈ run.state.evidence, P item
  before : Before run.node → run.metadata = metadata
  closed : run.state.caseStatus = .closed → Settled env run.state

variable {env : Env} {metadata : CaseMetadata} {P : Evidence → Prop} {run : Run}

theorem before_of_nextNode {node : Node} {state : GraphState} (h : Before (nextNode node state)) :
    node = .validateRequest ∨ node = .checkDataQuality := by
  have hall : ∀ blocked, ∀ next ∈ successors blocked node, Before next →
      node = .validateRequest ∨ node = .checkDataQuality := by
    unfold Before
    cases node <;> decide
  exact hall _ _ (nextNode_mem_successors node state) h

/-- A node that changes neither the calls nor the evidence, and that closes no case. -/
theorem Kept.of_same (h : Kept env metadata P run) {next : Run}
    (hinvocations : next.invocations = run.invocations)
    (hcall : next.state.currentToolCall = run.state.currentToolCall)
    (hobservation : next.state.currentObservation = run.state.currentObservation)
    (hevidence : next.state.evidence = run.state.evidence)
    (hmetadata : run.node = .validateRequest ∨ run.node = .checkDataQuality →
      next.metadata = run.metadata)
    (hclosed : next.state.caseStatus = .closed → run.state.caseStatus = .closed ∧
      next.state.coverageResult = run.state.coverageResult) :
    Kept env metadata P (run.advance next) where
  calls := by
    change ∀ call ∈ next.invocations, _
    rw [hinvocations]
    exact h.calls
  call := by
    change ∀ call, next.state.currentToolCall = some call → _
    rw [hcall]
    exact h.call
  observation := by
    change ∀ item, next.state.currentObservation = some item → _
    rw [hobservation]
    exact h.observation
  evidence := by
    change ∀ item ∈ next.state.evidence, _
    rw [hevidence]
    exact h.evidence
  before := by
    intro hbefore
    have hnode := before_of_nextNode hbefore
    exact (hmetadata hnode).trans (h.before (hnode.imp_right .inl))
  closed := by
    intro hstatus
    obtain ⟨hrun, hresult⟩ := hclosed hstatus
    obtain ⟨input, hinput, hcoverage, hsufficient⟩ := h.closed hrun
    refine ⟨input, ?_, ?_, hsufficient⟩
    · change coverageInput env.lib env.caseId env.request next.state.evidence = _
      rw [hevidence]
      exact hinput
    · change next.state.coverageResult = _
      rw [hresult]
      exact hcoverage

/-- A node that only stops the case, or does not. -/
theorem Kept.of_stop (h : Kept env metadata P run) {state : GraphState} {status : CaseStatus}
    {reason : String} (hstatus : status = .humanRequired ∨ status = .blocked)
    (hcall : state.currentToolCall = run.state.currentToolCall)
    (hobservation : state.currentObservation = run.state.currentObservation)
    (hevidence : state.evidence = run.state.evidence) :
    Kept env metadata P (run.advance (run.withState (state.stop status reason))) := by
  refine h.of_same rfl hcall hobservation hevidence (fun _ => rfl) fun hclosed => ?_
  change status = .closed at hclosed
  rcases hstatus with rfl | rfl <;> cases hclosed

section Nodes

section

variable (h : Kept env metadata P run)
include h

theorem kept_validateRequest :
    Kept env metadata P (run.advance (validateRequest env run)) := by
  rcases validateRequest_cases env run with hvalidate | ⟨status, reason, hstatus, hvalidate⟩
  · rw [hvalidate]
    exact h.of_same rfl rfl rfl rfl (fun _ => rfl) fun hclosed => by cases hclosed
  · rw [hvalidate]
    exact h.of_stop hstatus rfl rfl rfl

theorem kept_checkDataQuality :
    Kept env metadata P (run.advance (checkDataQuality env run)) := by
  obtain ⟨missing, hcheck | ⟨reason, hcheck⟩⟩ := checkDataQuality_cases env run
  · rw [hcheck]
    exact h.of_same rfl rfl rfl rfl (fun _ => rfl) fun hclosed => ⟨hclosed, rfl⟩
  · rw [hcheck]
    exact h.of_stop (.inl rfl) rfl rfl rfl

theorem kept_loadCaseContext (hnode : run.node = .loadCaseContext)
    (hrestored : ∀ item ∈ metadata.restoredEvidence, P item) :
    Kept env metadata P (run.advance (loadCaseContext run)) where
  calls := h.calls
  call := h.call
  observation := h.observation
  evidence := by
    rw [← h.before (.inr (.inr hnode))] at hrestored
    exact hrestored
  before := by
    intro hbefore
    rcases before_of_nextNode hbefore with hother | hother <;> cases hnode.symm.trans hother
  closed := fun hclosed => by cases hclosed

theorem kept_ensurePlan (hnode : run.node = .ensurePlan) :
    Kept env metadata P (run.advance (ensurePlan env run)) := by
  rcases ensurePlan_cases env run with ⟨error, hplan⟩ | ⟨metadata', plan, -, hplan⟩
  · rw [hplan]
    exact h.of_stop (.inl rfl) rfl rfl rfl
  · rw [hplan]
    refine h.of_same rfl rfl rfl rfl (fun hother => ?_) fun hclosed => ⟨hclosed, rfl⟩
    rcases hother with hother | hother <;> cases hnode.symm.trans hother

theorem kept_selectNextAction (hnode : run.node = .selectNextAction) :
    Kept env metadata P (run.advance (selectNextAction env run)) := by
  have hlate : run.node = .validateRequest ∨ run.node = .checkDataQuality → False := by
    rw [hnode]
    decide
  unfold selectNextAction
  cases env.decide run.asked with
  | error error =>
    exact h.of_same rfl rfl rfl rfl (fun hother => (hlate hother).elim) fun hclosed =>
      by cases hclosed
  | ok decision =>
    exact h.of_same rfl rfl rfl rfl (fun hother => (hlate hother).elim) fun hclosed =>
      ⟨hclosed, rfl⟩

end

/-- A node of the loop runs after the checkpoint is read. -/
theorem Kept.before_of_loop {next : Run}
    (hloop : run.node ≠ .validateRequest ∧ run.node ≠ .checkDataQuality)
    (hbefore : Before (run.advance next).node) : (run.advance next).metadata = metadata := by
  rcases before_of_nextNode hbefore with hother | hother
  · exact absurd hother hloop.1
  · exact absurd hother hloop.2

variable (h : Kept env metadata P run)
include h

theorem kept_policyGate (hnode : run.node = .policyGate) {next : Run}
    (hexecute : policyGate env run = some next) : Kept env metadata P (run.advance next) := by
  unfold policyGate at hexecute
  obtain ⟨decision, -, hexecute⟩ := Option.bind_eq_some_iff.mp hexecute
  obtain ⟨arguments, hbind, rfl⟩ := Option.map_eq_some_iff.mp hexecute
  rcases admitCall_cases env run decision arguments with
    ⟨-, reason, hgate⟩ | ⟨-, hgate⟩ | hgate | ⟨metadata', hreadOnly, -, -, hgate⟩
  · rw [hgate]
    exact
      { h with
        call := fun call hcall => by cases hcall
        before := Kept.before_of_loop (by rw [hnode]; decide)
        closed := fun hclosed => by cases hclosed }
  · rw [hgate]
    exact h.of_stop (.inr rfl) rfl rfl rfl
  · rw [hgate]
    exact h.of_stop (.inl rfl) rfl rfl rfl
  · rw [hgate]
    exact
      { h with
        call := by
          intro call hcall
          cases hcall
          exact ⟨hreadOnly, fun hne => bound_of_bind hreadOnly hne hbind⟩
        before := Kept.before_of_loop (by rw [hnode]; decide) }

theorem kept_executeTool (hnode : run.node = .executeTool)
    (hP : ∀ response id call, Admitted env call → P (evidenceFromResponse response id call))
    {next : Run} (hexecute : executeTool env run = some next) :
    Kept env metadata P (run.advance next) := by
  obtain ⟨call, hcall⟩ : ∃ call, run.state.currentToolCall = some call := by
    unfold executeTool at hexecute
    obtain ⟨call, hcall, -⟩ := Option.map_eq_some_iff.mp hexecute
    exact ⟨call, hcall⟩
  have hadmissible := h.call call hcall
  have hcalls : ∀ other ∈ run.invocations ++ [(call.toolName, call.arguments)],
      other.1 ∈ readOnlyToolNames := by
    intro other hother
    rcases List.mem_append.mp hother with hother | hother
    · exact h.calls other hother
    · rw [List.mem_singleton.mp hother]
      exact hadmissible.1
  rcases executeTool_cases env hcall with
    ⟨cached, hcached, htool⟩ | ⟨response, item, hitem, htool⟩ | ⟨error, htool⟩
  · cases htool.symm.trans hexecute
    exact
      { h with
        observation := by
          intro item hitem
          cases hitem
          exact h.evidence cached (List.mem_of_find?_eq_some hcached)
        before := Kept.before_of_loop (by rw [hnode]; decide) }
  · cases htool.symm.trans hexecute
    exact
      { h with
        calls := hcalls
        observation := by
          intro other hother
          cases hother
          rw [hitem]
          exact hP response _ call hadmissible
        before := Kept.before_of_loop (by rw [hnode]; decide) }
  · cases htool.symm.trans hexecute
    exact
      { h with
        calls := hcalls
        observation := fun item hitem => by cases hitem
        before := Kept.before_of_loop (by rw [hnode]; decide)
        closed := fun hclosed => by cases hclosed }

theorem kept_saveObservation (hinvariant : Invariant run) (hnode : run.node = .saveObservation)
    {next : Run} (hexecute : saveObservation run = some next) :
    Kept env metadata P (run.advance next) := by
  have hstatus := (hinvariant.holds hnode).2.2.1.1
  obtain ⟨item, metadata', hitem, -, hnext⟩ :=
    saveObservation_next (hinvariant.holds hnode) hexecute
  have hevidence : ∀ other ∈ observed run.state.evidence item, P other := by
    intro other hother
    unfold observed at hother
    split at hother
    · exact h.evidence other hother
    · rcases List.mem_append.mp hother with hother | hother
      · exact h.evidence other hother
      · rw [List.mem_singleton.mp hother]
        exact h.observation item hitem
  have hobservation : ∀ other, some item = some other → P other := by
    intro other hother
    cases hother
    exact h.observation item hitem
  rcases hnext with ⟨-, rfl⟩ | ⟨reason, rfl⟩
  · exact
      { h with
        observation := hobservation
        evidence := hevidence
        before := Kept.before_of_loop (by rw [hnode]; decide)
        closed := fun hclosed => by cases hstatus.symm.trans hclosed }
  · exact
      { h with
        observation := hobservation
        evidence := hevidence
        before := Kept.before_of_loop (by rw [hnode]; decide)
        closed := fun hclosed => by cases hclosed }

theorem kept_evaluateGoal (hnode : run.node = .evaluateGoal) :
    Kept env metadata P (run.advance (evaluateGoal run)) := by
  have hlate : run.node = .validateRequest ∨ run.node = .checkDataQuality → False := by
    rw [hnode]
    decide
  unfold evaluateGoal
  simp only
  split
  · exact h.of_stop (.inr rfl) rfl rfl rfl
  · exact h.of_same rfl rfl rfl rfl (fun hother => (hlate hother).elim) fun hclosed =>
      ⟨hclosed, rfl⟩

theorem kept_replan (hinvariant : Invariant run) (hnode : run.node = .replan) {next : Run}
    (hexecute : replan run = some next) :
    Kept env metadata P (run.advance next) := by
  have hlate : run.node = .validateRequest ∨ run.node = .checkDataQuality → False := by
    rw [hnode]
    decide
  rcases replan_next (hinvariant.holds hnode) hexecute with ⟨reason, rfl⟩ | ⟨_, _, -, rfl⟩
  · exact h.of_stop (.inl rfl) rfl rfl rfl
  · exact h.of_same rfl rfl rfl rfl (fun hother => (hlate hother).elim) fun hclosed =>
      ⟨hclosed, rfl⟩

theorem kept_calculateCoverageResult (hinvariant : Invariant run)
    (hnode : run.node = .calculateCoverageResult) {next : Run}
    (hexecute : calculateCoverageResult env run = some next) :
    Kept env metadata P (run.advance next) := by
  obtain ⟨input, hinput, ⟨reason, rfl⟩ | ⟨hsufficient, metadata', rfl⟩⟩ :=
    calculateCoverageResult_next (hinvariant.holds hnode) hexecute
  · exact
      { h with
        before := Kept.before_of_loop (by rw [hnode]; decide)
        closed := fun hclosed => by cases hclosed }
  · exact
      { h with
        before := Kept.before_of_loop (by rw [hnode]; decide)
        closed := fun _ => ⟨input, hinput, rfl, hsufficient⟩ }

theorem kept_end
    (hend : run.node = .requireHuman ∨ run.node = .blockCase ∨ run.node = .finalizeResult)
    {next : Run} (hexecute : execute env run = some next) :
    Kept env metadata P (run.advance next) := by
  have hlate : run.node = .validateRequest ∨ run.node = .checkDataQuality → False := by
    rcases hend with hnode | hnode | hnode <;> rw [hnode] <;> decide
  unfold execute at hexecute
  rcases hend with hnode | hnode | hnode <;> rw [hnode] at hexecute <;>
    cases hexecute
  · exact h.of_same rfl rfl rfl rfl (fun hother => (hlate hother).elim) fun hclosed =>
      by cases hclosed
  · exact h.of_same rfl rfl rfl rfl (fun hother => (hlate hother).elim) fun hclosed =>
      by cases hclosed
  · exact h.of_same rfl rfl rfl rfl (fun hother => (hlate hother).elim) fun hclosed =>
      ⟨hclosed, rfl⟩

theorem kept_execute (hinvariant : Invariant run)
    (hrestored : ∀ item ∈ metadata.restoredEvidence, P item)
    (hP : ∀ response id call, Admitted env call → P (evidenceFromResponse response id call))
    {next : Run} (hended : ¬ run.Ended) (hexecute : execute env run = some next) :
    Kept env metadata P (run.advance next) := by
  have hmain := hexecute
  unfold execute at hmain
  cases hnode : run.node <;> rw [hnode] at hmain
  case validateRequest => exact Option.some.inj hmain ▸ kept_validateRequest h
  case checkDataQuality => exact Option.some.inj hmain ▸ kept_checkDataQuality h
  case loadCaseContext => exact Option.some.inj hmain ▸ kept_loadCaseContext h hnode hrestored
  case ensurePlan => exact Option.some.inj hmain ▸ kept_ensurePlan h hnode
  case selectNextAction => exact Option.some.inj hmain ▸ kept_selectNextAction h hnode
  case policyGate => exact kept_policyGate h hnode hmain
  case executeTool => exact kept_executeTool h hnode hP hmain
  case saveObservation => exact kept_saveObservation h hinvariant hnode hmain
  case evaluateGoal => exact Option.some.inj hmain ▸ kept_evaluateGoal h hnode
  case replan => exact kept_replan h hinvariant hnode hmain
  case calculateCoverageResult => exact kept_calculateCoverageResult h hinvariant hnode hmain
  case requireHuman => exact kept_end h (.inl hnode) hexecute
  case blockCase => exact kept_end h (.inr (.inl hnode)) hexecute
  case finalizeResult => exact kept_end h (.inr (.inr hnode)) hexecute
  case finished => exact absurd (.inl hnode) hended
  case raised => exact absurd (.inr hnode) hended

end Nodes

theorem kept_step (h : Kept env metadata P run) (hinvariant : Invariant run)
    (hrestored : ∀ item ∈ metadata.restoredEvidence, P item)
    (hP : ∀ response id call, Admitted env call → P (evidenceFromResponse response id call)) :
    Kept env metadata P (step env run) := by
  by_cases hended : run.Ended
  · rw [step_of_ended hended]
    exact h
  · obtain ⟨hfinished, hraised⟩ := not_or.mp hended
    cases hexecute : execute env run with
    | some next =>
      rw [step_of_execute hfinished hraised hexecute]
      exact kept_execute h hinvariant hrestored hP hended hexecute
    | none =>
      rw [step_of_raise hfinished hraised hexecute]
      exact
        { h with
          before := by
            intro hbefore
            rcases hbefore with hnode | hnode | hnode <;> cases hnode }

/-- It holds all along a run, of the evidence that was restored and of the evidence of the calls. -/
theorem kept_runFor (hrestored : ∀ item ∈ metadata.restoredEvidence, P item)
    (hP : ∀ response id call, Admitted env call → P (evidenceFromResponse response id call)) (n : Nat) :
    Kept env metadata P (runFor env metadata n) := by
  induction n with
  | zero =>
    exact
      { calls := fun call hcall => by cases hcall
        call := fun call hcall => by cases hcall
        observation := fun item hitem => by cases hitem
        evidence := fun item hitem => by cases hitem
        before := fun _ => rfl
        closed := fun hclosed => by cases hclosed }
  | succ n ih => exact kept_step ih (invariant_runFor env metadata n) hrestored hP

theorem eq_nil_of_eraseDups {items : List String} (h : items.eraseDups = []) : items = [] := by
  refine List.eq_nil_iff_forall_not_mem.mpr fun item hitem => ?_
  have hmem := List.mem_eraseDups.mpr hitem
  rw [h] at hmem
  cases hmem

theorem overallStatus_sufficient_iff (issues : List String) (statuses : List CoverageStatus) :
    overallStatus issues statuses ≠ .dataInsufficient ↔
      issues = [] ∧ .dataInsufficient ∉ statuses ∧ statuses ≠ [] := by
  unfold overallStatus
  split
  · next h =>
    simp only [Bool.or_eq_true, Bool.not_eq_true', decide_eq_true_eq, List.isEmpty_iff,
      List.isEmpty_eq_false_iff] at h
    refine ⟨fun hne => absurd rfl hne, fun ⟨hissues, hstatuses, hsome⟩ => ?_⟩
    rcases h with (hissue | hstatus) | hnone
    · exact absurd hissues hissue
    · exact absurd hstatus hstatuses
    · exact absurd hnone hsome
  · next h =>
    simp only [Bool.or_eq_true, Bool.not_eq_true', decide_eq_true_eq, List.isEmpty_iff,
      List.isEmpty_eq_false_iff, not_or, ne_eq, not_not] at h
    refine ⟨fun _ => ⟨h.1.1, h.1.2, h.2⟩, fun _ => ?_⟩
    split
    · decide
    · split <;> decide

/-- The data suffice when there is no issue, and there are positions, none of which lacks data. -/
theorem sufficient_iff (input : CoverageInput) (completedAt : Int) :
    (calculateCoverage input completedAt).status ≠ .dataInsufficient ↔
      input.dataIssues = [] ∧ input.positions ≠ [] ∧
        ∀ position ∈ input.positions, (coverPosition input.supplies position).1.status ≠
          .dataInsufficient := by
  change overallStatus input.dataIssues (((input.positions.map (coverPosition input.supplies)).map
    Prod.fst).map PositionCoverage.status) ≠ _ ↔ _
  rw [overallStatus_sufficient_iff]
  refine and_congr_right fun _ => ?_
  simp only [ne_eq, List.map_eq_nil_iff, List.mem_map, not_exists, not_and,
    exists_exists_and_eq_and]
  exact and_comm

/-- A position that does not lack data is matched with a nomenclature. -/
theorem matched_of_sufficient {supplies : List SupplyItem} {position : NeedPosition}
    (h : (coverPosition supplies position).1.status ≠ .dataInsufficient) :
    ∃ id, position.nomenclatureId = some id ∧ id ≠ "" := by
  have hunmatched : position.unmatched = false := by
    by_contra hunmatched
    rw [Bool.not_eq_false] at hunmatched
    apply h
    change positionStatus _ _ _ = _
    unfold positionStatus
    rw [hunmatched, Bool.or_true, Bool.true_or, Bool.true_or, Bool.true_or, if_pos rfl]
  unfold NeedPosition.unmatched at hunmatched
  rw [Bool.or_eq_false_iff] at hunmatched
  have hid := of_decide_eq_false hunmatched.2
  cases hnomenclature : position.nomenclatureId with
  | none =>
    rw [hnomenclature] at hid
    exact absurd rfl hid
  | some id =>
    rw [hnomenclature] at hid
    exact ⟨id, rfl, hid⟩

/-- Without an issue, each mandatory tool has answered, and what it answered is up to date. -/
theorem answered_of_no_issue {lib : Library} {caseId : String} {request : KT1Request}
    {evidence : List Evidence} {input : CoverageInput}
    (hinput : coverageInput lib caseId request evidence = some input)
    (hissues : input.dataIssues = []) {toolName : String}
    (htool : toolName ∈ mandatoryTools request.sourceData) :
    ∃ item ∈ evidence, item.toolName = toolName ∧ item.freshSuccess = true := by
  unfold coverageInput at hinput
  obtain ⟨positions, -, rfl⟩ := Option.map_eq_some_iff.mp hinput
  have hall := eq_nil_of_eraseDups hissues
  rw [List.append_eq_nil_iff, List.append_eq_nil_iff, List.append_eq_nil_iff] at hall
  obtain ⟨⟨⟨-, hmandatory⟩, hfresh⟩, -⟩ := hall
  unfold mandatoryCapabilityIssues at hmandatory
  rw [List.map_eq_nil_iff, sortBy_eq_nil, List.filter_eq_nil_iff] at hmandatory
  have hany := hmandatory toolName htool
  rw [Bool.not_eq_true', Bool.not_eq_false, List.any_eq_true] at hany
  obtain ⟨item, hitem, hsuccess⟩ := hany
  obtain ⟨hstatus, hname⟩ := of_decide_eq_true hsuccess
  refine ⟨item, hitem, hname, ?_⟩
  unfold freshnessIssues at hfresh
  rw [List.map_eq_nil_iff, List.filter_eq_nil_iff] at hfresh
  have hnot := hfresh item hitem
  rw [decide_eq_true_eq, not_and, not_not] at hnot
  unfold Evidence.freshSuccess
  rw [hstatus, hnot hstatus]
  rfl

/-- The nomenclature id of a position is the text that its row says. -/
def ReadsIds (lib : Library) : Prop :=
  ∀ raw position id, lib.readPosition raw = some position → position.nomenclatureId = some id →
    raw.get "nomenclature_id" = .str id

/-- An evidence item of a closed case that is good for a tool: an up-to-date answer to a call of the
case that names the nomenclature of every position of the result. -/
structure Supports (env : Env) (state : GraphState) (toolName : String) (item : Evidence) : Prop where
  mem : item ∈ state.evidence
  tool : item.toolName = toolName
  fresh : item.freshSuccess = true
  ofCase : OfCase env.lib env.request item.arguments
  names : ∃ result, state.coverageResult = some result ∧ ∀ position ∈ result.positions,
    ∃ id, position.nomenclatureId = some id ∧ id ∈ namedIds item.arguments

/-- A run that is closed has such an item for each mandatory tool. -/
def ClosesTrusted (env : Env) (run : Run) : Prop :=
  run.state.caseStatus = .closed → ∀ toolName ∈ mandatoryTools env.request.sourceData,
    ∃ item, Supports env run.state toolName item

/-- The good evidence that a run starts with was got with bound arguments. -/
def RestoredBound (env : Env) (metadata : CaseMetadata) : Prop :=
  ∀ item ∈ metadata.restoredEvidence, item.toolName ≠ needLinesTool → item.freshSuccess = true →
    Bound env.lib env.request item.arguments

/-- The positions of the calculation are rows of the request, when these were given. -/
theorem names_of_given (hlaw : ReadsIds env.lib) {evidence : List Evidence} {input : CoverageInput}
    (hgiven : isList (env.request.sourceData.get "positions") = true)
    (hinput : coverageInput env.lib env.caseId env.request evidence = some input)
    {position : NeedPosition} (hposition : position ∈ input.positions) {id : String}
    (hid : position.nomenclatureId = some id) (hne : id ≠ "") :
    id ∈ nomenclatureIds env.lib (env.request.sourceData.get "positions").listItems := by
  have hraw : rawPositions env.lib env.request.sourceData evidence =
      env.request.sourceData.get "positions" := by
    unfold rawPositions
    simp only [hgiven, if_true, Bool.not_true, Bool.false_and, Bool.false_eq_true, if_false]
  unfold coverageInput at hinput
  obtain ⟨positions, hpositions, rfl⟩ := Option.map_eq_some_iff.mp hinput
  unfold extractPositions at hpositions
  rw [hraw] at hpositions
  obtain ⟨rows, hrows, rfl⟩ := Option.map_eq_some_iff.mp hpositions
  obtain ⟨row, hrow, hread⟩ := List.mem_filterMap.mp hposition
  have htext := hlaw row position id hread hid
  have hitems : rows = (env.request.sourceData.get "positions").listItems :=
    iterItems_eq_listItems hrows fun hnil => by
      cases hgot : env.request.sourceData.get "positions" <;> rw [hgot] at hgiven hrows hnil <;>
        try cases hgiven
      cases hrows
      cases (show _ = [] from hnil)
      cases hrow
  unfold nomenclatureIds
  refine List.mem_map.mpr ⟨row, List.mem_filter.mpr ⟨hitems ▸ hrow, ?_⟩, ?_⟩
  · rw [htext]
    exact decide_eq_true hne
  · rw [htext]
    rfl

theorem needLines_not_mandatory {sourceData : Value}
    (hgiven : isList (sourceData.get "positions") = true) :
    needLinesTool ∉ mandatoryTools sourceData := by
  have htools : mandatoryTools sourceData = alwaysRequired := by
    unfold mandatoryTools
    rw [hgiven]
    rfl
  rw [htools]
  decide

/-- Only reading tools are called, and a case whose positions came with the request is closed on
trusted evidence, when the evidence that it starts with is trusted. -/
theorem closes_trusted (env : Env) (metadata : CaseMetadata) (hlaw : ReadsIds env.lib) :
    (∀ n, ∀ call ∈ (runFor env metadata n).invocations, call.1 ∈ readOnlyToolNames) ∧
      (isList (env.request.sourceData.get "positions") = true → RestoredBound env metadata →
        ∀ n, ClosesTrusted env (runFor env metadata n)) := by
  refine ⟨fun n => ?_, fun hgiven hrestored n hclosed toolName htool => ?_⟩
  · exact (kept_runFor (P := fun _ => True) (fun _ _ => trivial) (fun _ _ _ _ => trivial) n).calls
  · have hkept : Kept env metadata (fun item => item.toolName ≠ needLinesTool →
        item.freshSuccess = true → Bound env.lib env.request item.arguments)
        (runFor env metadata n) :=
      kept_runFor hrestored (fun _ _ _ hadmissible hne _ => hadmissible.2 hne) n
    obtain ⟨input, hinput, hresult, hsufficient⟩ := hkept.closed hclosed
    obtain ⟨hissues, -, hpositions⟩ := (sufficient_iff input env.now).mp hsufficient
    obtain ⟨item, hitem, hname, hfresh⟩ := answered_of_no_issue hinput hissues htool
    have hne : item.toolName ≠ needLinesTool := by
      rintro hneed
      rw [← hname, hneed] at htool
      exact needLines_not_mandatory hgiven htool
    have hbound := hkept.evidence item hitem hne hfresh
    refine ⟨item, hitem, hname, hfresh, hbound.toOfCase, _, hresult, fun position hposition => ?_⟩
    obtain ⟨result, hin, rfl⟩ := List.mem_map.mp hposition
    obtain ⟨need, hneed, rfl⟩ := List.mem_map.mp hin
    obtain ⟨id, hid, hblank⟩ := matched_of_sufficient (hpositions need hneed)
    exact ⟨id, hid, hbound.ids id (names_of_given hlaw hgiven hinput hneed hid hblank)⟩

/-! ## Two cases that are closed -/

theorem five_nonneg : ∀ q ∈ some (5 : Rat), 0 ≤ q := by
  rintro q ⟨⟩
  decide

theorem factor_nonneg : (0 : Rat) ≤ 1 := zero_le_one

theorem nonneg_of_none (q : Rat) (h : none = some q) : 0 ≤ q := by
  cases h

/-- A position as a raw row has it: five kilograms of its nomenclature. -/
def readRow (raw : Value) : Option NeedPosition :=
  match raw.get "nomenclature_id" with
  | .str id => some
      { lineId := "1"
        nomenclatureId := some id
        nomenclatureName := "Лист"
        unit := "кг"
        requiredDate := none
        grossQuantity := some 5
        productQuantity := none
        consumptionRate := none
        lossFactor := 1
        matchStatus := .exact
        possibleUnits := []
        gross_nonneg := five_nonneg
        product_nonneg := nonneg_of_none
        rate_nonneg := nonneg_of_none
        loss_nonneg := factor_nonneg }
  | _ => none

def rowLibrary : Library where
  py := plainLibrary.py
  stableHash := fun _ => "hash"
  readPosition := readRow
  readSupply := fun _ => none

theorem readsIds_rowLibrary : ReadsIds rowLibrary := by
  intro raw position id hread hid
  change readRow raw = some position at hread
  unfold readRow at hread
  split at hread
  · next text htext =>
    cases hread
    rw [htext, Option.some.inj hid]
  · cases hread

def oneRow : Value :=
  .list [.dict [("line_id", .str "1"), ("nomenclature_id", .str "N1"),
    ("nomenclature_name", .str "Лист"), ("unit", .str "кг"), ("gross_quantity", .num 5 "5")]]

/-- A planner that calls some tools without arguments and completes the case, and tools that answer
with one row of need and no supplies. -/
def closingEnv (sourceData : Value) (hsourceData : sourceData.isDict = true) (tools : List String) :
    Env where
  lib := rowLibrary
  caseId := "case-1"
  request := { assessRequest with sourceData, sourceData_isDict := hsourceData }
  createPlan := .ok ("Оценить потребность", [assessStep], [])
  decide := fun asked => .ok
    { action := if asked < tools.length then .tool else .complete
      stepId := none
      toolName := tools[asked]?
      arguments := ∅
      shortReason := "Получить данные."
      replanSteps := []
      expectedEvidence := [] }
  respond := fun _ => .ok
    { data := .dict [("positions", oneRow), ("items", .list [])]
      freshness := .fresh
      status := .success
      errorMessage := none }
  newId := fun called => "evidence-" ++ toString called
  now := 0

def givenEnv : Env := closingEnv (.dict [("positions", oneRow)]) rfl alwaysRequired

/-- The rows come from the tool that reads the need lines. -/
def needLinesEnv : Env := closingEnv (.dict []) rfl (needLinesTool :: alwaysRequired)

theorem closes_trusted_given :
    (runFor givenEnv newCase 36).state.caseStatus = .closed ∧
      ClosesTrusted givenEnv (runFor givenEnv newCase 36) :=
  ⟨by decide +kernel, (closes_trusted givenEnv newCase readsIds_rowLibrary).2 (by decide)
    (fun item hitem => by cases hitem) 36⟩

theorem closes_trusted_needLines_fails :
    (runFor needLinesEnv newCase 42).node = .finished ∧
      ¬ ClosesTrusted needLinesEnv (runFor needLinesEnv newCase 42) := by
  have hrun : (runFor needLinesEnv newCase 42).node = .finished ∧
      (runFor needLinesEnv newCase 42).state.caseStatus = .closed ∧
      ((runFor needLinesEnv newCase 42).state.coverageResult.map
        fun result => result.positions.isEmpty) = some false ∧
      ∀ item ∈ (runFor needLinesEnv newCase 42).state.evidence,
        item.toolName = "onec_get_free_stock" → namedIds item.arguments = [] := by
    decide +kernel
  obtain ⟨hnode, hclosed, hpositions, hunnamed⟩ := hrun
  refine ⟨hnode, fun h => ?_⟩
  obtain ⟨item, hitem⟩ := h hclosed "onec_get_free_stock" (by decide +kernel)
  obtain ⟨result, hresult, hnames⟩ := hitem.names
  rw [hresult] at hpositions
  obtain ⟨position, hposition⟩ := List.exists_mem_of_ne_nil result.positions
    (List.isEmpty_eq_false_iff.mp (Option.some.inj hpositions))
  obtain ⟨id, -, hid⟩ := hnames position hposition
  rw [hunnamed item hitem.mem hitem.tool] at hid
  cases hid

end AgentBack.KT1
