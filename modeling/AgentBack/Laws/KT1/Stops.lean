import AgentBack.Laws.KT1.Termination
import Mathlib.Order.WellFounded

/-!
# Which runs of the purchasing agent stop

A run that goes on executes no tool after some node, since the tools are limited. From there it can
only choose a replan and replan, because every other choice leads to the end and never back. So what
keeps a run going is a planner that answers with replans alone.
-/

namespace AgentBack.KT1

open Orchestrator (CaseStatus)

variable {env : Env} {run : Run} {metadata : CaseMetadata}

def Replans (env : Env) (asked : Nat) : Prop :=
  ∃ decision, env.decide asked = .ok decision ∧ decision.action = .replan ∧
    decision.replanSteps ≠ []

/-- From some choice on, the planner answers with replans alone. -/
def ReplansForever (env : Env) (metadata : CaseMetadata) : Prop :=
  ∃ n, (runFor env metadata n).node = .selectNextAction ∧
    ∀ asked, (runFor env metadata n).asked ≤ asked → Replans env asked

theorem execute_of_gateRaises (h : Invariant run) (hraises : GateRaises env run) :
    execute env run = none := by
  obtain ⟨hnode, hbind⟩ := hraises
  unfold Invariant at h
  rw [hnode] at h
  obtain ⟨decision, hdecision⟩ := Option.isSome_iff_exists.mp h.2.2.2
  have hexecute : execute env run = policyGate env run := by
    unfold execute
    rw [hnode]
  rw [hexecute]
  unfold policyGate
  rw [hdecision, Option.bind_some, hbind decision hdecision, Option.map_none]

theorem execute_of_calculationRaises (hraises : CalculationRaises env run) :
    execute env run = none := by
  obtain ⟨hnode, hitems⟩ := hraises
  have hexecute : execute env run = calculateCoverageResult env run := by
    unfold execute
    rw [hnode]
  rw [hexecute]
  unfold calculateCoverageResult coverageInput extractPositions
  rw [hitems]
  rfl

theorem nextNode_ne_raised {node : Node} (h : node ≠ .raised) (state : GraphState) :
    nextNode node state ≠ .raised := by
  have hall : ∀ blocked, node ≠ .raised → .raised ∉ successors blocked node := by
    cases node <;> decide
  exact fun hnext => hall _ h (hnext ▸ nextNode_mem_successors node state)

/-- A step goes to the next node, it raises, or the run has ended. -/
theorem step_cases (env : Env) (h : Invariant run) :
    (run.Ended ∧ step env run = run) ∨
      (¬ run.Ended ∧ Raises env run ∧ (step env run).node = .raised) ∨
      (¬ run.Ended ∧ ∃ next, execute env run = some next ∧ step env run = run.advance next) := by
  by_cases hended : run.Ended
  · exact .inl ⟨hended, step_of_ended hended⟩
  · obtain ⟨hfinished, hraised⟩ := not_or.mp hended
    cases hexecute : execute env run with
    | none =>
      refine .inr (.inl ⟨hended, raises_of_execute h hexecute, ?_⟩)
      rw [step_of_raise hfinished hraised hexecute]
    | some next =>
      exact .inr (.inr ⟨hended, next, rfl, step_of_execute hfinished hraised hexecute⟩)

theorem node_of_raises (h : Invariant run) (hraises : Raises env run) :
    (step env run).node = .raised := by
  have hnone : execute env run = none := by
    rcases hraises with hgate | hcalculation
    · exact execute_of_gateRaises h hgate
    · exact execute_of_calculationRaises hcalculation
  have hnode : run.node = .policyGate ∨ run.node = .calculateCoverageResult :=
    hraises.imp And.left And.left
  rw [step_of_raise (by rcases hnode with h | h <;> rw [h] <;> decide)
    (by rcases hnode with h | h <;> rw [h] <;> decide) hnone]

/-- A run raises only where a node does. -/
theorem not_raised_of_forall (hraises : ∀ n, ¬ Raises env (runFor env metadata n)) (n : Nat) :
    (runFor env metadata n).node ≠ .raised := by
  induction n with
  | zero => exact fun h => by cases h
  | succ n ih =>
    change (step env (runFor env metadata n)).node ≠ .raised
    rcases step_cases env (invariant_runFor env metadata n) with
      ⟨-, hstep⟩ | ⟨-, hraise, -⟩ | ⟨-, next, -, hstep⟩
    · rw [hstep]
      exact ih
    · exact absurd hraise (hraises n)
    · rw [hstep]
      exact nextNode_ne_raised ih next.state

theorem not_raises_of_finished {n : Nat} (h : (runFor env metadata n).node = .finished) (m : Nat) :
    ¬ Raises env (runFor env metadata m) := by
  intro hraises
  have hraised : (runFor env metadata (m + 1)).node = .raised :=
    node_of_raises (invariant_runFor env metadata m) hraises
  have hn := runFor_of_ended (.inl h) (max n (m + 1)) (Nat.le_max_left _ _)
  have hm := runFor_of_ended (.inr hraised) (max n (m + 1)) (Nat.le_max_right _ _)
  rw [← hn, hm, hraised] at h
  cases h

theorem trace_step (env : Env) (run : Run) :
    (step env run).trace = if run.node = .finished ∨ run.node = .raised then run.trace
      else run.trace ++ [run.node] := by
  unfold step
  split
  · rfl
  · cases execute env run with
    | none => rfl
    | some next => rfl

/-- A node other than the end is counted when it has run. -/
theorem count_trace_step (env : Env) (run : Run) (node : Node) (hfinished : node ≠ .finished)
    (hraised : node ≠ .raised) :
    (step env run).trace.count node = run.trace.count node + if run.node = node then 1 else 0 := by
  rw [trace_step]
  by_cases hended : run.node = .finished ∨ run.node = .raised
  · rw [if_pos hended, if_neg, Nat.add_zero]
    rintro rfl
    exact hended.elim hfinished hraised
  · rw [if_neg hended, List.count_append, List.count_singleton]
    by_cases h : run.node = node <;> simp [h]

theorem length_trace {n : Nat} (h : ¬ (runFor env metadata n).Ended) :
    (runFor env metadata n).trace.length = n := by
  induction n with
  | zero => rfl
  | succ n ih =>
    have hbefore : ¬ (runFor env metadata n).Ended := by
      intro hended
      apply h
      rw [runFor_of_ended hended (n + 1) (Nat.le_succ n)]
      exact hended
    change (step env (runFor env metadata n)).trace.length = n + 1
    rw [trace_step, if_neg (by exact hbefore), List.length_append, ih hbefore]
    rfl

theorem tools_le (env : Env) (metadata : CaseMetadata) (n : Nat) :
    (runFor env metadata n).tools ≤ maxLoopIterations := by
  have h := invariant_runFor env metadata n
  have hzero : (runFor env metadata n).tools = 0 → (runFor env metadata n).Limited := by
    intro h
    unfold Run.Limited
    omega
  change (runFor env metadata n).Limited
  unfold Invariant at h
  cases hnode : (runFor env metadata n).node <;> rw [hnode] at h
  case validateRequest => exact hzero h.2
  case checkDataQuality => exact hzero h.2
  case loadCaseContext => exact hzero h.2
  case ensurePlan => exact hzero h.2.1
  case saveObservation => exact h.2.1.limited
  case evaluateGoal => exact h.2.1.limited
  case calculateCoverageResult => exact h.2.1
  case requireHuman => exact h.2
  case blockCase => exact h.2
  case finalizeResult => exact h.2
  case finished => exact h.2
  case raised => exact h.2
  all_goals exact h.2.1.limited

theorem within_runFor (env : Env) (metadata : CaseMetadata) (n : Nat) :
    (runFor env metadata n).Within 8 := by
  have h := invariant_runFor env metadata n
  unfold Invariant at h
  cases hnode : (runFor env metadata n).node <;> rw [hnode] at h <;>
    exact within_weaken h.1 (by decide)

/-- A run that has not ended after a number of nodes has replanned often. -/
theorem le_replans {n : Nat} (h : ¬ (runFor env metadata n).Ended) :
    n ≤ 5 * maxLoopIterations + 2 * (runFor env metadata n).replans + 8 := by
  have hwithin := within_runFor env metadata n
  have htools := tools_le env metadata n
  unfold Run.Within at hwithin
  rw [length_trace h] at hwithin
  omega

/-- A run with a number of replans ends within a number of nodes. -/
theorem ended_of_replans_le {n k : Nat} (hk : (runFor env metadata n).replans ≤ k)
    (hn : 5 * maxLoopIterations + 2 * k + 9 ≤ n) : (runFor env metadata n).Ended := by
  by_contra h
  have hle := le_replans h
  omega

/-! ## A run that goes on -/

/-- The nodes from which the run does not get back to the choice of an action, unless it executes a
tool. -/
def Leaving : Node → Bool
  | .policyGate => true
  | .executeTool => true
  | .calculateCoverageResult => true
  | .requireHuman => true
  | .blockCase => true
  | .finalizeResult => true
  | .finished => true
  | .raised => true
  | _ => false

theorem leaving_nextNode {node : Node} (h : Leaving node = true) (htool : node ≠ .executeTool)
    (state : GraphState) : Leaving (nextNode node state) = true := by
  have hall : ∀ blocked, Leaving node = true → node ≠ .executeTool →
      ∀ next ∈ successors blocked node, Leaving next = true := by
    cases node <;> decide
  exact hall _ h htool _ (nextNode_mem_successors node state)

theorem leaving_step (h : Leaving run.node = true) (htool : run.node ≠ .executeTool) :
    Leaving (step env run).node = true := by
  unfold step
  split
  · exact h
  · cases execute env run with
    | none => rfl
    | some next => exact leaving_nextNode h htool next.state

theorem leaving_runFor {n : Nat} (h : Leaving (runFor env metadata n).node = true)
    (htools : ∀ m, n ≤ m → (runFor env metadata m).node ≠ .executeTool) (m : Nat) (hm : n ≤ m) :
    Leaving (runFor env metadata m).node = true := by
  induction m, hm using Nat.le_induction with
  | base => exact h
  | succ m hm ih => exact leaving_step ih (htools m hm)

/-- A run that never replans again has replanned as often as before. -/
theorem replans_const {n : Nat} (h : ∀ m, n ≤ m → (runFor env metadata m).node ≠ .replan) (m : Nat)
    (hm : n ≤ m) : (runFor env metadata m).replans = (runFor env metadata n).replans := by
  induction m, hm using Nat.le_induction with
  | base => rfl
  | succ m hm ih =>
    have hstep := count_trace_step env (runFor env metadata m) .replan (by decide) (by decide)
    rw [if_neg (h m hm), Nat.add_zero] at hstep
    exact hstep.trans ih

/-- A run that goes on replans again and again. -/
theorem exists_replan (h : ∀ n, ¬ (runFor env metadata n).Ended) (n : Nat) :
    ∃ m, n ≤ m ∧ (runFor env metadata m).node = .replan := by
  by_contra hnever
  have hconst : ∀ m, n ≤ m → (runFor env metadata m).replans = (runFor env metadata n).replans :=
    replans_const fun m hm hnode => hnever ⟨m, hm, hnode⟩
  let late := n + (5 * maxLoopIterations + 2 * (runFor env metadata n).replans + 9)
  refine h late (ended_of_replans_le (k := (runFor env metadata n).replans) ?_ (by omega))
  exact (hconst late (by omega)).le

theorem exists_greatest {count : Nat → Nat} {bound : Nat} (h : ∀ n, count n ≤ bound) :
    ∃ n, ∀ m, count m ≤ count n := by
  refine ⟨Function.argmin fun n => bound - count n, fun m => ?_⟩
  have hleast := Function.argmin_le (fun n => bound - count n) m
  have hm := h m
  have hn := h (Function.argmin fun n => bound - count n)
  omega

/-- After some node, a run executes no tool. -/
theorem exists_last_tool (env : Env) (metadata : CaseMetadata) :
    ∃ n, ∀ m, n ≤ m → (runFor env metadata m).node ≠ .executeTool := by
  obtain ⟨n, hgreatest⟩ := exists_greatest (tools_le env metadata)
  have hstep : ∀ m, (runFor env metadata (m + 1)).tools = (runFor env metadata m).tools +
      if (runFor env metadata m).node = .executeTool then 1 else 0 := fun m =>
    count_trace_step env (runFor env metadata m) .executeTool (by decide) (by decide)
  have hmono : ∀ m, n ≤ m → (runFor env metadata n).tools ≤ (runFor env metadata m).tools := by
    intro m hm
    induction m, hm using Nat.le_induction with
    | base => exact le_rfl
    | succ m _ ih =>
      rw [hstep]
      omega
  refine ⟨n, fun m hm hnode => ?_⟩
  have hle := hgreatest (m + 1)
  have hm := hmono m hm
  rw [hstep, if_pos hnode] at hle
  omega

/-- A replan with steps goes back to the choice of an action, and one without leaves the loop. -/
theorem replan_step (env : Env) (h : Invariant run) (hnode : run.node = .replan) {decision : NextAction}
    (hdecision : run.state.nextAction = some decision) :
    (decision.replanSteps = [] ∧ (step env run).node = .requireHuman) ∨
      (decision.replanSteps ≠ [] ∧ (step env run).node = .selectNextAction ∧
        (step env run).asked = run.asked) := by
  unfold Invariant at h
  rw [hnode] at h
  obtain ⟨-, -, ⟨hstatus, hactive⟩, -⟩ := h
  have hhuman : run.state.caseStatus ≠ .humanRequired := by
    rw [hstatus]
    decide
  have hexecute : execute env run = replan run := by
    unfold execute
    rw [hnode]
  rcases replan_cases hdecision hactive with ⟨hsteps, reason, hreplan⟩ | ⟨hsteps, _, plan, -, hreplan⟩
  · rw [step_of_execute (by rw [hnode]; decide) (by rw [hnode]; decide) (hexecute.trans hreplan)]
    refine .inl ⟨hsteps, ?_⟩
    change nextNode run.node _ = _
    rw [hnode]
    rfl
  · rw [step_of_execute (by rw [hnode]; decide) (by rw [hnode]; decide) (hexecute.trans hreplan)]
    refine .inr ⟨hsteps, ?_, rfl⟩
    change nextNode run.node _ = _
    rw [hnode]
    exact if_neg hhuman

/-- The choice of an action goes to the node of the action. -/
theorem select_step (env : Env) (h : Invariant run) (hnode : run.node = .selectNextAction) :
    (∃ error, env.decide run.asked = .error error ∧ (step env run).node = .requireHuman) ∨
      ∃ decision, env.decide run.asked = .ok decision ∧
        (step env run).node = actionNode decision.action ∧
        (step env run).state.nextAction = some decision ∧
        (step env run).asked = run.asked + 1 := by
  unfold Invariant at h
  rw [hnode] at h
  have hhuman : run.state.caseStatus ≠ .humanRequired := by
    rw [h.2.2.1]
    decide
  have hexecute : execute env run = some (selectNextAction env run) := by
    unfold execute
    rw [hnode]
  rw [step_of_execute (by rw [hnode]; decide) (by rw [hnode]; decide) hexecute]
  unfold selectNextAction
  cases env.decide run.asked with
  | error error =>
    refine .inl ⟨error, rfl, ?_⟩
    change nextNode run.node _ = _
    rw [hnode]
    rfl
  | ok decision =>
    refine .inr ⟨decision, rfl, ?_, rfl, rfl⟩
    change nextNode run.node _ = _
    rw [hnode]
    exact if_neg hhuman

/-- A replan of the planner is carried out, and the planner is asked again. -/
theorem round_of_replans (h : Invariant run) (hnode : run.node = .selectNextAction)
    (hreplans : Replans env run.asked) :
    (step env (step env run)).node = .selectNextAction ∧
      (step env (step env run)).asked = run.asked + 1 := by
  obtain ⟨decision, hdecide, haction, hsteps⟩ := hreplans
  rcases select_step env h hnode with
    ⟨error, herror, -⟩ | ⟨other, hother, hnext, hdecision, hasked⟩
  · cases hdecide.symm.trans herror
  · cases hdecide.symm.trans hother
    rw [haction] at hnext
    rcases replan_step env (invariant_step env h) hnext hdecision with
      ⟨hnone, -⟩ | ⟨-, hselect, hsame⟩
    · exact absurd hnone hsteps
    · exact ⟨hselect, hsame.trans hasked⟩

/-- A run at the choice of an action that does not leave the loop replans. -/
theorem replans_of_stays (h : Invariant run) (hnode : run.node = .selectNextAction)
    (hfirst : Leaving (step env run).node = false)
    (hsecond : Leaving (step env (step env run)).node = false) : Replans env run.asked := by
  rcases select_step env h hnode with
    ⟨error, -, hnext⟩ | ⟨decision, hdecide, hnext, hdecision, -⟩
  · rw [hnext] at hfirst
    cases hfirst
  · rw [hnext] at hfirst
    cases haction : decision.action <;> rw [haction] at hfirst hnext <;> try cases hfirst
    rcases replan_step env (invariant_step env h) hnext hdecision with
      ⟨-, hhuman⟩ | ⟨hsteps, -, -⟩
    · rw [hhuman] at hsecond
      cases hsecond
    · exact ⟨decision, hdecide, haction, hsteps⟩

/-- The run at the choice of an action, two nodes later for every replan. -/
theorem rounds_of_replans {n : Nat} (hnode : (runFor env metadata n).node = .selectNextAction)
    (k : Nat) (hreplans : ∀ j, j < k → Replans env ((runFor env metadata n).asked + j)) :
    (runFor env metadata (n + 2 * k)).node = .selectNextAction ∧
      (runFor env metadata (n + 2 * k)).asked = (runFor env metadata n).asked + k := by
  induction k with
  | zero => exact ⟨hnode, rfl⟩
  | succ k ih =>
    obtain ⟨hselect, hasked⟩ := ih fun j hj => hreplans j (Nat.lt_succ_of_lt hj)
    have hreplan := hreplans k (Nat.lt_succ_self k)
    rw [← hasked] at hreplan
    have hround := round_of_replans (invariant_runFor env metadata (n + 2 * k)) hselect hreplan
    exact ⟨hround.1, hround.2.trans (by rw [hasked, Nat.add_assoc])⟩

/-- A planner that replans for ever keeps the run going. -/
theorem not_ended_of_replansForever (h : ReplansForever env metadata) (m : Nat) :
    ¬ (runFor env metadata m).Ended := by
  obtain ⟨n, hnode, hreplans⟩ := h
  intro hended
  have hround := (rounds_of_replans hnode m fun j _ => hreplans _ (Nat.le_add_right _ j)).1
  rw [runFor_of_ended hended (n + 2 * m) (by omega)] at hround
  rcases hended with hend | hend <;> cases hend.symm.trans hround

/-- A run that goes on has such a planner. -/
theorem replansForever_of_not_ended (h : ∀ n, ¬ (runFor env metadata n).Ended) :
    ReplansForever env metadata := by
  obtain ⟨last, htools⟩ := exists_last_tool env metadata
  have hstays : ∀ m, last ≤ m → Leaving (runFor env metadata m).node = false := by
    intro m hm
    by_contra hleaving
    rw [Bool.not_eq_false] at hleaving
    obtain ⟨late, hlate, hreplan⟩ := exists_replan h m
    have hstill := leaving_runFor hleaving (fun k hk => htools k (hm.trans hk)) late hlate
    rw [hreplan] at hstill
    cases hstill
  obtain ⟨m, hm, hreplan⟩ := exists_replan h last
  have hselect : (runFor env metadata (m + 1)).node = .selectNextAction := by
    have hinvariant := invariant_runFor env metadata m
    have hholds := hinvariant
    unfold Invariant at hholds
    rw [hreplan] at hholds
    obtain ⟨decision, hdecision⟩ := Option.isSome_iff_exists.mp hholds.2.2.2
    rcases replan_step env hinvariant hreplan hdecision with ⟨-, hhuman⟩ | ⟨-, hnext, -⟩
    · have hleaves := hstays (m + 1) (by omega)
      change Leaving (step env (runFor env metadata m)).node = false at hleaves
      rw [hhuman] at hleaves
      cases hleaves
    · exact hnext
  have hall : ∀ k, Replans env ((runFor env metadata (m + 1)).asked + k) := by
    intro k
    induction k using Nat.strong_induction_on with
    | h k ih =>
      obtain ⟨hnode, hasked⟩ := rounds_of_replans hselect k ih
      rw [← hasked]
      exact replans_of_stays (invariant_runFor env metadata _) hnode
        (hstays (m + 1 + 2 * k + 1) (by omega)) (hstays (m + 1 + 2 * k + 2) (by omega))
  refine ⟨m + 1, hselect, fun asked hasked => ?_⟩
  obtain ⟨k, rfl⟩ := Nat.exists_eq_add_of_le hasked
  exact hall k

/-- The run reaches the end of the graph, and it executes no more tools than it may. -/
def Stops (env : Env) (metadata : CaseMetadata) : Prop :=
  (∃ n, (runFor env metadata n).node = .finished) ∧
    ∀ n, (runFor env metadata n).tools ≤ maxLoopIterations

/-- A run stops by itself unless the planner replans for ever or a node raises, and the nodes that run
until then are bounded by the tools that may be executed and the replans that were made. -/
theorem graph_stops_iff (env : Env) (metadata : CaseMetadata) :
    (Stops env metadata ↔
      ¬ ReplansForever env metadata ∧ ∀ n, ¬ Raises env (runFor env metadata n)) ∧
    ∀ k n, (∀ m, ¬ Raises env (runFor env metadata m)) → (runFor env metadata n).replans ≤ k →
      5 * maxLoopIterations + 2 * k + 9 ≤ n → (runFor env metadata n).node = .finished := by
  have hfinished : (∀ m, ¬ Raises env (runFor env metadata m)) →
      ∀ n, (runFor env metadata n).Ended → (runFor env metadata n).node = .finished :=
    fun hraises n hended => hended.resolve_right (not_raised_of_forall hraises n)
  refine ⟨⟨?_, ?_⟩, fun k n hraises hk hn => hfinished hraises n (ended_of_replans_le hk hn)⟩
  · rintro ⟨⟨n, hnode⟩, -⟩
    exact ⟨fun hforever => not_ended_of_replansForever hforever n (.inl hnode),
      not_raises_of_finished hnode⟩
  · rintro ⟨hforever, hraises⟩
    refine ⟨?_, tools_le env metadata⟩
    by_contra hnever
    refine hforever (replansForever_of_not_ended fun n hended => hnever ⟨n, ?_⟩)
    exact hfinished hraises n hended

def assessRequest : KT1Request where
  correlationId := "corr-1"
  sourceType := "order"
  source1cRef := "order-1"
  requestedOperation := "assess_need"
  autonomyLevel := ⟨0, Nat.succ_pos 2⟩
  sourceData := .dict [("nomenclature_ref", .str "N1")]
  sourceData_isDict := rfl

/-- A library that keeps texts as they are and reads no rows. -/
def plainLibrary : Library where
  py := { lower := id, casefold := id, decimal := fun _ => none, repr := fun _ => "" }
  stableHash := fun _ => "hash"
  readPosition := fun _ => none
  readSupply := fun _ => none

/-- The step that every replan puts into the plan. -/
def assessStep : PlanStep where
  stepId := "assess"
  objective := "Оценить потребность"
  status := .pending
  resultSummary := none
  blockingReason := none

/-- A planner that answers with a replan each time. -/
def replanningEnv : Env where
  lib := plainLibrary
  caseId := "case-1"
  request := assessRequest
  createPlan := .ok ("Оценить потребность", [assessStep], [])
  decide := fun _ => .ok
    { action := .replan
      stepId := none
      toolName := none
      arguments := ∅
      shortReason := "Уточнить план."
      replanSteps := [assessStep]
      expectedEvidence := [] }
  respond := fun _ => .error "ToolError"
  newId := fun _ => "evidence-1"
  now := 0

def newCase : CaseMetadata where
  checkpoint := none
  evidence := []
  activePlan := none

theorem graph_stops_replanning_fails : ¬ Stops replanningEnv newCase := by
  rintro ⟨⟨n, hnode⟩, -⟩
  have hforever : ReplansForever replanningEnv newCase :=
    ⟨4, by decide +kernel, fun _ _ => ⟨_, rfl, rfl, List.cons_ne_nil _ _⟩⟩
  exact not_ended_of_replansForever hforever n (.inl hnode)

end AgentBack.KT1
