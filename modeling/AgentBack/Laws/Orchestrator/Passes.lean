import AgentBack.Orchestrator.Poll

/-!
# The passes of a poll

After the documents a poll passes over the cases: it assigns them, looks after the availability
desks, takes cases from the engineer and gives covered ones to the purchase manager. A pass is made
of a few moves, so what holds of the states before and after each move holds of those of a pass.
-/

namespace AgentBack.Orchestrator

def takenFromEngineer (s : State) : State :=
  (releaseEngineerTask s).withCase fun c =>
    { c with
      currentAgentId := none
      assignedAgents := c.assignedAgents.filter fun agent => agent ≠ productionPreparationEngineer
      metadata := { c.metadata with roleAgentCompletionKey := none } }

/-- The relation of two states holds of the moves that the passes are made of. -/
structure Passing (env : Env) (now : Time) (R : State → State → Prop) : Prop where
  refl : ∀ s, R s s
  trans : ∀ {s s' s''}, R s s' → R s' s'' → R s s''
  enqueue : ∀ s, R s (enqueueRoleAgent env now s)
  dispatch : ∀ desk s, R s (s.withDesk desk fun w => { w with status := some .processing })
  lost : ∀ id s, R s (cancelLostTask id s)
  taken : ∀ s, R s (takenFromEngineer s)
  note : ∀ eventType key s, R s (s.noteEvent eventType key)
  assigned : ∀ s, R s (assignPurchaseManager now s)
  given : ∀ s, R s (givePurchaseManager s)
  cancelled : ∀ id s, R s (cancelForPurchaseManager id s)

namespace Passing

variable {env : Env} {now : Time} {R : State → State → Prop} (h : Passing env now R) (s : State)

include h

theorem ensureActiveCaseAssignment : R s (ensureActiveCaseAssignment env now s) := by
  unfold Orchestrator.ensureActiveCaseAssignment
  split
  · exact h.enqueue s
  · exact h.refl s

theorem ensureWarehouseAvailabilityWork (desk : Desk) (stale : Bool) :
    R s (ensureWarehouseAvailabilityWork env desk stale now s) := by
  unfold Orchestrator.ensureWarehouseAvailabilityWork
  split
  · exact h.refl s
  split
  · split
    · split
      · split
        · exact h.dispatch desk s
        · exact h.refl s
      split
      · exact h.refl s
      split
      · exact h.refl s
      split
      · exact h.trans (h.lost _ s) (h.enqueue _)
      split
      · exact h.enqueue s
      · exact h.refl s
    · exact h.refl s
  · split
    · exact h.refl s
    · exact h.enqueue s

theorem migrateUndecidedEngineerCase : R s (migrateUndecidedEngineerCase env now s) := by
  unfold Orchestrator.migrateUndecidedEngineerCase
  split
  · exact h.refl s
  · exact h.trans (h.taken s) (h.trans (h.note _ _ _) (h.enqueue _))

theorem ensurePurchaseManagerWork (stale : Bool) :
    R s (ensurePurchaseManagerWork env stale now s) := by
  unfold Orchestrator.ensurePurchaseManagerWork
  split
  · exact h.refl s
  split
  · exact h.refl s
  split
  · exact h.refl s
  have hassigned := h.assigned s
  dsimp only
  split
  · exact hassigned
  have hgiven := h.trans hassigned (h.given _)
  split
  · split
    · split
      · split
        · exact h.trans hgiven (h.dispatch _ _)
        · exact hgiven
      split
      · exact h.trans hgiven (h.enqueue _)
      · exact hgiven
    split
    · exact h.trans hgiven (h.trans (h.cancelled _ _) (h.enqueue _))
    · exact hgiven
  · exact h.trans hgiven (h.enqueue _)

end Passing

end AgentBack.Orchestrator
