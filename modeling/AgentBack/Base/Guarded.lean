import Mathlib.Data.List.Basic

/-!
# Guarded runs

A system takes steps one after the other. `Guarded` says that every step of a run meets a guard in
the state in which it is taken. What guarded steps preserve holds after every guarded run
(`Guarded.invariant`), and what a guarded step does from a state of the invariant can be said of each
step of a run (`Guarded.last`).
-/

namespace AgentBack

variable {α σ : Type*} (step : σ → α → σ) (guard : α → σ → Prop)

/-- Every step of the run meets the guard in the state in which it is taken. -/
def Guarded : List α → σ → Prop
  | [], _ => True
  | a :: rest, s => guard a s ∧ Guarded rest (step s a)

variable {step guard}

theorem guarded_append {steps : List α} {rest : List α} {s : σ} :
    Guarded step guard (steps ++ rest) s ↔
      Guarded step guard steps s ∧ Guarded step guard rest (steps.foldl step s) := by
  induction steps generalizing s with
  | nil => exact ⟨fun h => ⟨trivial, h⟩, fun h => h.2⟩
  | cons a steps ih =>
    change guard a s ∧ Guarded step guard (steps ++ rest) (step s a) ↔ _
    rw [ih]
    exact and_assoc.symm

/-- A run that ends with a step is guarded when the run before it is, and the step is. -/
theorem Guarded.last {steps : List α} {a : α} {s : σ} (h : Guarded step guard (steps ++ [a]) s) :
    Guarded step guard steps s ∧ guard a (steps.foldl step s) :=
  ⟨(guarded_append.mp h).1, (guarded_append.mp h).2.1⟩

/-- What guarded steps preserve holds after every guarded run. -/
theorem Guarded.invariant {P : σ → Prop} (hstep : ∀ a s, P s → guard a s → P (step s a))
    {steps : List α} {s : σ} (h : Guarded step guard steps s) (hs : P s) :
    P (steps.foldl step s) := by
  induction steps generalizing s with
  | nil => exact hs
  | cons a rest ih => exact ih h.2 (hstep a s hs h.1)

/-- Where a guard is just what a step needs to preserve an invariant, a run keeps the invariant
throughout exactly when it is guarded. -/
theorem Guarded.throughout_iff {P : σ → Prop} {fresh : α → σ → Prop}
    (hstep : ∀ a s, P s → fresh a s → (P (step s a) ↔ guard a s)) {steps : List α} {s : σ}
    (hs : P s) (hfresh : Guarded step fresh steps s) :
    (∀ front, front <+: steps → P (front.foldl step s)) ↔ Guarded step guard steps s := by
  induction steps generalizing s with
  | nil =>
    refine iff_of_true ?_ trivial
    intro front hfront
    rw [List.prefix_nil.mp hfront]
    exact hs
  | cons a rest ih =>
    have hfirst := hstep a s hs hfresh.1
    constructor
    · intro h
      have hnext : P (step s a) := h [a] (List.cons_prefix_cons.mpr ⟨rfl, List.nil_prefix⟩)
      refine ⟨hfirst.mp hnext, (ih hnext hfresh.2).mp fun front hfront => ?_⟩
      exact h (a :: front) (List.cons_prefix_cons.mpr ⟨rfl, hfront⟩)
    · rintro ⟨hguard, hrest⟩ front hfront
      cases front with
      | nil => exact hs
      | cons b front =>
        obtain ⟨rfl, hrest'⟩ := List.cons_prefix_cons.mp hfront
        exact (ih (hfirst.mpr hguard) hfresh.2).mpr hrest front hrest'

end AgentBack
