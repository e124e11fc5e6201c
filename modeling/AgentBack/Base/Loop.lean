import Mathlib.Data.Option.Basic
import Mathlib.Order.Basic

/-!
# Loops with a step budget

A `while` loop of the source need not end, so it is run under a budget: `Pass.run body fuel s`
makes at most `fuel` passes from the state `s` and answers `none` when the budget runs out. A body
may itself run loops, which is why it answers an `Option` and why a whole computation is a
function of its budget.

Two notions speak about such a computation `f : Nat → Option ρ`. `Steady f` says that a larger
budget never changes an answer; `Settles f r` says that every large enough budget answers `r`.
Both are closed under sequencing and under running a loop, so they are proved once for each loop
of a program and never again.

The three loop rules are the usual ones: an invariant carries a postcondition to every answer
(`run_inv`), an invariant with a decreasing measure makes the loop settle (`run_settles`), and an
invariant under which the body always goes round again makes it run for ever (`run_diverges`).
-/

namespace AgentBack

universe u v w

/-- What one pass through a loop body does: go round again in a new state, or leave the loop. -/
inductive Pass (σ : Type u) (ρ : Type v) where
  | again (s : σ)
  | ret (r : ρ)

/-- Run a loop body for at most `fuel` passes. -/
def Pass.run {σ : Type u} {ρ : Type v} (body : σ → Option (Pass σ ρ)) : Nat → σ → Option ρ
  | 0, _ => none
  | fuel + 1, s =>
    match body s with
    | none => none
    | some (.again s') => run body fuel s'
    | some (.ret r) => some r

/-- A larger budget never changes an answer. -/
def Steady {ρ : Type v} (f : Nat → Option ρ) : Prop :=
  ∀ ⦃n m : Nat⦄, n ≤ m → ∀ ⦃r : ρ⦄, f n = some r → f m = some r

/-- Every large enough budget answers `r`. -/
def Settles {ρ : Type v} (f : Nat → Option ρ) (r : ρ) : Prop :=
  ∃ enough : Nat, ∀ fuel, enough ≤ fuel → f fuel = some r

section Budgets

variable {ρ : Type v} {τ : Type w}

theorem Steady.const (o : Option ρ) : Steady fun _ => o :=
  fun _ _ _ _ h => h

variable {f : Nat → Option ρ}

/-- Sequencing steady computations: the second may look at the first one's answer. -/
theorem Steady.bind {g : Nat → ρ → Option τ} (hf : Steady f) (hg : ∀ r, Steady fun n => g n r) :
    Steady fun n => (f n).bind (g n) := by
  intro n m hnm t h
  obtain ⟨r, hr, ht⟩ := Option.bind_eq_some_iff.mp h
  exact Option.bind_eq_some_iff.mpr ⟨r, hf hnm hr, hg r hnm ht⟩

theorem Steady.map (hf : Steady f) (g : ρ → τ) :
    Steady fun n => (f n).map g := by
  intro n m hnm t h
  obtain ⟨r, hr, ht⟩ := Option.map_eq_some_iff.mp h
  exact Option.map_eq_some_iff.mpr ⟨r, hf hnm hr, ht⟩

theorem Steady.ite {p : Prop} [Decidable p] {f g : Nat → Option ρ} (hf : Steady f)
    (hg : Steady g) : Steady fun n => if p then f n else g n := by
  by_cases hp : p
  · simpa only [if_pos hp] using hf
  · simpa only [if_neg hp] using hg

theorem Settles.const (r : ρ) : Settles (fun _ => some r) r :=
  ⟨0, fun _ _ => rfl⟩

theorem Settles.unique {r r' : ρ} (h : Settles f r) (h' : Settles f r') :
    r = r' := by
  obtain ⟨n, hn⟩ := h
  obtain ⟨m, hm⟩ := h'
  have h₁ : f (n + m) = some r := hn (n + m) (by omega)
  have h₂ : f (n + m) = some r' := hm (n + m) (by omega)
  exact Option.some.inj (h₁.symm.trans h₂)

theorem Settles.bind {g : Nat → ρ → Option τ} {r : ρ} {t : τ} (hf : Settles f r)
    (hg : Settles (fun n => g n r) t) :
    Settles (fun n => (f n).bind (g n)) t := by
  obtain ⟨n, hn⟩ := hf
  obtain ⟨m, hm⟩ := hg
  refine ⟨n + m, fun fuel h => ?_⟩
  show (f fuel).bind (g fuel) = some t
  rw [hn fuel (by omega), Option.bind_some]
  exact hm fuel (by omega)

theorem Settles.map {r : ρ} (hf : Settles f r) (g : ρ → τ) :
    Settles (fun n => (f n).map g) (g r) := by
  obtain ⟨n, hn⟩ := hf
  refine ⟨n, fun fuel h => ?_⟩
  show (f fuel).map g = some (g r)
  rw [hn fuel h, Option.map_some]

theorem Steady.settles (hf : Steady f) {n : Nat} {r : ρ} (h : f n = some r) : Settles f r :=
  ⟨n, fun _ hm => hf hm h⟩

theorem Steady.eq_of_settles (hf : Steady f) {n : Nat} {r r' : ρ} (h : f n = some r)
    (h' : Settles f r') : r = r' :=
  (hf.settles h).unique h'

end Budgets

namespace Pass

variable {σ : Type u} {ρ : Type v}

theorem run_succ (body : σ → Option (Pass σ ρ)) (fuel : Nat) (s : σ) :
    run body (fuel + 1) s = (body s).bind fun
      | .again s' => run body fuel s'
      | .ret r => some r := by
  cases h : body s with
  | none => simp only [run, h, Option.bind_none]
  | some p => cases p <;> simp only [run, h, Option.bind_some]

variable {body : Nat → σ → Option (Pass σ ρ)}

/-- Larger budgets, of the body and of the loop, never change the answer of a steady body's loop. -/
theorem run_mono (hbody : ∀ s, Steady fun n => body n s) {b b' n m : Nat} {s : σ} {r : ρ}
    (hb : b ≤ b') (hnm : n ≤ m) (h : run (body b) n s = some r) : run (body b') m s = some r := by
  induction n generalizing m s with
  | zero => cases h
  | succ n ih =>
    obtain ⟨m, rfl⟩ : ∃ k, m = k + 1 := ⟨m - 1, by omega⟩
    rw [run_succ] at h ⊢
    obtain ⟨p, hp, hrest⟩ := Option.bind_eq_some_iff.mp h
    refine Option.bind_eq_some_iff.mpr ⟨p, hbody s hb hp, ?_⟩
    cases p with
    | again s' => exact ih (by omega) hrest
    | ret r' => exact hrest

theorem run_steady (body : Nat → σ → Option (Pass σ ρ)) (hbody : ∀ s, Steady fun n => body n s)
    (s : σ) : Steady fun n => run (body n) n s :=
  fun _ _ hnm _ h => run_mono hbody hnm hnm h

/-- A loop whose first pass returns answers what this pass returns. -/
theorem settles_ret {s : σ} {r : ρ} (h : Settles (fun n => body n s) (.ret r)) :
    Settles (fun n => run (body n) n s) r := by
  obtain ⟨enough, hbody⟩ := h
  refine ⟨enough + 1, fun fuel hfuel => ?_⟩
  obtain ⟨fuel, rfl⟩ : ∃ k, fuel = k + 1 := ⟨fuel - 1, by omega⟩
  have hpass : body (fuel + 1) s = some (.ret r) := hbody (fuel + 1) (by omega)
  show run (body (fuel + 1)) (fuel + 1) s = some r
  rw [run_succ, hpass, Option.bind_some]

/-- A loop whose first pass goes round again answers what it answers from the next state. -/
theorem settles_again (hbody : ∀ s, Steady fun n => body n s) {s s' : σ} {r : ρ}
    (h : Settles (fun n => body n s) (.again s')) (hrest : Settles (fun n => run (body n) n s') r) :
    Settles (fun n => run (body n) n s) r := by
  obtain ⟨enough, hpass⟩ := h
  obtain ⟨enough', hrun⟩ := hrest
  refine ⟨enough + enough' + 1, fun fuel hfuel => ?_⟩
  obtain ⟨fuel, rfl⟩ : ∃ k, fuel = k + 1 := ⟨fuel - 1, by omega⟩
  have hpass' : body (fuel + 1) s = some (.again s') := hpass (fuel + 1) (by omega)
  have hrun' : run (body enough') enough' s' = some r := hrun enough' (Nat.le_refl _)
  show run (body (fuel + 1)) (fuel + 1) s = some r
  rw [run_succ, hpass', Option.bind_some]
  exact run_mono hbody (by omega) (by omega) hrun'

/-- Partial correctness: what holds before every pass holds after the last one. -/
theorem run_inv {body : σ → Option (Pass σ ρ)} (Inv : σ → Prop) (Post : ρ → Prop)
    (again : ∀ s s', Inv s → body s = some (.again s') → Inv s')
    (ret : ∀ s r, Inv s → body s = some (.ret r) → Post r) :
    ∀ {fuel : Nat} {s : σ} {r : ρ}, Inv s → run body fuel s = some r → Post r := by
  intro fuel
  induction fuel with
  | zero => intro s r _ h; cases h
  | succ fuel ih =>
    intro s r hs h
    rw [run_succ] at h
    obtain ⟨p, hp, hrest⟩ := Option.bind_eq_some_iff.mp h
    cases p with
    | again s' => exact ih (again s s' hs hp) hrest
    | ret r' => exact Option.some.inj hrest ▸ ret s r' hs hp

/-- Total correctness: a body that settles on a pass, keeps the invariant and lowers the measure
makes its loop settle, on a result with the postcondition. -/
theorem run_settles (Inv : σ → Prop) (Post : ρ → Prop) (measure : σ → Nat)
    (pass : ∀ s, Inv s → ∃ p, Settles (fun n => body n s) p ∧
      match p with
      | .again s' => Inv s' ∧ measure s' < measure s
      | .ret r => Post r) :
    ∀ s, Inv s → ∃ r, Settles (fun n => run (body n) n s) r ∧ Post r := by
  have key : ∀ (k : Nat) (s : σ), measure s = k → Inv s → ∃ (r : ρ) (enough : Nat), Post r ∧
      ∀ b n, enough ≤ b → enough ≤ n → run (body b) n s = some r := by
    intro k
    induction k using Nat.strongRecOn with
    | ind k ih =>
      intro s hk hs
      obtain ⟨p, ⟨enough, hp⟩, hpost⟩ := pass s hs
      cases p with
      | ret r =>
        refine ⟨r, enough + 1, hpost, fun b n hb hn => ?_⟩
        obtain ⟨n, rfl⟩ : ∃ k, n = k + 1 := ⟨n - 1, by omega⟩
        have hb' : body b s = some (.ret r) := hp b (by omega)
        rw [run_succ, hb', Option.bind_some]
      | again s' =>
        obtain ⟨r, enough', hr, hrun⟩ := ih (measure s') (hk ▸ hpost.2) s' rfl hpost.1
        refine ⟨r, max enough enough' + 1, hr, fun b n hb hn => ?_⟩
        obtain ⟨n, rfl⟩ : ∃ k, n = k + 1 := ⟨n - 1, by omega⟩
        have hb' : body b s = some (.again s') := hp b (by omega)
        rw [run_succ, hb', Option.bind_some]
        exact hrun b n (by omega) (by omega)
  intro s hs
  obtain ⟨r, enough, hr, hrun⟩ := key (measure s) s rfl hs
  exact ⟨r, ⟨enough, fun fuel h => hrun fuel fuel h h⟩, hr⟩

/-- A body that always goes round again, from states that satisfy `Inv`, never leaves its loop. -/
theorem run_diverges {body : σ → Option (Pass σ ρ)} (Inv : σ → Prop)
    (again : ∀ s, Inv s → ∃ s', body s = some (.again s') ∧ Inv s') :
    ∀ (fuel : Nat) {s : σ}, Inv s → run body fuel s = none := by
  intro fuel
  induction fuel with
  | zero => intro s _; rfl
  | succ fuel ih =>
    intro s hs
    obtain ⟨s', hbody, hs'⟩ := again s hs
    rw [run_succ, hbody, Option.bind_some]
    exact ih hs'

end Pass

end AgentBack
