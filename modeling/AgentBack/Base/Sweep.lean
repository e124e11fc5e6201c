import AgentBack.Base.SortBy
import Mathlib.Algebra.Order.Ring.Int
import Mathlib.Data.List.Range

/-!
# Sweeps over the integers

`countUp lo hi step` is what a cursor runs through that starts at `lo` and goes on by `step` while
it is not beyond `hi`. `sortedSet` is what Python makes of a list by keeping the first of each item
and sorting. Both are strictly increasing, so that a list of theirs is known by its members
(`eq_of_increasing`).
-/

namespace AgentBack

/-- `while cursor <= hi: …; cursor += step`, from `lo` on. -/
def countUp (lo hi step : Int) : List Int :=
  (List.range ((hi - lo) / step + 1).toNat).map fun i : Nat => lo + step * (i : Int)

theorem mem_countUp {lo hi step x : Int} (hstep : 0 < step) :
    x ∈ countUp lo hi step ↔ lo ≤ x ∧ x ≤ hi ∧ (x - lo) % step = 0 := by
  unfold countUp
  rw [List.mem_map]
  constructor
  · rintro ⟨i, hin, rfl⟩
    have hdiv : (i : Int) ≤ (hi - lo) / step := by
      have := List.mem_range.mp hin
      omega
    have hmul : (i : Int) * step ≤ hi - lo := (Int.le_ediv_iff_mul_le hstep).mp hdiv
    have hnonneg : 0 ≤ step * (i : Int) := mul_nonneg hstep.le (Int.natCast_nonneg i)
    rw [mul_comm] at hmul
    refine ⟨by omega, by omega, ?_⟩
    rw [add_sub_cancel_left, Int.mul_emod_right]
  · rintro ⟨hlow, hhigh, hmod⟩
    obtain ⟨k, hk⟩ := Int.dvd_of_emod_eq_zero hmod
    have hk0 : 0 ≤ k := by
      apply (mul_nonneg_iff_of_pos_left hstep).mp
      omega
    have hdiv : k ≤ (hi - lo) / step := by
      apply (Int.le_ediv_iff_mul_le hstep).mpr
      rw [Int.mul_comm]
      omega
    refine ⟨k.toNat, List.mem_range.mpr (by omega), ?_⟩
    rw [Int.toNat_of_nonneg hk0]
    omega

theorem pairwise_countUp {lo hi step : Int} (hstep : 0 < step) :
    (countUp lo hi step).Pairwise (· < ·) := by
  unfold countUp
  rw [List.pairwise_map]
  apply List.pairwise_lt_range.imp
  intro a b hab
  have hmul : step * (a : Int) < step * b := mul_lt_mul_of_pos_left (Int.ofNat_lt.mpr hab) hstep
  omega

section
variable {α : Type} [LinearOrder α]

/-- Strictly increasing lists of the same members are the same. -/
theorem eq_of_increasing {items items' : List α} (h : items.Pairwise (· < ·))
    (h' : items'.Pairwise (· < ·)) (hmem : ∀ x, x ∈ items ↔ x ∈ items') : items = items' := by
  have hnodup : items.Nodup := h.imp ne_of_lt
  have hnodup' : items'.Nodup := h'.imp ne_of_lt
  have hperm : items.Perm items' := (List.perm_ext_iff_of_nodup hnodup hnodup').mpr hmem
  apply List.Perm.eq_of_pairwise _ h h' hperm
  intro a b _ _ hab hba
  exact absurd hab (lt_asymm hba)

def firsts (items : List α) : List α :=
  items.foldl (fun unique item => if item ∈ unique then unique else unique ++ [item]) []

def sortedSet (items : List α) : List α := sortBy id (firsts items)

private theorem firsts_spec (items : List α) :
    (firsts items).Nodup ∧ ∀ x, x ∈ firsts items ↔ x ∈ items := by
  induction items using List.reverseRecOn with
  | nil => exact ⟨List.nodup_nil, fun x => Iff.rfl⟩
  | append_singleton items item ih =>
    obtain ⟨hnodup, hmem⟩ := ih
    unfold firsts at hnodup hmem ⊢
    rw [List.foldl_append, List.foldl_cons, List.foldl_nil]
    split
    · next hin =>
      refine ⟨hnodup, ?_⟩
      intro x
      rw [hmem, List.mem_append, List.mem_singleton]
      constructor
      · exact .inl
      · rintro (hx | rfl)
        · exact hx
        · exact (hmem x).mp hin
    · next hnot =>
      refine ⟨?_, ?_⟩
      · rw [List.nodup_append]
        refine ⟨hnodup, List.nodup_singleton item, ?_⟩
        rintro x hx y hy rfl
        rw [List.mem_singleton] at hy
        exact hnot (hy ▸ hx)
      · intro x
        rw [List.mem_append, List.mem_append, hmem]

@[simp] theorem mem_sortedSet {items : List α} {x : α} : x ∈ sortedSet items ↔ x ∈ items := by
  unfold sortedSet
  rw [mem_sortBy, (firsts_spec items).2]

theorem pairwise_sortedSet (items : List α) : (sortedSet items).Pairwise (· < ·) := by
  have hnodup : (sortedSet items).Nodup :=
    (perm_sortBy id (firsts items)).nodup_iff.mpr (firsts_spec items).1
  apply (List.Pairwise.and (pairwise_sortBy id (firsts items)) hnodup).imp
  intro a b hab
  exact lt_of_le_of_ne hab.1 hab.2

end

end AgentBack
