import Mathlib.Algebra.Order.BigOperators.Group.List
import Mathlib.Algebra.Order.Group.MinMax
import Mathlib.Tactic.Linarith

/-!
# Requests against one stock

Several requests, each served up to the whole of one stock without regard to the others. Together
they stay within the stock exactly when it is empty, when there is one request at most, or when all
of them fit it.
-/

namespace AgentBack.Demand

variable {Q : Type*} [AddCommGroup Q] [LinearOrder Q]

/-- What the requests take, each up to the whole stock. -/
def takenUpTo (stock : Q) (requests : List Q) : Q := (requests.map (min · stock)).sum

@[simp] theorem takenUpTo_nil (stock : Q) : takenUpTo stock [] = 0 := rfl

@[simp] theorem takenUpTo_cons (stock r : Q) (requests : List Q) :
    takenUpTo stock (r :: requests) = min r stock + takenUpTo stock requests := by
  rw [takenUpTo, takenUpTo, List.map_cons, List.sum_cons]

variable [IsOrderedAddMonoid Q]

theorem takenUpTo_le_sum (stock : Q) (requests : List Q) :
    takenUpTo stock requests ≤ requests.sum := by
  induction requests with
  | nil => exact le_of_eq rfl
  | cons r rest ih =>
    rw [takenUpTo_cons, List.sum_cons]
    exact add_le_add (min_le_left r stock) ih

theorem takenUpTo_zero (requests : List Q) : takenUpTo 0 requests ≤ 0 := by
  induction requests with
  | nil => exact le_of_eq rfl
  | cons r rest ih =>
    rw [takenUpTo_cons]
    exact add_nonpos (min_le_right r 0) ih

variable {stock : Q} {requests : List Q}

variable (hstock : 0 ≤ stock) (hpos : ∀ r ∈ requests, 0 < r)
include hstock hpos

theorem takenUpTo_nonneg :
    0 ≤ takenUpTo stock requests := by
  apply List.sum_nonneg
  intro q hq
  obtain ⟨r, hr, rfl⟩ := List.mem_map.mp hq
  exact le_min (le_of_lt (hpos r hr)) hstock

/-- While the stock is not used up, no request has been cut. -/
theorem takenUpTo_eq_sum (h : takenUpTo stock requests < stock) :
    takenUpTo stock requests = requests.sum := by
  induction requests with
  | nil => rfl
  | cons r rest ih =>
    have hrest : ∀ r ∈ rest, 0 < r := fun r hr => hpos r (.tail _ hr)
    rw [takenUpTo_cons] at h
    have hnonneg := takenUpTo_nonneg hstock hrest
    have hmin : min r stock < stock := lt_of_le_of_lt (le_add_of_nonneg_right hnonneg) h
    have huncut : min r stock = r := min_eq_left (le_of_lt ((min_lt_iff.mp hmin).resolve_right
      (lt_irrefl stock)))
    have hless : takenUpTo stock rest < stock :=
      lt_of_le_of_lt (le_add_of_nonneg_left (le_min (le_of_lt (hpos r (.head _))) hstock)) h
    rw [takenUpTo_cons, List.sum_cons, huncut, ih hrest hless]

theorem takenUpTo_le_iff :
    takenUpTo stock requests ≤ stock ↔
      stock = 0 ∨ requests.length ≤ 1 ∨ requests.sum ≤ stock := by
  constructor
  · intro h
    cases requests with
    | nil => exact .inr (.inl (Nat.zero_le 1))
    | cons r rest =>
      have hr := hpos r (.head _)
      have hrest : ∀ r ∈ rest, 0 < r := fun r hr => hpos r (.tail _ hr)
      rw [takenUpTo_cons] at h
      rcases le_or_gt stock r with hcut | hfits
      · -- the first request takes the whole stock, so that nothing is left to a second one
        rw [min_eq_right hcut] at h
        have hzero : takenUpTo stock rest ≤ 0 := (add_le_iff_nonpos_right stock).mp h
        cases rest with
        | nil => exact .inr (.inl le_rfl)
        | cons r' rest' =>
          refine .inl (le_antisymm ?_ hstock)
          by_contra hpositive
          have hsecond : 0 < min r' stock :=
            lt_min (hrest r' (.head _)) (not_le.mp hpositive)
          have hothers := takenUpTo_nonneg hstock
            fun r hr => hrest r (.tail _ hr)
          rw [takenUpTo_cons] at hzero
          exact absurd hzero (not_le.mpr (add_pos_of_pos_of_nonneg hsecond hothers))
      · rw [min_eq_left (le_of_lt hfits)] at h
        have hless : takenUpTo stock rest < stock := lt_of_lt_of_le (lt_add_of_pos_left _ hr) h
        rw [takenUpTo_eq_sum hstock hrest hless] at h
        exact .inr (.inr (by rwa [List.sum_cons]))
  · rintro (hzero | hone | hsum)
    · rw [hzero]
      exact takenUpTo_zero requests
    · match requests, hone with
      | [], _ => exact hstock
      | [r], _ =>
        rw [takenUpTo_cons, takenUpTo_nil, add_zero]
        exact min_le_right r stock
    · exact le_trans (takenUpTo_le_sum stock requests) hsum

end AgentBack.Demand
