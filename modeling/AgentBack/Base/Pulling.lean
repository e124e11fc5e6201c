import Mathlib.Algebra.Order.Group.Defs
import Mathlib.Algebra.Order.Sub.Basic
import Mathlib.Data.List.Pairwise

/-!
# One demand over a list of keys

A demand goes through the keys of a stock and takes under each what it still lacks, as far as there
is some. Under a key that it has been to it has nothing more to get (`sated_pull`), now or later, so
a key that comes again changes nothing, and over keys in order only their set matters
(`pullAll_eq_of_mem_iff`).
-/

namespace AgentBack

universe u v w

/-- What is on hand under each key, what the demand still lacks, and what it has taken. -/
structure Pulling (κ : Type u) (Q : Type v) where
  hand : κ → Q
  left : Q
  log : List (κ × Q)

namespace Pulling

variable {κ : Type u} {Q : Type v} [DecidableEq κ] [AddCommGroup Q] [LinearOrder Q]

def pull (s : Pulling κ Q) (k : κ) : Pulling κ Q :=
  if 0 < s.left ∧ 0 < s.hand k then
    { hand := Function.update s.hand k (s.hand k - min s.left (s.hand k))
      left := s.left - min s.left (s.hand k)
      log := s.log ++ [(k, min s.left (s.hand k))] }
  else s

def pullAll (s : Pulling κ Q) (keys : List κ) : Pulling κ Q := keys.foldl pull s

/-- The demand has nothing to get under the key. -/
def Sated (s : Pulling κ Q) (k : κ) : Prop := s.left ≤ 0 ∨ s.hand k ≤ 0

@[simp] theorem pullAll_nil (s : Pulling κ Q) : s.pullAll [] = s := rfl

@[simp] theorem pullAll_cons (s : Pulling κ Q) (k : κ) (keys : List κ) :
    s.pullAll (k :: keys) = (s.pull k).pullAll keys := rfl

variable {s : Pulling κ Q} {k : κ}

theorem pull_of_sated (h : s.Sated k) : s.pull k = s := by
  refine if_neg fun hin => ?_
  rcases h with hleft | hhand
  · exact absurd hin.1 (not_lt.mpr hleft)
  · exact absurd hin.2 (not_lt.mpr hhand)

theorem hand_pull_of_ne {k' : κ} (h : k' ≠ k) : (s.pull k).hand k' = s.hand k' := by
  unfold pull
  split
  · exact Function.update_of_ne h _ _
  · rfl

/-- Under a key that it never comes to the demand takes nothing. -/
theorem hand_pullAll_of_not_mem {keys : List κ} (h : k ∉ keys) : (s.pullAll keys).hand k = s.hand k := by
  induction keys generalizing s with
  | nil => rfl
  | cons first rest ih =>
    obtain ⟨hne, hrest⟩ := not_or.mp (mt List.mem_cons.mpr h)
    rw [pullAll_cons, ih hrest, hand_pull_of_ne hne]

section Ordered

variable [IsOrderedAddMonoid Q]

/-- After it has been there the demand has nothing more to get under a key. -/
theorem sated_pull (s : Pulling κ Q) (k : κ) : (s.pull k).Sated k := by
  unfold pull Sated
  split
  · dsimp only
    rw [Function.update_self]
    rcases le_total s.left (s.hand k) with h | h
    · left
      rw [min_eq_left h, sub_self]
    · right
      rw [min_eq_right h, sub_self]
  · next h =>
    rcases not_and_or.mp h with h | h
    · exact .inl (not_lt.mp h)
    · exact .inr (not_lt.mp h)

theorem left_pull_le (s : Pulling κ Q) (k : κ) : (s.pull k).left ≤ s.left := by
  unfold pull
  split
  · next h => exact sub_le_self _ (le_min h.1.le h.2.le)
  · exact le_rfl

theorem hand_pull_le (s : Pulling κ Q) (k k' : κ) : (s.pull k).hand k' ≤ s.hand k' := by
  by_cases hk : k' = k
  · subst hk
    unfold pull
    split
    · next h =>
      dsimp only
      rw [Function.update_self]
      exact sub_le_self _ (le_min h.1.le h.2.le)
    · exact le_rfl
  · exact (hand_pull_of_ne hk).le

/-- No more is taken than there is. -/
theorem hand_pull_nonneg {k' : κ} (h : 0 ≤ s.hand k') : 0 ≤ (s.pull k).hand k' := by
  by_cases hk : k' = k
  · subst hk
    unfold pull
    split
    · dsimp only
      rw [Function.update_self]
      exact sub_nonneg.mpr (min_le_right _ _)
    · exact h
  · rwa [hand_pull_of_ne hk]

theorem hand_pullAll_le (s : Pulling κ Q) (keys : List κ) (k : κ) :
    (s.pullAll keys).hand k ≤ s.hand k := by
  induction keys generalizing s with
  | nil => exact le_rfl
  | cons first rest ih => exact (ih _).trans (hand_pull_le s first k)

theorem hand_pullAll_nonneg {keys : List κ} (h : 0 ≤ s.hand k) : 0 ≤ (s.pullAll keys).hand k := by
  induction keys generalizing s with
  | nil => exact h
  | cons first rest ih => exact ih (hand_pull_nonneg h)

theorem Sated.pull (h : s.Sated k) (k' : κ) : (s.pull k').Sated k := by
  rcases h with hleft | hhand
  · exact .inl ((left_pull_le s k').trans hleft)
  · exact .inr ((hand_pull_le s k' k).trans hhand)

/-- A demand that lacks nothing takes nothing. -/
theorem pullAll_of_left_nonpos (h : s.left ≤ 0) (keys : List κ) : s.pullAll keys = s := by
  induction keys with
  | nil => rfl
  | cons first rest ih => rw [pullAll_cons, pull_of_sated (.inl h), ih]

variable {β : Type w} {id : β → κ}

/-- Where the demand has nothing to get under a key, it may as well not come to it. -/
theorem pullAll_filter_ne [DecidableEq β] {b : β} (h : s.Sated (id b)) (keys : List β) :
    s.pullAll ((keys.filter fun other => decide (other ≠ b)).map id) = s.pullAll (keys.map id) := by
  induction keys generalizing s with
  | nil => rfl
  | cons first rest ih =>
    rw [List.filter_cons, List.map_cons, pullAll_cons]
    split
    · rw [List.map_cons, pullAll_cons, ih (h.pull _)]
    · next heq =>
      rw [decide_eq_true_eq, not_not] at heq
      rw [heq, pull_of_sated h, ih h]

/-- Over keys in order only their set matters. -/
theorem pullAll_eq_of_mem_iff [LinearOrder β] {keys keys' : List β} (hsorted : keys.Pairwise (· ≤ ·))
    (hsorted' : keys'.Pairwise (· ≤ ·)) (hmem : ∀ b, b ∈ keys ↔ b ∈ keys') (s : Pulling κ Q) :
    s.pullAll (keys.map id) = s.pullAll (keys'.map id) := by
  -- on how many keys there are: the least comes first in both, and then counts for nothing
  generalize hcount : keys.length = count
  induction count using Nat.strongRecOn generalizing keys keys' s with
  | ind count ih =>
    cases keys with
    | nil =>
      have hnil : keys' = [] := List.eq_nil_iff_forall_not_mem.mpr fun b hb =>
        List.not_mem_nil ((hmem b).mpr hb)
      rw [hnil]
    | cons first rest =>
      cases keys' with
      | nil => exact absurd ((hmem first).mp (.head _)) List.not_mem_nil
      | cons first' rest' =>
        obtain ⟨hfirst, hrest⟩ := List.pairwise_cons.mp hsorted
        obtain ⟨hfirst', hrest'⟩ := List.pairwise_cons.mp hsorted'
        obtain rfl : first = first' := by
          apply le_antisymm
          · rcases List.mem_cons.mp ((hmem first').mpr (.head _)) with h | h
            · exact h.symm.le
            · exact hfirst _ h
          · rcases List.mem_cons.mp ((hmem first).mp (.head _)) with h | h
            · exact h.symm.le
            · exact hfirst' _ h
        have hsated := sated_pull s (id first)
        rw [List.map_cons, List.map_cons, pullAll_cons, pullAll_cons,
          ← pullAll_filter_ne hsated rest, ← pullAll_filter_ne hsated rest']
        refine ih (rest.filter fun other => decide (other ≠ first)).length ?_
          (hrest.filter _) (hrest'.filter _) (fun b => ?_) _ rfl
        · rw [← hcount, List.length_cons]
          exact Nat.lt_succ_of_le (List.length_filter_le _ _)
        · rw [List.mem_filter, List.mem_filter]
          have hboth := hmem b
          rw [List.mem_cons, List.mem_cons] at hboth
          refine and_congr_left fun hne => ?_
          rw [decide_eq_true_eq] at hne
          rwa [or_iff_right hne, or_iff_right hne] at hboth

end Ordered

end Pulling

end AgentBack
