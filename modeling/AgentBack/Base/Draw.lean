import AgentBack.Base.Dict
import Mathlib.Algebra.Order.BigOperators.Group.List
import Mathlib.Algebra.Order.Group.Defs

/-!
# Draws from a shared stock

A stock is a dictionary of quantities, and a draw takes a positive quantity that is on hand under
a key. `Draws r log r'` says that the stock `r` becomes `r'` by the draws of `log`, in this order.
The relation is closed under concatenation, so one law serves a single demand and a whole run: what
was taken under a key and what is left there sum to what there was (`Draws.onHand_add_taken`).

A demand draws until nothing of it is left. `Spent r left k` says that it has nothing more to get
under `k`; no later draw undoes that.
-/

namespace AgentBack

universe u v

variable {κ : Type u} {Q : Type v} [AddCommGroup Q]

/-- The quantity that a log of draws takes. -/
def takenInAll (log : List (κ × Q)) : Q := (log.map Prod.snd).sum

@[simp] theorem takenInAll_nil : takenInAll ([] : List (κ × Q)) = 0 := rfl

@[simp] theorem takenInAll_cons (d : κ × Q) (log : List (κ × Q)) :
    takenInAll (d :: log) = d.2 + takenInAll log := by
  simp only [takenInAll, List.map_cons, List.sum_cons]

@[simp] theorem takenInAll_append (log log' : List (κ × Q)) :
    takenInAll (log ++ log') = takenInAll log + takenInAll log' := by
  simp only [takenInAll, List.map_append, List.sum_append]

variable [DecidableEq κ]

/-- The quantity under a key; a key without an entry has none. -/
def onHand (residual : Dict κ Q) (k : κ) : Q := residual.getD k 0

/-- The quantity that a log of draws takes under a key. -/
def takenUnder (k : κ) (log : List (κ × Q)) : Q :=
  ((log.filter fun d => d.1 = k).map Prod.snd).sum

theorem onHand_set (residual : Dict κ Q) (k k' : κ) (q : Q) :
    onHand (residual.set k q) k' = if k = k' then q else onHand residual k' := by
  unfold onHand Dict.getD
  rw [Dict.get?_set]
  split <;> rfl

@[simp] theorem takenUnder_nil (k : κ) : takenUnder k ([] : List (κ × Q)) = 0 := rfl

theorem takenUnder_cons (k : κ) (d : κ × Q) (log : List (κ × Q)) :
    takenUnder k (d :: log) = (if d.1 = k then d.2 else 0) + takenUnder k log := by
  unfold takenUnder
  by_cases h : d.1 = k
  · simp only [List.filter_cons, h, decide_true, if_true, List.map_cons, List.sum_cons]
  · simp only [List.filter_cons, h, decide_false, Bool.false_eq_true, if_false, zero_add]

theorem takenUnder_append (k : κ) (log log' : List (κ × Q)) :
    takenUnder k (log ++ log') = takenUnder k log + takenUnder k log' := by
  simp only [takenUnder, List.filter_append, List.map_append, List.sum_append]

theorem takenUnder_eq_zero {k : κ} {log : List (κ × Q)} (h : ∀ d ∈ log, d.1 ≠ k) :
    takenUnder k log = 0 := by
  have hnone : log.filter (fun d => d.1 = k) = [] :=
    List.filter_eq_nil_iff.mpr fun d hd => by simpa using h d hd
  rw [takenUnder, hnone, List.map_nil, List.sum_nil]

variable [LinearOrder Q]

theorem takenUnder_pos [IsOrderedAddMonoid Q] {log : List (κ × Q)} (hpos : ∀ d ∈ log, 0 < d.2)
    {d : κ × Q} (hd : d ∈ log) : 0 < takenUnder d.1 log := by
  have hmem : d.2 ∈ (log.filter fun e => e.1 = d.1).map Prod.snd :=
    List.mem_map.mpr ⟨d, List.mem_filter.mpr ⟨hd, by simp⟩, rfl⟩
  have hall : ∀ q ∈ (log.filter fun e => e.1 = d.1).map Prod.snd, 0 ≤ q := by
    intro q hq
    obtain ⟨e, he, rfl⟩ := List.mem_map.mp hq
    exact le_of_lt (hpos e (List.mem_filter.mp he).1)
  exact lt_of_lt_of_le (hpos d hd) (List.single_le_sum hall _ hmem)

/-- A stock becomes another one by the draws of the log. -/
inductive Draws : Dict κ Q → List (κ × Q) → Dict κ Q → Prop where
  | nil (residual : Dict κ Q) : Draws residual [] residual
  | cons {residual residual' : Dict κ Q} {k : κ} {take : Q} {log : List (κ × Q)}
      (positive : 0 < take) (covered : take ≤ onHand residual k)
      (rest : Draws (residual.set k (onHand residual k - take)) log residual') :
      Draws residual ((k, take) :: log) residual'

namespace Draws

variable {residual residual' residual'' : Dict κ Q} {log log' : List (κ × Q)}

theorem one {k : κ} {take : Q} (positive : 0 < take) (covered : take ≤ onHand residual k) :
    Draws residual [(k, take)] (residual.set k (onHand residual k - take)) :=
  .cons positive covered (.nil _)

section

variable (h : Draws residual log residual')
include h

theorem append (h' : Draws residual' log' residual'') :
    Draws residual (log ++ log') residual'' := by
  induction h with
  | nil => exact h'
  | cons positive covered _ ih => exact .cons positive covered (ih h')

theorem positive : ∀ d ∈ log, 0 < d.2 := by
  induction h with
  | nil =>
    intro d hd
    cases hd
  | cons positive _ _ ih =>
    intro d hd
    rcases List.mem_cons.mp hd with rfl | hd
    · exact positive
    · exact ih d hd

/-- Nothing is lost and nothing is made: the law of the stock, for every key. -/
theorem onHand_add_taken (k : κ) :
    onHand residual' k + takenUnder k log = onHand residual k := by
  induction h with
  | nil => rw [takenUnder_nil, add_zero]
  | @cons residual residual' k₀ take log _ _ _ ih =>
    rw [takenUnder_cons, add_left_comm, ih, onHand_set]
    by_cases hk : k₀ = k
    · subst hk
      rw [if_pos rfl, if_pos rfl, add_sub_cancel]
    · rw [if_neg hk, if_neg hk, zero_add]

/-- Nothing is drawn where nothing is on hand. -/
theorem onHand_of_nonpos {k : κ} (hk : onHand residual k ≤ 0) :
    onHand residual' k = onHand residual k := by
  induction h with
  | nil => rfl
  | @cons residual residual' k₀ take log positive covered _ ih =>
    have hne : k₀ ≠ k := by
      rintro rfl
      exact absurd (lt_of_lt_of_le positive covered) (not_lt.mpr hk)
    have hsame : onHand (residual.set k₀ (onHand residual k₀ - take)) k = onHand residual k := by
      rw [onHand_set, if_neg hne]
    rw [ih (hsame ▸ hk), hsame]

end

variable [IsOrderedAddMonoid Q]

variable (h : Draws residual log residual')
include h

theorem takenInAll_nonneg : 0 ≤ takenInAll log := by
  apply List.sum_nonneg
  intro q hq
  obtain ⟨d, hd, rfl⟩ := List.mem_map.mp hq
  exact le_of_lt (h.positive d hd)

/-- A stock that is not negative stays so. -/
theorem onHand_nonneg {k : κ} (hk : 0 ≤ onHand residual k) :
    0 ≤ onHand residual' k := by
  induction h with
  | nil => exact hk
  | @cons residual residual' k₀ take log _ covered _ ih =>
    apply ih
    rw [onHand_set]
    split
    · exact sub_nonneg.mpr covered
    · exact hk

/-- What is taken under a key is at most what was on hand, and nothing when that was negative. -/
theorem takenUnder_le (k : κ) :
    takenUnder k log ≤ max 0 (onHand residual k) := by
  have hlaw := h.onHand_add_taken k
  rcases le_total 0 (onHand residual k) with hk | hk
  · have hleft := h.onHand_nonneg hk
    apply le_max_of_le_right
    rw [← hlaw]
    exact le_add_of_nonneg_left hleft
  · rw [h.onHand_of_nonpos hk] at hlaw
    apply le_max_of_le_left
    exact le_of_eq (add_eq_left.mp hlaw)

theorem onHand_le (k : κ) :
    onHand residual' k ≤ onHand residual k := by
  induction h with
  | nil => exact le_refl _
  | @cons residual residual' k₀ take log positive _ _ ih =>
    apply le_trans ih
    rw [onHand_set]
    split
    · next hk => exact hk ▸ sub_le_self _ (le_of_lt positive)
    · exact le_refl _

/-- All that is drawn is no more than all that was on hand. -/
theorem takenInAll_le :
    takenInAll log ≤ (residual.values.map (max 0)).sum := by
  induction h with
  | nil residual =>
    apply List.sum_nonneg
    intro q hq
    obtain ⟨value, -, rfl⟩ := List.mem_map.mp hq
    exact le_max_left 0 value
  | @cons residual residual' k take log positive covered _ ih =>
    have hon := le_trans (le_of_lt positive) covered
    have hset := residual.sum_values_set k (onHand residual k - take) (max 0) 0 (max_self 0)
    have hthere : max 0 (residual.getD k 0) = onHand residual k := max_eq_right hon
    rw [hthere, max_eq_right (sub_nonneg.mpr covered), add_sub, eq_sub_iff_add_eq, add_right_comm,
      add_left_inj] at hset
    rw [takenInAll_cons, ← hset, add_comm]
    exact add_le_add_left ih take

/-- A key that is drawn from has something on hand at the start. -/
theorem onHand_pos {d : κ × Q} (hd : d ∈ log) :
    0 < onHand residual d.1 := by
  by_contra hnone
  have hzero := h.takenUnder_le d.1
  rw [max_eq_left (not_lt.mp hnone)] at hzero
  exact absurd (takenUnder_pos h.positive hd) (not_lt.mpr hzero)

end Draws

/-! ## A demand -/

/-- A demand with `left` to cover has nothing more to get under the key. -/
def Spent (residual : Dict κ Q) (left : Q) (k : κ) : Prop := left ≤ 0 ∨ onHand residual k ≤ 0

/-- The draws of one demand: they cover what it has less to cover, and never too much. -/
structure Serves (residual : Dict κ Q) (left : Q) (log : List (κ × Q)) (residual' : Dict κ Q)
    (left' : Q) : Prop where
  draws : Draws residual log residual'
  balance : left' + takenInAll log = left
  nonneg : 0 ≤ left → 0 ≤ left'

namespace Serves

variable {residual residual' residual'' : Dict κ Q} {left left' left'' : Q}
  {log log' : List (κ × Q)}

theorem refl (residual : Dict κ Q) (left : Q) : Serves residual left [] residual left :=
  ⟨.nil _, add_zero _, id⟩

theorem trans (h : Serves residual left log residual' left')
    (h' : Serves residual' left' log' residual'' left'') :
    Serves residual left (log ++ log') residual'' left'' where
  draws := h.draws.append h'.draws
  balance := by rw [takenInAll_append, add_comm (takenInAll log), ← add_assoc, h'.balance, h.balance]
  nonneg hleft := h'.nonneg (h.nonneg hleft)

/-- After that draw the demand has nothing more to get under the key. -/
theorem spent_pull (residual : Dict κ Q) (left : Q) (k : κ) :
    Spent (residual.set k (onHand residual k - min left (onHand residual k)))
      (left - min left (onHand residual k)) k := by
  unfold Spent
  rw [onHand_set, if_pos rfl]
  rcases le_total left (onHand residual k) with h | h
  · left
    rw [min_eq_left h, sub_self]
  · right
    rw [min_eq_right h, sub_self]

variable [IsOrderedAddMonoid Q]

/-- One draw: as much as is asked for and on hand. -/
theorem pull {k : κ} (hleft : 0 < left) (hon : 0 < onHand residual k) :
    Serves residual left [(k, min left (onHand residual k))]
      (residual.set k (onHand residual k - min left (onHand residual k)))
      (left - min left (onHand residual k)) where
  draws := .one (lt_min hleft hon) (min_le_right _ _)
  balance := by rw [takenInAll_cons, takenInAll_nil, add_zero, sub_add_cancel]
  nonneg _ := sub_nonneg.mpr (min_le_left _ _)

theorem left_le (h : Serves residual left log residual' left') : left' ≤ left := by
  rw [← h.balance]
  exact le_add_of_nonneg_right h.draws.takenInAll_nonneg

/-- A demand never gets more to draw under a key again. -/
theorem spent (h : Serves residual left log residual' left') {k : κ} (hk : Spent residual left k) :
    Spent residual' left' k := by
  rcases hk with hleft | hon
  · exact .inl (le_trans h.left_le hleft)
  · exact .inr (le_trans (h.draws.onHand_le k) hon)

end Serves

end AgentBack

/-!
# Draws against quotas

A dictionary keeps what was consumed under each key, and a draw takes a positive quantity under a
key as long as the whole stays within a quota of the key. `Rations quota c log c'` says that the
draws of `log`, in this order, turn `c` into `c'`. A key may have several quotas: then the largest
one counts (`Rations.bounded`).
-/

namespace AgentBack

universe u v

/-- A step that a relation allows, for every item of a list, is allowed for the whole list. -/
theorem foldl_related {σ : Type u} {ι : Type v} {R : σ → σ → Prop} (refl : ∀ s, R s s)
    (trans : ∀ {s s' s''}, R s s' → R s' s'' → R s s'') {step : σ → ι → σ} {items : List ι}
    (h : ∀ item ∈ items, ∀ s, R s (step s item)) (s : σ) : R s (items.foldl step s) := by
  induction items generalizing s with
  | nil => exact refl s
  | cons item rest ih =>
    rw [List.foldl_cons]
    apply trans (h item (.head _) s)
    apply ih
    intro item' hitem'
    exact h item' (.tail _ hitem')

variable {κ : Type u} {Q : Type v} [AddCommGroup Q] [LinearOrder Q] [DecidableEq κ]

/-- Consumptions become others by the draws of the log, each within a quota of its key. -/
inductive Rations (quota : κ → Q → Prop) : Dict κ Q → List (κ × Q) → Dict κ Q → Prop where
  | nil (consumed : Dict κ Q) : Rations quota consumed [] consumed
  | cons {consumed consumed' : Dict κ Q} {k : κ} {take q : Q} {log : List (κ × Q)}
      (positive : 0 < take) (has : quota k q) (within : onHand consumed k + take ≤ q)
      (rest : Rations quota (consumed.set k (onHand consumed k + take)) log consumed') :
      Rations quota consumed ((k, take) :: log) consumed'

namespace Rations

variable {quota : κ → Q → Prop} {consumed consumed' consumed'' : Dict κ Q} {log log' : List (κ × Q)}

theorem one {k : κ} {take q : Q} (positive : 0 < take) (has : quota k q)
    (within : onHand consumed k + take ≤ q) :
    Rations quota consumed [(k, take)] (consumed.set k (onHand consumed k + take)) :=
  .cons positive has within (.nil _)

section

variable (h : Rations quota consumed log consumed')
include h

theorem append (h' : Rations quota consumed' log' consumed'') :
    Rations quota consumed (log ++ log') consumed'' := by
  induction h with
  | nil => exact h'
  | cons positive has within _ ih => exact .cons positive has within (ih h')

theorem onHand_eq (k : κ) :
    onHand consumed' k = onHand consumed k + takenUnder k log := by
  induction h with
  | nil => rw [takenUnder_nil, add_zero]
  | @cons consumed consumed' k₀ take q log _ _ _ _ ih =>
    rw [ih, onHand_set, takenUnder_cons]
    by_cases hk : k₀ = k
    · subst hk
      rw [if_pos rfl, if_pos rfl, add_assoc]
    · rw [if_neg hk, if_neg hk, zero_add]

/-- Where something is taken, the whole is within a quota. -/
theorem bounded (k : κ) :
    onHand consumed' k = onHand consumed k ∨ ∃ q, quota k q ∧ onHand consumed' k ≤ q := by
  induction h with
  | nil => exact .inl rfl
  | @cons consumed consumed' k₀ take q log _ has within _ ih =>
    rcases ih with ih | ih
    · rw [ih, onHand_set]
      by_cases hk : k₀ = k
      · subst hk
        rw [if_pos rfl]
        exact .inr ⟨q, has, within⟩
      · rw [if_neg hk]
        exact .inl rfl
    · exact .inr ih

end

/-- From nothing, what is taken under a key is within a quota of the key. -/
theorem takenUnder_le (h : Rations quota ∅ log consumed') {k : κ} (hk : takenUnder k log ≠ 0) :
    ∃ q, quota k q ∧ takenUnder k log ≤ q := by
  have hnone : onHand (∅ : Dict κ Q) k = 0 := rfl
  have hlaw := h.onHand_eq k
  rw [hnone, zero_add] at hlaw
  rcases h.bounded k with hsame | hquota
  · rw [hnone, hlaw] at hsame
    exact absurd hsame hk
  · rw [hlaw] at hquota
    exact hquota

theorem takenUnder_nonneg [IsOrderedAddMonoid Q] (h : Rations quota consumed log consumed') (k : κ) :
    0 ≤ takenUnder k log := by
  induction h with
  | nil => exact le_refl _
  | @cons consumed consumed' k₀ take q log positive _ _ _ ih =>
    rw [takenUnder_cons]
    apply add_nonneg _ ih
    split
    · exact le_of_lt positive
    · exact le_refl _

end Rations

end AgentBack
