import AgentBack.Base.Draw
import Mathlib.Algebra.Order.Monoid.Unbundled.MinMax

/-!
# Greedy draws

A demand goes through a list of offers, each a quantity under a key, and takes of each what it still
needs and what the offer has left. When the keys of the offers are distinct the order of the offers
does not matter: the demand gets the smaller of what it needs and what is left in all
(`fst_drawAll`), and that much less is left then (`supply_drawAll`).
-/

namespace AgentBack

universe u v

variable {κ : Type u} {Q : Type v} [AddCommGroup Q] [LinearOrder Q] [DecidableEq κ]

variable (consumed : Dict κ Q)

def leftOf (offer : κ × Q) : Q := max 0 (offer.2 - onHand consumed offer.1)

def draw (s : Q × Dict κ Q) (offer : κ × Q) : Q × Dict κ Q :=
  if s.1 ≤ 0 ∨ leftOf s.2 offer ≤ 0 then s
  else (s.1 - min s.1 (leftOf s.2 offer),
    s.2.set offer.1 (onHand s.2 offer.1 + min s.1 (leftOf s.2 offer)))

def drawAll (s : Q × Dict κ Q) (offers : List (κ × Q)) : Q × Dict κ Q := offers.foldl draw s

def supply (offers : List (κ × Q)) : Q := (offers.map (leftOf consumed)).sum

@[simp] theorem supply_nil : supply consumed [] = 0 := rfl

@[simp] theorem supply_cons (offer : κ × Q) (offers : List (κ × Q)) :
    supply consumed (offer :: offers) = leftOf consumed offer + supply consumed offers := by
  unfold supply
  rw [List.map_cons, List.sum_cons]

theorem leftOf_nonneg (offer : κ × Q) : 0 ≤ leftOf consumed offer :=
  le_max_left _ _

/-- The supply depends on what is consumed under the keys of the offers only. -/
theorem supply_congr {consumed consumed' : Dict κ Q} {offers : List (κ × Q)}
    (h : ∀ offer ∈ offers, onHand consumed offer.1 = onHand consumed' offer.1) :
    supply consumed offers = supply consumed' offers := by
  unfold supply
  congr 1
  apply List.map_congr_left
  intro offer hoffer
  unfold leftOf
  rw [h offer hoffer]

theorem fst_draw {s : Q × Dict κ Q} (h : 0 ≤ s.1) (offer : κ × Q) :
    (draw s offer).1 = s.1 - min s.1 (leftOf s.2 offer) := by
  unfold draw
  split
  · next hclosed =>
    have hzero : min s.1 (leftOf s.2 offer) = 0 := by
      apply le_antisymm
      · rcases hclosed with hneed | hleft
        · exact min_le_of_left_le hneed
        · exact min_le_of_right_le hleft
      · exact le_min h (leftOf_nonneg _ _)
    rw [hzero, sub_zero]
  · rfl

theorem onHand_draw {s : Q × Dict κ Q} (h : 0 ≤ s.1) (offer : κ × Q) (k : κ) :
    onHand (draw s offer).2 k =
      onHand s.2 k + if offer.1 = k then min s.1 (leftOf s.2 offer) else 0 := by
  unfold draw
  split
  · next hclosed =>
    have hzero : min s.1 (leftOf s.2 offer) = 0 := by
      apply le_antisymm
      · rcases hclosed with hneed | hleft
        · exact min_le_of_left_le hneed
        · exact min_le_of_right_le hleft
      · exact le_min h (leftOf_nonneg _ _)
    rw [hzero, ite_self, add_zero]
  · rw [onHand_set]
    by_cases hk : offer.1 = k
    · subst hk
      rw [if_pos rfl, if_pos rfl]
    · rw [if_neg hk, if_neg hk, add_zero]

/-- A demand for nothing takes nothing. -/
theorem drawAll_of_nonpos {s : Q × Dict κ Q} (h : s.1 ≤ 0) (offers : List (κ × Q)) :
    drawAll s offers = s := by
  induction offers with
  | nil => rfl
  | cons offer rest ih =>
    have hsame : draw s offer = s := if_pos (.inl h)
    change drawAll (draw s offer) rest = s
    rw [hsame, ih]

variable [IsOrderedAddMonoid Q]

section

variable {s : Q × Dict κ Q} (h : 0 ≤ s.1)
include h

theorem fst_draw_nonneg (offer : κ × Q) :
    0 ≤ (draw s offer).1 := by
  rw [fst_draw h]
  exact sub_nonneg.mpr (min_le_left _ _)

/-- Nothing is consumed under other keys. -/
theorem onHand_drawAll_of_not_mem {offers : List (κ × Q)} {k : κ}
    (hk : ∀ offer ∈ offers, offer.1 ≠ k) : onHand (drawAll s offers).2 k = onHand s.2 k := by
  induction offers generalizing s with
  | nil => rfl
  | cons offer rest ih =>
    have hrest := ih (fst_draw_nonneg h offer) fun o ho => hk o (.tail _ ho)
    change onHand (drawAll (draw s offer) rest).2 k = _
    rw [hrest, onHand_draw h, if_neg (hk offer (.head _)), add_zero]

theorem le_onHand_drawAll (offers : List (κ × Q)) (k : κ) :
    onHand s.2 k ≤ onHand (drawAll s offers).2 k := by
  induction offers generalizing s with
  | nil => exact le_refl _
  | cons offer rest ih =>
    refine le_trans ?_ (ih (fst_draw_nonneg h offer))
    rw [onHand_draw h]
    apply le_add_of_nonneg_right
    split
    · exact le_min h (leftOf_nonneg _ _)
    · exact le_refl _

end

/-- A demand that meets the same consumption under the keys of its offers takes the same. -/
theorem drawAll_congr {s s' : Q × Dict κ Q} (h : 0 ≤ s.1) (hneed : s.1 = s'.1)
    {offers : List (κ × Q)} {P : κ → Prop} (hkeys : ∀ offer ∈ offers, P offer.1)
    (hsame : ∀ k, P k → onHand s.2 k = onHand s'.2 k) :
    (drawAll s offers).1 = (drawAll s' offers).1 ∧
      ∀ k, P k → onHand (drawAll s offers).2 k = onHand (drawAll s' offers).2 k := by
  induction offers generalizing s s' with
  | nil => exact ⟨hneed, hsame⟩
  | cons offer rest ih =>
    have hleft : leftOf s.2 offer = leftOf s'.2 offer := by
      unfold leftOf
      rw [hsame offer.1 (hkeys offer (.head _))]
    have h' : 0 ≤ s'.1 := hneed ▸ h
    apply ih (fst_draw_nonneg h offer)
    · rw [fst_draw h, fst_draw h', hneed, hleft]
    · intro o ho
      exact hkeys o (.tail _ ho)
    · intro k hk
      rw [onHand_draw h, onHand_draw h', hsame k hk, hneed, hleft]

theorem leftOf_add {consumed consumed' : Dict κ Q} {offer : κ × Q} {take : Q}
    (htake : take ≤ leftOf consumed offer) (hsign : 0 ≤ take)
    (hset : onHand consumed' offer.1 = onHand consumed offer.1 + take) :
    leftOf consumed' offer = leftOf consumed offer - take := by
  unfold leftOf at htake ⊢
  rw [hset, ← sub_sub]
  generalize offer.2 - onHand consumed offer.1 = left at htake ⊢
  rcases le_total 0 left with hleft | hleft
  · rw [max_eq_right hleft] at htake ⊢
    rw [max_eq_right (sub_nonneg.mpr htake)]
  · rw [max_eq_left hleft] at htake ⊢
    have hzero : take = 0 := le_antisymm htake hsign
    rw [hzero, sub_zero, max_eq_left hleft, sub_zero]

/-- A demand gets the smaller of what it needs and what is left, and that much less is left. -/
theorem drawAll_supply {s : Q × Dict κ Q} (h : 0 ≤ s.1) {offers : List (κ × Q)}
    (hkeys : (offers.map Prod.fst).Nodup) :
    (drawAll s offers).1 = s.1 - min s.1 (supply s.2 offers) ∧
      supply (drawAll s offers).2 offers = supply s.2 offers - min s.1 (supply s.2 offers) := by
  induction offers generalizing s with
  | nil =>
    have hzero : min s.1 (supply s.2 ([] : List (κ × Q))) = 0 := min_eq_right h
    rw [hzero, sub_zero, sub_zero]
    exact ⟨rfl, rfl⟩
  | cons offer rest ih =>
    rw [List.map_cons, List.nodup_cons] at hkeys
    obtain ⟨hfresh, hrest⟩ := hkeys
    have hother : ∀ o ∈ rest, o.1 ≠ offer.1 := by
      intro o ho he
      exact hfresh (List.mem_map.mpr ⟨o, ho, he⟩)
    obtain ⟨hneed, hsupply⟩ := ih (fst_draw_nonneg h offer) hrest
    have htake : 0 ≤ min s.1 (leftOf s.2 offer) := le_min h (leftOf_nonneg _ _)
    have hsame : supply (draw s offer).2 rest = supply s.2 rest := by
      apply supply_congr
      intro o ho
      rw [onHand_draw h, if_neg (hother o ho).symm, add_zero]
    have hleft : leftOf (draw s offer).2 offer = leftOf s.2 offer - min s.1 (leftOf s.2 offer) := by
      apply leftOf_add (min_le_right _ _) htake
      rw [onHand_draw h, if_pos rfl]
    have hkept : leftOf (drawAll (draw s offer) rest).2 offer = leftOf (draw s offer).2 offer := by
      unfold leftOf
      rw [onHand_drawAll_of_not_mem (fst_draw_nonneg h offer) hother]
    have hsign : 0 ≤ supply s.2 rest := by
      apply List.sum_nonneg
      intro q hq
      obtain ⟨o, -, rfl⟩ := List.mem_map.mp hq
      exact leftOf_nonneg _ _
    -- what the first offer gives and what the others give make up what all give
    have hmin : min s.1 (leftOf s.2 offer + supply s.2 rest) = min s.1 (leftOf s.2 offer) +
        min (s.1 - min s.1 (leftOf s.2 offer)) (supply s.2 rest) := by
      rcases le_total s.1 (leftOf s.2 offer) with hle | hle
      · rw [min_eq_left hle, sub_self, min_eq_left hsign, add_zero]
        exact min_eq_left (le_trans hle (le_add_of_nonneg_right hsign))
      · rw [min_eq_right hle, ← min_add_add_left, add_sub_cancel]
    rw [fst_draw h, hsame] at hneed hsupply
    change (drawAll (draw s offer) rest).1 = _ ∧ supply (drawAll (draw s offer) rest).2 _ = _
    rw [supply_cons, supply_cons, hkept, hleft, hneed, hsupply, hmin]
    constructor
    · rw [sub_sub]
    · rw [add_sub_add_comm]

end AgentBack
