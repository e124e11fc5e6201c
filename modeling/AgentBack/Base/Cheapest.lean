import Mathlib.Algebra.Order.BigOperators.Group.List
import Mathlib.Tactic.Linarith
import Mathlib.Tactic.Ring

/-!
# Buying from the cheapest offers first

An offer has a price and an available quantity, and `takeFirst` takes of the offers in turn what is
still needed. It gets the smaller of what is needed and what is available (`sum_takeFirst`), and when
the offers are in the order of their prices no other choice of as much is cheaper
(`cost_takeFirst_le`). The proof compares both with one price `p`: a choice of `n` costs at least
`p * n` less what the offers below `p` save (`le_cost`), and the purchase costs just that for the price
of its last offer (`cost_takeFirst`).
-/

namespace AgentBack

universe u v

section Cheapest

variable {ι : Type u} {Q : Type v} [CommRing Q]

def cost (price : ι → Q) (choice : List (ι × Q)) : Q :=
  (choice.map fun taken => taken.2 * price taken.1).sum

def amount (choice : List (ι × Q)) : Q := (choice.map Prod.snd).sum

variable {price available : ι → Q}

theorem cost_cons (taken : ι × Q) (rest : List (ι × Q)) :
    cost price (taken :: rest) = taken.2 * price taken.1 + cost price rest := by
  unfold cost
  rw [List.map_cons, List.sum_cons]

theorem amount_cons (taken : ι × Q) (rest : List (ι × Q)) :
    amount (taken :: rest) = taken.2 + amount rest := by
  unfold amount
  rw [List.map_cons, List.sum_cons]

variable [LinearOrder Q]

def takeFirst (available : ι → Q) : Q → List ι → List (ι × Q)
  | _, [] => []
  | need, offer :: rest =>
    (offer, min need (available offer)) ::
      takeFirst available (need - min need (available offer)) rest

/-- A quantity of each offer, not more than it has. -/
structure Choice (available : ι → Q) (offers : List ι) (choice : List (ι × Q)) : Prop where
  offers : (choice.map Prod.fst).Perm offers
  within : ∀ taken ∈ choice, 0 ≤ taken.2 ∧ taken.2 ≤ available taken.1

/-- What the offers below a price save when all of them is bought. -/
def saving (price available : ι → Q) (p : Q) (offers : List ι) : Q :=
  (offers.map fun offer => min (price offer - p) 0 * available offer).sum

theorem map_fst_takeFirst (need : Q) (offers : List ι) :
    (takeFirst available need offers).map Prod.fst = offers := by
  induction offers generalizing need with
  | nil => rfl
  | cons offer rest ih => rw [takeFirst, List.map_cons, ih]

theorem saving_cons (p : Q) (offer : ι) (rest : List ι) :
    saving price available p (offer :: rest) =
      min (price offer - p) 0 * available offer + saving price available p rest := by
  unfold saving
  rw [List.map_cons, List.sum_cons]

section

variable {offers : List ι} (havailable : ∀ offer ∈ offers, 0 ≤ available offer)
include havailable

/-- When nothing is needed, nothing is paid. -/
theorem cost_takeFirst_zero :
    cost price (takeFirst available 0 offers) = 0 := by
  induction offers with
  | nil => rfl
  | cons offer rest ih =>
    have hnone := min_eq_left (havailable offer (.head _))
    rw [takeFirst, cost_cons, hnone, sub_zero,
      ih fun other hother => havailable other (List.mem_cons_of_mem offer hother), zero_mul, add_zero]

theorem amount_takeFirst_zero :
    amount (takeFirst available 0 offers) = 0 := by
  induction offers with
  | nil => rfl
  | cons offer rest ih =>
    have hnone := min_eq_left (havailable offer (.head _))
    rw [takeFirst, amount_cons, hnone, sub_zero,
      ih fun other hother => havailable other (List.mem_cons_of_mem offer hother), add_zero]

end

variable [IsStrictOrderedRing Q]

section

variable {need : Q} (hneed : 0 ≤ need) {offers : List ι}
  (havailable : ∀ offer ∈ offers, 0 ≤ available offer)
include hneed havailable

theorem sum_takeFirst :
    amount (takeFirst available need offers) = min need (offers.map available).sum := by
  induction offers generalizing need with
  | nil => exact (min_eq_right hneed).symm
  | cons offer rest ih =>
    have hfirst := havailable offer (.head _)
    have hrest := fun other hother => havailable other (List.mem_cons_of_mem offer hother)
    have hsum : 0 ≤ (rest.map available).sum := by
      refine List.sum_nonneg fun q hq => ?_
      obtain ⟨other, hother, rfl⟩ := List.mem_map.mp hq
      exact hrest other hother
    have htail := ih (sub_nonneg.mpr (min_le_left need (available offer))) hrest
    rw [takeFirst, amount_cons, htail, List.map_cons, List.sum_cons]
    rcases le_total need (available offer) with hle | hle
    · rw [min_eq_left hle, sub_self, min_eq_left hsum, add_zero]
      exact (min_eq_left (hle.trans (le_add_of_nonneg_right hsum))).symm
    · rw [min_eq_right hle, ← min_add_add_left, add_sub_cancel]

theorem choice_takeFirst :
    Choice available offers (takeFirst available need offers) := by
  refine ⟨by rw [map_fst_takeFirst], ?_⟩
  induction offers generalizing need with
  | nil => exact fun taken htaken => absurd htaken List.not_mem_nil
  | cons offer rest ih =>
    intro taken htaken
    rcases List.mem_cons.mp htaken with rfl | htaken
    · exact ⟨le_min hneed (havailable offer (.head _)), min_le_right _ _⟩
    · exact ih (sub_nonneg.mpr (min_le_left _ _))
        (fun other hother => havailable other (List.mem_cons_of_mem offer hother)) taken htaken

end

/-- What a choice costs at least, compared with one price. -/
theorem le_cost (p : Q) {offers : List ι} {choice : List (ι × Q)}
    (hchoice : Choice available offers choice) :
    p * amount choice + saving price available p offers ≤ cost price choice := by
  obtain ⟨hperm, hwithin⟩ := hchoice
  have hsaving : saving price available p offers =
      saving price available p (choice.map Prod.fst) := by
    unfold saving
    exact ((hperm.map _).sum_eq).symm
  rw [hsaving]
  clear hsaving hperm
  induction choice with
  | nil => simp [amount, cost, saving]
  | cons taken rest ih =>
    have htail := ih fun other hother => hwithin other (List.mem_cons_of_mem taken hother)
    obtain ⟨hnonneg, hle⟩ := hwithin taken (.head _)
    have hone : p * taken.2 + min (price taken.1 - p) 0 * available taken.1 ≤
        taken.2 * price taken.1 := by
      rcases le_total (price taken.1 - p) 0 with hcheap | hdear
      · rw [min_eq_left hcheap]
        have := mul_le_mul_of_nonpos_left hle hcheap
        linarith
      · rw [min_eq_right hdear]
        have := mul_nonneg hdear hnonneg
        linarith
    rw [amount_cons, cost_cons, List.map_cons, saving_cons]
    linarith

/-- Offers that are not below a price save nothing. -/
theorem saving_eq_zero {p : Q} {offers : List ι} (h : ∀ offer ∈ offers, p ≤ price offer) :
    saving price available p offers = 0 := by
  induction offers with
  | nil => rfl
  | cons offer rest ih =>
    have hrest := fun other hother => h other (List.mem_cons_of_mem offer hother)
    rw [saving_cons, ih hrest, min_eq_right (sub_nonneg.mpr (h offer (.head _))),
      zero_mul, add_zero]

variable {need : Q} (hneed : 0 ≤ need) {offers : List ι}
  (havailable : ∀ offer ∈ offers, 0 ≤ available offer)
  (hsorted : offers.Pairwise fun a b => price a ≤ price b)
include hneed havailable hsorted

/-- Cheapest first, the purchase costs what its last price says. -/
theorem cost_takeFirst :
    ∃ p, (∀ offer, offers.head? = some offer → price offer ≤ p) ∧
      cost price (takeFirst available need offers) =
        p * amount (takeFirst available need offers) + saving price available p offers := by
  induction offers generalizing need with
  | nil => exact ⟨0, fun offer hoffer => (by cases hoffer), by simp [takeFirst, cost, amount, saving]⟩
  | cons offer rest ih =>
    obtain ⟨hfirst, hsorted⟩ := List.pairwise_cons.mp hsorted
    have hrest := fun other hother => havailable other (List.mem_cons_of_mem offer hother)
    have hhead : ∀ p, price offer ≤ p → ∀ other, (offer :: rest).head? = some other →
        price other ≤ p :=
      fun p hle other hother => (Option.some.inj hother) ▸ hle
    rw [takeFirst, cost_cons, amount_cons]
    -- the price is that of the first offer when it has all that is needed, or no offer follows it
    have hlast : min need (available offer) = need ∨ rest = [] →
        min need (available offer) * price offer +
            cost price (takeFirst available (need - min need (available offer)) rest) =
          price offer * (min need (available offer) +
              amount (takeFirst available (need - min need (available offer)) rest)) +
            saving price available (price offer) (offer :: rest) := by
      intro hend
      have hnone : cost price (takeFirst available (need - min need (available offer)) rest) = 0 ∧
          amount (takeFirst available (need - min need (available offer)) rest) = 0 := by
        rcases hend with hall | rfl
        · rw [hall, sub_self]
          exact ⟨cost_takeFirst_zero hrest, amount_takeFirst_zero hrest⟩
        · exact ⟨rfl, rfl⟩
      rw [hnone.1, hnone.2, saving_eq_zero fun other hother => by
        rcases List.mem_cons.mp hother with rfl | hother
        · exact le_refl _
        · exact hfirst other hother]
      ring
    rcases le_total need (available offer) with hle | hle
    · exact ⟨price offer, hhead _ (le_refl _), hlast (.inl (min_eq_left hle))⟩
    cases rest with
    | nil => exact ⟨price offer, hhead _ (le_refl _), hlast (.inr rfl)⟩
    | cons second others =>
      obtain ⟨p, hp, hcost⟩ := ih (sub_nonneg.mpr (min_le_left need (available offer))) hrest hsorted
      have hle' : price offer ≤ p := (hfirst second (.head _)).trans (hp second rfl)
      refine ⟨p, hhead p hle', ?_⟩
      rw [hcost, saving_cons p offer, min_eq_right hle, min_eq_left (sub_nonpos.mpr hle')]
      ring

theorem cost_takeFirst_le {choice : List (ι × Q)} (hchoice : Choice available offers choice)
    (hamount : amount choice = amount (takeFirst available need offers)) :
    cost price (takeFirst available need offers) ≤ cost price choice := by
  obtain ⟨p, -, hcost⟩ := cost_takeFirst hneed havailable hsorted
  calc cost price (takeFirst available need offers)
      = p * amount choice + saving price available p offers := by rw [hcost, hamount]
    _ ≤ cost price choice := le_cost p hchoice

end Cheapest

end AgentBack
