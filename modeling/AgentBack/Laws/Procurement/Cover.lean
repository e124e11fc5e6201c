import AgentBack.Base.Cheapest
import AgentBack.Laws.Procurement.Ranking

/-!
# What a purchase keeps of the offers

The loop of `greedyCoverCost` comes to the offers in turn (`coverTurns`), and its variables are sums
over the turns (`coverOffers_eq`). What is bought at a turn is no more than the offer has and no less
than its minimal order. It is a whole number of lots unless the minimal order is what is bought and
is no such number itself (`Turn.Splits`), so the cover is feasible exactly when no turn is like that
(`greedyCoverCost_feasible_iff`).

Without lots and minimal orders a turn takes what is still needed or all there is, which is
`takeFirst` on the offers in the order of their prices; then nothing covers as much for less
(`greedyCoverCost_cheapest`).
-/

namespace AgentBack.Procurement

/-! ## The turns of the loop -/

/-- What is bought of an offer when `left` is still needed; 0 when the offer is passed over. -/
def CoverRow.bought (row : CoverRow) (left : ℚ) : ℚ :=
  if row.minOrder > 0 ∧ row.purchase left < row.minOrder then 0 else max 0 (row.purchase left)

/-- An offer that the loop comes to, and what is needed then. -/
structure Turn where
  row : CoverRow
  left : ℚ

def Turn.bought (turn : Turn) : ℚ := turn.row.bought turn.left

def Turn.used (turn : Turn) : ℚ := min turn.left turn.bought

def turnsOf : List CoverRow → ℚ → List Turn
  | [], _ => []
  | row :: rest, left =>
    if left ≤ 0 then [] else ⟨row, left⟩ :: turnsOf rest (left - Turn.used ⟨row, left⟩)

/-- The offers with a price and something available, the cheapest first. -/
def rankedRows (offers : List Offer) : List CoverRow :=
  sortBy CoverRow.rank (offers.filterMap coverRow)

def coverTurns (quantity : ℚ) (offers : List Offer) : List Turn :=
  turnsOf (rankedRows offers) (max 0 quantity)

/-- The variables of the loop when it is done, before any rounding. -/
def coverLoop (quantity : ℚ) (offers : List Offer) : CoverLoop :=
  coverOffers (rankedRows offers) ⟨max 0 quantity, 0, 0, 0, 0⟩

theorem CoverRow.bought_nonneg (row : CoverRow) (left : ℚ) : 0 ≤ row.bought left := by
  unfold CoverRow.bought
  split
  · exact le_refl 0
  · exact le_max_left _ _

theorem coverOffer_eq {s : CoverLoop} (hleft : 0 < s.left) (row : CoverRow) :
    coverOffer s row =
      { left := s.left - min s.left (row.bought s.left)
        total := s.total + row.bought s.left * row.price
        covered := s.covered + min s.left (row.bought s.left)
        purchased := s.purchased + row.bought s.left
        overpay := s.overpay + (row.bought s.left - min s.left (row.bought s.left)) * row.price } := by
  have hnone : min s.left 0 = 0 := min_eq_right hleft.le
  unfold coverOffer CoverRow.bought
  by_cases hmin : row.minOrder > 0 ∧ row.purchase s.left < row.minOrder
  · simp only [if_pos hmin, hnone, sub_zero, add_zero, zero_mul]
  · by_cases hpos : row.purchase s.left ≤ 0
    · simp only [if_neg hmin, if_pos hpos, max_eq_left hpos, hnone, sub_zero, add_zero, zero_mul]
    · simp only [if_neg hmin, if_neg hpos, max_eq_right (not_le.mp hpos).le]

/-- **The variables of the loop are sums over its turns.** -/
theorem coverOffers_eq (rows : List CoverRow) (s : CoverLoop) :
    coverOffers rows s =
      { left := s.left - ((turnsOf rows s.left).map Turn.used).sum
        total := s.total + ((turnsOf rows s.left).map fun turn => turn.bought * turn.row.price).sum
        covered := s.covered + ((turnsOf rows s.left).map Turn.used).sum
        purchased := s.purchased + ((turnsOf rows s.left).map Turn.bought).sum
        overpay := s.overpay + ((turnsOf rows s.left).map fun turn =>
          (turn.bought - turn.used) * turn.row.price).sum } := by
  induction rows generalizing s with
  | nil => simp only [coverOffers, turnsOf, List.map_nil, List.sum_nil, sub_zero, add_zero]
  | cons row rest ih =>
    unfold coverOffers turnsOf
    by_cases hdone : s.left ≤ 0
    · simp only [if_pos hdone, List.map_nil, List.sum_nil, sub_zero, add_zero]
    · have hused : Turn.used ⟨row, s.left⟩ = min s.left (row.bought s.left) := rfl
      have hbought : Turn.bought ⟨row, s.left⟩ = row.bought s.left := rfl
      rw [if_neg hdone, if_neg hdone, ih, coverOffer_eq (not_le.mp hdone)]
      simp only [List.map_cons, List.sum_cons, hused, hbought, sub_sub, add_assoc]

variable {left : ℚ} {turn : Turn} {quantity : ℚ} {offers : List Offer}

theorem left_pos_of_mem_turnsOf {rows : List CoverRow}
    (h : turn ∈ turnsOf rows left) : turn.row ∈ rows ∧ 0 < turn.left := by
  induction rows generalizing left with
  | nil => cases h
  | cons row rest ih =>
    unfold turnsOf at h
    split at h
    · cases h
    · next hleft =>
      rcases List.mem_cons.mp h with rfl | h
      · exact ⟨.head _, not_le.mp hleft⟩
      · exact ⟨List.mem_cons_of_mem row (ih h).1, (ih h).2⟩

theorem Turn.used_nonneg (hleft : 0 < turn.left) : 0 ≤ turn.used :=
  le_min hleft.le (turn.row.bought_nonneg turn.left)

theorem Turn.used_le (turn : Turn) : turn.used ≤ turn.bought := min_le_right _ _

/-- The turns use no more than is needed. -/
theorem sum_used_le {rows : List CoverRow} (hleft : 0 ≤ left) :
    ((turnsOf rows left).map Turn.used).sum ≤ left := by
  induction rows generalizing left with
  | nil => exact hleft
  | cons row rest ih =>
    unfold turnsOf
    split
    · exact hleft
    · have hrest := ih (sub_nonneg.mpr (min_le_left left (Turn.bought ⟨row, left⟩)))
      rw [List.map_cons, List.sum_cons]
      unfold Turn.used at hrest ⊢
      linarith

theorem coverLoop_eq (quantity : ℚ) (offers : List Offer) :
    coverLoop quantity offers =
      { left := max 0 quantity - ((coverTurns quantity offers).map Turn.used).sum
        total := ((coverTurns quantity offers).map fun turn => turn.bought * turn.row.price).sum
        covered := ((coverTurns quantity offers).map Turn.used).sum
        purchased := ((coverTurns quantity offers).map Turn.bought).sum
        overpay := ((coverTurns quantity offers).map fun turn =>
          (turn.bought - turn.used) * turn.row.price).sum } := by
  unfold coverLoop coverTurns
  rw [coverOffers_eq]
  simp only [zero_add]

theorem used_nonneg : ∀ turn ∈ coverTurns quantity offers, 0 ≤ turn.used := fun _ hturn =>
  Turn.used_nonneg (left_pos_of_mem_turnsOf hturn).2

/-- When nothing is covered, nothing is bought, and the variables are as they were. -/
theorem coverLoop_uncovered (h : (coverLoop quantity offers).covered ≤ 0) :
    coverLoop quantity offers = ⟨max 0 quantity, 0, 0, 0, 0⟩ := by
  have hbought : ∀ turn ∈ coverTurns quantity offers, turn.bought = 0 := by
    intro turn hturn
    rw [coverLoop_eq] at h
    have hone : turn.used ≤ ((coverTurns quantity offers).map Turn.used).sum := by
      refine List.single_le_sum (fun q hq => ?_) _ (List.mem_map_of_mem hturn)
      obtain ⟨other, hother, rfl⟩ := List.mem_map.mp hq
      exact used_nonneg other hother
    rcases min_le_iff.mp (hone.trans h) with hleft | hbought
    · exact absurd hleft (not_le.mpr (left_pos_of_mem_turnsOf hturn).2)
    · exact le_antisymm hbought (turn.row.bought_nonneg turn.left)
  have hused : ∀ turn ∈ coverTurns quantity offers, turn.used = 0 := fun turn hturn =>
    le_antisymm ((Turn.used_le turn).trans (hbought turn hturn).le) (used_nonneg turn hturn)
  have hzero : ∀ f : Turn → ℚ, (∀ turn ∈ coverTurns quantity offers, f turn = 0) →
      ((coverTurns quantity offers).map f).sum = 0 := fun f hf =>
    List.sum_eq_zero fun q hq => by
      obtain ⟨turn, hturn, rfl⟩ := List.mem_map.mp hq
      exact hf turn hturn
  rw [coverLoop_eq, hzero _ hused, hzero _ hbought,
    hzero _ fun turn hturn => by rw [hbought turn hturn, zero_mul],
    hzero _ fun turn hturn => by rw [hbought turn hturn, hused turn hturn, sub_zero, zero_mul],
    sub_zero]

theorem money_zero : money 0 = 0 := by
  simp [money]

theorem greedyCoverCost_eq (quantity : ℚ) (offers : List Offer) :
    (greedyCoverCost quantity offers).coveredQty = (coverLoop quantity offers).covered ∧
      (greedyCoverCost quantity offers).purchasedQty = (coverLoop quantity offers).purchased ∧
      (greedyCoverCost quantity offers).overpay = money (coverLoop quantity offers).overpay ∧
      (greedyCoverCost quantity offers).amount =
        if 0 < quantity ∧ (coverLoop quantity offers).covered ≤ 0 then none
        else some (money (coverLoop quantity offers).total) := by
  by_cases hneed : 0 < quantity
  · have hmax : max 0 quantity = quantity := max_eq_right hneed.le
    unfold greedyCoverCost
    rw [if_pos hneed]
    simp only [if_neg (not_le.mpr hneed)]
    by_cases hoffers : offers.isEmpty = true
    · rw [List.isEmpty_iff] at hoffers
      subst hoffers
      have hloop : coverLoop quantity [] = ⟨quantity, 0, 0, 0, 0⟩ := by
        rw [coverLoop, hmax]
        rfl
      simp only [hloop, List.isEmpty_nil, if_true, money_zero, hneed, le_refl, and_self]
    · have hloop : coverOffers (sortBy CoverRow.rank (offers.filterMap coverRow))
          ⟨quantity, 0, 0, 0, 0⟩ = coverLoop quantity offers := by
        rw [coverLoop, hmax, rankedRows]
      simp only [if_neg hoffers, hloop]
      by_cases hcovered : (coverLoop quantity offers).covered ≤ 0
      · simp only [hneed, hcovered, and_self, if_true, and_true]
        simp only [coverLoop_uncovered hcovered, money_zero, and_self]
      · simp only [hcovered, and_false, if_false, and_self]
  · have hmax : max 0 quantity = 0 := max_eq_left (not_lt.mp hneed)
    have hloop : coverLoop quantity offers = ⟨0, 0, 0, 0, 0⟩ := by
      rw [coverLoop, hmax]
      cases rankedRows offers with
      | nil => rfl
      | cons row rest => rfl
    unfold greedyCoverCost
    simp only [hloop, hneed, false_and, if_false, le_refl, if_true, money_zero,
      and_self]

/-! ## Feasible purchases -/

/-- The minimal order is bought although it is not a whole number of lots. -/
def Turn.Splits (turn : Turn) : Prop :=
  1 < turn.row.lot ∧ ceilToLot turn.left turn.row.lot < turn.row.minOrder ∧
    turn.row.minOrder ≤ turn.row.available ∧ ¬ ∃ lots : ℕ, turn.row.minOrder = lots * turn.row.lot

structure Turn.Keeps (turn : Turn) : Prop where
  available : turn.bought ≤ turn.row.available
  minOrder : turn.row.minOrder ≤ turn.bought
  lots : 1 < turn.row.lot → ∃ lots : ℕ, turn.bought = lots * turn.row.lot

/-- **Feasible purchases.** Every purchase keeps to its offer; no more is covered than is needed or
bought; and what is paid, less the overpay, is the cost of the covered units. -/
structure Feasible (quantity : ℚ) (offers : List Offer) : Prop where
  keeps : ∀ turn ∈ coverTurns quantity offers, 0 < turn.bought → turn.Keeps
  covered_le : (greedyCoverCost quantity offers).coveredQty ≤ max 0 quantity
  covered_le_purchased : (greedyCoverCost quantity offers).coveredQty ≤
    (greedyCoverCost quantity offers).purchasedQty
  covered : (greedyCoverCost quantity offers).coveredQty =
    ((coverTurns quantity offers).map Turn.used).sum
  paid : (coverLoop quantity offers).total - (coverLoop quantity offers).overpay =
    ((coverTurns quantity offers).map fun turn => turn.used * turn.row.price).sum

theorem coverRow_spec {offer : Offer} {row : CoverRow} (h : coverRow offer = some row) :
    0 < row.available ∧ 0 ≤ row.minOrder ∧ row.lot = offer.lot ∧ row.minOrder = offer.minOrder := by
  unfold coverRow at h
  split at h
  · split at h
    · cases h
    · next hgood =>
      obtain ⟨-, hpos⟩ := not_or.mp hgood
      cases h
      refine ⟨not_le.mp hpos, ?_, rfl, rfl⟩
      unfold Offer.minOrder
      cases hmin : offer.minOrderQty.filter (0 < ·) with
      | none => exact le_refl 0
      | some qty => exact le_of_lt (by simpa using (Option.filter_eq_some_iff.mp hmin).2)
  · cases h

theorem ceilToLot_lots (qty : ℚ) {lot : ℚ} (hlot : 1 < lot) : ∃ lots : ℕ, ceilToLot qty lot = lots * lot := by
  unfold ceilToLot
  rw [if_neg (not_le.mpr hlot)]
  split
  · exact ⟨0, by rw [Nat.cast_zero, zero_mul]⟩
  · next hqty =>
    have hpos : 0 < qty / lot := div_pos (not_le.mp hqty) (one_pos.trans hlot)
    refine ⟨⌈qty / lot⌉.toNat, ?_⟩
    rw [← Int.cast_natCast, Int.toNat_of_nonneg (Int.ceil_pos.mpr hpos).le]

theorem floorToLot_lots {qty lot : ℚ} (hlot : 1 < lot) (hqty : 0 ≤ qty) :
    ∃ lots : ℕ, floorToLot qty lot = lots * lot := by
  unfold floorToLot
  rw [if_neg (not_le.mpr hlot)]
  split
  · exact ⟨0, by rw [Nat.cast_zero, zero_mul]⟩
  · refine ⟨⌊qty / lot⌋.toNat, ?_⟩
    rw [← Int.cast_natCast, Int.toNat_of_nonneg (Int.floor_nonneg.mpr
      (div_nonneg hqty (one_pos.trans hlot).le))]

theorem CoverRow.bought_eq {row : CoverRow} (h : 0 < row.bought left) :
    row.bought left = row.purchase left ∧ (row.minOrder ≤ 0 ∨ row.minOrder ≤ row.purchase left) := by
  unfold CoverRow.bought at h ⊢
  split at h
  · exact absurd h (lt_irrefl 0)
  · next hmin =>
    rw [if_neg hmin]
    refine ⟨max_eq_right (le_of_lt ?_), ?_⟩
    · exact (lt_max_iff.mp h).resolve_left (lt_irrefl 0)
    · by_cases hpos : row.minOrder ≤ 0
      · exact .inl hpos
      · exact .inr (not_lt.mp fun hless => hmin ⟨not_le.mp hpos, hless⟩)

theorem CoverRow.wanted_lot {row : CoverRow} (left : ℚ) (hlot : 1 < row.lot) :
    row.wanted left = max (ceilToLot left row.lot) row.minOrder := by
  unfold CoverRow.wanted
  simp only [gt_iff_lt, if_pos hlot]
  split
  · next hmin => exact (max_eq_right hmin.le).symm
  · next hceil => exact (max_eq_left (not_lt.mp hceil)).symm

theorem Turn.Splits.bought_eq (h : turn.Splits) :
    0 < turn.bought ∧ turn.bought = turn.row.minOrder := by
  obtain ⟨hlot, hceil, havailable, -⟩ := h
  obtain ⟨lots, hlots⟩ := ceilToLot_lots turn.left hlot
  have hpos : 0 < turn.row.minOrder :=
    lt_of_le_of_lt (by rw [hlots]; exact mul_nonneg (Nat.cast_nonneg _) (one_pos.trans hlot).le) hceil
  have hpurchase : turn.row.purchase turn.left = turn.row.minOrder := by
    rw [CoverRow.purchase, turn.row.wanted_lot turn.left hlot, max_eq_right hceil.le,
      if_neg (not_lt.mpr havailable)]
  have hbought : turn.bought = turn.row.minOrder := by
    rw [Turn.bought, CoverRow.bought, hpurchase, if_neg fun h => lt_irrefl _ h.2,
      max_eq_right hpos.le]
  exact ⟨hbought ▸ hpos, hbought⟩

/-- A purchase in lots is a whole number of them, unless the minimal order splits one. -/
theorem Turn.lots_iff (havailable : 0 < turn.row.available) :
    (0 < turn.bought → 1 < turn.row.lot → ∃ lots : ℕ, turn.bought = lots * turn.row.lot) ↔
      ¬ turn.Splits := by
  refine ⟨fun h hsplits => ?_, fun hwhole hbought hlot => ?_⟩
  · obtain ⟨hpos, heq⟩ := hsplits.bought_eq
    obtain ⟨lots, hlots⟩ := h hpos hsplits.1
    exact hsplits.2.2.2 ⟨lots, heq ▸ hlots⟩
  · rw [Turn.bought, (CoverRow.bought_eq hbought).1, CoverRow.purchase, if_pos hlot]
    split
    · exact floorToLot_lots hlot havailable.le
    · next hfits =>
      rw [turn.row.wanted_lot turn.left hlot] at hfits ⊢
      rcases lt_or_ge (ceilToLot turn.left turn.row.lot) turn.row.minOrder with hmin | hceil
      · rw [max_eq_right hmin.le] at hfits ⊢
        exact not_not.mp fun hnot => hwhole ⟨hlot, hmin, not_lt.mp hfits, hnot⟩
      · rw [max_eq_left hceil]
        exact ceilToLot_lots turn.left hlot

theorem coverTurns_spec
    (h : turn ∈ coverTurns quantity offers) : ∃ offer ∈ offers, coverRow offer = some turn.row :=
  List.mem_filterMap.mp (mem_sortBy.mp (left_pos_of_mem_turnsOf h).1)

theorem Turn.keeps_offer (h : turn ∈ coverTurns quantity offers) (hbought : 0 < turn.bought) :
    turn.bought ≤ turn.row.available ∧ turn.row.minOrder ≤ turn.bought := by
  obtain ⟨offer, -, hrow⟩ := coverTurns_spec h
  obtain ⟨havailable, -, -⟩ := coverRow_spec hrow
  obtain ⟨heq, hmin⟩ := CoverRow.bought_eq hbought
  rw [Turn.bought, heq] at hbought ⊢
  exact ⟨turn.row.purchase_le turn.left havailable.le,
    hmin.elim (fun hnone => hnone.trans hbought.le) id⟩

theorem greedyCoverCost_sums (quantity : ℚ) (offers : List Offer) :
    (greedyCoverCost quantity offers).coveredQty =
        ((coverTurns quantity offers).map Turn.used).sum ∧
      (greedyCoverCost quantity offers).purchasedQty =
        ((coverTurns quantity offers).map Turn.bought).sum ∧
      (coverLoop quantity offers).total - (coverLoop quantity offers).overpay =
        ((coverTurns quantity offers).map fun turn => turn.used * turn.row.price).sum := by
  obtain ⟨hcovered, hpurchased, -⟩ := greedyCoverCost_eq quantity offers
  rw [hcovered, hpurchased, coverLoop_eq]
  refine ⟨rfl, rfl, ?_⟩
  simp only
  rw [sub_eq_iff_eq_add, ← List.sum_map_add]
  exact congrArg List.sum (List.map_congr_left fun turn _ => by ring)

/-- **Purchases are feasible unless a minimal order splits a lot.** -/
theorem greedyCoverCost_feasible_iff (quantity : ℚ) (offers : List Offer) :
    Feasible quantity offers ↔ ∀ turn ∈ coverTurns quantity offers, ¬ turn.Splits := by
  refine ⟨fun h turn hturn => ?_, fun h => ?_⟩
  · obtain ⟨offer, -, hrow⟩ := coverTurns_spec hturn
    exact (Turn.lots_iff (coverRow_spec hrow).1).mp fun hpos => (h.keeps turn hturn hpos).lots
  · obtain ⟨hcovered, hpurchased, hpaid⟩ := greedyCoverCost_sums quantity offers
    refine ⟨fun turn hturn hpos => ?_, ?_, ?_, hcovered, hpaid⟩
    · obtain ⟨offer, -, hrow⟩ := coverTurns_spec hturn
      obtain ⟨havailable, hmin⟩ := Turn.keeps_offer hturn hpos
      exact ⟨havailable, hmin, (Turn.lots_iff (coverRow_spec hrow).1).mpr (h turn hturn) hpos⟩
    · rw [hcovered]
      exact sum_used_le (le_max_left 0 quantity)
    · rw [hcovered, hpurchased]
      exact List.sum_le_sum fun turn _ => turn.used_le

/-! ## The cheapest cover -/

/-- **The cheapest cover.** All that is needed or available is covered, nothing beyond it is paid
for, and no choice of as much from the priced offers costs less than what is paid before rounding. -/
structure CheapestCover (quantity : ℚ) (offers : List Offer) : Prop where
  covered : (greedyCoverCost quantity offers).coveredQty =
    min (max 0 quantity) ((offers.filterMap coverRow).map CoverRow.available).sum
  overpay : (greedyCoverCost quantity offers).overpay = 0
  rounded : (greedyCoverCost quantity offers).amount =
    if 0 < quantity ∧ (greedyCoverCost quantity offers).coveredQty ≤ 0 then none
    else some (money (coverLoop quantity offers).total)
  least : IsLeast {paid | ∃ choice,
      Choice CoverRow.available (offers.filterMap coverRow) choice ∧
        amount choice = (greedyCoverCost quantity offers).coveredQty ∧
        cost CoverRow.price choice = paid} (coverLoop quantity offers).total

/-- An offer without the fields of lots and of a minimal order. -/
theorem Offer.plain_of_absent {offer : Offer} (hlot : offer.lotSize = none)
    (hpackQty : offer.packQty = none) (hpackSize : offer.packSize = none)
    (hmin : offer.minOrderQty = none) : offer.Plain := by
  refine ⟨?_, ?_⟩
  · rw [Offer.lot, hlot, hpackQty, hpackSize]
    rfl
  · rw [Offer.minOrder, hmin]
    rfl

/-- A row without lots and minimal order. -/
structure CoverRow.Plain (row : CoverRow) : Prop where
  available : 0 < row.available
  lot : row.lot = 1
  minOrder : row.minOrder = 0

theorem Turn.bought_plain (h : turn.row.Plain) (hleft : 0 < turn.left) :
    turn.bought = min turn.left turn.row.available ∧ turn.used = turn.bought := by
  have hbought : turn.bought = min turn.left turn.row.available := by
    rw [Turn.bought, CoverRow.bought, CoverRow.purchase_plain h.lot h.minOrder hleft, h.minOrder,
      if_neg fun hmin => lt_irrefl 0 hmin.1, max_eq_right (le_min hleft.le h.available.le)]
  exact ⟨hbought, min_eq_right (hbought ▸ min_le_left _ _)⟩

/-- Without lots and minimal orders the turns take what `takeFirst` takes. -/
theorem turns_takeFirst {rows : List CoverRow} (hplain : ∀ row ∈ rows, row.Plain)
    (hleft : 0 ≤ left) :
    ((turnsOf rows left).map Turn.used).sum =
        amount (takeFirst CoverRow.available left rows) ∧
      ((turnsOf rows left).map fun turn => turn.bought * turn.row.price).sum =
        cost CoverRow.price (takeFirst CoverRow.available left rows) := by
  induction rows generalizing left with
  | nil => exact ⟨rfl, rfl⟩
  | cons row rest ih =>
    have hrest := fun other hother => hplain other (List.mem_cons_of_mem row hother)
    unfold turnsOf
    rcases hleft.eq_or_lt with rfl | hpos
    · have havailable : ∀ other ∈ row :: rest, 0 ≤ other.available := fun other hother =>
        (hplain other hother).available.le
      rw [if_pos (le_refl 0), amount_takeFirst_zero havailable, cost_takeFirst_zero havailable]
      exact ⟨rfl, rfl⟩
    · obtain ⟨hbought, hused⟩ := @Turn.bought_plain ⟨row, left⟩
        (hplain row (.head _)) hpos
      obtain ⟨hamount, hcost⟩ := ih hrest (sub_nonneg.mpr (min_le_left left row.available))
      rw [if_neg (not_le.mpr hpos), takeFirst, amount_cons, cost_cons, ← hamount, ← hcost,
        List.map_cons, List.sum_cons, List.map_cons, List.sum_cons, hused, hbought]
      exact ⟨rfl, rfl⟩

theorem rankedRows_plain (h : ∀ offer ∈ offers, offer.Plain) :
    ∀ row ∈ rankedRows offers, row.Plain := by
  intro row hrow
  obtain ⟨offer, hoffer, heq⟩ := List.mem_filterMap.mp (mem_sortBy.mp hrow)
  obtain ⟨havailable, -, hlot, hmin⟩ := coverRow_spec heq
  exact ⟨havailable, hlot.trans (h offer hoffer).lot, hmin.trans (h offer hoffer).minOrder⟩

theorem rankedRows_sorted (offers : List Offer) :
    (rankedRows offers).Pairwise fun a b => a.price ≤ b.price :=
  (pairwise_sortBy CoverRow.rank _).imp fun h => Prod.Lex.monotone_fst _ _ h

/-- **Without lots and minimal orders, no cover is cheaper.** -/
theorem greedyCoverCost_cheapest (quantity : ℚ) (offers : List Offer)
    (hplain : ∀ offer ∈ offers, offer.Plain) : CheapestCover quantity offers := by
  have hneed : 0 ≤ max 0 quantity := le_max_left 0 quantity
  have hrows := rankedRows_plain hplain
  have havailable : ∀ row ∈ rankedRows offers, 0 ≤ row.available := fun row hrow =>
    (hrows row hrow).available.le
  have hperm : (rankedRows offers).Perm (offers.filterMap coverRow) := perm_sortBy _ _
  obtain ⟨hresult, -, hoverpay, hpaid⟩ := greedyCoverCost_eq quantity offers
  obtain ⟨hamount, hcost⟩ := turns_takeFirst hrows hneed
  have hcovered : (greedyCoverCost quantity offers).coveredQty =
      amount (takeFirst CoverRow.available (max 0 quantity) (rankedRows offers)) := by
    rw [hresult, coverLoop_eq]
    exact hamount
  have htotal : (coverLoop quantity offers).total =
      cost CoverRow.price (takeFirst CoverRow.available (max 0 quantity) (rankedRows offers)) := by
    rw [coverLoop_eq]
    exact hcost
  refine ⟨?_, ?_, ?_, ⟨takeFirst CoverRow.available (max 0 quantity) (rankedRows offers), ?_,
    hcovered.symm, htotal.symm⟩, ?_⟩
  · rw [hcovered, sum_takeFirst hneed havailable, (hperm.map _).sum_eq]
  · have hused : ∀ turn ∈ coverTurns quantity offers,
        (turn.bought - turn.used) * turn.row.price = 0 := fun turn hturn => by
      obtain ⟨hmem, hleft⟩ := left_pos_of_mem_turnsOf hturn
      rw [(Turn.bought_plain (hrows turn.row hmem) hleft).2, sub_self, zero_mul]
    rw [hoverpay, coverLoop_eq, List.map_congr_left hused, List.sum_map_zero, money_zero]
  · rw [hpaid, hresult]
  · obtain ⟨htaken, hwithin⟩ := choice_takeFirst hneed havailable
    exact ⟨htaken.trans hperm, hwithin⟩
  · rintro paid ⟨choice, hchoice, hsame, rfl⟩
    rw [htotal]
    exact cost_takeFirst_le hneed havailable (rankedRows_sorted offers)
      ⟨hchoice.offers.trans hperm.symm, hchoice.within⟩ (hsame.trans hcovered)

def boltOffer (price available : ℚ) (lotSize minOrderQty : Option ℚ) : Offer where
  supplierId := "P1"
  supplierName := "Bolts and Nuts"
  nomenclatureId := "bolt"
  nomenclatureName := none
  unitPrice := some price
  availableQty := some available
  availableQuantity := none
  unit := "шт"
  leadTimeDays := none
  abcClass := none
  qualityRating := none
  deliveryRating := none
  lotSize := lotSize
  packQty := none
  packSize := none
  minOrderQty := minOrderQty

/-- Five bolts are needed of an offer in lots of ten with a minimal order of fifteen: fifteen are
bought. -/
theorem greedyCoverCost_splits_a_lot : ¬ Feasible 5 [boltOffer 2 100 (some 10) (some 15)] := by
  intro h
  have hturn : (⟨⟨2, 100, 10, 15, "P1"⟩, 5⟩ : Turn) ∈
      coverTurns 5 [boltOffer 2 100 (some 10) (some 15)] := by
    have hrow : [boltOffer 2 100 (some 10) (some 15)].filterMap coverRow =
        [⟨2, 100, 10, 15, "P1"⟩] := by rfl
    rw [coverTurns, rankedRows, hrow, sortBy_singleton, turnsOf, if_neg (by decide +kernel)]
    exact .head _
  have hbought : (⟨⟨2, 100, 10, 15, "P1"⟩, 5⟩ : Turn).bought = 15 := by decide +kernel
  obtain ⟨lots, hlots⟩ := (h.keeps _ hturn (by rw [hbought]; norm_num)).lots (by norm_num)
  rw [hbought] at hlots
  have : (15 : ℕ) = lots * 10 := by
    have hten : (15 : ℚ) = lots * 10 := hlots
    exact_mod_cast hten
  omega

theorem greedyCoverCost_cheapest_two :
    CheapestCover 7 [boltOffer 3 10 none none, boltOffer 2 5 none none] :=
  greedyCoverCost_cheapest 7 _ fun offer hoffer => by
    rcases List.mem_cons.mp hoffer with rfl | hoffer
    · exact Offer.plain_of_absent rfl rfl rfl rfl
    · rw [List.mem_singleton.mp hoffer]
      exact Offer.plain_of_absent rfl rfl rfl rfl

end AgentBack.Procurement
