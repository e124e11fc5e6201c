import AgentBack.Procurement.Optimize

/-!
# What the ranking of the suppliers keeps of the offers

A row of the ranking comes from one of the offers it was given, and covers no more than that offer
has and the line needs (`Ranks`). An offer without lots and without a minimal order covers all of
the smaller of the two. The ranking is empty only when no offer has a price and something left.
-/

namespace AgentBack.Procurement

structure Offer.Usable (offer : Offer) : Prop where
  priced : ∃ price, offer.unitPrice = some price ∧ 0 ≤ price
  stocked : ∃ available, offer.available = some available ∧ 0 < available

/-- An offer of the bank is an offering of an active supplier under the key, priced and available. -/
theorem mem_collectSupplierOffers {casefold : String → String} {store : MaterialBankStore}
    {nom : String} {offer : Offer} (h : offer ∈ collectSupplierOffers casefold store nom) :
    Text.normalize casefold nom ≠ "" ∧ ∃ supplier ∈ store.activeSuppliers,
      ∃ offering ∈ supplier.offerings, offering.nomKey casefold = Text.normalize casefold nom ∧
        offer.supplierId = text supplier.supplierId ∧
        offer.available = some offering.available ∧ offer.Usable := by
  unfold collectSupplierOffers at h
  simp only at h
  split at h
  · cases h
  · next hkey =>
    obtain ⟨supplier, hsupplier, hmem⟩ := List.mem_flatMap.mp h
    obtain ⟨offering, hoffering, hoffer⟩ := List.mem_filterMap.mp hmem
    refine ⟨hkey, supplier, hsupplier, offering, hoffering, ?_⟩
    unfold offerOf at hoffer
    split at hoffer
    · cases hoffer
    · next hnom =>
      split at hoffer
      · next price available hprice havailable =>
        split at hoffer
        · cases hoffer
        · next hgood =>
          have hof : offering.available = available := by
            rw [Offering.available, havailable, Option.getD_some]
          obtain ⟨hnonneg, hpos⟩ := not_or.mp hgood
          cases hoffer
          refine ⟨not_not.mp hnom, rfl, ?_, ⟨price, rfl, not_lt.mp hnonneg⟩,
            ⟨available, rfl, not_le.mp hpos⟩⟩
          rw [hof]
          rfl
      · cases hoffer

/-! ## The cover of one offer -/

structure Offer.Plain (offer : Offer) : Prop where
  lot : offer.lot = 1
  minOrder : offer.minOrder = 0

theorem floorToLot_le {qty lot : ℚ} (hqty : 0 ≤ qty) : floorToLot qty lot ≤ qty := by
  unfold floorToLot
  split
  · exact le_refl qty
  · next hlot =>
    have hpos : 0 < lot := lt_trans one_pos (not_le.mp hlot)
    split
    · exact hqty
    · calc (⌊qty / lot⌋ : ℚ) * lot ≤ qty / lot * lot :=
            mul_le_mul_of_nonneg_right (Int.floor_le _) (le_of_lt hpos)
        _ = qty := div_mul_cancel₀ qty (ne_of_gt hpos)

/-- No more is bought than the offer has. -/
theorem CoverRow.purchase_le (row : CoverRow) (left : ℚ) (h : 0 ≤ row.available) :
    row.purchase left ≤ row.available := by
  unfold CoverRow.purchase
  split
  · split
    · exact floorToLot_le h
    · exact le_refl _
  · next hle => exact not_lt.mp hle

theorem CoverRow.purchase_plain {row : CoverRow} (hlot : row.lot = 1) (hmin : row.minOrder = 0)
    {left : ℚ} (hleft : 0 < left) : row.purchase left = min left row.available := by
  have hwanted : row.wanted left = left := by
    simp only [CoverRow.wanted, hlot, hmin, gt_iff_lt, lt_self_iff_false, if_false,
      if_neg (not_lt.mpr (le_of_lt hleft))]
  have hlots : ¬ row.lot > 1 := by rw [hlot]; exact lt_irrefl 1
  rw [CoverRow.purchase, hwanted, if_neg hlots]
  split
  · next hmore => exact (min_eq_right (le_of_lt hmore)).symm
  · next hless => exact (min_eq_left (not_lt.mp hless)).symm

theorem coverOffer_covered {row : CoverRow} {need : ℚ} (hneed : 0 < need)
    (h : 0 ≤ row.available) :
    (coverOffer ⟨need, 0, 0, 0, 0⟩ row).covered ≤ min need row.available := by
  have hnone : 0 ≤ min need row.available := le_min (le_of_lt hneed) h
  unfold coverOffer
  simp only
  split
  · exact hnone
  · split
    · exact hnone
    · simp only [zero_add]
      exact min_le_min_left need (row.purchase_le need h)

theorem coverOffer_plain {row : CoverRow} (hlot : row.lot = 1) (hmin : row.minOrder = 0)
    {need : ℚ} (hneed : 0 < need) (h : 0 < row.available) :
    (coverOffer ⟨need, 0, 0, 0, 0⟩ row).covered = min need row.available := by
  have hsome : ¬ min need row.available ≤ 0 := not_le.mpr (lt_min hneed h)
  rw [coverOffer]
  simp only [row.purchase_plain hlot hmin hneed, hmin, gt_iff_lt, lt_self_iff_false, false_and,
    if_false, if_neg hsome, zero_add]
  rw [← min_assoc, min_self]

theorem singleOfferCost_covered {need : ℚ} (hneed : 0 < need) (offer : Offer) :
    (singleOfferCost need offer).2.2 =
      (coverRow offer).elim 0 fun row => max 0 (coverOffer ⟨need, 0, 0, 0, 0⟩ row).covered := by
  unfold singleOfferCost greedyCoverCost
  simp only [if_pos hneed, if_neg (not_le.mpr hneed), List.isEmpty_cons, Bool.false_eq_true,
    if_false, List.filterMap_cons, List.filterMap_nil]
  cases hrow : coverRow offer with
  | none => rfl
  | some row =>
    simp only [sortBy_singleton, coverOffers, if_neg (not_le.mpr hneed), Option.elim]
    by_cases hnone : (coverOffer ⟨need, 0, 0, 0, 0⟩ row).covered ≤ 0
    · simp only [if_pos hnone, max_eq_left hnone]
    · simp only [if_neg hnone, max_eq_right (le_of_lt (not_le.mp hnone))]

/-- What a row of the ranking for a need keeps of its offer. -/
structure Ranks (need : ℚ) (offer : Offer) (row : RankedOffer) : Prop where
  supplierId : row.supplierId = offer.supplierId
  available : offer.available = some row.availableQty
  available_pos : 0 < row.availableQty
  coverable_pos : 0 < row.coverableQty
  coverable_le : row.coverableQty ≤ min need row.availableQty
  plain : offer.Plain → row.coverableQty = min need row.availableQty

theorem stock_of_available {offer : Offer} {available : ℚ} (h : offer.available = some available)
    (hpos : 0 < available) : offer.stock = available := by
  unfold Offer.available at h
  simp only [Offer.stock, h, if_neg (not_lt.mpr (le_of_lt hpos))]

theorem coverableQty_of_offer {need available price : ℚ} {offer : Offer} (hneed : 0 < need)
    (havailable : offer.available = some available) (hpos : 0 < available)
    (hprice : offer.unitPrice = some price) (hnonneg : ¬ price < 0) :
    0 < coverableQty need available (singleOfferCost need offer).2.2 ∧
      coverableQty need available (singleOfferCost need offer).2.2 ≤ min need available ∧
      (offer.Plain →
        coverableQty need available (singleOfferCost need offer).2.2 = min need available) := by
  have hstock := stock_of_available havailable hpos
  have hrow : coverRow offer =
      some ⟨price, available, offer.lot, offer.minOrder, offer.supplierId⟩ := by
    simp only [coverRow, hprice, hstock, if_neg (not_or.mpr ⟨hnonneg, not_le.mpr hpos⟩)]
  have hcost := singleOfferCost_covered hneed offer
  rw [hrow, Option.elim] at hcost
  have hle : (coverOffer ⟨need, 0, 0, 0, 0⟩
      ⟨price, available, offer.lot, offer.minOrder, offer.supplierId⟩).covered ≤ min need available :=
    coverOffer_covered hneed (le_of_lt hpos)
  rw [coverableQty, hcost]
  by_cases hsome : 0 < (coverOffer ⟨need, 0, 0, 0, 0⟩
      ⟨price, available, offer.lot, offer.minOrder, offer.supplierId⟩).covered
  · rw [max_eq_right (le_of_lt hsome), if_pos hsome,
      min_eq_right (le_trans hle (min_le_left _ _))]
    exact ⟨hsome, hle, fun hplain => coverOffer_plain hplain.lot hplain.minOrder hneed hpos⟩
  · rw [max_eq_left (not_lt.mp hsome), if_neg (lt_irrefl 0)]
    exact ⟨lt_min hneed hpos, le_refl _, fun _ => rfl⟩

variable {host : Host}

/-- The row of an offer, if it has one, keeps the offer; a priced offer with something left has. -/
theorem rankOffer_ranks {need : ℚ} (hneed : 0 < need) {required : RequiredDate} {offer : Offer}
    {key : RankKey} {row : RankedOffer}
    (h : rankOffer host need required offer = some (key, row)) : Ranks need offer row := by
  unfold rankOffer at h
  split at h
  · next price available hprice havailable =>
    split at h
    · cases h
    · next hgood =>
      obtain ⟨hnonneg, hpos⟩ := not_or.mp hgood
      obtain ⟨hcov, hle, hplain⟩ := coverableQty_of_offer hneed havailable (not_le.mp hpos) hprice
        hnonneg
      cases h
      exact ⟨rfl, havailable, not_le.mp hpos, hcov, hle, hplain⟩
  · cases h

theorem rankOffer_isSome {need : ℚ} {required : RequiredDate} {offer : Offer}
    (h : offer.Usable) : (rankOffer host need required offer).isSome := by
  obtain ⟨⟨price, hprice, hnonneg⟩, available, havailable, hpos⟩ := h
  simp only [rankOffer, hprice, havailable,
    if_neg (not_or.mpr ⟨not_lt.mpr hnonneg, not_le.mpr hpos⟩), Option.isSome_some]

theorem sliceTo_sublist {α : Type} (items : List α) (n : Int) : (sliceTo items n).Sublist items := by
  unfold sliceTo
  split
  · exact List.take_sublist _ _
  · exact List.take_sublist _ _

theorem sliceTo_ne_nil {α : Type} {items : List α} {n : Int} (hn : 0 < n) (h : items ≠ []) :
    sliceTo items n ≠ [] := by
  have hpos : n.natAbs ≠ 0 := by omega
  rw [sliceTo, if_neg (by omega)]
  exact fun hnil => (List.take_eq_nil_iff.mp hnil).elim hpos h

theorem mem_setRanks {row : RankedOffer} {rows : List RankedOffer} {start : Nat}
    (h : row ∈ setRanks start rows) : ∃ row₀ ∈ rows, ∃ rank, row = { row₀ with rank := rank } := by
  induction rows generalizing start with
  | nil => cases h
  | cons first rest ih =>
    rcases List.mem_cons.mp h with rfl | h
    · exact ⟨first, .head _, start, rfl⟩
    · obtain ⟨row₀, hmem, rank, rfl⟩ := ih h
      exact ⟨row₀, .tail _ hmem, rank, rfl⟩

@[simp] theorem setRanks_eq_nil {rows : List RankedOffer} {start : Nat} :
    setRanks start rows = [] ↔ rows = [] := by
  cases rows with
  | nil => exact ⟨fun _ => rfl, fun _ => rfl⟩
  | cons first rest => exact ⟨fun h => (List.cons_ne_nil _ _ h).elim, fun h => (List.cons_ne_nil _ _ h).elim⟩

/-- Neither the rank nor the risk of a row is what it keeps of its offer. -/
theorem Ranks.marked {need : ℚ} {offer : Offer} {row : RankedOffer} (h : Ranks need offer row)
    (rank : Nat) (deadlineRisk : Bool) : Ranks need offer { row with rank, deadlineRisk } :=
  ⟨h.supplierId, h.available, h.available_pos, h.coverable_pos, h.coverable_le, h.plain⟩

theorem mem_optimizeSupplierOffers {need : ℚ} {offers : List Offer} {required : RequiredDate}
    {topN : Int} {row : RankedOffer}
    (h : row ∈ optimizeSupplierOffers host need offers required topN) :
    ∃ offer ∈ offers, Ranks need offer row := by
  unfold optimizeSupplierOffers at h
  split at h
  · cases h
  · next hask =>
    obtain ⟨row₀, hrow₀, rank, rfl⟩ := mem_setRanks h
    obtain ⟨row₁, hrow₁, rfl⟩ := List.mem_map.mp ((sliceTo_sublist _ _).subset hrow₀)
    obtain ⟨⟨key, row₂⟩, hkey, rfl⟩ := List.mem_map.mp hrow₁
    obtain ⟨offer, hoffer, hrank⟩ := List.mem_filterMap.mp (mem_sortBy.mp hkey)
    have hneed : 0 < need := not_le.mp fun hle => hask (.inl hle)
    exact ⟨offer, hoffer, (rankOffer_ranks hneed hrank).marked _ _⟩

theorem optimizeSupplierOffers_ne_nil {need : ℚ} (hneed : 0 < need) {offers : List Offer}
    {required : RequiredDate} {topN : Int} (htop : 0 < topN) {offer : Offer}
    (hoffer : offer ∈ offers) (husable : offer.Usable) :
    optimizeSupplierOffers host need offers required topN ≠ [] := by
  obtain ⟨ranked, hranked⟩ := Option.isSome_iff_exists.mp
    (@rankOffer_isSome host need required offer husable)
  have hmem : ranked ∈ sortBy Prod.fst (offers.filterMap (rankOffer host need required)) :=
    mem_sortBy.mpr (List.mem_filterMap.mpr ⟨offer, hoffer, hranked⟩)
  rw [optimizeSupplierOffers, if_neg (not_or.mpr ⟨not_le.mpr hneed, not_le.mpr htop⟩)]
  rw [Ne, setRanks_eq_nil]
  refine sliceTo_ne_nil htop ?_
  simp only [Ne, List.map_eq_nil_iff]
  exact List.ne_nil_of_mem hmem

end AgentBack.Procurement
