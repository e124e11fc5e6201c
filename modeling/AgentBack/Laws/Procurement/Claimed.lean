import AgentBack.Laws.Procurement.Cover
import AgentBack.Laws.Procurement.Queue

/-!
# What the ranking claims of an offer

A row of the ranking stands for one offer (`RowOf`). It is truthful when its quantity, its cost and
its overpay are those of the cover by this offer alone. An offer from which nothing can be bought is
ranked as if it could be cut to the need, and a cover that costs half a kopeck is rounded the other
way, so a ranking is truthful exactly when no row of it stands for such an offer
(`optimizeSupplierOffers_truthful_iff`).

An economy wave takes the first row by `economyOrder`, which sorts a row that costs nothing as if it
cost 999999999 (`rankForWaveMode_cheapest_iff`).
-/

namespace AgentBack.Procurement

/-! ## Rounding -/

def kopecks (count : Int) : ℚ := count / 100

theorem money_eq_kopecks (value : ℚ) : ∃ count, money value = kopecks count := ⟨_, rfl⟩

theorem roundMoney_kopecks (count : Int) : roundMoney (kopecks count) = kopecks count := by
  have hfloor : ∀ n : Int, ⌊(n : ℚ) / 100 * 100 + 1 / 2⌋ = n := by
    intro n
    rw [div_mul_cancel₀ _ (by norm_num), Int.floor_eq_iff]
    constructor <;> linarith
  unfold roundMoney kopecks
  split
  · rw [hfloor]
  · have hneg : -((count : ℚ) / 100) * 100 + 1 / 2 = ((-count : Int) : ℚ) / 100 * 100 + 1 / 2 := by
      rw [Int.cast_neg]
      ring
    rw [hneg, hfloor, Int.cast_neg]
    ring

@[simp] theorem roundMoney_money (value : ℚ) : roundMoney (money value) = money value := by
  obtain ⟨count, hcount⟩ := money_eq_kopecks value
  rw [hcount, roundMoney_kopecks]

/-- More than half a kopeck is rounded to something. -/
theorem money_pos_iff {value : ℚ} (h : 0 ≤ value) : 0 < money value ↔ 1 / 200 < value := by
  have hcents : 0 ≤ ⌊value * 100⌋ := Int.floor_nonneg.mpr (by linarith)
  have hle := Int.floor_le (value * 100)
  have hlt := Int.lt_floor_add_one (value * 100)
  unfold money
  dsimp only
  rw [div_pos_iff_of_pos_right (by norm_num), Int.cast_pos]
  rcases hcents.eq_or_lt with hzero | hpos
  · rw [← hzero] at hle hlt ⊢
    simp only [Int.cast_zero, sub_zero, zero_add, Int.zero_emod, and_true] at hle hlt ⊢
    split
    · next hlow => exact iff_of_false (lt_irrefl 0) (by rcases hlow with h | h <;> linarith)
    · next hhigh => exact iff_of_true one_pos (by
        obtain ⟨hge, hne⟩ := not_or.mp hhigh
        have := lt_of_le_of_ne (not_lt.mp hge) (Ne.symm hne)
        linarith)
  · have hone : (1 : ℚ) ≤ ⌊value * 100⌋ := by exact_mod_cast hpos
    refine iff_of_true ?_ (by linarith)
    split <;> omega

theorem roundMoney_eq_zero_iff {value : ℚ} (h : 0 ≤ value) :
    roundMoney value = 0 ↔ value < 1 / 200 := by
  unfold roundMoney
  rw [if_pos h, div_eq_zero_iff, or_iff_left (by norm_num), Int.cast_eq_zero, Int.floor_eq_zero_iff,
    Set.mem_Ico]
  constructor
  · rintro ⟨-, hlt⟩
    linarith
  · intro hlt
    constructor <;> linarith

def Offer.bought (need : ℚ) (offer : Offer) : ℚ :=
  (coverRow offer).elim 0 fun row => row.bought need

/-- **What an offer sells for a need.** Its lot and its minimal order can be met from what it has,
and what is bought without a surplus does not cost exactly half a kopeck. -/
structure Offer.Sells (need : ℚ) (offer : Offer) : Prop where
  met : 0 < offer.bought need
  rounds : offer.bought need ≤ need → ∀ price, offer.unitPrice = some price →
    offer.bought need * price ≠ 1 / 200

/-- The row of the cover, for an offer with a price and something available. -/
def Offer.row (offer : Offer) (price available : ℚ) : CoverRow :=
  ⟨price, available, offer.lot, offer.minOrder, offer.supplierId⟩

theorem coverRow_eq {offer : Offer} {price available : ℚ} (hprice : offer.unitPrice = some price)
    (havailable : offer.available = some available) (hnonneg : 0 ≤ price) (hpos : 0 < available) :
    coverRow offer = some (offer.row price available) := by
  simp only [coverRow, hprice, stock_of_available havailable hpos,
    if_neg (not_or.mpr ⟨not_lt.mpr hnonneg, not_le.mpr hpos⟩), Offer.row]

theorem greedyCoverCost_single {need : ℚ} (hneed : 0 < need) {offer : Offer} {row : CoverRow}
    (hrow : coverRow offer = some row) :
    greedyCoverCost need [offer] =
      if 0 < row.bought need then
        ⟨some (money (row.bought need * row.price)), min need (row.bought need),
          "покрывающие офферы", money ((row.bought need - min need (row.bought need)) * row.price),
          row.bought need⟩
      else ⟨none, 0, "—", 0, 0⟩ := by
  have hrows : sortBy CoverRow.rank ([offer].filterMap coverRow) = [row] := by
    simp only [List.filterMap_cons, hrow, List.filterMap_nil, sortBy_singleton]
  have hloop : coverOffers [row] ⟨need, 0, 0, 0, 0⟩ = coverOffer ⟨need, 0, 0, 0, 0⟩ row := by
    simp only [coverOffers, if_neg (not_le.mpr hneed)]
  have hoffer := coverOffer_eq (s := ⟨need, 0, 0, 0, 0⟩) hneed row
  simp only [zero_add] at hoffer
  unfold greedyCoverCost
  simp only [if_pos hneed, if_neg (not_le.mpr hneed), List.isEmpty_cons, Bool.false_eq_true,
    if_false, hrows, hloop, hoffer]
  by_cases hbought : 0 < row.bought need
  · rw [if_pos hbought, if_neg (not_le.mpr (lt_min hneed hbought))]
  · rw [if_neg hbought, if_pos (min_le_of_right_le (not_lt.mp hbought))]

/-! ## Rows and offers -/

section Rows

variable (host : Host) (need : ℚ) (required : RequiredDate)

def RowOf (offer : Offer) (row : RankedOffer) : Prop :=
  ∃ key row₀ rank deadlineRisk, rankOffer host need required offer = some (key, row₀) ∧
    row = { row₀ with rank, deadlineRisk }

/-- An offer with its place in the order of the ranking, if it is ranked. -/
def placeOffer (offer : Offer) : Option ((RankKey × RankedOffer) × Offer) :=
  (rankOffer host need required offer).map fun ranked => (ranked, offer)

/-- The offers with a price and something available, as the ranking orders them. -/
def rankedOffers (offers : List Offer) : List Offer :=
  (sortBy (fun item => item.1.1) (offers.filterMap (placeOffer host need required))).map Prod.snd

def chosenOffers (offers : List Offer) (topN : Int) : List Offer :=
  if need ≤ 0 ∨ topN ≤ 0 then [] else sliceTo (rankedOffers host need required offers) topN

/-- **A truthful row.** It claims what the cover by its offer alone buys. -/
structure Truthful (offer : Offer) (row : RankedOffer) : Prop where
  rowOf : RowOf host need required offer row
  coverable : row.coverableQty = (greedyCoverCost need [offer]).coveredQty
  totalCost : some row.totalCost = (greedyCoverCost need [offer]).amount
  overpay : row.overpay = (greedyCoverCost need [offer]).overpay
  unmet : ¬ 0 < offer.bought need → row.coverableQty = 0

def TruthfulRanking (offers : List Offer) (topN : Int) : Prop :=
  List.Forall₂ (Truthful host need required) (chosenOffers host need required offers topN)
    (optimizeSupplierOffers host need offers required topN)

end Rows

variable {host : Host} {need : ℚ} {required : RequiredDate}

theorem sliceTo_map {α β : Type} (f : α → β) (items : List α) (n : Int) :
    sliceTo (items.map f) n = (sliceTo items n).map f := by
  unfold sliceTo
  split
  · rw [List.length_map, List.map_take]
  · rw [List.map_take]

theorem forall₂_setRanks {R : Offer → RankedOffer → Prop} {offers : List Offer}
    {rows : List RankedOffer} (h : List.Forall₂ R offers rows)
    (hrank : ∀ offer row rank, R offer row → R offer { row with rank := rank }) (start : Nat) :
    List.Forall₂ R offers (setRanks start rows) := by
  induction h generalizing start with
  | nil => exact .nil
  | cons hrow _ ih => exact .cons (hrank _ _ start hrow) (ih (start + 1))

/-- The rows of a ranking stand for the offers that it chose. -/
theorem forall₂_rowOf (offers : List Offer) (topN : Int) :
    List.Forall₂ (RowOf host need required) (chosenOffers host need required offers topN)
      (optimizeSupplierOffers host need offers required topN) := by
  unfold chosenOffers optimizeSupplierOffers
  split
  · exact .nil
  · have hfst : offers.filterMap (rankOffer host need required) =
        (offers.filterMap (placeOffer host need required)).map Prod.fst := by
      rw [List.map_filterMap]
      refine List.filterMap_congr fun offer _ => ?_
      unfold placeOffer
      rw [Option.map_map]
      exact Option.map_id'.symm
    dsimp only
    rw [hfst, sortBy_map]
    unfold rankedOffers
    rw [List.map_map, List.map_map, sliceTo_map, sliceTo_map]
    apply forall₂_setRanks
    · rw [List.forall₂_map_left_iff, List.forall₂_map_right_iff, List.forall₂_same]
      intro item hitem
      have hmem := mem_sortBy.mp ((sliceTo_sublist _ _).subset hitem)
      obtain ⟨offer, -, hplace⟩ := List.mem_filterMap.mp hmem
      obtain ⟨ranked, hranked, rfl⟩ := Option.map_eq_some_iff.mp hplace
      exact ⟨ranked.1, ranked.2, ranked.2.rank, _, hranked, rfl⟩
    · rintro offer row rank ⟨key, row₀, -, risk, hrow, rfl⟩
      exact ⟨key, row₀, rank, risk, hrow, rfl⟩

theorem rankOffer_cases {offer : Offer} {key : RankKey} {row : RankedOffer}
    (h : rankOffer host need required offer = some (key, row)) :
    ∃ price available, offer.unitPrice = some price ∧ offer.available = some available ∧
      0 ≤ price ∧ 0 < available ∧
      row.coverableQty = coverableQty need available (singleOfferCost need offer).2.2 ∧
      row.overpay = roundMoney (singleOfferCost need offer).2.1 ∧
      row.totalCost = if (singleOfferCost need offer).1 > 0 then
          roundMoney (singleOfferCost need offer).1
        else roundMoney (row.coverableQty * price) := by
  unfold rankOffer at h
  split at h
  · next price available hprice havailable =>
    split at h
    · cases h
    · next hgood =>
      obtain ⟨hnonneg, hpos⟩ := not_or.mp hgood
      cases h
      exact ⟨price, available, hprice, havailable, not_lt.mp hnonneg, not_le.mp hpos, rfl, rfl, rfl⟩
  · cases h

theorem money_nonneg {value : ℚ} (h : 0 ≤ value) : 0 ≤ money value := by
  have hcents : 0 ≤ ⌊value * 100⌋ := Int.floor_nonneg.mpr (by linarith)
  unfold money
  dsimp only
  refine div_nonneg (Int.cast_nonneg ?_) (by norm_num)
  split <;> omega

/-- The cost of a row is that of the cover, unless it is half a kopeck. -/
theorem rowCost_iff {need bought price : ℚ} (hneed : 0 ≤ need) (hbought : 0 < bought)
    (hprice : 0 ≤ price) :
    (if money (bought * price) > 0 then roundMoney (money (bought * price))
      else roundMoney (min need bought * price)) = money (bought * price) ↔
      (bought ≤ need → bought * price ≠ 1 / 200) := by
  have hpaid : 0 ≤ bought * price := mul_nonneg hbought.le hprice
  by_cases hmore : 1 / 200 < bought * price
  · rw [if_pos ((money_pos_iff hpaid).mpr hmore), roundMoney_money]
    exact iff_of_true rfl fun _ => hmore.ne'
  · have hzero : money (bought * price) = 0 :=
      le_antisymm (not_lt.mp fun h => hmore ((money_pos_iff hpaid).mp h)) (money_nonneg hpaid)
    rw [hzero, if_neg (lt_irrefl 0)]
    rcases le_or_gt bought need with hless | hmoreBought
    · rw [min_eq_right hless, roundMoney_eq_zero_iff hpaid, imp_iff_right hless]
      exact ⟨ne_of_lt, lt_of_le_of_ne (not_lt.mp hmore)⟩
    · have hsome : need * price < 1 / 200 := by
        rcases hprice.eq_or_lt with hfree | hcosts
        · rw [← hfree, mul_zero]
          norm_num
        · exact (mul_lt_mul_of_pos_right hmoreBought hcosts).trans_le (not_lt.mp hmore)
      rw [min_eq_left hmoreBought.le, roundMoney_eq_zero_iff (mul_nonneg hneed hprice)]
      exact iff_of_true hsome fun hless => absurd hless (not_le.mpr hmoreBought)

theorem rowTruthful_iff (hneed : 0 < need) {offer : Offer} {row : RankedOffer}
    (hrow : RowOf host need required offer row) :
    Truthful host need required offer row ↔ offer.Sells need := by
  have hrow' := hrow
  obtain ⟨key, row₀, rank, deadlineRisk, hrank, rfl⟩ := hrow
  obtain ⟨price, available, hprice, havailable, hnonneg, hpos, hcoverable, hoverpay, htotal⟩ :=
    rankOffer_cases hrank
  have hcover := coverRow_eq hprice havailable hnonneg hpos
  have hresult := greedyCoverCost_single hneed hcover
  have hbought : offer.bought need = (offer.row price available).bought need := by
    rw [Offer.bought, hcover]
    rfl
  rw [← hbought] at hresult
  by_cases hmet : 0 < offer.bought need
  swap
  · -- nothing can be bought, and the row covers the need all the same
    refine iff_of_false (fun h => ?_) fun h => hmet h.met
    have hzero : (singleOfferCost need offer).2.2 = 0 := by
      rw [singleOfferCost, hresult, if_neg hmet]
    have hsome : 0 < min need available := lt_min hneed hpos
    have hclaim := h.unmet hmet
    change row₀.coverableQty = 0 at hclaim
    rw [hcoverable, hzero, coverableQty, if_neg (lt_irrefl 0)] at hclaim
    exact hsome.ne' hclaim
  rw [if_pos hmet] at hresult
  have hcost : singleOfferCost need offer = (money (offer.bought need * price),
      money ((offer.bought need - min need (offer.bought need)) * price),
      min need (offer.bought need)) := by
    rw [singleOfferCost, hresult]
    rfl
  have hqty : row₀.coverableQty = min need (offer.bought need) := by
    rw [hcoverable, hcost, coverableQty, if_pos (lt_min hneed hmet), ← min_assoc, min_self]
  rw [hcost, hqty] at htotal
  rw [hcost, roundMoney_money] at hoverpay
  have hpaid := rowCost_iff hneed.le hmet hnonneg
  rw [← htotal] at hpaid
  constructor
  · refine fun h => ⟨hmet, fun hless given hgiven => ?_⟩
    cases hprice.symm.trans hgiven
    have hamount := h.totalCost
    rw [hresult] at hamount
    exact hpaid.mp (Option.some.inj hamount) hless
  · intro h
    refine ⟨hrow', ?_, ?_, ?_, fun hnot => absurd hmet hnot⟩
    · rw [hresult]
      exact hqty
    · rw [hresult]
      exact congrArg some (hpaid.mpr fun hless => h.rounds hless price hprice)
    · rw [hresult]
      exact hoverpay

/-- When related pairs are good exactly where their first items are, all pairs are good exactly
where all first items are. -/
theorem forall₂_iff_of_forall₂ {R S : Offer → RankedOffer → Prop} {p : Offer → Prop}
    {offers : List Offer} {rows : List RankedOffer} (h : List.Forall₂ R offers rows)
    (hiff : ∀ offer row, R offer row → (S offer row ↔ p offer)) :
    List.Forall₂ S offers rows ↔ ∀ offer ∈ offers, p offer := by
  induction h with
  | nil => exact iff_of_true .nil fun _ hmem => absurd hmem List.not_mem_nil
  | cons hrow _ ih => rw [List.forall₂_cons, List.forall_mem_cons, ih, hiff _ _ hrow]

theorem rankOffer_isSome_iff {offer : Offer} :
    (rankOffer host need required offer).isSome ↔ offer.Usable := by
  refine ⟨fun h => ?_, rankOffer_isSome⟩
  obtain ⟨⟨key, row⟩, hrank⟩ := Option.isSome_iff_exists.mp h
  obtain ⟨price, available, hprice, havailable, hnonneg, hpos, -⟩ := rankOffer_cases hrank
  exact ⟨⟨price, hprice, hnonneg⟩, available, havailable, hpos⟩

theorem mem_rankedOffers {offers : List Offer} {offer : Offer} :
    offer ∈ rankedOffers host need required offers ↔ offer ∈ offers ∧ offer.Usable := by
  unfold rankedOffers placeOffer
  simp only [List.mem_map, mem_sortBy, List.mem_filterMap, Option.map_eq_some_iff]
  constructor
  · rintro ⟨_, ⟨given, hgiven, ranked, hranked, rfl⟩, rfl⟩
    exact ⟨hgiven, rankOffer_isSome_iff.mp (Option.isSome_iff_exists.mpr ⟨ranked, hranked⟩)⟩
  · rintro ⟨hoffer, husable⟩
    obtain ⟨ranked, hranked⟩ := Option.isSome_iff_exists.mp
      (@rankOffer_isSome host need required offer husable)
    exact ⟨(ranked, offer), ⟨offer, hoffer, ranked, hranked, rfl⟩, rfl⟩

/-- A ranking is truthful exactly when its offers sell for the need. -/
theorem truthfulRanking_iff (offers : List Offer) (topN : Int) :
    TruthfulRanking host need required offers topN ↔
      ∀ offer ∈ chosenOffers host need required offers topN, offer.Sells need := by
  by_cases hneed : 0 < need
  · exact forall₂_iff_of_forall₂ (forall₂_rowOf offers topN) fun _ _ => rowTruthful_iff hneed
  · have hnone : chosenOffers host need required offers topN = [] := if_pos (.inl (not_lt.mp hneed))
    have hrows : optimizeSupplierOffers host need offers required topN = [] :=
      if_pos (.inl (not_lt.mp hneed))
    unfold TruthfulRanking
    rw [hnone, hrows]
    exact iff_of_true .nil fun _ hmem => absurd hmem List.not_mem_nil

/-- **Truthful rankings.** A ranking is truthful exactly when each offer that it chose sells for the
need, and all rankings of the offers are exactly when each usable offer does. -/
theorem optimizeSupplierOffers_truthful_iff (host : Host) (need : ℚ) (required : RequiredDate)
    (offers : List Offer) :
    (∀ topN, TruthfulRanking host need required offers topN ↔
      ∀ offer ∈ chosenOffers host need required offers topN, offer.Sells need) ∧
    ((∀ topN, TruthfulRanking host need required offers topN) ↔
      (0 < need → ∀ offer ∈ offers, offer.Usable → offer.Sells need)) := by
  refine ⟨truthfulRanking_iff offers, fun h hneed offer hoffer husable => ?_, fun h topN => ?_⟩
  · have hranked : offer ∈ rankedOffers host need required offers :=
      mem_rankedOffers.mpr ⟨hoffer, husable⟩
    -- a ranking that leaves nothing out
    refine (truthfulRanking_iff offers (rankedOffers host need required offers).length).mp (h _)
      offer ?_
    have hlength := List.length_pos_of_mem hranked
    unfold chosenOffers
    rw [if_neg (not_or.mpr ⟨not_le.mpr hneed, by omega⟩), sliceTo, if_neg (by omega),
      Int.natAbs_natCast, List.take_length]
    exact hranked
  · refine (truthfulRanking_iff offers topN).mpr fun offer hoffer => ?_
    unfold chosenOffers at hoffer
    split at hoffer
    · cases hoffer
    · next hask =>
      obtain ⟨hmem, husable⟩ := mem_rankedOffers.mp ((sliceTo_sublist _ _).subset hoffer)
      exact h (not_le.mp fun hle => hask (.inl hle)) offer hmem husable

/-! ## The first row of an economy wave -/

section Economy

variable (host : Host) (need : ℚ) (required : RequiredDate) (offers : List Offer)

/-- A row of an offer that meets the deadline, or of any offer when none does. -/
structure Competes (row : RankedOffer) : Prop where
  offer : ∃ offer ∈ offers, RowOf host need required offer row
  deadline : row.meetsDeadline = true ∨
    ∀ offer ∈ offers, ∀ other, RowOf host need required offer other → other.meetsDeadline = false

/-- **The cheapest first.** The first row competes, and no row that competes costs less. -/
structure CheapestFirst (first : RankedOffer) : Prop where
  competes : Competes host need required offers first
  least : ∀ row, Competes host need required offers row → first.totalCost ≤ row.totalCost

def economyPool (topN : Int) : List RankedOffer :=
  let ranked := optimizeSupplierOffers host need offers required (max topN offers.length)
  let feasible := ranked.filter fun row => row.meetsDeadline
  if feasible.isEmpty then ranked else feasible

/-- A row that costs nothing comes before all that cost something, although it is sorted as if it
cost 999999999. -/
def FreeFirst (pool : List RankedOffer) : Prop :=
  ∃ before free after, pool = before ++ free :: after ∧ free.totalCost = 0 ∧
    (∀ row ∈ before, row.totalCost ≠ 0 → economyOrder free < economyOrder row) ∧
    ∀ row ∈ after, row.totalCost ≠ 0 → economyOrder free ≤ economyOrder row

end Economy

variable {offers : List Offer}

variable {topN : Int} {offer : Offer} {row : RankedOffer}

/-- A ranking of at least as many rows as there are offers leaves none out. -/
theorem chosenOffers_all (hneed : 0 < need) (hoffers : offers ≠ []) :
    chosenOffers host need required offers (max topN offers.length) =
      rankedOffers host need required offers := by
  have hlength : (rankedOffers host need required offers).length ≤ offers.length := by
    unfold rankedOffers
    rw [List.length_map, (perm_sortBy _ _).length_eq]
    exact List.length_filterMap_le _ _
  have hsome := List.length_pos_of_ne_nil hoffers
  unfold chosenOffers
  rw [if_neg (not_or.mpr ⟨not_le.mpr hneed, by omega⟩), sliceTo, if_neg (by omega),
    List.take_of_length_le (by omega)]

theorem forall₂_left {α β : Type} {R : α → β → Prop} {as : List α} {bs : List β}
    (h : List.Forall₂ R as bs) {a : α} (ha : a ∈ as) : ∃ b ∈ bs, R a b := by
  induction h with
  | nil => cases ha
  | @cons _ b _ _ hab _ ih =>
    rcases List.mem_cons.mp ha with rfl | ha
    · exact ⟨b, .head _, hab⟩
    · obtain ⟨b, hb, hab⟩ := ih ha
      exact ⟨b, .tail _ hb, hab⟩

/-- The rows of one offer differ in their rank and the risk at most. -/
theorem RowOf.same {other : RankedOffer} (h : RowOf host need required offer row)
    (h' : RowOf host need required offer other) :
    row.totalCost = other.totalCost ∧ row.meetsDeadline = other.meetsDeadline := by
  obtain ⟨key, row₀, rank, risk, hrank, rfl⟩ := h
  obtain ⟨key', other₀, rank', risk', hrank', rfl⟩ := h'
  cases hrank.symm.trans hrank'
  exact ⟨rfl, rfl⟩

theorem RowOf.setRank (h : RowOf host need required offer row)
    (rank : Nat) : RowOf host need required offer { row with rank := rank } := by
  obtain ⟨key, row₀, -, risk, hrank, rfl⟩ := h
  exact ⟨key, row₀, rank, risk, hrank, rfl⟩

theorem roundMoney_nonneg {value : ℚ} (h : 0 ≤ value) : 0 ≤ roundMoney value := by
  unfold roundMoney
  rw [if_pos h]
  refine div_nonneg (Int.cast_nonneg (Int.floor_nonneg.mpr ?_)) (by norm_num)
  linarith

theorem RowOf.totalCost_nonneg (hneed : 0 < need)
    (h : RowOf host need required offer row) : 0 ≤ row.totalCost := by
  obtain ⟨key, row₀, rank, risk, hrank, rfl⟩ := h
  obtain ⟨price, -, -, -, hprice, -, -, -, htotal⟩ := rankOffer_cases hrank
  have hcoverable := (rankOffer_ranks hneed hrank).coverable_pos
  change 0 ≤ row₀.totalCost
  rw [htotal]
  split
  · next hcost => exact roundMoney_nonneg hcost.le
  · exact roundMoney_nonneg (mul_nonneg hcoverable.le hprice)

theorem mem_ranked (h : row ∈ optimizeSupplierOffers host need offers required topN) :
    ∃ offer ∈ offers, RowOf host need required offer row := by
  obtain ⟨offer, hoffer, hrow⟩ := forall₂_left (forall₂_rowOf offers topN).flip h
  refine ⟨offer, ?_, hrow⟩
  unfold chosenOffers at hoffer
  split at hoffer
  · cases hoffer
  · exact (mem_rankedOffers.mp ((sliceTo_sublist _ _).subset hoffer)).1

theorem exists_ranked (topN : Int) (hneed : 0 < need) (hoffer : offer ∈ offers) (hrow : RowOf host need required offer row) :
    ∃ other ∈ optimizeSupplierOffers host need offers required (max topN offers.length),
      RowOf host need required offer other := by
  refine forall₂_left (forall₂_rowOf offers _) ?_
  rw [chosenOffers_all hneed (List.ne_nil_of_mem hoffer), mem_rankedOffers]
  obtain ⟨key, row₀, -, -, hrank, -⟩ := hrow
  exact ⟨hoffer, rankOffer_isSome_iff.mp (Option.isSome_iff_exists.mpr ⟨_, hrank⟩)⟩

/-- The rows that compete are those that an economy wave sorts. -/
theorem competes_of_mem (hneed : 0 < need) (h : row ∈ economyPool host need required offers topN) :
    Competes host need required offers row := by
  unfold economyPool at h
  dsimp only at h
  split at h
  · next hnone =>
    refine ⟨mem_ranked h, .inr fun offer hoffer other hother => ?_⟩
    obtain ⟨ranked, hranked, hsame⟩ := exists_ranked topN hneed hoffer hother
    rw [(hother.same hsame).2]
    have := List.filter_eq_nil_iff.mp (List.isEmpty_iff.mp hnone) ranked hranked
    simpa using this
  · obtain ⟨hranked, hmeets⟩ := List.mem_filter.mp h
    exact ⟨mem_ranked hranked, .inl hmeets⟩

theorem exists_mem_of_competes (topN : Int) (hneed : 0 < need)
    (h : Competes host need required offers row) :
    ∃ other ∈ economyPool host need required offers topN, other.totalCost = row.totalCost := by
  obtain ⟨offer, hoffer, hrow⟩ := h.offer
  obtain ⟨ranked, hranked, hsame⟩ := exists_ranked topN hneed hoffer hrow
  obtain ⟨hcost, hdeadline⟩ := hsame.same hrow
  refine ⟨ranked, ?_, hcost⟩
  unfold economyPool
  dsimp only
  split
  · exact hranked
  · next hsome =>
    refine List.mem_filter.mpr ⟨hranked, ?_⟩
    rw [hdeadline]
    refine h.deadline.resolve_right fun hnone => ?_
    -- some row meets the deadline, so this one competes only by meeting it
    obtain ⟨met, hmet⟩ := List.exists_mem_of_ne_nil _ (mt List.isEmpty_iff.mpr hsome)
    obtain ⟨hmem, hmeets⟩ := List.mem_filter.mp hmet
    obtain ⟨given, hgiven, hrow'⟩ := mem_ranked hmem
    rw [hnone given hgiven met hrow'] at hmeets
    cases hmeets

theorem orCostly_le_of_economyOrder {a b : RankedOffer} (h : economyOrder a ≤ economyOrder b) :
    orCostly a.totalCost ≤ orCostly b.totalCost := by
  rcases Prod.Lex.le_iff.mp h with hlt | ⟨heq, -⟩
  · exact hlt.le
  · exact heq.le

/-- The row that the sort puts first costs least exactly when no row is free or a free one is sorted
before all that cost something. -/
theorem least_iff {pool : List RankedOffer} (hnonneg : ∀ row ∈ pool, 0 ≤ row.totalCost)
    {first : RankedOffer} (hfirst : (sortBy economyOrder pool).head? = some first) :
    (∀ row ∈ pool, first.totalCost ≤ row.totalCost) ↔
      (∀ row ∈ pool, row.totalCost ≠ 0) ∨ FreeFirst pool := by
  have hmem : first ∈ pool := mem_sortBy.mp (List.mem_of_head? hfirst)
  have hleast : ∀ row ∈ pool, economyOrder first ≤ economyOrder row := by
    intro row hrow
    obtain ⟨before, after, rfl, hbefore, hafter⟩ := head?_sortBy hfirst
    rcases List.mem_append.mp hrow with hrow | hrow
    · exact (hbefore row hrow).le
    · rcases List.mem_cons.mp hrow with rfl | hrow
      · exact le_rfl
      · exact hafter row hrow
  constructor
  · intro h
    by_cases hcost : ∀ row ∈ pool, row.totalCost ≠ 0
    · exact .inl hcost
    · push Not at hcost
      obtain ⟨free, hfree, hzero⟩ := hcost
      have hfirstZero : first.totalCost = 0 :=
        le_antisymm (hzero ▸ h free hfree) (hnonneg first hmem)
      obtain ⟨before, after, hpool, hbefore, hafter⟩ := head?_sortBy hfirst
      exact .inr ⟨before, first, after, hpool, hfirstZero, fun row hrow _ => hbefore row hrow,
        fun row hrow _ => hafter row hrow⟩
  · rintro (hcost | ⟨before', free, after', hpool', hzero, hbefore', hafter'⟩) row hrow
    · have hkey := orCostly_le_of_economyOrder (hleast row hrow)
      rwa [orCostly, orCostly, if_neg (hcost first hmem), if_neg (hcost row hrow)] at hkey
    · suffices hfree : first.totalCost = 0 by
        rw [hfree]
        exact hnonneg row hrow
      by_contra hcosts
      have hfreeMem : free ∈ pool := by
        rw [hpool']
        exact List.mem_append_right _ (.head _)
      -- the first row is before the free one, at it or after it
      obtain ⟨before, after, hpool, hbefore, -⟩ := head?_sortBy hfirst
      rcases List.append_eq_append_iff.mp (hpool'.symm.trans hpool) with
        ⟨gap, hgap, htail⟩ | ⟨gap, hgap, htail⟩
      · cases gap with
        | nil =>
          obtain ⟨rfl, -⟩ := List.cons.inj htail
          exact hcosts hzero
        | cons other gap =>
          obtain ⟨rfl, -⟩ := List.cons.inj htail
          have hfreeBefore : free ∈ before := by
            rw [hgap]
            exact List.mem_append_right _ (.head _)
          have hfirstAfter : first ∈ after' := by
            rw [(List.cons.inj htail).2]
            exact List.mem_append_right _ (.head _)
          exact absurd (hbefore free hfreeBefore) (not_lt.mpr (hafter' first hfirstAfter hcosts))
      · cases gap with
        | nil =>
          obtain ⟨rfl, -⟩ := List.cons.inj htail
          exact hcosts hzero
        | cons other gap =>
          obtain ⟨rfl, -⟩ := List.cons.inj htail
          have hfirstBefore : first ∈ before' := by
            rw [hgap]
            exact List.mem_append_right _ (.head _)
          exact absurd (hbefore' first hfirstBefore hcosts) (not_lt.mpr (hleast free hfreeMem))

theorem sliceTo_eq_take {α : Type} (items : List α) (n : Int) :
    ∃ count, ∀ other : List α, other.length = items.length →
      sliceTo other n = other.take count := by
  by_cases hn : n < 0
  · refine ⟨items.length - n.natAbs, fun other hlength => ?_⟩
    rw [sliceTo, if_pos hn, hlength]
  · exact ⟨n.natAbs, fun other _ => by rw [sliceTo, if_neg hn]⟩

theorem head?_setRanks_sliceTo {pool sorted : List RankedOffer} (hperm : sorted.Perm pool) :
    (setRanks 1 (sliceTo sorted topN)).head? =
      if sliceTo pool topN = [] then none
      else sorted.head?.map fun row => { row with rank := 1 } := by
  obtain ⟨count, hcount⟩ := sliceTo_eq_take pool topN
  rw [hcount sorted hperm.length_eq, hcount pool rfl]
  cases count with
  | zero => simp [setRanks]
  | succ count =>
    cases hsorted : sorted with
    | nil =>
      rw [hsorted] at hperm
      simp [hperm.nil_eq.symm, setRanks]
    | cons first rest =>
      rw [if_neg]
      · rfl
      · intro hnil
        rw [hsorted] at hperm
        rcases List.take_eq_nil_iff.mp hnil with h | h
        · cases h
        · rw [h] at hperm
          cases hperm.length_eq

/-- Three bolts of a supplier that sells by ten are claimed, and the cover buys none of them. -/
theorem optimizeSupplierOffers_claims_a_part_of_a_lot :
    ¬ TruthfulRanking plainHost 5 .missing [boltOffer 2 3 (some 10) none] 3 := by
  intro h
  have hchosen : chosenOffers plainHost 5 .missing [boltOffer 2 3 (some 10) none] 3 =
      [boltOffer 2 3 (some 10) none] := by rfl
  unfold TruthfulRanking at h
  rw [hchosen] at h
  obtain ⟨row, hrow, htruthful⟩ := forall₂_left h (.head _)
  have hclaims : ∀ row ∈ optimizeSupplierOffers plainHost 5 [boltOffer 2 3 (some 10) none]
      .missing 3, row.coverableQty = 3 := by decide +kernel
  have hcovers : (greedyCoverCost 5 [boltOffer 2 3 (some 10) none]).coveredQty = 0 := by
    decide +kernel
  have hthree := (hclaims row hrow).symm.trans (htruthful.coverable.trans hcovers)
  norm_num at hthree

end AgentBack.Procurement
