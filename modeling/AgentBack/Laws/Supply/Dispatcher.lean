import AgentBack.Supply.Dispatcher
import Mathlib.Algebra.Order.BigOperators.Group.List

/-!
# What the dispatcher proposes

What remains of the supplies is read for every position and never lowered, so that every position
may count on all of it. Over the positions for one nomenclature the proposals stay within the
supplies exactly when the demands do: those that the free stock covers, with what other warehouses
and what the arrivals must add to the others.
-/

namespace AgentBack.Dispatcher

open Supply (ValidationIssue)

variable (case : CaseInput) (needs : List NeedLine) (supplies : List SupplyItem)

/-! ## The supplies of a nomenclature -/

def isEligible (nomenclatureId : String) (supply : SupplyItem) : Bool :=
  decide (supply.nomenclatureId = nomenclatureId) && decide (exclusionReason supply = none)

/-- The eligible supplies of a nomenclature that pass a test. -/
def eligible (nomenclatureId : String) (test : SupplyItem → Bool) : List SupplyItem :=
  supplies.filter fun supply => isEligible nomenclatureId supply && test supply

/-- The quantities of the eligible supplies that pass a test, each row once. -/
def quantityOf (nomenclatureId : String) (test : SupplyItem → Bool) : ℚ :=
  ((eligible supplies nomenclatureId test).map SupplyItem.quantity).sum

/-- What remains under the id of a supply: the quantity of the last row with the id. -/
def heldUnder (supply : SupplyItem) : ℚ := (initialRemaining supplies).getD supply.supplyId 0

/-- What remains under the ids of the eligible supplies that pass a test. -/
def heldOf (nomenclatureId : String) (test : SupplyItem → Bool) : ℚ :=
  ((eligible supplies nomenclatureId test).map (heldUnder supplies)).sum

def isStock (supply : SupplyItem) : Bool := supply.sourceType.isStock

def isArrival (supply : SupplyItem) : Bool := supply.sourceType.isArrival && supply.confirmed

def NeedLine.demand (need : NeedLine) : ℚ := need.productionDeficit.getD need.quantity

def freeStockOf (need : NeedLine) : ℚ :=
  heldOf supplies need.nomenclatureId fun supply => supply.isFree (targetWarehouse need case)

/-- What a position takes of the stock: its demand, when the free stock covers it, and otherwise what
other warehouses must add, when they can. -/
def stockDemand (need : NeedLine) : ℚ :=
  if need.demand ≤ freeStockOf case supplies need then need.demand
  else if need.demand ≤ heldOf supplies need.nomenclatureId isStock then
    need.demand - freeStockOf case supplies need
  else 0

/-- What a position takes of the arrivals: what they must add to its free stock, when no stock
suffices and they do. -/
def arrivalDemand (need : NeedLine) : ℚ :=
  if heldOf supplies need.nomenclatureId isStock < need.demand ∧
      need.demand - freeStockOf case supplies need ≤
        heldOf supplies need.nomenclatureId isArrival then
    need.demand - freeStockOf case supplies need
  else 0

def totalOver (nomenclatureId : String) (quantity : NeedLine → ℚ) : ℚ :=
  ((needs.filter fun need => need.nomenclatureId = nomenclatureId).map quantity).sum

def Method.fromStock : Method → Bool
  | .reserveStock | .transfer => true
  | _ => false

def Method.fromArrivals : Method → Bool
  | .linkIncoming => true
  | _ => false

/-- What a list of recommendations proposes by the given methods. -/
def proposedBy (methods : Method → Bool) (recommendations : List Recommendation) : ℚ :=
  ((recommendations.filter fun r => methods r.method).map Recommendation.quantity).sum

def proposed (positions : List AssessmentLine) (nomenclatureId : String)
    (methods : Method → Bool) : ℚ :=
  ((positions.filter fun line => line.nomenclatureId = nomenclatureId).map fun line =>
    proposedBy methods line.recommendations).sum

def Refused : Prop := ∃ issue ∈ validateCase case needs, issue.blocking = true

instance : Decidable (Refused case needs) := inferInstanceAs (Decidable (∃ _ ∈ _, _))

variable {case needs supplies}

/-! ## One position -/

theorem heldUnder_nonneg (supply : SupplyItem) : 0 ≤ heldUnder supplies supply := by
  rw [heldUnder, Dict.getD]
  cases hget : (initialRemaining supplies).get? supply.supplyId with
  | none => exact le_rfl
  | some q =>
    obtain ⟨item, -, hitem⟩ := List.mem_map.mp (Dict.mem_of_get?_ofList hget)
    rw [Option.getD_some, ← (Prod.mk.inj hitem).2]
    exact item.quantity_nonneg

variable (nomenclatureId : String) (test : SupplyItem → Bool)

/-- What the loop includes of a test sums to what is held under the ids of the eligible rows. -/
theorem sumOf_foldl (rows : List SupplyItem) (s : List (SupplyItem × ℚ) × List ExcludedSupply) :
    sumOf test (rows.foldl (includeSupply (initialRemaining supplies) nomenclatureId) s).1 =
      sumOf test s.1 + ((eligible rows nomenclatureId test).map (heldUnder supplies)).sum := by
  induction rows generalizing s with
  | nil => simp [eligible]
  | cons supply rest ih =>
    rw [List.foldl_cons, ih]
    unfold includeSupply eligible
    by_cases hnom : supply.nomenclatureId = nomenclatureId
    · cases hreason : exclusionReason supply with
      | some reason => simp [isEligible, hnom, hreason]
      | none =>
        have hheld : heldUnder supplies supply =
            (initialRemaining supplies).getD supply.supplyId 0 := rfl
        have hnonneg := @heldUnder_nonneg supplies supply
        rw [hheld] at hnonneg
        by_cases hleft : (initialRemaining supplies).getD supply.supplyId 0 ≤ 0
        · have hzero := le_antisymm hleft hnonneg
          cases htest : test supply <;> simp [isEligible, hnom, hreason, htest, hheld, hzero]
        · cases htest : test supply <;>
            simp [sumOf, isEligible, hnom, hreason, htest, hheld, hleft, add_assoc]
    · simp [isEligible, hnom]

/-- What the loop over the supplies includes, in whatever order it takes them. -/
theorem sumOf_included (target : Option String) (now : Int) :
    sumOf test ((sortBy (supplyOrder target now) supplies).foldl
        (includeSupply (initialRemaining supplies) nomenclatureId) ([], [])).1 =
      heldOf supplies nomenclatureId test := by
  have hperm : (eligible (sortBy (supplyOrder target now) supplies) nomenclatureId test).Perm
      (eligible supplies nomenclatureId test) := (perm_sortBy _ supplies).filter _
  rw [sumOf_foldl, heldOf, (hperm.map (heldUnder supplies)).sum_eq]
  simp [sumOf]

theorem heldOf_stock (target : Option String) : heldOf supplies nomenclatureId isStock =
      heldOf supplies nomenclatureId (fun supply => supply.isFree target) +
        heldOf supplies nomenclatureId fun supply => supply.isElsewhere target := by
  unfold heldOf
  generalize heldUnder supplies = held
  induction supplies with
  | nil => simp [eligible]
  | cons supply rest ih =>
    unfold eligible at ih ⊢
    rw [List.filter_cons, List.filter_cons, List.filter_cons]
    cases heligible : isEligible nomenclatureId supply with
    | false => simpa using ih
    | true =>
      cases hstock : supply.sourceType.isStock with
      | false => simpa [isStock, SupplyItem.isFree, SupplyItem.isElsewhere, hstock] using ih
      | true =>
        cases hgiven : Supply.isGiven supply.warehouseId with
        | false =>
          simp [isStock, SupplyItem.isFree, SupplyItem.isElsewhere, hstock, hgiven] at ih ⊢
          rw [ih, add_assoc]
        | true =>
          by_cases htarget : supply.warehouseId = target
          · simp [isStock, SupplyItem.isFree, SupplyItem.isElsewhere, hstock, htarget] at ih ⊢
            rw [ih, add_assoc]
          · simp [isStock, SupplyItem.isFree, SupplyItem.isElsewhere, hstock, hgiven, htarget]
              at ih ⊢
            rw [ih, add_left_comm]

theorem heldOf_nonneg : 0 ≤ heldOf supplies nomenclatureId test := by
  apply List.sum_nonneg
  intro q hq
  obtain ⟨supply, -, rfl⟩ := List.mem_map.mp hq
  exact heldUnder_nonneg supply

theorem quantityOf_nonneg : 0 ≤ quantityOf supplies nomenclatureId test := by
  apply List.sum_nonneg
  intro q hq
  obtain ⟨supply, -, rfl⟩ := List.mem_map.mp hq
  exact supply.quantity_nonneg

/-- What the branches propose, in terms of the demand, the free stock, the other stock and the
arrivals. -/
theorem decideCoverage_proposed (b : Balance) (hother : 0 ≤ b.otherStock) :
    proposedBy Method.fromStock (decideCoverage b).2 =
        (if b.productionDemand ≤ b.freeStock then b.productionDemand
        else if b.productionDemand ≤ b.freeStock + b.otherStock then
          b.productionDemand - b.freeStock
        else 0) ∧
      proposedBy Method.fromArrivals (decideCoverage b).2 =
        if b.freeStock + b.otherStock < b.productionDemand ∧
            b.productionDemand - b.freeStock ≤ b.confirmedArrivals then
          b.productionDemand - b.freeStock
        else 0 := by
  rcases le_or_gt b.productionDemand b.freeStock with hfree | hfree
  · -- the free stock covers the demand, with or without an order to restore the minimum
    have hnot : ¬(b.freeStock + b.otherStock < b.productionDemand ∧
        b.productionDemand - b.freeStock ≤ b.confirmedArrivals) :=
      fun h => absurd h.1 (not_lt.mpr (le_add_of_le_of_nonneg hfree hother))
    rw [if_pos hfree, if_neg hnot]
    cases hmin : b.belowMinimum <;>
      simp [decideCoverage, hfree, hmin, proposedBy, Method.fromStock, Method.fromArrivals]
  · rw [if_neg (not_le.mpr hfree)]
    have hrest : 0 < b.productionDemand - b.freeStock := sub_pos.mpr hfree
    rcases le_or_gt b.productionDemand (b.freeStock + b.otherStock) with hstock | hstock
    · have hadd : b.productionDemand - b.freeStock ≤ b.otherStock :=
        sub_le_iff_le_add'.mpr hstock
      have hpositive : 0 < b.otherStock := lt_of_lt_of_le hrest hadd
      have hquantity : min b.otherStock (max 0 (b.productionDemand - b.freeStock)) =
          b.productionDemand - b.freeStock := by
        rw [max_eq_right (le_of_lt hrest), min_eq_right hadd]
      rw [if_pos hstock, if_neg fun h => absurd h.1 (not_lt.mpr hstock)]
      simp [decideCoverage, not_le.mpr hfree, hpositive, hstock, hquantity, proposedBy,
        Method.fromStock, Method.fromArrivals]
    · rw [if_neg (not_le.mpr hstock)]
      have hshort : ¬(b.otherStock > 0 ∧ b.freeStock + b.otherStock ≥ b.productionDemand) :=
        fun h => absurd h.2 (not_le.mpr hstock)
      by_cases hlink : b.productionDemand - b.freeStock ≤ b.confirmedArrivals
      · have hcover : b.confirmedArrivals > 0 ∧
            b.freeStock + b.confirmedArrivals ≥ b.productionDemand :=
          ⟨lt_of_lt_of_le hrest hlink, sub_le_iff_le_add'.mp hlink⟩
        rw [if_pos ⟨hstock, hlink⟩]
        simp only [decideCoverage, ge_iff_le, not_le.mpr hfree, false_and, if_false]
        rw [if_neg hshort, if_pos hcover]
        simp [proposedBy, Method.fromStock, Method.fromArrivals, le_of_lt hrest]
      · have hnot : ¬(b.confirmedArrivals > 0 ∧
            b.freeStock + b.confirmedArrivals ≥ b.productionDemand) :=
          fun h => hlink (sub_le_iff_le_add'.mpr h.2)
        rw [if_neg fun h => hlink h.2]
        simp only [decideCoverage, ge_iff_le, not_le.mpr hfree, false_and, if_false]
        rw [if_neg hshort, if_neg hnot]
        split <;> simp [proposedBy, Method.fromStock, Method.fromArrivals]

/-- What a position proposes is what it takes of the stock and of the arrivals. -/
theorem assessNeed_proposed (now : Int) (need : NeedLine) :
    proposedBy Method.fromStock
        (assessNeed case supplies (initialRemaining supplies) now need).recommendations =
        stockDemand case supplies need ∧
      proposedBy Method.fromArrivals
        (assessNeed case supplies (initialRemaining supplies) now need).recommendations =
        arrivalDemand case supplies need := by
  have hsums : ∀ test, sumOf test ((sortBy (supplyOrder (targetWarehouse need case) now)
      supplies).foldl (includeSupply (initialRemaining supplies) need.nomenclatureId) ([], [])).1 =
      heldOf supplies need.nomenclatureId test :=
    fun test => sumOf_included need.nomenclatureId test (targetWarehouse need case) now
  rw [stockDemand, arrivalDemand, heldOf_stock need.nomenclatureId (targetWarehouse need case)]
  unfold assessNeed
  simp only [hsums]
  exact decideCoverage_proposed _ (heldOf_nonneg _ _)

/-! ## The positions together -/

theorem positions_calculateDispatcherAssessment (capabilityIssues : List String) (now : Int) :
    (calculateDispatcherAssessment case needs supplies capabilityIssues now).positions =
      if Refused case needs then []
      else needs.map (assessNeed case supplies (initialRemaining supplies) now) := by
  have hiff : (validateCase case needs).filter ValidationIssue.blocking ≠ [] ↔
      Refused case needs := by
    rw [Ne, List.filter_eq_nil_iff]
    simp [Refused]
  unfold calculateDispatcherAssessment
  simp only [hiff]
  by_cases hrefused : Refused case needs
  · have hmissing : ((validateCase case needs).filter ValidationIssue.blocking).map
        ValidationIssue.message ++ Supply.distinct capabilityIssues ≠ [] := by
      intro hnil
      exact hiff.mpr hrefused (List.map_eq_nil_iff.mp (List.append_eq_nil_iff.mp hnil).1)
    rw [if_pos ⟨hmissing, hrefused⟩, if_pos hrefused]
  · rw [if_neg fun h => hrefused h.2, if_neg hrefused]

/-- Over the positions for a nomenclature the proposals sum to what the demands take. -/
theorem proposed_assessNeeds (now : Int) (nomenclatureId : String) :
    proposed (needs.map (assessNeed case supplies (initialRemaining supplies) now)) nomenclatureId
        Method.fromStock = totalOver needs nomenclatureId (stockDemand case supplies) ∧
      proposed (needs.map (assessNeed case supplies (initialRemaining supplies) now)) nomenclatureId
        Method.fromArrivals = totalOver needs nomenclatureId (arrivalDemand case supplies) := by
  unfold proposed totalOver
  induction needs with
  | nil => exact ⟨rfl, rfl⟩
  | cons need rest ih =>
    obtain ⟨hstock, harrivals⟩ := @assessNeed_proposed case supplies now need
    have hnom : (assessNeed case supplies (initialRemaining supplies) now need).nomenclatureId =
        need.nomenclatureId := rfl
    rw [List.map_cons, List.filter_cons, List.filter_cons]
    simp only [hnom]
    by_cases hgroup : need.nomenclatureId = nomenclatureId
    · simp only [hgroup, decide_true, if_true, List.map_cons, List.sum_cons, hstock, harrivals,
        ih.1, ih.2, and_self]
    · simp only [hgroup, decide_false, Bool.false_eq_true, if_false, ih.1, ih.2, and_self]

/-- Where every id stands for one row, what is held is what the rows have. -/
theorem heldOf_eq_quantityOf (hids : (supplies.map SupplyItem.supplyId).Nodup)
    (nomenclatureId : String) (test : SupplyItem → Bool) :
    heldOf supplies nomenclatureId test = quantityOf supplies nomenclatureId test := by
  refine congrArg List.sum (List.map_congr_left fun supply hsupply => ?_)
  have hmem := (List.mem_filter.mp hsupply).1
  have hsame : ∀ other ∈ supplies, other.supplyId = supply.supplyId →
      other.quantity = supply.quantity := by
    intro other hother hid
    rw [List.inj_on_of_nodup_map hids hother hmem hid]
  have hget := Dict.get?_ofList_of_mem hmem hsame
  rw [heldUnder, initialRemaining, Dict.getD, hget, Option.getD_some]

theorem freeStockOf_le (need : NeedLine) :
    freeStockOf case supplies need ≤ heldOf supplies need.nomenclatureId isStock := by
  rw [heldOf_stock need.nomenclatureId (targetWarehouse need case)]
  exact le_add_of_nonneg_right (heldOf_nonneg _ _)

/-- A position alone takes no more than is held. -/
theorem demands_le_held (need : NeedLine) :
    stockDemand case supplies need ≤ heldOf supplies need.nomenclatureId isStock ∧
      arrivalDemand case supplies need ≤ heldOf supplies need.nomenclatureId isArrival := by
  have hfree : 0 ≤ freeStockOf case supplies need := heldOf_nonneg _ _
  constructor
  · unfold stockDemand
    split
    · rename_i hcovered
      exact le_trans hcovered (freeStockOf_le need)
    · split
      · rename_i hstock
        exact le_trans (sub_le_self _ hfree) hstock
      · exact heldOf_nonneg _ _
  · unfold arrivalDemand
    split
    · rename_i hlink
      exact hlink.2
    · exact heldOf_nonneg _ _

/-- One position at most takes no more than any position may. -/
theorem totalOver_le {nomenclatureId : String} {quantity : NeedLine → ℚ} {bound : ℚ}
    (hone : (needs.filter fun need => need.nomenclatureId = nomenclatureId).length ≤ 1)
    (hbound : 0 ≤ bound)
    (hle : ∀ need : NeedLine, need.nomenclatureId = nomenclatureId → quantity need ≤ bound) :
    totalOver needs nomenclatureId quantity ≤ bound := by
  have hmem : ∀ need ∈ needs.filter fun need => decide (need.nomenclatureId = nomenclatureId),
      need.nomenclatureId = nomenclatureId :=
    fun need hneed => of_decide_eq_true (List.mem_filter.mp hneed).2
  unfold totalOver
  generalize (needs.filter fun need => decide (need.nomenclatureId = nomenclatureId)) = group
    at hone hmem ⊢
  rcases group with _ | ⟨need, _ | ⟨need', rest⟩⟩
  · exact hbound
  · rw [List.map_singleton, List.sum_singleton]
    exact hle need (hmem need (List.mem_singleton_self need))
  · exact absurd hone (by simp)

def fiveBolts (lineId : String) : NeedLine where
  lineId
  nomenclatureId := "bolt"
  nomenclatureName := "bolt"
  quantity := 5
  requiredDate := none
  warehouseId := none
  minimumStock := some 0
  maximumStock := none
  reorderPoint := none
  stockGrowthCoefficient := none
  leadTimeDays := none
  dailyConsumption := none
  productionDeficit := none
  packageMultiple := none
  quantity_pos := by norm_num
  minimum_nonneg := by simp
  maximum_nonneg := by simp
  reorder_nonneg := by simp
  coefficient_nonneg := by simp
  consumption_nonneg := by simp
  deficit_nonneg := by simp
  multiple_pos := by simp

def boltRow : SupplyItem where
  supplyId := "S1"
  sourceType := .warehouse
  nomenclatureId := "bolt"
  quantity := 5
  warehouseId := some "W1"
  availableAt := none
  confirmed := true
  reservedForOther := false
  incomingControlPassed := true
  quarantine := false
  defective := false
  blocked := false
  expired := false
  suitable := true
  exactMatch := true
  useAllowed := true
  evidenceId := none
  quantity_nonneg := by norm_num

end AgentBack.Dispatcher
