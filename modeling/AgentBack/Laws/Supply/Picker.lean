import AgentBack.Base.Demand
import AgentBack.Supply.Picker

/-!
# What the picker issues

Every position is served from all the rows that are open to it, as if it were alone. The positions
for one nomenclature and one target warehouse stay within what the warehouse has for them exactly
when their requests, each up to the stock open to it, fit it together: for positions of one
assignment when nothing is available, when one position is served, or when the requests of those
that are served sum to at most what is available.
-/

namespace AgentBack.Picker

open Demand (takenUpTo takenUpTo_le_iff)
open Supply (ValidationIssue)

variable (case : CaseInput) (needs : List NeedLine) (supplies : List SupplyItem)

/-! ## The stock of a warehouse -/

/-- A stock row that a position may be served from. -/
def isOpen (need : NeedLine) (supply : SupplyItem) : Bool :=
  decide (supply.nomenclatureId = need.nomenclatureId) && supply.sourceType.isStock &&
    decide (exclusionReason supply need case = none)

/-- The soft reservations of a nomenclature on a target warehouse. -/
def softReserved (nomenclatureId : String) (target : Option String) : ℚ :=
  ((supplies.filter fun supply => decide (supply.nomenclatureId = nomenclatureId) &&
    supply.isSoftReserve && !supply.elsewhere target).map SupplyItem.quantity).sum

/-- What is available to a position: the stock open to it, less the soft reservations. -/
def availableTo (need : NeedLine) : ℚ :=
  max 0 (((supplies.filter (isOpen case need)).map SupplyItem.quantity).sum -
    softReserved supplies need.nomenclatureId (targetWarehouse need case))

/-- The positions for a nomenclature on a target warehouse. -/
def group (nomenclatureId : String) (target : Option String) : List NeedLine :=
  needs.filter fun need =>
    decide (need.nomenclatureId = nomenclatureId ∧ targetWarehouse need case = target)

/-- What the target warehouse has of a nomenclature for the positions that ask for it. -/
def availableToGroup (nomenclatureId : String) (target : Option String) : ℚ :=
  max 0 (((supplies.filter fun supply => (group case needs nomenclatureId target).any
      fun need => isOpen case need supply).map SupplyItem.quantity).sum -
    softReserved supplies nomenclatureId target)

/-- A position is served unless the accounts and the count differ and it asks for more than is
available. -/
def isServed (need : NeedLine) : Bool :=
  let rows := supplies.filter (isOpen case need)
  !(hasDiscrepancy (rows.map SupplyItem.accounted).sum (rows.map SupplyItem.counted).sum &&
    decide (availableTo case supplies need < need.requestedQuantity))

/-- The requests of the positions that are served, each up to what is available to it, fit what is
available to all of them. -/
def RequestsFit (nomenclatureId : String) (target : Option String) : Prop :=
  (((group case needs nomenclatureId target).filter (isServed case supplies)).map fun need =>
      min need.requestedQuantity (availableTo case supplies need)).sum ≤
    availableToGroup case needs supplies nomenclatureId target

/-- What the positions of an answer issue of a nomenclature on a target warehouse. -/
def issued (positions : List AssessmentLine) (nomenclatureId : String) (target : Option String) :
    ℚ :=
  ((positions.filter fun line =>
    decide (line.nomenclatureId = nomenclatureId ∧ line.warehouseId = target)).map
      AssessmentLine.quantityToIssue).sum

variable {case needs supplies}

/-! ## One position -/

theorem availableTo_nonneg {need : NeedLine} : 0 ≤ availableTo case supplies need :=
  le_max_left _ _

theorem isStock_not_softReserve {supply : SupplyItem} (h : supply.sourceType.isStock) :
    supply.isSoftReserve = false := by
  cases hsource : supply.sourceType <;>
    simp_all [SupplyItem.isSoftReserve, SourceType.isStock]

theorem availableToGroup_nonneg {nomenclatureId : String} {target : Option String} :
    0 ≤ availableToGroup case needs supplies nomenclatureId target :=
  le_max_left _ _

/-- The rows that the loop keeps and the soft reservations that it counts. -/
theorem foldl_scanSupply (need : NeedLine) (rows : List SupplyItem) (s : Scan) :
    (rows.foldl (scanSupply case need) s).matched = s.matched ++ rows.filter (fun supply =>
        decide (supply.nomenclatureId = need.nomenclatureId) && !supply.isSoftReserve &&
          decide (exclusionReason supply need case = none)) ∧
      (rows.foldl (scanSupply case need) s).softReserved = s.softReserved +
        softReserved rows need.nomenclatureId (targetWarehouse need case) := by
  induction rows generalizing s with
  | nil => simp [softReserved]
  | cons supply rest ih =>
    obtain ⟨hmatched, hsoft⟩ := ih (scanSupply case need s supply)
    rw [List.foldl_cons, hmatched, hsoft]
    unfold scanSupply
    by_cases hnom : supply.nomenclatureId = need.nomenclatureId
    · by_cases hreserve : supply.isSoftReserve = true
      · by_cases haway : supply.elsewhere (targetWarehouse need case) = true
        · simp [softReserved, hnom, hreserve, haway]
        · simp [softReserved, hnom, hreserve, haway, add_assoc]
      · cases hreason : exclusionReason supply need case with
        | none | some reason => simp [softReserved, hnom, hreserve, hreason]
    · simp [softReserved, hnom]

theorem stockSum_scanSupplies (quantity : SupplyItem → ℚ) (need : NeedLine) :
    stockSum quantity (scanSupplies case need supplies).matched =
      ((supplies.filter (isOpen case need)).map quantity).sum := by
  have hmatched := (@foldl_scanSupply case need supplies ⟨0, 0, [], []⟩).1
  rw [stockSum, scanSupplies, hmatched, List.nil_append, List.filter_filter]
  congr 2
  apply List.filter_congr
  intro supply _
  cases hstock : supply.sourceType.isStock with
  | false => simp [isOpen, hstock]
  | true => simp [isOpen, hstock, isStock_not_softReserve hstock]

theorem storeRoom_le_stockSum (matched : List SupplyItem) :
    ((matched.filter fun item => item.sourceType = .storeRoom).map SupplyItem.quantity).sum ≤
      stockSum SupplyItem.quantity matched := by
  have hsub : (matched.filter fun item => decide (item.sourceType = .storeRoom)).Sublist
      (matched.filter fun item => item.sourceType.isStock) := by
    apply List.monotone_filter_right matched
    intro item hitem
    rw [of_decide_eq_true hitem]
    rfl
  apply (hsub.map SupplyItem.quantity).sum_le_sum
  intro q hq
  obtain ⟨item, -, rfl⟩ := List.mem_map.mp hq
  exact item.quantity_nonneg

theorem decideIssue_issued {discrepant : Bool} {available requested : ℚ} (h : 0 ≤ available) :
    (decideIssue discrepant available requested).2.1 =
      if discrepant ∧ available < requested then 0 else min requested available := by
  unfold decideIssue
  by_cases hreturn : discrepant ∧ available < requested
  · rw [if_pos hreturn, if_pos hreturn]
  · rw [if_neg hreturn, if_neg hreturn]
    rcases le_or_gt requested available with hfull | hshort
    · rw [if_pos hfull, min_eq_left hfull]
    · rw [if_neg (not_le.mpr hshort), min_eq_right (le_of_lt hshort)]
      by_cases hpos : available > 0
      · rw [if_pos hpos]
      · rw [if_neg hpos, le_antisymm (not_lt.mp hpos) h]

/-- A position issues what it asks for, up to what is available to it, or nothing when it is not
served. -/
theorem assessNeed_quantityToIssue (need : NeedLine) :
    (assessNeed case supplies need).availableForIssue = availableTo case supplies need ∧
      (assessNeed case supplies need).quantityToIssue =
        if isServed case supplies need then
          min need.requestedQuantity (availableTo case supplies need)
        else 0 := by
  have hsoft := (@foldl_scanSupply case need supplies ⟨0, 0, [], []⟩).2
  rw [zero_add] at hsoft
  have hroom := storeRoom_le_stockSum (scanSupplies case need supplies).matched
  have hstock := @stockSum_scanSupplies case supplies SupplyItem.quantity need
  have hroomNonneg : 0 ≤ (((scanSupplies case need supplies).matched.filter fun item =>
      item.sourceType = .storeRoom).map SupplyItem.quantity).sum := by
    apply List.sum_nonneg
    intro q hq
    obtain ⟨item, -, rfl⟩ := List.mem_map.mp hq
    exact item.quantity_nonneg
  have havailable : (assessNeed case supplies need).availableForIssue =
      availableTo case supplies need := by
    have hphysical : (if stockSum SupplyItem.quantity (scanSupplies case need supplies).matched > 0
        then stockSum SupplyItem.quantity (scanSupplies case need supplies).matched
        else (((scanSupplies case need supplies).matched.filter fun item =>
          item.sourceType = .storeRoom).map SupplyItem.quantity).sum) =
        stockSum SupplyItem.quantity (scanSupplies case need supplies).matched := by
      split
      · rfl
      · rename_i hzero
        exact le_antisymm hroom (le_trans (not_lt.mp hzero) hroomNonneg)
    simp only [assessNeed, hphysical]
    rw [hstock, show (scanSupplies case need supplies).softReserved = _ from hsoft, availableTo]
    split
    · rename_i hneg
      exact (max_eq_left (le_of_lt hneg)).symm
    · rename_i hnonneg
      exact (max_eq_right (not_lt.mp hnonneg)).symm
  refine ⟨havailable, ?_⟩
  have hissue : (assessNeed case supplies need).quantityToIssue =
      (decideIssue (assessNeed case supplies need).hasDiscrepancy
        (assessNeed case supplies need).availableForIssue need.requestedQuantity).2.1 := rfl
  have hdiscrepant : (assessNeed case supplies need).hasDiscrepancy =
      hasDiscrepancy ((supplies.filter (isOpen case need)).map SupplyItem.accounted).sum
        ((supplies.filter (isOpen case need)).map SupplyItem.counted).sum := by
    simp only [assessNeed, stockSum_scanSupplies]
  rw [hissue, havailable, hdiscrepant, decideIssue_issued availableTo_nonneg]
  generalize hd : hasDiscrepancy _ _ = discrepant
  cases discrepant with
  | false => simp [isServed, hd]
  | true =>
    by_cases hless : availableTo case supplies need < need.requestedQuantity
    · simp [isServed, hd, hless]
    · simp [isServed, hd, hless, not_lt.mp hless]

theorem blocking_validateCase : ∀ issue ∈ validateCase case needs, issue.blocking = true := by
  intro issue hissue
  unfold validateCase at hissue
  simp only [List.mem_append, List.mem_map] at hissue
  rcases hissue with (hissue | hissue) | ⟨need, -, rfl⟩
  · split at hissue
    · rw [List.mem_singleton.mp hissue]
    · cases hissue
  · split at hissue
    · rw [List.mem_singleton.mp hissue]
    · cases hissue
  · rfl

theorem positions_calculatePickerAssessment (capabilityIssues : List String) :
    (calculatePickerAssessment case needs supplies capabilityIssues).positions =
      if validateCase case needs = [] then needs.map (assessNeed case supplies) else [] := by
  have hblocking : (validateCase case needs).filter ValidationIssue.blocking =
      validateCase case needs := List.filter_eq_self.mpr blocking_validateCase
  unfold calculatePickerAssessment
  simp only [hblocking]
  by_cases hvalid : validateCase case needs = []
  · simp [hvalid]
  · simp [hvalid]

/-- Over a group the positions issue what the served requests take. -/
theorem issued_assessNeeds (nomenclatureId : String) (target : Option String) :
    issued (needs.map (assessNeed case supplies)) nomenclatureId target =
      (((group case needs nomenclatureId target).filter (isServed case supplies)).map fun need =>
        min need.requestedQuantity (availableTo case supplies need)).sum := by
  unfold issued group
  induction needs with
  | nil => rfl
  | cons need rest ih =>
    have hissue := (@assessNeed_quantityToIssue case supplies need).2
    have hnom : (assessNeed case supplies need).nomenclatureId = need.nomenclatureId := rfl
    have htarget : (assessNeed case supplies need).warehouseId = targetWarehouse need case := rfl
    rw [List.map_cons, List.filter_cons, List.filter_cons]
    simp only [hnom, htarget]
    by_cases hgroup : need.nomenclatureId = nomenclatureId ∧ targetWarehouse need case = target
    · by_cases hserved : isServed case supplies need = true
      · simp only [hgroup, hserved, decide_true, if_true, List.filter_cons, List.map_cons,
          List.sum_cons, hissue, ih, and_self]
      · simp only [hgroup, hserved, decide_true, if_true, List.filter_cons, List.map_cons,
          List.sum_cons, hissue, ih, and_self, Bool.false_eq_true, if_false, zero_add]
    · simp only [hgroup, decide_false, Bool.false_eq_true, if_false, ih]

/-- Positions that agree in nomenclature, target warehouse and assignment are open to the same
rows. -/
theorem isOpen_congr {need need' : NeedLine} (hnom : need.nomenclatureId = need'.nomenclatureId)
    (htarget : targetWarehouse need case = targetWarehouse need' case)
    (hassignment : need.assignmentId = need'.assignmentId) :
    isOpen case need = isOpen case need' := by
  funext supply
  have hreason : exclusionReason supply need case = exclusionReason supply need' case := by
    unfold exclusionReason
    rw [htarget, hassignment]
  rw [isOpen, isOpen, hnom, hreason]

section

variable {nomenclatureId : String} {target assignmentId : Option String}
  (hone : ∀ need ∈ group case needs nomenclatureId target, need.assignmentId = assignmentId)
include hone

theorem availableTo_eq_group {need : NeedLine}
    (hneed : need ∈ group case needs nomenclatureId target) :
    availableTo case supplies need = availableToGroup case needs supplies nomenclatureId target := by
  have hkey : ∀ n ∈ group case needs nomenclatureId target,
      n.nomenclatureId = nomenclatureId ∧ targetWarehouse n case = target :=
    fun n hn => of_decide_eq_true (List.mem_filter.mp hn).2
  obtain ⟨hnom, htarget⟩ := hkey need hneed
  have hopen : (supplies.filter fun supply => (group case needs nomenclatureId target).any
      fun n => isOpen case n supply) = supplies.filter (isOpen case need) := by
    refine List.filter_congr fun supply _ => Bool.eq_iff_iff.mpr ?_
    rw [List.any_eq_true]
    constructor
    · rintro ⟨n, hn, hsupply⟩
      obtain ⟨hnom', htarget'⟩ := hkey n hn
      rwa [isOpen_congr (hnom.trans hnom'.symm) (htarget.trans htarget'.symm)
        ((hone need hneed).trans (hone n hn).symm)]
    · exact fun hsupply => ⟨need, hneed, hsupply⟩
  rw [availableTo, availableToGroup, hopen, hnom, htarget]

/-- For positions of one assignment the requests fit when nothing is available, when one position is
served at most, or when the served requests sum to at most what is available. -/
theorem requestsFit_iff :
    RequestsFit case needs supplies nomenclatureId target ↔
      availableToGroup case needs supplies nomenclatureId target = 0 ∨
        ((group case needs nomenclatureId target).filter (isServed case supplies)).length ≤ 1 ∨
        (((group case needs nomenclatureId target).filter (isServed case supplies)).map
          NeedLine.requestedQuantity).sum ≤
            availableToGroup case needs supplies nomenclatureId target := by
  have hcut : (((group case needs nomenclatureId target).filter (isServed case supplies)).map
      fun need => min need.requestedQuantity (availableTo case supplies need)).sum =
      takenUpTo (availableToGroup case needs supplies nomenclatureId target)
        (((group case needs nomenclatureId target).filter (isServed case supplies)).map
          NeedLine.requestedQuantity) := by
    rw [takenUpTo, List.map_map]
    refine congrArg List.sum (List.map_congr_left fun need hneed => ?_)
    rw [Function.comp_apply, availableTo_eq_group hone (List.mem_filter.mp hneed).1]
  have hpos : ∀ r ∈ ((group case needs nomenclatureId target).filter
      (isServed case supplies)).map NeedLine.requestedQuantity, 0 < r := by
    intro r hr
    obtain ⟨need, -, rfl⟩ := List.mem_map.mp hr
    exact need.requested_pos
  rw [RequestsFit, hcut, takenUpTo_le_iff availableToGroup_nonneg hpos, List.length_map]

end

theorem five_pos : (0 : ℚ) < 5 := by norm_num

theorem five_nonneg : (0 : ℚ) ≤ 5 := five_pos.le

theorem absent_nonneg (q : ℚ) (h : none = some q) : 0 ≤ q := by
  cases h

def fiveBolts (lineId : String) : NeedLine where
  lineId
  nomenclatureId := "bolt"
  requestedQuantity := 5
  warehouseId := none
  assignmentId := none
  requested_pos := five_pos

def boltRow : SupplyItem where
  supplyId := "S1"
  sourceType := .warehouse
  nomenclatureId := "bolt"
  quantity := 5
  warehouseId := some "W1"
  assignmentId := none
  accountingQuantity := none
  factualQuantity := none
  availableForIssue := true
  reservedForOther := false
  quarantine := false
  defective := false
  blocked := false
  suitable := true
  exactMatch := true
  useAllowed := true
  evidenceId := none
  quantity_nonneg := five_nonneg
  accounting_nonneg := absent_nonneg
  factual_nonneg := absent_nonneg

end AgentBack.Picker
