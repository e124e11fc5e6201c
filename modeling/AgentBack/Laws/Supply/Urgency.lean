import AgentBack.Laws.Supply.Copies
import Mathlib.Tactic.Ring

/-!
# What aggregation keeps

Equal materials of several products are one requirement, with the quantities of all of them and the
flags of the first. So the gross requirement of a material is kept (`sum_gross_aggregate`), and the
urgency of a line is kept exactly when the first line of its group is at least as urgent
(`aggregateSelectedRequirements_keeps_iff`): what the others say of critical orders, stops and lead
times is dropped.
-/

namespace AgentBack.Engineer

open Procurement (DateTime)
open Supply (before comparable momentKey)

/-! ## The lines that are merged -/

/-- A material that one selected product requires. -/
structure MergedLine where
  need : NeedLine
  specification : ResourceSpecification
  material : Material

/-- The lines of the selected products, in their order. -/
def mergedLines (selected : List Selected) : List MergedLine :=
  selected.flatMap fun pair => pair.2.materials.map fun material => ⟨pair.1, pair.2, material⟩

variable (defaultDate : DateTime)

def MergedLine.key (line : MergedLine) : GroupKey := groupKey defaultDate line.need line.material

def MergedLine.gross (line : MergedLine) : ℚ :=
  line.need.quantity * line.material.consumptionRate *
    (1 + line.material.technologicalLossPercent / 100)

def Requirement.key (requirement : Requirement) : GroupKey :=
  groupKey defaultDate requirement.need requirement.material

def groupLines (key : GroupKey) (lines : List MergedLine) : List MergedLine :=
  lines.filter fun line => decide (line.key defaultDate = key)

/-- The requirement of a group: its first line with the quantities and the ids of all. -/
def groupRequirement (first : MergedLine) (rest : List MergedLine) : Requirement where
  need := first.need
  specificationId := first.specification.specificationId
  specificationVersion := first.specification.version
  specificationEvidenceId := first.specification.evidenceId
  material := first.material
  quantity := ((first :: rest).map fun line => line.need.quantity).sum
  lineIds := (first :: rest).map fun line => line.need.lineId

/-- `grouped` after some lines. -/
def groupedOf (lines : List MergedLine) : Dict GroupKey Requirement :=
  lines.foldl
    (fun grouped line => addRequirement defaultDate line.need line.specification grouped
      line.material) ∅

variable {defaultDate}

theorem aggregateSelectedRequirements_eq (selected : List Selected) :
    aggregateSelectedRequirements selected defaultDate =
      (groupedOf defaultDate (mergedLines selected)).values := by
  unfold aggregateSelectedRequirements groupedOf mergedLines
  rw [List.foldl_flatMap]
  simp only [List.foldl_map]

theorem groupedOf_append (lines : List MergedLine) (line : MergedLine) :
    groupedOf defaultDate (lines ++ [line]) =
      addRequirement defaultDate line.need line.specification (groupedOf defaultDate lines)
        line.material := by
  unfold groupedOf
  rw [List.foldl_append]
  rfl

theorem groupLines_append (key : GroupKey) (lines : List MergedLine) (line : MergedLine) :
    groupLines defaultDate key (lines ++ [line]) = groupLines defaultDate key lines ++
      if line.key defaultDate = key then [line] else [] := by
  unfold groupLines
  rw [List.filter_append, List.filter_cons, List.filter_nil]
  simp only [decide_eq_true_eq]

theorem get?_groupedOf (lines : List MergedLine) (key : GroupKey) :
    (groupedOf defaultDate lines).get? key =
      match groupLines defaultDate key lines with
      | [] => none
      | first :: rest => some (groupRequirement first rest) := by
  induction lines using List.reverseRecOn with
  | nil => rfl
  | append_singleton lines line ih =>
    rw [groupedOf_append, groupLines_append]
    unfold addRequirement
    dsimp only
    by_cases hkey : line.key defaultDate = key
    · rw [if_pos hkey]
      have hkey' : groupKey defaultDate line.need line.material = key := hkey
      rw [hkey', ih]
      cases hlines : groupLines defaultDate key lines with
      | nil =>
        rw [List.nil_append]
        dsimp only
        rw [Dict.get?_set_self]
        simp [groupRequirement]
      | cons first rest =>
        rw [List.cons_append]
        dsimp only
        rw [Dict.get?_set_self]
        simp [groupRequirement, add_assoc]
    · rw [if_neg hkey, List.append_nil, ← ih]
      have hkey' : groupKey defaultDate line.need line.material ≠ key := hkey
      split
      · rw [Dict.get?_set_ne _ hkey']
      · rw [Dict.get?_set_ne _ hkey']

theorem mem_aggregate_iff {selected : List Selected} {requirement : Requirement} :
    requirement ∈ aggregateSelectedRequirements selected defaultDate ↔
      ∃ key first rest, groupLines defaultDate key (mergedLines selected) = first :: rest ∧
        requirement = groupRequirement first rest := by
  rw [aggregateSelectedRequirements_eq, Dict.mem_values_iff]
  refine exists_congr fun key => ?_
  rw [get?_groupedOf]
  cases groupLines defaultDate key (mergedLines selected) with
  | nil => simp
  | cons first rest => simp [eq_comm]

theorem key_of_mem_groupLines {key : GroupKey} {lines : List MergedLine} {line : MergedLine}
    (h : line ∈ groupLines defaultDate key lines) :
    line ∈ lines ∧ line.key defaultDate = key := by
  obtain ⟨hmem, hkey⟩ := List.mem_filter.mp h
  exact ⟨hmem, of_decide_eq_true hkey⟩

/-- What a requirement counts for in a sum over some groups. -/
def countedGross (defaultDate : DateTime) (test : GroupKey → Bool) (requirement : Requirement) :
    ℚ :=
  if test (requirement.key defaultDate) then requirement.gross else 0

/-- Adding a line to a requirement of its key adds its gross requirement. -/
theorem countedGross_add (test : GroupKey → Bool) {requirement : Requirement} {line : MergedLine}
    (hkey : requirement.key defaultDate = line.key defaultDate) (lineIds : List String) :
    countedGross defaultDate test
        { requirement with
          quantity := requirement.quantity + line.need.quantity
          lineIds } =
      countedGross defaultDate test requirement +
        if test (line.key defaultDate) then line.gross else 0 := by
  have hrate : requirement.material.consumptionRate = line.material.consumptionRate :=
    congrArg GroupKey.consumptionRate hkey
  have hloss : requirement.material.technologicalLossPercent =
      line.material.technologicalLossPercent :=
    congrArg GroupKey.technologicalLossPercent hkey
  unfold countedGross
  change (if test (requirement.key defaultDate) then _ else _) = _
  rw [hkey]
  split
  · unfold Requirement.gross MergedLine.gross
    dsimp only
    rw [hrate, hloss]
    ring
  · rw [add_zero]

theorem sum_grouped (test : GroupKey → Bool) (lines : List MergedLine) :
    ((groupedOf defaultDate lines).values.map (countedGross defaultDate test)).sum =
      (lines.map fun line => if test (line.key defaultDate) then line.gross else 0).sum := by
  induction lines using List.reverseRecOn with
  | nil => rfl
  | append_singleton lines line ih =>
    rw [groupedOf_append, List.map_append, List.sum_append, List.map_singleton,
      List.sum_singleton, ← ih]
    unfold addRequirement
    dsimp only
    split
    · next hnew =>
      rw [Dict.sum_values_set_new _ hnew]
      rfl
    · next requirement hrequirement =>
      have hsum := Dict.sum_values_set_some _ hrequirement
        { requirement with
          quantity := requirement.quantity + line.need.quantity
          lineIds := requirement.lineIds ++ [line.need.lineId] }
        (countedGross defaultDate test)
      have hkey : requirement.key defaultDate = line.key defaultDate := by
        have hget := @get?_groupedOf defaultDate lines (line.key defaultDate)
        rw [show (groupedOf defaultDate lines).get? (line.key defaultDate) = some requirement from
          hrequirement] at hget
        cases hlines : groupLines defaultDate (line.key defaultDate) lines with
        | nil =>
          rw [hlines] at hget
          cases hget
        | cons first rest =>
          rw [hlines] at hget
          cases hget
          exact (key_of_mem_groupLines (hlines ▸ List.mem_cons_self)).2
      rw [countedGross_add test hkey] at hsum
      linarith

theorem sum_map_filter {α : Type} (p : α → Bool) (f : α → ℚ) (items : List α) :
    ((items.filter p).map f).sum = (items.map fun item => if p item then f item else 0).sum := by
  induction items with
  | nil => rfl
  | cons item rest ih =>
    rw [List.filter_cons, List.map_cons, List.sum_cons, ← ih]
    split
    · rw [List.map_cons, List.sum_cons]
    · rw [zero_add]

/-- Aggregation keeps the gross requirement of every group of materials, those of one nomenclature
among them. -/
theorem sum_gross_aggregate (test : GroupKey → Bool) (selected : List Selected) :
    (((aggregateSelectedRequirements selected defaultDate).filter fun requirement =>
        test (requirement.key defaultDate)).map Requirement.gross).sum =
      (((mergedLines selected).filter fun line => test (line.key defaultDate)).map
        MergedLine.gross).sum := by
  rw [sum_map_filter, sum_map_filter, aggregateSelectedRequirements_eq]
  exact sum_grouped test _

def Criticality.rank : Criticality → Nat
  | .normal => 0
  | .high => 1
  | .critical => 2

def MergedLine.requiredOn (case : CaseInput) (line : MergedLine) : Option DateTime :=
  line.need.requiredDate <|> case.requiredDate

/-- How `_criticality` rates a line of which something is not covered. -/
def MergedLine.rating (case : CaseInput) (now : DateTime) (future : Bool) (line : MergedLine) :
    Option Criticality :=
  (line.requiredOn case).bind fun date => criticality line.need 1 now date future

theorem criticality_of_pos {need : NeedLine} {net : ℚ} (h : 0 < net) (now date : DateTime)
    (future : Bool) :
    criticality need net now date future = criticality need 1 now date future := by
  unfold criticality
  rw [if_neg (not_le.mpr h), if_neg (show ¬ (1 : ℚ) ≤ 0 by norm_num)]

/-- The first line of every group is rated as at least as urgent as every other line of it, with and
without a confirmed future supply. -/
def FirstMostUrgent (case : CaseInput) (now : DateTime) (selected : List Selected) : Prop :=
  ∀ key first rest, groupLines (case.requiredDate.getD now) key (mergedLines selected) =
    first :: rest → ∀ line ∈ rest, ∀ future rating rating',
      line.rating case now future = some rating → first.rating case now future = some rating' →
        rating.rank ≤ rating'.rank

/-! ## The positions of the selected products -/

/-- The requirements of the selected products with their positions. -/
def assessSelected (case : CaseInput) (selected : List Selected) (supplies : List SupplyItem)
    (now : DateTime) : Option (List (Requirement × AssessmentLine)) := do
  let requirements ← sortRequirements case now
    (aggregateSelectedRequirements selected (case.requiredDate.getD now))
  let positions ← assessRequirements case supplies now (initialRemaining supplies) requirements
  return requirements.zip positions

/-- **Urgency is kept.** In every assessment of the selected products a position with something not
covered is at least as urgent as every line that is merged into it. -/
def KeepsUrgency (case : CaseInput) (selected : List Selected) (now : DateTime) : Prop :=
  ∀ supplies, conflictingSupplies ∅ supplies = [] → ∀ assessed,
    assessSelected case selected supplies now = some assessed → ∀ item ∈ assessed,
      0 < item.2.netRequirement → ∀ line ∈ mergedLines selected,
        line.key (case.requiredDate.getD now) = item.1.key (case.requiredDate.getD now) →
          ∀ rating, line.rating case now (decide (0 < item.2.confirmedArrivals)) = some rating →
            rating.rank ≤ item.2.criticality.rank

variable {case : CaseInput} {supplies : List SupplyItem} {now : DateTime}

theorem mem_zip_assessRequirements {requirements : List Requirement} {remaining : Dict String ℚ}
    {positions : List AssessmentLine}
    (h : assessRequirements case supplies now remaining requirements = some positions)
    {item : Requirement × AssessmentLine} (hitem : item ∈ requirements.zip positions) :
    item.1 ∈ requirements ∧ ∃ before left,
      assessRequirement case supplies now before item.1 = some (item.2, left) := by
  induction requirements generalizing remaining positions with
  | nil => cases hitem
  | cons requirement rest ih =>
    obtain ⟨line, left, later, hdone, hlater, rfl⟩ := assessRequirements_cons h
    rw [List.zip_cons_cons] at hitem
    rcases List.mem_cons.mp hitem with rfl | hitem
    · exact ⟨.head _, remaining, left, hdone⟩
    · obtain ⟨hmem, hassessed⟩ := ih hlater hitem
      exact ⟨.tail _ hmem, hassessed⟩

/-- What is confirmed to arrive is some exactly when a future supply gives something. -/
theorem confirmed_pos_iff {breakdown : Dict SourceType SupplyBreakdown}
    (h : ∀ sourceType, 0 ≤ givenBy breakdown sourceType) :
    0 < (futureSupplyTypes.map (givenBy breakdown)).sum ↔
      (futureSupplyTypes.any fun sourceType =>
        decide (givenBy breakdown sourceType > 0)) = true := by
  have horder := h .supplierOrder
  have htransit := h .inTransit
  have hplan := h .productionPlan
  simp only [futureSupplyTypes, List.map_cons, List.map_nil, List.sum_cons, List.sum_nil,
    List.any_cons, List.any_nil, Bool.or_eq_true, decide_eq_true_eq, gt_iff_lt]
  constructor
  · intro hsum
    by_contra hnone
    simp only [not_or, not_lt] at hnone
    linarith [hnone.1, hnone.2.1, hnone.2.2.1]
  · rintro (hpos | hpos | hpos | hpos)
    · linarith
    · linarith
    · linarith
    · cases hpos

theorem included_pos {material : Material} {date : DateTime} {gross : ℚ} (rows : List SupplyItem)
    (remaining : Dict String ℚ) :
    ∀ item ∈ (drawSupplies material date gross rows ⟨remaining, [], []⟩).included, 0 < item.2 := by
  obtain ⟨added, hadded, hserves, -⟩ :=
    @drawSupplies_serves material date gross rows ⟨remaining, [], []⟩
  intro item hitem
  rw [hadded, List.nil_append] at hitem
  exact hserves.draws.positive (item.1.supplyId, item.2) (List.mem_map.mpr ⟨item, hitem, rfl⟩)

theorem givenBy_nonneg {included : List (SupplyItem × ℚ)} (h : ∀ item ∈ included, 0 < item.2)
    (sourceType : SourceType) : 0 ≤ givenBy (included.foldl addBreakdown ∅) sourceType := by
  rw [givenBy_foldl, show givenBy ∅ sourceType = 0 from rfl, zero_add]
  refine List.sum_nonneg (List.forall_mem_map.mpr fun item hitem => ?_)
  exact (h item (List.mem_of_mem_filter hitem)).le

/-- The rating of a position is that of the first line of its group. -/
theorem rating_of_assessRequirement {remaining left : Dict String ℚ} {requirement : Requirement}
    {line : AssessmentLine}
    (h : assessRequirement case supplies now remaining requirement = some (line, left)) :
    ∃ date, requirement.requiredOn case = some date ∧
      criticality requirement.need line.netRequirement now date
        (decide (0 < line.confirmedArrivals)) = some line.criticality := by
  unfold assessRequirement at h
  obtain ⟨date, hdate, h⟩ := Option.bind_eq_some_iff.mp h
  obtain ⟨rows, -, h⟩ := Option.bind_eq_some_iff.mp h
  obtain ⟨rating, hrating, h⟩ := Option.bind_eq_some_iff.mp h
  cases h
  refine ⟨date, hdate, ?_⟩
  have hflag := confirmed_pos_iff (givenBy_nonneg (@included_pos requirement.material date
    requirement.gross rows remaining))
  dsimp only
  rw [decide_eq_decide.mpr hflag, Bool.decide_coe]
  exact hrating

/-- Where the first line of every group is the most urgent one, urgency is kept. -/
theorem keepsUrgency_of_first {selected : List Selected} (h : FirstMostUrgent case now selected) :
    KeepsUrgency case selected now := by
  intro supplies _ assessed hassessed item hitem hnet line hline hkey rating hrating
  obtain ⟨requirements, hsorted, hassessed⟩ := Option.bind_eq_some_iff.mp hassessed
  obtain ⟨positions, hpositions, hassessed⟩ := Option.bind_eq_some_iff.mp hassessed
  cases hassessed
  obtain ⟨hmem, before, left, hposition⟩ := mem_zip_assessRequirements hpositions hitem
  obtain ⟨date, hdate, hcriticality⟩ := rating_of_assessRequirement hposition
  rw [criticality_of_pos hnet] at hcriticality
  have hmem' : item.1 ∈ aggregateSelectedRequirements selected (case.requiredDate.getD now) := by
    unfold sortRequirements at hsorted
    dsimp only at hsorted
    split at hsorted
    · rw [← Option.some.inj hsorted] at hmem
      exact mem_sortBy.mp hmem
    · cases hsorted
  obtain ⟨key, first, rest, hgroup, hrequirement⟩ := mem_aggregate_iff.mp hmem'
  have hfirst : first.rating case now (decide (0 < item.2.confirmedArrivals)) =
      some item.2.criticality := by
    rw [hrequirement] at hdate hcriticality
    unfold MergedLine.rating
    rw [show first.requiredOn case = some date from hdate]
    exact hcriticality
  have hfirstKey : item.1.key (case.requiredDate.getD now) = key := by
    rw [hrequirement]
    exact (key_of_mem_groupLines (hgroup ▸ List.mem_cons_self)).2
  have hin : line ∈ first :: rest := by
    rw [← hgroup]
    exact List.mem_filter.mpr ⟨hline, decide_eq_true (hkey.trans hfirstKey)⟩
  rcases List.mem_cons.mp hin with rfl | hin
  · rw [Option.some.inj (hrating.symm.trans hfirst)]
  · exact h key first rest hgroup line hin _ rating _ hrating hfirst

/-! ## A single future supply -/

def futureOrder (material : Material) (quantity : ℚ) (h : 0 ≤ quantity) : SupplyItem where
  supplyId := "order"
  sourceType := .supplierOrder
  nomenclatureId := material.nomenclatureId
  characteristicId := material.characteristicId
  unit := "base_unit"
  quantity
  warehouseId := none
  availableAt := none
  confirmed := true
  reservedForOther := false
  safetyStockForbidden := false
  incomingControlPassed := true
  quarantine := false
  defective := false
  blocked := false
  expired := false
  suitable := true
  exactMatch := true
  useAllowed := true
  linkedDocumentNumber := none
  linkedDocumentRef := none
  evidenceId := none
  quantity_nonneg := h

theorem canDraw_futureOrder (material : Material) (quantity : ℚ) (h : 0 ≤ quantity)
    (date : DateTime) : canDraw material date (futureOrder material quantity h) = true := by
  unfold canDraw exclusionReason futureOrder
  simp

def takes (case : CaseInput) (supply : SupplyItem) (hand : ℚ) (requirement : Requirement) : ℚ :=
  match requirement.requiredOn case with
  | none => 0
  | some date => if canDraw requirement.material date supply then min requirement.gross hand else 0

theorem drawSupplies_single (supply : SupplyItem) {material : Material} {date : DateTime}
    {gross : ℚ} (hgross : 0 < gross) {remaining : Dict String ℚ}
    (hhand : 0 ≤ onHand remaining supply.supplyId) :
    let drawn := drawSupplies material date gross [supply] ⟨remaining, [], []⟩
    let take := if canDraw material date supply then min gross (onHand remaining supply.supplyId)
      else 0
    drawn.included = (if take = 0 then [] else [(supply, take)]) ∧
      onHand drawn.remaining supply.supplyId = onHand remaining supply.supplyId - take := by
  dsimp only
  unfold drawSupplies
  split
  · next hnom =>
    have hdraw : canDraw material date supply = false := by simp [canDraw, hnom]
    simp [hdraw, drawSupplies]
  · next hnom =>
    split
    · next reason hreason =>
      have hdraw : canDraw material date supply = false := by simp [canDraw, hreason]
      simp [hdraw, drawSupplies, DrawState.exclude]
    · next hreason =>
      have hdraw : canDraw material date supply = true := by
        simp [canDraw, not_not.mp hnom, hreason]
      rw [hdraw, if_pos rfl]
      dsimp only
      split
      · next hempty =>
        have hzero : onHand remaining supply.supplyId = 0 := le_antisymm hempty hhand
        rw [hzero, min_eq_right hgross.le, if_pos rfl, sub_zero]
        exact ⟨rfl, hzero⟩
      · next hsome =>
        have hpos : 0 < onHand remaining supply.supplyId := not_le.mp hsome
        have hneed : max 0 (gross - DrawState.taken ⟨remaining, [], []⟩) = gross := by
          rw [show DrawState.taken ⟨remaining, [], []⟩ = 0 from rfl, sub_zero,
            max_eq_right hgross.le]
        rw [hneed, if_neg (not_le.mpr hgross), if_neg (lt_min hgross hpos).ne']
        refine ⟨rfl, ?_⟩
        change onHand (remaining.set supply.supplyId _) supply.supplyId = _
        rw [onHand_set, if_pos rfl]
        rfl

variable {supply : SupplyItem}

theorem takes_le {hand : ℚ} {requirement : Requirement} (hgross : 0 ≤ requirement.gross) :
    takes case supply hand requirement ≤ requirement.gross := by
  unfold takes
  split
  · exact hgross
  · split
    · exact min_le_left _ _
    · exact hgross

theorem assessRequirement_single (htype : supply.sourceType = .supplierOrder)
    {remaining left : Dict String ℚ} (hhand : 0 ≤ onHand remaining supply.supplyId)
    {requirement : Requirement} (hgross : 0 < requirement.gross) {line : AssessmentLine}
    (h : assessRequirement case [supply] now remaining requirement = some (line, left)) :
    line.netRequirement =
        requirement.gross - takes case supply (onHand remaining supply.supplyId) requirement ∧
      line.confirmedArrivals =
        takes case supply (onHand remaining supply.supplyId) requirement ∧
      onHand left supply.supplyId = onHand remaining supply.supplyId -
        takes case supply (onHand remaining supply.supplyId) requirement := by
  unfold assessRequirement at h
  obtain ⟨date, hdate, h⟩ := Option.bind_eq_some_iff.mp h
  obtain ⟨rows, hrows, h⟩ := Option.bind_eq_some_iff.mp h
  obtain ⟨rating, -, h⟩ := Option.bind_eq_some_iff.mp h
  cases h
  obtain rfl : rows = [supply] := rows_of_sortSupplies hrows
  have htakes : takes case supply (onHand remaining supply.supplyId) requirement =
      if canDraw requirement.material date supply then
        min requirement.gross (onHand remaining supply.supplyId) else 0 := by
    unfold takes Requirement.requiredOn
    rw [hdate]
  have hle := @takes_le case supply (onHand remaining supply.supplyId) requirement hgross.le
  obtain ⟨hincluded, hleft⟩ :=
    @drawSupplies_single supply requirement.material date requirement.gross hgross remaining hhand
  rw [← htakes] at hincluded hleft
  have hsum : ((drawSupplies requirement.material date requirement.gross [supply]
      ⟨remaining, [], []⟩).included.map Prod.snd).sum =
        takes case supply (onHand remaining supply.supplyId) requirement := by
    rw [hincluded]
    split
    · next hzero => exact hzero.symm
    · simp
  have hgiven (sourceType : SourceType) : givenBy ((drawSupplies requirement.material date
      requirement.gross [supply] ⟨remaining, [], []⟩).included.foldl addBreakdown ∅) sourceType =
        if sourceType = .supplierOrder then
          takes case supply (onHand remaining supply.supplyId) requirement else 0 := by
    rw [givenBy_foldl, show givenBy ∅ sourceType = 0 from rfl, zero_add, hincluded]
    split
    · next hzero => simp [includedSum, hzero]
    · by_cases hsource : sourceType = .supplierOrder
      · simp [includedSum, htype, hsource]
      · simp [includedSum, htype, hsource, Ne.symm hsource]
  refine ⟨?_, ?_, hleft⟩
  · dsimp only
    rw [sum_breakdown, hsum, show ((∅ : Dict SourceType SupplyBreakdown).values.map
      SupplyBreakdown.quantity).sum = 0 from rfl, zero_add, max_eq_right (sub_nonneg.mpr hle)]
  · dsimp only
    simp [futureSupplyTypes, hgiven]

/-- What a position would take of enough of a supply. -/
def wants (case : CaseInput) (supply : SupplyItem) (requirement : Requirement) : ℚ :=
  match requirement.requiredOn case with
  | none => 0
  | some date => if canDraw requirement.material date supply then requirement.gross else 0

theorem takes_eq_wants {hand : ℚ} {requirement : Requirement}
    (h : wants case supply requirement ≤ hand) :
    takes case supply hand requirement = wants case supply requirement := by
  unfold wants at h
  unfold takes wants
  split
  · rfl
  · next date hdate =>
    rw [hdate] at h
    dsimp only at h
    split
    · next hdraw =>
      rw [if_pos hdraw] at h
      exact min_eq_left h
    · rfl

theorem wants_nonneg {requirement : Requirement} (h : 0 ≤ requirement.gross) :
    0 ≤ wants case supply requirement := by
  unfold wants
  split
  · exact le_rfl
  · split
    · exact h
    · exact le_rfl

/-- When a supply has enough for the positions before, a position is left with the rest. -/
theorem position_single (htype : supply.sourceType = .supplierOrder) {pre post : List Requirement}
    {requirement : Requirement} (hgross : ∀ r ∈ pre ++ requirement :: post, 0 < r.gross) {rest : ℚ}
    (hrest : 0 ≤ rest) {remaining : Dict String ℚ} {positions : List AssessmentLine}
    (hhand : onHand remaining supply.supplyId = (pre.map (wants case supply)).sum + rest)
    (h : assessRequirements case [supply] now remaining (pre ++ requirement :: post) =
      some positions) :
    ∃ line before left, (requirement, line) ∈ (pre ++ requirement :: post).zip positions ∧
      assessRequirement case [supply] now before requirement = some (line, left) ∧
      line.netRequirement = requirement.gross - takes case supply rest requirement ∧
      line.confirmedArrivals = takes case supply rest requirement := by
  induction pre generalizing remaining positions with
  | nil =>
    rw [List.nil_append] at h hgross
    obtain ⟨line, left, later, hdone, -, rfl⟩ := assessRequirements_cons h
    rw [List.map_nil, List.sum_nil, zero_add] at hhand
    obtain ⟨hnet, hconfirmed, -⟩ := assessRequirement_single htype (hhand ▸ hrest)
      (hgross requirement (.head _)) hdone
    rw [hhand] at hnet hconfirmed
    exact ⟨line, remaining, left, .head _, hdone, hnet, hconfirmed⟩
  | cons first pre ih =>
    rw [List.cons_append] at h hgross
    obtain ⟨line, left, later, hdone, hlater, rfl⟩ := assessRequirements_cons h
    have hfirst := hgross first (.head _)
    have hothers : 0 ≤ (pre.map (wants case supply)).sum :=
      List.sum_nonneg (List.forall_mem_map.mpr fun r hr => wants_nonneg
        (hgross r (.tail _ (List.mem_append_left _ hr))).le)
    have hwants := @wants_nonneg case supply first hfirst.le
    rw [List.map_cons, List.sum_cons] at hhand
    obtain ⟨-, -, hleft⟩ := assessRequirement_single htype (by rw [hhand]; linarith) hfirst hdone
    rw [takes_eq_wants (by rw [hhand]; linarith), hhand] at hleft
    obtain ⟨line', before, left', hmem, hdone', hnet, hconfirmed⟩ :=
      ih (fun r hr => hgross r (.tail _ hr)) (by rw [hleft]; ring) hlater
    exact ⟨line', before, left', .tail _ hmem, hdone', hnet, hconfirmed⟩

/-- Datetimes that compare give a rating. -/
theorem criticality_isSome {date : DateTime}
    (hzone : date.utcOffset.isSome = now.utcOffset.isSome) (need : NeedLine) (net : ℚ)
    (future : Bool) : (criticality need net now date future).isSome := by
  have hlater (days : Int) : ∃ answer, before (plusDays now days) date = some answer :=
    ⟨_, if_pos hzone.symm⟩
  have hsooner (days : Int) : ∃ answer, before date (plusDays now days) = some answer :=
    ⟨_, if_pos hzone⟩
  unfold criticality
  split
  · rfl
  · obtain ⟨answer, hanswer⟩ : ∃ answer, (need.procurementLeadDays.elim (some false) fun days =>
        before date (plusDays now days)) = some answer := by
      cases need.procurementLeadDays with
      | none => exact ⟨false, rfl⟩
      | some days => exact hsooner days
    obtain ⟨later, hlater⟩ := hlater 14
    dsimp only [bind]
    rw [hanswer, Option.bind_some, hlater]
    split
    · rfl
    · split
      · rfl
      · rfl

theorem exists_assessRequirements {requirements : List Requirement}
    (h : ∀ r ∈ requirements, ∃ date, r.requiredOn case = some date ∧
      date.utcOffset.isSome = now.utcOffset.isSome) (remaining : Dict String ℚ) :
    ∃ positions, assessRequirements case [supply] now remaining requirements = some positions := by
  have halike : AllAlike [supply] := by
    intro a ha b hb _
    rw [List.mem_singleton.mp ha, List.mem_singleton.mp hb]
  have hrows : sortSupplies case now [supply] = some [supply] := by
    unfold sortSupplies
    refine if_pos ?_
    cases hfree : supply.isFree case <;> cases hzone : (supply.moment now).utcOffset <;>
      simp [hfree, hzone, comparable]
  induction requirements generalizing remaining with
  | nil => exact ⟨[], rfl⟩
  | cons requirement rest ih =>
    obtain ⟨⟨date, hdate, hzone⟩, hothers⟩ := List.forall_mem_cons.mp h
    obtain ⟨rating, hrating⟩ := Option.isSome_iff_exists.mp (show (ratingOf [supply] now
      (onHand remaining) requirement date [supply]).isSome from criticality_isSome hzone _ _ _)
    obtain ⟨line, left, hdone⟩ := exists_assessRequirement halike remaining hdate hrows hrating
    obtain ⟨later, hlater⟩ := ih hothers left
    refine ⟨line :: later, ?_⟩
    unfold assessRequirements
    rw [hdone]
    dsimp only [bind, Option.bind_some]
    rw [hlater]
    rfl

/-! ## Urgency that is lost -/

/-- The requirements are dated, by datetimes that compare with `now`. -/
def Dated (case : CaseInput) (now : DateTime) (selected : List Selected) : Prop :=
  ∀ requirement ∈ aggregateSelectedRequirements selected (case.requiredDate.getD now),
    ∃ date, requirement.requiredOn case = some date ∧
      date.utcOffset.isSome = now.utcOffset.isSome

variable {selected : List Selected}

theorem gross_pos_of_aggregate {defaultDate : DateTime} {requirement : Requirement}
    (h : requirement ∈ aggregateSelectedRequirements selected defaultDate) :
    0 < requirement.gross := by
  have hloss := requirement.material.loss_nonneg
  exact mul_pos (mul_pos (aggregateSelectedRequirements_pos requirement h)
    requirement.material.rate_pos) (by linarith [div_nonneg hloss (by norm_num : (0 : ℚ) ≤ 100)])

theorem exists_sortRequirements (h : Dated case now selected) :
    ∃ requirements, sortRequirements case now
        (aggregateSelectedRequirements selected (case.requiredDate.getD now)) = some requirements ∧
      ∀ requirement, requirement ∈ requirements ↔
        requirement ∈ aggregateSelectedRequirements selected (case.requiredDate.getD now) := by
  refine ⟨_, if_pos ?_, fun requirement => mem_sortBy⟩
  have hzone : ∀ requirement ∈ aggregateSelectedRequirements selected (case.requiredDate.getD now),
      ((requirement.need.requiredDate <|> case.requiredDate).getD now).utcOffset.isSome =
        now.utcOffset.isSome := by
    intro requirement hmem
    obtain ⟨date, hdate, hzone⟩ := h requirement hmem
    rw [show (requirement.need.requiredDate <|> case.requiredDate) = some date from hdate]
    exact hzone
  unfold comparable
  rw [Bool.or_eq_true, List.all_map, List.all_map, List.all_eq_true, List.all_eq_true]
  cases hnow : now.utcOffset.isSome with
  | true => exact .inl fun requirement hmem => (hzone requirement hmem).trans hnow
  | false =>
    refine .inr fun requirement hmem => ?_
    dsimp only [Function.comp]
    rw [← Option.not_isSome, hzone requirement hmem, hnow]
    rfl

/-- A single confirmed order leaves a requirement with something not covered, and covers some of it
or nothing. -/
theorem exists_position (h : Dated case now selected) {requirement : Requirement}
    (hmem : requirement ∈ aggregateSelectedRequirements selected (case.requiredDate.getD now))
    (future : Bool) :
    ∃ supply assessed line before left, conflictingSupplies ∅ [supply] = [] ∧
      assessSelected case selected [supply] now = some assessed ∧
      (requirement, line) ∈ assessed ∧
      assessRequirement case [supply] now before requirement = some (line, left) ∧
      0 < line.netRequirement ∧ decide (0 < line.confirmedArrivals) = future := by
  obtain ⟨requirements, hsorted, hrequirements⟩ := exists_sortRequirements h
  obtain ⟨pre, post, hsplit⟩ := List.append_of_mem ((hrequirements requirement).mpr hmem)
  have hgross : ∀ r ∈ pre ++ requirement :: post, 0 < r.gross := by
    intro r hr
    rw [← hsplit] at hr
    exact gross_pos_of_aggregate ((hrequirements r).mp hr)
  have hpos := gross_pos_of_aggregate hmem
  -- The order covers what the positions before want, and half of the requirement or nothing of it.
  let rest : ℚ := if future then requirement.gross / 2 else 0
  have hrest : 0 ≤ rest := by
    dsimp only [rest]
    split
    · linarith
    · exact le_rfl
  have hless : rest < requirement.gross := by
    dsimp only [rest]
    split
    · linarith
    · exact hpos
  let wanted := (pre.map (wants case (futureOrder requirement.material 0 le_rfl))).sum
  have hwanted : 0 ≤ wanted := List.sum_nonneg (List.forall_mem_map.mpr fun r hr =>
    wants_nonneg (hgross r (List.mem_append_left _ hr)).le)
  let supply := futureOrder requirement.material (wanted + rest) (add_nonneg hwanted hrest)
  have hconflicts : conflictingSupplies ∅ [supply] = [] := rfl
  have hhand : onHand (initialRemaining [supply]) supply.supplyId =
      (pre.map (wants case supply)).sum + rest :=
    onHand_initialRemaining hconflicts (.head _)
  obtain ⟨positions, hpositions⟩ := @exists_assessRequirements case now supply
    (pre ++ requirement :: post)
    (fun r hr => h r ((hrequirements r).mp (hsplit ▸ hr))) (initialRemaining [supply])
  obtain ⟨line, before, left, hline, hdone, hnet, hconfirmed⟩ :=
    position_single rfl hgross hrest hhand hpositions
  obtain ⟨date, hdate, -⟩ := h requirement hmem
  have htakes : takes case supply rest requirement = rest := by
    unfold takes
    rw [hdate]
    dsimp only
    rw [if_pos (canDraw_futureOrder _ _ _ _), min_eq_right hless.le]
  refine ⟨supply, _, line, before, left, hconflicts, ?_, hline, hdone, ?_, ?_⟩
  · unfold assessSelected
    rw [hsorted, hsplit]
    dsimp only [bind, Option.bind_some]
    rw [hpositions]
    rfl
  · rw [hnet, htakes]
    exact sub_pos.mpr hless
  · rw [hconfirmed, htakes]
    dsimp only [rest]
    cases future with
    | true => exact decide_eq_true (by rw [if_pos rfl]; exact half_pos hpos)
    | false => exact decide_eq_false (by simp)

/-- Where urgency is kept, the first line of every group is the most urgent one. -/
theorem first_of_keepsUrgency (hdated : Dated case now selected)
    (h : KeepsUrgency case selected now) : FirstMostUrgent case now selected := by
  intro key first rest hgroup line hline future rating rating' hrating hrating'
  have hmem : groupRequirement first rest ∈
      aggregateSelectedRequirements selected (case.requiredDate.getD now) :=
    mem_aggregate_iff.mpr ⟨key, first, rest, hgroup, rfl⟩
  obtain ⟨supply, assessed, position, before, left, hconflicts, hassessed, hposition, hdone, hnet,
    rfl⟩ := exists_position hdated hmem future
  obtain ⟨date, hdate, hcriticality⟩ := rating_of_assessRequirement hdone
  rw [criticality_of_pos hnet] at hcriticality
  have hfirst : first.rating case now (decide (0 < position.confirmedArrivals)) =
      some position.criticality := by
    unfold MergedLine.rating
    rw [show first.requiredOn case = some date from hdate]
    exact hcriticality
  cases hrating'.symm.trans hfirst
  have hkey : (groupRequirement first rest).key (case.requiredDate.getD now) = key :=
    (key_of_mem_groupLines (hgroup ▸ List.mem_cons_self)).2
  obtain ⟨hselected, hlineKey⟩ := key_of_mem_groupLines
    (show line ∈ groupLines (case.requiredDate.getD now) key (mergedLines selected) from
      hgroup ▸ List.mem_cons_of_mem _ hline)
  exact h [supply] hconflicts assessed hassessed _ hposition hnet line hselected
    (hlineKey.trans hkey.symm) rating hrating

/-- **Aggregation.** The gross requirement of every material is kept; urgency is kept when the first
line of every group is rated as at least as urgent as the others, and, for requirements with dates
that compare, only then. -/
theorem aggregateSelectedRequirements_keeps_iff (case : CaseInput) (selected : List Selected)
    (now : DateTime) :
    (∀ test : GroupKey → Bool,
      (((aggregateSelectedRequirements selected (case.requiredDate.getD now)).filter
          fun requirement => test (requirement.key (case.requiredDate.getD now))).map
        Requirement.gross).sum =
      (((mergedLines selected).filter fun line =>
          test (line.key (case.requiredDate.getD now))).map MergedLine.gross).sum) ∧
    (FirstMostUrgent case now selected → KeepsUrgency case selected now) ∧
    (Dated case now selected → KeepsUrgency case selected now →
      FirstMostUrgent case now selected) :=
  ⟨fun test => sum_gross_aggregate test selected, keepsUrgency_of_first, first_of_keepsUrgency⟩

def criticalTables : NeedLine := { twoTables with lineId := "2", criticalProductionOrder := true }

/-- With the critical order first its urgency is kept. -/
theorem aggregateSelectedRequirements_keeps_critical :
    KeepsUrgency tableCase
      [(criticalTables, tableSpecification), (twoTables, tableSpecification)] ⟨0, some 0⟩ := by
  refine (aggregateSelectedRequirements_keeps_iff tableCase
    [(criticalTables, tableSpecification), (twoTables, tableSpecification)] ⟨0, some 0⟩).2.1 ?_
  intro key first rest hgroup line _ future rating rating' _ hrating'
  have hlines : ∃ critical other, mergedLines
      [(criticalTables, tableSpecification), (twoTables, tableSpecification)] = [critical, other] ∧
        critical.key ⟨0, some 0⟩ = other.key ⟨0, some 0⟩ ∧
        critical.rating tableCase ⟨0, some 0⟩ future = some .critical := ⟨_, _, rfl, rfl, by
          cases future <;> rfl⟩
  obtain ⟨critical, other, hmerged, hsame, hcritical⟩ := hlines
  have hfirst : first = critical := by
    obtain ⟨hmem, hkey⟩ := key_of_mem_groupLines
      (show first ∈ groupLines _ key (mergedLines _) from hgroup ▸ List.mem_cons_self)
    have hhead : critical.key ⟨0, some 0⟩ = key := by
      rw [hmerged] at hmem
      rcases List.mem_cons.mp hmem with rfl | hmem
      · exact hkey
      · rw [hsame, ← List.mem_singleton.mp hmem]
        exact hkey
    have hhead' : decide (critical.key (tableCase.requiredDate.getD ⟨0, some 0⟩) = key) = true :=
      decide_eq_true hhead
    unfold groupLines at hgroup
    rw [hmerged, List.filter_cons, if_pos hhead'] at hgroup
    exact (List.cons.inj hgroup).1.symm
  rw [hfirst, hcritical] at hrating'
  cases hrating'
  cases rating <;> decide

/-- The critical order is merged into a position that is not critical. -/
theorem aggregateSelectedRequirements_loses_critical :
    ¬ KeepsUrgency tableCase
      [(twoTables, tableSpecification), (criticalTables, tableSpecification)] ⟨0, some 0⟩ := by
  intro h
  have hlost : ((assessSelected tableCase [(twoTables, tableSpecification),
      (criticalTables, tableSpecification)] [] ⟨0, some 0⟩).any fun assessed =>
        assessed.any fun item => decide (0 < item.2.netRequirement) &&
          (mergedLines [(twoTables, tableSpecification), (criticalTables, tableSpecification)]).any
            fun line => decide (line.key ⟨0, some 0⟩ = item.1.key ⟨0, some 0⟩) &&
              (line.rating tableCase ⟨0, some 0⟩ (decide (0 < item.2.confirmedArrivals))).any
                fun rating => decide (item.2.criticality.rank < rating.rank)) = true := by
    decide +kernel
  obtain ⟨assessed, hassessed, hlost⟩ := (Option.any_eq_true _ _).mp hlost
  obtain ⟨item, hitem, hlost⟩ := List.any_eq_true.mp hlost
  obtain ⟨hnet, hlost⟩ := Bool.and_eq_true_iff.mp hlost
  obtain ⟨line, hline, hlost⟩ := List.any_eq_true.mp hlost
  obtain ⟨hkey, hlost⟩ := Bool.and_eq_true_iff.mp hlost
  obtain ⟨rating, hrating, hlower⟩ := (Option.any_eq_true _ _).mp hlost
  have hkept := h [] rfl assessed hassessed item hitem (of_decide_eq_true hnet) line hline
    (of_decide_eq_true hkey) rating hrating
  exact absurd hkept (not_le.mpr (of_decide_eq_true hlower))

end AgentBack.Engineer
