import AgentBack.Base.Greedy
import AgentBack.Procurement.OrderCoverage
import Mathlib.Tactic.Linarith

/-!
# Orders that offer the same

The rows of a snapshot depend on the lines of the selected supplier orders, and on these only
through what they offer of each material as long as every line suits the positions of its material
(`positionRows_agree`): a position then gets the smaller of what it asks for and what is left of the
material, and that much less is left for the next one.
-/

namespace AgentBack.Coverage

open Py (Reading Value textOf decimalOf strOf)

/-! ## The offers of documents -/

section
variable (py : Reading)

/-- The lines of the documents that are not cancelled, under their keys. -/
def allLines (kind : DocKind) (orders : List Value) : List (AllocationKey × OrderLine) :=
  orders.flatMap fun order =>
    if documentCancelled py order then []
    else (linesFromOrder py order).map fun line => (⟨kind, orderRef py order, line.lineId⟩, line)

/-- The offers of the lines that a test lets through. -/
def offersOf (lines : List (AllocationKey × OrderLine)) (test : OrderLine → Bool) :
    List (AllocationKey × Rat) :=
  (lines.filter fun entry => test entry.2).map fun entry => (entry.1, entry.2.quantity)

def Allocation.pair (s : Allocation) : Rat × Dict AllocationKey Rat := (s.remaining, s.consumed)

theorem offersOf_cons (entry : AllocationKey × OrderLine) (lines : List (AllocationKey × OrderLine))
    (test : OrderLine → Bool) :
    offersOf (entry :: lines) test =
      if test entry.2 then (entry.1, entry.2.quantity) :: offersOf lines test
      else offersOf lines test := by
  unfold offersOf
  rw [List.filter_cons]
  split
  · rfl
  · rfl

theorem offersOf_append (lines lines' : List (AllocationKey × OrderLine)) (test : OrderLine → Bool) :
    offersOf (lines ++ lines') test = offersOf lines test ++ offersOf lines' test := by
  unfold offersOf
  rw [List.filter_append, List.map_append]

variable {py}

theorem pair_allocateLine (kind : DocKind) (need : Need) (order : Value) (s : Allocation)
    (line : OrderLine) :
    (allocateLine py kind need order s line).pair =
      if need.matches line then
        draw s.pair (⟨kind, orderRef py order, line.lineId⟩, line.quantity)
      else s.pair := by
  unfold allocateLine
  by_cases hmatches : need.matches line = true
  · rw [if_pos hmatches]
    unfold draw
    by_cases hclosed : s.remaining ≤ 0
    · rw [if_pos (.inl hclosed), if_pos (.inl hclosed)]
    · rw [if_neg (by simp [hclosed, hmatches])]
      dsimp only
      by_cases hempty : max 0 (line.quantity -
          s.consumed.getD ⟨kind, orderRef py order, line.lineId⟩ 0) ≤ 0
      · rw [if_pos hempty]
        exact (if_pos (.inr hempty)).symm
      · rw [if_neg hempty]
        exact (if_neg (not_or.mpr ⟨hclosed, hempty⟩)).symm
  · rw [if_neg hmatches, if_pos (.inr (Bool.eq_false_iff.mpr hmatches))]

theorem pair_foldl_lines (kind : DocKind) (need : Need) (order : Value) (lines : List OrderLine)
    (s : Allocation) :
    (lines.foldl (allocateLine py kind need order) s).pair =
      drawAll s.pair (offersOf (lines.map fun line =>
        (⟨kind, orderRef py order, line.lineId⟩, line)) need.matches) := by
  induction lines generalizing s with
  | nil => rfl
  | cons line rest ih =>
    rw [List.foldl_cons, ih, pair_allocateLine, List.map_cons, offersOf_cons]
    split
    · rfl
    · rfl

theorem pair_foldl_orders (kind : DocKind) (need : Need) (orders : List Value) (s : Allocation) :
    (orders.foldl (allocateOrder py kind need) s).pair =
      drawAll s.pair (offersOf (allLines py kind orders) need.matches) := by
  induction orders generalizing s with
  | nil => rfl
  | cons order rest ih =>
    have hfirst : (allocateOrder py kind need s order).pair = drawAll s.pair (offersOf
        (if documentCancelled py order then [] else (linesFromOrder py order).map fun line =>
          (⟨kind, orderRef py order, line.lineId⟩, line)) need.matches) := by
      unfold allocateOrder
      split
      · rfl
      · exact pair_foldl_lines kind need order _ s
    rw [List.foldl_cons, ih, hfirst]
    unfold allLines
    rw [List.flatMap_cons, offersOf_append]
    exact (List.foldl_append ..).symm

/-- A position draws from the offers that match it. -/
theorem allocateDocs_eq (needQty : Rat) (need : Need) (orders : List Value) (kind : DocKind)
    (consumed : Dict AllocationKey Rat) :
    (allocateDocs py needQty need orders kind consumed).1 = max 0 needQty -
        (drawAll (max 0 needQty, consumed)
          (offersOf (allLines py kind orders) need.matches)).1 ∧
      (allocateDocs py needQty need orders kind consumed).2.2 =
        (drawAll (max 0 needQty, consumed)
          (offersOf (allLines py kind orders) need.matches)).2 := by
  unfold allocateDocs
  split
  · next hnone =>
    rw [max_eq_left hnone, drawAll_of_nonpos (le_refl _)]
    exact ⟨(sub_self _).symm, rfl⟩
  · next hsome =>
    rw [max_eq_right (le_of_lt (not_le.mp hsome))]
    have hpair := @pair_foldl_orders py kind need orders ⟨needQty, [], consumed⟩
    change _ = drawAll (needQty, consumed) _ at hpair
    rw [← hpair]
    exact ⟨rfl, rfl⟩

def offersOfMaterial (lines : List (AllocationKey × OrderLine)) (nomenclatureId : String) :
    List (AllocationKey × Rat) :=
  offersOf lines fun line => line.nomenclatureId = nomenclatureId

/-- Every line of the material that offers something suits the position. -/
def Suits (lines : List (AllocationKey × OrderLine)) (need : Need) : Prop :=
  ∀ entry ∈ lines, 0 < entry.2.quantity → entry.2.nomenclatureId = need.nomenclatureId →
    need.matches entry.2 = true

/-- The lines have distinct keys, and suit the positions of their materials. -/
structure Plain (lines : List (AllocationKey × OrderLine)) (needs : List Need) : Prop where
  keys : (lines.map Prod.fst).Nodup
  suits : ∀ need ∈ needs, Suits lines need

variable {lines : List (AllocationKey × OrderLine)}

theorem nodup_offersOf (h : (lines.map Prod.fst).Nodup) (test : OrderLine → Bool) :
    ((offersOf lines test).map Prod.fst).Nodup := by
  unfold offersOf
  rw [List.map_map]
  exact h.sublist (List.filter_sublist.map Prod.fst)

theorem supply_offersOf (consumed : Dict AllocationKey Rat)
    (lines : List (AllocationKey × OrderLine)) (test : OrderLine → Bool) :
    supply consumed (offersOf lines test) = (lines.map fun entry =>
      if test entry.2 then leftOf consumed (entry.1, entry.2.quantity) else 0).sum := by
  induction lines with
  | nil => rfl
  | cons entry rest ih =>
    rw [List.map_cons, List.sum_cons, offersOf_cons, ← ih]
    split
    · rw [supply_cons]
    · rw [zero_add]

theorem supply_matches {need : Need} (h : Suits lines need) {consumed : Dict AllocationKey Rat}
    (hsign : ∀ k, 0 ≤ onHand consumed k) :
    supply consumed (offersOf lines need.matches) =
      supply consumed (offersOfMaterial lines need.nomenclatureId) := by
  unfold offersOfMaterial
  rw [supply_offersOf, supply_offersOf]
  congr 1
  apply List.map_congr_left
  intro entry hentry
  by_cases hpositive : 0 < entry.2.quantity
  · have hmatches : need.matches entry.2 =
        decide (entry.2.nomenclatureId = need.nomenclatureId) := by
      by_cases hmaterial : entry.2.nomenclatureId = need.nomenclatureId
      · rw [h entry hentry hpositive hmaterial, decide_eq_true hmaterial]
      · unfold Need.matches
        rw [decide_eq_false hmaterial, Bool.false_and]
    rw [hmatches]
  · have hleft : leftOf consumed (entry.1, entry.2.quantity) = 0 := by
      apply max_eq_left
      have hconsumed := hsign entry.1
      dsimp only
      linarith
    rw [hleft, ite_self, ite_self]

/-- After a position, what it took of its material is gone, and other materials are as they were. -/
theorem supply_after (hkeys : (lines.map Prod.fst).Nodup) {need : Need} (h : Suits lines need)
    {s : Rat × Dict AllocationKey Rat} (hneed : 0 ≤ s.1) (hsign : ∀ k, 0 ≤ onHand s.2 k)
    (nomenclatureId : String) :
    supply (drawAll s (offersOf lines need.matches)).2 (offersOfMaterial lines nomenclatureId) =
      supply s.2 (offersOfMaterial lines nomenclatureId) -
        if nomenclatureId = need.nomenclatureId then
          min s.1 (supply s.2 (offersOfMaterial lines need.nomenclatureId))
        else 0 := by
  by_cases hsame : nomenclatureId = need.nomenclatureId
  · subst hsame
    have hsign' : ∀ k, 0 ≤ onHand (drawAll s (offersOf lines need.matches)).2 k := by
      intro k
      exact le_trans (hsign k) (le_onHand_drawAll hneed _ k)
    rw [if_pos rfl, ← supply_matches h hsign', ← supply_matches h hsign]
    exact (drawAll_supply hneed (nodup_offersOf hkeys _)).2
  · rw [if_neg hsame, sub_zero]
    apply supply_congr
    intro offer hoffer
    obtain ⟨entry, hentry, rfl⟩ := List.mem_map.mp hoffer
    obtain ⟨hmem, hmaterial⟩ := List.mem_filter.mp hentry
    apply onHand_drawAll_of_not_mem hneed
    intro offer' hoffer' hkey
    obtain ⟨entry', hentry', rfl⟩ := List.mem_map.mp hoffer'
    obtain ⟨hmem', hmatches⟩ := List.mem_filter.mp hentry'
    have he : entry' = entry := List.inj_on_of_nodup_map hkeys hmem' hmem hkey
    subst he
    unfold Need.matches at hmatches
    rw [Bool.and_eq_true, decide_eq_true_eq] at hmatches
    exact hsame ((of_decide_eq_true hmaterial).symm.trans hmatches.1)

/-! ## The rows -/

/-- What a row says of the coverage, without the documents. -/
structure RowView where
  lineId : String
  nomenclatureId : String
  characteristicId : Option String
  requestedQuantity : Rat
  supplierOrderedQuantity : Rat
  transferOrderedQuantity : Rat
  coveredQuantity : Rat
  remainingQuantity : Rat
  source : CoverageSource
  fullyCovered : Bool
  deriving DecidableEq

def PositionRow.view (row : PositionRow) : RowView :=
  ⟨row.lineId, row.nomenclatureId, row.characteristicId, row.requestedQuantity,
    row.supplierOrderedQuantity, row.transferOrderedQuantity, row.coveredQuantity,
    row.remainingQuantity, row.source, row.fullyCovered⟩

def viewStatus (views : List RowView) : CoverageStatus :=
  if views.length ≠ 0 ∧ (views.filter RowView.fullyCovered).length = views.length then .full
  else if views.any fun view => decide (0 < view.coveredQuantity) then .partly
  else .uncovered

theorem coverageStatus_eq (rows : List PositionRow) :
    coverageStatus rows = viewStatus (rows.map PositionRow.view) := by
  unfold coverageStatus viewStatus
  rw [List.length_map, List.filter_map, List.length_map, List.any_map]
  rfl

/-- Two lists of lines offer the same of each material. -/
def SameOffers (lines lines' : List (AllocationKey × OrderLine))
    (consumed consumed' : Dict AllocationKey Rat) : Prop :=
  ∀ nomenclatureId, supply consumed (offersOfMaterial lines nomenclatureId) =
    supply consumed' (offersOfMaterial lines' nomenclatureId)

/-- Two runs over the positions see the same: the transfer orders, and what is offered of each
material. -/
structure Agree (lines lines' : List (AllocationKey × OrderLine))
    (consumed consumed' : Dict AllocationKey Rat) : Prop where
  transfer : ∀ k : AllocationKey, k.kind = .transferOrder → onHand consumed k = onHand consumed' k
  offers : SameOffers lines lines' consumed consumed'
  nonneg : ∀ k, 0 ≤ onHand consumed k
  nonneg' : ∀ k, 0 ≤ onHand consumed' k

theorem kind_of_mem_allLines {kind : DocKind} {orders : List Value}
    {entry : AllocationKey × OrderLine} (h : entry ∈ allLines py kind orders) :
    entry.1.kind = kind := by
  obtain ⟨order, -, hentry⟩ := List.mem_flatMap.mp h
  split at hentry
  · cases hentry
  · obtain ⟨line, -, rfl⟩ := List.mem_map.mp hentry
    rfl

theorem kind_of_mem_offers {kind : DocKind} {orders : List Value} {test : OrderLine → Bool} :
    ∀ offer ∈ offersOf (allLines py kind orders) test, offer.1.kind = kind := by
  intro offer hoffer
  obtain ⟨entry, hentry, rfl⟩ := List.mem_map.mp hoffer
  exact kind_of_mem_allLines (List.mem_of_mem_filter hentry)

/-- The draws of one kind of documents leave what the other kind offers. -/
theorem supply_other_kind {kind kind' : DocKind} (hkind : kind ≠ kind') {orders orders' : List Value}
    {s : Rat × Dict AllocationKey Rat} (h : 0 ≤ s.1) (test test' : OrderLine → Bool) :
    supply (drawAll s (offersOf (allLines py kind orders) test)).2
        (offersOf (allLines py kind' orders') test') =
      supply s.2 (offersOf (allLines py kind' orders') test') := by
  apply supply_congr
  intro offer hoffer
  apply onHand_drawAll_of_not_mem h
  intro offer' hoffer' hkey
  apply hkind
  rw [← kind_of_mem_offers offer' hoffer', hkey, kind_of_mem_offers offer hoffer]

section
variable {qtyOrders qtyOrders' : List Value}

variable {consumed consumed' : Dict AllocationKey Rat}

/-- The transfer orders give both runs the same, and leave them in agreement. -/
theorem transfer_agree
    (h : Agree (allLines py .supplierOrder qtyOrders) (allLines py .supplierOrder qtyOrders') consumed
      consumed') (needQty : Rat) (need : Need) (transfers : List Value) :
    (allocateDocs py needQty need transfers .transferOrder consumed).1 =
        (allocateDocs py needQty need transfers .transferOrder consumed').1 ∧
      Agree (allLines py .supplierOrder qtyOrders) (allLines py .supplierOrder qtyOrders')
        (allocateDocs py needQty need transfers .transferOrder consumed).2.2
        (allocateDocs py needQty need transfers .transferOrder consumed').2.2 := by
  obtain ⟨hquantity, hconsumed⟩ := @allocateDocs_eq py needQty need transfers .transferOrder
    consumed
  obtain ⟨hquantity', hconsumed'⟩ := @allocateDocs_eq py needQty need transfers .transferOrder
    consumed'
  have hneed : (0 : Rat) ≤ max 0 needQty := le_max_left _ _
  have hkinds := @kind_of_mem_offers py .transferOrder transfers need.matches
  have hsame : (max 0 needQty, consumed).1 = (max 0 needQty, consumed').1 := rfl
  obtain ⟨hleft, htransfer⟩ := drawAll_congr (s := (max 0 needQty, consumed)) hneed hsame
    (P := fun k => k.kind = .transferOrder) hkinds h.transfer
  rw [hquantity, hquantity', hconsumed, hconsumed', hleft]
  refine ⟨rfl, htransfer, ?_, ?_, ?_⟩
  · intro nomenclatureId
    have hkinds : DocKind.transferOrder ≠ .supplierOrder := by decide
    unfold offersOfMaterial
    rw [supply_other_kind hkinds (s := (max 0 needQty, consumed)) hneed,
      supply_other_kind hkinds (s := (max 0 needQty, consumed')) hneed]
    exact h.offers nomenclatureId
  · intro k
    exact le_trans (h.nonneg k) (le_onHand_drawAll (s := (max 0 needQty, consumed)) hneed _ k)
  · intro k
    exact le_trans (h.nonneg' k) (le_onHand_drawAll (s := (max 0 needQty, consumed')) hneed _ k)

section

variable {needs : List Need} (hplain : Plain (allLines py .supplierOrder qtyOrders) needs)
  (hplain' : Plain (allLines py .supplierOrder qtyOrders') needs)
  (h : Agree (allLines py .supplierOrder qtyOrders) (allLines py .supplierOrder qtyOrders')
    consumed consumed')
include hplain hplain' h

/-- So do the supplier orders, when their lines suit the position. -/
theorem supplier_agree (needQty : Rat) {need : Need} (hmem : need ∈ needs) :
    (allocateDocs py needQty need qtyOrders .supplierOrder consumed).1 =
        (allocateDocs py needQty need qtyOrders' .supplierOrder consumed').1 ∧
      Agree (allLines py .supplierOrder qtyOrders) (allLines py .supplierOrder qtyOrders')
        (allocateDocs py needQty need qtyOrders .supplierOrder consumed).2.2
        (allocateDocs py needQty need qtyOrders' .supplierOrder consumed').2.2 := by
  obtain ⟨hquantity, hconsumed⟩ := @allocateDocs_eq py needQty need qtyOrders .supplierOrder
    consumed
  obtain ⟨hquantity', hconsumed'⟩ := @allocateDocs_eq py needQty need qtyOrders' .supplierOrder
    consumed'
  have hneed : (0 : Rat) ≤ max 0 needQty := le_max_left _ _
  have hgot := (drawAll_supply (s := (max 0 needQty, consumed)) hneed
    (nodup_offersOf hplain.keys need.matches)).1
  have hgot' := (drawAll_supply (s := (max 0 needQty, consumed')) hneed
    (nodup_offersOf hplain'.keys need.matches)).1
  dsimp only at hgot hgot'
  have hsuits := hplain.suits need hmem
  have hsuits' := hplain'.suits need hmem
  rw [supply_matches hsuits h.nonneg, h.offers] at hgot
  rw [supply_matches hsuits' h.nonneg'] at hgot'
  rw [hquantity, hquantity', hconsumed, hconsumed', hgot, hgot']
  refine ⟨rfl, ?_, ?_, ?_, ?_⟩
  · intro k hk
    have hother : ∀ {orders : List Value} {test : OrderLine → Bool},
        ∀ offer ∈ offersOf (allLines py .supplierOrder orders) test, offer.1 ≠ k := by
      intro orders test offer hoffer he
      have hkind := kind_of_mem_offers offer hoffer
      rw [he, hk] at hkind
      cases hkind
    rw [onHand_drawAll_of_not_mem (s := (max 0 needQty, consumed)) hneed hother,
      onHand_drawAll_of_not_mem (s := (max 0 needQty, consumed')) hneed hother]
    exact h.transfer k hk
  · intro nomenclatureId
    rw [supply_after hplain.keys hsuits (s := (max 0 needQty, consumed)) hneed h.nonneg,
      supply_after hplain'.keys hsuits' (s := (max 0 needQty, consumed')) hneed h.nonneg']
    dsimp only
    rw [h.offers nomenclatureId, h.offers need.nomenclatureId]
  · intro k
    exact le_trans (h.nonneg k) (le_onHand_drawAll (s := (max 0 needQty, consumed)) hneed _ k)
  · intro k
    exact le_trans (h.nonneg' k) (le_onHand_drawAll (s := (max 0 needQty, consumed')) hneed _ k)

def needOf (py : Reading) (position : Value) : Need :=
  ⟨normRef py (position.get "nomenclature_id"), characteristic py (position.get "characteristic_id")⟩

def needsOf (py : Reading) (positions : List Value) : List Need :=
  (positions.filter (isActive py)).map (needOf py)

theorem positionRow_agree (transfers : List Value) {position : Value}
    (hmem : needOf py position ∈ needs) :
    (positionRow py qtyOrders transfers position consumed).1.view =
        (positionRow py qtyOrders' transfers position consumed').1.view ∧
      Agree (allLines py .supplierOrder qtyOrders) (allLines py .supplierOrder qtyOrders')
        (positionRow py qtyOrders transfers position consumed).2
        (positionRow py qtyOrders' transfers position consumed').2 := by
  unfold needOf at hmem
  unfold positionRow PositionRow.view
  dsimp only
  generalize (⟨normRef py (position.get "nomenclature_id"),
    characteristic py (position.get "characteristic_id")⟩ : Need) = need at hmem ⊢
  generalize requestedOf py position = requested
  obtain ⟨htransfer, hagree⟩ := transfer_agree h requested need transfers
  generalize allocateDocs py requested need transfers .transferOrder consumed = transfer
    at htransfer hagree ⊢
  generalize allocateDocs py requested need transfers .transferOrder consumed' = transfer'
    at htransfer hagree ⊢
  rw [← htransfer]
  obtain ⟨hsupplier, hagree'⟩ := supplier_agree hplain hplain' hagree (max 0 (requested - transfer.1))
    hmem
  rw [← hsupplier]
  exact ⟨rfl, hagree'⟩

end

/-- The rows are the same when the lines offer the same of each material. -/
theorem positionRows_agree (transfers : List Value) {positions : List Value}
    (hplain : Plain (allLines py .supplierOrder qtyOrders) (needsOf py positions))
    (hplain' : Plain (allLines py .supplierOrder qtyOrders') (needsOf py positions))
    (h : Agree (allLines py .supplierOrder qtyOrders) (allLines py .supplierOrder qtyOrders') consumed
      consumed') :
    (positionRows py qtyOrders transfers positions consumed).map PositionRow.view =
      (positionRows py qtyOrders' transfers positions consumed').map PositionRow.view := by
  induction positions generalizing consumed consumed' with
  | nil => rfl
  | cons position rest ih =>
    have hsub : needsOf py rest ⊆ needsOf py (position :: rest) :=
      (((List.sublist_cons_self position rest).filter _).map _).subset
    have hrest : ∀ {lines : List (AllocationKey × OrderLine)},
        Plain lines (needsOf py (position :: rest)) → Plain lines (needsOf py rest) := by
      intro lines hlines
      exact ⟨hlines.keys, fun need hneed => hlines.suits need (hsub hneed)⟩
    unfold positionRows
    split
    · next hactive =>
      have hmem : needOf py position ∈ needsOf py (position :: rest) :=
        List.mem_map_of_mem (List.mem_filter.mpr ⟨.head _, hactive⟩)
      obtain ⟨hview, hagree⟩ := positionRow_agree hplain hplain' h transfers hmem
      rw [List.map_cons, List.map_cons, hview, ih (hrest hplain) (hrest hplain') hagree]
    · exact ih (hrest hplain) (hrest hplain') h

end

end

end AgentBack.Coverage
