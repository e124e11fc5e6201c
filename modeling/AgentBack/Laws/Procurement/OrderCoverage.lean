import AgentBack.Base.Draw
import AgentBack.Procurement.OrderCoverage
import Mathlib.Tactic.Linarith

/-!
# Coverage takes no quantity twice

Every round of the allocation takes from one line of a live document, within what the line has left
(`allocateLine_law`); the relation is closed under the loops, so that one law holds of a document,
of a position and of all positions. From it: what is taken of a line over all positions is at most
its quantity, a position gets what it takes and no more than it asks for, and the supplier orders
that are taken from are the selected ones.
-/

namespace AgentBack.Coverage

open Py (Reading Value)

variable (py : Reading)

/-! ## Taking from a line -/

/-- The documents that quantities of a kind may come from. -/
abbrev Sources := DocKind → List Value

/-- The quantity is taken from a line of a document that is not cancelled. -/
structure FromLine (sources : Sources) (d : Doc) : Prop where
  listed : d.order ∈ sources d.key.kind
  live : documentCancelled py d.order = false
  line : d.line ∈ linesFromOrder py d.order
  ref : d.key.ref = orderRef py d.order
  lineId : d.key.lineId = d.line.lineId

def Quota (sources : Sources) (k : AllocationKey) (q : Rat) : Prop :=
  ∃ order ∈ sources k.kind, documentCancelled py order = false ∧ orderRef py order = k.ref ∧
    ∃ line ∈ linesFromOrder py order, line.lineId = k.lineId ∧ line.quantity = q

variable {sources : Sources} {order : Value} {orders : List Value}

theorem FromLine.quota {d : Doc} (h : FromLine py sources d) :
    Quota py sources d.key d.line.quantity :=
  ⟨d.order, h.listed, h.live, h.ref.symm, d.line, h.line, h.lineId.symm, rfl⟩

def logOf (docs : List Doc) : List (AllocationKey × Rat) := docs.map fun d => (d.key, d.quantity)

/-- What is consumed becomes more by the documents, which come from lines. -/
structure Supplied (sources : Sources) (consumed : Dict AllocationKey Rat) (docs : List Doc)
    (consumed' : Dict AllocationKey Rat) : Prop where
  rations : Rations (Quota py sources) consumed (logOf docs) consumed'
  fromLine : ∀ d ∈ docs, FromLine py sources d

variable {py}

theorem Supplied.nil (sources : Sources) (consumed : Dict AllocationKey Rat) :
    Supplied py sources consumed [] consumed where
  rations := .nil consumed
  fromLine := by
    intro d hd
    cases hd

theorem Supplied.append {consumed consumed' consumed'' : Dict AllocationKey Rat}
    {docs docs' : List Doc} (h : Supplied py sources consumed docs consumed')
    (h' : Supplied py sources consumed' docs' consumed'') :
    Supplied py sources consumed (docs ++ docs') consumed'' where
  rations := by
    unfold logOf
    rw [List.map_append]
    exact h.rations.append h'.rations
  fromLine := by
    intro d hd
    rcases List.mem_append.mp hd with hd | hd
    · exact h.fromLine d hd
    · exact h'.fromLine d hd

def quantityOf (docs : List Doc) : Rat := (docs.map Doc.quantity).sum

@[simp] theorem quantityOf_append (docs docs' : List Doc) :
    quantityOf (docs ++ docs') = quantityOf docs + quantityOf docs' := by
  unfold quantityOf
  rw [List.map_append, List.sum_append]

variable (py) in
/-- What the rounds of an allocation do to its state. -/
def Allocates (sources : Sources) (s s' : Allocation) : Prop :=
  ∃ docs, s'.used = s.used ++ docs ∧ Supplied py sources s.consumed docs s'.consumed ∧
    s'.remaining + quantityOf docs = s.remaining ∧ (0 ≤ s.remaining → 0 ≤ s'.remaining)

theorem Allocates.refl (sources : Sources) (s : Allocation) : Allocates py sources s s :=
  ⟨[], (List.append_nil _).symm, .nil sources _, add_zero _, id⟩

theorem Allocates.trans {s s' s'' : Allocation} (h : Allocates py sources s s')
    (h' : Allocates py sources s' s'') : Allocates py sources s s'' := by
  obtain ⟨docs, hused, hsupplied, hsum, hsign⟩ := h
  obtain ⟨docs', hused', hsupplied', hsum', hsign'⟩ := h'
  refine ⟨docs ++ docs', ?_, hsupplied.append hsupplied', ?_, fun h => hsign' (hsign h)⟩
  · rw [hused', hused, List.append_assoc]
  · rw [quantityOf_append]
    linarith

theorem allocateLine_law {kind : DocKind} (need : Need)
    (horder : order ∈ sources kind) (hlive : documentCancelled py order = false) {line : OrderLine}
    (hline : line ∈ linesFromOrder py order) (s : Allocation) :
    Allocates py sources s (allocateLine py kind need order s line) := by
  unfold allocateLine
  split
  · exact .refl sources s
  next hopen =>
  obtain ⟨hremaining, -⟩ := not_or.mp hopen
  dsimp only
  split
  · exact .refl sources s
  next havailable =>
  have havailable' : max 0 (line.quantity - s.consumed.getD ⟨kind, orderRef py order, line.lineId⟩ 0) =
      line.quantity - s.consumed.getD ⟨kind, orderRef py order, line.lineId⟩ 0 := by
    apply max_eq_right
    by_contra hneg
    exact havailable (le_of_eq (max_eq_left (le_of_not_ge hneg)))
  rw [havailable'] at havailable ⊢
  have htake : 0 < min s.remaining
      (line.quantity - s.consumed.getD ⟨kind, orderRef py order, line.lineId⟩ 0) :=
    lt_min (not_le.mp hremaining) (not_le.mp havailable)
  have hleft := min_le_left s.remaining
    (line.quantity - s.consumed.getD ⟨kind, orderRef py order, line.lineId⟩ 0)
  have hright := min_le_right s.remaining
    (line.quantity - s.consumed.getD ⟨kind, orderRef py order, line.lineId⟩ 0)
  generalize min s.remaining
    (line.quantity - s.consumed.getD ⟨kind, orderRef py order, line.lineId⟩ 0) = take
    at htake hleft hright ⊢
  generalize (need.characteristicId.orElse fun _ => line.characteristicId) = characteristicId
  have hfrom : FromLine py sources ⟨⟨kind, orderRef py order, line.lineId⟩, order, line, take,
      characteristicId⟩ := ⟨horder, hlive, hline, rfl, rfl⟩
  refine ⟨[⟨⟨kind, orderRef py order, line.lineId⟩, order, line, take, characteristicId⟩], rfl,
    ⟨?_, ?_⟩, ?_, ?_⟩
  · apply Rations.one htake hfrom.quota
    change s.consumed.getD _ 0 + take ≤ line.quantity
    linarith
  · intro d hd
    rw [List.mem_singleton.mp hd]
    exact hfrom
  · change s.remaining - take + (take + 0) = s.remaining
    rw [add_zero, sub_add_cancel]
  · intro _
    change 0 ≤ s.remaining - take
    linarith

theorem allocateOrder_law {kind : DocKind} (need : Need)
    (horder : order ∈ sources kind) (s : Allocation) :
    Allocates py sources s (allocateOrder py kind need s order) := by
  unfold allocateOrder
  split
  · exact .refl sources s
  next hlive =>
  apply foldl_related (Allocates.refl sources) Allocates.trans
  intro line hline s
  exact allocateLine_law need horder (Bool.eq_false_iff.mpr hlive) hline s

/-- What a position gets of one kind of documents. -/
structure Allocated (sources : Sources) (need : Rat) (consumed : Dict AllocationKey Rat)
    (result : Rat × List Doc × Dict AllocationKey Rat) : Prop where
  supplied : Supplied py sources consumed result.2.1 result.2.2
  sum : quantityOf result.2.1 = result.1
  le : result.1 ≤ max 0 need

theorem allocateDocs_law (sources : Sources) (kind : DocKind) (needQty : Rat) (need : Need)
    (consumed : Dict AllocationKey Rat) :
    @Allocated py sources needQty consumed
      (allocateDocs py needQty need (sources kind) kind consumed) := by
  unfold allocateDocs
  split
  · exact ⟨.nil sources consumed, rfl, le_max_left _ _⟩
  next hpositive =>
  have hlaw : Allocates py sources ⟨needQty, [], consumed⟩
      ((sources kind).foldl (allocateOrder py kind need) ⟨needQty, [], consumed⟩) := by
    apply foldl_related (Allocates.refl sources) Allocates.trans
    intro order horder s
    exact allocateOrder_law need horder s
  obtain ⟨docs, hused, hsupplied, hsum, hsign⟩ := hlaw
  dsimp only at hused hsupplied hsum hsign ⊢
  rw [List.nil_append] at hused
  have hneg := hsign (le_of_lt (not_le.mp hpositive))
  refine ⟨hused ▸ hsupplied, ?_, ?_⟩
  · rw [hused]
    linarith
  · apply le_max_of_le_right
    linarith

def PositionRow.docs (row : PositionRow) : List Doc := row.transferOrders ++ row.supplierOrders

def sourcesOf (qtyOrders transfers : List Value) : Sources
  | .transferOrder => transfers
  | .supplierOrder => qtyOrders

structure RowLaw (row : PositionRow) (requested : Rat) : Prop where
  asked : row.requestedQuantity = requested
  supplier : row.supplierOrderedQuantity = quantityOf row.supplierOrders
  transfer : row.transferOrderedQuantity = quantityOf row.transferOrders
  covered : 0 ≤ requested →
    row.coveredQuantity = row.transferOrderedQuantity + row.supplierOrderedQuantity
  le : row.coveredQuantity ≤ requested
  remaining : row.coveredQuantity + row.remainingQuantity = requested
  fully : row.fullyCovered = true ↔ row.remainingQuantity = 0 ∧ 0 < row.requestedQuantity

theorem positionRow_law (qtyOrders transfers : List Value) (position : Value)
    (consumed : Dict AllocationKey Rat) :
    RowLaw (positionRow py qtyOrders transfers position consumed).1 (requestedOf py position) ∧
      Supplied py (sourcesOf qtyOrders transfers) consumed
        (positionRow py qtyOrders transfers position consumed).1.docs
        (positionRow py qtyOrders transfers position consumed).2 := by
  unfold positionRow PositionRow.docs
  dsimp only
  generalize (⟨normRef py (position.get "nomenclature_id"),
    characteristic py (position.get "characteristic_id")⟩ : Need) = need
  generalize requestedOf py position = requested
  have htransfer := @allocateDocs_law py (sourcesOf qtyOrders transfers) .transferOrder requested
    need consumed
  change Allocated _ _ _ (allocateDocs py requested need transfers .transferOrder consumed) at htransfer
  generalize allocateDocs py requested need transfers .transferOrder consumed = transfer
    at htransfer ⊢
  have hsupplier := @allocateDocs_law py (sourcesOf qtyOrders transfers) .supplierOrder
    (max 0 (requested - transfer.1)) need transfer.2.2
  change Allocated _ _ _ (allocateDocs py (max 0 (requested - transfer.1)) need qtyOrders .supplierOrder
    transfer.2.2) at hsupplier
  generalize allocateDocs py (max 0 (requested - transfer.1)) need qtyOrders .supplierOrder
    transfer.2.2 = supplier at hsupplier ⊢
  have hle := hsupplier.le
  rw [max_eq_right (le_max_left _ _)] at hle
  have hcovered : min requested (supplier.1 + transfer.1) ≤ requested := min_le_left _ _
  have hremaining : max 0 (requested - min requested (supplier.1 + transfer.1)) =
      requested - min requested (supplier.1 + transfer.1) := max_eq_right (sub_nonneg.mpr hcovered)
  refine ⟨⟨rfl, hsupplier.sum.symm, htransfer.sum.symm, ?_, hcovered, ?_, ?_⟩,
    htransfer.supplied.append hsupplier.supplied⟩
  · intro hrequested
    have htransferLe : transfer.1 ≤ requested := by
      rw [← max_eq_right hrequested]
      exact htransfer.le
    rw [max_eq_right (sub_nonneg.mpr htransferLe)] at hle
    dsimp only
    rw [min_eq_right (by linarith), add_comm]
  · dsimp only
    rw [hremaining, add_sub_cancel]
  · dsimp only
    rw [decide_eq_true_iff]
    have hsign : (0 : Rat) ≤ max 0 (requested - min requested (supplier.1 + transfer.1)) :=
      le_max_left _ _
    generalize max 0 (requested - min requested (supplier.1 + transfer.1)) = remaining at hsign
    constructor
    · intro h
      exact ⟨le_antisymm h.1 hsign, h.2⟩
    · intro h
      exact ⟨le_of_eq h.1, h.2⟩

/-- Every row belongs to an active position, and together they take within the quotas. -/
theorem positionRows_law (qtyOrders transfers : List Value) (positions : List Value)
    (consumed : Dict AllocationKey Rat) :
    List.Forall₂ (fun row position => RowLaw row (requestedOf py position))
        (positionRows py qtyOrders transfers positions consumed) (positions.filter (isActive py)) ∧
      ∃ consumed', Supplied py (sourcesOf qtyOrders transfers) consumed
        ((positionRows py qtyOrders transfers positions consumed).flatMap PositionRow.docs)
        consumed' := by
  induction positions generalizing consumed with
  | nil => exact ⟨.nil, consumed, .nil _ _⟩
  | cons position rest ih =>
    unfold positionRows
    by_cases hactive : isActive py position = true
    · rw [if_pos hactive, List.filter_cons_of_pos hactive]
      obtain ⟨hrow, hsupplied⟩ := @positionRow_law py qtyOrders transfers position consumed
      generalize positionRow py qtyOrders transfers position consumed = row at hrow hsupplied ⊢
      obtain ⟨hrest, consumed', hmore⟩ := ih row.2
      refine ⟨.cons hrow hrest, consumed', ?_⟩
      rw [List.flatMap_cons]
      exact hsupplied.append hmore
    · rw [if_neg hactive, List.filter_cons_of_neg hactive]
      exact ih consumed

theorem coverageStatus_full_iff (rows : List PositionRow) :
    coverageStatus rows = .full ↔ rows ≠ [] ∧ ∀ row ∈ rows, row.fullyCovered = true := by
  have hcount : (rows.length ≠ 0 ∧ (rows.filter PositionRow.fullyCovered).length = rows.length) ↔
      rows ≠ [] ∧ ∀ row ∈ rows, row.fullyCovered = true := by
    rw [Ne, List.length_eq_zero_iff, ← List.countP_eq_length_filter, List.countP_eq_length]
  rw [← hcount]
  unfold coverageStatus
  split
  · next h => exact iff_of_true rfl h
  · next h =>
    refine iff_of_false ?_ h
    split
    · intro he
      cases he
    · intro he
      cases he

/-! ## The selected supplier orders -/

variable (py) in
def Live (orders : List Value) (order : Value) : Prop :=
  order ∈ orders ∧ documentCancelled py order = false

variable (py) in
/-- The order has a reference, and no later order of the list that is not cancelled has the same. -/
def LastLive (orders : List Value) (order : Value) : Prop :=
  orderRef py order ≠ "" ∧ documentCancelled py order = false ∧
    ∃ before after, orders = before ++ order :: after ∧
      ∀ other ∈ after, orderRef py other = orderRef py order → documentCancelled py other = true

theorem LastLive.get?_byRef (h : LastLive py orders order) :
    (byRef py orders).get? (orderRef py order) = some order := by
  obtain ⟨href, hlive, before, after, rfl, hlast⟩ := h
  apply Dict.get?_ofList_eq_some_iff.mpr
  rw [List.filter_append, List.filter_cons_of_pos (by simp [href, hlive]), List.map_append,
    List.map_cons]
  refine ⟨_, _, rfl, ?_⟩
  intro p hp
  obtain ⟨other, hother, rfl⟩ := List.mem_map.mp hp
  obtain ⟨hmem, htest⟩ := List.mem_filter.mp hother
  intro hsame
  have hcancelled := hlast other hmem hsame
  simp [hcancelled] at htest

theorem mem_byRef {ref : String} (h : (ref, order) ∈ (byRef py orders).items) :
    Live py orders order ∧ orderRef py order = ref ∧ (byRef py orders).get? ref = some order := by
  have hget := Dict.get?_eq_some_iff.mpr h
  obtain ⟨other, hother, he⟩ := List.mem_map.mp (Dict.mem_of_get?_ofList hget)
  obtain ⟨hmem, htest⟩ := List.mem_filter.mp hother
  cases he
  rw [Bool.and_eq_true] at htest
  exact ⟨⟨hmem, by simpa using htest.2⟩, rfl, hget⟩

theorem mem_selected (h : order ∈ selectSupplierOrdersForQty py orders) :
    Live py orders order ∧ (byRef py orders).get? (orderRef py order) = some order ∧
      isExcludedParent py (byRef py orders) (orderRef py order) = false := by
  obtain ⟨item, hitem, rfl⟩ := List.mem_map.mp h
  obtain ⟨hmem, htest⟩ := List.mem_filter.mp hitem
  obtain ⟨hlive, href, hget⟩ := mem_byRef hmem
  rw [href]
  exact ⟨hlive, hget, by simpa using htest⟩

/-- A selected order is definite, or no definite order that counts was made of it. -/
theorem selected_not_parent (h : order ∈ selectSupplierOrdersForQty py orders)
    (hconditional : isDefiniteSupplierOrder py order = false) {child : Value}
    (hchild : LastLive py orders child) (hdefinite : isDefiniteSupplierOrder py child = true) :
    orderRef py order ∉ parentRefsFromChain py child := by
  intro hnamed
  obtain ⟨-, hget, hexcluded⟩ := mem_selected h
  have hchildGet := hchild.get?_byRef
  have hother : orderRef py order ≠ orderRef py child := by
    intro he
    rw [he, hchildGet] at hget
    cases hget
    rw [hconditional] at hdefinite
    cases hdefinite
  have hexcludes : isExcludedParent py (byRef py orders) (orderRef py order) = true := by
    apply List.any_eq_true.mpr
    refine ⟨(orderRef py child, child), Dict.get?_eq_some_iff.mp hchildGet, ?_⟩
    unfold excludesParent
    rw [hget]
    simp [hdefinite, hother, hnamed, hconditional]
  rw [hexcludes] at hexcluded
  cases hexcluded

theorem exists_raw_of_mem_lines {line : OrderLine} (h : line ∈ linesFromOrder py order) :
    ∃ raw ∈ (order.get "lines").listItems, lineCancelled raw = false ∧
      ∃ index, lineOf py raw index = some line := by
  obtain ⟨⟨raw, index⟩, hmem, hline⟩ := List.mem_filterMap.mp h
  refine ⟨raw, ?_, ?_, index, hline⟩
  · exact (List.mem_zipIdx hmem).2.2 ▸ List.getElem_mem _
  · by_contra hcancelled
    rw [Bool.not_eq_false] at hcancelled
    dsimp only at hline
    unfold lineOf at hline
    rw [if_pos (.inr hcancelled)] at hline
    cases hline

variable (py) in
/-- The conservation of the coverage. `Counts` says which orders of the list make another order a
parent. -/
structure Conserved (Counts : List Value → Value → Prop) (positions suppliers transfers : List Value)
    (s : Snapshot) : Prop where
  rows : List.Forall₂ (fun row position => row.requestedQuantity = requestedOf py position)
    s.positions (positions.filter (isActive py))
  /-- What is taken of a line over all positions is at most its quantity. -/
  quota : ∀ k, takenUnder k (logOf (s.positions.flatMap PositionRow.docs)) ≠ 0 →
    ∃ q, 0 ≤ q ∧ Quota py (sourcesOf suppliers transfers) k q ∧
      takenUnder k (logOf (s.positions.flatMap PositionRow.docs)) ≤ q
  /-- A position gets what it takes, of both kinds of documents, and no more than it asks for. -/
  supplier : ∀ row ∈ s.positions, row.supplierOrderedQuantity = quantityOf row.supplierOrders
  transfer : ∀ row ∈ s.positions, row.transferOrderedQuantity = quantityOf row.transferOrders
  covered : ∀ row ∈ s.positions,
    row.coveredQuantity = row.transferOrderedQuantity + row.supplierOrderedQuantity
  le : ∀ row ∈ s.positions, row.coveredQuantity ≤ row.requestedQuantity
  remaining : ∀ row ∈ s.positions, row.coveredQuantity + row.remainingQuantity = row.requestedQuantity
  /-- Nothing is taken from a cancelled document or line. -/
  live : ∀ row ∈ s.positions, ∀ d ∈ row.docs, FromLine py (sourcesOf suppliers transfers) d ∧
    ∃ raw ∈ (d.order.get "lines").listItems, lineCancelled raw = false ∧
      ∃ index, lineOf py raw index = some d.line
  /-- Nothing is taken from a conditional order that a definite one was made of. -/
  parents : ∀ row ∈ s.positions, ∀ d ∈ row.docs, d.key.kind = .supplierOrder →
    isDefiniteSupplierOrder py d.order = false → ∀ child, Counts suppliers child →
      isDefiniteSupplierOrder py child = true →
      orderRef py d.order ∉ parentRefsFromChain py child
  full : s.status = .full ↔
    s.positions ≠ [] ∧ ∀ row ∈ s.positions, row.remainingQuantity = 0 ∧ 0 < row.requestedQuantity

theorem exists_of_forall₂ {α β : Type} {R : α → β → Prop} {as : List α} {bs : List β}
    (h : List.Forall₂ R as bs) {a : α} (ha : a ∈ as) : ∃ b ∈ bs, R a b := by
  induction h with
  | nil => cases ha
  | @cons a' b' as bs hfirst _ ih =>
    rcases List.mem_cons.mp ha with rfl | ha
    · exact ⟨b', .head _, hfirst⟩
    · obtain ⟨b, hb, hab⟩ := ih ha
      exact ⟨b, .tail _ hb, hab⟩

theorem FromLine.widen {sources' : Sources} {d : Doc} (h : FromLine py sources d)
    (hle : ∀ kind, ∀ order ∈ sources kind, order ∈ sources' kind) : FromLine py sources' d :=
  { h with listed := hle _ _ h.listed }

theorem selected_subset (suppliers transfers : List Value) (kind : DocKind) :
    ∀ order ∈ sourcesOf (selectSupplierOrdersForQty py suppliers) transfers kind,
      order ∈ sourcesOf suppliers transfers kind := by
  intro order horder
  cases kind with
  | transferOrder => exact horder
  | supplierOrder => exact (mem_selected horder).1.1

/-- What the snapshot takes of a line is at most the quantity of the line, a position gets what it
takes and at most what it asks for, nothing comes from what is cancelled or from the parent of a
definite order, and the status is full when nothing remains. -/
theorem buildMaterialOrderCoverage_conserved {positions : List Value}
    (hpositions : ∀ position ∈ positions, 0 ≤ requestedOf py position)
    (suppliers transfers : List Value) :
    Conserved py (LastLive py) positions suppliers transfers
      (buildMaterialOrderCoverage py positions suppliers transfers) := by
  obtain ⟨hrows, consumed', hsupplied⟩ := @positionRows_law py
    (selectSupplierOrdersForQty py suppliers) transfers positions ∅
  unfold buildMaterialOrderCoverage
  dsimp only
  generalize positionRows py (selectSupplierOrdersForQty py suppliers) transfers positions ∅ = rows
    at hrows hsupplied ⊢
  have hlaw : ∀ row ∈ rows, ∃ requested, 0 ≤ requested ∧ RowLaw row requested := by
    intro row hrow
    obtain ⟨position, hposition, hlaw⟩ := exists_of_forall₂ hrows hrow
    exact ⟨_, hpositions position (List.mem_of_mem_filter hposition), hlaw⟩
  have hdocs : ∀ row ∈ rows, ∀ d ∈ row.docs,
      FromLine py (sourcesOf (selectSupplierOrdersForQty py suppliers) transfers) d := by
    intro row hrow d hd
    exact hsupplied.fromLine d (List.mem_flatMap.mpr ⟨row, hrow, hd⟩)
  constructor
  · exact hrows.imp fun _ _ h => h.asked
  · intro k hk
    obtain ⟨q, hquota, hle⟩ := hsupplied.rations.takenUnder_le hk
    obtain ⟨order, horder, hlive, href, line, hline, hid, hq⟩ := hquota
    refine ⟨q, ?_, ⟨order, selected_subset suppliers transfers _ order horder, hlive, href, line,
      hline, hid, hq⟩, hle⟩
    exact le_trans (hsupplied.rations.takenUnder_nonneg k) hle
  · intro row hrow
    obtain ⟨requested, -, h⟩ := hlaw row hrow
    exact h.supplier
  · intro row hrow
    obtain ⟨requested, -, h⟩ := hlaw row hrow
    exact h.transfer
  · intro row hrow
    obtain ⟨requested, hsign, h⟩ := hlaw row hrow
    exact h.covered hsign
  · intro row hrow
    obtain ⟨requested, -, h⟩ := hlaw row hrow
    rw [h.asked]
    exact h.le
  · intro row hrow
    obtain ⟨requested, -, h⟩ := hlaw row hrow
    rw [h.asked]
    exact h.remaining
  · intro row hrow d hd
    have hfrom := hdocs row hrow d hd
    exact ⟨hfrom.widen (selected_subset suppliers transfers), exists_raw_of_mem_lines hfrom.line⟩
  · intro row hrow d hd hkind hconditional child hchild hdefinite
    have hlisted := (hdocs row hrow d hd).listed
    rw [hkind] at hlisted
    exact selected_not_parent hlisted hconditional hchild hdefinite
  · rw [coverageStatus_full_iff]
    apply and_congr_right
    intro _
    apply forall₂_congr
    intro row hrow
    obtain ⟨requested, -, h⟩ := hlaw row hrow
    exact h.fully

/-- The readings of ASCII texts, for the numbers of the example. -/
def asciiReading : Reading where
  lower := String.toLower
  casefold := String.toLower
  decimal := fun text => if text = "5" then some 5 else if text = "10" then some 10 else none
  repr := fun _ => ""

def fivePieces (ref : String) (definite : Bool) (parents : List String) : Value :=
  .dict [("ref", .str ref), ("is_definite", .bool definite),
    ("chain", .list (parents.map fun parent => .dict [("ref", .str parent)])),
    ("lines", .list [.dict [("line_id", .str "1"), ("nomenclature_id", .str "steel"),
      ("quantity", .num 5 "5")]])]

def tenPieces : Value :=
  .dict [("line_id", .str "1"), ("nomenclature_id", .str "steel"), ("quantity", .num 10 "10")]

/-- The parent, and the order that was made of it, once with the chain and once without. -/
def listedTwice : List Value :=
  [fivePieces "parent" false [], fivePieces "child" true ["parent"], fivePieces "child" true []]

theorem conserved_tenPieces : (∀ position ∈ [tenPieces], 0 ≤ requestedOf asciiReading position) ∧
    Conserved asciiReading (LastLive asciiReading) [tenPieces] listedTwice []
      (buildMaterialOrderCoverage asciiReading [tenPieces] listedTwice []) := by
  have hpositions : ∀ position ∈ [tenPieces], 0 ≤ requestedOf asciiReading position := by
    intro position hposition
    rw [List.mem_singleton.mp hposition]
    decide +kernel
  exact ⟨hpositions, buildMaterialOrderCoverage_conserved hpositions listedTwice []⟩

/-- The chain of the first listing is lost: the parent counts next to its child. -/
theorem conserved_listedTwice_fails :
    ¬ Conserved asciiReading (Live asciiReading) [tenPieces] listedTwice []
      (buildMaterialOrderCoverage asciiReading [tenPieces] listedTwice []) := by
  intro h
  have htaken : ((buildMaterialOrderCoverage asciiReading [tenPieces] listedTwice []).positions.any
      fun row => row.docs.any fun d => decide (d.key.kind = .supplierOrder) &&
        !isDefiniteSupplierOrder asciiReading d.order &&
        decide (orderRef asciiReading d.order = "parent")) = true := by
    decide +kernel
  obtain ⟨row, hrow, htaken⟩ := List.any_eq_true.mp htaken
  obtain ⟨d, hd, htaken⟩ := List.any_eq_true.mp htaken
  simp only [Bool.and_eq_true, decide_eq_true_eq, Bool.not_eq_true'] at htaken
  obtain ⟨⟨hkind, hconditional⟩, href⟩ := htaken
  have hlive : Live asciiReading listedTwice (fivePieces "child" true ["parent"]) :=
    ⟨.tail _ (.head _), by decide +kernel⟩
  apply h.parents row hrow d hd hkind hconditional _ hlive (by decide +kernel)
  rw [href]
  decide +kernel

end AgentBack.Coverage
