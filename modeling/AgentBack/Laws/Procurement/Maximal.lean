import AgentBack.Base.Exchange
import AgentBack.Laws.Procurement.Offers
import AgentBack.Laws.Procurement.OrderCoverage

/-!
# How much is covered

The lines that count are drawn from in their order, those of the transfers first, and a position
draws from every line that matches it (`positionRows_serve`). Where the positions and the lines of
one nomenclature all have a characteristic, or none has one, what is covered of a need is what is
asked for, up to what the lines have: no order of the positions or of the documents matters. Where
keys mix, a position may draw a line that only a later one can use. The snapshot is full where some
assignment covers every position, as long as no position does so: `Exchangeable`
(`coverage_maximal`). In general it is not (`not_full_mixed`).
-/

namespace AgentBack.Coverage

open Exchange (drain serve has total Coverable Exchangeable)
open Py (Reading Value)

variable (py : Reading)

/-! ## The lines that count -/

/-- A line that a quantity may be taken of, under its key. -/
abbrev Lot := AllocationKey × OrderLine

/-- The lines of a document, none of a cancelled one. -/
def lotsFor (kind : DocKind) (order : Value) : List Lot :=
  if documentCancelled py order then []
  else (linesFromOrder py order).map fun line => (⟨kind, orderRef py order, line.lineId⟩, line)

def lotsOf (kind : DocKind) (orders : List Value) : List Lot := orders.flatMap (lotsFor py kind)

/-- The lines that count, in the order in which positions take from them. -/
def lots (supplierOrders transferOrders : List Value) : List Lot :=
  lotsOf py .transferOrder transferOrders ++
    lotsOf py .supplierOrder (selectSupplierOrdersForQty py supplierOrders)

def leftOf (consumed : Dict AllocationKey Rat) (lot : Lot) : Rat :=
  max 0 (lot.2.quantity - consumed.getD lot.1 0)

/-- What a line has, a negative quantity being none. -/
def quantityIn (lot : Lot) : Rat := max 0 lot.2.quantity

def takes (need : Need) (lot : Lot) : Bool := need.matches lot.2

def needIn (lot : Lot) : Need := ⟨lot.2.nomenclatureId, lot.2.characteristicId⟩

/-- The demands of the positions, a negative quantity being none. -/
def demandsOf (positions : List Value) : List (Need × Rat) :=
  (positions.filter (isActive py)).map fun position => (needOf py position, max 0 (requestedOf py position))

/-! ## The greedy draw -/

variable {py}

theorem leftOf_nonneg (consumed : Dict AllocationKey Rat) (lot : Lot) : 0 ≤ leftOf consumed lot :=
  le_max_left _ _

/-- The state of an allocation moves as the draw from the lots does. -/
structure Follows (all : List Lot) (need : Need) (lots : List Lot) (s s' : Allocation) : Prop where
  remaining : s'.remaining = (drain (takes need) lots s.remaining (leftOf s.consumed)).1
  left : ∀ lot ∈ all, leftOf s'.consumed lot =
    (drain (takes need) lots s.remaining (leftOf s.consumed)).2 lot
  nonneg : 0 ≤ s'.remaining

variable {all : List Lot} {s : Allocation}

theorem Follows.append {need : Need} {lots lots' : List Lot}
    {s' s'' : Allocation} (hsub : ∀ lot ∈ lots', lot ∈ all) (h : Follows all need lots s s')
    (h' : Follows all need lots' s' s'') : Follows all need (lots ++ lots') s s'' := by
  obtain ⟨hleft, hstock⟩ := Exchange.drain_congr (takes need) hsub h.left s'.remaining
  refine ⟨?_, ?_, h'.nonneg⟩
  · rw [h'.remaining, hleft, Exchange.drain_append, h.remaining]
  · intro lot hlot
    rw [h'.left lot hlot, hstock lot hlot, Exchange.drain_append, h.remaining]

theorem Follows.refl (all : List Lot) (need : Need) (hs : 0 ≤ s.remaining) :
    Follows all need [] s s := ⟨rfl, fun _ _ => rfl, hs⟩

theorem Follows.foldl {α : Type} {need : Need} {step : Allocation → α → Allocation}
    {lotsFor : α → List Lot} {items : List α} (hsub : ∀ item ∈ items, ∀ lot ∈ lotsFor item, lot ∈ all)
    (h : ∀ item ∈ items, ∀ s, 0 ≤ s.remaining → Follows all need (lotsFor item) s (step s item)) (hs : 0 ≤ s.remaining) :
    Follows all need (items.flatMap lotsFor) s (items.foldl step s) := by
  induction items generalizing s with
  | nil => exact .refl all need hs
  | cons item rest ih =>
    rw [List.flatMap_cons, List.foldl_cons]
    have hfirst := h item (.head _) s hs
    apply hfirst.append
    · intro lot hlot
      obtain ⟨item', hitem', hlot⟩ := List.mem_flatMap.mp hlot
      exact hsub item' (List.mem_cons_of_mem item hitem') lot hlot
    · exact ih (fun item' hitem' => hsub item' (List.mem_cons_of_mem item hitem'))
        (fun item' hitem' => h item' (List.mem_cons_of_mem item hitem')) hfirst.nonneg

/-- A line is a lot of its own key. -/
theorem leftOf_set (hkeys : (all.map Prod.fst).Nodup) {lot : Lot} (hmem : lot ∈ all)
    (consumed : Dict AllocationKey Rat) {take : Rat} (hpos : 0 < leftOf consumed lot)
    (htake : take ≤ leftOf consumed lot) {lot' : Lot} (hmem' : lot' ∈ all) :
    leftOf (consumed.set lot.1 (consumed.getD lot.1 0 + take)) lot' =
      Function.update (leftOf consumed) lot (leftOf consumed lot - take) lot' := by
  by_cases he : lot' = lot
  · subst he
    have hvalue : leftOf consumed lot' = lot'.2.quantity - consumed.getD lot'.1 0 := by
      apply max_eq_right
      by_contra hneg
      exact absurd hpos (not_lt.mpr (le_of_eq (max_eq_left (le_of_not_ge hneg))))
    rw [Function.update_self]
    unfold leftOf
    rw [Dict.getD, Dict.get?_set_self, Option.getD_some, ← sub_sub]
    rw [hvalue] at htake
    rw [max_eq_right (sub_nonneg.mpr htake)]
    exact congrArg (· - take) hvalue.symm
  · have hkey : lot.1 ≠ lot'.1 := by
      intro hsame
      exact he (List.inj_on_of_nodup_map hkeys hmem' hmem hsame.symm)
    rw [Function.update_of_ne he]
    unfold leftOf Dict.getD
    rw [Dict.get?_set, if_neg hkey]

section

variable (hkeys : (all.map Prod.fst).Nodup) (kind : DocKind) (need : Need)
include hkeys

theorem allocateLine_follows (order : Value) {line : OrderLine}
    (hmem : (⟨kind, orderRef py order, line.lineId⟩, line) ∈ all) (hs : 0 ≤ s.remaining) :
    Follows all need [(⟨kind, orderRef py order, line.lineId⟩, line)] s
      (allocateLine py kind need order s line) := by
  have hstock := leftOf_nonneg s.consumed
  have hsame : ∀ {lots : List Lot}, drain (takes need) lots s.remaining (leftOf s.consumed) =
      (s.remaining, leftOf s.consumed) → Follows all need lots s s := by
    intro lots hdraw
    exact ⟨by rw [hdraw], fun lot _ => by rw [hdraw], hs⟩
  unfold allocateLine
  split
  · next hclosed =>
    apply hsame
    rcases hclosed with hempty | hother
    · rw [le_antisymm hempty hs]
      exact Exchange.drain_zero _ _ hstock
    · rw [Exchange.drain_cons_of_neg (by rw [takes, hother]; decide), drain]
  next hopen =>
  obtain ⟨-, hmatches⟩ := not_or.mp hopen
  have htakes : takes need (⟨kind, orderRef py order, line.lineId⟩, line) = true := by
    rw [takes]
    exact (Bool.not_eq_false _).mp hmatches
  dsimp only
  have hleft : leftOf s.consumed (⟨kind, orderRef py order, line.lineId⟩, line) =
      max 0 (line.quantity - s.consumed.getD ⟨kind, orderRef py order, line.lineId⟩ 0) := rfl
  rw [← hleft]
  split
  · next hnone =>
    apply hsame
    have hzero : leftOf s.consumed (⟨kind, orderRef py order, line.lineId⟩, line) = 0 :=
      le_antisymm hnone (hstock _)
    rw [Exchange.drain_cons_of_pos htakes, hzero, min_eq_right hs, sub_zero, sub_zero, ← hzero,
      Function.update_eq_self, drain]
  · next hsome =>
    refine ⟨?_, ?_, sub_nonneg.mpr (min_le_left _ _)⟩
    · rw [Exchange.drain_cons_of_pos htakes, drain]
    · intro lot hlot
      rw [Exchange.drain_cons_of_pos htakes, drain]
      exact leftOf_set hkeys hmem s.consumed (not_le.mp hsome) (min_le_right _ _) hlot

theorem allocateOrder_follows {order : Value} (hsub : ∀ lot ∈ lotsFor py kind order, lot ∈ all)
    (hs : 0 ≤ s.remaining) :
    Follows all need (lotsFor py kind order) s (allocateOrder py kind need s order) := by
  unfold allocateOrder lotsFor at *
  split
  · exact .refl all need hs
  next hlive =>
  rw [if_neg hlive] at hsub
  rw [List.map_eq_flatMap]
  apply Follows.foldl _ _ hs
  · intro line hline lot hlot
    rw [List.mem_singleton.mp hlot]
    exact hsub _ (List.mem_map_of_mem hline)
  · intro line hline s hs
    exact allocateLine_follows hkeys kind need order (hsub _ (List.mem_map_of_mem hline)) hs

/-- What a position gets of one kind of documents. -/
theorem allocateDocs_drain {orders : List Value} (hsub : ∀ lot ∈ lotsOf py kind orders, lot ∈ all)
    (needQty : Rat) (consumed : Dict AllocationKey Rat) :
    (allocateDocs py needQty need orders kind consumed).1 = max 0 needQty -
        (drain (takes need) (lotsOf py kind orders) (max 0 needQty) (leftOf consumed)).1 ∧
      ∀ lot ∈ all, leftOf (allocateDocs py needQty need orders kind consumed).2.2 lot =
        (drain (takes need) (lotsOf py kind orders) (max 0 needQty) (leftOf consumed)).2 lot := by
  unfold allocateDocs
  split
  · next hnone =>
    rw [max_eq_left hnone, Exchange.drain_zero _ _ (leftOf_nonneg consumed), sub_zero]
    exact ⟨rfl, fun lot _ => rfl⟩
  next hsome =>
  have hfollows : Follows all need (lotsOf py kind orders) ⟨needQty, [], consumed⟩
      (orders.foldl (allocateOrder py kind need) ⟨needQty, [], consumed⟩) := by
    apply Follows.foldl _ _ (not_le.mp hsome).le
    · intro order horder lot hlot
      exact hsub lot (List.mem_flatMap.mpr ⟨order, horder, hlot⟩)
    · intro order horder s hs
      apply allocateOrder_follows hkeys kind need _ hs
      intro lot hlot
      exact hsub lot (List.mem_flatMap.mpr ⟨order, horder, hlot⟩)
  rw [max_eq_right (not_le.mp hsome).le]
  dsimp only
  exact ⟨by rw [hfollows.remaining], hfollows.left⟩

end

def PositionRow.need (row : PositionRow) : Need := ⟨row.nomenclatureId, row.characteristicId⟩

section

variable {qtyOrders transfers : List Value}
  (hkeys : ((lotsOf py .transferOrder transfers ++
    lotsOf py .supplierOrder qtyOrders).map Prod.fst).Nodup)
include hkeys

theorem positionRow_drain (position : Value) (consumed : Dict AllocationKey Rat) :
    (positionRow py qtyOrders transfers position consumed).1.remainingQuantity =
        (drain (takes (needOf py position))
          (lotsOf py .transferOrder transfers ++ lotsOf py .supplierOrder qtyOrders)
          (max 0 (requestedOf py position)) (leftOf consumed)).1 ∧
      ∀ lot ∈ lotsOf py .transferOrder transfers ++ lotsOf py .supplierOrder qtyOrders,
        leftOf (positionRow py qtyOrders transfers position consumed).2 lot =
          (drain (takes (needOf py position))
            (lotsOf py .transferOrder transfers ++ lotsOf py .supplierOrder qtyOrders)
            (max 0 (requestedOf py position)) (leftOf consumed)).2 lot := by
  unfold positionRow
  dsimp only
  have hneed : needOf py position = ⟨normRef py (position.get "nomenclature_id"),
    characteristic py (position.get "characteristic_id")⟩ := rfl
  rw [← hneed]
  generalize needOf py position = need
  generalize requestedOf py position = requested
  have hsub : ∀ lot ∈ lotsOf py .supplierOrder qtyOrders,
      lot ∈ lotsOf py .transferOrder transfers ++ lotsOf py .supplierOrder qtyOrders :=
    fun lot hlot => List.mem_append_right _ hlot
  obtain ⟨htransfer, htransferLeft⟩ := allocateDocs_drain hkeys .transferOrder need
    (fun lot hlot => List.mem_append_left _ hlot) requested consumed
  generalize allocateDocs py requested need transfers .transferOrder consumed = transfer
    at htransfer htransferLeft ⊢
  -- what is asked of the suppliers is what the transfers left
  have hfirst := (Exchange.drain_nonneg (takes need) (lotsOf py .transferOrder transfers)
    (le_max_left 0 requested) (leftOf_nonneg consumed)).1
  have hasked : max 0 (requested - transfer.1) = (drain (takes need)
      (lotsOf py .transferOrder transfers) (max 0 requested) (leftOf consumed)).1 := by
    rcases le_total 0 requested with h | h
    · rw [htransfer, max_eq_right h] at *
      rw [sub_sub_cancel, max_eq_right hfirst]
    · rw [htransfer, max_eq_left h, Exchange.drain_zero _ _ (leftOf_nonneg consumed), sub_zero,
        sub_zero, max_eq_left h]
  obtain ⟨hsupplier, hsupplierLeft⟩ := allocateDocs_drain hkeys .supplierOrder need hsub
    (max 0 (requested - transfer.1)) transfer.2.2
  generalize allocateDocs py (max 0 (requested - transfer.1)) need qtyOrders .supplierOrder
    transfer.2.2 = supplier at hsupplier hsupplierLeft ⊢
  rw [max_eq_right (le_max_left 0 _), hasked] at hsupplier hsupplierLeft
  obtain ⟨hleft, hstock⟩ := Exchange.drain_congr (takes need) hsub htransferLeft
    (drain (takes need) (lotsOf py .transferOrder transfers) (max 0 requested) (leftOf consumed)).1
  rw [hleft, ← Exchange.drain_append] at hsupplier
  refine ⟨?_, ?_⟩
  · have hlast := (Exchange.drain_nonneg (takes need)
      (lotsOf py .transferOrder transfers ++ lotsOf py .supplierOrder qtyOrders)
      (le_max_left 0 requested) (leftOf_nonneg consumed)).1
    have hboth : supplier.1 + transfer.1 = max 0 requested - (drain (takes need)
        (lotsOf py .transferOrder transfers ++ lotsOf py .supplierOrder qtyOrders)
        (max 0 requested) (leftOf consumed)).1 := by
      rw [hsupplier, htransfer]
      ring
    rw [hboth]
    rcases le_total 0 requested with h | h
    · rw [max_eq_right h] at hlast ⊢
      rw [min_eq_right (sub_le_self _ hlast), sub_sub_cancel, max_eq_right hlast]
    · rw [max_eq_left h, Exchange.drain_zero _ _ (leftOf_nonneg consumed), sub_zero, min_eq_left h,
        sub_self, max_self]
  · intro lot hlot
    rw [hsupplierLeft lot hlot, hstock lot hlot, Exchange.drain_append]


/-- What the rows leave open is what the draws of the positions do. -/
theorem positionRows_serve (positions : List Value) (consumed : Dict AllocationKey Rat) :
    (positionRows py qtyOrders transfers positions consumed).map
        (fun row => (row.need, row.remainingQuantity)) =
      serve takes (lotsOf py .transferOrder transfers ++ lotsOf py .supplierOrder qtyOrders)
        (demandsOf py positions) (leftOf consumed) := by
  induction positions generalizing consumed with
  | nil => rfl
  | cons position rest ih =>
    unfold positionRows demandsOf
    by_cases hactive : isActive py position = true
    · obtain ⟨hremaining, hleft⟩ := positionRow_drain hkeys position consumed
      rw [if_pos hactive, List.filter_cons_of_pos hactive]
      dsimp only
      rw [List.map_cons, List.map_cons, serve, ih, Exchange.serve_congr hleft, hremaining]
      rfl
    · rw [if_neg hactive, List.filter_cons_of_neg hactive]
      exact ih consumed

end

/-- A row is of the need of its position. What it covers and what it leaves open is what is asked
for, and it leaves no more open. -/
structure RowOpen (py : Reading) (row : PositionRow) (position : Value) : Prop where
  need : row.need = needOf py position
  sum : row.coveredQuantity + row.remainingQuantity = requestedOf py position
  nonneg : 0 ≤ row.remainingQuantity
  le : row.remainingQuantity ≤ max 0 (requestedOf py position)

theorem RowOpen.covered {row : PositionRow} {position : Value} (h : RowOpen py row position) :
    max 0 row.coveredQuantity + row.remainingQuantity = max 0 (requestedOf py position) := by
  have hsum := h.sum
  have hnonneg := h.nonneg
  have hle := h.le
  rcases le_total 0 (requestedOf py position) with hpos | hneg
  · rw [max_eq_right hpos] at hle ⊢
    rw [max_eq_right (by linarith), hsum]
  · rw [max_eq_left hneg] at hle ⊢
    rw [max_eq_left (by linarith), zero_add]
    exact le_antisymm hle hnonneg

theorem positionRows_open {qtyOrders transfers : List Value}
    (hkeys : ((lotsOf py .transferOrder transfers ++ lotsOf py .supplierOrder qtyOrders).map
      Prod.fst).Nodup) (positions : List Value) (consumed : Dict AllocationKey Rat) :
    List.Forall₂ (RowOpen py) (positionRows py qtyOrders transfers positions consumed)
      (positions.filter (isActive py)) := by
  induction positions generalizing consumed with
  | nil => exact .nil
  | cons position rest ih =>
    unfold positionRows
    by_cases hactive : isActive py position = true
    · rw [if_pos hactive, List.filter_cons_of_pos hactive]
      refine .cons ?_ (ih _)
      have hrow := (@positionRow_law py qtyOrders transfers position consumed).1
      obtain ⟨hremaining, -⟩ := positionRow_drain hkeys position consumed
      refine ⟨rfl, hrow.remaining, ?_, ?_⟩
      · rw [hremaining]
        exact (Exchange.drain_nonneg _ _ (le_max_left _ _) (leftOf_nonneg consumed)).1
      · rw [hremaining]
        exact Exchange.drain_left_le (le_max_left _ _) (leftOf_nonneg consumed)
    · rw [if_neg hactive, List.filter_cons_of_neg hactive]
      exact ih consumed

theorem leftOf_empty (lot : Lot) : leftOf ∅ lot = quantityIn lot := by
  have hnone : (∅ : Dict AllocationKey Rat).getD lot.1 0 = 0 := rfl
  unfold leftOf quantityIn
  rw [hnone, sub_zero]

/-! ## The totals -/

variable (py) in
/-- The rows of the snapshot that are of a need cover this much. -/
def coveredIn (positions supplierOrders transferOrders : List Value) (need : Need) : Rat :=
  (((buildMaterialOrderCoverage py positions supplierOrders transferOrders).positions.filter
    fun row => row.need = need).map fun row => max 0 row.coveredQuantity).sum

variable (py) in
/-- The active positions of a need ask for this much. -/
def requestedIn (positions : List Value) (need : Need) : Rat :=
  (((positions.filter (isActive py)).filter fun position => needOf py position = need).map
    fun position => max 0 (requestedOf py position)).sum

variable (py) in
/-- The lines of a need that count have this much. -/
def suppliedIn (supplierOrders transferOrders : List Value) (need : Need) : Rat :=
  (((lots py supplierOrders transferOrders).filter fun lot => needIn lot = need).map quantityIn).sum

variable (py) in
/-- No two lines that count have the same key. -/
def DistinctLots (supplierOrders transferOrders : List Value) : Prop :=
  ((lots py supplierOrders transferOrders).map Prod.fst).Nodup

variable (py) in
/-- The keys of the active positions and of the lines that count. -/
def keysOf (positions supplierOrders transferOrders : List Value) : List Need :=
  (positions.filter (isActive py)).map (needOf py) ++ (lots py supplierOrders transferOrders).map needIn

variable (py) in
/-- The positions and the lines of a nomenclature all have a characteristic, or none has one. -/
def UniformKeys (positions supplierOrders transferOrders : List Value) : Prop :=
  ∀ key ∈ keysOf py positions supplierOrders transferOrders,
    ∀ key' ∈ keysOf py positions supplierOrders transferOrders,
      key.nomenclatureId = key'.nomenclatureId →
        key.characteristicId.isSome = key'.characteristicId.isSome

/-- Where both or none of two keys have a characteristic, to match is to be the same. -/
theorem takes_iff {need : Need} {lot : Lot}
    (h : need.nomenclatureId = (needIn lot).nomenclatureId →
      need.characteristicId.isSome = (needIn lot).characteristicId.isSome) :
    takes need lot = true ↔ need = needIn lot := by
  obtain ⟨nomenclatureId, characteristicId⟩ := need
  obtain ⟨key, line⟩ := lot
  unfold takes Need.matches needIn at *
  dsimp only at *
  rw [Bool.and_eq_true, decide_eq_true_iff, Need.mk.injEq, eq_comm]
  apply and_congr_right
  intro hsame
  have hsome := h hsame
  cases characteristicId with
  | none =>
    have hnone : line.characteristicId = none := Option.not_isSome_iff_eq_none.mp (by
      rw [← hsome]
      decide)
    rw [hnone]
    exact iff_of_true rfl rfl
  | some c =>
    obtain ⟨c', hc'⟩ := Option.isSome_iff_exists.mp hsome.symm
    rw [hc']
    dsimp only
    rw [decide_eq_true_iff, Option.some.injEq, eq_comm]

theorem mem_demandsOf {positions : List Value} {d : Need × Rat} (h : d ∈ demandsOf py positions) :
    0 ≤ d.2 ∧ d.1 ∈ (positions.filter (isActive py)).map (needOf py) := by
  obtain ⟨position, hposition, rfl⟩ := List.mem_map.mp h
  exact ⟨le_max_left _ _, List.mem_map_of_mem hposition⟩

theorem sum_covered {rows : List PositionRow} {positions : List Value}
    (h : List.Forall₂ (RowOpen py) rows positions) (need : Need) :
    ((rows.filter fun row => row.need = need).map fun row => max 0 row.coveredQuantity).sum +
        total id need (rows.map fun row => (row.need, row.remainingQuantity)) =
      ((positions.filter fun position => needOf py position = need).map
        fun position => max 0 (requestedOf py position)).sum := by
  induction h with
  | nil => exact add_zero 0
  | @cons row position rows positions hrow _ ih =>
    rw [List.map_cons, Exchange.total_cons]
    by_cases hneed : row.need = need
    · have hneed' : needOf py position = need := hrow.need ▸ hneed
      rw [List.filter_cons_of_pos (by simpa using hneed), List.map_cons, List.sum_cons,
        List.filter_cons_of_pos (by simpa using hneed'), List.map_cons, List.sum_cons, ← ih,
        ← hrow.covered, id, if_pos hneed]
      ring
    · have hneed' : ¬ needOf py position = need := hrow.need ▸ hneed
      rw [List.filter_cons_of_neg (by simpa using hneed),
        List.filter_cons_of_neg (by simpa using hneed'), id, if_neg hneed, zero_add, ih]

section Law

variable {positions supplierOrders transferOrders : List Value}

theorem open_eq_serve (hkeys : DistinctLots py supplierOrders transferOrders) :
    (buildMaterialOrderCoverage py positions supplierOrders transferOrders).positions.map
        (fun row => (row.need, row.remainingQuantity)) =
      serve takes (lots py supplierOrders transferOrders) (demandsOf py positions) quantityIn := by
  have hserve := positionRows_serve hkeys positions ∅
  rw [Exchange.serve_congr fun lot _ => leftOf_empty lot] at hserve
  exact hserve

theorem total_demandsOf (need : Need) :
    total id need (demandsOf py positions) = requestedIn py positions need := by
  unfold total demandsOf requestedIn
  rw [List.filter_map, List.map_map]
  rfl

/-- What is covered of a need, where keys do not mix. -/
theorem coveredIn_eq (hkeys : DistinctLots py supplierOrders transferOrders)
    (huniform : UniformKeys py positions supplierOrders transferOrders) (need : Need) :
    coveredIn py positions supplierOrders transferOrders need =
      min (requestedIn py positions need) (suppliedIn py supplierOrders transferOrders need) := by
  have hsum := sum_covered (positionRows_open hkeys positions ∅) need
  have hopen : total id need (serve takes (lots py supplierOrders transferOrders)
      (demandsOf py positions) quantityIn) = max 0 (total id need (demandsOf py positions) -
        has (fun lot => decide (needIn lot = need)) (lots py supplierOrders transferOrders)
          quantityIn) := by
    apply Exchange.total_serve (List.Nodup.of_map _ hkeys) (fun d hd => (mem_demandsOf hd).1)
    · intro d hd lot hlot
      apply takes_iff
      exact huniform d.1 (List.mem_append_left _ (mem_demandsOf hd).2) (needIn lot)
        (List.mem_append_right _ (List.mem_map_of_mem hlot))
    · exact fun lot => le_max_left 0 lot.2.quantity
  rw [← open_eq_serve hkeys, total_demandsOf] at hopen
  have hsupplied : has (fun lot => decide (needIn lot = need))
      (lots py supplierOrders transferOrders) quantityIn =
        suppliedIn py supplierOrders transferOrders need := rfl
  rw [hsupplied] at hopen
  have hcovered : coveredIn py positions supplierOrders transferOrders need +
      max 0 (requestedIn py positions need - suppliedIn py supplierOrders transferOrders need) =
        requestedIn py positions need := by
    rw [← hopen]
    exact hsum
  rcases le_total (requestedIn py positions need)
    (suppliedIn py supplierOrders transferOrders need) with h | h
  · rw [max_eq_left (sub_nonpos.mpr h), add_zero] at hcovered
    rw [min_eq_left h, hcovered]
  · rw [max_eq_right (sub_nonneg.mpr h)] at hcovered
    rw [min_eq_right h]
    linarith

/-- The snapshot is full where every position asks for something and nothing stays open. -/
theorem status_full_iff (hkeys : DistinctLots py supplierOrders transferOrders) :
    (buildMaterialOrderCoverage py positions supplierOrders transferOrders).status = .full ↔
      positions.filter (isActive py) ≠ [] ∧
        (∀ position ∈ positions.filter (isActive py), 0 < requestedOf py position) ∧
        ∀ d ∈ serve takes (lots py supplierOrders transferOrders) (demandsOf py positions)
          quantityIn, d.2 = 0 := by
  have hopen := @open_eq_serve py positions supplierOrders transferOrders hkeys
  obtain ⟨hrows, -⟩ := @positionRows_law py (selectSupplierOrdersForQty py supplierOrders)
    transferOrders positions ∅
  unfold buildMaterialOrderCoverage at hopen ⊢
  dsimp only at hopen ⊢
  generalize positionRows py (selectSupplierOrdersForQty py supplierOrders) transferOrders positions
    ∅ = rows at hopen hrows ⊢
  generalize positions.filter (isActive py) = active at hrows ⊢
  have hasked : rows.map (·.requestedQuantity) = active.map (requestedOf py) := by
    rw [← List.forall₂_eq_eq_eq, List.forall₂_map_left_iff, List.forall₂_map_right_iff]
    exact hrows.imp fun _ _ h => h.asked
  have hpositive : (∀ position ∈ active, 0 < requestedOf py position) ↔
      ∀ row ∈ rows, 0 < row.requestedQuantity := by
    rw [← List.forall_mem_map (P := fun q => 0 < q), ← hasked, List.forall_mem_map]
  have hnil : rows ≠ [] ↔ active ≠ [] := by
    rw [Ne, Ne, ← List.length_eq_zero_iff, ← List.length_eq_zero_iff, hrows.length_eq]
  have hfully : (∀ row ∈ rows, row.fullyCovered = true) ↔
      ∀ row ∈ rows, row.remainingQuantity = 0 ∧ 0 < row.requestedQuantity := by
    apply forall₂_congr
    intro row hrow
    obtain ⟨position, -, h⟩ := exists_of_forall₂ hrows hrow
    exact h.fully
  rw [coverageStatus_full_iff, hnil, hpositive, ← hopen, List.forall_mem_map, hfully,
    and_comm (a := ∀ row ∈ rows, 0 < row.requestedQuantity), ← forall₂_and]

/-! ## The order of the documents -/

variable (py) in
/-- No two supplier orders that are not cancelled have the same reference. -/
def DistinctRefs (supplierOrders : List Value) : Prop :=
  ((supplierOrders.filter fun order => orderRef py order ≠ "" && !documentCancelled py order).map
    (orderRef py)).Nodup

theorem DistinctRefs.items (h : DistinctRefs py supplierOrders) :
    (byRef py supplierOrders).items =
      (supplierOrders.filter fun order => orderRef py order ≠ "" && !documentCancelled py order).map
        fun order => (orderRef py order, order) := by
  apply Dict.items_ofList_of_nodup
  rw [List.map_map]
  exact h

section

variable {orders orders' : List Value} (hperm : orders'.Perm orders) (h : DistinctRefs py orders)
include hperm h

theorem DistinctRefs.perm : DistinctRefs py orders' :=
  (((hperm.filter _).map _).nodup_iff).mpr h

/-- Which orders are selected does not depend on their order. -/
theorem selected_perm :
    (selectSupplierOrdersForQty py orders').Perm (selectSupplierOrdersForQty py orders) := by
  have hitems : (byRef py orders').items.Perm (byRef py orders).items := by
    rw [h.items, (h.perm hperm).items]
    exact (hperm.filter _).map _
  have hget : ∀ ref, (byRef py orders').get? ref = (byRef py orders).get? ref := by
    intro ref
    apply Option.ext
    intro order
    rw [Dict.get?_eq_some_iff, Dict.get?_eq_some_iff, hitems.mem_iff]
  have hexcluded : ∀ parentRef, isExcludedParent py (byRef py orders') parentRef =
      isExcludedParent py (byRef py orders) parentRef := by
    intro parentRef
    unfold isExcludedParent excludesParent
    rw [hget]
    exact hitems.any_eq
  unfold selectSupplierOrdersForQty
  dsimp only
  simp only [hexcluded]
  exact (hitems.filter _).map _

end

theorem lots_perm {supplierOrders' transferOrders' : List Value}
    (hsuppliers : supplierOrders'.Perm supplierOrders) (hrefs : DistinctRefs py supplierOrders)
    (htransfers : transferOrders'.Perm transferOrders) :
    (lots py supplierOrders' transferOrders').Perm (lots py supplierOrders transferOrders) :=
  (htransfers.flatMap_right _).append ((selected_perm hsuppliers hrefs).flatMap_right _)

/-- What is covered of a need does not depend on any order, where keys do not mix. -/
theorem coveredIn_perm {positions' supplierOrders' transferOrders' : List Value}
    (hpositions : positions'.Perm positions) (hsuppliers : supplierOrders'.Perm supplierOrders)
    (hrefs : DistinctRefs py supplierOrders) (htransfers : transferOrders'.Perm transferOrders)
    (hkeys : DistinctLots py supplierOrders transferOrders)
    (huniform : UniformKeys py positions supplierOrders transferOrders) (need : Need) :
    coveredIn py positions' supplierOrders' transferOrders' need =
      coveredIn py positions supplierOrders transferOrders need := by
  have hlots := lots_perm hsuppliers hrefs htransfers
  have hactive := hpositions.filter (isActive py)
  have hkeys' : DistinctLots py supplierOrders' transferOrders' :=
    (hlots.map Prod.fst).nodup_iff.mpr hkeys
  have hall := (hactive.map (needOf py)).append (hlots.map needIn)
  have huniform' : UniformKeys py positions' supplierOrders' transferOrders' := by
    intro key hkey key' hkey'
    exact huniform key (hall.mem_iff.mp hkey) key' (hall.mem_iff.mp hkey')
  rw [coveredIn_eq hkeys huniform, coveredIn_eq hkeys' huniform']
  congr 1
  · exact ((hactive.filter _).map _).sum_eq
  · exact ((hlots.filter _).map _).sum_eq

variable (py positions supplierOrders transferOrders) in
/-- Of the positions and the lines of every nomenclature, one side has no characteristic. -/
def OneSided : Prop :=
  ∀ nomenclatureId,
    (∀ position ∈ positions.filter (isActive py), (needOf py position).nomenclatureId = nomenclatureId →
      (needOf py position).characteristicId = none) ∨
    (∀ lot ∈ lots py supplierOrders transferOrders, lot.2.nomenclatureId = nomenclatureId →
      lot.2.characteristicId = none)

theorem nomenclature_of_takes {need : Need} {lot : Lot} (h : takes need lot = true) :
    lot.2.nomenclatureId = need.nomenclatureId := by
  unfold takes Need.matches at h
  exact of_decide_eq_true (Bool.and_eq_true_iff.mp h).1

theorem takes_of_none {need : Need} {lot : Lot}
    (hnomenclature : lot.2.nomenclatureId = need.nomenclatureId)
    (h : need.characteristicId = none ∨ lot.2.characteristicId = none) : takes need lot = true := by
  unfold takes Need.matches
  rw [hnomenclature, decide_eq_true rfl, Bool.true_and]
  rcases h with h | h
  · rw [h]
  · rw [h]
    cases need.characteristicId <;> rfl

/-- Where one side has no characteristic, no line is only for one position. -/
theorem OneSided.exchangeable (h : OneSided py positions supplierOrders transferOrders) :
    Exchangeable takes (lots py supplierOrders transferOrders)
      ((positions.filter (isActive py)).map (needOf py)) := by
  apply List.pairwise_of_forall_mem_list
  intro need _ need' hneed'
  apply List.pairwise_of_forall_mem_list
  intro lot _ lot' hlot' hfirst hlater hfirst'
  obtain ⟨position, hposition, rfl⟩ := List.mem_map.mp hneed'
  have hsame : lot'.2.nomenclatureId = (needOf py position).nomenclatureId := by
    rw [← nomenclature_of_takes hfirst', nomenclature_of_takes hfirst, nomenclature_of_takes hlater]
  apply takes_of_none hsame
  rcases h (needOf py position).nomenclatureId with hplain | hplain
  · exact .inl (hplain position hposition rfl)
  · exact .inr (hplain lot' hlot' hsame)

/-- **The law of the coverage.** Where keys do not mix, what is covered of a need is what is asked
for up to what the lines that count have, in every order of the positions and the documents. Where
one side has no characteristic, or no position takes from two lines while a later position may take
from the earlier one only, the snapshot is full when an assignment of the lines covers all
positions. -/
theorem coverage_maximal (hkeys : DistinctLots py supplierOrders transferOrders) :
    (UniformKeys py positions supplierOrders transferOrders → ∀ need,
      coveredIn py positions supplierOrders transferOrders need =
        min (requestedIn py positions need) (suppliedIn py supplierOrders transferOrders need)) ∧
    (OneSided py positions supplierOrders transferOrders ∨
        Exchangeable takes (lots py supplierOrders transferOrders)
          ((positions.filter (isActive py)).map (needOf py)) →
      ((buildMaterialOrderCoverage py positions supplierOrders transferOrders).status = .full ↔
        positions.filter (isActive py) ≠ [] ∧
          (∀ position ∈ positions.filter (isActive py), 0 < requestedOf py position) ∧
          Coverable takes (lots py supplierOrders transferOrders) quantityIn
            (demandsOf py positions))) ∧
    (UniformKeys py positions supplierOrders transferOrders → DistinctRefs py supplierOrders →
      ∀ positions' supplierOrders' transferOrders', positions'.Perm positions →
        supplierOrders'.Perm supplierOrders → transferOrders'.Perm transferOrders → ∀ need,
          coveredIn py positions' supplierOrders' transferOrders' need =
            coveredIn py positions supplierOrders transferOrders need) := by
  refine ⟨coveredIn_eq hkeys, ?_, ?_⟩
  swap
  · intro huniform hrefs positions' supplierOrders' transferOrders' hpositions hsuppliers htransfers
    exact coveredIn_perm hpositions hsuppliers hrefs htransfers hkeys huniform
  intro hmatching
  have hexchange := hmatching.elim OneSided.exchangeable id
  rw [status_full_iff hkeys]
  apply and_congr_right
  intro _
  apply and_congr_right
  intro _
  have hlabels : (demandsOf py positions).map Prod.fst =
      (positions.filter (isActive py)).map (needOf py) := by
    unfold demandsOf
    rw [List.map_map]
    rfl
  constructor
  · exact Exchange.coverable_of_serve (List.Nodup.of_map _ hkeys)
      (fun lot => le_max_left 0 lot.2.quantity) fun d hd => (mem_demandsOf hd).1
  · exact Exchange.serve_covers (List.Nodup.of_map _ hkeys) (hlabels ▸ hexchange)

end Law

def pipeReading : Reading where
  lower := id
  casefold := id
  decimal := fun text => if text = "1" then some 1 else none
  repr := fun _ => ""

def onePipe (lineId : String) (colour : String) : Value :=
  .dict [("line_id", .str lineId), ("nomenclature_id", .str "pipe"),
    ("characteristic_id", .str colour), ("quantity", .num 1 "1")]

def pipesOrder : Value :=
  .dict [("ref", .str "order"), ("is_definite", .bool true),
    ("lines", .list [onePipe "1" "red", onePipe "2" "blue"])]

theorem coverage_pipes : DistinctLots pipeReading [pipesOrder] [] ∧
    ((OneSided pipeReading [onePipe "1" "red", onePipe "2" ""] [pipesOrder] [] ∨
        Exchangeable takes (lots pipeReading [pipesOrder] [])
          (([onePipe "1" "red", onePipe "2" ""].filter (isActive pipeReading)).map
            (needOf pipeReading))) →
      ((buildMaterialOrderCoverage pipeReading [onePipe "1" "red", onePipe "2" ""]
          [pipesOrder] []).status = .full ↔
        [onePipe "1" "red", onePipe "2" ""].filter (isActive pipeReading) ≠ [] ∧
          (∀ position ∈ [onePipe "1" "red", onePipe "2" ""].filter (isActive pipeReading),
            0 < requestedOf pipeReading position) ∧
          Coverable takes (lots pipeReading [pipesOrder] []) quantityIn
            (demandsOf pipeReading [onePipe "1" "red", onePipe "2" ""]))) := by
  have hkeys : DistinctLots pipeReading [pipesOrder] [] := by
    unfold DistinctLots
    decide +kernel
  exact ⟨hkeys, (coverage_maximal hkeys).2.1⟩

/-- The position that takes any pipe takes the red one, and none is left for the position that needs
it, though the blue one would have done for the first. -/
theorem not_full_mixed :
    ¬ ∀ (py : Reading) (positions supplierOrders transferOrders : List Value),
      DistinctLots py supplierOrders transferOrders →
        positions.filter (isActive py) ≠ [] →
        (∀ position ∈ positions.filter (isActive py), 0 < requestedOf py position) →
        Coverable takes (lots py supplierOrders transferOrders) quantityIn (demandsOf py positions) →
        (buildMaterialOrderCoverage py positions supplierOrders transferOrders).status = .full := by
  intro h
  have hfull := h pipeReading [onePipe "1" "", onePipe "2" "red"] [pipesOrder] []
    (by unfold DistinctLots; decide +kernel) (by decide +kernel) (by decide +kernel) ?_
  · exact absurd hfull (by decide +kernel)
  · refine ⟨[(⟨"pipe", none⟩, fun lot => if lot.1.lineId = "2" then 1 else 0),
      (⟨"pipe", some "red"⟩, fun lot => if lot.1.lineId = "1" then 1 else 0)], ⟨?_, ?_⟩, ?_⟩
    · decide +kernel
    · decide +kernel
    · decide +kernel

end AgentBack.Coverage
