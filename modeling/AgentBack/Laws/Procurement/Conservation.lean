import AgentBack.Laws.Procurement.Lines

/-!
# The bank gives what it has

Over a whole run the quantities taken from a stock row and from an offering sum to at most what
the bank has of them. The bank keeps one row for each stock id and one offering for each supplier
and nomenclature, the last one listed (`Dict.LastUnder`); nothing is taken from any other.
-/

namespace AgentBack.Procurement

open Dict (LastUnder)

variable {casefold : String → String} {store : MaterialBankStore}

theorem available_stockLine (row : StockLine) :
    row.available = max 0 (row.quantity - row.reserved) := by
  unfold StockLine.available
  simp only
  split
  · next h => exact (max_eq_left (le_of_lt h)).symm
  · next h => exact (max_eq_right (not_lt.mp h)).symm

/-- At the start a kept stock row has its free quantity on hand. -/
theorem onHand_stock {stockId : String} {row : StockLine}
    (h : LastUnder (stockRows store) stockId row) :
    onHand (initialRemaining casefold store).stock stockId = row.available := by
  have hget := Dict.get?_ofList_eq_some_iff.mpr h
  simp only [initialRemaining, onHand, Dict.getD, Dict.get?_ofList_map, hget, Option.map_some,
    Option.getD_some]

/-- At the start a kept offering has its available quantity on hand. -/
theorem onHand_supplier {key : String × String} {offering : Offering}
    (h : LastUnder (offeringRows casefold store) key offering) :
    onHand (initialRemaining casefold store).supplier key = offering.available := by
  have hget := Dict.get?_ofList_eq_some_iff.mpr h
  simp only [initialRemaining, onHand, Dict.getD, Dict.get?_ofList_map, hget, Option.map_some,
    Option.getD_some]

/-- A dictionary of pairs has something on hand only under the key of a pair. -/
theorem lastUnder_of_onHand {κ ν : Type} [DecidableEq κ] {pairs : List (κ × ν)}
    {f : ν → ℚ} {k : κ} (h : 0 < onHand (Dict.ofList (pairs.map fun p => (p.1, f p.2))) k) :
    ∃ v, LastUnder pairs k v := by
  rw [onHand, Dict.getD, Dict.get?_ofList_map] at h
  cases hget : (Dict.ofList pairs).get? k with
  | none =>
    rw [hget] at h
    exact absurd h (lt_irrefl 0)
  | some v => exact ⟨v, Dict.get?_ofList_eq_some_iff.mp hget⟩

/-- The books of a line: it covers no more than it needs and says what it does not cover. -/
structure Balanced (line : LineResult) : Prop where
  covered : line.coveredQuantity = line.fromWarehouse + line.fromSupplier
  nonneg : 0 ≤ line.coveredQuantity
  enough : line.coveredQuantity ≤ line.neededQuantity
  deficit : line.coveredQuantity + line.deficitQuantity = line.neededQuantity
  warehouse : line.fromWarehouse = takenInAll (stockLog line.warehouseParts)
  supplier : line.fromSupplier = takenInAll line.supplierDraws
  parts : ∀ supplierId, takenUnder supplierId (supplierLog line.supplierParts) =
    takenUnder supplierId (bySupplier line.supplierDraws)

theorem allocateLine_balanced (remaining : Remaining) {demand : Demand}
    (hpos : 0 < demand.quantity) :
    Balanced (allocateLine casefold store remaining demand).1 := by
  obtain ⟨mid, left, h⟩ := allocateLine_served casefold store remaining demand
  have hbalance := h.balance
  have hleft : 0 ≤ left := h.supplier.nonneg (h.stock.nonneg (le_of_lt hpos))
  have hcovered : (allocateLine casefold store remaining demand).1.coveredQuantity =
      (allocateLine casefold store remaining demand).1.fromWarehouse +
        (allocateLine casefold store remaining demand).1.fromSupplier := rfl
  have hneeded : (allocateLine casefold store remaining demand).1.neededQuantity =
      demand.quantity := rfl
  have hdeficit : (allocateLine casefold store remaining demand).1.deficitQuantity =
      max 0 (demand.quantity -
        (allocateLine casefold store remaining demand).1.coveredQuantity) := rfl
  have hrest : demand.quantity - (allocateLine casefold store remaining demand).1.coveredQuantity =
      left := by
    rw [hcovered, ← hbalance, add_sub_cancel_right]
  refine ⟨hcovered, ?_, ?_, ?_, h.fromWarehouse, h.fromSupplier, h.parts⟩
  · rw [hcovered, h.fromWarehouse, h.fromSupplier]
    exact add_nonneg h.stock.draws.takenInAll_nonneg h.supplier.draws.takenInAll_nonneg
  · rw [hneeded]
    exact sub_nonneg.mp (hrest ▸ hleft)
  · rw [hdeficit, hneeded, hrest, max_eq_right hleft, ← hrest, add_sub_cancel]

/-- Over the whole run no stock row and no offering gives more than it has, and the books of every
line balance. -/
theorem allocateMaterials_conserves (casefold : String → String)
    (fromIsoFormat : String → Option DateTime) (store : MaterialBankStore) (cases : List Case) :
    (∀ stockId row, LastUnder (stockRows store) stockId row →
      takenUnder stockId ((allocateMaterialsByDeadline casefold fromIsoFormat store cases).flatMap
        fun line => stockLog line.warehouseParts) ≤ max 0 (row.quantity - row.reserved)) ∧
    (∀ supplierId nomKey offering,
      LastUnder (offeringRows casefold store) (supplierId, nomKey) offering →
      takenUnder (supplierId, nomKey) ((allocateMaterialsByDeadline casefold fromIsoFormat store
        cases).flatMap LineResult.supplierDraws) ≤ max 0 offering.available) ∧
    ∀ line ∈ allocateMaterialsByDeadline casefold fromIsoFormat store cases,
      Balanced line ∧
        (∀ part ∈ line.warehouseParts, ∃ row, LastUnder (stockRows store) part.stockId row) ∧
        ∀ d ∈ line.supplierDraws, ∃ offering,
          LastUnder (offeringRows casefold store) d.1 offering := by
  obtain ⟨hstock, hsupplier⟩ := allocateLines_draws casefold store
    (sortedDemands fromIsoFormat cases) (initialRemaining casefold store)
  refine ⟨fun stockId row hrow => ?_, fun supplierId nomKey offering hoffering => ?_,
    fun line hline => ⟨?_, fun part hpart => ?_, fun d hd => ?_⟩⟩
  · have hle := hstock.takenUnder_le stockId
    rw [onHand_stock hrow, available_stockLine, max_eq_right (le_max_left _ _)] at hle
    exact hle
  · have hle := hsupplier.takenUnder_le (supplierId, nomKey)
    rw [onHand_supplier hoffering] at hle
    exact hle
  · obtain ⟨demand, hdemand, before, rfl⟩ := mem_allocateLines hline
    exact allocateLine_balanced before (quantity_pos (mem_sortBy.mp hdemand))
  · refine lastUnder_of_onHand (hstock.onHand_pos (d := (part.stockId, part.quantity)) ?_)
    exact List.mem_flatMap.mpr ⟨line, hline, List.mem_map.mpr ⟨part, hpart, rfl⟩⟩
  · exact lastUnder_of_onHand
      (hsupplier.onHand_pos (List.mem_flatMap.mpr ⟨line, hline, hd⟩))

/-- Four free bolts in a warehouse and three at a supplier. -/
def boltStore : MaterialBankStore where
  warehouses := [⟨"W1", some "Main"⟩]
  stockLines := [⟨some "S1", some "W1", some "bolt", some "bolt m6", 5, 1⟩]
  suppliers := [{
    supplierId := some "P1"
    name := some "Fasteners"
    isActive := true
    offerings := [{
      nomenclatureId := some "bolt"
      nomenclatureName := some "bolt m6"
      availableQuantity := some 3
      availableQty := none
      leadTimeDays := some 7
      unitPrice := some 2 }] }]

def boltCase (id : String) (quantity : ℚ) (dueDay : Int) : Case where
  id := some id
  caseId := none
  requiredDate := .moment ⟨dueDay * 86400000000, some 0⟩
  positions := [⟨false, some "1", none, some "bolt", none, quantity, none, .missing⟩]

def boltDemand (id : String) (quantity : ℚ) (dueDay : Int) : Demand :=
  ⟨id, "1", "bolt", none, quantity, "шт", .moment ⟨dueDay * 86400000000, some 0⟩⟩

/-- Two cases ask for eleven bolts in all; the four of the warehouse row suffice for no more. -/
theorem allocateMaterials_conserves_bolts :
    takenUnder "S1" ((allocateMaterialsByDeadline id (fun _ => none) boltStore
      [boltCase "late" 6 20, boltCase "early" 5 10]).flatMap
        fun line => stockLog line.warehouseParts) ≤ max 0 (5 - 1) :=
  (allocateMaterials_conserves id (fun _ => none) boltStore
    [boltCase "late" 6 20, boltCase "early" 5 10]).1 "S1"
    ⟨some "S1", some "W1", some "bolt", some "bolt m6", 5, 1⟩ ⟨[], [], by rfl, by simp⟩

end AgentBack.Procurement

/-!
# Earlier deadlines first

A demand line is served from what the lines before it in the deadline order have left, and the
sort decides which lines these are. So two runs agree on a line, and on all lines before it, when
they agree on the lines that do not sort after it (`sortedDemands_before`); and with distinct sort
keys the order in which cases and positions are listed does not matter.
-/

namespace AgentBack.Procurement

variable {casefold : String → String} {fromIsoFormat : String → Option DateTime}
  {store : MaterialBankStore}

/-- The demand lines of a listing that do not sort after a line between `before` and `after`:
those listed before it with no later key, and those listed after it with an earlier one. -/
def notAfter (fromIsoFormat : String → Option DateTime) (before : List Demand) (demand : Demand)
    (after : List Demand) : List Demand :=
  (before.filter fun d => sortKey fromIsoFormat d ≤ sortKey fromIsoFormat demand) ++
    after.filter fun d => sortKey fromIsoFormat d < sortKey fromIsoFormat demand

/-- Before a line the deadline order has the lines that do not sort after it. -/
theorem sortedDemands_before {cases : List Case} {before after : List Demand} {demand : Demand}
    (h : demandsFromCases cases = before ++ demand :: after) :
    ∃ later, sortedDemands fromIsoFormat cases =
      sortBy (sortKey fromIsoFormat) (notAfter fromIsoFormat before demand after) ++
        demand :: later := by
  obtain ⟨later, hsort, _⟩ := sortBy_append_cons (f := sortKey fromIsoFormat) before demand after
  exact ⟨later, by rw [sortedDemands, h, hsort, notAfter]⟩

structure SameCase (case case' : Case) : Prop where
  id : case.id = case'.id
  caseId : case.caseId = case'.caseId
  requiredDate : case.requiredDate = case'.requiredDate
  positions : case.positions.Perm case'.positions

/-- The same cases in another order, each with its positions in another order. -/
def Relisted (cases cases' : List Case) : Prop :=
  ∃ mid, cases.Perm mid ∧ List.Forall₂ SameCase mid cases'

theorem SameCase.demands {case case' : Case} (h : SameCase case case') :
    (case.positions.filterMap (demandOf case)).Perm (case'.positions.filterMap (demandOf case')) := by
  have hdemand : demandOf case = demandOf case' := by
    funext position
    simp only [demandOf, h.id, h.caseId, h.requiredDate]
  rw [hdemand]
  exact h.positions.filterMap _

theorem Relisted.demands {cases cases' : List Case} (h : Relisted cases cases') :
    (demandsFromCases cases).Perm (demandsFromCases cases') := by
  obtain ⟨mid, hperm, hsame⟩ := h
  apply (hperm.flatMap_right _).trans
  clear hperm
  induction hsame with
  | nil => exact .refl _
  | cons hcase _ ih =>
    simp only [demandsFromCases, List.flatMap_cons]
    exact hcase.demands.append ih

/-- Two runs in which the same lines do not sort after a line serve it, and all lines before it,
in the same way; and with distinct sort keys relisting the cases changes no line at all. -/
theorem allocateMaterials_by_deadline (casefold : String → String)
    (fromIsoFormat : String → Option DateTime) (store : MaterialBankStore) :
    (∀ (cases cases' : List Case) (before after before' after' : List Demand) (demand : Demand),
      demandsFromCases cases = before ++ demand :: after →
      demandsFromCases cases' = before' ++ demand :: after' →
      notAfter fromIsoFormat before demand after = notAfter fromIsoFormat before' demand after' →
      ∃ earlier line later later' remaining,
        allocateMaterialsByDeadline casefold fromIsoFormat store cases =
          earlier ++ line :: later ∧
        allocateMaterialsByDeadline casefold fromIsoFormat store cases' =
          earlier ++ line :: later' ∧
        line = (allocateLine casefold store remaining demand).1 ∧
        earlier.length = (notAfter fromIsoFormat before demand after).length) ∧
    ∀ cases cases' : List Case, Relisted cases cases' →
      (demandsFromCases cases).Pairwise
        (fun d d' => sortKey fromIsoFormat d ≠ sortKey fromIsoFormat d') →
      allocateMaterialsByDeadline casefold fromIsoFormat store cases =
        allocateMaterialsByDeadline casefold fromIsoFormat store cases' := by
  constructor
  · intro cases cases' before after before' after' demand hlist hlist' hsame
    obtain ⟨rest, hsort⟩ := @sortedDemands_before fromIsoFormat _ _ _ _ hlist
    obtain ⟨rest', hsort'⟩ := @sortedDemands_before fromIsoFormat _ _ _ _ hlist'
    rw [← hsame] at hsort'
    obtain ⟨later, hrun⟩ := @allocateMaterials_split casefold store _ _ _ _ _ hsort
    obtain ⟨later', hrun'⟩ := @allocateMaterials_split casefold store _ _ _ _ _ hsort'
    refine ⟨_, _, later, later', _, hrun, hrun', rfl, ?_⟩
    rw [length_allocateLines, (perm_sortBy _ _).length_eq]
  · intro cases cases' hrelisted hkeys
    rw [allocateMaterialsByDeadline, allocateMaterialsByDeadline, sortedDemands, sortedDemands,
      sortBy_eq_of_perm hrelisted.demands hkeys]

theorem SameCase.refl (case : Case) : SameCase case case := ⟨rfl, rfl, rfl, .refl _⟩

/-- The later case asks for six bolts or for ninety, or is listed second: the earlier case gets
the same. -/
theorem allocateMaterials_by_deadline_bolts :
    (∃ earlier line later later' remaining,
      allocateMaterialsByDeadline id (fun _ => none) boltStore
          [boltCase "late" 6 20, boltCase "early" 5 10] = earlier ++ line :: later ∧
        allocateMaterialsByDeadline id (fun _ => none) boltStore
          [boltCase "late" 90 20, boltCase "early" 5 10] = earlier ++ line :: later' ∧
        line = (allocateLine id boltStore remaining (boltDemand "early" 5 10)).1 ∧
        earlier.length = (notAfter (fun _ => none) [boltDemand "late" 6 20]
          (boltDemand "early" 5 10) []).length) ∧
      allocateMaterialsByDeadline id (fun _ => none) boltStore
          [boltCase "late" 6 20, boltCase "early" 5 10] =
        allocateMaterialsByDeadline id (fun _ => none) boltStore
          [boltCase "early" 5 10, boltCase "late" 6 20] := by
  have h := allocateMaterials_by_deadline id (fun _ => none) boltStore
  refine ⟨h.1 _ _ [boltDemand "late" 6 20] [] [boltDemand "late" 90 20] []
    (boltDemand "early" 5 10) (by decide +kernel) (by decide +kernel) (by decide +kernel),
    h.2 _ _ ⟨_, .swap _ _ _, .cons (.refl _) (.cons (.refl _) .nil)⟩ (by decide +kernel)⟩

end AgentBack.Procurement

/-!
# The deadlines of the lines and the order in which they are served

`_sort_key` compares wall clocks: it drops the zones of the deadlines. A deadline is later than
another one with a later wall clock when its zone is behind by more than the clocks are apart. So the
lines are served in the order of their deadlines exactly when no two demands are like that in the
order of the keys, and no demand without a date ties with one at the very last microsecond
(`allocateMaterials_inOrder_iff`).
-/

namespace AgentBack.Procurement

variable {fromIsoFormat : String → Option DateTime}

/-- The date of a line, as `_sort_key` reads it; none when it is missing or cannot be read. -/
def RequiredDate.date? (fromIsoFormat : String → Option DateTime) : RequiredDate → Option DateTime
  | .missing => none
  | .text value => fromIsoFormat (replaceZulu value)
  | .moment value => some value

def DateTime.instant? (date : DateTime) : Option Int :=
  date.utcOffset.map fun offset => date.wall - offset

/-- A line with the first date may be served before one with the second. -/
structure InOrder (fromIsoFormat : String → Option DateTime) (first second : RequiredDate) :
    Prop where
  instants : ∀ a b i j, first.date? fromIsoFormat = some a → second.date? fromIsoFormat = some b →
    a.instant? = some i → b.instant? = some j → i ≤ j
  dated : first.date? fromIsoFormat = none → second.date? fromIsoFormat = none

/-- **The order of the deadlines.** No line is served before one that is due strictly earlier, and
none without a date before one with a date. -/
def ServedInOrder (fromIsoFormat : String → Option DateTime) (lines : List LineResult) : Prop :=
  lines.Pairwise fun a b => InOrder fromIsoFormat a.requiredDate b.requiredDate

/-! ## When the wall clocks give that order -/

/-- The clocks of two dates are at least as far apart as their zones are. -/
def DateTime.ClocksApart (a b : DateTime) : Prop :=
  ∀ x y, a.utcOffset = some x → b.utcOffset = some y → y - x ≤ b.wall - a.wall

/-- A demand whose key is not larger than that of another one. -/
structure Demand.MayPrecede (fromIsoFormat : String → Option DateTime) (first second : Demand) :
    Prop where
  clocks : ∀ a b, first.requiredDate.date? fromIsoFormat = some a →
    second.requiredDate.date? fromIsoFormat = some b → a.ClocksApart b
  last : first.requiredDate.date? fromIsoFormat = none →
    ∀ b, second.requiredDate.date? fromIsoFormat = some b → b.wall < sentinel

/-- Of any two demands the one that the keys put first, or that is listed first under one key, may
precede the other one. -/
def ClocksAgree (fromIsoFormat : String → Option DateTime) (demands : List Demand) : Prop :=
  demands.Pairwise fun a b =>
    (sortKey fromIsoFormat a ≤ sortKey fromIsoFormat b → a.MayPrecede fromIsoFormat b) ∧
      (sortKey fromIsoFormat b < sortKey fromIsoFormat a → b.MayPrecede fromIsoFormat a)

theorem sortDate_eq (required : RequiredDate) :
    sortDate fromIsoFormat required =
      (required.date? fromIsoFormat).elim sentinel DateTime.wall := by
  cases required <;> rfl

theorem sortDate_le {a b : Demand} (h : sortKey fromIsoFormat a ≤ sortKey fromIsoFormat b) :
    sortDate fromIsoFormat a.requiredDate ≤ sortDate fromIsoFormat b.requiredDate :=
  Prod.Lex.monotone_fst _ _ h

theorem inOrder_iff {a b : Demand} (hkey : sortKey fromIsoFormat a ≤ sortKey fromIsoFormat b) :
    InOrder fromIsoFormat a.requiredDate b.requiredDate ↔ a.MayPrecede fromIsoFormat b := by
  have hclock := sortDate_le hkey
  rw [sortDate_eq, sortDate_eq] at hclock
  constructor
  · rintro ⟨hinstants, hdated⟩
    refine ⟨fun c d hc hd x y hx hy => ?_, fun hnone d hd => ?_⟩
    · have := hinstants c d (c.wall - x) (d.wall - y) hc hd (by rw [DateTime.instant?, hx]; rfl)
        (by rw [DateTime.instant?, hy]; rfl)
      omega
    · rw [hdated hnone] at hd
      cases hd
  · rintro ⟨hclocks, hlast⟩
    refine ⟨fun c d i j hc hd hi hj => ?_, fun hnone => ?_⟩
    · obtain ⟨x, hx, rfl⟩ := Option.map_eq_some_iff.mp hi
      obtain ⟨y, hy, rfl⟩ := Option.map_eq_some_iff.mp hj
      have := hclocks c d hc hd x y hx hy
      omega
    · cases hd : b.requiredDate.date? fromIsoFormat with
      | none => rfl
      | some d =>
        rw [hnone, hd] at hclock
        exact absurd hclock (not_le.mpr (hlast hnone d hd))

theorem requiredDate_allocateLines (casefold : String → String) (store : MaterialBankStore)
    (remaining : Remaining) (demands : List Demand) :
    (allocateLines casefold store remaining demands).1.map LineResult.requiredDate =
      demands.map Demand.requiredDate := by
  induction demands generalizing remaining with
  | nil => rfl
  | cons demand rest ih =>
    rw [allocateLines, List.map_cons, List.map_cons, ih]
    rfl

/-- The pairs of the lines are those of the sorted demands. -/
theorem servedInOrder_sorted (casefold : String → String)
    (fromIsoFormat : String → Option DateTime) (store : MaterialBankStore) (cases : List Case) :
    ServedInOrder fromIsoFormat (allocateMaterialsByDeadline casefold fromIsoFormat store cases) ↔
      (sortedDemands fromIsoFormat cases).Pairwise fun a b =>
        InOrder fromIsoFormat a.requiredDate b.requiredDate := by
  unfold ServedInOrder allocateMaterialsByDeadline
  rw [← @List.pairwise_map _ _ LineResult.requiredDate (InOrder fromIsoFormat),
    requiredDate_allocateLines, List.pairwise_map]

/-- A case for bolts that is due at an hour of one day, on the clocks of a zone. -/
def zoneCase (id : String) (hour offset : Int) : Case where
  id := some id
  caseId := none
  requiredDate := .moment ⟨hour * 3600000000, some (offset * 3600000000)⟩
  positions := [⟨false, some "1", none, some "bolt", none, 5, none, .missing⟩]

end AgentBack.Procurement
