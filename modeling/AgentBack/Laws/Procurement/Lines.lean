import AgentBack.Base.Draw
import AgentBack.Procurement.Allocation

/-!
# What one demand line takes

The loops of one demand line are draws from the stock and from the offerings: each loop refines
`Serves`, so that the line covers what it takes and never takes too much, and each visits every row
it is given unless nothing is left to cover (`Spent`). A row that is skipped because it was seen is
spent already.
-/

namespace AgentBack.Procurement

variable {casefold : String → String} {store : MaterialBankStore}

def stockLog (parts : List WarehousePart) : List (String × ℚ) :=
  parts.map fun part => (part.stockId, part.quantity)

def supplierLog (parts : List SupplierPart) : List (String × ℚ) :=
  parts.map fun part => (part.supplierId, part.quantity)

/-- The draws from the offerings as quantities under the suppliers. -/
def bySupplier (draws : List ((String × String) × ℚ)) : List (String × ℚ) :=
  draws.map fun d => (d.1.1, d.2)

theorem bySupplier_append (draws draws' : List ((String × String) × ℚ)) :
    bySupplier (draws ++ draws') = bySupplier draws ++ bySupplier draws' :=
  List.map_append

/-! ## The stock rows -/

/-- The invariant of the loop over the stock rows of a line that needs `needed`. -/
structure StockInv (start : Dict String ℚ) (needed : ℚ) (s : StockLoop) : Prop where
  serves : Serves start needed (stockLog s.warehouseParts) s.remainingStock s.left
  total : s.fromWarehouse = takenInAll (stockLog s.warehouseParts)
  seen : ∀ stockId ∈ s.seenStock, Spent s.remainingStock s.left stockId

theorem StockInv.init (start : Dict String ℚ) (needed : ℚ) :
    StockInv start needed ⟨start, needed, 0, [], []⟩ where
  serves := .refl start needed
  total := rfl
  seen stockId h := by cases h

variable {start : Dict String ℚ}

theorem StockInv.drawRow {needed : ℚ} {s : StockLoop} (h : StockInv start needed s)
    (hleft : 0 < s.left) (stockId : String) :
    StockInv start needed (drawStockRow store s stockId) := by
  unfold drawStockRow
  split
  · exact h
  · simp only
    split
    · next hnone =>
      refine ⟨h.serves, h.total, fun id hid => ?_⟩
      rcases List.mem_append.mp hid with hid | hid
      · exact h.seen id hid
      · exact .inr (List.mem_singleton.mp hid ▸ hnone)
    · next hsome =>
      have hpull := Serves.pull hleft (not_le.mp hsome)
      refine ⟨?_, ?_, fun id hid => ?_⟩
      · simp only [stockLog, List.map_append, List.map_cons, List.map_nil]
        exact h.serves.trans hpull
      · simp only [stockLog, List.map_append, List.map_cons, List.map_nil, takenInAll_append,
          takenInAll_cons, takenInAll_nil, add_zero]
        rw [h.total]
        rfl
      · rcases List.mem_append.mp hid with hid | hid
        · exact hpull.spent (h.seen id hid)
        · exact List.mem_singleton.mp hid ▸ Serves.spent_pull s.remainingStock s.left stockId

theorem StockInv.drawRows {needed : ℚ} (stockIds : List String) {s : StockLoop}
    (h : StockInv start needed s) :
    StockInv start needed (drawStockRows store stockIds s) := by
  induction stockIds generalizing s with
  | nil => exact h
  | cons stockId rest ih =>
    unfold drawStockRows
    split
    · exact h
    · next hleft => exact ih (h.drawRow (not_le.mp hleft) stockId)

theorem StockInv.drawAll {needed : ℚ} (byNom : Dict String (List String)) (keys : List String)
    {s : StockLoop} (h : StockInv start needed s) :
    StockInv start needed (drawStock store byNom keys s) := by
  induction keys generalizing s with
  | nil => exact h
  | cons key rest ih =>
    have hrows := @StockInv.drawRows store _ _ (byNom.getD key []) _ h
    unfold drawStock
    simp only
    split
    · exact hrows
    · exact ih hrows

/-- A row is seen after its visit, and what was seen stays so. -/
theorem seen_drawStockRow (s : StockLoop) (stockId : String) :
    s.seenStock ⊆ (drawStockRow store s stockId).seenStock ∧
      stockId ∈ (drawStockRow store s stockId).seenStock := by
  unfold drawStockRow
  split
  · next h => exact ⟨List.Subset.refl _, h⟩
  · simp only
    split
    · exact ⟨List.subset_append_left _ _, List.mem_append_right _ (List.mem_singleton.mpr rfl)⟩
    · exact ⟨List.subset_append_left _ _, List.mem_append_right _ (List.mem_singleton.mpr rfl)⟩

/-- The loop over some rows sees all of them, unless nothing is left to cover. -/
theorem seen_drawStockRows (stockIds : List String) (s : StockLoop) :
    s.seenStock ⊆ (drawStockRows store stockIds s).seenStock ∧
      ∀ stockId ∈ stockIds, (drawStockRows store stockIds s).left ≤ 0 ∨
        stockId ∈ (drawStockRows store stockIds s).seenStock := by
  induction stockIds generalizing s with
  | nil => exact ⟨List.Subset.refl _, fun _ h => by cases h⟩
  | cons stockId rest ih =>
    unfold drawStockRows
    split
    · next hleft => exact ⟨List.Subset.refl _, fun _ _ => .inl hleft⟩
    · obtain ⟨hsub, hmem⟩ := @seen_drawStockRow store s stockId
      obtain ⟨hsub', hrest⟩ := ih (drawStockRow store s stockId)
      refine ⟨List.Subset.trans hsub hsub', fun id hid => ?_⟩
      rcases List.mem_cons.mp hid with rfl | hid
      · exact .inr (hsub' hmem)
      · exact hrest id hid

theorem seen_drawStock (byNom : Dict String (List String)) (keys : List String) (s : StockLoop) :
    s.seenStock ⊆ (drawStock store byNom keys s).seenStock ∧
      ∀ key ∈ keys, ∀ stockId ∈ byNom.getD key [], (drawStock store byNom keys s).left ≤ 0 ∨
        stockId ∈ (drawStock store byNom keys s).seenStock := by
  induction keys generalizing s with
  | nil => exact ⟨List.Subset.refl _, fun _ h => by cases h⟩
  | cons key rest ih =>
    obtain ⟨hsub, hrows⟩ := @seen_drawStockRows store (byNom.getD key []) s
    unfold drawStock
    simp only
    split
    · next hleft => exact ⟨hsub, fun _ _ _ _ => .inl hleft⟩
    · next hleft =>
      obtain ⟨hsub', hrest⟩ := ih (drawStockRows store (byNom.getD key []) s)
      refine ⟨List.Subset.trans hsub hsub', fun key' hkey stockId hid => ?_⟩
      rcases List.mem_cons.mp hkey with rfl | hkey
      · exact .inr (hsub' ((hrows stockId hid).resolve_left hleft))
      · exact hrest key' hkey stockId hid

/-- The line has nothing more to get from any row of its keys. -/
theorem StockInv.spent_drawAll {needed : ℚ} (byNom : Dict String (List String)) (keys : List String)
    {s : StockLoop} (h : StockInv start needed s) {key stockId : String} (hkey : key ∈ keys)
    (hid : stockId ∈ byNom.getD key []) :
    Spent (drawStock store byNom keys s).remainingStock (drawStock store byNom keys s).left
      stockId := by
  rcases (seen_drawStock byNom keys s).2 key hkey stockId hid with hleft | hseen
  · exact .inl hleft
  · exact (h.drawAll byNom keys).seen stockId hseen

/-- What the loop over the offerings of a supplier has done between two states. -/
structure OfferingSteps (supplierId : String) (s s' : OfferingLoop)
    (draws : List ((String × String) × ℚ)) : Prop where
  appended : s'.supplierDraws = s.supplierDraws ++ draws
  own : ∀ d ∈ draws, d.1.1 = supplierId
  total : s'.take = s.take + takenInAll draws
  serves : Serves s.remainingSupplier s.left draws s'.remainingSupplier s'.left

theorem OfferingSteps.refl (supplierId : String) (s : OfferingLoop) :
    OfferingSteps supplierId s s [] where
  appended := (List.append_nil _).symm
  own d h := by cases h
  total := (add_zero _).symm
  serves := .refl _ _

theorem OfferingSteps.trans {supplierId : String} {s s' s'' : OfferingLoop}
    {draws draws' : List ((String × String) × ℚ)} (h : OfferingSteps supplierId s s' draws)
    (h' : OfferingSteps supplierId s' s'' draws') :
    OfferingSteps supplierId s s'' (draws ++ draws') where
  appended := by rw [h'.appended, h.appended, List.append_assoc]
  own d hd := by
    rcases List.mem_append.mp hd with hd | hd
    · exact h.own d hd
    · exact h'.own d hd
  total := by rw [h'.total, h.total, takenInAll_append, add_assoc]
  serves := h.serves.trans h'.serves

/-- One offering: a step that leaves nothing to get from it when it fits the line. -/
theorem drawOffering_steps (keys : List String) (supplierId : String) {s : OfferingLoop}
    (hleft : 0 < s.left) (o : Offering) :
    (∃ draws, OfferingSteps supplierId s (drawOffering casefold keys supplierId s o) draws) ∧
      (o.fits casefold keys = true → o.nomKey casefold ≠ "" →
        Spent (drawOffering casefold keys supplierId s o).remainingSupplier
          (drawOffering casefold keys supplierId s o).left (supplierId, o.nomKey casefold)) := by
  unfold drawOffering
  split
  · next hfits => exact ⟨⟨[], .refl _ _⟩, fun h => absurd h hfits⟩
  · split
    · next hblank => exact ⟨⟨[], .refl _ _⟩, fun _ h => absurd hblank h⟩
    · simp only
      split
      · next hnone => exact ⟨⟨[], .refl _ _⟩, fun _ _ => .inr hnone⟩
      · next hsome =>
        refine ⟨⟨_, rfl, ?_, ?_, Serves.pull hleft (not_le.mp hsome)⟩,
          fun _ _ => Serves.spent_pull s.remainingSupplier s.left _⟩
        · intro d hd
          rw [List.mem_singleton.mp hd]
        · rw [takenInAll_cons, takenInAll_nil, add_zero]

theorem drawOfferings_steps (keys : List String) (supplierId : String) (offerings : List Offering)
    (s : OfferingLoop) :
    (∃ draws, OfferingSteps supplierId s (drawOfferings casefold keys supplierId offerings s)
        draws) ∧
      ∀ o ∈ offerings, o.fits casefold keys = true → o.nomKey casefold ≠ "" →
        Spent (drawOfferings casefold keys supplierId offerings s).remainingSupplier
          (drawOfferings casefold keys supplierId offerings s).left
          (supplierId, o.nomKey casefold) := by
  induction offerings generalizing s with
  | nil => exact ⟨⟨[], .refl _ _⟩, fun _ h => by cases h⟩
  | cons offering rest ih =>
    unfold drawOfferings
    split
    · next hleft => exact ⟨⟨[], .refl _ _⟩, fun _ _ _ _ => .inl hleft⟩
    · next hleft =>
      obtain ⟨⟨draws, hstep⟩, hspent⟩ :=
        @drawOffering_steps casefold keys supplierId s (not_le.mp hleft) offering
      obtain ⟨⟨draws', hsteps⟩, hrest⟩ := ih (drawOffering casefold keys supplierId s offering)
      refine ⟨⟨_, hstep.trans hsteps⟩, fun o ho hfits hkey => ?_⟩
      rcases List.mem_cons.mp ho with rfl | ho
      · exact hsteps.serves.spent (hspent hfits hkey)
      · exact hrest o ho hfits hkey

/-! ## The suppliers -/

/-- What the loop over the suppliers has done between two states. -/
structure SupplierSteps (s s' : SupplierLoop) (draws : List ((String × String) × ℚ)) : Prop where
  appended : s'.supplierDraws = s.supplierDraws ++ draws
  total : s'.fromSupplier = s.fromSupplier + takenInAll draws
  parts : ∀ supplierId, takenUnder supplierId (supplierLog s'.supplierParts) =
    takenUnder supplierId (supplierLog s.supplierParts) + takenUnder supplierId (bySupplier draws)
  serves : Serves s.remainingSupplier s.left draws s'.remainingSupplier s'.left

theorem SupplierSteps.refl (s : SupplierLoop) : SupplierSteps s s [] where
  appended := (List.append_nil _).symm
  total := (add_zero _).symm
  parts _ := (add_zero _).symm
  serves := .refl _ _

theorem SupplierSteps.trans {s s' s'' : SupplierLoop}
    {draws draws' : List ((String × String) × ℚ)} (h : SupplierSteps s s' draws)
    (h' : SupplierSteps s' s'' draws') : SupplierSteps s s'' (draws ++ draws') where
  appended := by rw [h'.appended, h.appended, List.append_assoc]
  total := by rw [h'.total, h.total, takenInAll_append, add_assoc]
  parts supplierId := by
    rw [h'.parts, h.parts, bySupplier_append, takenUnder_append, add_assoc]
  serves := h.serves.trans h'.serves

theorem takenUnder_bySupplier {supplierId : String} {draws : List ((String × String) × ℚ)}
    (h : ∀ d ∈ draws, d.1.1 = supplierId) (other : String) :
    takenUnder other (bySupplier draws) = if supplierId = other then takenInAll draws else 0 := by
  induction draws with
  | nil => split <;> rfl
  | cons d rest ih =>
    have hd := h d (.head _)
    have hrest := ih fun d' hd' => h d' (.tail _ hd')
    rw [bySupplier, List.map_cons, takenUnder_cons, takenInAll_cons]
    rw [bySupplier] at hrest
    rw [hrest, hd]
    split <;> simp

/-- One supplier: a step that leaves nothing to get from its fitting offerings. -/
theorem drawSupplier_steps (keys : List String) (s : SupplierLoop) (supplierId : String) :
    (∃ draws, SupplierSteps s (drawSupplier casefold store keys s supplierId) draws) ∧
      ∀ o ∈ offeringsOf store supplierId, o.fits casefold keys = true → o.nomKey casefold ≠ "" →
        Spent (drawSupplier casefold store keys s supplierId).remainingSupplier
          (drawSupplier casefold store keys s supplierId).left
          (supplierId, o.nomKey casefold) := by
  obtain ⟨⟨draws, hsteps⟩, hspent⟩ := @drawOfferings_steps casefold keys supplierId
    (offeringsOf store supplierId) ⟨s.remainingSupplier, s.left, 0, s.supplierDraws⟩
  have htake := hsteps.total
  simp only [zero_add] at htake
  unfold drawSupplier
  simp only
  split
  · next hnone =>
    -- nothing was taken, so there is no part
    have hzero : takenInAll draws = 0 :=
      le_antisymm (htake ▸ hnone) hsteps.serves.draws.takenInAll_nonneg
    refine ⟨⟨draws, hsteps.appended, ?_, fun other => ?_, hsteps.serves⟩, hspent⟩
    · rw [hzero, add_zero]
    · rw [takenUnder_bySupplier hsteps.own, hzero, ite_self, add_zero]
  · refine ⟨⟨draws, hsteps.appended, ?_, fun other => ?_, hsteps.serves⟩, hspent⟩
    · rw [htake]
    · rw [takenUnder_bySupplier hsteps.own, supplierLog, List.map_append, takenUnder_append,
        List.map_singleton, takenUnder_cons, takenUnder_nil, add_zero, htake]
      rfl

theorem drawSuppliers_steps (keys : List String) (supplierIds : List String) (s : SupplierLoop) :
    (∃ draws, SupplierSteps s (drawSuppliers casefold store keys supplierIds s) draws) ∧
      ∀ supplierId ∈ supplierIds, ∀ o ∈ offeringsOf store supplierId,
        o.fits casefold keys = true → o.nomKey casefold ≠ "" →
        Spent (drawSuppliers casefold store keys supplierIds s).remainingSupplier
          (drawSuppliers casefold store keys supplierIds s).left
          (supplierId, o.nomKey casefold) := by
  induction supplierIds generalizing s with
  | nil => exact ⟨⟨[], .refl _⟩, fun _ h => by cases h⟩
  | cons supplierId rest ih =>
    unfold drawSuppliers
    split
    · next hleft => exact ⟨⟨[], .refl _⟩, fun _ _ _ _ _ _ => .inl hleft⟩
    · obtain ⟨⟨draws, hstep⟩, hspent⟩ := @drawSupplier_steps casefold store keys s supplierId
      obtain ⟨⟨draws', hsteps⟩, hrest⟩ := ih (drawSupplier casefold store keys s supplierId)
      refine ⟨⟨_, hstep.trans hsteps⟩, fun id hid o ho hfits hkey => ?_⟩
      rcases List.mem_cons.mp hid with rfl | hid
      · exact hsteps.serves.spent (hspent o ho hfits hkey)
      · exact hrest id hid o ho hfits hkey

/-- What serving a demand does to the bank, and what its line says of it; `left` is what stays
uncovered. -/
structure LineServed (casefold : String → String) (store : MaterialBankStore)
    (remaining : Remaining) (demand : Demand) (line : LineResult) (remaining' : Remaining)
    (mid left : ℚ) : Prop where
  stock : Serves remaining.stock demand.quantity (stockLog line.warehouseParts) remaining'.stock mid
  supplier : Serves remaining.supplier mid line.supplierDraws remaining'.supplier left
  fromWarehouse : line.fromWarehouse = takenInAll (stockLog line.warehouseParts)
  fromSupplier : line.fromSupplier = takenInAll line.supplierDraws
  parts : ∀ supplierId, takenUnder supplierId (supplierLog line.supplierParts) =
    takenUnder supplierId (bySupplier line.supplierDraws)
  spentStock : ∀ key ∈ demand.keys casefold, ∀ stockId ∈ (stockByNom casefold store).getD key [],
    Spent remaining'.stock left stockId
  spentSupplier : ∀ key ∈ demand.keys casefold,
    ∀ supplierId ∈ (supplierByNom casefold store).getD key [],
    ∀ o ∈ offeringsOf store supplierId, o.fits casefold (demand.keys casefold) = true →
      o.nomKey casefold ≠ "" → Spent remaining'.supplier left (supplierId, o.nomKey casefold)

theorem allocateLine_served (casefold : String → String) (store : MaterialBankStore)
    (remaining : Remaining) (demand : Demand) :
    ∃ mid left, LineServed casefold store remaining demand
      (allocateLine casefold store remaining demand).1
      (allocateLine casefold store remaining demand).2 mid left := by
  have hinit := StockInv.init remaining.stock demand.quantity
  have hstock := @StockInv.drawAll store _ _ (stockByNom casefold store)
    (demand.keys casefold) _ hinit
  have hseen := @StockInv.spent_drawAll store _ _ (stockByNom casefold store)
    (demand.keys casefold) _ hinit
  unfold allocateLine
  simp only
  generalize drawStock store (stockByNom casefold store) (demand.keys casefold)
    ⟨remaining.stock, demand.quantity, 0, [], []⟩ = w at *
  obtain ⟨⟨draws, hsteps⟩, hspent⟩ := @drawSuppliers_steps casefold store (demand.keys casefold)
    (supplierCandidates (supplierByNom casefold store) (demand.keys casefold))
    ⟨remaining.supplier, w.left, 0, [], []⟩
  generalize drawSuppliers casefold store (demand.keys casefold)
    (supplierCandidates (supplierByNom casefold store) (demand.keys casefold))
    ⟨remaining.supplier, w.left, 0, [], []⟩ = s at *
  have hdraws := hsteps.appended
  rw [List.nil_append] at hdraws
  subst hdraws
  refine ⟨w.left, s.left, hstock.serves, hsteps.serves, hstock.total, ?_, fun supplierId => ?_,
    fun key hkey stockId hid => ?_, fun key hkey supplierId hid => ?_⟩
  · rw [hsteps.total, zero_add]
  · rw [hsteps.parts, supplierLog, List.map_nil, takenUnder_nil, zero_add]
  · -- a row stays spent while the suppliers are asked
    rcases hseen hkey hid with hleft | hon
    · exact .inl (le_trans hsteps.serves.left_le hleft)
    · exact .inr hon
  · apply hspent
    exact List.mem_eraseDups.mpr (List.mem_flatMap.mpr ⟨key, hkey, hid⟩)

/-- What stays uncovered is what is needed and not covered. -/
theorem LineServed.balance {remaining remaining' : Remaining} {demand : Demand} {line : LineResult}
    {mid left : ℚ} (h : LineServed casefold store remaining demand line remaining' mid left) :
    left + (line.fromWarehouse + line.fromSupplier) = demand.quantity := by
  rw [h.fromWarehouse, h.fromSupplier, add_comm (takenInAll (stockLog _)), ← add_assoc,
    h.supplier.balance, h.stock.balance]

/-- The lines of a list of demands, one after another. -/
theorem allocateLines_append (remaining : Remaining) (demands demands' : List Demand) :
    allocateLines casefold store remaining (demands ++ demands') =
      ((allocateLines casefold store remaining demands).1 ++
          (allocateLines casefold store (allocateLines casefold store remaining demands).2
            demands').1,
        (allocateLines casefold store (allocateLines casefold store remaining demands).2
          demands').2) := by
  induction demands generalizing remaining with
  | nil => rfl
  | cons demand rest ih =>
    rw [List.cons_append]
    simp only [allocateLines, ih, List.cons_append]

/-- A run serves a demand after those before it in the deadline order, whatever comes later. -/
theorem allocateMaterials_split {fromIsoFormat : String → Option DateTime} {cases : List Case}
    {earlier later : List Demand} {demand : Demand}
    (h : sortedDemands fromIsoFormat cases = earlier ++ demand :: later) :
    ∃ rest, allocateMaterialsByDeadline casefold fromIsoFormat store cases =
      (allocateLines casefold store (initialRemaining casefold store) earlier).1 ++
        (allocateLine casefold store
          (allocateLines casefold store (initialRemaining casefold store) earlier).2
          demand).1 :: rest := by
  rw [allocateMaterialsByDeadline, h, allocateLines_append]
  exact ⟨_, rfl⟩

@[simp] theorem length_allocateLines (remaining : Remaining) (demands : List Demand) :
    (allocateLines casefold store remaining demands).1.length = demands.length := by
  induction demands generalizing remaining with
  | nil => rfl
  | cons demand rest ih => simp only [allocateLines, List.length_cons, ih]

/-- Every line comes from serving one of the demands. -/
theorem mem_allocateLines {remaining : Remaining} {demands : List Demand} {line : LineResult}
    (h : line ∈ (allocateLines casefold store remaining demands).1) :
    ∃ demand ∈ demands, ∃ before, line = (allocateLine casefold store before demand).1 := by
  induction demands generalizing remaining with
  | nil => cases h
  | cons demand rest ih =>
    rcases List.mem_cons.mp h with rfl | h
    · exact ⟨demand, .head _, remaining, rfl⟩
    · obtain ⟨found, hmem, before, rfl⟩ := ih h
      exact ⟨found, .tail _ hmem, before, rfl⟩

/-- A whole run is a run of draws, in the stock and in the offerings. -/
theorem allocateLines_draws (casefold : String → String) (store : MaterialBankStore)
    (demands : List Demand) (remaining : Remaining) :
    Draws remaining.stock
        ((allocateLines casefold store remaining demands).1.flatMap fun line =>
          stockLog line.warehouseParts)
        (allocateLines casefold store remaining demands).2.stock ∧
      Draws remaining.supplier
        ((allocateLines casefold store remaining demands).1.flatMap LineResult.supplierDraws)
        (allocateLines casefold store remaining demands).2.supplier := by
  induction demands generalizing remaining with
  | nil => exact ⟨.nil _, .nil _⟩
  | cons demand rest ih =>
    obtain ⟨mid, left, hline⟩ := allocateLine_served casefold store remaining demand
    obtain ⟨hstock, hsupplier⟩ := ih (allocateLine casefold store remaining demand).2
    simp only [allocateLines, List.flatMap_cons]
    exact ⟨hline.stock.draws.append hstock, hline.supplier.draws.append hsupplier⟩

/-- No demand line asks for nothing. -/
theorem quantity_pos {cases : List Case} {demand : Demand} (h : demand ∈ demandsFromCases cases) :
    0 < demand.quantity := by
  obtain ⟨case, _, hcase⟩ := List.mem_flatMap.mp h
  obtain ⟨position, _, hposition⟩ := List.mem_filterMap.mp hcase
  unfold demandOf at hposition
  split at hposition
  · cases hposition
  · split at hposition
    · cases hposition
    · next hpos =>
      cases hposition
      exact not_le.mp hpos

end AgentBack.Procurement
