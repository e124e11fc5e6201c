import AgentBack.Laws.Procurement.Conservation
import AgentBack.Laws.Procurement.QueueConservation

/-!
# Supplier ids with blanks around them

For which supplier ids every bank and every queue keep the quantities: those without surrounding
blanks, whose residual is looked up and lowered under one key, and those that are nothing but blanks,
which are never picked. For any other id two cases for five bolts each take ten bolts of the five
that the supplier has.
-/

namespace AgentBack.Procurement

open Text (strip)

variable {host : Host} {store : MaterialBankStore}

/-- A supplier whose id is nothing but blanks is never picked. -/
theorem optimizeLine_sid_ne_blank {plan : WavePlan} {waveMode : Option WaveMode} {topN : Int}
    {s : QueueState} {line : LineResult} {d : (String × String) × ℚ}
    (hd : d ∈ assignedLog host.casefold (optimizeLine host store plan waveMode topN s line).1) :
    strip d.1.1 ≠ "" := by
  obtain ⟨found, happlied, hpick⟩ := @optimizeLine_pick host store plan waveMode topN s line
  obtain ⟨part, hpart, rfl⟩ := mem_assignedLog.mp hd
  obtain ⟨offer, hoffer, hown⟩ := hpick.own part hpart
  obtain ⟨collected, -, left, rfl, -, hsid, -⟩ := happlied.cut_of_mem hoffer
  rw [hown]
  exact hsid

/-! ## Two cases for the same bolts -/

def boltSupplier (supplierId : String) : MaterialBankStore where
  warehouses := []
  stockLines := []
  suppliers := [supplierOfBolts supplierId]

def boltQueue : List Case := [boltCase "a" 5 10, boltCase "b" 5 10]

theorem drawStock_of_none {byNom : Dict String (List String)} (h : ∀ key, byNom.getD key [] = [])
    (keys : List String) (s : StockLoop) : drawStock store byNom keys s = s := by
  induction keys with
  | nil => rfl
  | cons key rest ih =>
    simp only [drawStock, h, drawStockRows, ih, ite_self]

/-- Without a stock row the warehouse gives nothing. -/
theorem fromWarehouse_eq_zero {casefold : String → String} (hstock : store.stockLines = [])
    (remaining : Remaining) (demand : Demand) :
    (allocateLine casefold store remaining demand).1.fromWarehouse = 0 := by
  have hnone : ∀ key, (stockByNom casefold store).getD key [] = [] := by
    intro key
    have hmeta : stockMeta store = ∅ := by
      simp only [stockMeta, stockRows, hstock, List.filter_nil, List.map_nil]
      rfl
    simp only [stockByNom, hmeta, Dict.getD, Dict.get?_mapItems]
    rfl
  unfold allocateLine
  simp only [drawStock_of_none hnone]

variable {supplierId : String}

theorem active_boltSupplier (hsid : supplierId ≠ "") :
    (boltSupplier supplierId).activeSuppliers = (boltSupplier supplierId).suppliers := by
  simp [MaterialBankStore.activeSuppliers, boltSupplier, supplierOfBolts, text, hsid]

theorem seedRows_boltSupplier (hsid : supplierId ≠ "") :
    seedRows id (boltSupplier supplierId) = [((supplierId, "bolt"), fiveBolts)] := by
  have hnom : fiveBolts.nomKey id = "bolt" := by decide +kernel
  rw [seedRows, active_boltSupplier hsid]
  simp [boltSupplier, supplierOfBolts, hnom, text]

theorem collect_boltSupplier (hsid : supplierId ≠ "") :
    ∃ offer, collectSupplierOffers id (boltSupplier supplierId) "bolt" = [offer] ∧
      offer.supplierId = supplierId ∧ offer.available = some 5 ∧ offer.Plain ∧ offer.Usable := by
  have hkey : Text.normalize id "bolt" = "bolt" := by decide +kernel
  refine ⟨_, by
    rw [collectSupplierOffers, active_boltSupplier hsid, hkey]
    rfl, rfl, rfl, ⟨rfl, rfl⟩, ⟨1, rfl, zero_le_one⟩, ⟨5, rfl, by norm_num⟩⟩

structure FiveBolts (line : LineResult) : Prop where
  nomenclatureId : line.nomenclatureId = "bolt"
  remainder : line.supplierRemainder = 5

theorem fiveBolts_of_allocated {line : LineResult}
    (h : line ∈ allocateMaterialsByDeadline id (fun _ => none) (boltSupplier supplierId) boltQueue) :
    FiveBolts line := by
  obtain ⟨demand, hdemand, before, rfl⟩ := mem_allocateLines h
  have hbolt : demand = boltDemand "a" 5 10 ∨ demand = boltDemand "b" 5 10 := by
    have hdemands : demandsFromCases boltQueue = [boltDemand "a" 5 10, boltDemand "b" 5 10] := by
      decide +kernel
    have hmem := mem_sortBy.mp hdemand
    rw [hdemands] at hmem
    simpa using hmem
  have hzero := @fromWarehouse_eq_zero (boltSupplier supplierId) id rfl before demand
  have hneeded : (allocateLine id (boltSupplier supplierId) before demand).1.neededQuantity =
      demand.quantity := rfl
  have hnom : (allocateLine id (boltSupplier supplierId) before demand).1.nomenclatureId =
      demand.nomenclatureId := rfl
  rcases hbolt with rfl | rfl <;>
  · refine ⟨hnom, ?_⟩
    rw [LineResult.supplierRemainder, hneeded, hzero]
    norm_num [boltDemand]

section

variable (hpad : strip supplierId ≠ supplierId) (hsid : strip supplierId ≠ "")
include hpad hsid

/-- Under a padded id a line takes all five bolts, and the residual that the next line looks up is
what it was. -/
theorem optimizeLine_padded (plan : WavePlan) {s : QueueState}
    (hs : ∀ v, s.remainingSupplier.get? (strip supplierId, "bolt") = some v → v = 5)
    {line : LineResult} (hline : FiveBolts line) :
    takenUnder (supplierId, "bolt") (assignedLog id
        (optimizeLine plainHost (boltSupplier supplierId) plan none 3 s line).1) = 5 ∧
      ∀ v, (optimizeLine plainHost (boltSupplier supplierId) plan none 3 s
        line).2.remainingSupplier.get? (strip supplierId, "bolt") = some v → v = 5 := by
  have hne : supplierId ≠ "" := fun he => hsid (by rw [he]; rfl)
  obtain ⟨offer, hcollect, hid, havailable, hplain, husable⟩ := collect_boltSupplier hne
  have hbolt : strip "bolt" = "bolt" := by decide +kernel
  obtain ⟨found, happlied, hpick⟩ := @optimizeLine_pick plainHost (boltSupplier supplierId) plan
    none 3 s line
  have hkey : (optimizeLine plainHost (boltSupplier supplierId) plan none 3 s line).1.nomKey id =
      "bolt" := by
    rw [show (id : String → String) = plainHost.casefold from rfl, nomKey_optimizeLine,
      hline.nomenclatureId, hbolt]
    rfl
  rw [hline.nomenclatureId, hbolt, if_neg (by decide +kernel),
    show plainHost.casefold = id from rfl, hcollect, id] at happlied
  rw [hline.nomenclatureId, hbolt, hline.remainder, show plainHost.casefold = id from rfl, id]
    at hpick
  rw [assignedLog, hkey]
  generalize (optimizeLine plainHost (boltSupplier supplierId) plan none 3 s line).1.offers = offers
    at happlied hpick
  generalize (optimizeLine plainHost (boltSupplier supplierId) plan none 3
    s line).1.supplierParts = parts at hpick ⊢
  generalize (optimizeLine plainHost (boltSupplier supplierId) plan none 3
    s line).2.remainingSupplier = remaining' at hpick ⊢
  -- the residual that is looked up is five, known or seeded
  have hfive : ∀ v, found.get? (strip supplierId, "bolt") = some v → v = 5 := by
    intro v hv
    rcases happlied.seeded _ v hv with hknown | ⟨o, ho, -, rfl⟩
    · exact hs v hknown
    · rw [List.mem_singleton.mp ho, havailable, Option.getD_some]
  have hcut : ∀ o ∈ offers, o = offer.cutTo 5 := by
    intro o ho
    obtain ⟨o', ho', left, rfl, -, -, hget⟩ := happlied.cut_of_mem ho
    obtain rfl := List.mem_singleton.mp ho'
    rw [hid] at hget
    rw [hfive left hget]
  cases hpick with
  | nothing idle =>
    obtain ⟨left, hget, hmem⟩ := happlied.all offer (.head _) (by rw [hid]; exact hsid)
    rw [hid] at hget
    obtain rfl := hfive left hget
    refine absurd (idle (by decide) fun o ho => ?_) (not_or.mpr ⟨by norm_num, ?_⟩)
    · rw [hcut o ho]
      exact ⟨husable.priced, 5, rfl, by norm_num⟩
    · exact List.ne_nil_of_mem (hmem (by norm_num))
  | part part o left mem available own positive within needed plain =>
    obtain rfl := hcut o mem
    obtain rfl : (5 : ℚ) = left := Option.some.inj available
    have hquantity : part.quantity = 5 := by
      rw [plain ⟨hplain.lot, hplain.minOrder⟩, min_self]
    have hown : part.supplierId = supplierId := own.trans hid
    refine ⟨?_, fun v hv => hfive v ?_⟩
    · rw [List.map_singleton, takenUnder_cons, takenUnder_nil, add_zero, hown, if_pos rfl, hquantity]
    · have hother : (part.supplierId, "bolt") ≠ (strip supplierId, "bolt") := by
        rw [hown]
        exact fun he => hpad (Prod.mk.inj he).1.symm
      rw [consumePick] at hv
      rwa [Dict.get?_set_ne _ hother] at hv

theorem optimizeLines_padded (plan : WavePlan) (lines : List LineResult)
    (hlines : ∀ line ∈ lines, FiveBolts line) (s : QueueState)
    (hs : ∀ v, s.remainingSupplier.get? (strip supplierId, "bolt") = some v → v = 5) :
    takenUnder (supplierId, "bolt")
        ((optimizeLines plainHost (boltSupplier supplierId) plan none 3 s lines).1.flatMap
          (assignedLog id)) = 5 * lines.length := by
  induction lines generalizing s with
  | nil => simp [optimizeLines]
  | cons line rest ih =>
    obtain ⟨hline, hs'⟩ := optimizeLine_padded hpad hsid plan hs (hlines line (.head _))
    have hrest := ih (fun l hl => hlines l (.tail _ hl)) _ hs'
    rw [optimizeLines]
    simp only [List.flatMap_cons]
    rw [takenUnder_append, hline, hrest, List.length_cons, Nat.cast_succ]
    ring

/-- The two cases take ten bolts of the five. -/
theorem optimizeQueue_padded_exceeds :
    bankQuantity id (boltSupplier supplierId) supplierId "bolt" <
      takenUnder (supplierId, "bolt")
        ((optimizeQueueCoverage plainHost (boltSupplier supplierId) boltQueue none 3).lines.flatMap
          (assignedLog id)) := by
  have hne : supplierId ≠ "" := fun he => hsid (by rw [he]; rfl)
  have hrows := seedRows_boltSupplier hne
  have hbank : bankQuantity id (boltSupplier supplierId) supplierId "bolt" = 5 := by
    rw [bankQuantity, hrows]
    simp [fiveBolts, Offering.available]
  have hstart : ∀ v, (seedSupplier id (boltSupplier supplierId)).get? (strip supplierId, "bolt") =
      some v → v = 5 := by
    intro v hv
    rw [seedSupplier, hrows] at hv
    have hmem := Dict.mem_of_get?_ofList hv
    rw [List.map_singleton, List.mem_singleton] at hmem
    exact (Prod.mk.inj hmem).2
  have hlength : (allocateMaterialsByDeadline id (fun _ => none) (boltSupplier supplierId)
      boltQueue).length = 2 := by
    rw [allocateMaterialsByDeadline, length_allocateLines, sortedDemands,
      (perm_sortBy _ _).length_eq]
    rfl
  have hrun := optimizeLines_padded hpad hsid (bucketUrgencyWaves plainHost boltQueue)
    (sortBy (lineOrder plainHost (bucketUrgencyWaves plainHost boltQueue))
      (allocateMaterialsByDeadline id (fun _ => none) (boltSupplier supplierId) boltQueue))
    (fun line hline => fiveBolts_of_allocated (mem_sortBy.mp hline)) ⟨_, ∅⟩ hstart
  rw [(perm_sortBy _ _).length_eq, hlength] at hrun
  unfold optimizeQueueCoverage
  simp only
  rw [hbank]
  refine lt_of_lt_of_eq ?_ hrun.symm
  norm_num

end

/-- The quantities assigned to a supplier stay within the bank for every bank and every queue exactly
when its id has no blanks around it or is nothing but blanks. The warehouse and the supplier of a
line never give more than it needs. -/
theorem optimizeQueue_conserves_iff (supplierId : String) :
    ((∀ (host : Host) (store : MaterialBankStore) (cases : List Case) (waveMode : Option WaveMode)
        (topN : Int) (nomKey : String),
        takenUnder (supplierId, nomKey)
            ((optimizeQueueCoverage host store cases waveMode topN).lines.flatMap
              (assignedLog host.casefold)) ≤
          bankQuantity host.casefold store supplierId nomKey) ↔
      strip supplierId = supplierId ∨ strip supplierId = "") ∧
    ∀ (host : Host) (store : MaterialBankStore) (cases : List Case) (waveMode : Option WaveMode)
      (topN : Int), ∀ line ∈ (optimizeQueueCoverage host store cases waveMode topN).lines,
      line.fromWarehouse + line.assigned ≤ line.neededQuantity := by
  refine ⟨⟨fun h => ?_, fun h host store cases waveMode topN nomKey => ?_⟩,
    fun host store cases waveMode topN line hline => optimizeQueue_line_le hline⟩
  · by_contra hnot
    obtain ⟨hpad, hsid⟩ := not_or.mp hnot
    have hle := h plainHost (boltSupplier supplierId) boltQueue none 3 "bolt"
    exact absurd hle (not_le.mpr (optimizeQueue_padded_exceeds hpad hsid))
  · rcases h with hclean | hblank
    · exact optimizeQueue_taken_le cases waveMode topN hclean nomKey
    · rw [takenUnder_eq_zero]
      · exact bankQuantity_nonneg _ _ _
      · intro d hd he
        obtain ⟨line, hline, hd⟩ := List.mem_flatMap.mp hd
        obtain ⟨line₀, -, before, rfl⟩ := mem_optimizeLines hline
        exact optimizeLine_sid_ne_blank hd (by rw [he]; exact hblank)

/-- The supplier " P1" has five bolts and is assigned ten. -/
theorem optimizeQueue_exceeds_padded_bolts :
    bankQuantity id (boltSupplier " P1") " P1" "bolt" <
      takenUnder (" P1", "bolt")
        ((optimizeQueueCoverage plainHost (boltSupplier " P1") boltQueue none 3).lines.flatMap
          (assignedLog id)) :=
  optimizeQueue_padded_exceeds (by decide +kernel) (by decide +kernel)

end AgentBack.Procurement
