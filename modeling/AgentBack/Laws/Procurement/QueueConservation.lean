import AgentBack.Laws.Procurement.Lines
import AgentBack.Laws.Procurement.Queue

/-!
# The queue gives what the suppliers have

Over all waves the quantities assigned to a supplier for a nomenclature sum to at most what the bank
has of it there, when the id of the supplier is its own stripped form. `_apply_remaining_qty` looks
the residual up under the stripped id and `_consume_pick` lowers it under the id as it stands, so
that the residual of a padded id is never lowered.
-/

namespace AgentBack.Procurement

open Text (strip)

variable {host : Host} {store : MaterialBankStore}

def bankQuantity (casefold : String → String) (store : MaterialBankStore)
    (supplierId nomKey : String) : ℚ :=
  (((seedRows casefold store).filter fun row => row.1 = (supplierId, nomKey)).map fun row =>
    max 0 row.2.available).sum

/-- The parts of a line as quantities under the supplier and the nomenclature. -/
def assignedLog (casefold : String → String) (line : QueueLine) : List ((String × String) × ℚ) :=
  line.supplierParts.map fun part => ((part.supplierId, line.nomKey casefold), part.quantity)

theorem mem_assignedLog {casefold : String → String} {line : QueueLine}
    {d : (String × String) × ℚ} : d ∈ assignedLog casefold line ↔
      ∃ part ∈ line.supplierParts, ((part.supplierId, line.nomKey casefold), part.quantity) = d :=
  List.mem_map

theorem bankQuantity_nonneg (casefold : String → String) (supplierId nomKey : String) :
    0 ≤ bankQuantity casefold store supplierId nomKey := by
  apply List.sum_nonneg
  intro q hq
  obtain ⟨row, _, rfl⟩ := List.mem_map.mp hq
  exact le_max_left _ _

/-- The residual starts at no more than the bank has. -/
theorem seed_le_bankQuantity {casefold : String → String} {supplierId nomKey : String} {v : ℚ}
    (h : (seedSupplier casefold store).get? (supplierId, nomKey) = some v) :
    max 0 v ≤ bankQuantity casefold store supplierId nomKey := by
  rw [seedSupplier, Dict.get?_ofList_map, Option.map_eq_some_iff] at h
  obtain ⟨offering, hget, rfl⟩ := h
  have hmem := Dict.mem_of_get?_ofList hget
  refine List.single_le_sum (fun q hq => ?_) _ (List.mem_map.mpr ⟨_, List.mem_filter.mpr ⟨hmem,
    decide_eq_true rfl⟩, rfl⟩)
  obtain ⟨row, _, rfl⟩ := List.mem_map.mp hq
  exact le_max_left _ _

/-- Every offer that a line finds in the bank was seeded. -/
theorem seeded_of_collected {casefold : String → String} {nom : String} {offer : Offer}
    (h : offer ∈ collectSupplierOffers casefold store nom) :
    ((seedSupplier casefold store).get?
      (offer.supplierId, Text.normalize casefold nom)).isSome := by
  obtain ⟨hkey, supplier, hsupplier, offering, hoffering, hnom, hid, -⟩ :=
    mem_collectSupplierOffers h
  refine Dict.isSome_get?_ofList ?_
  rw [List.map_map]
  refine List.mem_map.mpr ⟨((text supplier.supplierId, offering.nomKey casefold), offering), ?_, ?_⟩
  · refine List.mem_flatMap.mpr ⟨supplier, hsupplier, List.mem_map.mpr ⟨offering, ?_, rfl⟩⟩
    exact List.mem_filter.mpr ⟨hoffering, decide_eq_true (by rw [hnom]; exact hkey)⟩
  · simp only [Function.comp_apply, hnom, hid]

/-- What a line takes under a stripped id that is known is what the residual loses. -/
theorem LinePick.conserves {nomKey : String} {remainder : ℚ} {topN : Int}
    {remaining found remaining' : Dict (String × String) ℚ} {collected offers : List Offer}
    {parts : List QueuePart} (happlied : Applied nomKey remaining collected (found, offers))
    (h : LinePick nomKey remainder topN found offers parts remaining') {key : String × String}
    (hclean : strip key.1 = key.1) (hknown : (remaining.get? key).isSome) :
    (remaining'.get? key).isSome ∧
      max 0 (onHand remaining' key) +
          takenUnder key (parts.map fun part => ((part.supplierId, nomKey), part.quantity)) =
        max 0 (onHand remaining key) := by
  obtain ⟨v, hv⟩ := Option.isSome_iff_exists.mp hknown
  have hfound := happlied.known key v hv
  have hsame : onHand remaining key = v := by rw [onHand, Dict.getD, hv, Option.getD_some]
  cases h with
  | nothing idle =>
    have hsame' : onHand found key = v := by rw [onHand, Dict.getD, hfound, Option.getD_some]
    refine ⟨Option.isSome_iff_exists.mpr ⟨v, hfound⟩, ?_⟩
    rw [hsame, hsame', List.map_nil, takenUnder_nil, add_zero]
  | part part offer left mem available own positive within =>
    obtain ⟨o, _, left', rfl, _, _, hget⟩ := happlied.cut_of_mem mem
    obtain rfl : left' = left := Option.some.inj (Offer.available_cutTo o left' ▸ available)
    rw [List.map_singleton, takenUnder_cons, takenUnder_nil, add_zero, hsame, consumePick]
    by_cases hkey : (part.supplierId, nomKey) = key
    · -- the id is stripped, so the look-up and the decrement meet
      subst hkey
      have hid : strip o.supplierId = part.supplierId := by
        have hown : part.supplierId = o.supplierId := own
        rw [← hown]
        exact hclean
      rw [hid] at hget
      obtain rfl : left' = v := Option.some.inj (hget.symm.trans hfound)
      have hleft : found.getD (part.supplierId, nomKey) 0 = left' := by
        rw [Dict.getD, hfound, Option.getD_some]
      have hrest : (if left' - part.quantity > 0 then left' - part.quantity else 0) =
          left' - part.quantity := by
        split
        · rfl
        · next hnone => exact le_antisymm (sub_nonneg.mpr within) (not_lt.mp hnone)
      refine ⟨by rw [Dict.get?_set_self]; rfl, ?_⟩
      rw [if_pos rfl, onHand_set, if_pos rfl, hleft, hrest,
        max_eq_right (sub_nonneg.mpr within), sub_add_cancel,
        max_eq_right (le_trans (le_of_lt positive) within)]
    · refine ⟨by rw [Dict.get?_set_ne _ hkey, hfound]; rfl, ?_⟩
      rw [if_neg hkey, add_zero, onHand_set, if_neg hkey, onHand, Dict.getD, hfound,
        Option.getD_some]

section Line

variable {plan : WavePlan} {waveMode : Option WaveMode} {topN : Int}

theorem nomKey_optimizeLine (s : QueueState) (line : LineResult) :
    (optimizeLine host store plan waveMode topN s line).1.nomKey host.casefold =
      host.casefold (strip line.nomenclatureId) := rfl

/-- Whatever a line is assigned was offered by the bank under its nomenclature. -/
theorem optimizeLine_seeded {s : QueueState} {line : LineResult} {d : (String × String) × ℚ}
    (hd : d ∈ assignedLog host.casefold (optimizeLine host store plan waveMode topN s line).1) :
    ((seedSupplier host.casefold store).get? d.1).isSome := by
  obtain ⟨found, happlied, hpick⟩ := @optimizeLine_pick host store plan waveMode topN s line
  obtain ⟨part, hpart, rfl⟩ := mem_assignedLog.mp hd
  obtain ⟨offer, hoffer, hown⟩ := hpick.own part hpart
  obtain ⟨collected, hcollected, left, rfl, -⟩ := happlied.cut_of_mem hoffer
  split at hcollected
  · cases hcollected
  · have hseeded := seeded_of_collected hcollected
    rw [Text.normalize_strip, Text.normalize] at hseeded
    rw [nomKey_optimizeLine, hown]
    exact hseeded

/-- A line lowers the residual under a stripped id by what it takes there. -/
theorem optimizeLine_conserves (s : QueueState) (line : LineResult) {key : String × String}
    (hclean : strip key.1 = key.1) (hknown : (s.remainingSupplier.get? key).isSome) :
    ((optimizeLine host store plan waveMode topN s line).2.remainingSupplier.get? key).isSome ∧
      max 0 (onHand (optimizeLine host store plan waveMode topN s line).2.remainingSupplier key) +
          takenUnder key
            (assignedLog host.casefold (optimizeLine host store plan waveMode topN s line).1) =
        max 0 (onHand s.remainingSupplier key) := by
  obtain ⟨found, happlied, hpick⟩ := @optimizeLine_pick host store plan waveMode topN s line
  exact hpick.conserves happlied hclean hknown

theorem mem_optimizeLines {s : QueueState} {lines : List LineResult} {line : QueueLine}
    (h : line ∈ (optimizeLines host store plan waveMode topN s lines).1) :
    ∃ line₀ ∈ lines, ∃ before,
      line = (optimizeLine host store plan waveMode topN before line₀).1 := by
  induction lines generalizing s with
  | nil => cases h
  | cons line₀ rest ih =>
    rcases List.mem_cons.mp h with rfl | h
    · exact ⟨line₀, .head _, s, rfl⟩
    · obtain ⟨found, hmem, before, rfl⟩ := ih h
      exact ⟨found, .tail _ hmem, before, rfl⟩

theorem optimizeLines_conserves (lines : List LineResult) (s : QueueState) {key : String × String}
    (hclean : strip key.1 = key.1) (hknown : (s.remainingSupplier.get? key).isSome) :
    max 0 (onHand (optimizeLines host store plan waveMode topN s lines).2.remainingSupplier key) +
        takenUnder key ((optimizeLines host store plan waveMode topN s lines).1.flatMap
          (assignedLog host.casefold)) =
      max 0 (onHand s.remainingSupplier key) := by
  induction lines generalizing s with
  | nil => exact add_zero _
  | cons line rest ih =>
    obtain ⟨hknown', hline⟩ := @optimizeLine_conserves host store plan waveMode topN s line key
      hclean hknown
    have hrest := ih (optimizeLine host store plan waveMode topN s line).2 hknown'
    rw [optimizeLines]
    simp only [List.flatMap_cons]
    rw [takenUnder_append, ← hline, ← hrest]
    ring

end Line

/-- Over a whole run nothing more is taken under a stripped supplier id than the bank has. -/
theorem optimizeQueue_taken_le (cases : List Case) (waveMode : Option WaveMode) (topN : Int)
    {supplierId : String} (hclean : strip supplierId = supplierId) (nomKey : String) :
    takenUnder (supplierId, nomKey)
        ((optimizeQueueCoverage host store cases waveMode topN).lines.flatMap
          (assignedLog host.casefold)) ≤
      bankQuantity host.casefold store supplierId nomKey := by
  unfold optimizeQueueCoverage
  simp only
  cases hseed : (seedSupplier host.casefold store).get? (supplierId, nomKey) with
  | none =>
    -- nothing was offered under the key, so nothing is taken under it
    rw [takenUnder_eq_zero]
    · exact bankQuantity_nonneg _ _ _
    · intro d hd he
      obtain ⟨line, hline, hd⟩ := List.mem_flatMap.mp hd
      obtain ⟨line₀, -, before, rfl⟩ := mem_optimizeLines hline
      have hseeded := optimizeLine_seeded hd
      rw [he, hseed] at hseeded
      cases hseeded
  | some v =>
    have hrun := @optimizeLines_conserves host store (bucketUrgencyWaves host cases) waveMode topN
      (sortBy (lineOrder host (bucketUrgencyWaves host cases))
        (allocateMaterialsByDeadline host.casefold host.fromIsoFormat store cases))
      ⟨seedSupplier host.casefold store, ∅⟩ (supplierId, nomKey) hclean
      (Option.isSome_iff_exists.mpr ⟨v, hseed⟩)
    have hstart : onHand (seedSupplier host.casefold store) (supplierId, nomKey) = v := by
      rw [onHand, Dict.getD, hseed, Option.getD_some]
    simp only [hstart] at hrun
    refine le_trans (le_of_add_le_of_nonneg_right (le_of_eq hrun) (le_max_left _ _)) ?_
    exact seed_le_bankQuantity hseed

/-- The warehouse gives a line no more than it needs. -/
theorem fromWarehouse_le {casefold : String → String} {fromIsoFormat : String → Option DateTime}
    {cases : List Case} {line : LineResult}
    (h : line ∈ allocateMaterialsByDeadline casefold fromIsoFormat store cases) :
    line.fromWarehouse ≤ line.neededQuantity := by
  obtain ⟨demand, hdemand, before, rfl⟩ := mem_allocateLines h
  obtain ⟨mid, left, hserved⟩ := allocateLine_served casefold store before demand
  have hpos := quantity_pos (mem_sortBy.mp hdemand)
  have hmid : 0 ≤ mid := hserved.stock.nonneg (le_of_lt hpos)
  have hbalance := hserved.stock.balance
  rw [hserved.fromWarehouse]
  calc takenInAll (stockLog (allocateLine casefold store before demand).1.warehouseParts)
      ≤ mid + takenInAll (stockLog (allocateLine casefold store before demand).1.warehouseParts) :=
        le_add_of_nonneg_left hmid
    _ = demand.quantity := hbalance

theorem optimizeQueue_line_le {cases : List Case} {waveMode : Option WaveMode} {topN : Int}
    {line : QueueLine} (h : line ∈ (optimizeQueueCoverage host store cases waveMode topN).lines) :
    line.fromWarehouse + line.assigned ≤ line.neededQuantity := by
  obtain ⟨line₀, hline₀, before, rfl⟩ := mem_optimizeLines h
  have hle := fromWarehouse_le (mem_sortBy.mp hline₀)
  have hrest : line₀.supplierRemainder = line₀.neededQuantity - line₀.fromWarehouse := by
    rw [LineResult.supplierRemainder, if_neg (not_lt.mpr (sub_nonneg.mpr hle))]
  obtain ⟨found, -, hpick⟩ := @optimizeLine_pick host store (bucketUrgencyWaves host cases)
    waveMode topN before line₀
  have hassigned := hpick.assigned_le (hrest ▸ sub_nonneg.mpr hle)
  rw [hrest] at hassigned
  exact le_sub_iff_add_le'.mp hassigned

end AgentBack.Procurement
