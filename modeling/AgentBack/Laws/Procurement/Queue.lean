import AgentBack.Base.Draw
import AgentBack.Laws.Procurement.Ranking
import AgentBack.Procurement.QueueCoverage

/-!
# One line of the queue

What `_apply_remaining_qty` hands to the ranking (`Applied`): every offer cut to the residual under
its stripped supplier id. A line then takes from the supplier it picks no more than that offer has,
and no more than the warehouse leaves to cover (`LinePick`).
-/

namespace AgentBack.Procurement

open Text (strip)

def Offer.cutTo (offer : Offer) (left : ℚ) : Offer :=
  { offer with availableQty := some left, availableQuantity := some left }

theorem Offer.available_cutTo (offer : Offer) (left : ℚ) :
    (offer.cutTo left).available = some left := rfl

/-- The residual and the cut offers after some offers have been seen. -/
structure Applied (nomKey : String) (remaining : Dict (String × String) ℚ) (offers : List Offer)
    (s : Dict (String × String) ℚ × List Offer) : Prop where
  known : ∀ k v, remaining.get? k = some v → s.1.get? k = some v
  cut : ∀ o ∈ s.2, ∃ offer ∈ offers, ∃ left, o = offer.cutTo left ∧ 0 < left ∧
    strip offer.supplierId ≠ "" ∧ s.1.get? (strip offer.supplierId, nomKey) = some left
  all : ∀ offer ∈ offers, strip offer.supplierId ≠ "" → ∃ left,
    s.1.get? (strip offer.supplierId, nomKey) = some left ∧
      (0 < left → offer.cutTo left ∈ s.2)
  seeded : ∀ k v, s.1.get? k = some v → remaining.get? k = some v ∨
    ∃ offer ∈ offers, k = (strip offer.supplierId, nomKey) ∧ v = offer.available.getD 0

variable {nomKey : String} {offers : List Offer} {topN : Int}

/-- The cut offers apart from the residual, so that nothing of them is unfolded. -/
theorem Applied.cut_of_mem {remaining found : Dict (String × String) ℚ}
    {collected : List Offer} (h : Applied nomKey remaining collected (found, offers))
    {o : Offer} (ho : o ∈ offers) :
    ∃ offer ∈ collected, ∃ left, o = offer.cutTo left ∧ 0 < left ∧
      strip offer.supplierId ≠ "" ∧ found.get? (strip offer.supplierId, nomKey) = some left :=
  h.cut o ho

/-- Seeing one offer more keeps what is known and adds the cut of that offer. -/
theorem Applied.step {remaining : Dict (String × String) ℚ} {s : Dict (String × String) ℚ × List Offer}
    (h : Applied nomKey remaining offers s) (offer : Offer) :
    Applied nomKey remaining (offers ++ [offer]) (applyRemaining nomKey s offer) := by
  unfold applyRemaining
  simp only
  split
  · next hblank =>
    refine ⟨h.known, fun o ho => ?_, fun o ho hsid => ?_, fun k v hk => ?_⟩
    · obtain ⟨offer', hoffer', hcut⟩ := h.cut o ho
      exact ⟨offer', List.mem_append_left _ hoffer', hcut⟩
    · rcases List.mem_append.mp ho with ho | ho
      · exact h.all o ho hsid
      · rw [List.mem_singleton.mp ho] at hsid
        exact absurd hblank hsid
    · refine (h.seeded k v hk).imp_right ?_
      rintro ⟨offer', hoffer', hkey⟩
      exact ⟨offer', List.mem_append_left _ hoffer', hkey⟩
  · next hsid =>
    generalize hkey : (strip offer.supplierId, nomKey) = key
    generalize hleft : (s.1.get? key).getD (offer.available.getD 0) = left
    -- the residual after the offer, whether its key was known or is seeded by it
    have hseed : ∃ seeded, (if (s.1.get? key).isSome then s.1 else s.1.set key left) = seeded ∧
        seeded.get? key = some left ∧ (∀ k v, s.1.get? k = some v → seeded.get? k = some v) ∧
        ∀ k v, seeded.get? k = some v → s.1.get? k = some v ∨
          k = key ∧ v = offer.available.getD 0 := by
      refine ⟨_, rfl, ?_⟩
      cases hget : s.1.get? key with
      | some v =>
        rw [hget] at hleft
        simp only [Option.isSome_some, if_true]
        exact ⟨hget.trans (congrArg some hleft), fun k v h => h, fun k v h => .inl h⟩
      | none =>
        simp only [Option.isSome_none, Bool.false_eq_true, if_false]
        refine ⟨Dict.get?_set_self _ _ _, fun k v hk => ?_, fun k v hk => ?_⟩
        · have hne : key ≠ k := fun he => by rw [← he, hget] at hk; cases hk
          rw [Dict.get?_set_ne _ hne, hk]
        · rw [Dict.get?_set] at hk
          split at hk
          · next he =>
            rw [hget, Option.getD_none] at hleft
            exact .inr ⟨he.symm, hleft ▸ (Option.some.inj hk).symm⟩
          · exact .inl hk
    obtain ⟨seeded, hseeded, hown, hkept, hnew⟩ := hseed
    rw [hseeded]
    have hcuts : ∀ o ∈ s.2, ∃ offer' ∈ offers ++ [offer], ∃ left', o = offer'.cutTo left' ∧
        0 < left' ∧ strip offer'.supplierId ≠ "" ∧
        seeded.get? (strip offer'.supplierId, nomKey) = some left' := by
      intro o ho
      obtain ⟨offer', hoffer', left', hcut, hpos, hne, hget⟩ := h.cut o ho
      exact ⟨offer', List.mem_append_left _ hoffer', left', hcut, hpos, hne, hkept _ _ hget⟩
    have hall : ∀ o ∈ offers, strip o.supplierId ≠ "" → ∃ left',
        seeded.get? (strip o.supplierId, nomKey) = some left' ∧
          (0 < left' → o.cutTo left' ∈ s.2) := by
      intro o ho hne
      obtain ⟨left', hget, hmem⟩ := h.all o ho hne
      exact ⟨left', hkept _ _ hget, hmem⟩
    have hseeds : ∀ k v, seeded.get? k = some v → remaining.get? k = some v ∨
        ∃ offer' ∈ offers ++ [offer], k = (strip offer'.supplierId, nomKey) ∧
          v = offer'.available.getD 0 := by
      intro k v hk
      rcases hnew k v hk with hk | hk
      · refine (h.seeded k v hk).imp_right ?_
        rintro ⟨offer', hoffer', hof⟩
        exact ⟨offer', List.mem_append_left _ hoffer', hof⟩
      · exact .inr ⟨offer, List.mem_append_right _ (.head _), hkey ▸ hk⟩
    split
    · next hnone =>
      refine ⟨fun k v hk => hkept k v (h.known k v hk), hcuts, fun o ho hne => ?_, hseeds⟩
      rcases List.mem_append.mp ho with ho | ho
      · exact hall o ho hne
      · rw [List.mem_singleton.mp ho, hkey]
        exact ⟨left, hown, fun hpos => absurd hpos (not_lt.mpr hnone)⟩
    · next hsome =>
      refine ⟨fun k v hk => hkept k v (h.known k v hk), fun o ho => ?_, fun o ho hne => ?_,
        hseeds⟩
      · rcases List.mem_append.mp ho with ho | ho
        · exact hcuts o ho
        · refine ⟨offer, List.mem_append_right _ (.head _), left,
            List.mem_singleton.mp ho, not_le.mp hsome, hsid, ?_⟩
          rw [hkey]
          exact hown
      · rcases List.mem_append.mp ho with ho | ho
        · obtain ⟨left', hget, hmem⟩ := hall o ho hne
          exact ⟨left', hget, fun hpos => List.mem_append_left _ (hmem hpos)⟩
        · rw [List.mem_singleton.mp ho, hkey]
          exact ⟨left, hown, fun _ => List.mem_append_right _ (.head _)⟩

theorem applyRemainingQty_applied (nomKey : String) (remaining : Dict (String × String) ℚ)
    (offers : List Offer) :
    Applied nomKey remaining offers (applyRemainingQty remaining nomKey offers) := by
  have hrun : ∀ (later seen : List Offer) (s : Dict (String × String) ℚ × List Offer),
      Applied nomKey remaining seen s →
      Applied nomKey remaining (seen ++ later) (later.foldl (applyRemaining nomKey) s) := by
    intro later
    induction later with
    | nil =>
      intro seen s h
      rw [List.append_nil]
      exact h
    | cons offer rest ih =>
      intro seen s h
      have hnext := ih (seen ++ [offer]) _ (h.step offer)
      rw [List.append_assoc, List.singleton_append] at hnext
      exact hnext
  refine hrun offers [] (remaining, [])
    ⟨fun k v h => h, fun o ho => ?_, fun o ho => ?_, fun k v h => .inl h⟩
  · cases ho
  · cases ho

/-! ## The pick of a line -/

variable {host : Host} {store : MaterialBankStore}

theorem mem_rankForWaveMode {need : ℚ} {required : RequiredDate}
    {mode : WaveMode} {row : RankedOffer}
    (h : row ∈ rankForWaveMode host need offers required mode topN) :
    ∃ offer ∈ offers, Ranks need offer row := by
  unfold rankForWaveMode at h
  simp only at h
  cases mode with
  | urgent => exact mem_optimizeSupplierOffers ((sliceTo_sublist _ _).subset h)
  | economy =>
    obtain ⟨row₀, hrow₀, rank, rfl⟩ := mem_setRanks h
    have hpool := mem_sortBy.mp ((sliceTo_sublist _ _).subset hrow₀)
    split at hpool
    · obtain ⟨offer, hoffer, hranks⟩ := mem_optimizeSupplierOffers hpool
      exact ⟨offer, hoffer, hranks.marked rank row₀.deadlineRisk⟩
    · obtain ⟨offer, hoffer, hranks⟩ :=
        mem_optimizeSupplierOffers (List.mem_of_mem_filter hpool)
      exact ⟨offer, hoffer, hranks.marked rank row₀.deadlineRisk⟩

theorem rankForWaveMode_ne_nil {need : ℚ} (hneed : 0 < need)
    {required : RequiredDate} {mode : WaveMode} (htop : 0 < topN) {offer : Offer}
    (hoffer : offer ∈ offers) (husable : offer.Usable) :
    rankForWaveMode host need offers required mode topN ≠ [] := by
  have hranked := @optimizeSupplierOffers_ne_nil host need hneed offers required
    (max topN offers.length) (lt_of_lt_of_le htop (le_max_left _ _)) offer hoffer husable
  unfold rankForWaveMode
  simp only
  cases mode with
  | urgent => exact sliceTo_ne_nil htop hranked
  | economy =>
    rw [Ne, setRanks_eq_nil]
    apply sliceTo_ne_nil htop
    intro hnil
    have hpool := sortBy_eq_nil.mp hnil
    split at hpool
    · exact hranked hpool
    · next hsome =>
      rw [hpool] at hsome
      exact hsome rfl

/-- What a line does with the residual it finds: it takes nothing, or a part of what one residual
offer has, and notes it under the id of that offer. -/
inductive LinePick (nomKey : String) (remainder : ℚ) (topN : Int)
    (found : Dict (String × String) ℚ) (offers : List Offer) :
    List QueuePart → Dict (String × String) ℚ → Prop where
  | nothing (idle : 0 < topN → (∀ offer ∈ offers, offer.Usable) → remainder ≤ 0 ∨ offers = []) :
      LinePick nomKey remainder topN found offers [] found
  | part (part : QueuePart) (offer : Offer) (left : ℚ) (mem : offer ∈ offers)
      (available : offer.available = some left) (own : part.supplierId = offer.supplierId)
      (positive : 0 < part.quantity) (within : part.quantity ≤ left)
      (needed : part.quantity ≤ remainder)
      (plain : offer.Plain → part.quantity = min remainder left) :
      LinePick nomKey remainder topN found offers [part]
        (consumePick found part.supplierId nomKey part.quantity)

/-- A part is of a supplier whose offer the line found. -/
theorem LinePick.own {remainder : ℚ}
    {found remaining' : Dict (String × String) ℚ} {parts : List QueuePart}
    (h : LinePick nomKey remainder topN found offers parts remaining') :
    ∀ part ∈ parts, ∃ offer ∈ offers, part.supplierId = offer.supplierId := by
  cases h with
  | nothing idle => exact fun part hpart => by cases hpart
  | part part offer left mem available own =>
    exact fun part' hpart => ⟨offer, mem, List.mem_singleton.mp hpart ▸ own⟩

/-- A line is assigned no more than the warehouse leaves to cover. -/
theorem LinePick.assigned_le {remainder : ℚ} (hremainder : 0 ≤ remainder) {found remaining' : Dict (String × String) ℚ}
    {parts : List QueuePart} (h : LinePick nomKey remainder topN found offers parts remaining') :
    (parts.map QueuePart.quantity).sum ≤ remainder := by
  cases h with
  | nothing idle => exact hremainder
  | part part offer left mem available own positive within needed =>
    rw [List.map_singleton, List.sum_singleton]
    exact needed

theorem optimizeLine_pick (plan : WavePlan) (waveMode : Option WaveMode) (topN : Int)
    (s : QueueState) (line : LineResult) :
    ∃ found, Applied (host.casefold (strip line.nomenclatureId)) s.remainingSupplier
        (if strip line.nomenclatureId = "" then []
          else collectSupplierOffers host.casefold store (strip line.nomenclatureId))
        (found, (optimizeLine host store plan waveMode topN s line).1.offers) ∧
      LinePick (host.casefold (strip line.nomenclatureId)) line.supplierRemainder topN found
        (optimizeLine host store plan waveMode topN s line).1.offers
        (optimizeLine host store plan waveMode topN s line).1.supplierParts
        (optimizeLine host store plan waveMode topN s line).2.remainingSupplier := by
  have happlied := applyRemainingQty_applied (host.casefold (strip line.nomenclatureId))
    s.remainingSupplier (if strip line.nomenclatureId = "" then []
      else collectSupplierOffers host.casefold store (strip line.nomenclatureId))
  unfold optimizeLine
  simp only
  generalize applyRemainingQty s.remainingSupplier (host.casefold (strip line.nomenclatureId))
    (if strip line.nomenclatureId = "" then []
      else collectSupplierOffers host.casefold store (strip line.nomenclatureId)) = applied
    at happlied ⊢
  refine ⟨applied.1, happlied, ?_⟩
  generalize htop : (if line.supplierRemainder > 0 ∧ applied.2 ≠ [] then
    rankForWaveMode host line.supplierRemainder applied.2 line.requiredDate
      (waveMode.getD (waveModeForLabel
        (((plan.waveOf line.caseId).map Wave.label).getD .late))) topN
    else []) = top
  -- a usable offer makes the ranking of an uncovered line non-empty
  have hidle : top = [] → 0 < topN → (∀ offer ∈ applied.2, offer.Usable) →
      line.supplierRemainder ≤ 0 ∨ applied.2 = [] := by
    intro hnil htopN husable
    by_contra hnot
    obtain ⟨hneed, hoffers⟩ := not_or.mp hnot
    obtain ⟨offer, hoffer⟩ := List.exists_mem_of_ne_nil _ hoffers
    rw [if_pos ⟨not_le.mp hneed, hoffers⟩] at htop
    exact rankForWaveMode_ne_nil (not_le.mp hneed) htopN hoffer (husable offer hoffer)
      (htop.trans hnil)
  unfold pickParts
  cases hhead : top.head? with
  | none => exact .nothing (hidle (List.head?_eq_none_iff.mp hhead))
  | some primary =>
    have hmem : primary ∈ top := List.mem_of_mem_head? hhead
    rw [← htop] at hmem
    split at hmem
    · next hrank =>
      obtain ⟨offer, hoffer, hranks⟩ := mem_rankForWaveMode hmem
      have hquantity : pickQuantity line.supplierRemainder primary =
          min line.supplierRemainder primary.coverableQty := by
        rw [pickQuantity, if_neg (ne_of_gt hranks.coverable_pos)]
      have hpos : 0 < pickQuantity line.supplierRemainder primary := by
        rw [hquantity]
        exact lt_min hrank.1 hranks.coverable_pos
      simp only [if_pos (⟨hrank.1, hpos⟩ : line.supplierRemainder > 0 ∧ _)]
      refine .part _ offer primary.availableQty hoffer hranks.available hranks.supplierId hpos
        ?_ (hquantity ▸ min_le_left _ _) fun hplain => ?_
      · rw [hquantity]
        exact le_trans (min_le_right _ _) (le_trans hranks.coverable_le (min_le_right _ _))
      · rw [hquantity, hranks.plain hplain, ← min_assoc, min_self]
    · cases hmem

/-- A host that reads no dates and knows no classes. -/
def plainHost : Host := ⟨id, fun _ => none, fun _ => none, fun _ => none, 0⟩

def fiveBolts : Offering where
  nomenclatureId := some "bolt"
  nomenclatureName := none
  availableQuantity := some 5
  availableQty := none
  leadTimeDays := none
  unitPrice := some 1

def supplierOfBolts (supplierId : String) : Supplier where
  supplierId := some supplierId
  name := none
  isActive := true
  offerings := [fiveBolts]

end AgentBack.Procurement
