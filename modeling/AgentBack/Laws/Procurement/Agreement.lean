import AgentBack.Laws.Procurement.Conservation
import AgentBack.Laws.Procurement.QueueConservation

/-!
# Where the planners agree

The allocation finds a supplier by the id or by the name of a nomenclature and may split a line over
several suppliers; the ranking finds offers by the id alone, and the queue picks one supplier for a
line. So the case planner recommends a supplier for every line that the allocation covers from an
offering under the id of the line, and a line that the queue leaves short has emptied the offer it
picked, or found none.
-/

namespace AgentBack.Procurement

open Dict (LastUnder)
open Text (strip)

variable {host : Host} {store : MaterialBankStore}

/-- Every offering of an active supplier has a price. -/
def Priced (store : MaterialBankStore) : Prop :=
  ∀ supplier ∈ store.activeSuppliers, ∀ offering ∈ supplier.offerings,
    ∃ price, offering.unitPrice = some price ∧ 0 ≤ price

/-- No offering of an active supplier has a lot or a minimal order. -/
def WithoutLots (store : MaterialBankStore) : Prop :=
  ∀ supplier ∈ store.activeSuppliers, ∀ offering ∈ supplier.offerings,
    offering.lotSize = none ∧ offering.packQty = none ∧ offering.packSize = none ∧
      offering.minOrderQty = none

variable {casefold : String → String} {line : LineResult}

theorem collectSupplierOffers_of_offering {nom : String}
    {supplier : Supplier} (hsupplier : supplier ∈ store.activeSuppliers) {offering : Offering}
    (hoffering : offering ∈ supplier.offerings)
    (hkey : Text.normalize casefold nom ≠ "")
    (hnom : offering.nomKey casefold = Text.normalize casefold nom) {price : ℚ}
    (hprice : offering.unitPrice = some price) (hnonneg : 0 ≤ price)
    (hpos : 0 < offering.available) :
    ∃ offer ∈ collectSupplierOffers casefold store nom, offer.Usable := by
  obtain ⟨available, havailable⟩ : ∃ available,
      (offering.availableQuantity <|> offering.availableQty) = some available := by
    cases hread : (offering.availableQuantity <|> offering.availableQty) with
    | none =>
      rw [Offering.available, hread] at hpos
      exact absurd hpos (lt_irrefl 0)
    | some available => exact ⟨available, rfl⟩
  have hof : offering.available = available := by
    rw [Offering.available, havailable, Option.getD_some]
  obtain ⟨offer, hoffer⟩ : ∃ offer, offerOf casefold (Text.normalize casefold nom) supplier
      offering = some offer := by
    simp only [offerOf, hnom, ne_eq, not_true_eq_false, if_false, hprice, havailable,
      if_neg (not_or.mpr ⟨not_lt.mpr hnonneg, not_le.mpr (hof ▸ hpos)⟩)]
    exact ⟨_, rfl⟩
  have hmem : offer ∈ collectSupplierOffers casefold store nom := by
    rw [collectSupplierOffers, if_neg hkey]
    exact List.mem_flatMap.mpr ⟨supplier, hsupplier,
      List.mem_filterMap.mpr ⟨offering, hoffering, hoffer⟩⟩
  obtain ⟨-, -, -, -, -, -, -, -, husable⟩ := mem_collectSupplierOffers hmem
  exact ⟨offer, hmem, husable⟩

variable {fromIsoFormat : String → Option DateTime}

section

variable {cases : List Case}
  (hline : line ∈ allocateMaterialsByDeadline casefold fromIsoFormat store cases)
include hline

/-- What a line draws from the suppliers was listed by the bank, with something available. -/
theorem offering_of_draw {d : (String × String) × ℚ} (hd : d ∈ line.supplierDraws) :
    ∃ supplier ∈ store.activeSuppliers, ∃ offering ∈ supplier.offerings,
      offering.nomKey casefold = d.1.2 ∧ 0 < offering.available := by
  obtain ⟨-, hdraws⟩ := allocateLines_draws casefold store (sortedDemands fromIsoFormat cases)
    (initialRemaining casefold store)
  have hpos := hdraws.onHand_pos (List.mem_flatMap.mpr ⟨line, hline, hd⟩)
  obtain ⟨offering, hlast⟩ := lastUnder_of_onHand hpos
  rw [onHand_supplier hlast] at hpos
  obtain ⟨supplier, hsupplier, hrow⟩ := List.mem_flatMap.mp hlast.mem
  obtain ⟨o, ho, he⟩ := List.mem_map.mp hrow
  obtain ⟨hkey, rfl⟩ := Prod.mk.inj he
  exact ⟨supplier, hsupplier, o, (List.mem_filter.mp ho).1, congrArg Prod.snd hkey, hpos⟩

/-- A line that draws from the suppliers has something left after the warehouse. -/
theorem supplierRemainder_pos (hfrom : 0 < line.fromSupplier) : 0 < line.supplierRemainder := by
  obtain ⟨demand, hdemand, before, rfl⟩ := mem_allocateLines hline
  have hbooks := @allocateLine_balanced casefold store before demand
    (quantity_pos (mem_sortBy.mp hdemand))
  have henough := hbooks.enough
  rw [hbooks.covered] at henough
  have hrest : 0 < (allocateLine casefold store before demand).1.neededQuantity -
      (allocateLine casefold store before demand).1.fromWarehouse := by
    have := le_sub_iff_add_le'.mpr henough
    exact lt_of_lt_of_le hfrom this
  rw [LineResult.supplierRemainder, if_neg (not_lt.mpr (le_of_lt hrest))]
  exact hrest

theorem fromSupplier_pos {d : (String × String) × ℚ} (hd : d ∈ line.supplierDraws) :
    0 < line.fromSupplier := by
  obtain ⟨demand, -, before, rfl⟩ := mem_allocateLines hline
  obtain ⟨mid, left, hserved⟩ := allocateLine_served casefold store before demand
  have hpos := hserved.supplier.draws.positive
  rw [hserved.fromSupplier]
  refine lt_of_lt_of_le (hpos d hd) (List.single_le_sum (fun q hq => ?_) _
    (List.mem_map.mpr ⟨d, hd, rfl⟩))
  obtain ⟨e, he, rfl⟩ := List.mem_map.mp hq
  exact le_of_lt (hpos e he)

end

/-- An offer of a bank without lots has none. -/
theorem plain_of_collected (hlots : WithoutLots store) {nom : String}
    {offer : Offer} (h : offer ∈ collectSupplierOffers casefold store nom) : offer.Plain := by
  unfold collectSupplierOffers at h
  simp only at h
  split at h
  · cases h
  · obtain ⟨supplier, hsupplier, hmem⟩ := List.mem_flatMap.mp h
    obtain ⟨offering, hoffering, hoffer⟩ := List.mem_filterMap.mp hmem
    obtain ⟨hlot, hpack, hsize, hmin⟩ := hlots supplier hsupplier offering hoffering
    unfold offerOf at hoffer
    split at hoffer
    · cases hoffer
    · split at hoffer
      · split at hoffer
        · cases hoffer
        · cases hoffer
          constructor
          · simp only [Offer.lot, hlot, hpack, hsize]
            rfl
          · simp only [Offer.minOrder, hmin]
            rfl
      · cases hoffer

/-- A line that stays short found no offer, or took all of the offer it picked. -/
theorem optimizeLine_short (hlots : WithoutLots store) {plan : WavePlan}
    {waveMode : Option WaveMode} {topN : Int} (htop : 0 < topN) {s : QueueState}
    (hshort : (optimizeLine host store plan waveMode topN s line).1.assigned <
      line.supplierRemainder) :
    (optimizeLine host store plan waveMode topN s line).1.offers = [] ∨
      ∃ part, (optimizeLine host store plan waveMode topN s line).1.supplierParts = [part] ∧
        ∃ offer ∈ (optimizeLine host store plan waveMode topN s line).1.offers,
          offer.supplierId = part.supplierId ∧ offer.available = some part.quantity := by
  obtain ⟨found, happlied, hpick⟩ := @optimizeLine_pick host store plan waveMode topN s line
  have hoffers : ∀ offer ∈ (optimizeLine host store plan waveMode topN s line).1.offers,
      offer.Usable ∧ offer.Plain := by
    intro offer hoffer
    obtain ⟨collected, hcollected, left, rfl, hpos, -, -⟩ := happlied.cut_of_mem hoffer
    split at hcollected
    · cases hcollected
    · obtain ⟨-, -, -, -, -, -, -, -, husable⟩ := mem_collectSupplierOffers hcollected
      have hplain := plain_of_collected hlots hcollected
      exact ⟨⟨husable.priced, left, rfl, hpos⟩, hplain.lot, hplain.minOrder⟩
  rw [QueueLine.assigned] at hshort
  generalize (optimizeLine host store plan waveMode topN s line).1.supplierParts = parts
    at hpick hshort ⊢
  generalize (optimizeLine host store plan waveMode topN s line).1.offers = offers
    at hpick hoffers ⊢
  generalize (optimizeLine host store plan waveMode topN s line).2.remainingSupplier = remaining'
    at hpick
  cases hpick with
  | nothing idle =>
    refine .inl ((idle htop fun offer hoffer => (hoffers offer hoffer).1).resolve_left ?_)
    exact not_le.mpr hshort
  | part part offer left mem available own positive within needed plain =>
    rw [List.map_singleton, List.sum_singleton] at hshort
    have htake := plain (hoffers offer mem).2
    have hleft : part.quantity = left := by
      rcases min_choice line.supplierRemainder left with hmin | hmin
      · exact absurd (htake.trans hmin) (ne_of_lt hshort)
      · exact htake.trans hmin
    exact .inr ⟨part, rfl, offer, mem, own.symm, hleft ▸ available⟩

/-- The case planner recommends a supplier for every line that the allocation covers from an
offering under the id of the line, and the queue leaves a line short only after it has emptied the
offer of the supplier it picked, or when no offer has anything left. -/
theorem planners_agree (host : Host) (hfold : ∀ s, s ≠ "" → host.casefold s ≠ "")
    (store : MaterialBankStore) (hpriced : Priced store) (hlots : WithoutLots store) (topN : Int)
    (htop : 0 < topN) :
    (∀ (positions : List Position) (caseId : Option String) (caseRequired : RequiredDate),
      ∀ line ∈ allocateMaterialsByDeadline host.casefold host.fromIsoFormat store
        [caseStub caseId caseRequired positions],
      strip line.nomenclatureId ≠ "" →
      (∃ d ∈ line.supplierDraws, d.1.2 = Text.normalize host.casefold line.nomenclatureId) →
      optimizeCaseLine host store caseRequired topN line ∈
          optimizeCaseCoverage host store positions caseId caseRequired topN ∧
        (optimizeCaseLine host store caseRequired topN line).recommendedSupplierId.isSome) ∧
    ∀ (cases : List Case) (waveMode : Option WaveMode),
      ∀ line ∈ (optimizeQueueCoverage host store cases waveMode topN).lines,
      line.assigned < line.supplierRemainder →
      line.offers = [] ∨ ∃ part, line.supplierParts = [part] ∧ ∃ offer ∈ line.offers,
        offer.supplierId = part.supplierId ∧ offer.available = some part.quantity := by
  refine ⟨fun positions caseId caseRequired line hline hid hdraw => ⟨?_, ?_⟩,
    fun cases waveMode line hline hshort => ?_⟩
  · exact List.mem_map.mpr ⟨line, hline, rfl⟩
  · obtain ⟨d, hd, hkey⟩ := hdraw
    obtain ⟨supplier, hsupplier, offering, hoffering, hnom, hpos⟩ := offering_of_draw hline hd
    obtain ⟨price, hprice, hnonneg⟩ := hpriced supplier hsupplier offering hoffering
    have hremainder := supplierRemainder_pos hline (fromSupplier_pos hline hd)
    have hkeyOf : Text.normalize host.casefold (strip line.nomenclatureId) =
        Text.normalize host.casefold line.nomenclatureId := Text.normalize_strip _ _
    have hne : Text.normalize host.casefold (strip line.nomenclatureId) ≠ "" := by
      rw [hkeyOf]
      exact hfold _ hid
    obtain ⟨offer, hoffer, husable⟩ := collectSupplierOffers_of_offering hsupplier hoffering hne
      (by rw [hnom, hkey, hkeyOf]) hprice hnonneg hpos
    have hoffers := List.ne_nil_of_mem hoffer
    rw [CaseLine.recommendedSupplierId, Option.isSome_map, List.isSome_head?, optimizeCaseLine]
    simp only [if_neg hid, if_pos (⟨hremainder, hoffers⟩ : line.supplierRemainder > 0 ∧ _)]
    exact optimizeSupplierOffers_ne_nil hremainder htop hoffer husable
  · obtain ⟨line₀, -, before, rfl⟩ := mem_optimizeLines hline
    exact optimizeLine_short hlots htop hshort

def boltSuppliers : MaterialBankStore where
  warehouses := []
  stockLines := []
  suppliers := [supplierOfBolts "P1", supplierOfBolts "P2"]

theorem priced_boltSuppliers : Priced boltSuppliers ∧ WithoutLots boltSuppliers := by
  have hfive : ∀ supplier ∈ boltSuppliers.activeSuppliers, ∀ offering ∈ supplier.offerings,
      offering = fiveBolts := by
    intro supplier hsupplier offering hoffering
    have hmem := (List.mem_filter.mp hsupplier).1
    simp only [boltSuppliers, List.mem_cons, List.not_mem_nil, or_false] at hmem
    rcases hmem with rfl | rfl <;> exact List.mem_singleton.mp hoffering
  constructor
  · intro supplier hsupplier offering hoffering
    rw [hfive supplier hsupplier offering hoffering]
    exact ⟨1, rfl, zero_le_one⟩
  · intro supplier hsupplier offering hoffering
    rw [hfive supplier hsupplier offering hoffering]
    exact ⟨rfl, rfl, rfl, rfl⟩

/-- Ten bolts from two suppliers with five each: the case planner recommends one, and the queue,
five short, has emptied the offer it picked. -/
theorem planners_agree_bolts :
    (∃ line ∈ optimizeCaseCoverage plainHost boltSuppliers (boltCase "a" 10 10).positions
        (some "a") .missing 3, line.recommendedSupplierId.isSome) ∧
      ∃ line ∈ (optimizeQueueCoverage plainHost boltSuppliers [boltCase "a" 10 10] none 3).lines,
        line.offers = [] ∨ ∃ part, line.supplierParts = [part] ∧ ∃ offer ∈ line.offers,
          offer.supplierId = part.supplierId ∧ offer.available = some part.quantity := by
  obtain ⟨hpriced, hlots⟩ := priced_boltSuppliers
  obtain ⟨hcase, hqueue⟩ := planners_agree plainHost (fun _ h => h) boltSuppliers hpriced hlots 3
    (by decide)
  constructor
  · obtain ⟨line, hline, hid, hdraw⟩ : ∃ line ∈ allocateMaterialsByDeadline id (fun _ => none)
        boltSuppliers [caseStub (some "a") .missing (boltCase "a" 10 10).positions],
        strip line.nomenclatureId ≠ "" ∧
          ∃ d ∈ line.supplierDraws, d.1.2 = Text.normalize id line.nomenclatureId := by
      decide +kernel
    have hplanned := hcase _ _ _ line hline hid hdraw
    exact ⟨_, hplanned.1, hplanned.2⟩
  · obtain ⟨line, hline, hshort⟩ : ∃ line ∈ (optimizeQueueCoverage plainHost boltSuppliers
        [boltCase "a" 10 10] none 3).lines, line.assigned < line.supplierRemainder := by
      decide +kernel
    exact ⟨line, hline, hqueue _ _ line hline hshort⟩

/-- Five bolts under another id and the name of the position. -/
def renamedBolts : MaterialBankStore where
  warehouses := []
  stockLines := []
  suppliers := [{ supplierOfBolts "P1" with
    offerings := [{ fiveBolts with nomenclatureId := some "B-2", nomenclatureName := some "M6" }] }]

def namedBolts : List Position :=
  (boltCase "a" 10 10).positions.map fun position =>
    { position with nomenclatureName := some "M6" }

/-- The allocation takes the bolts that bear the name, and the ranking, which goes by the id, knows
of none; ten bolts from two suppliers with five each are five short, and the second supplier keeps
its five. -/
theorem planners_differ_bolts :
    (∃ line ∈ allocateMaterialsByDeadline id (fun _ => none) renamedBolts
        [caseStub (some "a") .missing namedBolts], 0 < line.fromSupplier ∧
          (optimizeCaseLine plainHost renamedBolts .missing 3 line).recommendedSupplierId = none) ∧
      ∃ line ∈ (optimizeQueueCoverage plainHost boltSuppliers [boltCase "a" 10 10] none 3).lines,
        line.assigned < line.supplierRemainder ∧
          (optimizeQueueCoverage plainHost boltSuppliers [boltCase "a" 10 10]
            none 3).remainingSupplier.get? ("P2", "bolt") = some 5 := by
  decide +kernel

end AgentBack.Procurement
