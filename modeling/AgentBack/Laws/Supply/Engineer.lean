import AgentBack.Base.Draw
import AgentBack.Supply.Engineer
import Mathlib.Tactic.Linarith
import Mathlib.Tactic.Positivity

/-!
# The engineer allocates what there is

The loop over the supplies of a position refines `Serves`, so that a position takes at most its gross
requirement and, when some of that is not covered, has emptied every eligible supply of the material.
Over the whole run the draws come from one stock, the quantities of the supplies, so that no supply
gives more than it has.
-/

namespace AgentBack.Engineer

open Procurement (DateTime)
open Supply (momentKey)

/-- What is included, as draws under the ids of the supplies. -/
def drawLog (included : List (SupplyItem × ℚ)) : List (String × ℚ) :=
  included.map fun item => (item.1.supplyId, item.2)

def allocatedLog (positions : List AssessmentLine) : List (String × ℚ) :=
  positions.flatMap fun line => drawLog line.included

def Eligible (material : Material) (requiredDate : DateTime) (supply : SupplyItem) : Prop :=
  supply.nomenclatureId = material.nomenclatureId ∧
    exclusionReason supply material requiredDate = none

variable {material : Material} {requiredDate : DateTime} {gross : ℚ}

/-- The loop over some supplies: what it adds are draws that cover the rest of the requirement, and
an eligible supply that it was given has nothing more to give to it. -/
theorem drawSupplies_serves (rows : List SupplyItem) (s : DrawState) :
    ∃ added, (drawSupplies material requiredDate gross rows s).included = s.included ++ added ∧
      Serves s.remaining (gross - s.taken) (drawLog added)
        (drawSupplies material requiredDate gross rows s).remaining
        (gross - (drawSupplies material requiredDate gross rows s).taken) ∧
      ∀ supply ∈ rows, Eligible material requiredDate supply →
        Spent (drawSupplies material requiredDate gross rows s).remaining
          (gross - (drawSupplies material requiredDate gross rows s).taken) supply.supplyId := by
  induction rows generalizing s with
  | nil =>
    refine ⟨[], (List.append_nil _).symm, .refl _ _, fun supply hsupply => ?_⟩
    cases hsupply
  | cons supply rest ih =>
    have hskip : ∀ reason, (s.exclude supply reason).taken = s.taken := fun _ => rfl
    unfold drawSupplies
    split
    · rename_i hnom
      obtain ⟨added, hadded, hserves, hspent⟩ := ih s
      refine ⟨added, hadded, hserves, fun other hother heligible => ?_⟩
      rcases List.mem_cons.mp hother with rfl | hother
      · exact absurd heligible.1 hnom
      · exact hspent other hother heligible
    · split
      · rename_i reason hreason
        obtain ⟨added, hadded, hserves, hspent⟩ := ih (s.exclude supply reason)
        refine ⟨added, hadded, hserves, fun other hother heligible => ?_⟩
        rcases List.mem_cons.mp hother with rfl | hother
        · rw [heligible.2] at hreason
          cases hreason
        · exact hspent other hother heligible
      · simp only
        split
        · rename_i hempty
          obtain ⟨added, hadded, hserves, hspent⟩ := ih (s.exclude supply .alreadyAllocated)
          refine ⟨added, hadded, hserves, fun other hother heligible => ?_⟩
          rcases List.mem_cons.mp hother with rfl | hother
          · exact hserves.spent (.inr hempty)
          · exact hspent other hother heligible
        · rename_i hsome
          split
          · rename_i hdone
            have hleft : gross - s.taken ≤ 0 := le_trans (le_max_right 0 _) hdone
            exact ⟨[], (List.append_nil _).symm, .refl _ _, fun _ _ _ => .inl hleft⟩
          · rename_i hneeded
            have hleft : 0 < gross - s.taken :=
              (lt_max_iff.mp (not_le.mp hneeded)).resolve_left (lt_irrefl 0)
            have hpull := Serves.pull hleft (not_le.mp hsome)
            rw [max_eq_right (le_of_lt hleft)]
            generalize hstate : (⟨s.remaining.set supply.supplyId
              (s.remaining.getD supply.supplyId 0 -
                min (gross - s.taken) (s.remaining.getD supply.supplyId 0)),
              s.included ++ [(supply, min (gross - s.taken)
                (s.remaining.getD supply.supplyId 0))], s.excluded⟩ : DrawState) = s'
            have htaken : gross - s'.taken = gross - s.taken -
                min (gross - s.taken) (onHand s.remaining supply.supplyId) := by
              rw [← hstate, DrawState.taken, DrawState.taken, List.map_append, List.sum_append,
                List.map_singleton, List.sum_singleton, sub_sub]
              rfl
            have hremaining : s'.remaining = s.remaining.set supply.supplyId
                (onHand s.remaining supply.supplyId -
                  min (gross - s.taken) (onHand s.remaining supply.supplyId)) := by
              rw [← hstate]
              rfl
            obtain ⟨added, hadded, hserves, hspent⟩ := ih s'
            have hlater := hserves
            rw [htaken, hremaining] at hlater
            refine ⟨(supply, min (gross - s.taken) (onHand s.remaining supply.supplyId)) :: added,
              ?_, hpull.trans hlater, fun other hother heligible => ?_⟩
            · rw [hadded, ← hstate]
              simp only [List.append_assoc, List.singleton_append]
              rfl
            · rcases List.mem_cons.mp hother with rfl | hother
              · refine hserves.spent ?_
                rw [htaken, hremaining]
                exact Serves.spent_pull _ _ _
              · exact hspent other hother heligible

theorem sum_breakdown (included : List (SupplyItem × ℚ)) (d : Dict SourceType SupplyBreakdown) :
    ((included.foldl addBreakdown d).values.map SupplyBreakdown.quantity).sum =
      (d.values.map SupplyBreakdown.quantity).sum + (included.map Prod.snd).sum := by
  induction included generalizing d with
  | nil => simp
  | cons item rest ih =>
    have hadd : ((addBreakdown d item).values.map SupplyBreakdown.quantity).sum =
        (d.values.map SupplyBreakdown.quantity).sum + item.2 := by
      have hset := d.sum_values_set item.1.sourceType
        ⟨(d.getD item.1.sourceType ⟨0, []⟩).quantity + item.2,
          (d.getD item.1.sourceType ⟨0, []⟩).supplyIds ++ [item.1.supplyId]⟩
        SupplyBreakdown.quantity ⟨0, []⟩ rfl
      simp only at hset
      rw [addBreakdown]
      linarith
    rw [List.foldl_cons, ih, hadd, List.map_cons, List.sum_cons, add_assoc]

variable {supplies : List SupplyItem}

/-- A position takes at most its gross requirement; what it does not take is its net requirement, and
when there is some, no eligible supply has anything left. -/
theorem assessRequirement_spec {case : CaseInput} {now : DateTime}
    {remaining remaining' : Dict String ℚ} {requirement : Requirement} {line : AssessmentLine}
    (hgross : 0 ≤ requirement.gross)
    (h : assessRequirement case supplies now remaining requirement = some (line, remaining')) :
    Draws remaining (drawLog line.included) remaining' ∧
      line.totalAvailableSupply ≤ line.grossRequirement ∧
      line.netRequirement = line.grossRequirement - line.totalAvailableSupply ∧
      (0 < line.netRequirement → ∀ supply ∈ supplies,
        Eligible line.material line.requiredDate supply →
          onHand remaining' supply.supplyId ≤ 0) := by
  unfold assessRequirement at h
  obtain ⟨requiredDate, -, h⟩ := Option.bind_eq_some_iff.mp h
  obtain ⟨rows, hrows, h⟩ := Option.bind_eq_some_iff.mp h
  obtain ⟨criticality, -, h⟩ := Option.bind_eq_some_iff.mp h
  obtain ⟨hline, hremaining⟩ := Prod.mk.inj (Option.some.inj h)
  obtain ⟨added, hadded, hserves, hspent⟩ := @drawSupplies_serves requirement.material requiredDate
    requirement.gross rows ⟨remaining, [], []⟩
  have hall : ∀ supply ∈ supplies, supply ∈ rows := by
    intro supply hsupply
    unfold sortSupplies at hrows
    simp only at hrows
    split at hrows
    · rw [← Option.some.inj hrows]
      exact mem_sortBy.mpr hsupply
    · cases hrows
  have htotal := @sum_breakdown (drawSupplies requirement.material requiredDate requirement.gross rows
    ⟨remaining, [], []⟩).included ∅
  rw [show ((∅ : Dict SourceType SupplyBreakdown).values.map SupplyBreakdown.quantity).sum = 0 from
    rfl, zero_add] at htotal
  generalize drawSupplies requirement.material requiredDate requirement.gross rows
    ⟨remaining, [], []⟩ = drawn at hline hremaining hadded hserves hspent htotal
  -- the draws start from nothing taken
  have hnothing : (⟨remaining, [], []⟩ : DrawState).taken = 0 := rfl
  rw [List.nil_append] at hadded
  rw [hnothing, sub_zero, ← hadded] at hserves
  have hle : drawn.taken ≤ requirement.gross := sub_nonneg.mp (hserves.nonneg hgross)
  have hnet : max 0 (requirement.gross - drawn.taken) = requirement.gross - drawn.taken :=
    max_eq_right (sub_nonneg.mpr hle)
  subst hline hremaining
  simp only [htotal]
  refine ⟨hserves.draws, hle, hnet, fun hpos supply hsupply heligible => ?_⟩
  rcases hspent supply (hall supply hsupply) heligible with hcovered | hempty
  · rw [show (drawn.included.map Prod.snd).sum = drawn.taken from rfl, hnet] at hpos
    exact absurd hpos (not_lt.mpr hcovered)
  · exact hempty

theorem NeedLine.quantity_pos (need : NeedLine) : 0 < need.quantity := by
  unfold NeedLine.quantity
  cases hproduct : need.productQuantity with
  | some q => exact need.product_pos q hproduct
  | none =>
    cases hdirect : need.directQuantity with
    | some q => exact need.direct_pos q hdirect
    | none =>
      have hgiven := need.quantity_given
      rw [hproduct, hdirect] at hgiven
      simp at hgiven

/-- Every requirement is for a positive quantity of products. -/
theorem aggregateSelectedRequirements_pos {selected : List Selected} {defaultDate : DateTime} :
    ∀ requirement ∈ aggregateSelectedRequirements selected defaultDate,
      0 < requirement.quantity := by
  have hadd : ∀ (need : NeedLine) (spec : ResourceSpecification) (material : Material)
      (grouped : Dict GroupKey Requirement), (∀ r ∈ grouped.values, 0 < r.quantity) →
      ∀ r ∈ (addRequirement defaultDate need spec grouped material).values, 0 < r.quantity := by
    intro need spec material grouped hgrouped r hr
    obtain ⟨k, hk⟩ := Dict.mem_values_iff.mp hr
    unfold addRequirement at hk
    simp only at hk
    split at hk
    · rw [Dict.get?_set] at hk
      split at hk
      · rw [← Option.some.inj hk]
        exact need.quantity_pos
      · exact hgrouped r (Dict.mem_values_iff.mpr ⟨k, hk⟩)
    · rename_i first hfirst
      rw [Dict.get?_set] at hk
      split at hk
      · rw [← Option.some.inj hk]
        exact add_pos (hgrouped first (Dict.mem_values_iff.mpr ⟨_, hfirst⟩)) need.quantity_pos
      · exact hgrouped r (Dict.mem_values_iff.mpr ⟨k, hk⟩)
  have hmaterials : ∀ (need : NeedLine) (spec : ResourceSpecification) (materials : List Material)
      (grouped : Dict GroupKey Requirement), (∀ r ∈ grouped.values, 0 < r.quantity) →
      ∀ r ∈ (materials.foldl (addRequirement defaultDate need spec) grouped).values,
        0 < r.quantity := by
    intro need spec materials
    induction materials with
    | nil => exact fun grouped hgrouped => hgrouped
    | cons material rest ih => exact fun grouped hgrouped => ih _ (hadd need spec material grouped hgrouped)
  have hall : ∀ grouped : Dict GroupKey Requirement, (∀ r ∈ grouped.values, 0 < r.quantity) →
      ∀ r ∈ (selected.foldl (fun grouped pair =>
        pair.2.materials.foldl (addRequirement defaultDate pair.1 pair.2) grouped) grouped).values,
        0 < r.quantity := by
    induction selected with
    | nil => exact fun grouped hgrouped => hgrouped
    | cons pair rest ih =>
      exact fun grouped hgrouped => ih _ (hmaterials pair.1 pair.2 pair.2.materials grouped hgrouped)
  exact hall ∅ fun r hr => by cases hr

theorem Requirement.gross_nonneg {requirement : Requirement} (h : 0 < requirement.quantity) :
    0 ≤ requirement.gross := by
  have hrate := requirement.material.rate_pos
  have hloss := requirement.material.loss_nonneg
  unfold Requirement.gross
  positivity

/-- What a line of an answer satisfies, where `left` is what remains after it. -/
structure LineLaw (supplies : List SupplyItem) (line : AssessmentLine) (left : Dict String ℚ) :
    Prop where
  within : line.totalAvailableSupply ≤ line.grossRequirement
  net : line.netRequirement = line.grossRequirement - line.totalAvailableSupply
  emptied : 0 < line.netRequirement → ∀ supply ∈ supplies,
    Eligible line.material line.requiredDate supply → onHand left supply.supplyId ≤ 0

variable {case : CaseInput} {now : DateTime} {remaining : Dict String ℚ}
  {requirement : Requirement} {rest requirements : List Requirement} {positions : List AssessmentLine}

theorem assessRequirements_cons
    (h : assessRequirements case supplies now remaining (requirement :: rest) = some positions) :
    ∃ line left later, assessRequirement case supplies now remaining requirement = some (line, left) ∧
      assessRequirements case supplies now left rest = some later ∧ positions = line :: later := by
  unfold assessRequirements at h
  obtain ⟨⟨line, left⟩, hdone, h⟩ := Option.bind_eq_some_iff.mp h
  obtain ⟨later, hlater, h⟩ := Option.bind_eq_some_iff.mp h
  exact ⟨line, left, later, hdone, hlater, (Option.some.inj h).symm⟩

/-- The run draws from what remains, and after each line its law holds. -/
theorem assessRequirements_draws (hpos : ∀ r ∈ requirements, 0 < r.quantity)
    (h : assessRequirements case supplies now remaining requirements = some positions) :
    (∃ left, Draws remaining (allocatedLog positions) left) ∧
      ∀ before line after, positions = before ++ line :: after →
        ∃ left, Draws remaining (allocatedLog (before ++ [line])) left ∧
          LineLaw supplies line left := by
  induction requirements generalizing remaining positions with
  | nil =>
    cases h
    refine ⟨⟨remaining, .nil _⟩, fun before line after hsplit => ?_⟩
    exact absurd hsplit.symm (by simp)
  | cons requirement rest ih =>
    obtain ⟨line, left, later, hdone, hlater, rfl⟩ := assessRequirements_cons h
    have hgross := Requirement.gross_nonneg (hpos requirement (.head _))
    obtain ⟨hdraws, hwithin, hnet, hemptied⟩ := assessRequirement_spec hgross hdone
    obtain ⟨⟨last, hrest⟩, hlaw⟩ := ih (fun r hr => hpos r (.tail _ hr)) hlater
    refine ⟨⟨last, hdraws.append hrest⟩, fun before line' after hsplit => ?_⟩
    cases before with
    | nil =>
      obtain ⟨rfl, -⟩ := List.cons.inj hsplit
      refine ⟨left, ?_, hwithin, hnet, hemptied⟩
      simpa [allocatedLog] using hdraws
    | cons first before =>
      obtain ⟨rfl, hlater⟩ := List.cons.inj hsplit
      obtain ⟨left', hdraws', hlaw'⟩ := hlaw before line' after hlater
      exact ⟨left', hdraws.append hdraws', hlaw'⟩

/-- What `model_dump` of a supply is compared in. -/
def SupplyItem.facts (supply : SupplyItem) : SupplyItem × Option (Bool × Int) :=
  ({ supply with availableAt := none }, supply.availableAt.map momentKey)

theorem sameSupply_iff {a b : SupplyItem} : sameSupply a b = true ↔ a.facts = b.facts := by
  unfold sameSupply SupplyItem.facts
  rw [decide_eq_true_eq, Prod.mk.injEq]

/-- Supplies under one id are the same. -/
def AllAlike (supplies : List SupplyItem) : Prop :=
  ∀ a ∈ supplies, ∀ b ∈ supplies, a.supplyId = b.supplyId → a.facts = b.facts

/-- The check of the supplies accepts them when those under one id are the same. -/
theorem conflictingSupplies_eq_nil_iff {known : Dict String SupplyItem} :
    conflictingSupplies known supplies = [] ↔
      (∀ supply ∈ supplies, ∀ previous, known.get? supply.supplyId = some previous →
        previous.facts = supply.facts) ∧ AllAlike supplies := by
  induction supplies generalizing known with
  | nil => simp [conflictingSupplies, AllAlike]
  | cons first rest ih =>
    have hhead : (if (known.get? first.supplyId).any fun previous => !sameSupply previous first then
        [mkIssue "conflicting_supply_duplicate"
          ("Источник обеспечения «" ++ first.supplyId ++
            "» получен с противоречивыми данными; двойной учёт исключён.")
          "supply_id" .calculation]
        else []) = [] ↔
          ∀ previous, known.get? first.supplyId = some previous → previous.facts = first.facts := by
      cases known.get? first.supplyId with
      | none => simp
      | some previous =>
        rw [Option.any_some]
        by_cases hsame : sameSupply previous first = true
        · simp [hsame, sameSupply_iff.mp hsame]
        · have hfacts : previous.facts ≠ first.facts := fun h => hsame (sameSupply_iff.mpr h)
          simp [hsame, hfacts]
    unfold conflictingSupplies
    rw [List.append_eq_nil_iff, ih, hhead]
    constructor
    · rintro ⟨hfirst, hknown, halike⟩
      have htail : ∀ supply ∈ rest, supply.supplyId = first.supplyId →
          first.facts = supply.facts := by
        intro supply hsupply hid
        refine hknown supply hsupply first ?_
        rw [hid, Dict.get?_set_self]
      refine ⟨fun supply hsupply previous hprevious => ?_, fun a ha b hb hid => ?_⟩
      · rcases List.mem_cons.mp hsupply with rfl | hsupply
        · exact hfirst previous hprevious
        · by_cases hid : supply.supplyId = first.supplyId
          · rw [hid] at hprevious
            exact (hfirst previous hprevious).trans (htail supply hsupply hid)
          · refine hknown supply hsupply previous ?_
            rw [Dict.get?_set_ne _ (Ne.symm hid)]
            exact hprevious
      · rcases List.mem_cons.mp ha with rfl | ha'
        · rcases List.mem_cons.mp hb with rfl | hb'
          · rfl
          · exact htail b hb' hid.symm
        · rcases List.mem_cons.mp hb with rfl | hb'
          · exact (htail a ha' hid).symm
          · exact halike a ha' b hb' hid
    · rintro ⟨hknown, halike⟩
      refine ⟨hknown first (.head _), fun supply hsupply previous hprevious => ?_,
        fun a ha b hb => halike a (.tail _ ha) b (.tail _ hb)⟩
      by_cases hid : supply.supplyId = first.supplyId
      · rw [hid, Dict.get?_set_self] at hprevious
        cases hprevious
        exact halike _ (.head _) supply (.tail _ hsupply) hid.symm
      · rw [Dict.get?_set_ne _ (Ne.symm hid)] at hprevious
        exact hknown supply (.tail _ hsupply) previous hprevious

theorem conflictingSupplies_of_alike (h : AllAlike supplies) :
    conflictingSupplies ∅ supplies = [] := by
  refine conflictingSupplies_eq_nil_iff.mpr ⟨fun supply _ previous hprevious => ?_, h⟩
  cases hprevious

theorem quantity_of_facts {a b : SupplyItem} (h : a.facts = b.facts) : a.quantity = b.quantity :=
  congrArg (fun facts => facts.1.quantity) h

/-- Without conflicts the stock starts with the quantity of every supply. -/
theorem onHand_initialRemaining
    (h : conflictingSupplies ∅ supplies = []) {supply : SupplyItem} (hsupply : supply ∈ supplies) :
    onHand (initialRemaining supplies) supply.supplyId = supply.quantity := by
  have hget := Dict.get?_ofList_of_mem hsupply fun other hother hid =>
    quantity_of_facts ((conflictingSupplies_eq_nil_iff.mp h).2 other hother supply hsupply hid)
  rw [onHand, initialRemaining, Dict.getD, hget, Option.getD_some]

/-! ## The assessment -/

/-- Whatever the assessment answers, no supply gives more than its quantity, every line takes at most
its gross requirement and has the rest as its net requirement, and when a line has one, every
eligible supply of its material has been given out by then. -/
theorem calculateEngineerAssessment_conserves (casefold : String → String) (case : CaseInput)
    (needs : List NeedLine) (specifications : List ResourceSpecification)
    (supplies : List SupplyItem) (capabilityIssues : List String) (now : DateTime)
    (output : EngineerOutput)
    (h : calculateEngineerAssessment casefold case needs specifications supplies capabilityIssues
      now = some output) :
    (∀ supply ∈ supplies,
        takenUnder supply.supplyId (allocatedLog output.positions) ≤ supply.quantity) ∧
      ∀ before line after, output.positions = before ++ line :: after →
        line.totalAvailableSupply ≤ line.grossRequirement ∧
          line.netRequirement = line.grossRequirement - line.totalAvailableSupply ∧
          (0 < line.netRequirement → ∀ supply ∈ supplies,
            Eligible line.material line.requiredDate supply →
              takenUnder supply.supplyId (allocatedLog (before ++ [line])) = supply.quantity) := by
  unfold calculateEngineerAssessment at h
  obtain ⟨selection, -, h⟩ := Option.bind_eq_some_iff.mp h
  simp only at h
  split at h
  · -- the case does not pass the validation, and there are no positions
    cases h
    refine ⟨fun supply _ => supply.quantity_nonneg, fun before line after hsplit => ?_⟩
    exact absurd hsplit.symm (by simp)
  · rename_i hissues
    have hconflicts : conflictingSupplies ∅ supplies = [] :=
      (List.append_eq_nil_iff.mp (not_not.mp hissues)).2
    obtain ⟨requirements, hsorted, h⟩ := Option.bind_eq_some_iff.mp h
    obtain ⟨positions, hpositions, h⟩ := Option.bind_eq_some_iff.mp h
    cases h
    have hpos : ∀ r ∈ requirements, 0 < r.quantity := by
      unfold sortRequirements at hsorted
      simp only at hsorted
      split at hsorted
      · rw [← Option.some.inj hsorted]
        exact fun r hr => aggregateSelectedRequirements_pos r (mem_sortBy.mp hr)
      · cases hsorted
    obtain ⟨⟨left, hdraws⟩, hlines⟩ := assessRequirements_draws hpos hpositions
    constructor
    · intro supply hsupply
      have hle := hdraws.takenUnder_le supply.supplyId
      rwa [onHand_initialRemaining hconflicts hsupply, max_eq_right supply.quantity_nonneg] at hle
    · intro before line after hsplit
      obtain ⟨left', hdraws', hlaw⟩ := hlines before line after hsplit
      refine ⟨hlaw.within, hlaw.net, fun hnet supply hsupply heligible => ?_⟩
      have hstart := onHand_initialRemaining hconflicts hsupply
      have hempty := hlaw.emptied hnet supply hsupply heligible
      have hnonneg := hdraws'.onHand_nonneg (hstart ▸ supply.quantity_nonneg)
      have hbooks := hdraws'.onHand_add_taken supply.supplyId
      rwa [le_antisymm hempty hnonneg, zero_add, hstart] at hbooks

theorem two_pos_of_given (q : ℚ) (h : some 2 = some q) : 0 < q := by
  cases h
  norm_num

theorem absent_pos (q : ℚ) (h : none = some q) : 0 < q := by
  cases h

theorem five_nonneg : (0 : ℚ) ≤ 5 := by norm_num

def twoTables : NeedLine where
  lineId := "1"
  nomenclatureId := "table"
  nomenclatureName := "table"
  characteristicId := none
  unit := some "шт"
  productQuantity := some 2
  directQuantity := none
  requiredDate := some ⟨0, some 0⟩
  projectId := none
  productionStageId := none
  productionStageName := none
  warehouseId := none
  stageCannotStartWithoutMaterial := false
  acceptableAnalogAvailable := none
  criticalProductionOrder := false
  sectionStopRisk := false
  longLeadTime := false
  procurementLeadDays := none
  product_pos := two_pos_of_given
  direct_pos := absent_pos
  quantity_given := .inl rfl

def tableSpecification : ResourceSpecification where
  specificationId := "T1"
  name := "table"
  version := none
  status := "active"
  deletionMark := false
  validFrom := none
  validTo := none
  productId := "table"
  productCharacteristicId := none
  approved := true
  completenessScore := 1
  materials := [⟨"1", "bolt", "bolt", none, some "шт", 4, 0, some "A", none, none, by norm_num,
    le_rfl⟩]
  evidenceId := none

def boltRow : SupplyItem where
  supplyId := "S1"
  sourceType := .warehouse
  nomenclatureId := "bolt"
  characteristicId := none
  unit := "шт"
  quantity := 5
  warehouseId := none
  availableAt := none
  confirmed := true
  reservedForOther := false
  safetyStockForbidden := false
  incomingControlPassed := true
  quarantine := false
  defective := false
  blocked := false
  expired := false
  suitable := true
  exactMatch := true
  useAllowed := true
  linkedDocumentNumber := none
  linkedDocumentRef := none
  evidenceId := none
  quantity_nonneg := five_nonneg

/-- Of the eight bolts for two tables the warehouse gives its five. -/
theorem calculateEngineerAssessment_conserves_bolts :
    ∃ output, calculateEngineerAssessment id ⟨"R1", some "open", some "W1", none, some "O1", none⟩
        [twoTables] [tableSpecification] [boltRow] [] ⟨0, some 0⟩ = some output ∧
      output.positions.length = 1 ∧
      takenUnder "S1" (allocatedLog output.positions) ≤ 5 := by
  obtain ⟨output, houtput, hlength⟩ : ∃ output, calculateEngineerAssessment id
      ⟨"R1", some "open", some "W1", none, some "O1", none⟩ [twoTables] [tableSpecification]
      [boltRow] [] ⟨0, some 0⟩ = some output ∧ output.positions.length = 1 := by
    have hsome : (calculateEngineerAssessment id
        ⟨"R1", some "open", some "W1", none, some "O1", none⟩ [twoTables] [tableSpecification]
        [boltRow] [] ⟨0, some 0⟩).any (fun output => output.positions.length = 1) = true := by
      decide +kernel
    obtain ⟨output, houtput, hlength⟩ := (Option.any_eq_true _ _).mp hsome
    exact ⟨output, houtput, of_decide_eq_true hlength⟩
  exact ⟨output, houtput, hlength, (calculateEngineerAssessment_conserves _ _ _ _ _ _ _ output
    houtput).1 boltRow (List.mem_singleton_self boltRow)⟩

end AgentBack.Engineer
