import AgentBack.Base.Pulling
import AgentBack.Laws.Supply.Engineer

/-!
# Copies of supplies

A supply that is passed more than once is drawn from once: what a position takes depends on the set
of the supplies and not on their list (`drawSupplies_eq_pullAll`). The stock before a position is a
sum over the list, so a copy of a supply that still has something is counted again there
(`calculateEngineerAssessment_copies_iff`).
-/

namespace AgentBack.Engineer

open Procurement (DateTime)
open Supply (instant momentKey comparable)

theorem AllAlike.of_mem_iff {supplies supplies' : List SupplyItem} (h : AllAlike supplies)
    (hmem : ∀ supply, supply ∈ supplies' ↔ supply ∈ supplies) : AllAlike supplies' :=
  fun a ha b hb => h a ((hmem a).mp ha) b ((hmem b).mp hb)

section Facts

variable {a b : SupplyItem} (h : a.facts = b.facts)

include h

theorem sourceType_of_facts : a.sourceType = b.sourceType :=
  congrArg (fun facts => facts.1.sourceType) h

theorem nomenclatureId_of_facts : a.nomenclatureId = b.nomenclatureId :=
  congrArg (fun facts => facts.1.nomenclatureId) h

theorem isFree_of_facts (case : CaseInput) : a.isFree case = b.isFree case :=
  congrArg (fun facts => facts.1.isFree case) h

theorem exclusionReason_of_facts (material : Material) (date : DateTime) :
    exclusionReason a material date = exclusionReason b material date := by
  have hlate : (a.availableAt.any fun at_ => decide (instant date < instant at_)) =
      b.availableAt.any fun at_ => decide (instant date < instant at_) := by
    have hmap (value : Option DateTime) :
        (value.any fun at_ => decide (instant date < instant at_)) =
          (value.map momentKey).any fun key => decide (instant date < key.2) := by
      cases value <;> rfl
    rw [hmap, hmap]
    exact congrArg (fun facts => facts.2.any fun key => decide (instant date < key.2)) h
  have hrest : ({ a with availableAt := none } : SupplyItem) = { b with availableAt := none } :=
    (Prod.mk.inj h).1
  cases a
  cases b
  simp only [SupplyItem.mk.injEq] at hrest
  obtain ⟨rfl, rfl, rfl, rfl, rfl, rfl, rfl, -, rfl, rfl, rfl, rfl, rfl, rfl, rfl, rfl, rfl, rfl,
    rfl, rfl, rfl, rfl⟩ := hrest
  unfold exclusionReason
  dsimp only at hlate ⊢
  rw [hlate]

end Facts

def canDraw (material : Material) (date : DateTime) (supply : SupplyItem) : Bool :=
  decide (supply.nomenclatureId = material.nomenclatureId) &&
    decide (exclusionReason supply material date = none)

/-- The state of the loop over the supplies, as a demand. -/
def DrawState.pulling (gross : ℚ) (s : DrawState) : Pulling String ℚ where
  hand := onHand s.remaining
  left := gross - s.taken
  log := s.included.map fun item => (item.1.supplyId, item.2)

variable {material : Material} {date : DateTime} {gross : ℚ}

/-- The loop over the supplies is the demand over the ids of those that it may draw from. -/
theorem drawSupplies_eq_pullAll (rows : List SupplyItem) (s : DrawState) :
    (drawSupplies material date gross rows s).pulling gross =
      (s.pulling gross).pullAll
        ((rows.filter (canDraw material date)).map SupplyItem.supplyId) := by
  induction rows generalizing s with
  | nil => rfl
  | cons supply rest ih =>
    unfold drawSupplies
    split
    · next hnom =>
      rw [List.filter_cons_of_neg (by simp [canDraw, hnom]), ih]
    · next hnom =>
      split
      · next reason hreason =>
        rw [List.filter_cons_of_neg (by simp [canDraw, hreason]), ih]
        rfl
      · next hreason =>
        rw [List.filter_cons_of_pos (by simp [canDraw, not_not.mp hnom, hreason]), List.map_cons,
          Pulling.pullAll_cons]
        dsimp only
        split
        · next hempty =>
          rw [ih, Pulling.pull_of_sated (.inr hempty)]
          rfl
        · next hsome =>
          split
          · next hdone =>
            have hleft : (s.pulling gross).left ≤ 0 := le_trans (le_max_right 0 _) hdone
            rw [Pulling.pull_of_sated (.inl hleft), Pulling.pullAll_of_left_nonpos hleft]
          · next hneeded =>
            have hleft : 0 < gross - s.taken :=
              (lt_max_iff.mp (not_le.mp hneeded)).resolve_left (lt_irrefl 0)
            rw [ih, max_eq_right hleft.le]
            congr 1
            unfold Pulling.pull
            rw [if_pos ⟨hleft, not_le.mp hsome⟩]
            unfold DrawState.pulling DrawState.taken
            dsimp only
            congr 1
            · funext id
              rw [onHand_set, Function.update_apply]
              by_cases hid : id = supply.supplyId
              · rw [if_pos hid.symm, if_pos hid]
                rfl
              · rw [if_neg (Ne.symm hid), if_neg hid]
            · rw [List.map_append, List.sum_append, List.map_singleton, List.sum_singleton, sub_sub]
              rfl
            · rw [List.map_append, List.map_singleton]
              rfl

theorem mem_of_mem_included {rows : List SupplyItem} {s : DrawState} {item : SupplyItem × ℚ}
    (h : item ∈ (drawSupplies material date gross rows s).included) :
    item ∈ s.included ∨ item.1 ∈ rows := by
  induction rows generalizing s with
  | nil => exact .inl h
  | cons supply rest ih =>
    have hlater (s' : DrawState) (hsame : s'.included = s.included)
        (hin : item ∈ (drawSupplies material date gross rest s').included) :
        item ∈ s.included ∨ item.1 ∈ supply :: rest := by
      rw [← hsame]
      exact (ih hin).imp_right (List.mem_cons_of_mem _)
    unfold drawSupplies at h
    split at h
    · exact hlater s rfl h
    · split at h
      · next reason _ => exact hlater (s.exclude supply reason) rfl h
      · dsimp only at h
        split at h
        · exact hlater (s.exclude supply .alreadyAllocated) rfl h
        · split at h
          · exact .inl h
          · rcases ih h with hin | hin
            · rcases List.mem_append.mp hin with hin | hin
              · exact .inl hin
              · rw [List.mem_singleton.mp hin]
                exact .inr (.head _)
            · exact .inr (.tail _ hin)

/-- Whether a supply under the id passes a test. -/
def passes (supplies : List SupplyItem) (test : SupplyItem → Bool) (id : String) : Bool :=
  supplies.any fun supply => decide (supply.supplyId = id) && test supply

def logSum (test : String → Bool) (log : List (String × ℚ)) : ℚ :=
  ((log.filter fun entry => test entry.1).map Prod.snd).sum

theorem passes_eq {supplies : List SupplyItem} (halike : AllAlike supplies)
    {test : SupplyItem → Bool} (htest : ∀ a b : SupplyItem, a.facts = b.facts → test a = test b)
    {supply : SupplyItem} (hsupply : supply ∈ supplies) :
    passes supplies test supply.supplyId = test supply := by
  rw [Bool.eq_iff_iff, passes, List.any_eq_true]
  simp only [Bool.and_eq_true, decide_eq_true_eq]
  constructor
  · rintro ⟨other, hother, hid, hpasses⟩
    rwa [htest other supply (halike other hother supply hsupply hid)] at hpasses
  · exact fun hpasses => ⟨supply, hsupply, rfl, hpasses⟩

theorem passes_of_mem_iff {supplies supplies' : List SupplyItem}
    (hmem : ∀ supply, supply ∈ supplies' ↔ supply ∈ supplies) (test : SupplyItem → Bool) :
    passes supplies' test = passes supplies test := by
  funext id
  rw [Bool.eq_iff_iff, passes, passes, List.any_eq_true, List.any_eq_true]
  simp only [hmem]

/-- A sum over what is included is one over the ids of the draws. -/
theorem includedSum_eq_logSum {supplies : List SupplyItem} (halike : AllAlike supplies)
    {test : SupplyItem → Bool} (htest : ∀ a b : SupplyItem, a.facts = b.facts → test a = test b)
    {included : List (SupplyItem × ℚ)} (hincluded : ∀ item ∈ included, item.1 ∈ supplies) :
    includedSum test included = logSum (passes supplies test)
      (included.map fun item => (item.1.supplyId, item.2)) := by
  induction included with
  | nil => rfl
  | cons item rest ih =>
    obtain ⟨hitem, hrest⟩ := List.forall_mem_cons.mp hincluded
    have ih := ih hrest
    have hpasses := passes_eq halike htest hitem
    unfold includedSum logSum at ih ⊢
    rw [List.map_cons, List.filter_cons, List.filter_cons]
    dsimp only
    rw [hpasses]
    split
    · rw [List.map_cons, List.map_cons, List.sum_cons, List.sum_cons, ih]
    · exact ih

theorem givenBy_foldl (included : List (SupplyItem × ℚ)) (d : Dict SourceType SupplyBreakdown)
    (sourceType : SourceType) :
    givenBy (included.foldl addBreakdown d) sourceType = givenBy d sourceType +
      includedSum (fun supply => decide (supply.sourceType = sourceType)) included := by
  induction included generalizing d with
  | nil => simp [includedSum]
  | cons item rest ih =>
    rw [List.foldl_cons, ih]
    unfold includedSum givenBy addBreakdown Dict.getD
    rw [List.filter_cons, Dict.get?_set]
    by_cases htype : item.1.sourceType = sourceType
    · subst htype
      simp [add_assoc]
    · rw [if_neg htype, if_neg (by simpa using htype)]

/-! ## One position -/

structure Figures where
  gross : ℚ
  net : ℚ
  available : ℚ
  stockBefore : ℚ
  stockUsed : ℚ
  stockRemaining : ℚ

def AssessmentLine.figures (line : AssessmentLine) : Figures where
  gross := line.grossRequirement
  net := line.netRequirement
  available := line.totalAvailableSupply
  stockBefore := line.warehouseStockBefore
  stockUsed := line.freeStock
  stockRemaining := line.warehouseStockRemaining

/-- Whether the stock before a position counts a supply. -/
def counts (case : CaseInput) (material : Material) (date : DateTime) (supply : SupplyItem) :
    Bool :=
  decide (supply.nomenclatureId = material.nomenclatureId) && supply.isFree case &&
    decide (exclusionReason supply material date = none)

def stockBefore (case : CaseInput) (supplies : List SupplyItem) (hand : String → ℚ)
    (material : Material) (date : DateTime) : ℚ :=
  ((supplies.filter (counts case material date)).map fun supply => hand supply.supplyId).sum

def Requirement.requiredOn (case : CaseInput) (requirement : Requirement) : Option DateTime :=
  requirement.need.requiredDate <|> case.requiredDate

def drawIds (material : Material) (date : DateTime) (rows : List SupplyItem) : List String :=
  (rows.filter (canDraw material date)).map SupplyItem.supplyId

def demandOf (hand : String → ℚ) (gross : ℚ) (ids : List String) : Pulling String ℚ :=
  (⟨hand, gross, []⟩ : Pulling String ℚ).pullAll ids

/-- Whether a demand has drawn from a confirmed future supply. -/
def drawsFuture (supplies : List SupplyItem) (log : List (String × ℚ)) : Bool :=
  futureSupplyTypes.any fun sourceType =>
    decide (logSum (passes supplies fun supply => decide (supply.sourceType = sourceType)) log > 0)

def ratingOf (supplies : List SupplyItem) (now : DateTime) (hand : String → ℚ)
    (requirement : Requirement) (date : DateTime) (rows : List SupplyItem) : Option Criticality :=
  let demand := demandOf hand requirement.gross (drawIds requirement.material date rows)
  criticality requirement.need (max 0 demand.left) now date (drawsFuture supplies demand.log)

structure Positioned (case : CaseInput) (supplies : List SupplyItem) (hand : String → ℚ)
    (requirement : Requirement) (date : DateTime) (rows : List SupplyItem)
    (line : AssessmentLine) (left : Dict String ℚ) : Prop where
  figures : line.figures =
    let demand := demandOf hand requirement.gross (drawIds requirement.material date rows)
    let before := stockBefore case supplies hand requirement.material date
    let used := logSum (passes supplies fun supply => supply.isFree case) demand.log
    { gross := requirement.gross
      net := max 0 demand.left
      available := requirement.gross - demand.left
      stockBefore := before
      stockUsed := used
      stockRemaining := max 0 (before - used) }
  left : onHand left =
    (demandOf hand requirement.gross (drawIds requirement.material date rows)).hand

variable {case : CaseInput} {supplies : List SupplyItem} {now : DateTime}

/-- The sums of the loop over the supplies, as those of its demand. -/
theorem drawn_sums (halike : AllAlike supplies) {rows : List SupplyItem}
    (hrows : ∀ supply ∈ rows, supply ∈ supplies) (remaining : Dict String ℚ) :
    let drawn := drawSupplies material date gross rows ⟨remaining, [], []⟩
    let demand := demandOf (onHand remaining) gross (drawIds material date rows)
    (drawn.included.map Prod.snd).sum = gross - demand.left ∧ onHand drawn.remaining = demand.hand ∧
      (∀ test : SupplyItem → Bool, (∀ a b : SupplyItem, a.facts = b.facts → test a = test b) →
        includedSum test drawn.included = logSum (passes supplies test) demand.log) := by
  have hpull := @drawSupplies_eq_pullAll material date gross rows ⟨remaining, [], []⟩
  have hstart :
      (⟨remaining, [], []⟩ : DrawState).pulling gross = ⟨onHand remaining, gross, []⟩ := by
    unfold DrawState.pulling DrawState.taken
    simp
  rw [hstart] at hpull
  dsimp only
  unfold demandOf drawIds
  rw [← hpull]
  refine ⟨?_, rfl, fun test htest => ?_⟩
  · unfold DrawState.pulling DrawState.taken
    dsimp only
    rw [sub_sub_cancel]
  · refine includedSum_eq_logSum halike htest fun item hitem => ?_
    rcases mem_of_mem_included hitem with hnone | hrow
    · cases hnone
    · exact hrows _ hrow

theorem rows_of_sortSupplies {rows : List SupplyItem}
    (h : sortSupplies case now supplies = some rows) :
    rows = sortBy (supplyOrder case now) supplies := by
  unfold sortSupplies at h
  dsimp only at h
  split at h
  · exact (Option.some.inj h).symm
  · cases h

/-- What an assessment computes from the draws, in terms of the demand. -/
theorem breakdown_sums (halike : AllAlike supplies) {rows : List SupplyItem}
    (hrows : ∀ supply ∈ rows, supply ∈ supplies) (remaining : Dict String ℚ) :
    let drawn := drawSupplies material date gross rows ⟨remaining, [], []⟩
    let demand := demandOf (onHand remaining) gross (drawIds material date rows)
    let breakdown := drawn.included.foldl addBreakdown ∅
    (breakdown.values.map SupplyBreakdown.quantity).sum = gross - demand.left ∧
      (futureSupplyTypes.any fun sourceType => decide (givenBy breakdown sourceType > 0)) =
        drawsFuture supplies demand.log := by
  obtain ⟨htaken, -, hsum⟩ := @drawn_sums material date gross supplies halike rows hrows remaining
  dsimp only at htaken hsum ⊢
  constructor
  · rw [sum_breakdown, htaken]
    exact zero_add _
  · unfold drawsFuture
    congr 1
    funext sourceType
    rw [givenBy_foldl, hsum _ fun a b h => by rw [sourceType_of_facts h]]
    rw [show givenBy ∅ sourceType = 0 from rfl, zero_add]

theorem positioned_of_assessRequirement (halike : AllAlike supplies)
    {remaining left : Dict String ℚ} {requirement : Requirement} {line : AssessmentLine}
    (h : assessRequirement case supplies now remaining requirement = some (line, left)) :
    ∃ date rows, requirement.requiredOn case = some date ∧
      sortSupplies case now supplies = some rows ∧
      Positioned case supplies (onHand remaining) requirement date rows line left ∧
      ratingOf supplies now (onHand remaining) requirement date rows = some line.criticality := by
  unfold assessRequirement at h
  obtain ⟨date, hdate, h⟩ := Option.bind_eq_some_iff.mp h
  obtain ⟨rows, hrows, h⟩ := Option.bind_eq_some_iff.mp h
  obtain ⟨rating, hrating, h⟩ := Option.bind_eq_some_iff.mp h
  cases h
  have hmem : ∀ supply ∈ rows, supply ∈ supplies := by
    rw [rows_of_sortSupplies hrows]
    exact fun supply => mem_sortBy.mp
  obtain ⟨-, hhand, hsum⟩ := @drawn_sums requirement.material date requirement.gross supplies
    halike rows hmem remaining
  obtain ⟨htotal, hfuture⟩ := @breakdown_sums requirement.material date requirement.gross
    supplies halike rows hmem remaining
  rw [htotal, sub_sub_cancel, hfuture] at hrating
  refine ⟨date, rows, hdate, hrows, ⟨?_, hhand⟩, hrating⟩
  unfold AssessmentLine.figures
  dsimp only
  rw [htotal, sub_sub_cancel, hsum _ fun a b h => isFree_of_facts h case]
  rfl

/-- A position with a date, rows and a rating is assessed. -/
theorem exists_assessRequirement (halike : AllAlike supplies) (remaining : Dict String ℚ)
    {requirement : Requirement} {date : DateTime} {rows : List SupplyItem}
    (hdate : requirement.requiredOn case = some date)
    (hrows : sortSupplies case now supplies = some rows)
    {rating : Criticality}
    (hrating : ratingOf supplies now (onHand remaining) requirement date rows = some rating) :
    ∃ line left, assessRequirement case supplies now remaining requirement = some (line, left) := by
  have hmem : ∀ supply ∈ rows, supply ∈ supplies := by
    rw [rows_of_sortSupplies hrows]
    exact fun supply => mem_sortBy.mp
  obtain ⟨htotal, hfuture⟩ := @breakdown_sums requirement.material date requirement.gross
    supplies halike rows hmem remaining
  unfold ratingOf at hrating
  have hsome : (assessRequirement case supplies now remaining requirement).isSome := by
    unfold assessRequirement
    unfold Requirement.requiredOn at hdate
    dsimp only
    rw [hdate, hrows]
    dsimp only [Option.bind_some, bind, pure]
    rw [htotal, sub_sub_cancel, hfuture, hrating]
    rfl
  obtain ⟨⟨line, left⟩, h⟩ := Option.isSome_iff_exists.mp hsome
  exact ⟨line, left, h⟩

/-- Rows in the order of the supplies are gone through alike when they are the same supplies. -/
theorem demandOf_of_mem_iff {supplies' : List SupplyItem}
    (hmem : ∀ supply, supply ∈ supplies' ↔ supply ∈ supplies) (hand : String → ℚ) :
    demandOf hand gross (drawIds material date (sortBy (supplyOrder case now) supplies')) =
      demandOf hand gross (drawIds material date (sortBy (supplyOrder case now) supplies)) := by
  have hids (rows : List SupplyItem) : drawIds material date rows =
      ((rows.filter (canDraw material date)).map (supplyOrder case now)).map
        fun order => (ofLex (ofLex order).2).2 := by
    rw [List.map_map]
    rfl
  have hsorted (rows : List SupplyItem) :
      (((sortBy (supplyOrder case now) rows).filter (canDraw material date)).map
        (supplyOrder case now)).Pairwise (· ≤ ·) :=
    List.pairwise_map.mpr ((pairwise_sortBy _ rows).filter _)
  unfold demandOf
  rw [hids, hids]
  refine Pulling.pullAll_eq_of_mem_iff (hsorted _) (hsorted _) (fun order => ?_) _
  simp only [List.mem_map, List.mem_filter, mem_sortBy, hmem]

theorem sortSupplies_of_mem_iff {supplies' rows : List SupplyItem}
    (hmem : ∀ supply, supply ∈ supplies' ↔ supply ∈ supplies)
    (h : sortSupplies case now supplies = some rows) :
    sortSupplies case now supplies' = some (sortBy (supplyOrder case now) supplies') := by
  unfold sortSupplies at h ⊢
  dsimp only at h ⊢
  split at h
  · next hcomparable =>
    refine if_pos ?_
    simpa only [comparable, Bool.or_eq_true, List.all_eq_true, List.mem_map, List.mem_filter,
      forall_exists_index, and_imp, hmem] using hcomparable
  · cases h

/-- A position over the same supplies is drawn alike; its figures are the same when the stock before
it is. -/
theorem assessRequirement_of_mem_iff (halike : AllAlike supplies) {supplies' : List SupplyItem}
    (hmem : ∀ supply, supply ∈ supplies' ↔ supply ∈ supplies)
    {remaining remaining' left : Dict String ℚ} (hhand : onHand remaining' = onHand remaining)
    {requirement : Requirement} {line : AssessmentLine}
    (h : assessRequirement case supplies now remaining requirement = some (line, left)) :
    ∃ date line' left', requirement.requiredOn case = some date ∧
      assessRequirement case supplies' now remaining' requirement = some (line', left') ∧
      onHand left' = onHand left ∧
      { line'.figures with stockBefore := 0, stockRemaining := 0 } =
        { line.figures with stockBefore := 0, stockRemaining := 0 } ∧
      (line'.figures = line.figures ↔
        stockBefore case supplies' (onHand remaining) requirement.material date =
          stockBefore case supplies (onHand remaining) requirement.material date) ∧
      onHand left = (demandOf (onHand remaining) requirement.gross
        (drawIds requirement.material date (sortBy (supplyOrder case now) supplies))).hand := by
  obtain ⟨date, rows, hdate, hrows, hposition, hrating⟩ := positioned_of_assessRequirement halike h
  have halike' := halike.of_mem_iff hmem
  have hrows' := sortSupplies_of_mem_iff hmem hrows
  obtain rfl := rows_of_sortSupplies hrows
  have hrating' : ratingOf supplies' now (onHand remaining') requirement date
      (sortBy (supplyOrder case now) supplies') = some line.criticality := by
    unfold ratingOf drawsFuture at hrating ⊢
    simp only [hhand, demandOf_of_mem_iff hmem, passes_of_mem_iff hmem]
    exact hrating
  obtain ⟨line', left', h'⟩ := exists_assessRequirement halike' remaining' hdate hrows' hrating'
  obtain ⟨date', rows', hdate', hsort', hposition', -⟩ := positioned_of_assessRequirement halike' h'
  cases hdate.symm.trans hdate'
  cases hrows'.symm.trans hsort'
  have hfigures' := hposition'.figures
  rw [hhand, demandOf_of_mem_iff hmem, passes_of_mem_iff hmem] at hfigures'
  refine ⟨date, line', left', hdate, h', ?_, ?_, ?_, hposition.left⟩
  · rw [hposition'.left, hposition.left, hhand, demandOf_of_mem_iff hmem]
  · rw [hfigures', hposition.figures]
  · rw [hfigures', hposition.figures]
    simp only [Figures.mk.injEq, true_and]
    constructor
    · exact fun hsame => hsame.1
    · intro hsame
      rw [hsame]
      exact ⟨rfl, rfl⟩

theorem stockBefore_perm {supplies' copies : List SupplyItem}
    (hperm : supplies'.Perm (supplies ++ copies)) (hand : String → ℚ) :
    stockBefore case supplies' hand material date =
      stockBefore case supplies hand material date +
        stockBefore case copies hand material date := by
  unfold stockBefore
  rw [((hperm.filter _).map _).sum_eq, List.filter_append, List.map_append, List.sum_append]

theorem stockBefore_eq_zero_iff {copies : List SupplyItem} {hand : String → ℚ}
    (hnonneg : ∀ supply ∈ copies, 0 ≤ hand supply.supplyId) :
    stockBefore case copies hand material date = 0 ↔
      ∀ supply ∈ copies, counts case material date supply = true → hand supply.supplyId = 0 := by
  unfold stockBefore
  induction copies with
  | nil => simp
  | cons supply rest ih =>
    obtain ⟨hsupply, hrest⟩ := List.forall_mem_cons.mp hnonneg
    have ih := ih hrest
    have hsum : 0 ≤ ((rest.filter (counts case material date)).map
        fun supply => hand supply.supplyId).sum :=
      List.sum_nonneg (List.forall_mem_map.mpr fun other hother =>
        hrest other (List.mem_of_mem_filter hother))
    rw [List.filter_cons, List.forall_mem_cons, ← ih]
    split
    · next hcounts =>
      rw [List.map_cons, List.sum_cons, imp_iff_right hcounts]
      constructor
      · intro hzero
        constructor <;> linarith
      · rintro ⟨hhand, hothers⟩
        rw [hhand, hothers, add_zero]
    · next hcounts => exact (and_iff_right fun h => absurd h hcounts).symm

/-- A free supply that a position does not count is not drawn from there. -/
theorem hand_of_not_counts (halike : AllAlike supplies) {supply : SupplyItem}
    (hsupply : supply ∈ supplies) (hfree : supply.isFree case = true)
    (hcounts : counts case material date supply = false) (hand : String → ℚ) (gross : ℚ) :
    (demandOf hand gross (drawIds material date
      (sortBy (supplyOrder case now) supplies))).hand supply.supplyId = hand supply.supplyId := by
  refine Pulling.hand_pullAll_of_not_mem fun hmem => ?_
  obtain ⟨other, hother, hid⟩ := List.mem_map.mp hmem
  obtain ⟨hrow, hdraws⟩ := List.mem_filter.mp hother
  have hfacts := halike other (mem_sortBy.mp hrow) supply hsupply hid
  unfold counts at hcounts
  unfold canDraw at hdraws
  rw [nomenclatureId_of_facts hfacts, exclusionReason_of_facts hfacts] at hdraws
  simp only [Bool.and_eq_true, decide_eq_true_eq] at hdraws
  simp [hdraws.1, hdraws.2, hfree] at hcounts

/-- A position whose stock counts a supply. -/
def CountedBy (case : CaseInput) (requirement : Requirement) (supply : SupplyItem) : Prop :=
  ∃ date, requirement.requiredOn case = some date ∧
    counts case requirement.material date supply = true

/-- The positions of a run over copies are drawn alike, and their figures are the same exactly when
each copy has nothing or is counted by no position. -/
theorem assessRequirements_copies (halike : AllAlike supplies) {supplies' copies : List SupplyItem}
    (hcopies : ∀ supply ∈ copies, supply ∈ supplies)
    (hperm : supplies'.Perm (supplies ++ copies)) {requirements : List Requirement}
    {remaining remaining' : Dict String ℚ} (hhand : onHand remaining' = onHand remaining)
    (hnonneg : ∀ supply ∈ copies, 0 ≤ onHand remaining supply.supplyId)
    {positions : List AssessmentLine}
    (h : assessRequirements case supplies now remaining requirements = some positions) :
    ∃ positions', assessRequirements case supplies' now remaining' requirements = some positions' ∧
      (positions'.map fun line =>
        { line.figures with stockBefore := 0, stockRemaining := 0 }) =
          (positions.map fun line =>
            { line.figures with stockBefore := 0, stockRemaining := 0 }) ∧
      (positions'.map AssessmentLine.figures = positions.map AssessmentLine.figures ↔
        ∀ supply ∈ copies, onHand remaining supply.supplyId = 0 ∨
          ∀ requirement ∈ requirements, ¬ CountedBy case requirement supply) := by
  have hmem : ∀ supply, supply ∈ supplies' ↔ supply ∈ supplies := by
    intro supply
    rw [hperm.mem_iff, List.mem_append]
    exact or_iff_left_of_imp (hcopies supply)
  induction requirements generalizing remaining remaining' positions with
  | nil =>
    cases h
    exact ⟨[], rfl, rfl, by simp⟩
  | cons requirement rest ih =>
    obtain ⟨line, left, later, hdone, hlater, rfl⟩ := assessRequirements_cons h
    obtain ⟨date, line', left', hdate, hdone', hleft, hdrawn, hfigures, hdemand⟩ :=
      assessRequirement_of_mem_iff halike hmem hhand hdone
    have hkept : ∀ supply ∈ copies, 0 ≤ onHand left supply.supplyId := by
      intro supply hsupply
      rw [hdemand]
      exact Pulling.hand_pullAll_nonneg (hnonneg supply hsupply)
    obtain ⟨later', hlater', hdrawnLater, hfiguresLater⟩ := ih hleft hkept hlater
    refine ⟨line' :: later', ?_, ?_, ?_⟩
    · unfold assessRequirements
      rw [hdone']
      dsimp only [Option.bind_some, bind, pure]
      rw [hlater']
      rfl
    · rw [List.map_cons, List.map_cons, hdrawn, hdrawnLater]
    · rw [List.map_cons, List.map_cons, List.cons.injEq, hfigures, hfiguresLater,
        stockBefore_perm hperm, add_eq_left, stockBefore_eq_zero_iff hnonneg]
      have hcounted (supply : SupplyItem) : CountedBy case requirement supply ↔
          counts case requirement.material date supply = true := by
        unfold CountedBy
        simp [hdate]
      rw [← forall₂_and]
      refine forall₂_congr fun supply hsupply => ?_
      rw [List.forall_mem_cons, hcounted]
      have hle : onHand left supply.supplyId ≤ onHand remaining supply.supplyId := by
        rw [hdemand]
        exact Pulling.hand_pullAll_le _ _ _
      constructor
      · rintro ⟨hhere, hthere⟩
        by_cases hcounts : counts case requirement.material date supply = true
        · exact .inl (hhere hcounts)
        by_cases hfree : supply.isFree case = true
        · have hsame : onHand left supply.supplyId = onHand remaining supply.supplyId := by
            rw [hdemand]
            exact hand_of_not_counts halike (hcopies supply hsupply) hfree
              (Bool.eq_false_iff.mpr hcounts) _ _
          rw [hsame] at hthere
          exact hthere.imp_right fun hnever => ⟨hcounts, hnever⟩
        · refine .inr ⟨hcounts, fun other _ hin => ?_⟩
          obtain ⟨_, -, hin⟩ := hin
          simp [counts, hfree] at hin
      · rintro (hzero | ⟨hnot, hnever⟩)
        · exact ⟨fun _ => hzero, .inl (le_antisymm (hle.trans_eq hzero) (hkept supply hsupply))⟩
        · exact ⟨fun hin => absurd hin hnot, .inr hnever⟩

theorem onHand_initialRemaining_of_mem_iff (halike : AllAlike supplies)
    {supplies' : List SupplyItem} (hmem : ∀ supply, supply ∈ supplies' ↔ supply ∈ supplies) :
    onHand (initialRemaining supplies') = onHand (initialRemaining supplies) := by
  have hconflicts := conflictingSupplies_of_alike halike
  have hconflicts' := conflictingSupplies_of_alike (halike.of_mem_iff hmem)
  funext id
  by_cases hin : ∃ supply ∈ supplies, supply.supplyId = id
  · obtain ⟨supply, hsupply, rfl⟩ := hin
    rw [onHand_initialRemaining hconflicts hsupply,
      onHand_initialRemaining hconflicts' ((hmem supply).mpr hsupply)]
  · have habsent (items : List SupplyItem) (hitems : ¬ ∃ supply ∈ items, supply.supplyId = id) :
        onHand (initialRemaining items) id = 0 := by
      unfold onHand Dict.getD
      cases hget : (initialRemaining items).get? id with
      | none => rfl
      | some quantity =>
        obtain ⟨supply, hsupply, heq⟩ := List.mem_map.mp (Dict.mem_of_get?_ofList hget)
        exact absurd ⟨supply, hsupply, congrArg Prod.fst heq⟩ hitems
    rw [habsent supplies hin, habsent supplies' (by simpa only [hmem] using hin)]

/-- **Copies of supplies.** With copies of some supplies among the supplies, in any place, the
gross, the net and the available quantity and the used stock of every position stay as they are; so
do the stock before it and what remains of that, for all positions, exactly when each copy is of a
supply of nothing or of one that no position counts. -/
theorem calculateEngineerAssessment_copies_iff (casefold : String → String) (case : CaseInput)
    (needs : List NeedLine) (specifications : List ResourceSpecification)
    (supplies supplies' copies : List SupplyItem) (capabilityIssues : List String) (now : DateTime)
    (selection : List Supply.ValidationIssue × List Selected) (output : EngineerOutput)
    (hcopies : ∀ supply ∈ copies, supply ∈ supplies) (hperm : supplies'.Perm (supplies ++ copies))
    (hselection : selectSpecifications casefold case specifications now needs = some selection)
    (hvalid :
      validateCase casefold case needs ++ selection.1 ++ conflictingSupplies ∅ supplies = [])
    (h : calculateEngineerAssessment casefold case needs specifications supplies capabilityIssues
      now = some output) :
    ∃ output', calculateEngineerAssessment casefold case needs specifications supplies'
        capabilityIssues now = some output' ∧
      (output'.positions.map fun line =>
        { line.figures with stockBefore := 0, stockRemaining := 0 }) =
          (output.positions.map fun line =>
            { line.figures with stockBefore := 0, stockRemaining := 0 }) ∧
      (output'.positions.map AssessmentLine.figures = output.positions.map AssessmentLine.figures ↔
        ∀ supply ∈ copies, supply.quantity = 0 ∨
          ∀ requirement ∈ aggregateSelectedRequirements selection.2 (case.requiredDate.getD now),
            ¬ CountedBy case requirement supply) := by
  obtain ⟨hbefore, hconflicts⟩ := List.append_eq_nil_iff.mp hvalid
  have halike := (conflictingSupplies_eq_nil_iff.mp hconflicts).2
  have hmem : ∀ supply, supply ∈ supplies' ↔ supply ∈ supplies := by
    intro supply
    rw [hperm.mem_iff, List.mem_append]
    exact or_iff_left_of_imp (hcopies supply)
  have hconflicts' := conflictingSupplies_of_alike (halike.of_mem_iff hmem)
  unfold calculateEngineerAssessment at h ⊢
  rw [hselection] at h ⊢
  dsimp only [Option.bind_some, bind, pure] at h ⊢
  rw [hbefore, List.nil_append] at h ⊢
  rw [if_neg (not_not.mpr hconflicts)] at h
  rw [if_neg (not_not.mpr hconflicts')]
  obtain ⟨requirements, hsorted, h⟩ := Option.bind_eq_some_iff.mp h
  obtain ⟨positions, hpositions, h⟩ := Option.bind_eq_some_iff.mp h
  cases h
  have hstart {supply : SupplyItem} (hsupply : supply ∈ copies) :
      onHand (initialRemaining supplies) supply.supplyId = supply.quantity :=
    onHand_initialRemaining hconflicts (hcopies supply hsupply)
  have hnonneg : ∀ supply ∈ copies, 0 ≤ onHand (initialRemaining supplies) supply.supplyId := by
    intro supply hsupply
    rw [hstart hsupply]
    exact supply.quantity_nonneg
  obtain ⟨positions', hpositions', hdrawn, hfigures⟩ := assessRequirements_copies halike hcopies
    hperm (onHand_initialRemaining_of_mem_iff halike hmem) hnonneg hpositions
  have hrequirements : ∀ requirement, requirement ∈ requirements ↔ requirement ∈
      aggregateSelectedRequirements selection.2 (case.requiredDate.getD now) := by
    unfold sortRequirements at hsorted
    dsimp only at hsorted
    split at hsorted
    · rw [← Option.some.inj hsorted]
      exact fun requirement => mem_sortBy
    · cases hsorted
  rw [hsorted]
  dsimp only [Option.bind_some]
  rw [hpositions']
  refine ⟨_, rfl, hdrawn, hfigures.trans ?_⟩
  refine forall₂_congr fun supply hsupply => ?_
  rw [hstart hsupply]
  simp only [hrequirements]

def tableCase : CaseInput := ⟨"R1", some "open", some "W1", none, some "O1", none⟩

def noBolts : SupplyItem := { boltRow with quantity := 0, quantity_nonneg := Rat.le_refl }

/-- A supply of no bolts may be passed twice. -/
theorem calculateEngineerAssessment_copies_no_bolts :
    ∃ output output', calculateEngineerAssessment id tableCase [twoTables] [tableSpecification]
        [noBolts] [] ⟨0, some 0⟩ = some output ∧
      calculateEngineerAssessment id tableCase [twoTables] [tableSpecification]
        [noBolts, noBolts] [] ⟨0, some 0⟩ = some output' ∧
      output'.positions.map AssessmentLine.figures =
        output.positions.map AssessmentLine.figures := by
  have hsome : (calculateEngineerAssessment id tableCase [twoTables] [tableSpecification]
      [noBolts] [] ⟨0, some 0⟩).isSome := by decide +kernel
  obtain ⟨output, houtput⟩ := Option.isSome_iff_exists.mp hsome
  have hissues : (selectSpecifications id tableCase [tableSpecification] ⟨0, some 0⟩
      [twoTables]).map (fun selection => validateCase id tableCase [twoTables] ++ selection.1 ++
        conflictingSupplies ∅ [noBolts]) = some [] := by decide +kernel
  obtain ⟨selection, hselection, hvalid⟩ := Option.map_eq_some_iff.mp hissues
  obtain ⟨output', houtput', -, hfigures⟩ := calculateEngineerAssessment_copies_iff id tableCase
    [twoTables] [tableSpecification] [noBolts] [noBolts, noBolts] [noBolts] [] ⟨0, some 0⟩
    selection output (fun supply hsupply => hsupply) (List.Perm.refl _) hselection hvalid houtput
  refine ⟨output, output', houtput, houtput', hfigures.mpr fun supply hsupply => .inl ?_⟩
  rw [List.mem_singleton.mp hsupply]
  rfl

/-- Five bolts passed twice are ten before the position, and five are said to remain when all are
taken. -/
theorem calculateEngineerAssessment_counts_bolts_twice :
    (calculateEngineerAssessment id tableCase [twoTables] [tableSpecification] [boltRow] []
      ⟨0, some 0⟩).map (fun output => output.positions.map fun line =>
        (line.warehouseStockBefore, line.warehouseStockRemaining)) = some [(5, 0)] ∧
    (calculateEngineerAssessment id tableCase [twoTables] [tableSpecification] [boltRow, boltRow] []
      ⟨0, some 0⟩).map (fun output => output.positions.map fun line =>
        (line.warehouseStockBefore, line.warehouseStockRemaining)) = some [(10, 5)] := by
  constructor <;> decide +kernel

end AgentBack.Engineer
