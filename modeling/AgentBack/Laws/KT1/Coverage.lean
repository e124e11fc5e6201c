import AgentBack.Base.FirstWins
import AgentBack.KT1.Coverage
import Mathlib.Tactic.Linarith

/-!
# What a covered need promises

A position is given the quantity of the distinct supplies of its nomenclature that may be counted,
and each position is given all of it: the supplies are not shared out. So a result that says
`covered` promises a supply once for every position of its nomenclature. `keepsPromise_iff` says
for which needs it holds what it says.
-/

namespace AgentBack.KT1

def counts (unit : String) (item : SupplyItem) : Bool :=
  decide (item.unit = unit) && decide (exclusionReason item = none)

def eligibleSupplies (nomenclature : String) (supplies : List SupplyItem) : List SupplyItem :=
  (candidates nomenclature supplies).filter fun item => exclusionReason item = none

def NeedPosition.eligible (position : NeedPosition) (supplies : List SupplyItem) :
    List SupplyItem :=
  (candidates (position.nomenclatureId.getD "") supplies).filter (counts position.unit)

def distinctTotal (items : List SupplyItem) : Rat :=
  firstTotal SupplyItem.supplyId SupplyItem.quantity items

/-- What all positions of a nomenclature need together. -/
def totalRequirement (positions : List NeedPosition) (nomenclature : String) : Rat :=
  ((positions.filter fun position => position.nomenclatureId = some nomenclature).map
    NeedPosition.gross).sum

/-- **No supply is promised twice**: a position is given the distinct supplies that count for it,
and a need that is covered is covered for all its positions together. -/
structure KeepsPromise (input : CoverageInput) (completedAt : Int) : Prop where
  available : List.Forall₂ (fun (position : NeedPosition) coverage =>
    coverage.availableSupply = distinctTotal (position.eligible input.supplies))
    input.positions (calculateCoverage input completedAt).positions
  covered : (calculateCoverage input completedAt).status = .covered → ∀ nomenclature,
    totalRequirement input.positions nomenclature ≤
      distinctTotal (eligibleSupplies nomenclature input.supplies)

/-- No supply that counts is followed by one of the same id with another quantity. -/
def Consistent (items : List SupplyItem) : Prop :=
  items.Pairwise fun first item => exclusionReason first = none → first.supplyId = item.supplyId →
    first.quantity = item.quantity

/-- The position is complete, the data about its supplies agree, and they are enough for it when no
other position is looked at. -/
structure CoveredAlone (supplies : List SupplyItem) (position : NeedPosition) : Prop where
  inputs : position.missesInputs = false
  matched : position.unmatched = false
  units : position.unitsDiffer = false
  unit : ∀ item ∈ candidates (position.nomenclatureId.getD "") supplies, item.unit = position.unit
  consistent : Consistent (candidates (position.nomenclatureId.getD "") supplies)
  enough : position.gross ≤ distinctTotal (position.eligible supplies)

/-! ## The loop over the supplies of a position -/

section Tally

variable (unit : String) (t : Tally) (item : SupplyItem)

/-- The supply does not agree with the one that was counted. -/
def differs (previous item : SupplyItem) : Bool :=
  decide (previous.quantity ≠ item.quantity ∨ previous.unit ≠ item.unit)

/-- A supply of the id was counted, and the supply does not agree with it. -/
def conflicts (included : Dict String SupplyItem) (item : SupplyItem) : Bool :=
  match included.get? item.supplyId with
  | some previous => differs previous item
  | none => false

theorem again_included (previous : SupplyItem) :
    (t.again previous item).included = t.included := by
  unfold Tally.again
  by_cases h : previous.quantity ≠ item.quantity ∨ previous.unit ≠ item.unit
  · simp only [if_pos h]
    rfl
  · simp only [if_neg h]
    rfl

theorem again_insufficient (previous : SupplyItem) :
    (t.again previous item).insufficient = (t.insufficient || differs previous item) := by
  unfold Tally.again differs
  by_cases h : previous.quantity ≠ item.quantity ∨ previous.unit ≠ item.unit
  · rw [decide_eq_true h, Bool.or_true]
    simp only [if_pos h]
    rfl
  · rw [decide_eq_false h, Bool.or_false]
    simp only [if_neg h]
    rfl

theorem again_duplicateConflict (previous : SupplyItem) :
    (t.again previous item).duplicateConflict =
      (t.duplicateConflict || differs previous item) := by
  unfold Tally.again differs
  by_cases h : previous.quantity ≠ item.quantity ∨ previous.unit ≠ item.unit
  · rw [decide_eq_true h, Bool.or_true]
    simp only [if_pos h]
    rfl
  · rw [decide_eq_false h, Bool.or_false]
    simp only [if_neg h]
    rfl

theorem first_included : (t.first unit item).included =
    if counts unit item then t.included.set item.supplyId item else t.included := by
  unfold Tally.first counts
  by_cases hunit : item.unit = unit
  · cases hreason : exclusionReason item <;> simp [hunit, Tally.exclude]
  · simp [hunit, Tally.exclude]

theorem first_insufficient : (t.first unit item).insufficient = t.insufficient := by
  unfold Tally.first
  split <;> rfl

theorem first_duplicateConflict :
    (t.first unit item).duplicateConflict = t.duplicateConflict := by
  unfold Tally.first
  split <;> rfl

theorem take_included : (t.take unit item).included =
    if counts unit item then keepFirst SupplyItem.supplyId t.included item else t.included := by
  have hnote : (if item.unit ≠ unit then t.noteUnit else t).included = t.included := by
    split <;> rfl
  unfold Tally.take
  cases hget : t.included.get? item.supplyId with
  | some previous => rw [keepFirst_of_some _ hget, ite_self, again_included, hnote]
  | none => rw [keepFirst_of_none _ hget, first_included, hnote]

theorem take_insufficient : (t.take unit item).insufficient =
    (t.insufficient || decide (item.unit ≠ unit) || conflicts t.included item) := by
  have hnote : (if item.unit ≠ unit then t.noteUnit else t).insufficient =
      (t.insufficient || decide (item.unit ≠ unit)) := by
    by_cases hunit : item.unit = unit <;> simp [hunit, Tally.noteUnit]
  unfold Tally.take conflicts
  cases hget : t.included.get? item.supplyId with
  | some previous => rw [again_insufficient, hnote]
  | none => rw [first_insufficient, hnote, Bool.or_false]

theorem take_duplicateConflict : (t.take unit item).duplicateConflict =
    (t.duplicateConflict || conflicts t.included item) := by
  have hnote : (if item.unit ≠ unit then t.noteUnit else t).duplicateConflict =
      t.duplicateConflict := by
    split <;> rfl
  unfold Tally.take conflicts
  cases hget : t.included.get? item.supplyId with
  | some previous => rw [again_duplicateConflict, hnote]
  | none => rw [first_duplicateConflict, hnote, Bool.or_false]

end Tally

variable (unit : String)

variable (items : List SupplyItem)

theorem tally_append (item : SupplyItem) :
    tally unit (items ++ [item]) = (tally unit items).take unit item := by
  unfold tally
  rw [List.foldl_append]
  rfl

/-- The loop counts the first supply of each id that counts. -/
theorem tally_included :
    (tally unit items).included =
      (items.filter (counts unit)).foldl (keepFirst SupplyItem.supplyId) ∅ := by
  induction items using List.reverseRecOn with
  | nil => rfl
  | append_singleton items item ih =>
    rw [tally_append, take_included, ih, List.filter_append, List.foldl_append]
    cases h : counts unit item with
    | true | false => rw [List.filter_singleton, h]; rfl

theorem tally_conflict :
    (tally unit items).duplicateConflict = true → (tally unit items).insufficient = true := by
  induction items using List.reverseRecOn with
  | nil => exact fun h => by cases h
  | append_singleton items item ih =>
    rw [tally_append]
    intro h
    rw [take_duplicateConflict, Bool.or_eq_true] at h
    rw [take_insufficient, Bool.or_eq_true, Bool.or_eq_true]
    exact h.imp (fun h => .inl (ih h)) id

/-- Where the data agree, all supplies of an id that count have one quantity. -/
theorem Consistent.quantity_eq {items : List SupplyItem} (h : Consistent items) {a b : SupplyItem}
    (ha : a ∈ items) (hb : b ∈ items) (hna : exclusionReason a = none)
    (hnb : exclusionReason b = none) (hid : a.supplyId = b.supplyId) : a.quantity = b.quantity := by
  let Agree (a b : SupplyItem) : Prop := exclusionReason a = none → exclusionReason b = none →
    a.supplyId = b.supplyId → a.quantity = b.quantity
  have : Std.Symm Agree := ⟨fun a b hab hb ha hid => (hab ha hb hid.symm).symm⟩
  have hagree : items.Pairwise Agree := h.imp fun hab ha _ hid => hab ha hid
  exact hagree.forall_of_forall (fun _ _ _ _ _ => rfl) ha hb hna hnb hid

/-- Nothing was found wrong with the supplies exactly when they are in the unit of the need and
agree with each other. -/
theorem tally_insufficient_iff :
    (tally unit items).insufficient = false ↔
      (∀ item ∈ items, item.unit = unit) ∧ Consistent items := by
  induction items using List.reverseRecOn with
  | nil => exact ⟨fun _ => ⟨fun x h => absurd h List.not_mem_nil, List.Pairwise.nil⟩, fun _ => rfl⟩
  | append_singleton items item ih =>
    rw [tally_append, take_insufficient, Bool.or_eq_false_iff, Bool.or_eq_false_iff, ih]
    have hfirst : (tally unit items).included.get? item.supplyId =
        firstOf SupplyItem.supplyId (items.filter (counts unit)) item.supplyId := by
      rw [tally_included, get?_keepFirst]
    constructor
    · rintro ⟨⟨⟨hunits, hcons⟩, hunit⟩, hconflict⟩
      have hunit : item.unit = unit := by simpa using hunit
      refine ⟨fun x hx => ?_, List.pairwise_append.mpr ⟨hcons, List.pairwise_singleton _ _, ?_⟩⟩
      · rcases List.mem_append.mp hx with hx | hx
        · exact hunits x hx
        · exact List.mem_singleton.mp hx ▸ hunit
      · intro a ha b hb hna hid
        obtain rfl := List.mem_singleton.mp hb
        have hcount : a ∈ items.filter (counts unit) :=
          List.mem_filter.mpr ⟨ha, by simp [counts, hunits a ha, hna]⟩
        cases hget : firstOf SupplyItem.supplyId (items.filter (counts unit)) b.supplyId with
        | none =>
          have hnot := (firstOf_eq_none_iff _).mp hget
          exact absurd (List.mem_map.mpr ⟨a, hcount, hid⟩) hnot
        | some f =>
          obtain ⟨hfid, hf⟩ := of_firstOf_eq_some _ hget
          have hfn : exclusionReason f = none := by
            have := (List.mem_filter.mp hf).2
            unfold counts at this
            simp only [Bool.and_eq_true, decide_eq_true_eq] at this
            exact this.2
          have haf := hcons.quantity_eq ha (List.mem_filter.mp hf).1 hna hfn (hid.trans hfid.symm)
          unfold conflicts at hconflict
          rw [hfirst, hget] at hconflict
          have hq : f.quantity = b.quantity := by
            by_contra hne
            simp [differs, hne] at hconflict
          exact haf.trans hq
    · rintro ⟨hunits, hcons⟩
      obtain ⟨hcons, -, hlast⟩ := List.pairwise_append.mp hcons
      have hunit : item.unit = unit := hunits item (by simp)
      refine ⟨⟨⟨fun x hx => hunits x (List.mem_append_left _ hx), hcons⟩, by simp [hunit]⟩, ?_⟩
      unfold conflicts
      rw [hfirst]
      cases hget : firstOf SupplyItem.supplyId (items.filter (counts unit)) item.supplyId with
      | none => rfl
      | some f =>
        obtain ⟨hfid, hf⟩ := of_firstOf_eq_some _ hget
        obtain ⟨hmem, hcount⟩ := List.mem_filter.mp hf
        unfold counts at hcount
        simp only [Bool.and_eq_true, decide_eq_true_eq] at hcount
        have hq := hlast f hmem item (List.mem_singleton_self _) hcount.2 hfid
        simp [differs, hq, hcount.1, hunit]

theorem breakdownQuantities_sum :
    (breakdownQuantities items).values.sum = (items.map SupplyItem.quantity).sum := by
  induction items using List.reverseRecOn with
  | nil => rfl
  | append_singleton items item ih =>
    have hset := (breakdownQuantities items).sum_values_set item.sourceType.text
      ((breakdownQuantities items).getD item.sourceType.text 0 + item.quantity) (fun q => q) 0 rfl
    simp only [List.map_id'] at hset
    have hfold : breakdownQuantities (items ++ [item]) = (breakdownQuantities items).set
        item.sourceType.text
        ((breakdownQuantities items).getD item.sourceType.text 0 + item.quantity) := by
      unfold breakdownQuantities
      rw [List.foldl_append]
      rfl
    rw [hfold, List.map_append, List.sum_append, ← ih]
    simp only [List.map_singleton, List.sum_singleton]
    linarith

theorem coverPosition_available (supplies : List SupplyItem) (position : NeedPosition) :
    (coverPosition supplies position).1.availableSupply =
      distinctTotal (position.eligible supplies) := by
  change (breakdownQuantities _).values.sum = _
  rw [breakdownQuantities_sum, tally_included]
  exact sum_values_keepFirst _ _ _

/-- A position is covered exactly when it is complete and has enough, looked at alone. -/
theorem coverPosition_covered_iff (supplies : List SupplyItem) (position : NeedPosition) :
    (coverPosition supplies position).1.status = .covered ↔ CoveredAlone supplies position := by
  have havailable := coverPosition_available supplies position
  have hstatus : (coverPosition supplies position).1.status = positionStatus
      (position.missesInputs || position.unmatched || position.unitsDiffer ||
        (tally position.unit (candidates (position.nomenclatureId.getD "") supplies)).insufficient ||
        (tally position.unit
          (candidates (position.nomenclatureId.getD "") supplies)).duplicateConflict)
      (coverPosition supplies position).1.availableSupply
      (max 0 (position.gross - (coverPosition supplies position).1.availableSupply)) := rfl
  rw [hstatus, havailable]
  unfold positionStatus
  have hconflict := tally_conflict position.unit
    (candidates (position.nomenclatureId.getD "") supplies)
  have hinsufficient := tally_insufficient_iff position.unit
    (candidates (position.nomenclatureId.getD "") supplies)
  constructor
  · intro h
    split at h
    · cases h
    next hflags =>
      simp only [Bool.or_eq_true, not_or, Bool.not_eq_true] at hflags
      obtain ⟨⟨⟨⟨hinputs, hmatched⟩, hunits⟩, htally⟩, -⟩ := hflags
      obtain ⟨hunit, hcons⟩ := hinsufficient.mp htally
      refine ⟨hinputs, hmatched, hunits, hunit, hcons, ?_⟩
      by_contra hless
      have hnet : max 0 (position.gross - distinctTotal (position.eligible supplies)) ≠ 0 := by
        have := le_max_right 0 (position.gross - distinctTotal (position.eligible supplies))
        intro he
        linarith
      rw [if_neg hnet] at h
      split at h <;> cases h
  · intro h
    have htally := hinsufficient.mpr ⟨h.unit, h.consistent⟩
    have hnoconflict : (tally position.unit
        (candidates (position.nomenclatureId.getD "") supplies)).duplicateConflict = false := by
      by_contra hc
      rw [hconflict (by simpa using hc)] at htally
      cases htally
    have hnet : max 0 (position.gross - distinctTotal (position.eligible supplies)) = 0 := by
      have := h.enough
      exact max_eq_left (by linarith)
    rw [h.inputs, h.matched, h.units, htally, hnoconflict, hnet]
    rfl

theorem overallStatus_covered_iff (issues : List String) (statuses : List CoverageStatus) :
    overallStatus issues statuses = .covered ↔
      issues = [] ∧ statuses ≠ [] ∧ ∀ status ∈ statuses, status = .covered := by
  unfold overallStatus
  constructor
  · intro h
    split at h
    · cases h
    next hdata =>
      simp only [Bool.or_eq_true, not_or, Bool.not_eq_true, Bool.not_eq_false',
        List.isEmpty_iff] at hdata
      split at h
      · next hall =>
        refine ⟨hdata.1.1, fun he => ?_, by simpa using hall⟩
        rw [he] at hdata
        exact absurd hdata.2 (by decide)
      · split at h <;> cases h
  · rintro ⟨rfl, hne, hall⟩
    have hnot : CoverageStatus.dataInsufficient ∉ statuses := fun hmem => by
      cases hall _ hmem
    have hempty : statuses.isEmpty = false := by simpa using hne
    have hevery : (statuses.all fun status => decide (status = .covered)) = true := by
      simpa using hall
    rw [if_neg (by simp [hnot, hempty]), if_pos hevery]

theorem status_covered_iff (input : CoverageInput) (completedAt : Int) :
    (calculateCoverage input completedAt).status = .covered ↔
      input.dataIssues = [] ∧ input.positions ≠ [] ∧
        ∀ position ∈ input.positions, CoveredAlone input.supplies position := by
  have hstatus : (calculateCoverage input completedAt).status = overallStatus input.dataIssues
      (((input.positions.map (coverPosition input.supplies)).map Prod.fst).map
        PositionCoverage.status) := rfl
  rw [hstatus, overallStatus_covered_iff]
  refine and_congr_right fun _ => and_congr ?_ ?_
  · rw [ne_eq, List.map_eq_nil_iff, List.map_eq_nil_iff, List.map_eq_nil_iff]
  · constructor
    · intro h position hmem
      rw [← coverPosition_covered_iff]
      exact h _ (List.mem_map_of_mem (List.mem_map_of_mem (List.mem_map_of_mem hmem)))
    · intro h status hmem
      simp only [List.map_map, List.mem_map] at hmem
      obtain ⟨position, hposition, rfl⟩ := hmem
      exact (coverPosition_covered_iff _ _).mpr (h position hposition)

/-- Every position is given the distinct supplies that count for it. -/
theorem forall_available (input : CoverageInput) (completedAt : Int) :
    List.Forall₂ (fun (position : NeedPosition) coverage =>
      coverage.availableSupply = distinctTotal (position.eligible input.supplies))
      input.positions (calculateCoverage input completedAt).positions := by
  change List.Forall₂ _ _ ((input.positions.map (coverPosition input.supplies)).map Prod.fst)
  rw [List.map_map, List.forall₂_map_right_iff]
  exact List.forall₂_same.mpr fun position _ => coverPosition_available _ _

/-- **A need keeps its promise** exactly when its positions are not covered one by one, or the
distinct supplies of each nomenclature are enough for all its positions together. -/
theorem keepsPromise_iff (input : CoverageInput) (completedAt : Int) :
    KeepsPromise input completedAt ↔
      (input.dataIssues = [] → input.positions ≠ [] →
        (∀ position ∈ input.positions, CoveredAlone input.supplies position) → ∀ nomenclature,
          totalRequirement input.positions nomenclature ≤
            distinctTotal (eligibleSupplies nomenclature input.supplies)) := by
  constructor
  · intro h hissues hpositions halone
    exact h.covered ((status_covered_iff input completedAt).mpr ⟨hissues, hpositions, halone⟩)
  · intro h
    refine ⟨forall_available input completedAt, fun hstatus => ?_⟩
    obtain ⟨hissues, hpositions, halone⟩ := (status_covered_iff input completedAt).mp hstatus
    exact h hissues hpositions halone

def tenOf (lineId : String) : NeedPosition :=
  { lineId
    nomenclatureId := some "item-1"
    nomenclatureName := "Материал 1"
    unit := "кг"
    requiredDate := none
    grossQuantity := some 10
    productQuantity := none
    consumptionRate := none
    lossFactor := 1
    matchStatus := .exact
    possibleUnits := []
    gross_nonneg := by decide +kernel
    product_nonneg := by decide
    rate_nonneg := by decide
    loss_nonneg := by decide +kernel }

def tenInStock : SupplyItem :=
  { supplyId := "supply-1"
    sourceType := .warehouse
    nomenclatureId := "item-1"
    unit := "кг"
    quantity := 10
    confirmed := true
    suitable := true
    reservedForOther := false
    quarantine := false
    defective := false
    incomingControlPassed := true
    expired := false
    illiquid := false
    exactMatch := true
    evidenceId := "evidence-1"
    quantity_nonneg := by decide +kernel }

/-- Two lines need ten of the material each, and there are ten. -/
def twoLines : CoverageInput :=
  { caseId := "case-1"
    sourceBasis := [("source_1c_ref", "ref-1")]
    positions := [tenOf "line-1", tenOf "line-2"]
    supplies := [tenInStock]
    evidenceIds := ["evidence-1"]
    dataIssues := [] }

theorem keepsPromise_twoLines_fails : ¬ KeepsPromise twoLines 0 := by
  intro h
  have hstatus : (calculateCoverage twoLines 0).status = .covered := by decide +kernel
  exact absurd (h.covered hstatus "item-1") (by decide +kernel)

end AgentBack.KT1
