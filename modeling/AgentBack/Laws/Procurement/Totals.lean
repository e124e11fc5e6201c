import AgentBack.Laws.Procurement.NoWaste
import AgentBack.Procurement.RollUp
import Mathlib.Tactic.Linarith

/-!
# The totals of an allocation agree

The lines of a result are grouped by case and by nomenclature, and every line goes to one group of
each kind, so that the sums over the groups are those over the lines (`sum_caseLines`,
`sum_aggregatePositions`). The suppliers of a nomenclature are merged under their ids without blanks
around them, and an id that is nothing but blanks is left out: what was taken from such a supplier is
missing in the parts of its row (`parts_add_blank`).
-/

namespace AgentBack.Procurement

open Text (strip normalize)

variable {casefold : String → String} {fromIsoFormat : String → Option DateTime}
  {store : MaterialBankStore}

def total {α : Type} (quantity : α → ℚ) (rows : List α) : ℚ := (rows.map quantity).sum

/-- The sums over the lines, over the lines of the cases and over the nomenclatures are one. -/
structure SameTotals (result : AllocationResult) (ofLine : LineResult → ℚ)
    (ofRow : NomenclatureRow → ℚ) : Prop where
  nested : total ofLine (result.cases.flatMap CaseResult.lines) = total ofLine result.lines
  byNomenclature : total ofRow result.byNomenclature = total ofLine result.lines

/-- **Reconciled totals.** -/
structure Reconciled (result : AllocationResult) : Prop where
  needed : SameTotals result LineResult.neededQuantity NomenclatureRow.neededQuantity
  covered : SameTotals result LineResult.coveredQuantity NomenclatureRow.coveredQuantity
  deficit : SameTotals result LineResult.deficitQuantity NomenclatureRow.deficitQuantity
  summaryNeeded : result.summary.needQuantityTotal = total LineResult.neededQuantity result.lines
  summaryCovered :
    result.summary.coveredQuantityTotal = total LineResult.coveredQuantity result.lines
  orders : result.summary.readyOrdersCount + result.summary.attentionOrdersCount +
    result.summary.uncoveredOrdersCount = result.summary.totalOrdersCount
  parts : ∀ row ∈ result.byNomenclature,
    total SupplierRow.quantity row.supplierParts = row.fromSupplier

variable {α : Type} {lines : List LineResult} {s : CaseLoop} {line : LineResult}

theorem total_nil (quantity : α → ℚ) : total quantity [] = 0 := rfl

theorem total_cons (quantity : α → ℚ) (row : α) (rows : List α) :
    total quantity (row :: rows) = quantity row + total quantity rows := by
  rw [total, List.map_cons, List.sum_cons, total]

theorem total_append (quantity : α → ℚ) (rows rows' : List α) :
    total quantity (rows ++ rows') = total quantity rows + total quantity rows' := by
  rw [total, List.map_append, List.sum_append, total, total]

theorem total_flatMap {β : Type} (quantity : α → ℚ) (f : β → List α) (rows : List β) :
    total quantity (rows.flatMap f) = total (fun row => total quantity (f row)) rows := by
  induction rows with
  | nil => rfl
  | cons row rest ih => rw [List.flatMap_cons, total_append, total_cons, ih]

/-! ## Cases -/

theorem sum_caseLines (quantity : LineResult → ℚ) (lines : List LineResult) :
    total (total quantity) (caseLines lines).values = total quantity lines := by
  induction lines using List.reverseRecOn with
  | nil => rfl
  | append_singleton lines line ih =>
    have hset := (caseLines lines).sum_values_set line.caseId
      ((caseLines lines).getD line.caseId [] ++ [line]) (total quantity) [] (total_nil quantity)
    have hstep : caseLines (lines ++ [line]) =
        (caseLines lines).set line.caseId ((caseLines lines).getD line.caseId [] ++ [line]) := by
      unfold caseLines
      rw [List.foldl_append, List.foldl_cons, List.foldl_nil]
    unfold total at ih hset
    rw [hstep, total_append, total_cons, total_nil, add_zero]
    unfold total
    rw [← ih]
    rw [List.map_append, List.sum_append, List.map_singleton, List.sum_singleton] at hset
    linarith

structure CaseLoop.Counts (s : CaseLoop) : Prop where
  orders : s.readyOrders + s.attentionOrders + s.uncoveredOrders = s.casesOut.length

theorem CaseLoop.Counts.addCase (h : s.Counts) (item : String × List LineResult) :
    (s.addCase item).Counts ∧
      (s.addCase item).casesOut = s.casesOut ++ [caseResult item.1 item.2] := by
  have horders := h.orders
  have hlength : (s.casesOut ++ [caseResult item.1 item.2]).length = s.casesOut.length + 1 := by
    rw [List.length_append, List.length_singleton]
  unfold CaseLoop.addCase
  simp only
  split
  · exact ⟨⟨by simp only [hlength]; omega⟩, rfl⟩
  · exact ⟨⟨by simp only [hlength]; omega⟩, rfl⟩
  · exact ⟨⟨by simp only [hlength]; omega⟩, rfl⟩

theorem CaseLoop.Counts.addEmptyCase (h : s.Counts) (seen : List String) (case : Case) :
    (s.addEmptyCase seen case).Counts ∧
      (s.addEmptyCase seen case).casesOut.flatMap CaseResult.lines =
        s.casesOut.flatMap CaseResult.lines := by
  have horders := h.orders
  unfold CaseLoop.addEmptyCase
  simp only
  split
  · exact ⟨h, rfl⟩
  · refine ⟨⟨?_⟩, ?_⟩
    · simp only [List.length_append, List.length_singleton]
      omega
    · simp only [List.flatMap_append, List.flatMap_singleton, emptyCase, List.append_nil]

theorem counts_foldl_addCase (items : List (String × List LineResult)) (h : s.Counts) :
    (items.foldl CaseLoop.addCase s).Counts ∧
      (items.foldl CaseLoop.addCase s).casesOut.flatMap CaseResult.lines =
        s.casesOut.flatMap CaseResult.lines ++ items.flatMap Prod.snd := by
  induction items generalizing s with
  | nil => exact ⟨h, (List.append_nil _).symm⟩
  | cons item rest ih =>
    obtain ⟨hcounts, hout⟩ := h.addCase item
    obtain ⟨hrest, hlines⟩ := ih hcounts
    refine ⟨hrest, ?_⟩
    rw [List.foldl_cons, hlines, hout, List.flatMap_append, List.flatMap_singleton,
      List.flatMap_cons, List.append_assoc]
    rfl

theorem counts_foldl_addEmptyCase (seen : List String) (cases : List Case) (h : s.Counts) :
    (cases.foldl (CaseLoop.addEmptyCase seen) s).Counts ∧
      (cases.foldl (CaseLoop.addEmptyCase seen) s).casesOut.flatMap CaseResult.lines =
        s.casesOut.flatMap CaseResult.lines := by
  induction cases generalizing s with
  | nil => exact ⟨h, rfl⟩
  | cons case rest ih =>
    obtain ⟨hcounts, hout⟩ := h.addEmptyCase seen case
    obtain ⟨hrest, hlines⟩ := ih hcounts
    exact ⟨hrest, hlines.trans hout⟩

/-- **The cases have every line once, and each counts in one tone.** -/
theorem rollUpCases_spec (cases : List Case) (lines : List LineResult)
    (quantity : LineResult → ℚ) :
    (rollUpCases cases lines).Counts ∧
      total quantity ((rollUpCases cases lines).casesOut.flatMap CaseResult.lines) =
        total quantity lines := by
  obtain ⟨hcounts, hlines⟩ := counts_foldl_addCase (caseLines lines).items
    (s := ⟨[], 0, 0, 0, 0⟩) ⟨rfl⟩
  obtain ⟨hall, hsame⟩ := counts_foldl_addEmptyCase
    (((caseLines lines).items.foldl CaseLoop.addCase ⟨[], 0, 0, 0, 0⟩).casesOut.map
      CaseResult.caseId) cases hcounts
  refine ⟨hall, ?_⟩
  unfold rollUpCases
  rw [hsame, hlines, List.flatMap_nil, List.nil_append, total_flatMap, ← sum_caseLines quantity lines]
  unfold total Dict.values
  rw [List.map_map]
  rfl

/-- A quantity that is summed up over the lines of a bucket. -/
structure Sums (ofBucket : Bucket → ℚ) (ofLine : LineResult → ℚ) : Prop where
  first : ∀ line, ofBucket (.ofLine line) = ofLine line
  more : ∀ bucket line, ofBucket (bucket.add line) = ofBucket bucket + ofLine line

theorem sum_addPosition {ofLine : LineResult → ℚ} {ofBucket : Bucket → ℚ}
    (h : Sums ofBucket ofLine) (buckets : Dict String Bucket) (line : LineResult) :
    total ofBucket (addPosition casefold buckets line).values =
      total ofBucket buckets.values + ofLine line := by
  unfold addPosition total
  cases hget : buckets.get? (line.positionKey casefold) with
  | none => rw [buckets.sum_values_set_new hget, h.first]
  | some bucket =>
    have hset := buckets.sum_values_set_some hget (bucket.add line) ofBucket
    rw [h.more] at hset
    simp only
    linarith

/-- **The rows by nomenclature have every line once.** -/
theorem sum_aggregatePositions {ofLine : LineResult → ℚ} (ofBucket : Bucket → ℚ)
    (h : Sums ofBucket ofLine) {ofRow : NomenclatureRow → ℚ}
    (hrow : ∀ bucket : Bucket, ofRow bucket.row = ofBucket bucket) (lines : List LineResult) :
    total ofRow (aggregatePositions casefold lines) = total ofLine lines := by
  have hfold : ∀ lines : List LineResult,
      total ofBucket (lines.foldl (addPosition casefold) ∅).values = total ofLine lines := by
    intro lines
    induction lines using List.reverseRecOn with
    | nil => rfl
    | append_singleton lines line ih =>
      rw [List.foldl_append, List.foldl_cons, List.foldl_nil, sum_addPosition h, ih, total_append,
        total_cons, total_nil, add_zero]
  rw [← hfold lines]
  unfold total aggregatePositions
  rw [((perm_sortBy _ _).map ofRow).sum_eq, List.map_map]
  exact congrArg List.sum (List.map_congr_left fun bucket _ => hrow bucket)

/-! ## The suppliers of a nomenclature -/

/-- What a line has of suppliers whose id is nothing but blanks. -/
def LineResult.blankTaken (line : LineResult) : ℚ :=
  total SupplierPart.quantity (line.supplierParts.filter fun part => strip part.supplierId = "")

/-- A line whose parts make up what it has from suppliers. -/
structure LineResult.Accounted (line : LineResult) : Prop where
  parts : total SupplierPart.quantity line.supplierParts = line.fromSupplier
  positive : ∀ part ∈ line.supplierParts, 0 < part.quantity
  source : line.coverageSource = sourceKind line.fromWarehouse line.fromSupplier

theorem total_nonneg {quantity : α → ℚ} {rows : List α}
    (h : ∀ row ∈ rows, 0 ≤ quantity row) : 0 ≤ total quantity rows := by
  refine List.sum_nonneg fun q hq => ?_
  obtain ⟨row, hrow, rfl⟩ := List.mem_map.mp hq
  exact h row hrow

theorem le_total_of_mem (quantity : α → ℚ) {rows : List α}
    (h : ∀ row ∈ rows, 0 ≤ quantity row) {row : α} (hrow : row ∈ rows) :
    quantity row ≤ total quantity rows := by
  refine List.single_le_sum (fun q hq => ?_) _ (List.mem_map_of_mem hrow)
  obtain ⟨other, hother, rfl⟩ := List.mem_map.mp hq
  exact h other hother

theorem LineResult.Accounted.blankTaken (h : line.Accounted) :
    0 ≤ line.blankTaken ∧ line.blankTaken ≤ line.fromSupplier := by
  have hsub : (line.supplierParts.filter fun part => strip part.supplierId = "").Sublist
      line.supplierParts := List.filter_sublist
  refine ⟨total_nonneg fun part hpart => (h.positive part (hsub.subset hpart)).le, ?_⟩
  rw [← h.parts]
  refine (hsub.map SupplierPart.quantity).sum_le_sum fun q hq => ?_
  obtain ⟨part, hpart, rfl⟩ := List.mem_map.mp hq
  exact (h.positive part hpart).le

theorem LineResult.Accounted.blankTaken_eq_zero_iff (h : line.Accounted) :
    line.blankTaken = 0 ↔ ∀ part ∈ line.supplierParts, strip part.supplierId ≠ "" := by
  constructor
  · intro hzero part hpart hblank
    have hmem : part ∈ line.supplierParts.filter fun part => strip part.supplierId = "" :=
      List.mem_filter.mpr ⟨hpart, decide_eq_true hblank⟩
    have hle := le_total_of_mem SupplierPart.quantity
      (fun other hother => (h.positive other (List.mem_filter.mp hother).1).le) hmem
    exact absurd (hle.trans hzero.le) (not_le.mpr (h.positive part hpart))
  · intro hnone
    have hnil : (line.supplierParts.filter fun part => strip part.supplierId = "") = [] :=
      List.filter_eq_nil_iff.mpr fun part hpart => by simpa using hnone part hpart
    rw [LineResult.blankTaken, hnil, total_nil]

/-- Merging a part adds it to one supplier, or to none when the id is blank. -/
theorem total_mergeSupplierPart (target : Dict String SupplierRow) {part : SupplierPart}
    (hpos : 0 < part.quantity) :
    total SupplierRow.quantity (mergeSupplierPart target part).values =
      total SupplierRow.quantity target.values +
        if strip part.supplierId = "" then 0 else part.quantity := by
  unfold mergeSupplierPart total
  simp only [if_neg (not_le.mpr hpos)]
  by_cases hblank : strip part.supplierId = ""
  · rw [if_pos hblank, if_pos hblank, add_zero]
  · rw [if_neg hblank, if_neg hblank]
    cases hget : target.get? (strip part.supplierId) with
    | none => exact target.sum_values_set_new hget SupplierRow.quantity
    | some existing =>
      have hset := target.sum_values_set_some hget { existing with
        quantity := existing.quantity + part.quantity
        supplierName :=
          if existing.supplierName ≠ "" then existing.supplierName else text part.supplierName
        unitPrice := existing.unitPrice <|> part.unitPrice } SupplierRow.quantity
      simp only at hset ⊢
      linarith

theorem total_mergeSupplierParts (target : Dict String SupplierRow) {parts : List SupplierPart}
    (hpos : ∀ part ∈ parts, 0 < part.quantity) :
    total SupplierRow.quantity (mergeSupplierParts target parts).values +
        total SupplierPart.quantity (parts.filter fun part => strip part.supplierId = "") =
      total SupplierRow.quantity target.values + total SupplierPart.quantity parts := by
  induction parts generalizing target with
  | nil => rfl
  | cons part rest ih =>
    have hrest := ih (mergeSupplierPart target part) fun other hother =>
      hpos other (List.mem_cons_of_mem part hother)
    have hone := total_mergeSupplierPart target (hpos part (.head _))
    unfold mergeSupplierParts at hrest ⊢
    rw [List.foldl_cons, total_cons]
    by_cases hblank : strip part.supplierId = ""
    · rw [if_pos hblank] at hone
      rw [List.filter_cons_of_pos (by simpa using hblank), total_cons]
      linarith
    · rw [if_neg hblank] at hone
      rw [List.filter_cons_of_neg (by simpa using hblank)]
      linarith

structure Bucket.Holds (bucket : Bucket) (lines : List LineResult) : Prop where
  fromSupplier : bucket.fromSupplier = total LineResult.fromSupplier lines
  merged : total SupplierRow.quantity bucket.supplierPartsMap.values +
    total LineResult.blankTaken lines = bucket.fromSupplier
  sources : bucket.sources = lines.map LineResult.coverageSource

theorem Bucket.holds_ofLine (h : line.Accounted) : (Bucket.ofLine line).Holds [line] := by
  refine ⟨(add_zero _).symm, ?_, rfl⟩
  have hmerge := total_mergeSupplierParts ∅ h.positive
  rw [h.parts] at hmerge
  rw [total_cons, total_nil, add_zero]
  exact hmerge.trans (zero_add _)

theorem Bucket.Holds.add {bucket : Bucket} (h : bucket.Holds lines) (hline : line.Accounted) : (bucket.add line).Holds (lines ++ [line]) := by
  have hmerge := total_mergeSupplierParts bucket.supplierPartsMap hline.positive
  have hmerged := h.merged
  rw [hline.parts] at hmerge
  refine ⟨?_, ?_, ?_⟩
  · rw [total_append, total_cons, total_nil, add_zero, ← h.fromSupplier]
    rfl
  · rw [total_append, total_cons, total_nil, add_zero]
    change total SupplierRow.quantity
      (mergeSupplierParts bucket.supplierPartsMap line.supplierParts).values + _ =
        bucket.fromSupplier + line.fromSupplier
    unfold LineResult.blankTaken at hmerged ⊢
    linarith
  · rw [List.map_append, List.map_singleton, ← h.sources]
    rfl

/-- The lines of a key are those of its bucket. -/
theorem holds_foldl_addPosition (casefold : String → String)
    (h : ∀ line ∈ lines, line.Accounted) (key : String) :
    ((lines.foldl (addPosition casefold) ∅).get? key = none →
        (lines.filter fun line => line.positionKey casefold = key) = []) ∧
      ∀ bucket, (lines.foldl (addPosition casefold) ∅).get? key = some bucket →
        bucket.Holds (lines.filter fun line => line.positionKey casefold = key) := by
  induction lines using List.reverseRecOn with
  | nil => exact ⟨fun _ => rfl, fun bucket hget => by cases hget⟩
  | append_singleton lines line ih =>
    have hline := h line (List.mem_append_right _ (List.mem_singleton.mpr rfl))
    obtain ⟨hnone, hsome⟩ := ih fun other hother => h other (List.mem_append_left _ hother)
    rw [List.foldl_append, List.foldl_cons, List.foldl_nil, List.filter_append]
    generalize lines.foldl (addPosition casefold) ∅ = buckets at *
    by_cases hkey : line.positionKey casefold = key
    · subst hkey
      rw [List.filter_singleton, decide_eq_true rfl, cond_true]
      unfold addPosition
      cases hget : buckets.get? (line.positionKey casefold) with
      | none =>
        simp only [Dict.get?_set_self, Option.some.injEq, reduceCtorEq, false_implies, true_and]
        rintro bucket rfl
        rw [hnone hget, List.nil_append]
        exact Bucket.holds_ofLine hline
      | some bucket =>
        simp only [Dict.get?_set_self, Option.some.injEq, reduceCtorEq, false_implies, true_and]
        rintro bucket' rfl
        exact (hsome bucket hget).add hline
    · have hsame : (addPosition casefold buckets line).get? key = buckets.get? key := by
        unfold addPosition
        split
        · exact Dict.get?_set_ne _ hkey _
        · exact Dict.get?_set_ne _ hkey _
      rw [hsame, List.filter_singleton, decide_eq_false hkey, cond_false, List.append_nil]
      exact ⟨hnone, hsome⟩

/-- A row from the warehouse alone has no line with a supplier. -/
theorem Bucket.sources_of_warehouse {bucket : Bucket} (h : bucket.source = .warehouse) :
    ∀ source ∈ bucket.sources, source = .none ∨ source = .warehouse := by
  intro source hsource
  by_cases hnone : source = .none
  · exact .inl hnone
  · have hmem : source ∈ (bucket.sources.filter (· ≠ .none)).eraseDups :=
      List.mem_eraseDups.mpr (List.mem_filter.mpr ⟨hsource, decide_eq_true hnone⟩)
    unfold Bucket.source at h
    split at h
    · cases h
    · next only heq =>
      rw [heq] at hmem
      exact .inr ((List.mem_singleton.mp hmem).trans h)
    · cases h

/-- **What a row has from suppliers is what its parts and the blank suppliers give.** -/
theorem Bucket.Holds.parts_add_blank {bucket : Bucket}
    (h : bucket.Holds lines) (hlines : ∀ line ∈ lines, line.Accounted) :
    total SupplierRow.quantity bucket.row.supplierParts + total LineResult.blankTaken lines =
      bucket.fromSupplier := by
  have hblank : 0 ≤ total LineResult.blankTaken lines :=
    total_nonneg fun line hline => (hlines line hline).blankTaken.1
  have hle : total LineResult.blankTaken lines ≤ total LineResult.fromSupplier lines :=
    List.sum_le_sum fun line hline => (hlines line hline).blankTaken.2
  unfold Bucket.row
  simp only
  split
  · next hempty =>
    have hfrom : bucket.fromSupplier ≤ 0 := by
      rcases hempty with hwarehouse | hfrom
      · have hzero : total (fun _ => 0) lines = 0 := List.sum_map_zero
        rw [h.fromSupplier, ← hzero]
        refine List.sum_le_sum fun line hline => ?_
        by_contra hpos
        have hsource := Bucket.sources_of_warehouse hwarehouse line.coverageSource
          (h.sources ▸ List.mem_map_of_mem hline)
        rw [(hlines line hline).source, sourceKind] at hsource
        simp only [gt_iff_lt, not_le.mp hpos, and_true, if_true] at hsource
        split at hsource <;> simp at hsource
      · exact hfrom
    rw [total_nil, zero_add]
    rw [h.fromSupplier] at hfrom ⊢
    linarith
  · rw [total, ((perm_sortBy _ _).map SupplierRow.quantity).sum_eq]
    exact h.merged

/-! ## The lines of a run -/

/-- The parts of the loop over the suppliers make up what it takes. -/
structure SupplierLoop.Accounted (s : SupplierLoop) : Prop where
  parts : total SupplierPart.quantity s.supplierParts = s.fromSupplier
  positive : ∀ part ∈ s.supplierParts, 0 < part.quantity

theorem SupplierLoop.Accounted.drawSupplier {s : SupplierLoop} (h : s.Accounted)
    (keys : List String) (supplierId : String) :
    (drawSupplier casefold store keys s supplierId).Accounted := by
  unfold Procurement.drawSupplier
  simp only
  split
  · exact ⟨h.parts, h.positive⟩
  · next hpos =>
    refine ⟨?_, fun part hpart => ?_⟩
    · rw [total_append, total_cons, total_nil, add_zero, h.parts]
    · rcases List.mem_append.mp hpart with hpart | hpart
      · exact h.positive part hpart
      · rw [List.mem_singleton.mp hpart]
        exact not_le.mp hpos

theorem SupplierLoop.Accounted.drawSuppliers {s : SupplierLoop} (h : s.Accounted)
    (casefold : String → String) (store : MaterialBankStore) (keys supplierIds : List String) : (drawSuppliers casefold store keys supplierIds s).Accounted := by
  induction supplierIds generalizing s with
  | nil => exact h
  | cons supplierId rest ih =>
    unfold Procurement.drawSuppliers
    split
    · exact h
    · exact ih (h.drawSupplier keys supplierId)

theorem allocateLine_accounted (remaining : Remaining) (demand : Demand) :
    (allocateLine casefold store remaining demand).1.Accounted := by
  have hstart : SupplierLoop.Accounted ⟨remaining.supplier, (drawStock store
      (stockByNom casefold store) (demand.keys casefold)
      ⟨remaining.stock, demand.quantity, 0, [], []⟩).left, 0, [], []⟩ :=
    ⟨rfl, fun part hpart => by cases hpart⟩
  obtain ⟨hparts, hpositive⟩ := hstart.drawSuppliers casefold store
    (demand.keys casefold) (supplierCandidates (supplierByNom casefold store) (demand.keys casefold))
  exact ⟨hparts, hpositive, rfl⟩

theorem accounted {cases : List Case} : ∀ line ∈ allocateMaterialsByDeadline casefold fromIsoFormat
    store cases, line.Accounted := by
  intro line hline
  obtain ⟨demand, -, before, rfl⟩ := mem_allocateLines hline
  exact allocateLine_accounted before demand

/-- The rows account for their suppliers exactly when no line has a blank one. -/
theorem parts_iff (casefold : String → String) (h : ∀ line ∈ lines, line.Accounted) :
    (∀ row ∈ aggregatePositions casefold lines,
        total SupplierRow.quantity row.supplierParts = row.fromSupplier) ↔
      ∀ line ∈ lines, ∀ part ∈ line.supplierParts, strip part.supplierId ≠ "" := by
  have hbucket : ∀ row ∈ aggregatePositions casefold lines, ∃ key bucket, row = bucket.row ∧
      (lines.foldl (addPosition casefold) ∅).get? key = some bucket := by
    intro row hrow
    obtain ⟨bucket, hbucket, rfl⟩ := List.mem_map.mp (mem_sortBy.mp hrow)
    obtain ⟨key, hget⟩ := Dict.mem_values_iff.mp hbucket
    exact ⟨key, bucket, rfl, hget⟩
  have hsub : ∀ key, ∀ line ∈ lines.filter (fun line => line.positionKey casefold = key),
      line.Accounted := fun key line hline => h line (List.mem_filter.mp hline).1
  constructor
  · intro hrows line hline
    obtain ⟨hnone, hsome⟩ := holds_foldl_addPosition casefold h
      (line.positionKey casefold)
    have hown : line ∈ lines.filter fun other =>
        other.positionKey casefold = line.positionKey casefold :=
      List.mem_filter.mpr ⟨hline, decide_eq_true rfl⟩
    cases hget : (lines.foldl (addPosition casefold) ∅).get? (line.positionKey casefold) with
    | none => exact absurd hown (hnone hget ▸ List.not_mem_nil)
    | some bucket =>
      have hsum := (hsome bucket hget).parts_add_blank (hsub _)
      have hrow := hrows bucket.row (mem_sortBy.mpr (List.mem_map_of_mem
        (Dict.mem_values_iff.mpr ⟨_, hget⟩)))
      have hfrom : bucket.row.fromSupplier = bucket.fromSupplier := rfl
      have hle := le_total_of_mem LineResult.blankTaken (fun other hother => (hsub _ other hother).blankTaken.1) hown
      refine (h line hline).blankTaken_eq_zero_iff.mp (le_antisymm ?_ (h line hline).blankTaken.1)
      linarith
  · intro hblank row hrow
    obtain ⟨key, bucket, rfl, hget⟩ := hbucket row hrow
    have hsum := ((holds_foldl_addPosition casefold h key).2 bucket hget).parts_add_blank
      (hsub key)
    have hzero : total LineResult.blankTaken
        (lines.filter fun line => line.positionKey casefold = key) = 0 := by
      refine List.sum_eq_zero fun q hq => ?_
      obtain ⟨line, hline, rfl⟩ := List.mem_map.mp hq
      have hmem := (List.mem_filter.mp hline).1
      exact (h line hmem).blankTaken_eq_zero_iff.mpr (hblank line hmem)
    rw [hzero, add_zero] at hsum
    exact hsum

theorem quantity_allocateLines (remaining : Remaining) (demands : List Demand) :
    total LineResult.neededQuantity (allocateLines casefold store remaining demands).1 =
      total Demand.quantity demands := by
  induction demands generalizing remaining with
  | nil => rfl
  | cons demand rest ih =>
    rw [allocateLines, total_cons, total_cons, ih]
    rfl

/-- One result is reconciled exactly when none of its lines has a blank supplier. -/
theorem reconciled_result_iff (cases : List Case) :
    Reconciled (allocationResult casefold fromIsoFormat store cases) ↔
      ∀ line ∈ allocateMaterialsByDeadline casefold fromIsoFormat store cases,
        ∀ part ∈ line.supplierParts, strip part.supplierId ≠ "" := by
  rw [← parts_iff casefold accounted]
  refine ⟨Reconciled.parts, fun hparts => ?_⟩
  have hcases := rollUpCases_spec cases
    (allocateMaterialsByDeadline casefold fromIsoFormat store cases)
  refine ⟨⟨(hcases _).2, ?_⟩, ⟨(hcases _).2, ?_⟩, ⟨(hcases _).2, ?_⟩, ?_, rfl, ?_, hparts⟩
  · exact sum_aggregatePositions Bucket.neededQuantity ⟨fun _ => rfl, fun _ _ => rfl⟩ (fun _ => rfl) _
  · exact sum_aggregatePositions Bucket.coveredQuantity ⟨fun _ => rfl, fun _ _ => rfl⟩ (fun _ => rfl) _
  · exact sum_aggregatePositions Bucket.deficitQuantity ⟨fun _ => rfl, fun _ _ => rfl⟩ (fun _ => rfl) _
  · exact (quantity_allocateLines _ _).symm
  · exact (hcases LineResult.neededQuantity).1.orders

/-! ## Banks with a blank supplier -/

/-- A quantity of the bank that a line can take. -/
structure Drawable (casefold : String → String) (store : MaterialBankStore)
    (supplierId nomKey : String) : Prop where
  named : nomKey ≠ ""
  available : 0 < onHand (initialRemaining casefold store).supplier (supplierId, nomKey)
  offered : ∃ o ∈ offeringsOf store supplierId, o.nomKey casefold = nomKey

def Offered (casefold : String → String) (store : MaterialBankStore)
    (draws : List ((String × String) × ℚ)) : Prop :=
  ∀ d ∈ draws, d.1.2 ≠ "" ∧ ∃ o ∈ offeringsOf store d.1.1, o.nomKey casefold = d.1.2

theorem offered_drawOfferings (keys : List String) (supplierId : String)
    (offerings : List Offering) (hmem : ∀ o ∈ offerings, o ∈ offeringsOf store supplierId)
    {s : OfferingLoop} (h : Offered casefold store s.supplierDraws) :
    Offered casefold store (drawOfferings casefold keys supplierId offerings s).supplierDraws := by
  induction offerings generalizing s with
  | nil => exact h
  | cons offering rest ih =>
    unfold drawOfferings
    split
    · exact h
    · refine ih (fun o ho => hmem o (List.mem_cons_of_mem offering ho)) ?_
      unfold drawOffering
      split
      · exact h
      · split
        · exact h
        · next hnamed =>
          simp only
          split
          · exact h
          · intro d hd
            rcases List.mem_append.mp hd with hd | hd
            · exact h d hd
            · rw [List.mem_singleton.mp hd]
              exact ⟨hnamed, offering, hmem offering (.head _), rfl⟩

theorem offered_drawSuppliers (keys supplierIds : List String) {s : SupplierLoop}
    (h : Offered casefold store s.supplierDraws) :
    Offered casefold store (drawSuppliers casefold store keys supplierIds s).supplierDraws := by
  induction supplierIds generalizing s with
  | nil => exact h
  | cons supplierId rest ih =>
    unfold drawSuppliers
    split
    · exact h
    · refine ih ?_
      have hdraws := @offered_drawOfferings casefold store keys supplierId
        (offeringsOf store supplierId) (fun _ ho => ho)
        ⟨s.remainingSupplier, s.left, 0, s.supplierDraws⟩ h
      unfold drawSupplier
      simp only
      split
      · exact hdraws
      · exact hdraws

/-- What a line takes from a supplier the bank has. -/
theorem drawable_of_part {cases : List Case} {part : SupplierPart}
    (hline : line ∈ allocateMaterialsByDeadline casefold fromIsoFormat store cases)
    (hpart : part ∈ line.supplierParts) :
    ∃ nomKey, Drawable casefold store part.supplierId nomKey := by
  have hrun := (allocateLines_draws casefold store (sortedDemands fromIsoFormat cases)
    (initialRemaining casefold store)).2
  have hmem := hline
  obtain ⟨demand, -, before, rfl⟩ := mem_allocateLines hline
  obtain ⟨mid, left, hserved⟩ := allocateLine_served casefold store before demand
  have hlog : ∀ d ∈ supplierLog (allocateLine casefold store before demand).1.supplierParts,
      0 < d.2 := by
    intro d hd
    obtain ⟨other, hother, rfl⟩ := List.mem_map.mp hd
    exact (accounted _ hmem).positive other hother
  have htaken := takenUnder_pos hlog (List.mem_map_of_mem hpart)
  rw [hserved.parts] at htaken
  obtain ⟨d, hd, hown⟩ : ∃ d ∈ bySupplier
      (allocateLine casefold store before demand).1.supplierDraws, d.1 = part.supplierId := by
    by_contra hnone
    exact absurd (takenUnder_eq_zero fun d hd he => hnone ⟨d, hd, he⟩) (ne_of_gt htaken)
  obtain ⟨⟨⟨supplierId, nomKey⟩, qty⟩, hdraw, rfl⟩ := List.mem_map.mp hd
  obtain ⟨hnamed, hoffered⟩ := @offered_drawSuppliers casefold store (demand.keys casefold)
    (supplierCandidates (supplierByNom casefold store) (demand.keys casefold))
    ⟨before.supplier, (drawStock store (stockByNom casefold store) (demand.keys casefold)
      ⟨before.stock, demand.quantity, 0, [], []⟩).left, 0, [], []⟩
    (fun d hd => by cases hd) _ hdraw
  exact ⟨nomKey, hnamed, hown ▸ hrun.onHand_pos (List.mem_flatMap.mpr ⟨_, hmem, hdraw⟩),
    hown ▸ hoffered⟩

def offeringCase (o : Offering) (quantity : ℚ) : Case where
  id := some "a"
  caseId := none
  requiredDate := .missing
  positions := [⟨false, some "1", none, o.nomenclatureId, none, quantity, none, .missing⟩]

def offeringDemand (o : Offering) (quantity : ℚ) : Demand :=
  ⟨"a", "1", strip (text o.nomenclatureId), none, quantity, "шт", .missing⟩

theorem lines_offeringCase (o : Offering) {quantity : ℚ} (hpos : 0 < quantity) :
    allocateMaterialsByDeadline casefold fromIsoFormat store [offeringCase o quantity] =
      [(allocateLine casefold store (initialRemaining casefold store)
        (offeringDemand o quantity)).1] := by
  have hdemands : demandsFromCases [offeringCase o quantity] = [offeringDemand o quantity] := by
    simp only [demandsFromCases, List.flatMap_cons, List.flatMap_nil, List.append_nil,
      offeringCase, List.filterMap_cons, List.filterMap_nil, demandOf, Bool.false_eq_true, if_false,
      if_neg (not_le.mpr hpos)]
    rfl
  rw [allocateMaterialsByDeadline, sortedDemands, hdemands, sortBy_singleton]
  rfl

/-- A demand for more than the bank has leaves something uncovered. -/
theorem LineServed.left_pos_of_large {remaining remaining' : Remaining} {demand : Demand} {mid left : ℚ}
    (h : LineServed casefold store remaining demand line remaining' mid left)
    (hlarge : total (max 0) remaining.stock.values + total (max 0) remaining.supplier.values <
      demand.quantity) : 0 < left := by
  have hstock := h.stock.draws.takenInAll_le
  have hsupplier := h.supplier.draws.takenInAll_le
  have hbalance := h.balance
  rw [h.fromWarehouse, h.fromSupplier] at hbalance
  unfold total at hlarge
  linarith

/-- A case that asks for more than the bank has takes from every supplier of the nomenclature. -/
theorem part_of_drawable {supplierId nomKey : String}
    (h : Drawable casefold store supplierId nomKey) :
    ∃ cases, ∃ line ∈ allocateMaterialsByDeadline casefold fromIsoFormat store cases,
      ∃ part ∈ line.supplierParts, part.supplierId = supplierId := by
  obtain ⟨hnamed, havailable, o, ho, rfl⟩ := h
  have hnonneg : ∀ values : List ℚ, 0 ≤ total (max 0) values := fun values =>
    total_nonneg fun value _ => le_max_left 0 value
  have hstock := hnonneg (initialRemaining casefold store).stock.values
  have hsupplier := hnonneg (initialRemaining casefold store).supplier.values
  let quantity := total (max 0) (initialRemaining casefold store).stock.values +
    total (max 0) (initialRemaining casefold store).supplier.values + 1
  have hpos : 0 < quantity := by
    change 0 < _ + _ + 1
    linarith
  refine ⟨[offeringCase o quantity], _, lines_offeringCase o hpos ▸ List.mem_singleton.mpr rfl, ?_⟩
  obtain ⟨mid, left, hserved⟩ := allocateLine_served casefold store (initialRemaining casefold store)
    (offeringDemand o quantity)
  have hleft : 0 < left := hserved.left_pos_of_large (lt_add_one _)
  have hkey : o.nomKey casefold ∈ (offeringDemand o quantity).keys casefold := by
    refine mem_matchKeys.mpr ⟨hnamed, .inl ?_⟩
    exact (Text.normalize_strip casefold _).symm
  have hfits : o.fits casefold ((offeringDemand o quantity).keys casefold) = true :=
    List.any_eq_true.mpr ⟨_, Offering.mem_keys.mpr ⟨hnamed, .inl rfl⟩, decide_eq_true hkey⟩
  have hlisted : supplierId ∈ (supplierByNom casefold store).getD (o.nomKey casefold) [] := by
    cases hget : (initialRemaining casefold store).supplier.get? (supplierId, o.nomKey casefold) with
    | none =>
      rw [onHand, Dict.getD, hget] at havailable
      exact absurd havailable (lt_irrefl 0)
    | some available =>
      rw [onHand, Dict.getD, hget, Option.getD_some] at havailable
      refine mem_supplierByNom hget ?_
      unfold supplierKeys
      rw [if_neg (not_le.mpr havailable)]
      split
      · split <;> simp
      · simp
  -- nothing is left of it, so that it was drawn from
  have hspent := (hserved.spentSupplier _ hkey supplierId hlisted o ho hfits hnamed).resolve_left
    (not_le.mpr hleft)
  have htaken := hserved.supplier.draws.onHand_add_taken (supplierId, o.nomKey casefold)
  by_contra hnone
  have hzero : takenUnder supplierId (supplierLog (allocateLine casefold store
      (initialRemaining casefold store) (offeringDemand o quantity)).1.supplierParts) = 0 :=
    takenUnder_eq_zero fun d hd he => by
      obtain ⟨part, hpart, rfl⟩ := List.mem_map.mp hd
      exact hnone ⟨part, hpart, he⟩
  rw [hserved.parts] at hzero
  have hunused : takenUnder (supplierId, o.nomKey casefold) (allocateLine casefold store
      (initialRemaining casefold store) (offeringDemand o quantity)).1.supplierDraws = 0 :=
    takenUnder_eq_zero fun d hd he => by
      have hall : ∀ e ∈ bySupplier (allocateLine casefold store
          (initialRemaining casefold store) (offeringDemand o quantity)).1.supplierDraws,
          0 < e.2 := by
        intro e hmem
        obtain ⟨draw, hdraw, rfl⟩ := List.mem_map.mp hmem
        exact hserved.supplier.draws.positive draw hdraw
      have hsome := takenUnder_pos hall (List.mem_map_of_mem hd)
      rw [he, hzero] at hsome
      exact lt_irrefl 0 hsome
  rw [hunused, add_zero] at htaken
  exact absurd (htaken ▸ havailable) (not_lt.mpr hspent)

/-- **Totals are reconciled for every list of cases exactly when the bank has nothing to take from a
supplier whose id is nothing but blanks**; and one result is, when none of its lines has a part of such
a supplier. -/
theorem allocationResult_reconciled_iff (casefold : String → String)
    (fromIsoFormat : String → Option DateTime) (store : MaterialBankStore) :
    ((∀ cases, Reconciled (allocationResult casefold fromIsoFormat store cases)) ↔
        ∀ supplierId nomKey, Drawable casefold store supplierId nomKey → strip supplierId ≠ "") ∧
      ∀ cases, Reconciled (allocationResult casefold fromIsoFormat store cases) ↔
        ∀ line ∈ allocateMaterialsByDeadline casefold fromIsoFormat store cases,
          ∀ part ∈ line.supplierParts, strip part.supplierId ≠ "" := by
  refine ⟨⟨fun h supplierId nomKey hdraw => ?_, fun h cases => ?_⟩, reconciled_result_iff⟩
  · obtain ⟨cases, line, hline, part, hpart, rfl⟩ :=
      @part_of_drawable casefold fromIsoFormat store _ _ hdraw
    exact (reconciled_result_iff cases).mp (h cases) line hline part hpart
  · refine (reconciled_result_iff cases).mpr fun line hline part hpart => ?_
    obtain ⟨nomKey, hdraw⟩ := drawable_of_part hline hpart
    exact h part.supplierId nomKey hdraw

/-- Five bolts at a supplier whose id is one blank. -/
def blankSupplier : MaterialBankStore where
  warehouses := []
  stockLines := []
  suppliers := [⟨some " ", some "Bolts and Nuts", true,
    [{ nomenclatureId := some "bolt", nomenclatureName := none, availableQuantity := some 5,
       availableQty := none, leadTimeDays := none, unitPrice := none }], none, none, none⟩]

/-- A case for five bolts takes them, and the row of the bolts has no supplier for them. -/
theorem allocationResult_blank_supplier_fails :
    ¬ Reconciled (allocationResult id (fun _ => none) blankSupplier [boltCase "a" 5 10]) := by
  intro h
  exact absurd ((reconciled_result_iff _).mp h) (by decide +kernel)

end AgentBack.Procurement
