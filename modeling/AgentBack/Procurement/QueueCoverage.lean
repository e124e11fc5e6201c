import AgentBack.Procurement.Optimize

/-!
# Coverage of a queue (`optimize_queue_coverage` of `procurement_manager_agent/optimize.py`)

The lines of all cases go through the waves. A line takes from the warehouse what the allocation
gave it; for the rest it picks one supplier, the first of the ranking of the residual offers, and
what it takes is gone for the lines after it. A line also carries `offers`, the residual offers it was
ranked on, which the source does not keep.
-/

namespace AgentBack.Procurement

/-- The offerings with a `nomenclature_id`, under the supplier and the key of the id. -/
def seedRows (casefold : String → String) (store : MaterialBankStore) :
    List ((String × String) × Offering) :=
  store.activeSuppliers.flatMap fun supplier =>
    (supplier.offerings.filter fun o => o.nomKey casefold ≠ "").map fun o =>
      ((text supplier.supplierId, o.nomKey casefold), o)

/-- `remaining_supplier` before the first line. -/
def seedSupplier (casefold : String → String) (store : MaterialBankStore) :
    Dict (String × String) ℚ :=
  Dict.ofList ((seedRows casefold store).map fun row => (row.1, row.2.available))

/-- The body of the loop of `_apply_remaining_qty`: a key that is not known is seeded by the offer. -/
def applyRemaining (nomKey : String) (s : Dict (String × String) ℚ × List Offer) (offer : Offer) :
    Dict (String × String) ℚ × List Offer :=
  let sid := Text.strip offer.supplierId
  if sid = "" then s
  else
    let left := (s.1.get? (sid, nomKey)).getD (offer.available.getD 0)
    let remaining := if (s.1.get? (sid, nomKey)).isSome then s.1 else s.1.set (sid, nomKey) left
    if left ≤ 0 then (remaining, s.2)
    else (remaining,
      s.2 ++ [{ offer with availableQty := some left, availableQuantity := some left }])

/-- `_apply_remaining_qty`: the residual with the keys it met, and the offers cut to it. -/
def applyRemainingQty (remaining : Dict (String × String) ℚ) (nomKey : String)
    (offers : List Offer) : Dict (String × String) ℚ × List Offer :=
  offers.foldl (applyRemaining nomKey) (remaining, [])

def consumePick (remaining : Dict (String × String) ℚ) (supplierId nomKey : String) (qty : ℚ) :
    Dict (String × String) ℚ :=
  let left := remaining.getD (supplierId, nomKey) 0 - qty
  remaining.set (supplierId, nomKey) (if left > 0 then left else 0)

/-- `_dec(value) or Decimal("999999999")`. -/
def orCostly (value : ℚ) : ℚ := if value = 0 then 999999999 else value

def economyOrder (row : RankedOffer) : ℚ ×ₗ ℤ ×ₗ ℚ ×ₗ String :=
  toLex (orCostly row.totalCost,
    toLex (row.leadTimeDays.getD missingLead, toLex (orCostly row.unitPrice, row.supplierId)))

def rankForWaveMode (host : Host) (need : ℚ) (offers : List Offer) (required : RequiredDate)
    (mode : WaveMode) (topN : Int) : List RankedOffer :=
  let ranked := optimizeSupplierOffers host need offers required (max topN offers.length)
  match mode with
  | .urgent => sliceTo ranked topN
  | .economy =>
    let feasible := ranked.filter fun row => row.meetsDeadline
    let pool := if feasible.isEmpty then ranked else feasible
    setRanks 1 (sliceTo (sortBy economyOrder pool) topN)

/-! ## One line -/

/-- A `supplier_parts` entry. -/
structure QueuePart where
  supplierId : String
  supplierName : String
  quantity : ℚ
  unitPrice : ℚ
  meetsDeadline : Bool
  waveMode : WaveMode
  totalCost : ℚ
  overpay : ℚ
  leadTimeDays : Option Int
  deriving DecidableEq

/-- A supplier that an economy wave picks in place of the one of the urgent waves. -/
structure Diversity where
  caseId : String
  lineId : String
  nomenclatureId : String
  nomenclatureName : Option String
  urgentSupplierId : String
  economySupplierId : String
  economySupplierName : String
  unitPrice : ℚ
  meetsDeadline : Bool
  deriving DecidableEq

/-- A line of `optimize_queue_coverage`. -/
structure QueueLine where
  caseId : String
  lineId : String
  nomenclatureId : String
  nomenclatureName : Option String
  neededQuantity : ℚ
  fromWarehouse : ℚ
  supplierRemainder : ℚ
  requiredDate : RequiredDate
  coverageSource : CoverageSource
  tone : CoverageTone
  waveId : Option String
  waveLabel : WaveLabel
  waveMode : WaveMode
  topSuppliers : List RankedOffer
  supplierParts : List QueuePart
  supplierDiversity : Option Diversity
  offers : List Offer

/-- `nom.casefold()` of a line. -/
def QueueLine.nomKey (casefold : String → String) (line : QueueLine) : String :=
  casefold line.nomenclatureId

def QueueLine.assigned (line : QueueLine) : ℚ := (line.supplierParts.map QueuePart.quantity).sum

/-- The variables of the loop over the lines. -/
structure QueueState where
  remainingSupplier : Dict (String × String) ℚ
  urgentPrimaryByNom : Dict String String

/-- What a line takes of the supplier it picks: `_dec(primary.get("coverable_qty")) or remainder`
at most. -/
def pickQuantity (remainder : ℚ) (primary : RankedOffer) : ℚ :=
  min remainder (if primary.coverableQty = 0 then remainder else primary.coverableQty)

/-- The parts of a line: at most one, of the first supplier of the ranking. -/
def pickParts (remainder : ℚ) (mode : WaveMode) (top : List RankedOffer) : List QueuePart :=
  match top.head? with
  | none => []
  | some primary =>
    let take := pickQuantity remainder primary
    if remainder > 0 ∧ take > 0 then
      [⟨primary.supplierId, primary.supplierName, take, primary.unitPrice, primary.meetsDeadline,
        mode, primary.totalCost, primary.overpay, primary.leadTimeDays⟩]
    else []

def diversityRow (line : LineResult) (nom : String) (urgentSid : Option String) (mode : WaveMode)
    (primary : Option RankedOffer) : Option Diversity :=
  match mode, primary, urgentSid with
  | .economy, some primary, some urgentSid =>
    if urgentSid ≠ "" ∧ urgentSid ≠ primary.supplierId then
      some ⟨line.caseId, line.lineId, nom, line.nomenclatureName, urgentSid, primary.supplierId,
        primary.supplierName, primary.unitPrice, primary.meetsDeadline⟩
    else none
  | _, _, _ => none

/-- The body of the loop over the lines; `waveMode` overrides the mode of the wave. -/
def optimizeLine (host : Host) (store : MaterialBankStore) (plan : WavePlan)
    (waveMode : Option WaveMode) (topN : Int) (s : QueueState) (line : LineResult) :
    QueueLine × QueueState :=
  let nom := Text.strip line.nomenclatureId
  let nomKey := host.casefold nom
  let remainder := line.supplierRemainder
  let wave := plan.waveOf line.caseId
  let label := (wave.map Wave.label).getD .late
  let mode := waveMode.getD (waveModeForLabel label)
  let collected := if nom = "" then [] else collectSupplierOffers host.casefold store nom
  let applied := applyRemainingQty s.remainingSupplier nomKey collected
  let top :=
    if remainder > 0 ∧ applied.2 ≠ [] then
      rankForWaveMode host remainder applied.2 line.requiredDate mode topN
    else []
  let primary := top.head?
  let parts := pickParts remainder mode top
  let remaining := parts.foldl
    (fun remaining part => consumePick remaining part.supplierId nomKey part.quantity) applied.1
  let known := s.urgentPrimaryByNom
  let urgent :=
    match mode, primary with
    | .urgent, some primary =>
      if nomKey = "" ∨ (known.get? nomKey).isSome then known
      else known.set nomKey primary.supplierId
    | _, _ => known
  ({ caseId := line.caseId
     lineId := line.lineId
     nomenclatureId := nom
     nomenclatureName := line.nomenclatureName
     neededQuantity := line.neededQuantity
     fromWarehouse := line.fromWarehouse
     supplierRemainder := remainder
     requiredDate := line.requiredDate
     coverageSource := line.coverageSource
     tone := line.tone
     waveId := plan.caseWave.get? line.caseId
     waveLabel := label
     waveMode := mode
     topSuppliers := top
     supplierParts := parts
     supplierDiversity :=
       if nomKey = "" then none else diversityRow line nom (urgent.get? nomKey) mode primary
     offers := applied.2 },
    ⟨remaining, urgent⟩)

/-- `_line_sort`: the wave, then the deadline. -/
def lineOrder (host : Host) (plan : WavePlan) (line : LineResult) : ℕ ×ₗ ℤ ×ₗ String ×ₗ String :=
  toLex (((plan.waveOf line.caseId).map Wave.waveIndex).getD 99,
    toLex ((parseDate host line.requiredDate).getD dateMax, toLex (line.caseId, line.lineId)))

def optimizeLines (host : Host) (store : MaterialBankStore) (plan : WavePlan)
    (waveMode : Option WaveMode) (topN : Int) :
    QueueState → List LineResult → List QueueLine × QueueState
  | s, [] => ([], s)
  | s, line :: rest =>
    let done := optimizeLine host store plan waveMode topN s line
    let later := optimizeLines host store plan waveMode topN done.2 rest
    (done.1 :: later.1, later.2)

/-- What `optimize_queue_coverage` answers, with the residual it ends with. -/
structure QueueCoverage where
  waves : WavePlan
  lines : List QueueLine
  assignments : Dict String (List QueuePart)
  supplierDiversity : List Diversity
  remainingSupplier : Dict (String × String) ℚ

/-- `optimize_queue_coverage` with the offers of the bank. -/
def optimizeQueueCoverage (host : Host) (store : MaterialBankStore) (cases : List Case)
    (waveMode : Option WaveMode) (topN : Int) : QueueCoverage :=
  let packed := allocateMaterialsByDeadline host.casefold host.fromIsoFormat store cases
  let plan := bucketUrgencyWaves host cases
  let run := optimizeLines host store plan waveMode topN
    ⟨seedSupplier host.casefold store, ∅⟩ (sortBy (lineOrder host plan) packed)
  { waves := plan
    lines := run.1
    assignments := Dict.ofList (run.1.map fun line =>
      (line.caseId ++ ":" ++ line.lineId, line.supplierParts))
    supplierDiversity := run.1.filterMap QueueLine.supplierDiversity
    remainingSupplier := run.2.remainingSupplier }

end AgentBack.Procurement
