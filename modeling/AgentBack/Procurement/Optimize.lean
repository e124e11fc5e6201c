import AgentBack.Procurement.Allocation
import Mathlib.Data.Rat.Floor

/-!
# The cost of covering a need (`procurement_manager_agent/pricing.py`)

`greedyCoverCost` buys a quantity from the cheapest offers first, in whole lots and not below the
minimal order. What a lot brings beyond the need is paid for and counted as `overpay`.
-/

namespace AgentBack.Procurement

structure Offer where
  supplierId : String
  supplierName : String
  nomenclatureId : String
  nomenclatureName : Option String
  unitPrice : Option ℚ
  availableQty : Option ℚ
  availableQuantity : Option ℚ
  unit : String
  leadTimeDays : Option Int
  abcClass : Option AbcClass
  qualityRating : Option ℚ
  deliveryRating : Option ℚ
  lotSize : Option ℚ
  packQty : Option ℚ
  packSize : Option ℚ
  minOrderQty : Option ℚ

/-- `_offer_available` of the pricing. -/
def Offer.stock (offer : Offer) : ℚ :=
  match offer.availableQty <|> offer.availableQuantity with
  | some qty => if qty < 0 then 0 else qty
  | none => 0

/-- `_offer_lot_size`: the first lot above 1. -/
def Offer.lot (offer : Offer) : ℚ :=
  ([offer.lotSize, offer.packQty, offer.packSize].findSome? fun raw => raw.filter (1 < ·)).getD 1

/-- `_offer_min_order`. -/
def Offer.minOrder (offer : Offer) : ℚ := (offer.minOrderQty.filter (0 < ·)).getD 0

/-- `_money`: to two places, halves to the even neighbour. -/
def money (value : ℚ) : ℚ :=
  let cents := ⌊value * 100⌋
  let rest := value * 100 - cents
  (if rest < 1 / 2 ∨ (rest = 1 / 2 ∧ cents % 2 = 0) then cents else cents + 1 : Int) / 100

def ceilToLot (qty lot : ℚ) : ℚ :=
  if lot ≤ 1 then qty else if qty ≤ 0 then 0 else ⌈qty / lot⌉ * lot

def floorToLot (qty lot : ℚ) : ℚ :=
  if lot ≤ 1 then qty else if qty ≤ 0 then 0 else ⌊qty / lot⌋ * lot

structure CoverRow where
  price : ℚ
  available : ℚ
  lot : ℚ
  minOrder : ℚ
  supplierId : String

structure CoverLoop where
  left : ℚ
  total : ℚ
  covered : ℚ
  purchased : ℚ
  overpay : ℚ

/-- What the lot and the minimal order ask to buy for `left`. -/
def CoverRow.wanted (row : CoverRow) (left : ℚ) : ℚ :=
  let purchase := if row.lot > 1 then ceilToLot left row.lot else left
  if row.minOrder > purchase then row.minOrder else purchase

/-- What is bought of it, before the minimal order is checked once more. -/
def CoverRow.purchase (row : CoverRow) (left : ℚ) : ℚ :=
  if row.wanted left > row.available then
    if row.lot > 1 then floorToLot row.available row.lot else row.available
  else row.wanted left

def coverOffer (s : CoverLoop) (row : CoverRow) : CoverLoop :=
  let purchase := row.purchase s.left
  if row.minOrder > 0 ∧ purchase < row.minOrder then s
  else if purchase ≤ 0 then s
  else
    let toNeed := min s.left purchase
    let excess := purchase - toNeed
    { left := s.left - toNeed
      total := s.total + purchase * row.price
      covered := s.covered + toNeed
      purchased := s.purchased + purchase
      overpay := s.overpay + excess * row.price }

/-- The loop over the offers; it breaks when nothing is left to cover. -/
def coverOffers : List CoverRow → CoverLoop → CoverLoop
  | [], s => s
  | row :: rest, s => if s.left ≤ 0 then s else coverOffers rest (coverOffer s row)

structure CoverResult where
  amount : Option ℚ
  coveredQty : ℚ
  source : String
  overpay : ℚ
  purchasedQty : ℚ
  deriving DecidableEq

/-- The row of an offer with a price and something available. -/
def coverRow (offer : Offer) : Option CoverRow :=
  match offer.unitPrice with
  | some price =>
    if price < 0 ∨ offer.stock ≤ 0 then none
    else some ⟨price, offer.stock, offer.lot, offer.minOrder, offer.supplierId⟩
  | none => none

/-- `ranked.sort(key=lambda row: (row[0], -row[1], row[4]))`. -/
def CoverRow.rank (row : CoverRow) : ℚ ×ₗ ℚ ×ₗ String :=
  toLex (row.price, toLex (-row.available, row.supplierId))

def greedyCoverCost (quantity : ℚ) (offers : List Offer) : CoverResult :=
  let need := if quantity > 0 then quantity else 0
  if need ≤ 0 then ⟨some 0, 0, "покрывающие офферы", 0, 0⟩
  else if offers.isEmpty then ⟨none, 0, "—", 0, 0⟩
  else
    let ranked := sortBy CoverRow.rank (offers.filterMap coverRow)
    let s := coverOffers ranked ⟨need, 0, 0, 0, 0⟩
    if s.covered ≤ 0 then ⟨none, 0, "—", 0, 0⟩
    else ⟨some (money s.total), s.covered, "покрывающие офферы", money s.overpay, s.purchased⟩

end AgentBack.Procurement

/-!
# Urgency waves (`procurement_manager_agent/waves.py`)

The cases of a queue fall into three waves by their earliest deadline: critical, medium, late. `Host`
holds what the functions take from outside: `str.casefold`, `datetime.fromisoformat`,
`date.fromisoformat`, the cached ABC classes and today's date. A date is its ordinal.
-/

namespace AgentBack.Procurement

structure Host where
  casefold : String → String
  fromIsoFormat : String → Option DateTime
  dateFromIsoFormat : String → Option Int
  cachedAbcClass : String → Option AbcClass
  today : Int

def DateTime.date (value : DateTime) : Int := value.wall / 86400000000 + 1

/-- The ordinal of `date.max`. -/
def dateMax : Int := 3652059

/-- `text[:10]`. -/
def firstTen (value : String) : String := String.ofList (value.toList.take 10)

/-- `_parse_date` of the waves and of the optimizer. -/
def parseDate (host : Host) (required : RequiredDate) : Option Int :=
  match required with
  | .missing => none
  | .moment value => some value.date
  | .text value =>
    let value := Text.strip value
    if value = "" then none
    else
      match host.fromIsoFormat (replaceZulu value) with
      | some moment => some moment.date
      | none => host.dateFromIsoFormat (firstTen value)

inductive WaveLabel where
  | critical
  | medium
  | late
  deriving DecidableEq

def WaveLabel.name : WaveLabel → String
  | .critical => "critical"
  | .medium => "medium"
  | .late => "late"

inductive WaveMode where
  | urgent
  | economy
  deriving DecidableEq

/-- `_case_id`. -/
def caseIdOf (case : Case) : String := textOr case.id case.caseId

/-- `case_required_date`: the earliest date of the positions, the date of the case failing that. -/
def caseRequiredDate (host : Host) (case : Case) : Option Int :=
  let caseRequired := parseDate host case.requiredDate
  let dates := (case.positions.filter fun position => ¬ position.cancelled).filterMap fun position =>
    parseDate host position.requiredDate <|> caseRequired
  dates.min? <|> caseRequired

/-- `classify_urgency` with the default spans of 7 and 21 days. -/
def classifyUrgency (host : Host) (required : Option Int) : WaveLabel :=
  match required with
  | none => .late
  | some date =>
    if date - host.today ≤ 7 then .critical
    else if date - host.today ≤ 21 then .medium
    else .late

def waveModeForLabel (label : WaveLabel) : WaveMode :=
  if label = .late then .economy else .urgent

structure WaveRow where
  caseId : String
  requiredDate : Option Int
  label : WaveLabel
  mode : WaveMode

structure Wave where
  waveId : String
  waveIndex : Nat
  label : WaveLabel
  mode : WaveMode
  cases : List WaveRow

/-- What `bucket_urgency_waves` answers; `caseWave` leads from a case to its wave. -/
structure WavePlan where
  waves : List Wave
  caseWave : Dict String String

def waveRow (host : Host) (case : Case) : Option WaveRow :=
  if caseIdOf case = "" then none
  else
    let required := caseRequiredDate host case
    let label := classifyUrgency host required
    some ⟨caseIdOf case, required, label, waveModeForLabel label⟩

/-- The `_sort` of a row. -/
def WaveRow.order (row : WaveRow) : ℕ ×ₗ ℤ ×ₗ String :=
  toLex (if row.requiredDate.isSome then 0 else 1,
    toLex (row.requiredDate.getD dateMax, row.caseId))

/-- The waves of some labels that have a case; the index counts them. -/
def wavesFrom (rows : List WaveRow) : Nat → List WaveLabel → List Wave
  | _, [] => []
  | index, label :: rest =>
    let members := rows.filter fun row => row.label = label
    if members.isEmpty then wavesFrom rows index rest
    else
      let index := index + 1
      ⟨"wave-" ++ toString index ++ "-" ++ label.name, index, label, waveModeForLabel label,
        members⟩ :: wavesFrom rows index rest

def bucketUrgencyWaves (host : Host) (cases : List Case) : WavePlan :=
  let rows := sortBy WaveRow.order (cases.filterMap (waveRow host))
  let waves := wavesFrom rows 0 [.critical, .medium, .late]
  { waves
    caseWave := Dict.ofList (waves.flatMap fun wave =>
      wave.cases.map fun row => (row.caseId, wave.waveId)) }

/-- `wave_by_id.get(case_wave.get(cid))`. -/
def WavePlan.waveOf (plan : WavePlan) (caseId : String) : Option Wave :=
  (plan.caseWave.get? caseId).bind
    (Dict.ofList (plan.waves.map fun wave => (wave.waveId, wave))).get?

end AgentBack.Procurement

/-!
# Ranking the suppliers (`procurement_manager_agent/optimize.py`, `supplier_ranking.py`)

`optimizeSupplierOffers` ranks the offers for a need by the deadline first, then by the ABC class,
the quantity covered, the cost, the lead time, the price and the ratings. `optimizeCaseCoverage`
serves a case from the warehouse and ranks the suppliers for what remains. The scores and the texts
that explain a rank are left out: nothing reads them.
-/

namespace AgentBack.Procurement

/-- `collect_supplier_offers`: the offering of a supplier under the id, priced and available. -/
def offerOf (casefold : String → String) (key : String) (supplier : Supplier)
    (offering : Offering) : Option Offer :=
  if offering.nomKey casefold ≠ key then none
  else
    match offering.unitPrice, offering.availableQuantity <|> offering.availableQty with
    | some price, some available =>
      if price < 0 ∨ available ≤ 0 then none
      else some {
        supplierId := text supplier.supplierId
        supplierName := textOr supplier.name supplier.supplierId
        nomenclatureId := Text.strip (text offering.nomenclatureId)
        nomenclatureName := offering.nomenclatureName
        unitPrice := some price
        availableQty := some available
        availableQuantity := none
        unit := textOr offering.unit (some "шт")
        leadTimeDays := offering.leadTimeDays
        abcClass := supplier.abcClass
        qualityRating := supplier.qualityRating
        deliveryRating := supplier.deliveryRating
        lotSize := offering.lotSize.filter (0 < ·)
        packQty := offering.packQty.filter (0 < ·)
        packSize := offering.packSize.filter (0 < ·)
        minOrderQty := offering.minOrderQty.filter (0 < ·) }
    | _, _ => none

def collectSupplierOffers (casefold : String → String) (store : MaterialBankStore)
    (nomenclatureId : String) : List Offer :=
  let key := Text.normalize casefold nomenclatureId
  if key = "" then []
  else store.activeSuppliers.flatMap fun supplier =>
    supplier.offerings.filterMap (offerOf casefold key supplier)

def Offer.available (offer : Offer) : Option ℚ := offer.availableQty <|> offer.availableQuantity

/-- `_parse_date` of the delivery schedule. -/
def scheduleDate (host : Host) (required : RequiredDate) : Option Int :=
  match required with
  | .missing => none
  | .moment value => some value.date
  | .text value =>
    let value := Text.strip value
    if value = "" then none else host.dateFromIsoFormat (firstTen value)

def Offer.leadDays (offer : Offer) : Option Int := offer.leadTimeDays.filter (0 ≤ ·)

/-- `offer_meets_deadline`; no answer when the arrival is not known. -/
def offerMeetsDeadline (host : Host) (required : RequiredDate) (leadTimeDays : Option Int) :
    Option Bool :=
  match scheduleDate host required with
  | none => some true
  | some date => (leadTimeDays.filter (0 ≤ ·)).map fun days => host.today + days ≤ date

/-! ## One offer -/

/-- `_round_money`: to two places, halves away from zero. -/
def roundMoney (value : ℚ) : ℚ :=
  if 0 ≤ value then (⌊value * 100 + 1 / 2⌋ : Int) / 100 else -((⌊-value * 100 + 1 / 2⌋ : Int) / 100)

/-- `_single_offer_cost`: the total cost, the overpay and the quantity covered. -/
def singleOfferCost (need : ℚ) (offer : Offer) : ℚ × ℚ × ℚ :=
  let cover := greedyCoverCost need [offer]
  match cover.amount with
  | none => (0, 0, 0)
  | some amount => (amount, cover.overpay, cover.coveredQty)

inductive DeadlineStatus where
  | ok
  | unknown
  | miss
  deriving DecidableEq

structure RankedOffer where
  rank : Nat
  supplierId : String
  supplierName : String
  nomenclatureId : String
  nomenclatureName : Option String
  unitPrice : ℚ
  availableQty : ℚ
  coverableQty : ℚ
  coverageCost : ℚ
  totalCost : ℚ
  overpay : ℚ
  meetsDeadline : Bool
  deadlineStatus : DeadlineStatus
  leadTimeDays : Option Int
  abcClass : Option AbcClass
  unit : String
  deadlineRisk : Bool
  deriving DecidableEq

def abcSortKey : Option AbcClass → Nat
  | some .a => 0
  | some .b => 1
  | some .c => 2
  | none => 3

def missingLead : Int := 1000000000

abbrev RankKey := ℕ ×ₗ ℕ ×ₗ ℚ ×ₗ ℚ ×ₗ ℤ ×ₗ ℚ ×ₗ ℚ ×ₗ ℚ ×ₗ String

/-- `min(need, available)`, or what the cover buys when it buys something. -/
def coverableQty (need available coveredQty : ℚ) : ℚ :=
  if coveredQty > 0 then min need coveredQty else min need available

/-- The row of an offer with a price and something available, under its place in the order. -/
def rankOffer (host : Host) (need : ℚ) (required : RequiredDate) (offer : Offer) :
    Option (RankKey × RankedOffer) :=
  match offer.unitPrice, offer.available with
  | some unitPrice, some available =>
    if unitPrice < 0 ∨ available ≤ 0 then none
    else
      let lead := offer.leadDays
      let meets := offerMeetsDeadline host required lead
      let cost := singleOfferCost need offer
      let totalCost := cost.1
      let overpay := cost.2.1
      let coverable := coverableQty need available cost.2.2
      let abcClass := offer.abcClass <|> host.cachedAbcClass offer.supplierId
      some (
        toLex (if meets = some true then 0 else 1,
          toLex (abcSortKey abcClass,
            toLex (-coverable,
              toLex (if totalCost > 0 then totalCost else coverable * unitPrice,
                toLex (lead.getD missingLead,
                  toLex (unitPrice,
                    toLex (-(offer.qualityRating.getD 0),
                      toLex (-(offer.deliveryRating.getD 0), offer.supplierId)))))))),
        { rank := 0
          supplierId := offer.supplierId
          supplierName := textOr (some offer.supplierName) (some offer.supplierId)
          nomenclatureId := offer.nomenclatureId
          nomenclatureName := offer.nomenclatureName
          unitPrice := roundMoney unitPrice
          availableQty := available
          coverableQty := coverable
          coverageCost :=
            if totalCost ≥ overpay then roundMoney (totalCost - overpay)
            else roundMoney (coverable * unitPrice)
          totalCost :=
            if totalCost > 0 then roundMoney totalCost else roundMoney (coverable * unitPrice)
          overpay := roundMoney overpay
          meetsDeadline := meets = some true ∨ parseDate host required = none
          deadlineStatus :=
            match meets with
            | some true => .ok
            | none => .unknown
            | some false => .miss
          leadTimeDays := lead
          abcClass
          unit := offer.unit
          deadlineRisk := false })
  | _, _ => none

/-- `items[:n]` as Python reads it: a negative `n` counts from the end. -/
def sliceTo {α : Type} (items : List α) (n : Int) : List α :=
  if n < 0 then items.take (items.length - n.natAbs) else items.take n.natAbs

/-- `enumerate(top, start=1)` sets the rank. -/
def setRanks (start : Nat) : List RankedOffer → List RankedOffer
  | [] => []
  | row :: rest => { row with rank := start } :: setRanks (start + 1) rest

def optimizeSupplierOffers (host : Host) (need : ℚ) (offers : List Offer)
    (required : RequiredDate) (topN : Int) : List RankedOffer :=
  if need ≤ 0 ∨ topN ≤ 0 then []
  else
    let ranked := sortBy Prod.fst (offers.filterMap (rankOffer host need required))
    let anyMeets := offers.any fun offer =>
      (rankOffer host need required offer).isSome &&
        decide (offerMeetsDeadline host required offer.leadDays = some true)
    let deadlineRisk := (parseDate host required).isSome && !anyMeets
    setRanks 1 (sliceTo ((ranked.map Prod.snd).map fun row => { row with deadlineRisk }) topN)

/-- A line of `optimize_case_coverage`. -/
structure CaseLine where
  lineId : String
  caseId : String
  nomenclatureId : String
  nomenclatureName : Option String
  neededQuantity : ℚ
  fromWarehouse : ℚ
  supplierRemainder : ℚ
  requiredDate : RequiredDate
  coverageSource : CoverageSource
  tone : CoverageTone
  topSuppliers : List RankedOffer
  deriving DecidableEq

def CaseLine.recommendedSupplierId (line : CaseLine) : Option String :=
  line.topSuppliers.head?.map RankedOffer.supplierId

def LineResult.supplierRemainder (line : LineResult) : ℚ :=
  if line.neededQuantity - line.fromWarehouse < 0 then 0
  else line.neededQuantity - line.fromWarehouse

def optimizeCaseLine (host : Host) (store : MaterialBankStore) (caseRequired : RequiredDate)
    (topN : Int) (line : LineResult) : CaseLine :=
  let nom := Text.strip line.nomenclatureId
  let remainder := line.supplierRemainder
  let required := if line.requiredDate.isGiven then line.requiredDate else caseRequired
  let offers := if nom = "" then [] else collectSupplierOffers host.casefold store nom
  { lineId := line.lineId
    caseId := line.caseId
    nomenclatureId := nom
    nomenclatureName := line.nomenclatureName
    neededQuantity := line.neededQuantity
    fromWarehouse := line.fromWarehouse
    supplierRemainder := remainder
    requiredDate := required
    coverageSource := line.coverageSource
    tone := line.tone
    topSuppliers :=
      if remainder > 0 ∧ offers ≠ [] then
        optimizeSupplierOffers host remainder offers required topN
      else [] }

/-- The case that `optimize_case_coverage` hands to the allocation. -/
def caseStub (caseId : Option String) (caseRequired : RequiredDate) (positions : List Position) :
    Case where
  id := some (textOr caseId (some "optimize-case"))
  caseId := none
  requiredDate := caseRequired
  positions

/-- `optimize_case_coverage` with the offers of the bank. -/
def optimizeCaseCoverage (host : Host) (store : MaterialBankStore) (positions : List Position)
    (caseId : Option String) (caseRequired : RequiredDate) (topN : Int) : List CaseLine :=
  (allocateMaterialsByDeadline host.casefold host.fromIsoFormat store
    [caseStub caseId caseRequired positions]).map (optimizeCaseLine host store caseRequired topN)

end AgentBack.Procurement
