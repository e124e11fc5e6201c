import AgentBack.Base.FirstWins
import AgentBack.Orchestrator.Records
import AgentBack.Quality.Rules

/-!
# Cards of presented goods (`agents/quality_engineer_agent/otk_service.py`, `otk_schemas.py`)

The cards that the workers of quality control see and edit. They lie in the metadata of the cases;
an edit names a card by its id, and all cases are gone through for it. Of a case, the columns and
the keys of the metadata that the edits and the reconciliation read or write are kept.
-/

namespace AgentBack.Otk

open Py (Value)
open Quality (PyFloat)
open Orchestrator (AgentId CaseStatus SourceType)

inductive FieldValue where
  | null
  | text (value : String)
  | num (value : PyFloat)
  deriving DecidableEq

/-- The fields of `OtkPresentationUpdate`. -/
inductive CardField where
  | organization
  | purchaseOrder
  | supplier
  | counterparty
  | warehouse
  | invoiceDate
  | invoiceNumber
  | storageZone
  | presentationPlace
  | otkIncomingWarehouse
  | executorId
  | dueAt
  | status
  deriving DecidableEq

/-- The fields of `OtkShipmentLineBase`. -/
inductive LineField where
  | code
  | nomenclature
  | storageUnit
  | qtyUpd
  | qtyFact
  | category
  | supplierQualityRating
  deriving DecidableEq

/-- Dictionaries are compared by their items. -/
instance {κ ν : Type} [DecidableEq κ] [DecidableEq ν] : DecidableEq (Dict κ ν) :=
  fun a b => decidable_of_iff (a.items = b.items)
    ⟨fun h => by cases a; cases b; cases h; rfl, fun h => h ▸ rfl⟩

structure ShipmentLine where
  id : String
  values : Dict LineField FieldValue
  deriving DecidableEq

/-- A card: what is written once when it is built, what can be edited, and the lines. -/
structure PresentationCard where
  id : String
  caseId : String
  sourceNumber : String
  source1cRef : String
  journalNumber : String
  journalStatus : String
  journalStage : String
  supplierOrder1cRef : String
  values : Dict CardField FieldValue
  lines : List ShipmentLine
  deriving DecidableEq

/-! ## The case -/

structure OrderLine where
  nomenclatureId : String
  quantity : Rat
  deriving DecidableEq

/-- `ProcurementSupplierOrderLink`. -/
structure SupplierOrderLink where
  supplierOrder1cRef : String
  supplierOrderNumber : Option String
  lines : List OrderLine
  deriving DecidableEq

/-- `ProcurementCasePosition`. -/
structure CasePosition where
  nomenclatureId : String
  nomenclatureName : Option String
  deriving DecidableEq

/-- The statuses of `tmc_presentation_coverage`. -/
inductive TmcStatus where
  | none
  | part
  | full
  deriving DecidableEq

/-- `tmc_presentation_coverage`. -/
structure TmcCoverage where
  status : TmcStatus
  coveredOrders : Nat
  ordersCount : Nat
  deriving DecidableEq

/-- The metadata. Of the moments it is kept whether they are there. -/
structure CaseMetadata where
  purchaseManagerInvokedAt : Bool
  otkStartedAt : Bool
  otkHandedOffAt : Bool
  tmcPresentationCoverage : Option TmcCoverage
  otkPresentations : List PresentationCard
  deriving DecidableEq

/-- `ProcurementCase`. `supplierOrderCoverage` is the key of that name of the metadata, which is
not written here. -/
structure ProcurementCase where
  id : String
  sourceType : SourceType
  sourceDatabase : Option String
  sourceNumber : String
  source1cRef : String
  positions : List CasePosition
  supplierOrderLinks : List SupplierOrderLink
  supplierOrderCoverage : Value
  status : CaseStatus
  assignedAgents : List AgentId
  currentAgentId : Option AgentId
  metadata : CaseMetadata

abbrev ProcurementCase.cards (row : ProcurementCase) : List PresentationCard :=
  row.metadata.otkPresentations

/-- `OtkPresentationStatus`. -/
def presentationStatuses : List String := ["queued", "in_progress", "done"]

/-- The values that a field of `OtkPresentationCardRead` takes. -/
def CardField.accepts : CardField → FieldValue → Bool
  | .status, .text value => decide (value ∈ presentationStatuses)
  | _, .text _ => true
  | _, _ => false

def CardField.all : List CardField :=
  [.organization, .purchaseOrder, .supplier, .counterparty, .warehouse, .invoiceDate,
    .invoiceNumber, .storageZone, .presentationPlace, .otkIncomingWarehouse, .executorId, .dueAt,
    .status]

/-- The values that a field of `OtkShipmentLineRead` takes. -/
def LineField.accepts : LineField → FieldValue → Bool
  | .supplierQualityRating, _ => true
  | .qtyUpd, .num _ => true
  | .qtyFact, .num _ => true
  | .qtyUpd, _ => false
  | .qtyFact, _ => false
  | _, .text _ => true
  | _, _ => false

/-- `_enrich_card` gives a card and does not raise: every field is there and every value is taken.
A field of a line may be missing, it has a default. -/
def enrichCard (card : PresentationCard) : Bool :=
  (CardField.all.all fun field => (card.values.get? field).elim false field.accepts) &&
    card.lines.all fun line => line.values.items.all fun item => item.1.accepts item.2

/-- `dict(old, **new)`. -/
def merge {κ : Type} [DecidableEq κ] (old new : Dict κ FieldValue) : Dict κ FieldValue :=
  new.items.foldl (fun values item => values.set item.1 item.2) old

/-- A request of a worker: the values that it sets, the id `uuid4` gives a new line, the line. -/
inductive Edit where
  | updatePresentation (patch : Dict CardField FieldValue)
  | addLine (payload : Dict LineField FieldValue) (uuid : String)
  | updateLine (lineId : String) (patch : Dict LineField FieldValue)
  | deleteLine (lineId : String)

def newLineId (uuid : String) : String := "l-" ++ uuid

/-- The card after the edit, without a value where the line is not found. -/
def Edit.apply : Edit → PresentationCard → Option PresentationCard
  | .updatePresentation patch, card => some { card with values := merge card.values patch }
  | .addLine payload uuid, card =>
    some { card with lines := card.lines ++ [{ id := newLineId uuid, values := payload }] }
  | .updateLine lineId patch, card =>
    (changeFirst ShipmentLine.id lineId
      (fun line => some { line with values := merge line.values patch }) card.lines).map
        fun lines => { card with lines }
  | .deleteLine lineId, card =>
    let lines := card.lines.filter fun line => line.id ≠ lineId
    if lines.length = card.lines.length then none else some { card with lines }

/-- The first case that has the card, of `_load_mutable`. -/
def loadMutable (presentationId : String) (rows : List ProcurementCase) : Option ProcurementCase :=
  rows.find? fun row => row.cards.any fun card => card.id = presentationId

def ProcurementCase.saveCards (row : ProcurementCase) (cards : List PresentationCard) :
    ProcurementCase :=
  { row with metadata := { row.metadata with otkPresentations := cards } }

/-- `update_presentation`, `add_line`, `update_line` and `delete_line`: the case that is found and
what is saved of it. Nothing is saved when the card or the line is not found, or when the answer
cannot be shown and the transaction is rolled back. -/
def Edit.write (edit : Edit) (presentationId : String) (rows : List ProcurementCase) :
    Option (ProcurementCase × ProcurementCase) :=
  (loadMutable presentationId rows).bind fun row =>
    (changeFirst PresentationCard.id presentationId
      (fun card => (edit.apply card).filter enrichCard) row.cards).map fun cards =>
        (row, row.saveCards cards)

end AgentBack.Otk
