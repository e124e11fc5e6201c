import AgentBack.Otk.Presentations

/-!
# Reconciliation with the journal (`services/tmc_presentation_reconciliation_service.py`)

A cycle reads the journal of presented goods for the supplier orders of the cases, builds the cards
of each case anew and hands the case over to quality control. The history, the tasks and the
workspaces of the warehouse that a cycle writes besides are left out: neither a cycle nor an edit
reads them.
-/

namespace AgentBack.Otk

open Py (Value textOf)
open Quality (PyFloat asFloat)
open Coverage (normRef)
open Orchestrator (AgentId purchaseManager qualityEngineer)

variable (py : Quality.Reading)

/-- `str(value or "").strip()` of a text that may be missing. -/
def textOrEmpty (value : Option String) : String :=
  textOf py.toReading (value.elim .null .str)

/-- `float(value or 0)`, and zero where that raises. -/
def floatOrZero (value : Value) : PyFloat :=
  if value.truthy then (asFloat py value).getD (.finite 0) else .finite 0

/-! ## The cards of a case -/

variable (row : ProcurementCase)

/-- The names of the nomenclature: those of the coverage, then those of the positions. -/
def nomNames : Dict String String :=
  let covered := ((row.supplierOrderCoverage.get "positions").listItems.filter Value.isDict).map
    fun item => (normRef py.toReading (item.getAny ["nomenclature_id", "nomenclature_ref"]),
      textOf py.toReading (item.get "nomenclature_name"))
  row.positions.foldl (fun names position =>
    let key := normRef py.toReading (.str position.nomenclatureId)
    if key ≠ "" ∧ names.getD key "" = "" then
      names.set key (textOrEmpty py position.nomenclatureName)
    else names) (Dict.ofList covered)

def journalLineId (journalRef : String) (index : Nat) : String :=
  journalRef ++ "-l" ++ toString (index + 1)

variable (names : Dict String String)

def builtLine (journalRef : String) (index : Nat) (nomRef : String) (qtyUpd qtyFact : PyFloat) :
    ShipmentLine where
  id := journalLineId journalRef index
  values := .ofList [(.code, .text nomRef),
    (.nomenclature, .text (if names.getD nomRef "" = "" then nomRef else names.getD nomRef "")),
    (.storageUnit, .text "шт"), (.qtyUpd, .num qtyUpd), (.qtyFact, .num qtyFact),
    (.category, .text "other")]

def orderLine (journalRef : String) (line : OrderLine × Nat) :
    ShipmentLine :=
  builtLine names journalRef line.2 (normRef py.toReading (.str line.1.nomenclatureId))
    (.finite line.1.quantity) (.finite line.1.quantity)

/-- `line.get(key) if line.get(key) is not None else line.get("quantity")`. -/
def quantityOf (line : Value) (key : String) : Value :=
  match line.get key with
  | .null => line.get "quantity"
  | value => value

def journalLine (journalRef : String) (line : Value × Nat) :
    ShipmentLine :=
  builtLine names journalRef line.2
    (normRef py.toReading (line.1.getAny ["nomenclatureRef", "nomenclature_ref"]))
    (floatOrZero py (quantityOf line.1 "qtyUpd")) (floatOrZero py (quantityOf line.1 "qtyFact"))

/-- The lines of a card: those of the journal, or those of the order when the journal has none. -/
def builtLines (journalRef : String) (journal : Value) (link : SupplierOrderLink) :
    List ShipmentLine :=
  let rawLines := (journal.get "lines").listItems
  if rawLines = [] ∧ link.lines ≠ [] then link.lines.zipIdx.map (orderLine py names journalRef)
  else (rawLines.zipIdx.filter fun line => line.1.isDict).map (journalLine py names journalRef)

/-- The reference of a row of the journal, `_norm_ref(journal.get("ref")) or order_ref`. -/
def journalRefOf (orderRef : String) (journal : Value) : String :=
  if normRef py.toReading (journal.get "ref") = "" then orderRef
  else normRef py.toReading (journal.get "ref")

def SupplierOrderLink.orderRef (link : SupplierOrderLink) : String :=
  normRef py.toReading (.str link.supplierOrder1cRef)

def cardIdOf (link : SupplierOrderLink) (journal : Value) : String :=
  let journalRef := journalRefOf py (link.orderRef py) journal
  if journalRef = "" then row.id ++ ":" ++ link.orderRef py else journalRef

def builtCard (link : SupplierOrderLink) (journal : Value) :
    PresentationCard :=
  let orderRef := link.orderRef py
  let journalRef := journalRefOf py orderRef journal
  let text := fun keys => textOf py.toReading (journal.getAny keys)
  let supplier := text ["supplierName", "supplier_name"]
  let number := textOrEmpty py link.supplierOrderNumber
  { id := cardIdOf py row link journal
    caseId := row.id
    sourceNumber := row.sourceNumber
    source1cRef := row.source1cRef
    journalNumber := text ["number"]
    journalStatus := text ["status"]
    journalStage := text ["documentStage", "document_stage"]
    supplierOrder1cRef := orderRef
    values := .ofList [(.organization, .text ""),
      (.purchaseOrder, .text (if number = "" then orderRef else number)),
      (.supplier, .text supplier), (.counterparty, .text supplier), (.warehouse, .text ""),
      (.invoiceDate,
        .text (String.ofList ((text ["invoiceDate", "invoice_date"]).toList.take 10))),
      (.invoiceNumber, .text (text ["invoiceNumber", "invoice_number"])),
      (.storageZone, .text (text ["storageZone", "storage_zone"])),
      (.presentationPlace, .text (text ["presentationPlace", "presentation_place"])),
      (.otkIncomingWarehouse, .text ""), (.executorId, .text ""),
      (.dueAt, .text (text ["dueAt", "due_at", "date"])), (.status, .text "queued")]
    lines := builtLines py (nomNames py row) journalRef journal link }

def buildOtkPresentationsForCase (journalByOrder : Dict String Value) :
    List PresentationCard :=
  row.supplierOrderLinks.filterMap fun link =>
    (journalByOrder.get? (link.orderRef py)).map (builtCard py row link)

/-! ## A cycle -/

def rowOrderRef (item : Value) : String :=
  normRef py.toReading (Value.anyOf [item.get "supplierOrderRef", item.get "supplier_order_ref",
    (item.get "basis").get "ref"])

def journalByOrder (presentations : List Value) : Dict String Value :=
  presentations.foldl (fun journal item =>
    let orderRef := rowOrderRef py item
    if orderRef = "" then journal
    else match journal.get? orderRef with
      | none => journal.set orderRef item
      | some previous =>
        if textOf py.toReading (item.get "date") < textOf py.toReading (previous.get "date")
        then journal
        else journal.set orderRef item) ∅

/-- The case is one that a cycle goes through. -/
def eligible : Bool :=
  decide (row.sourceType = .productionMaterialOrder) &&
  !decide (row.status ∈ [.closed, .failed, .qualityReleased]) &&
  !row.supplierOrderLinks.isEmpty &&
  !(row.metadata.otkHandedOffAt &&
    row.metadata.tmcPresentationCoverage.any fun coverage => coverage.status = .full) &&
  (row.metadata.purchaseManagerInvokedAt || decide (purchaseManager ∈ row.assignedAgents) ||
    decide (row.currentAgentId = some purchaseManager) || row.metadata.otkStartedAt)

/-- How many orders of the case have a row in the journal. -/
def tmcCoverage (journal : Dict String Value) : TmcCoverage :=
  let covered := (row.supplierOrderLinks.filter fun link =>
    (journal.get? (link.orderRef py)).isSome).length
  let total := row.supplierOrderLinks.length
  { status := if covered = 0 then .none else if covered = total then .full else .part
    coveredOrders := covered
    ordersCount := total }

def addAgent (agentId : AgentId) (assigned : List AgentId) : List AgentId :=
  if agentId ∈ assigned then assigned else assigned ++ [agentId]

def applyCase (enqueueCase : Bool) (journal : Dict String Value) (row : ProcurementCase) :
    ProcurementCase :=
  let coverage := tmcCoverage py row journal
  let metadata := { row.metadata with tmcPresentationCoverage := some coverage }
  if coverage.status = .none then { row with metadata }
  else
    let otkJustStarted := !row.metadata.otkStartedAt
    let metadata := { metadata with
      otkPresentations := buildOtkPresentationsForCase py row journal
      otkStartedAt := true }
    let assigned := addAgent qualityEngineer row.assignedAgents
    if coverage.status = .part then
      { row with metadata, assignedAgents := addAgent purchaseManager assigned }
    else if !row.metadata.otkHandedOffAt then
      { row with
        metadata := { metadata with otkHandedOffAt := true }
        assignedAgents := assigned.filter (· ≠ purchaseManager)
        status := .qualityAssigned
        currentAgentId := some qualityEngineer }
    else if otkJustStarted && enqueueCase then
      { row with
        metadata
        assignedAgents := assigned
        status := .qualityAssigned
        currentAgentId := some qualityEngineer }
    else { row with metadata, assignedAgents := assigned }

/-- The rows of the journal that a read gives: those of each database, or no answer where the read
fails. -/
abbrev Answers := String → Option (List Value)

def journalFor (answers : Answers) (row : ProcurementCase) : Option (Dict String Value) :=
  let database := match row.sourceDatabase with
    | none => "default"
    | some name => if name = "" then "default" else name
  (answers database).map fun raw => journalByOrder py (raw.filter Value.isDict)

/-- `reconcile`: the cases that a cycle has read and writes, and what it writes of them. -/
def reconcile (enqueueCase : Bool) (answers : Answers) (rows : List ProcurementCase) :
    List (ProcurementCase × ProcurementCase) :=
  (rows.filter eligible).filterMap fun row =>
    (journalFor py answers row).map fun journal => (row, applyCase py enqueueCase journal row)

end AgentBack.Otk

/-!
# Transactions over the cases

An edit and a cycle each read the cases in a transaction of their own and write when it ends; a
cycle waits for the journal in between. Nothing is locked. A row is written by its id, and only the
columns that the transaction has changed; the metadata is one column.
-/

namespace AgentBack.Otk

variable (py : Quality.Reading)

inductive Request where
  | edit (presentationId : String) (change : Edit)
  | cycle (enqueueCase : Bool) (answers : Answers)

/-- What the transaction writes, from what it has read: each case as it was read and as it is. -/
def Request.writes : Request → List ProcurementCase → List (ProcurementCase × ProcurementCase)
  | .edit presentationId change, rows => (change.write presentationId rows).toList
  | .cycle enqueueCase answers, rows => reconcile py enqueueCase answers rows

/-- A column of a stored row, after a transaction that has read and then changed it. -/
def column {τ : Type} [DecidableEq τ] (stored read written : τ) : τ :=
  if written = read then stored else written

/-- `UPDATE` of a row. -/
def ProcurementCase.update (stored read written : ProcurementCase) : ProcurementCase :=
  { stored with
    status := column stored.status read.status written.status
    assignedAgents := column stored.assignedAgents read.assignedAgents written.assignedAgents
    currentAgentId := column stored.currentAgentId read.currentAgentId written.currentAgentId
    metadata := column stored.metadata read.metadata written.metadata }

/-- The stored row after the writes. -/
def saved (writes : List (ProcurementCase × ProcurementCase)) (stored : ProcurementCase) :
    ProcurementCase :=
  match writes.find? fun write => write.1.id = stored.id with
  | some write => stored.update write.1 write.2
  | none => stored

structure Session where
  read : List ProcurementCase
  request : Request

/-- The stored cases and the open transactions. -/
structure World where
  rows : List ProcurementCase
  sessions : List Session

/-- A transaction reads, or one of those that have read writes and ends. -/
inductive Event where
  | read (request : Request)
  | commit (index : Nat)

def World.step (world : World) : Event → World
  | .read request => { world with sessions := world.sessions ++ [⟨world.rows, request⟩] }
  | .commit index =>
    match world.sessions[index]? with
    | none => world
    | some session =>
      { rows := world.rows.map (saved (session.request.writes py session.read))
        sessions := world.sessions.eraseIdx index }

end AgentBack.Otk
