import AgentBack.Quality.Rules

/-!
# The context of a quality role (`agents/quality_control_agent/graph.py`)

A role of quality control is run on the source data of the case and on a role context, two JSON
objects that both may carry the facts of the lot. `qualityBlob` is what a role collects of them for
itself and `extractContext` what the common pipeline reads of them, which is not the same: they look
under other keys and in other places. The pipeline builds a sample rule and a control card. Their
contents are not modelled, since no step reads them; that pydantic refuses them when a reference is
not a text, and that the run then raises, is.
-/

namespace AgentBack.Quality

open Py (Value strOf)

/-- `ProcurementRoleAgentRequest`, the fields that the quality roles read. -/
structure Request where
  caseId : String
  sourceData : Value
  roleContext : Value
  caseId_ne : caseId ≠ ""
  sourceData_isDict : sourceData.isDict = true
  roleContext_isDict : roleContext.isDict = true

/-- `key in document`. -/
def hasKey (key : String) : Value → Bool
  | .dict fields => fields.any fun field => field.1 = key
  | _ => false

/-- `base[key] = document[key]`, when the document has the key and the base has not. -/
def takeKey (document base : Value) (key : String) : Value :=
  match base with
  | .dict fields =>
    if hasKey key document && !hasKey key base then .dict (fields ++ [(key, document.get key)])
    else base
  | _ => base

/-- `value if isinstance(value, dict) else {}`. -/
def orEmpty (value : Value) : Value := if value.isDict then value else .dict []

/-- `_quality_blob`, over the keys of the role. -/
def qualityBlob (keys : List String) (request : Request) : Value :=
  keys.foldl (fun base key =>
    takeKey request.sourceData (takeKey request.roleContext base key) key)
    (orEmpty (request.sourceData.get "quality"))

variable (py : Reading)

/-- What `_extract_context` reads of a request. -/
structure Context where
  /-- `normalize_category` of the group that was found. -/
  category : Category
  /-- `present_docs`, without a value where it cannot be iterated. -/
  presentDocs : Option (List String)
  lotQty : Option PyFloat
  presentationRef : Value
  nomenclatureRef : Value
  supplierRef : Value
  supplierQualityRating : Value
  inspectorId : Value

/-- `[str(d) for d in present_docs]`, after a single text became a list. -/
def documentTexts : Value → Option (List String)
  | .null => some []
  | .str text => some [text]
  | .list items => some (items.map (strOf py.toReading))
  | .dict fields => some (fields.map Prod.fst)
  | .bool _ => none
  | .num _ _ => none

def firstNumber (values : List Value) : Option PyFloat :=
  (values.filterMap (asFloat py)).head?

/-- `str(category) if category else None`, where no category is the empty text. -/
def categoryText (category : Value) : String :=
  if category.truthy then strOf py.toReading category else ""

def extractContext (request : Request) : Context :=
  let source := request.sourceData
  let nested := orEmpty (source.get "quality")
  let fields := orEmpty (source.get "fields")
  let role := request.roleContext
  { category := normalizeCategory py (categoryText py (Value.anyOf
      [nested.get "item_group", nested.get "category", fields.get "item_group",
        role.get "item_group", source.get "item_group"]))
    presentDocs := documentTexts py (Value.anyOf
      [nested.get "present_docs", nested.get "documents", role.get "present_docs",
        source.get "present_docs", .list []])
    lotQty := firstNumber py
      [nested.get "lot_qty", nested.get "quantity", nested.get "Количество",
        fields.get "quantity", fields.get "Количество", fields.get "lot_qty",
        role.get "lot_qty", role.get "quantity", source.get "quantity", source.get "lot_qty"]
    presentationRef := Value.anyOf
      [nested.get "presentation_ref", nested.get "shipment_ref", role.get "presentation_ref",
        source.get "presentation_ref", .str request.caseId]
    nomenclatureRef := Value.anyOf
      [nested.get "nomenclature_ref", fields.get "nomenclature", fields.get "Номенклатура",
        source.get "nomenclature"]
    supplierRef := Value.anyOf
      [nested.get "supplier_ref", nested.get "supplier", source.get "supplier_ref",
        source.get "supplier"]
    supplierQualityRating := Value.anyOf
      [nested.get "supplier_quality_rating", role.get "supplier_quality_rating",
        source.get "supplier_quality_rating"]
    inspectorId := Value.anyOf [nested.get "inspector_id", role.get "inspector_id"] }

/-- A field `str | None` takes the value. -/
def textOrNull : Value → Bool
  | .null => true
  | .str _ => true
  | _ => false

/-- A field `str | float | int | None` takes the value. -/
def ratingOrNull : Value → Bool
  | .list _ => false
  | .dict _ => false
  | _ => true

/-- The size of a sample can be computed: `int(round(qty * 0.1))` raises on an infinite lot. -/
def sampleSizeComputes (category : Category) (qty : Option PyFloat) : Bool :=
  decide (category = .fasteners) || decide (qty ≠ some .posInf)

/-- The category that `build_sample_rule` works with. -/
def sampleCategory (category : Category) : Category := normalizeCategory py category.text

/-- The pipeline builds its sample rule and its control card. -/
def Context.cardAccepted (ctx : Context) : Bool :=
  sampleSizeComputes (sampleCategory py ctx.category) ctx.lotQty &&
    [ctx.presentationRef, ctx.nomenclatureRef, ctx.supplierRef, ctx.supplierQualityRating,
      ctx.inspectorId].all textOrNull

/-- The sample rule of the pipeline has no lot or no size. -/
def Context.sampleOpen (ctx : Context) : Bool :=
  decide (sampleCategory py ctx.category = .fasteners) ||
    !(ctx.lotQty.elim false fun qty => PyFloat.lt (.finite 0) qty)

/-- `run_quality_pipeline`: the findings about the documents, without a value where it raises. The
nodes run one after the other, and a request has a case id, so the branch of a failed validation is
not reached. -/
def runQualityPipeline (request : Request) : Option (List Finding) :=
  let ctx := extractContext py request
  ctx.presentDocs.bind fun presentDocs =>
    if ctx.cardAccepted py then
      some (evaluateDocumentCompleteness py ctx.category.text presentDocs request.caseId)
    else none

end AgentBack.Quality
