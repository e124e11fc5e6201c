import AgentBack.Base.PyValue
import AgentBack.Base.SortBy

/-!
# Rules of incoming control (`agents/quality_control_agent/rules_registry.py`, `schemas.py`)

The documents that a lot of a category must come with, which of them are there, and what a share of
scrap leads to. The case mapping of texts and `float(text)` are those of the reading; numbers are
exact.
-/

namespace AgentBack.Quality

open Py (Value)

/-- A Python `float`. -/
inductive PyFloat where
  | nan
  | posInf
  | negInf
  | finite (q : Rat)
  deriving DecidableEq

/-- `a <= b`. -/
def PyFloat.le : PyFloat → PyFloat → Bool
  | nan, _ => false
  | _, nan => false
  | negInf, _ => true
  | _, posInf => true
  | finite a, finite b => decide (a ≤ b)
  | finite _, negInf => false
  | posInf, _ => false

/-- `a < b`. -/
def PyFloat.lt (a b : PyFloat) : Bool := a.le b && !b.le a

structure Reading extends Py.Reading where
  /-- `float(text)`, without a value where that raises. -/
  float : String → Option PyFloat
  /-- `str` of a number. -/
  floatText : PyFloat → String

/-- `TmcCategory`. -/
inductive Category where
  | electronics
  | metal
  | fasteners
  | cable
  | pipes
  | flanges
  | gaskets
  | drawingParts
  | other
  deriving DecidableEq

def Category.text : Category → String
  | electronics => "electronics"
  | metal => "metal"
  | fasteners => "fasteners"
  | cable => "cable"
  | pipes => "pipes"
  | flanges => "flanges"
  | gaskets => "gaskets"
  | drawingParts => "drawing_parts"
  | other => "other"

/-- A document of `CATEGORY_DOCUMENTS`. -/
structure DocumentSpec where
  docType : String
  label : String
  deriving DecidableEq

/-- The document that most categories ask for. -/
def certificateOrPassport : DocumentSpec :=
  { docType := "certificate_or_passport", label := "Сертификат или паспорт качества" }

def categoryDocuments : Category → List DocumentSpec
  | .electronics =>
    [{ docType := "origin_confirmation"
       label := "Подтверждение происхождения от официального поставщика" },
     { docType := "certificate", label := "Сертификат" },
     { docType := "applicability", label := "Сведения о применимости" }]
  | .cable =>
    [{ docType := "passport", label := "Паспорт" },
     { docType := "marking", label := "Маркировка / сечение / экраны" }]
  | .drawingParts =>
    [certificateOrPassport, { docType := "kd_match", label := "Соответствие КД" }]
  | .metal => [certificateOrPassport]
  | .fasteners => [certificateOrPassport]
  | .pipes => [certificateOrPassport]
  | .flanges => [certificateOrPassport]
  | .gaskets => [certificateOrPassport]
  | .other => [certificateOrPassport]

def scrapThresholdPct : PyFloat := .finite 15

/-- The words for a category, as `normalize_category` lists them. -/
def categoryAliases : List (String × Category) :=
  [("электроника", .electronics), ("радио", .electronics), ("electronics", .electronics),
    ("металл", .metal), ("metal", .metal), ("крепеж", .fasteners), ("fasteners", .fasteners),
    ("кабель", .cable), ("cable", .cable), ("трубы", .pipes), ("pipes", .pipes),
    ("фланцы", .flanges), ("flanges", .flanges), ("прокладки", .gaskets), ("gaskets", .gaskets),
    ("чертежные", .drawingParts), ("drawing_parts", .drawingParts)]

variable (py : Reading)

/-- `text.strip().casefold().replace("ё", "е")`. -/
def foldText (text : String) : String :=
  String.ofList ((py.casefold (Text.strip text)).toList.map fun c => if c = 'ё' then 'е' else c)

def normalizeCategory (raw : String) : Category :=
  if raw = "" then .other
  else
    let key := foldText py raw
    match categoryAliases.find? fun entry => entry.1 = key with
    | some entry => entry.2
    | none =>
      if key = "other" then .other
      else
        let byLength := sortBy (fun entry => OrderDual.toDual entry.1.length) categoryAliases
        match byLength.find? fun entry => Text.contains entry.1 key with
        | some entry => entry.2
        | none => .other

/-- `QualityDocumentRequirement`. All of them are mandatory. -/
structure DocumentRequirement where
  docType : String
  label : String
  present : Bool

/-- A present document and a type of document are the same, or one is part of the other. -/
def matchesDocument (docType document : String) : Bool :=
  let wanted := py.casefold docType
  let given := py.casefold (Text.strip document)
  Text.contains wanted given || Text.contains given wanted

/-- `build_mandatory_documents`. A document that is equal to the type is part of it as well. -/
def buildMandatoryDocuments (category : String) (presentDocs : List String) :
    List DocumentRequirement :=
  (categoryDocuments (normalizeCategory py category)).map fun spec =>
    { docType := spec.docType
      label := spec.label
      present := presentDocs.any (matchesDocument py spec.docType) }

inductive Severity where
  | info
  | warning
  | critical
  deriving DecidableEq

/-- `QualityFinding`. -/
structure Finding where
  field : String
  ruleId : String
  sourceRef : String
  message : String
  severity : Severity
  suggestedFix : Option String
  currentValue : Value

def evaluateDocumentCompleteness (category : String) (presentDocs : List String)
    (recordId : String) : List Finding :=
  ((buildMandatoryDocuments py category presentDocs).filter fun doc => !doc.present).map fun doc =>
    { field := doc.docType
      ruleId := "QC.DOC." ++ (normalizeCategory py category).text.toUpper ++ "." ++
        doc.docType.toUpper
      sourceRef := "presentation:" ++ recordId
      message := "Отсутствует обязательный документ: " ++ doc.label
      severity := .critical
      suggestedFix := some ("Приложить «" ++ doc.label ++ "»")
      currentValue := .null }

/-- `DispositionCode`. -/
inductive Disposition where
  | postAndUse
  | forbid
  | sort
  | giveBack
  | rework
  | other
  | commission
  deriving DecidableEq

def Disposition.text : Disposition → String
  | postAndUse => "post_and_use"
  | forbid => "forbid"
  | sort => "sort"
  | giveBack => "return"
  | rework => "rework"
  | other => "other"
  | commission => "commission"

/-- `DISPOSITION_LABELS_RU`. -/
def Disposition.label : Disposition → String
  | postAndUse => "оприходовать и использовать"
  | forbid => "запретить"
  | sort => "рассортировать"
  | giveBack => "вернуть"
  | rework => "направить на доработку"
  | other => "иное"
  | commission => "комиссия"

def allowedDispositions : List Disposition :=
  [.postAndUse, .forbid, .sort, .giveBack, .rework, .other, .commission]

/-- What `evaluate_scrap_decision` answers. -/
structure ScrapDecision where
  disposition : Option Disposition
  ruleId : String
  message : String
  requireSecondSample : Bool
  requireZdk : Bool

/-- `value is False`. -/
def isFalse : Value → Bool
  | .bool value => !value
  | _ => false

def evaluateScrapDecision (scrapPct : Option PyFloat) (analogInNomenclature : Value) :
    ScrapDecision :=
  if isFalse analogInNomenclature then
    { disposition := some .forbid
      ruleId := "QC.SCRAP.NO_ANALOG"
      message := "Аналог отсутствует в номенклатуре — партия в брак."
      requireSecondSample := false
      requireZdk := true }
  else
    match scrapPct with
    | none =>
      { disposition := none
        ruleId := "QC.SCRAP.UNKNOWN"
        message := "Процент брака не указан."
        requireSecondSample := false
        requireZdk := false }
    | some pct =>
      if scrapThresholdPct.le pct then
        { disposition := some .forbid
          ruleId := "QC.SCRAP.GE15"
          message := "Брак " ++ py.floatText pct ++ "% ≥ " ++ py.floatText scrapThresholdPct ++
            "% — браковать всю партию."
          requireSecondSample := false
          requireZdk := true }
      else if PyFloat.lt (.finite 0) pct then
        { disposition := some .commission
          ruleId := "QC.SCRAP.LT15"
          message := "Брак " ++ py.floatText pct ++ "% < " ++ py.floatText scrapThresholdPct ++
            "% — вторая выборка и решение ЗДК."
          requireSecondSample := true
          requireZdk := true }
      else
        { disposition := some .postAndUse
          ruleId := "QC.SCRAP.ZERO"
          message := "Брак 0% — разрешающий статус при полном комплекте доказательств."
          requireSecondSample := false
          requireZdk := false }

def asFloat : Value → Option PyFloat
  | .null => none
  | .bool value => some (.finite (if value then 1 else 0))
  | .num value _ => some (.finite value)
  | .str value => if value = "" then none else py.float value
  | .list _ => none
  | .dict _ => none

end AgentBack.Quality
