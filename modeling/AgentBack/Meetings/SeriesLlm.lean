import AgentBack.Base.IsoFormat
import AgentBack.Base.PyValue
import AgentBack.Base.Memo
import AgentBack.Meetings.SeriesCard

/-!
# The series of a memo, as a model reads it (`services/meeting_memo_series_llm.py`)

When the text of a memo hints at a series of meetings, a language model is asked for its parameters.
Its answer is cached in Redis under the memo's key, with a fingerprint of the memo's texts, and a
draft of the series is computed from the answer and the header of the memo.

Functions of other modules, the settings and the model itself are the fields of `SeriesLlm`; the
model answers equal messages equally. The cache holds an answer as the value that its JSON stands
for, and `cached_at`, which nothing reads, is left out.
-/

namespace AgentBack.Meetings

open Civil
open Py (Value)

/-! ## Drafts and answers -/

/-- An exception: those that `call_memo_series_llm` catches by class, and the others. -/
inductive Fault where
  /-- `JSONDecodeError` or `ValidationError`. -/
  | parse (text : String)
  /-- `RuntimeError`. -/
  | runtime (text : String)
  | other (text : String)
  deriving DecidableEq

/-- `str(exc)`. -/
def Fault.text : Fault → String
  | parse text => text
  | runtime text => text
  | other text => text

/-- `ConfidenceLevel`. -/
inductive Confidence where
  | high
  | medium
  | low
  deriving DecidableEq

inductive PlanningOption where
  | series
  | single
  deriving DecidableEq

/-- `RecurrenceInput`, with the time of the day and the duration. -/
structure TimedRecurrence where
  input : RecurrenceInput
  timeLocal : TimeOfDay
  durationMinutes : Int

structure MemoRecurrenceDraft where
  isSeries : Bool := false
  confidence : Confidence := .low
  recurrence : Option TimedRecurrence := none
  recurrenceLabel : Option String := none
  occurrenceCount : Option Int := none
  seriesStartDate : Option Int := none
  seriesEndDate : Option Int := none
  seriesEndLabel : Option String := none
  sourceQuote : Option String := none
  ambiguities : List String := []
  requiresUserChoice : Bool := false
  planningOptions : List PlanningOption := []

/-- `MemoSeriesLLMResponse`, less its reasoning. -/
structure MemoSeriesLLMResponse where
  isSeries : Bool := false
  confidence : Confidence := .medium
  frequency : Option Frequency := none
  interval : Int := 1
  weekday : Option Weekday := none
  timeLocal : Option String := none
  durationMinutes : Option Int := none
  seriesStartDate : Option String := none
  seriesEndDate : Option String := none
  sourceQuote : Option String := none
  ambiguities : List String := []

structure ChatMessage where
  role : String
  content : String
  deriving DecidableEq

structure CachedAnswer where
  fingerprint : String
  response : MemoSeriesLLMResponse

structure SeriesLlm where
  /-- `str.lower`. -/
  lower : String → String
  /-- `date.fromisoformat`. -/
  fromIsoformat : String → Option Int
  /-- `int(text)`. -/
  intOf : String → Option Int
  /-- The first 16 digits of the SHA-256 of the version of the prompt and the texts. -/
  digest : List String → String
  looksLikeGuid : String → Bool
  parseOdataDate : Value → Option Int
  hasRecurrenceHints : List String → Bool
  timeFromHeader : Value → Option TimeOfDay × Option Int
  resolveSourceQuote : Value → String → Option String
  resolveFromSchedule : Value → Except Fault (Option MemoRecurrenceDraft)
  resolveMemoRecurrenceRules : Value → Except Fault MemoRecurrenceDraft
  finalizeRecurrenceDraft : TimedRecurrence → List String → Option String →
    Except Fault MemoRecurrenceDraft
  systemPrompt : String
  /-- `_should_disable_thinking` of the model in the settings. -/
  disableThinking : Bool
  /-- `MEETING_MEMO_SERIES_LLM_ENABLED`. -/
  enabled : Bool
  /-- The text that `_extract_assistant_text` takes from the model's answer. -/
  chat : List ChatMessage → Except Fault String
  parseSeriesLlmContent : String → Except Fault MemoSeriesLLMResponse

def emptyPlaceholderMarkers : List String :=
  ["<пустая строка>", "<пустая дата>", "<пустая ссылка>", "<0>"]

namespace SeriesLlm

variable (llm : SeriesLlm)

def cleanText : Value → Option String
  | .str value =>
    let normalized := Text.strip value
    if normalized = "" then none
    else if emptyPlaceholderMarkers.any (Text.contains · (llm.lower normalized)) then none
    else some normalized
  | _ => none

def collectRecurrenceTexts (header : Value) : List String :=
  ["ТекстСлужебнойЗаписки", "ТемаСовещания", "ЦельПланаСовещания", "Комментарий"].filterMap
    fun key => (llm.cleanText (header.get key)).filter fun value => !llm.looksLikeGuid value

def seriesStartFromContext (header : Value) : Option Int :=
  ["ЖелаемаяДатаПроведенияСовещания", "ДатаПроведенияСовещания", "Date", "Дата"].findSome?
    fun key => llm.parseOdataDate (header.get key)

end SeriesLlm

/-! ## The prompt -/

def weekdayRu : List String :=
  ["понедельник", "вторник", "среда", "четверг", "пятница", "суббота", "воскресенье"]

/-- `d.month`. -/
def monthOf (d : Int) : Int := monthIndex d % 12 + 1

/-- `d.isoformat()`. -/
def dateIsoformat (d : Int) : String :=
  String.ofList (padded 4 (yearOf d).toNat ++ '-' :: (padded 2 (monthOf d).toNat ++
    '-' :: padded 2 (dayOf d).toNat))

def monthLastDay (d : Int) : Int := ofMonthDay (monthIndex d) (daysInMonth (monthIndex d))

def quarterLastDay (d : Int) : Int :=
  let quarterEndMonth := 12 * yearOf d + ((monthOf d - 1) / 3 + 1) * 3 - 1
  ofMonthDay quarterEndMonth (daysInMonth quarterEndMonth)

def formatSeriesCalendarContext (anchor : Int) : String :=
  let monday := anchor - weekday anchor
  let friday := monday + 4
  let quarter := (monthOf anchor - 1) / 3 + 1
  "\n".intercalate
    ["Календарный контекст для расчёта срока серии:",
      "- якорная дата: " ++ dateIsoformat anchor ++ " (" ++
        weekdayRu.getD (weekday anchor).toNat "" ++ ")",
      "- рабочая неделя (пн–пт): " ++ dateIsoformat monday ++ " — " ++ dateIsoformat friday,
      "- конец месяца: " ++ dateIsoformat (monthLastDay anchor),
      "- конец квартала Q" ++ toString quarter ++ ": " ++ dateIsoformat (quarterLastDay anchor),
      "- конец года: " ++ toString (yearOf anchor) ++ "-12-31"]

namespace SeriesLlm

variable (llm : SeriesLlm)

def buildLlmUserPrompt (header document : Value) : String :=
  let app := document.get "application"
  let text (source : Value) (key : String) := llm.cleanText (source.get key)
  let orDash (value : Option String) := value.getD "—"
  let lines :=
    ["Проанализируй служебную записку и верни JSON по шаблону.",
      "",
      "Номер СЗ: " ++ orDash (text header "Number"),
      "Дата документа: " ++ orDash (text header "Date" <|> text app "document_date"),
      "Желаемая дата совещания: " ++ orDash (text header "ЖелаемаяДатаПроведенияСовещания"),
      "Время начала (шапка): " ++
        orDash (text header "ВремяНачалаСовещания" <|> text app "meeting_start"),
      "Время окончания (шапка): " ++
        orDash (text header "ВремяОкончанияСовещания" <|> text app "meeting_end"),
      "Тема: " ++ orDash (text header "ТемаСлужебнойЗаписки" <|> text header "ТемаСовещания"),
      "",
      "Текст / повестка:",
      orDash (text header "ТекстСлужебнойЗаписки" <|> text app "agenda" <|>
        text header "Комментарий")]
  let context :=
    match llm.seriesStartFromContext header with
    | some anchor => ["", formatSeriesCalendarContext anchor]
    | none => []
  "\n".intercalate (lines ++ context)

def buildMemoSeriesMessages (header document : Value) : List ChatMessage :=
  [⟨"system", llm.systemPrompt⟩, ⟨"user", llm.buildLlmUserPrompt header document⟩] ++
    if llm.disableThinking then
      [⟨"assistant", "/no_think\nОтвечу только валидным JSON без markdown.\n"⟩]
    else []

/-- The messages that ask for JSON once more. -/
def repairMessages (messages : List ChatMessage) (content : String) : List ChatMessage :=
  messages ++
    [⟨"assistant", String.ofList (content.toList.take 2000)⟩,
      ⟨"user", "Ответ выше нельзя разобрать как JSON. " ++
        "Верни ТОЛЬКО один JSON-объект по шаблону из system prompt, " ++
        "без markdown и без пояснений."⟩] ++
    if llm.disableThinking then [⟨"assistant", "/no_think\n\x7b\"is_series\":"⟩] else []

def readAnswer (messages : List ChatMessage) (whenEmpty : String) :
    Except Fault (String × Except Fault MemoSeriesLLMResponse) := do
  let content ← llm.chat messages
  if content = "" then throw (.runtime whenEmpty)
  return (content, llm.parseSeriesLlmContent content)

/-- What `call_memo_series_llm` returns for its messages. -/
def answerTo (messages : List ChatMessage) : Except Fault MemoSeriesLLMResponse := do
  let (content, parsed) ← llm.readAnswer messages "LLM вернула пустой ответ"
  match parsed with
  | .error (.parse first) =>
    let repaired : Except Fault MemoSeriesLLMResponse := do
      let (_, parsed) ← llm.readAnswer (llm.repairMessages messages content)
        "LLM вернула пустой ответ при повторе"
      parsed
    match repaired with
    | .error (.other text) => .error (.other text)
    | .error _ => .error (.runtime ("Не удалось разобрать JSON от LLM: " ++ first))
    | .ok response => .ok response
  | parsed => parsed

def callMemoSeriesLlm (header document : Value) : Except Fault MemoSeriesLLMResponse :=
  llm.answerTo (llm.buildMemoSeriesMessages header document)

/-! ## The draft of an answer -/

def parseIsoDate (value : Option String) : Option Int := do
  let value ← value
  let text := Text.strip value
  if text = "" then none
  else llm.fromIsoformat (String.ofList (text.toList.take 10)) <|> llm.parseOdataDate (.str value)

/-- `time(hour, minute)`, of numbers in range. -/
def timeOfNumbers (hour minute : Int) : Option TimeOfDay :=
  if h : 0 ≤ hour ∧ hour ≤ 23 ∧ 0 ≤ minute ∧ minute ≤ 59 then
    some ⟨(hour * 60 + minute) * 60000000, by omega, by unfold ticksPerDay; omega⟩
  else none

def parseHhMm (value : Option String) : Option TimeOfDay := do
  let value ← value
  let text := ((Text.strip value).toList.map fun c => if c = '.' then ':' else c).splitOn ':'
  match text with
  | hour :: minute :: _ =>
    timeOfNumbers (← llm.intOf (String.ofList hour)) (← llm.intOf (String.ofList minute))
  | _ => none

def isoToWeekday (iso : Int) : Option Weekday :=
  [.monday, .tuesday, .wednesday, .thursday, .friday, .saturday, .sunday].find? fun w => w.iso = iso

def llmResponseToRecurrence (response : MemoSeriesLLMResponse) (header : Value) :
    Option TimedRecurrence × List String :=
  let ambiguities := response.ambiguities
  match response.frequency,
      llm.parseIsoDate response.seriesStartDate <|> llm.seriesStartFromContext header with
  | none, _ => (none, ambiguities ++ ["LLM не указала frequency серии"])
  | some _, none => (none, ambiguities ++ ["Не указана дата начала серии"])
  | some frequency, some seriesStart =>
    -- `default_series_end_date` is the last day of the year
    let seriesEnd := (llm.parseIsoDate response.seriesEndDate).getD
      (ofMonthDay (12 * yearOf seriesStart + 11) 31)
    let (headerTime, headerDuration) := llm.timeFromHeader header
    match llm.parseHhMm response.timeLocal <|> headerTime with
    | none => (none, ambiguities ++ ["Не указано время начала серии"])
    | some timeLocal =>
      let input : RecurrenceInput :=
        { frequency := frequency
          interval := max 1 response.interval
          seriesStartDate := seriesStart
          seriesEndDate := seriesEnd
          monthlyMode := none
          dayOfMonth := none
          weekday :=
            if frequency = .weekly then response.weekday <|> isoToWeekday (weekday seriesStart)
            else none
          weekdayPosition := none }
      match validateRecurrenceInput input with
      | .error message => (none, ambiguities ++ [message])
      | .ok _ =>
        (some ⟨input, timeLocal, (response.durationMinutes <|> headerDuration).getD 60⟩,
          ambiguities)

def singleDraft : MemoRecurrenceDraft :=
  { isSeries := false, confidence := .high, planningOptions := [.single] }

def capConfidence (confidence : Confidence) (draft : MemoRecurrenceDraft) : MemoRecurrenceDraft :=
  if confidence = .low then
    { draft with confidence := .low, requiresUserChoice := false, planningOptions := [.single] }
  else if confidence = .medium ∧ draft.confidence = .high then { draft with confidence := .medium }
  else draft

/-- `a or b` of texts. -/
def orText (a b : Option String) : Option String := if a = none ∨ a = some "" then b else a

def draftFromLlmResponse (response : MemoSeriesLLMResponse) (header : Value) :
    Except Fault MemoRecurrenceDraft :=
  if response.isSeries = false then .ok singleDraft
  else
    match llm.llmResponseToRecurrence response header with
    | (none, ambiguities) =>
      .ok
        { isSeries := true
          confidence := if response.confidence = .high then .low else response.confidence
          sourceQuote := response.sourceQuote
          ambiguities := if ambiguities = [] then response.ambiguities else ambiguities
          planningOptions := [.single] }
    | (some recurrence, ambiguities) =>
      (llm.finalizeRecurrenceDraft recurrence ambiguities
        (orText response.sourceQuote
          (llm.resolveSourceQuote header (" ".intercalate (llm.collectRecurrenceTexts header))))).map
        (capConfidence response.confidence)

def seriesLlmCacheKey (refKey : String) : String :=
  "meeting:memo:" ++ Text.normalize llm.lower refKey ++ ":series_llm"

def memoSeriesFingerprint (header : Value) : String := llm.digest (llm.collectRecurrenceTexts header)

/-- `logger.warning(…, error=str(exc))`: a logger of the standard library takes no such keyword. -/
def loggerWarning : Fault :=
  .other "Logger._log() got an unexpected keyword argument 'error'"

variable (cache : Dict String CachedAnswer)

/-- `_read_llm_cache`; its handler of a failed read raises. -/
def readLlmCache (refKey fingerprint : String) (readFails : Bool) :
    Except Fault (Option MemoSeriesLLMResponse) :=
  if readFails then .error loggerWarning
  else
    match cache.get? (llm.seriesLlmCacheKey refKey) with
    | none => .ok none
    | some answer => .ok (if answer.fingerprint = fingerprint then some answer.response else none)

/-- `_write_llm_cache`; its handler of a failed write raises. -/
def writeLlmCache (refKey fingerprint : String) (response : MemoSeriesLLMResponse)
    (writeFails : Bool) :
    Except Fault (Dict String CachedAnswer) :=
  if writeFails then .error loggerWarning
  else .ok (cache.set (llm.seriesLlmCacheKey refKey) ⟨fingerprint, response⟩)

/-- The reference under which `resolve_memo_recurrence_async` caches; blank for no caching. -/
def normalizedRef (header : Value) (refKey : Option String) : String :=
  Text.normalize llm.lower
    ((orText refKey (llm.cleanText (header.get "Ref_Key"))).getD "")

/-- The draft after a fault of the model, its answer or the cache. -/
def fallbackDraft (header : Value) (fault : Fault) : Except Fault MemoRecurrenceDraft := do
  let rulesDraft ← llm.resolveMemoRecurrenceRules header
  if rulesDraft.recurrence.isSome ∧ .series ∈ rulesDraft.planningOptions then return rulesDraft
  return {
    isSeries := true
    confidence := .low
    sourceQuote := orText rulesDraft.sourceQuote
      (llm.resolveSourceQuote header (" ".intercalate (llm.collectRecurrenceTexts header)))
    ambiguities :=
      ("Не удалось рассчитать параметры серии: " ++ fault.text) :: rulesDraft.ambiguities
    planningOptions := [.single] }

def orFallback (header : Value) : Except Fault MemoRecurrenceDraft → Except Fault MemoRecurrenceDraft
  | .ok draft => .ok draft
  | .error fault => llm.fallbackDraft header fault

/-- The part of `resolve_memo_recurrence_async` after the cache, when the model is asked. -/
def askModel (header document : Value) (ref : String) (writeFails : Bool) :
    Except Fault MemoRecurrenceDraft × Dict String CachedAnswer :=
  match llm.callMemoSeriesLlm header document with
  | .error fault => (llm.fallbackDraft header fault, cache)
  | .ok response =>
    if ref = "" then (llm.orFallback header (llm.draftFromLlmResponse response header), cache)
    else
      match llm.writeLlmCache cache ref (llm.memoSeriesFingerprint header) response writeFails with
      | .error fault => (llm.fallbackDraft header fault, cache)
      | .ok cache => (llm.orFallback header (llm.draftFromLlmResponse response header), cache)

/-- The part of `resolve_memo_recurrence_async` after a hint in the texts. -/
def resolveHinted (header document : Value) (ref : String) (readFails writeFails : Bool) :
    Except Fault MemoRecurrenceDraft × Dict String CachedAnswer :=
  let cached :=
    if ref = "" then .ok none
    else llm.readLlmCache cache ref (llm.memoSeriesFingerprint header) readFails
  match cached with
  | .error fault => (.error fault, cache)
  | .ok (some response) => (llm.draftFromLlmResponse response header, cache)
  | .ok none =>
    if llm.enabled = false then (llm.resolveMemoRecurrenceRules header, cache)
    else llm.askModel cache header document ref writeFails

def resolveMemoRecurrenceAsync (header document : Value) (refKey : Option String)
    (readFails writeFails : Bool) :
    Except Fault MemoRecurrenceDraft × Dict String CachedAnswer :=
  match llm.resolveFromSchedule header with
  | .error fault => (.error fault, cache)
  | .ok (some scheduleDraft) => (.ok scheduleDraft, cache)
  | .ok none =>
    if llm.hasRecurrenceHints (llm.collectRecurrenceTexts header) = false then
      (.ok singleDraft, cache)
    else
      llm.resolveHinted cache header document (llm.normalizedRef header refKey) readFails writeFails

end SeriesLlm

end AgentBack.Meetings
