import AgentBack.Base.IsoFormat
import AgentBack.Base.SortBy
import AgentBack.Mail.Filters

/-!
# The patterns of the spam filter (`agent_pochta/rules/spam_learning.py`)

The JSON file of the operator's decisions: entries of older formats are migrated whenever the file
is loaded or saved. `lower` is `str.lower` and `keywordsOf` is `extract_spam_learning_keywords` of a
subject, a body and a sender.
-/

namespace AgentBack.Mail.SpamLearning

open Text (collapse contains strip)

/-! ## Entries -/

/-- `LearnedEntryLabel`. -/
inductive Label where
  | spam
  | notSpam
  deriving DecidableEq

def Label.text : Label → String
  | .spam => "spam"
  | .notSpam => "not_spam"

/-- A value of a JSON object other than `null`, with `str(value)`. -/
inductive JsonValue where
  | text (s : String)
  /-- `false`, `0`, `[]` or an empty object. -/
  | falsy (shown : String)
  | truthy (shown : String) (not_blank : strip shown ≠ "")
  deriving DecidableEq

/-- `bool(value)`. -/
def JsonValue.truth : JsonValue → Bool
  | .text s => decide (s ≠ "")
  | .falsy _ => false
  | .truthy _ _ => true

/-- `str(value)`. -/
def JsonValue.str : JsonValue → String
  | .text s => s
  | .falsy shown => shown
  | .truthy shown _ => shown

/-- An entry of the file, with the keys that the filter reads. -/
structure RawEntry where
  id : JsonField String
  createdAt : JsonField String
  messageId : JsonField JsonValue
  senderEmail : JsonField String
  keywords : JsonField (List String)
  label : JsonField JsonValue
  reason : JsonField JsonValue
  spamReason : JsonField JsonValue
  bodySnippet : JsonField JsonValue
  deriving DecidableEq

def operatorSpamReason : String := "Отмечено офис-менеджером"

def operatorNotSpamReason : String := "Отмечено как не спам"

def notSpamReasonMarkers : List String :=
  ["не спам", "нет признаков спама", "не является спамом", "деловой запрос", "деловая переписка",
    "деловое уведомление", "деловое письмо", "легитимн", "легитимное", "не реклам", "не фишинг",
    "отсутствуют признаки", "отсутствие признаков", "ошибка 1с", "ошибка odata",
    "нарушение прав доступа", "erp"]

def routingEscalationMarkers : List String :=
  ["уверенность маршрута", "конфликт нескольких правил", "режим review",
    "требуется подтверждение оператора", "восстановлено из спама: требуется"]

def hasMarker (lower : String → String) (markers : List String) (reason : String) : Bool :=
  let text := strip (lower reason)
  if text = "" then false else markers.any fun marker => contains marker text

def reasonIndicatesNotSpam (lower : String → String) (reason : String) : Bool :=
  hasMarker lower notSpamReasonMarkers reason

def isRoutingEscalationReason (lower : String → String) (reason : String) : Bool :=
  hasMarker lower routingEscalationMarkers reason

def resolveHumanSpamReason (lower : String → String) (storedReason : String) : String :=
  let reason := strip storedReason
  if reason = "" ∨ reasonIndicatesNotSpam lower reason ∨ isRoutingEscalationReason lower reason then
    operatorSpamReason
  else reason

def normalizeLabel (raw : String) : Label :=
  if raw = "not_spam" ∨ raw = "nospam" ∨ raw = "antispam" then .notSpam else .spam

def reconcileLabelWithReason (lower : String → String) (label : Label) (reason : String) : Label :=
  if label = .spam ∧ reasonIndicatesNotSpam lower reason then .notSpam else label

/-- The reason that an entry gets when it has none. -/
def defaultReason : Label → String
  | .spam => operatorSpamReason
  | .notSpam => operatorNotSpamReason

/-- `str(entry.get(key) or "")`. -/
def shownText : JsonField JsonValue → String
  | .value value => if value.truth then value.str else ""
  | _ => ""

/-- The label that `_normalize_entry` reads. -/
def rawLabel (raw : RawEntry) : Label :=
  match raw.label with
  | .value value => normalizeLabel value.str
  | .null => normalizeLabel "None"
  | .missing =>
    match raw.spamReason with
    | .value _ => .spam
    | _ => .notSpam

/-- The reason that `_normalize_entry` leaves. -/
def migratedReason (raw : RawEntry) : JsonField JsonValue :=
  if strip (shownText raw.reason) = "" then
    match raw.spamReason with
    | .value legacy =>
      if legacy.truth then .value legacy else .value (.text (defaultReason (rawLabel raw)))
    | _ => .value (.text (defaultReason (rawLabel raw)))
  else raw.reason

def normalizeEntry (lower : String → String) (raw : RawEntry) : RawEntry :=
  let reason := migratedReason raw
  { raw with
    bodySnippet := .missing
    spamReason := .missing
    reason
    label := .value (.text (reconcileLabelWithReason lower (rawLabel raw) (shownText reason)).text) }

/-! ## The store -/

/-- The object of the file; `none` stands for an entry that is not an object. -/
structure Store where
  version : JsonField String
  entries : JsonField (List (Option RawEntry))
  deriving DecidableEq

/-- The file: missing, a JSON value that is not an object, or a store. -/
inductive StoreFile where
  | absent
  | other
  | object (store : Store)

def storeVersion : String := "2.0"

def emptyStore : Store := { version := .value storeVersion, entries := .value [] }

/-- The objects among `data.get("entries") or []`. -/
def Store.objects (store : Store) : List RawEntry :=
  match store.entries with
  | .value entries => entries.filterMap id
  | _ => []

def Store.withEntries (store : Store) (entries : List RawEntry) : Store :=
  { store with entries := .value (entries.map some) }

def normalizeStore (lower : String → String) (data : Store) : Store :=
  { version := if data.version = .missing then .value storeVersion else data.version
    entries := .value ((data.objects.map (normalizeEntry lower)).map some) }

def loadSpamLearning (lower : String → String) : StoreFile → Store
  | .object data => normalizeStore lower data
  | _ => emptyStore

def saveSpamLearning (lower : String → String) (store : Store) : StoreFile :=
  .object { normalizeStore lower store with version := .value storeVersion }

/-! ## Saving and removing -/

/-- What one call of `save_learning_entry` is given, with the identifier and the time that it draws. -/
structure Draft where
  id : String
  createdAt : Moment
  messageId : String
  senderEmail : String
  subject : String
  body : String
  deriving DecidableEq

section
variable (lower : String → String) (keywordsOf : String → String → String → List String)

/-- The reason that `save_learning_entry` stores. -/
def normalizedReason (label : Label) (reason : String) : String :=
  let normalized := if strip reason = "" then defaultReason label else strip reason
  if label = .spam ∧ reasonIndicatesNotSpam lower normalized then operatorSpamReason else normalized

/-- The entry that `save_learning_entry` appends. -/
def learningEntry (label : Label) (draft : Draft) (reason : String) : RawEntry :=
  { id := .value draft.id
    createdAt := .value draft.createdAt.isoformat
    messageId := .value (.text draft.messageId)
    senderEmail := .value (strip (lower draft.senderEmail))
    keywords := .value (keywordsOf draft.subject draft.body draft.senderEmail)
    label := .value (.text label.text)
    reason := .value (.text reason)
    spamReason := .missing
    bodySnippet := .missing }

/-- `save_learning_entry`: the file that it leaves and the entry that it returns. -/
def saveLearningEntry (label : Label) (draft : Draft) (reason : String) (file : StoreFile) :
    StoreFile × RawEntry :=
  let store := loadSpamLearning lower file
  let entry := learningEntry lower keywordsOf label draft (normalizedReason lower label reason)
  (saveSpamLearning lower (store.withEntries (store.objects ++ [entry])), entry)

def saveSpamPattern (draft : Draft) (spamReason : String) (file : StoreFile) :
    StoreFile × RawEntry :=
  saveLearningEntry lower keywordsOf .spam draft (resolveHumanSpamReason lower spamReason) file

def saveSpamAntipattern (draft : Draft) (reason : String) (file : StoreFile) :
    StoreFile × RawEntry :=
  saveLearningEntry lower keywordsOf .notSpam draft reason file

/-- `entry.get("message_id") or ""` is the identifier. -/
def RawEntry.isOf (entry : RawEntry) (messageId : String) : Bool :=
  match entry.messageId with
  | .value value => if value.truth then decide (value = .text messageId) else decide (messageId = "")
  | _ => decide (messageId = "")

/-- The entry is one that `remove_entries_by_message_id` takes out. -/
def RawEntry.isRemoved (entry : RawEntry) (messageId : String) (label : Option Label) : Bool :=
  entry.isOf messageId && label.all fun label => decide (entry.label = .value (.text label.text))

/-- `remove_entries_by_message_id`: the file that it leaves and the entries that it took out. -/
def removeEntriesByMessageId (messageId : String) (label : Option Label) (file : StoreFile) :
    StoreFile × List RawEntry :=
  let store := loadSpamLearning lower file
  let kept := store.objects.filter fun entry => !entry.isRemoved messageId label
  let removed := store.objects.filter fun entry => entry.isRemoved messageId label
  if removed = [] then (file, [])
  else (saveSpamLearning lower (store.withEntries kept), removed)

def removeSpamPatternsByMessageId (messageId : String) (file : StoreFile) :
    StoreFile × List RawEntry :=
  removeEntriesByMessageId lower messageId (some .spam) file

def removeSpamAntipatternsByMessageId (messageId : String) (file : StoreFile) :
    StoreFile × List RawEntry :=
  removeEntriesByMessageId lower messageId (some .notSpam) file

end

/-! ## The decision on an e-mail -/

/-- `EmailMessage`, as far as the filter reads it. -/
structure EmailMessage where
  senderEmail : String
  subject : Option String
  bodyText : Option String

structure SpamResult where
  isSpam : Bool
  confidence : ℚ
  reason : String
  ruleHit : String

structure LearnedSpamDecision where
  isSpam : Bool
  spamResult : Option SpamResult
  matchedEntry : RawEntry
  entryKind : Label

section
variable (lower : String → String)

def normalizeText (text : String) : String := collapse (lower text)

def entryMatchesEmail (senderEmail subject body : String) (entry : RawEntry) : Bool :=
  let sender := strip (lower senderEmail)
  let text := normalizeText lower (subject ++ " " ++ body)
  let entrySender := strip (lower entry.senderEmail.text)
  let keywords := entry.keywords.items
  let keywordHits := keywords.countP fun kw => decide (kw ≠ "") && contains kw text
  if entrySender ≠ "" ∧ entrySender ≠ sender then false
  else if keywords ≠ [] ∧ keywordHits = 0 ∧ entrySender = "" then false
  else decide (0 < (if entrySender ≠ "" then 3 else 0) + keywordHits)

/-- `_collect_learned_entries`: the newest entry first. -/
def collectLearnedEntries (file : StoreFile) : List RawEntry :=
  sortBy (fun entry => OrderDual.toDual entry.createdAt.text)
    ((loadSpamLearning lower file).objects.map (normalizeEntry lower))

/-- The label that `_find_first_learned_match` gives an entry. -/
def learnedLabel (entry : RawEntry) : Label :=
  let raw := match entry.label with
    | .value (.text text) => normalizeLabel text
    | _ => .spam
  reconcileLabelWithReason lower raw (shownText entry.reason)

/-- An entry that `_find_first_learned_match` stops at. -/
def isLearnedMatch (senderEmail subject body : String) (entry : RawEntry) : Bool :=
  entryMatchesEmail lower senderEmail subject body entry &&
    !(decide (learnedLabel lower entry = .spam) &&
      reasonIndicatesNotSpam lower (shownText entry.reason))

def findFirstLearnedMatch (senderEmail subject body : String) (file : StoreFile) :
    Option (Label × RawEntry) :=
  ((collectLearnedEntries lower file).find? (isLearnedMatch lower senderEmail subject body)).map
    fun entry => (learnedLabel lower entry, entry)

def checkLearnedSpamDecision (email : EmailMessage) (file : StoreFile) :
    Option LearnedSpamDecision :=
  match findFirstLearnedMatch lower email.senderEmail (email.subject.getD "")
    (email.bodyText.getD "") file with
  | none => none
  | some (.notSpam, entry) =>
    some { isSpam := false, spamResult := none, matchedEntry := entry, entryKind := .notSpam }
  | some (.spam, entry) =>
    let shown := shownText entry.reason
    let reason := if shown = "" then "Похожее на ранее отмеченный спам" else shown
    some
      { isSpam := true
        spamResult := some
          { isSpam := true
            confidence := 98 / 100
            reason := "Обучение на спаме: " ++ reason
            ruleHit := "learned_spam_pattern" }
        matchedEntry := entry
        entryKind := .spam }

end

end AgentBack.Mail.SpamLearning
