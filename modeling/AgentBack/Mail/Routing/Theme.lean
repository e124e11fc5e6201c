import AgentBack.Base.Text

/-!
# The theme of a document (`agent_pochta/routing/xml_builder.py`)

The regular expressions are written out on the characters of a text. `lower` is `str.lower`.
-/

namespace AgentBack.Mail.Routing

open Text (collapse contains isSpace strip)

/-! ## Tags of a model's reasoning -/

/-- What `re.IGNORECASE` compares with an ASCII letter of a pattern. -/
def foldCase (c : Char) : Char :=
  if c = 'İ' ∨ c = 'ı' then 'i'
  else if c = 'ſ' then 's'
  else if c = '\u212a' then 'k'
  else c.toLower

/-- What stands behind a word that the text begins with, in any case of the letters. -/
def dropWord : List Char → List Char → Option (List Char)
  | [], cs => some cs
  | _, [] => none
  | p :: word, c :: cs => if foldCase c = p then dropWord word cs else none

/-- `re.sub(pattern, "", text)`, where `matchAt` is what stands behind a match at the front. -/
def removeAll (matchAt : List Char → Option (List Char)) : Nat → List Char → List Char
  | 0, cs => cs
  | _, [] => []
  | fuel + 1, c :: cs =>
    match matchAt (c :: cs) with
    | some rest => removeAll matchAt fuel rest
    | none => c :: removeAll matchAt fuel cs

/-- `think(?:ing)?|analysis|comment|redacted_thinking`. -/
def reasoningNames : List (List Char) :=
  ["thinking".toList, "think".toList, "analysis".toList, "comment".toList,
    "redacted_thinking".toList]

/-- What stands behind the first `>`. -/
def afterTag (cs : List Char) : Option (List Char) :=
  match cs.dropWhile (· ≠ '>') with
  | _ :: rest => some rest
  | [] => none

def reasoningTag (cs : List Char) : Option (List Char) :=
  if reasoningNames.any fun name => (dropWord name cs).isSome then afterTag cs else none

/-- `</?(think(?:ing)?|analysis|comment|redacted_thinking)[^>]*>` at the front. -/
def forbiddenTag : List Char → Option (List Char)
  | '<' :: '/' :: rest => reasoningTag rest
  | '<' :: rest => reasoningTag rest
  | _ => none

/-- `</(?:think(?:ing)?|analysis|comment|redacted_thinking)>` at the front. -/
def closingTag : List Char → Option (List Char)
  | '<' :: '/' :: rest =>
    reasoningNames.findSome? fun name =>
      match dropWord name rest with
      | some ('>' :: rest) => some rest
      | _ => none
  | _ => none

/-- What stands behind the first closing tag. -/
def afterClosing : List Char → Option (List Char)
  | [] => none
  | c :: cs =>
    match closingTag (c :: cs) with
    | some rest => some rest
    | none => afterClosing cs

def reasoningBlock : List Char → Option (List Char)
  | '<' :: rest => (reasoningTag rest).bind afterClosing
  | _ => none

def stripForbiddenTags (xml : String) : String :=
  String.ofList (removeAll forbiddenTag xml.toList.length xml.toList)

/-! ## Themes -/

def themeMaxLen : Nat := 200

def noTheme : String := "Без темы"

/-- `re.sub(r"^(re:|fw:|fwd:)\s*", "", text, flags=re.IGNORECASE)`. -/
def dropReply (cs : List Char) : List Char :=
  let words : List (List Char) := ["re:".toList, "fw:".toList, "fwd:".toList]
  match words.findSome? fun word => dropWord word cs with
  | some rest => rest.dropWhile isSpace
  | none => cs

def sanitizeTheme (theme : String) (maxLen : Nat) : String :=
  if strip theme = "" then noTheme
  else
    let blocks := removeAll reasoningBlock theme.toList.length theme.toList
    let cleaned := collapse (stripForbiddenTags (String.ofList blocks))
    let cleaned := dropReply cleaned.toList
    if cleaned = [] then noTheme else String.ofList (cleaned.take maxLen)

/-- `[А-Яа-яA-Za-z]`. -/
def isThemeLetter (c : Char) : Bool := c.isAlpha || decide (0x410 ≤ c.toNat ∧ c.toNat ≤ 0x44f)

/-- `_ACTION_THEME_RE.match`, on a text without line ends: the two groups. -/
def matchActionTheme (theme : String) : Option (String × String) :=
  match theme.toList with
  | [] => none
  | c :: rest =>
    let run := rest.takeWhile fun c => isThemeLetter c || isSpace c
    match rest.dropWhile fun c => isThemeLetter c || isSpace c with
    | ':' :: tail =>
      if isThemeLetter c && decide (run.length ≤ 30) then
        match tail.dropWhile isSpace, tail.getLast? with
        | _, none => none
        -- the second group takes the last character back from the white space
        | [], some last => some (String.ofList (c :: run), String.ofList [last])
        | action, some _ => some (String.ofList (c :: run), String.ofList action)
      else none
    | _ => none

section
variable (lower : String → String)

def keyPhraseToAction (keyPhrase : String) : Option String :=
  let phrase := lower (strip keyPhrase)
  if phrase = "" then none
  else if "претенз".toList <+: phrase.toList ∨ "исков".toList <+: phrase.toList then some "Решить"
  else if contains "оплат" phrase then some "Оплатить"
  else if contains "провер" phrase then some "Проверить"
  else if contains "соглас" phrase || contains "утверд" phrase then some "Согласовать"
  else if contains "ознаком" phrase || contains "уведом" phrase then some "Ознакомиться"
  else if "рассмотр".toList <+: phrase.toList then some "Рассмотреть"
  else if "запрос".toList <+: phrase.toList then some "Запрос"
  else none

variable (subject combinedText processType : String)

def inferThemeAction (claim : Bool) (keyPhrase : String) : String :=
  let combined := lower (subject ++ " " ++ combinedText)
  let has := fun markers : List String => markers.any fun marker => contains marker combined
  let subj := sanitizeTheme subject 80
  let subjLower := if subj ≠ noTheme then lower subj else lower subject
  let process := lower (strip processType)
  match keyPhraseToAction lower keyPhrase with
  | some action => action
  | none =>
    if "диалог".toList <+: (lower (strip keyPhrase)).toList then "Диалог"
    else if claim || contains "претенз" combined then "Решить"
    else if contains "иск" combined && !contains "риск" combined && !contains "исключ" combined then
      "Решить"
    else if has ["проверить", "проверка", "неподписан", "подписать в эдо", "в эдо"] then "Проверить"
    else if has ["согласова", "на согласован", "утвердить", "утвержден"] then "Согласовать"
    else if contains "оплат" combined && (contains "счёт" combined || contains "счет" combined) then
      "Оплатить"
    else if has ["уведомлен", "информ", "для сведения", "к сведению", "ознаком", "статус отгруз",
        "сроки отгруз"] then
      "Ознакомиться"
    else if contains "просч" combined && (contains "ол " combined || contains "ол," subjLower) then
      "Отправить в просчёт"
    else if has ["рассмотреть", "рассмотрение", "требует решения"] then "Рассмотреть"
    else if process = "ознакомление" then "Ознакомиться"
    else if process = "рассмотрение" then if claim then "Решить" else "Рассмотреть"
    else "Запрос"

def formatActionTheme (action subject : String) : String :=
  let cleaned := sanitizeTheme subject themeMaxLen
  let action := strip (if action = "" then "Запрос" else action)
  if cleaned = noTheme then cleaned
  else
    match matchActionTheme cleaned with
    | some (front, back) =>
      if lower (strip front) = lower action then sanitizeTheme cleaned themeMaxLen
      else sanitizeTheme (action ++ ": " ++ strip back) themeMaxLen
    | none => sanitizeTheme (action ++ ": " ++ cleaned) themeMaxLen

def buildActionXmlTheme (claim : Bool) (keyPhrase : String) : String :=
  formatActionTheme lower (inferThemeAction lower subject combinedText processType claim keyPhrase)
    subject

def buildSubjectXmlTheme (claim : Bool) : String :=
  buildActionXmlTheme lower subject combinedText processType claim ""

def subjectMatchesThemePart (themePart subject : String) : Bool :=
  let themePart := sanitizeTheme themePart themeMaxLen
  let subjectClean := sanitizeTheme subject themeMaxLen
  if themePart = noTheme ∨ subjectClean = noTheme then false
  else decide (lower themePart = lower subjectClean)

def isCorruptedTheme (theme subject : String) : Bool :=
  let cleaned := sanitizeTheme theme themeMaxLen
  let subjectClean := sanitizeTheme subject themeMaxLen
  if cleaned = noTheme ∨ subjectClean = noTheme then false
  else
    let cleaned := match matchActionTheme cleaned with
      | some (_, back) => strip back
      | none => cleaned
    if subjectClean.toList <+: cleaned.toList ∧ subjectClean.length + 5 < cleaned.length then
      let rest := Text.stripChars (cleaned.toList.drop subjectClean.length)
      decide (rest ≠ [] ∧ rest.head? ≠ some ':')
    else false

/-- `resolve_document_theme`, for the subject of a letter. -/
def resolveDocumentTheme (subject explicitTheme combinedText processType : String)
    (claim : Bool) : String :=
  let explicit := sanitizeTheme explicitTheme themeMaxLen
  let kept :=
    if explicit ≠ noTheme ∧ isCorruptedTheme explicit subject = false then
      match matchActionTheme explicit with
      | some (_, back) => subjectMatchesThemePart lower back subject
      | none => false
    else false
  if kept then explicit else buildActionXmlTheme lower subject combinedText processType claim ""

end

end AgentBack.Mail.Routing
