import AgentBack.Base.Trim
import AgentBack.Laws.Mail.Routing.RoundTrip

/-!
# What a document says

A document that the validator accepts parses to the texts that were put in, with the line ends as
the parser reports them. The validator refuses a document for one reason only: some character of
some text is no XML character. Together: a document reads back as its letter and its decision say
exactly when its texts consist of XML characters and no return stands inside one that is read back.
-/

namespace AgentBack.Mail.Routing

open Text (contains isSpace strip)
open Xml (Element isXmlChar)

/-- A text with the line ends that the parser reports. -/
def normalText (text : String) : String := String.ofList (Xml.newlines text.toList)

theorem normal_leaf (tag : Xml.Name) (text : String) :
    (leaf tag text).normal = leaf tag (normalText text) := by
  rw [leaf, leaf, normalText, String.toList_ofList, Element.normal, Element.normalAll]

theorem nodeText_of_find {parent : Element} {tag : Xml.Name} {text : String}
    (h : parent.find tag = some (leaf tag (normalText text))) :
    nodeText parent tag = strip (normalText text) := by
  unfold nodeText
  rw [h]
  show strip (String.ofList (normalText text).toList) = _
  rw [String.ofList_toList]

/-- A text without white space is reported as it is. -/
theorem strip_normalText_of_solid {text : String} (h : ∀ c ∈ text.toList, isSpace c = false) :
    strip (normalText text) = text := by
  have htight : Text.Tight text.toList := by
    constructor
    · intro c hc
      exact h c (List.mem_of_head? hc)
    · intro c hc
      exact h c (List.mem_of_getLast? hc)
  have hreturn : '\r' ∉ text.toList := by
    intro hmem
    have hfalse := h _ hmem
    revert hfalse
    decide
  have hstrip := Text.stripChars_of_tight (fun c (hc : c ∈ []) => absurd hc List.not_mem_nil)
    htight (fun c (hc : c ∈ []) => absurd hc List.not_mem_nil)
  rw [List.nil_append, List.append_nil] at hstrip
  unfold normalText strip
  rw [Xml.newlines_of_not_mem hreturn, String.toList_ofList, hstrip, String.ofList_toList]

/-- The digits of every script lie between the white space of Unicode. -/
theorem decimal_facts {c : Char} (h : isDecimal c = true) :
    isSpace c = false ∧ isXmlChar c = true := by
  have hzeros : ∀ start ∈ decimalZeros, 33 ≤ start ∧ (start + 10 ≤ 0xfffe ∨ 0x10000 ≤ start) ∧
      (start + 10 ≤ 0x85 ∨ (0xa1 ≤ start ∧ start + 10 ≤ 0x1680) ∨
        (0x1681 ≤ start ∧ start + 10 ≤ 0x2000) ∨ 0x3001 ≤ start) := by
    decide
  unfold isDecimal at h
  rw [List.any_eq_true] at h
  obtain ⟨start, hstart, hrange⟩ := h
  rw [decide_eq_true_eq] at hrange
  have hfacts := hzeros start hstart
  constructor
  · have hnot : ¬ Text.SpaceCode c.toNat := by
      unfold Text.SpaceCode
      omega
    exact decide_eq_false hnot
  · unfold isXmlChar
    rw [decide_eq_true_eq]
    omega

theorem deptCode_facts {code : String} (h : isDeptCode code = true) {c : Char}
    (hc : c ∈ code.toList) : isSpace c = false ∧ isXmlChar c = true := by
  unfold isDeptCode at h
  split at h
  · next digits heq =>
    rw [Bool.and_eq_true] at h
    rw [heq] at hc
    simp only [List.mem_cons] at hc
    rcases hc with rfl | rfl | rfl | hc
    · decide
    · decide
    · decide
    · exact decimal_facts (List.all_eq_true.mp h.2 c hc)
  · cases h

theorem isDeptCode_serviceCode (isSpam : Bool) (svc : ServiceRoute) :
    isDeptCode (serviceCode isSpam svc) = true := by
  unfold serviceCode resolveServiceCode
  split
  · next h => exact h
  · split
    · next h => exact h
    · cases isSpam <;> decide

theorem strip_normalText_serviceCode (isSpam : Bool) (svc : ServiceRoute) :
    strip (normalText (serviceCode isSpam svc)) = serviceCode isSpam svc := by
  apply strip_normalText_of_solid
  intro c hc
  exact (deptCode_facts (isDeptCode_serviceCode isSpam svc) hc).1

section
variable (lower : String → String) (email : EmailMessage) (recipient : String)
  (decision : RoutingDecision) (isSpam : Bool)

theorem find_services :
    (documentElement lower email recipient decision isSpam).normal.find (name "services") =
      some (servicesElement email decision isSpam).normal := by
  rfl

theorem findall_services :
    (servicesElement email decision isSpam).normal.findall (name "service") =
      (ensureServiceRoutes decision isSpam).map fun svc =>
        (serviceElement isSpam (serviceReasoning email decision) svc).normal := by
  have hchildren : (servicesElement email decision isSpam).normal.children =
      (ensureServiceRoutes decision isSpam).map fun svc =>
        (serviceElement isSpam (serviceReasoning email decision) svc).normal := by
    unfold servicesElement
    rw [Element.normal, Element.normalAll_eq_map, List.map_map]
    rfl
  unfold Element.findall
  rw [hchildren, List.filter_eq_self]
  intro node hnode
  obtain ⟨svc, -, rfl⟩ := List.mem_map.mp hnode
  rfl

theorem nodeText_service (reasoning : String) (svc : ServiceRoute) :
    nodeText (serviceElement isSpam reasoning svc).normal (name "name") =
      serviceCode isSpam svc := by
  have hfind : (serviceElement isSpam reasoning svc).normal.find (name "name") =
      some (leaf (name "name") (normalText (serviceCode isSpam svc))) := by
    rw [← normal_leaf]
    rfl
  rw [nodeText_of_find hfind, strip_normalText_serviceCode]

theorem ensureServiceRoutes_ne_nil : ensureServiceRoutes decision isSpam ≠ [] := by
  unfold ensureServiceRoutes
  split
  · nofun
  · split
    · nofun
    · assumption

/-! ## Validating -/

theorem print_starts (e : Element) : ('<' :: (e.tag.chars ++ ['>'])) <+: Xml.print e := by
  obtain ⟨tag, text, children⟩ := e
  rw [Xml.print]
  refine ⟨Xml.escape text ++ (Xml.printAll children ++ '<' :: '/' :: (tag.chars ++ ['>'])), ?_⟩
  simp [Element.tag]

theorem print_infix_of_mem {child : Element} {children : List Element} (h : child ∈ children) :
    Xml.print child <:+: Xml.printAll children := by
  induction children with
  | nil => cases h
  | cons e es ih =>
    rw [Xml.printAll]
    rcases List.mem_cons.mp h with rfl | h
    · exact (List.prefix_append _ _).isInfix
    · exact (ih h).trans (List.suffix_append _ _).isInfix

theorem print_children_infix (e : Element) : Xml.printAll e.children <:+: Xml.print e := by
  obtain ⟨tag, text, children⟩ := e
  rw [Xml.print]
  refine ⟨'<' :: (tag.chars ++ '>' :: Xml.escape text), '<' :: '/' :: (tag.chars ++ ['>']), ?_⟩
  simp [Element.children]

/-- The document has every tag that the validator asks for. -/
theorem contains_requiredTags :
    (requiredTags.all fun tag =>
      contains ("<" ++ tag ++ ">") (buildXmlDocument lower email recipient decision isSpam)) =
        true := by
  have htags : (documentElement lower email recipient decision isSpam).children.map
      (fun child => child.tag.chars) =
        requiredTags.map String.toList ++ (dialogLeaves decision).map fun e => e.tag.chars := by
    rfl
  rw [List.all_eq_true]
  intro tag htag
  have hmem : tag.toList ∈ (documentElement lower email recipient decision isSpam).children.map
      (fun child => child.tag.chars) := by
    rw [htags]
    exact List.mem_append_left _ (List.mem_map_of_mem htag)
  obtain ⟨child, hchild, hname⟩ := List.mem_map.mp hmem
  have hopen : ("<" ++ tag ++ ">").toList = '<' :: (child.tag.chars ++ ['>']) := by
    rw [hname]
    simp [String.toList_append]
  unfold contains
  rw [decide_eq_true_eq, toList_buildXmlDocument, hopen]
  apply (print_starts child).isInfix.trans
  apply (print_infix_of_mem hchild).trans
  exact print_children_infix _

theorem document_starts : "<document>".toList <+:
    (strip (buildXmlDocument lower email recipient decision isSpam)).toList := by
  have hstrip : strip (buildXmlDocument lower email recipient decision isSpam) =
      buildXmlDocument lower email recipient decision isSpam := strip_tagged _ _
  rw [hstrip, toList_buildXmlDocument]
  exact print_starts (documentElement lower email recipient decision isSpam)

/-- The validator refuses a document for its characters only. -/
theorem validateXmlDocument_document :
    validateXmlDocument (buildXmlDocument lower email recipient decision isSpam) =
      (documentElement lower email recipient decision isSpam).legal := by
  have hnodes : ((servicesElement email decision isSpam).normal.findall (name "service")).all
      (fun service => isDeptCode (nodeText service (name "name"))) = true := by
    rw [findall_services, List.all_eq_true]
    intro node hnode
    obtain ⟨svc, -, rfl⟩ := List.mem_map.mp hnode
    rw [nodeText_service]
    exact isDeptCode_serviceCode isSpam svc
  have hne : ((servicesElement email decision isSpam).normal.findall
      (name "service")).isEmpty = false := by
    rw [findall_services, List.isEmpty_map]
    exact List.isEmpty_eq_false_iff.mpr (ensureServiceRoutes_ne_nil decision isSpam)
  have hroot : (documentElement lower email recipient decision isSpam).normal.tag =
      name "document" := rfl
  unfold validateXmlDocument
  rw [contains_requiredTags, Bool.true_and, if_pos (decide_eq_true (document_starts ..)),
    fromstring_document]
  cases hlegal : (documentElement lower email recipient decision isSpam).legal with
  | false => rw [if_neg Bool.false_ne_true]
  | true =>
    rw [if_pos rfl]
    simp only
    rw [if_neg (not_not_intro hroot), find_services]
    simp only
    rw [hnodes, hne]
    rfl

/-- The fields of a parsed document are the texts that were put in, as the parser reports them. -/
structure Reported (fields : DocumentFields) : Prop where
  organization : fields.organization = strip (normalText (documentOrganization decision))
  theme : fields.theme = strip (normalText (documentTheme lower email decision isSpam))
  direction : fields.direction = strip (normalText (documentDirection decision))
  claim : fields.claim = decision.claim
  partner : fields.partner = strip (normalText (formatPartner decision.partner))
  services : fields.services.map ServiceFields.name =
    (ensureServiceRoutes decision isSpam).map (serviceCode isSpam)
  emailSender : fields.emailSender = strip (normalText email.senderEmail)
  emailRecipient : fields.emailRecipient = strip (normalText recipient)
  process : fields.process = strip (normalText (documentProcess decision isSpam))

theorem boolText_claim (htrue : lower "true" = "true") (hfalse : lower "false" = "false")
    (claim : Bool) :
    boolText lower (strip (normalText (if claim then "true" else "false"))) = claim := by
  have hsolid : ∀ c ∈ (if claim then "true" else "false").toList, isSpace c = false := by
    have hall : (if claim then "true" else "false").toList.all (fun c => !isSpace c) = true := by
      cases claim with
      | true => decide
      | false => decide
    intro c hc
    simpa using List.all_eq_true.mp hall c hc
  have hstrip := strip_normalText_of_solid hsolid
  unfold boolText
  rw [Text.strip_strip, hstrip]
  cases claim with
  | true => exact decide_eq_true htrue
  | false =>
    apply decide_eq_false
    show lower "false" ≠ "true"
    rw [hfalse]
    decide

theorem buildXmlDocument_ne_empty :
    buildXmlDocument lower email recipient decision isSpam ≠ "" := by
  intro heq
  have hchars := toList_buildXmlDocument lower email recipient decision isSpam
  rw [heq, documentElement, Xml.print] at hchars
  cases hchars

theorem parseDocumentXml_of_legal (htrue : lower "true" = "true")
    (hfalse : lower "false" = "false")
    (hlegal : (documentElement lower email recipient decision isSpam).legal = true) :
    ∃ fields, parseDocumentXml lower (buildXmlDocument lower email recipient decision isSpam) =
      some fields ∧ Reported lower email recipient decision isSpam fields := by
  have hne := buildXmlDocument_ne_empty lower email recipient decision isSpam
  have hfrom := fromstring_document lower email recipient decision isSpam
  rw [hlegal, if_pos rfl] at hfrom
  have hroot : (documentElement lower email recipient decision isSpam).normal.tag =
      name "document" := rfl
  have hservices := find_services lower email recipient decision isSpam
  have hleaf : ∀ (tag : Xml.Name) (text : String),
      (documentElement lower email recipient decision isSpam).normal.find tag =
        some (leaf tag text).normal →
      nodeText (documentElement lower email recipient decision isSpam).normal tag =
        strip (normalText text) := by
    intro tag text hfind
    rw [normal_leaf] at hfind
    exact nodeText_of_find hfind
  have horganization := hleaf (name "organization") (documentOrganization decision) rfl
  have htheme := hleaf (name "theme") (documentTheme lower email decision isSpam) rfl
  have hdirection := hleaf (name "направление") (documentDirection decision) rfl
  have hclaim := hleaf (name "claim") (if decision.claim then "true" else "false") rfl
  have hpartner := hleaf (name "partner") (formatPartner decision.partner) rfl
  have hsender := hleaf (name "email_sender") email.senderEmail rfl
  have hrecipient := hleaf (name "email_recipient") recipient rfl
  have hprocess := hleaf (name "process") (documentProcess decision isSpam) rfl
  clear hleaf
  unfold parseDocumentXml
  rw [if_neg hne, hfrom]
  simp only
  rw [if_neg (not_not_intro hroot), hservices]
  refine ⟨_, rfl, ⟨horganization, htheme, hdirection, ?_, hpartner, ?_, hsender, hrecipient,
    hprocess⟩⟩
  · simp only
    rw [hclaim, boolText_claim lower htrue hfalse]
  · simp only
    rw [findall_services, List.map_map, List.map_map]
    apply List.map_congr_left
    intro svc _
    exact nodeText_service isSpam (serviceReasoning email decision) svc

/-! ## The texts of a document -/

def isXmlText (text : String) : Bool := text.toList.all isXmlChar

def documentTexts : List String :=
  [documentOrganization decision, documentTheme lower email decision isSpam,
    documentDirection decision, formatPartner decision.partner] ++
  ((ensureServiceRoutes decision isSpam).flatMap fun svc =>
    [strip svc.name, processOrDefault svc.process]) ++
  [serviceReasoning email decision, email.senderEmail, recipient,
    documentProcess decision isSpam, decision.dialogMode.getD ""]

theorem legal_leaf (tag : Xml.Name) (text : String) : (leaf tag text).legal = isXmlText text := by
  rw [leaf, Element.legal, Element.legalAll, Bool.and_true, isXmlText]

theorem isXmlText_deptCode {code : String} (h : isDeptCode code = true) :
    isXmlText code = true := by
  unfold isXmlText
  rw [List.all_eq_true]
  intro c hc
  exact (deptCode_facts h hc).2

theorem legal_titleLeaves {code : String} (hcode : isDeptCode code = true)
    (departmentName : String) :
    Element.legalAll (titleLeaves code departmentName) = isXmlText (strip departmentName) := by
  unfold titleLeaves
  simp only
  split
  · next h =>
    rw [Element.legalAll]
    rcases h with h | h | h
    · rw [h]
      rfl
    · rw [h, isXmlText_deptCode hcode]
    · rw [isXmlText_deptCode h]
  · rw [Element.legalAll, Element.legalAll, legal_leaf, Bool.and_true]

theorem legal_serviceElement (reasoning : String) (svc : ServiceRoute) :
    (serviceElement isSpam reasoning svc).legal =
      (isXmlText (strip svc.name) && isXmlText (processOrDefault svc.process) &&
        isXmlText reasoning) := by
  have hcode := isDeptCode_serviceCode isSpam svc
  unfold serviceElement
  simp only [Element.legal, Element.legalAll_eq_all, List.all_cons, List.all_append, List.all_nil,
    legal_leaf, ← legal_titleLeaves hcode, isXmlText_deptCode hcode, Bool.true_and, Bool.and_true,
    Bool.and_assoc]

theorem legal_dialogLeaves :
    Element.legalAll (dialogLeaves decision) = isXmlText (decision.dialogMode.getD "") := by
  unfold dialogLeaves
  cases decision.dialogMode with
  | none => rfl
  | some mode =>
    simp only [Option.getD_some]
    split
    · next h =>
      rw [h]
      rfl
    · rw [Element.legalAll, Element.legalAll, legal_leaf, Bool.and_true]

theorem legal_services (reasoning : String) {services : List ServiceRoute} (hne : services ≠ []) :
    Element.legalAll (services.map (serviceElement isSpam reasoning)) =
      ((services.flatMap fun svc => [strip svc.name, processOrDefault svc.process]).all isXmlText &&
        isXmlText reasoning) := by
  rw [Element.legalAll_eq_all, List.all_map, Bool.eq_iff_iff, Bool.and_eq_true, List.all_eq_true,
    List.all_eq_true]
  have hservice : ∀ svc, (Element.legal ∘ serviceElement isSpam reasoning) svc = true ↔
      (isXmlText (strip svc.name) = true ∧ isXmlText (processOrDefault svc.process) = true) ∧
        isXmlText reasoning = true := by
    intro svc
    rw [Function.comp_apply, legal_serviceElement, Bool.and_eq_true, Bool.and_eq_true]
  constructor
  · intro h
    obtain ⟨svc, rest, rfl⟩ := List.exists_cons_of_ne_nil hne
    refine ⟨?_, ((hservice svc).mp (h svc (.head _))).2⟩
    intro text htext
    obtain ⟨svc', hsvc', hmem⟩ := List.mem_flatMap.mp htext
    have hparts := ((hservice svc').mp (h svc' hsvc')).1
    rcases List.mem_cons.mp hmem with rfl | hmem
    · exact hparts.1
    · rw [List.mem_singleton.mp hmem]
      exact hparts.2
  · intro h svc hsvc
    rw [hservice]
    refine ⟨⟨h.1 _ ?_, h.1 _ ?_⟩, h.2⟩
    · exact List.mem_flatMap.mpr ⟨svc, hsvc, .head _⟩
    · exact List.mem_flatMap.mpr ⟨svc, hsvc, .tail _ (.head _)⟩

/-- A document is well formed when its texts consist of XML characters. -/
theorem legal_documentElement :
    (documentElement lower email recipient decision isSpam).legal =
      (documentTexts lower email recipient decision isSpam).all isXmlText := by
  have hclaim : isXmlText (if decision.claim then "true" else "false") = true := by
    cases decision.claim <;> decide
  have htime : isXmlText (formatMailDatetimeForXml email.mailDatetime) = true := by
    unfold isXmlText
    rw [List.all_eq_true]
    intro c hc
    rcases formatMailDatetime_chars _ hc with h | rfl | rfl | rfl
    · exact Xml.isXmlChar_of_isNameChar (by simp [Xml.isNameChar, Char.isAlphanum, h])
    · decide
    · decide
    · decide
  have hservices := legal_services isSpam (serviceReasoning email decision)
    (ensureServiceRoutes_ne_nil decision isSpam)
  unfold documentElement documentTexts
  simp only [Element.legal, Element.legalAll, legal_leaf, legal_dialogLeaves, hclaim, htime,
    hservices, List.all_nil, List.all_cons, List.all_append, Bool.true_and, Bool.and_true,
    Bool.and_assoc]

end

/-! ## Themes -/

theorem dropWord_suffix {word cs rest : List Char} (h : dropWord word cs = some rest) :
    rest <:+ cs := by
  induction word generalizing cs with
  | nil =>
    rw [dropWord] at h
    exact Option.some.inj h ▸ List.suffix_refl _
  | cons p word ih =>
    cases cs with
    | nil => cases h
    | cons c cs =>
      rw [dropWord] at h
      split at h
      · exact (ih h).trans (List.suffix_cons c cs)
      · cases h

theorem dropReply_suffix (cs : List Char) : dropReply cs <:+ cs := by
  unfold dropReply
  simp only
  split
  · next rest heq =>
    obtain ⟨word, -, hword⟩ := List.exists_of_findSome?_eq_some heq
    exact (List.dropWhile_suffix _).trans (dropWord_suffix hword)
  · exact List.suffix_refl cs

theorem not_mem_sanitizeTheme (theme : String) (maxLen : Nat) :
    '\r' ∉ (sanitizeTheme theme maxLen).toList := by
  have hnone : '\r' ∉ noTheme.toList := by decide
  unfold sanitizeTheme
  split
  · exact hnone
  · simp only
    split
    · exact hnone
    · rw [String.toList_ofList]
      intro hmem
      have hcollapsed := (dropReply_suffix _).subset (List.mem_of_mem_take hmem)
      rcases Text.mem_collapse hcollapsed with h | h
      · revert h
        decide
      · revert h
        decide

def Sanitized (theme : String) : Prop := ∃ text, theme = sanitizeTheme text themeMaxLen

theorem sanitized_ite {c : Prop} [Decidable c] {theme theme' : String} (h : Sanitized theme)
    (h' : Sanitized theme') : Sanitized (if c then theme else theme') := by
  split
  · exact h
  · exact h'

theorem sanitized_formatActionTheme (lower : String → String) (action subject : String) :
    Sanitized (formatActionTheme lower action subject) := by
  have hclean : ∀ text, Sanitized (sanitizeTheme text themeMaxLen) := fun text => ⟨text, rfl⟩
  unfold formatActionTheme
  simp only
  apply sanitized_ite (hclean subject)
  split
  · exact sanitized_ite (hclean _) (hclean _)
  · exact hclean _

theorem sanitized_buildActionXmlTheme (lower : String → String)
    (subject combinedText processType keyPhrase : String) (claim : Bool) :
    Sanitized (buildActionXmlTheme lower subject combinedText processType claim keyPhrase) := by
  unfold buildActionXmlTheme
  exact sanitized_formatActionTheme lower _ subject

theorem sanitized_documentTheme (lower : String → String) (email : EmailMessage)
    (decision : RoutingDecision) (isSpam : Bool) :
    Sanitized (documentTheme lower email decision isSpam) := by
  unfold documentTheme resolveDocumentTheme buildSubjectXmlTheme
  apply sanitized_ite
  · exact sanitized_ite ⟨decision.theme, rfl⟩ (sanitized_buildActionXmlTheme ..)
  · exact sanitized_buildActionXmlTheme ..

theorem strip_normalText_theme (lower : String → String) (email : EmailMessage)
    (decision : RoutingDecision) (isSpam : Bool) :
    strip (normalText (documentTheme lower email decision isSpam)) =
      strip (documentTheme lower email decision isSpam) := by
  obtain ⟨text, htext⟩ := sanitized_documentTheme lower email decision isSpam
  unfold normalText
  rw [htext, Xml.newlines_of_not_mem (not_mem_sanitizeTheme text themeMaxLen), String.ofList_toList]

/-! ## The round trip -/

section
variable (lower : String → String) (email : EmailMessage) (recipient : String)
  (decision : RoutingDecision) (isSpam : Bool)

/-- The fields are what the decision says, up to the white space around the texts. -/
structure SaysDecision (fields : DocumentFields) : Prop where
  organization : fields.organization = strip (documentOrganization decision)
  theme : fields.theme = strip (documentTheme lower email decision isSpam)
  direction : fields.direction = strip (documentDirection decision)
  claim : fields.claim = decision.claim
  partner : fields.partner = strip (formatPartner decision.partner)
  services : fields.services.map ServiceFields.name =
    (ensureServiceRoutes decision isSpam).map (serviceCode isSpam)

structure SaysLetter (fields : DocumentFields) : Prop
    extends SaysDecision lower email decision isSpam fields where
  emailSender : fields.emailSender = strip email.senderEmail
  emailRecipient : fields.emailRecipient = strip recipient
  process : fields.process = strip (documentProcess decision isSpam)

/-- The document that is built and cleaned is well formed, the validator accepts it, and the parser
gives back what was put in. -/
structure ReadsBack : Prop where
  wellFormed : (fromstring (stripForbiddenTags
    (buildXmlDocument lower email recipient decision isSpam))).isSome = true
  accepted : validateXmlDocument (stripForbiddenTags
    (buildXmlDocument lower email recipient decision isSpam)) = true
  parsed : ∃ fields, parseDocumentXml lower (stripForbiddenTags
    (buildXmlDocument lower email recipient decision isSpam)) = some fields ∧
      SaysLetter lower email recipient decision isSpam fields

/-- No return stands inside a text of the decision that is read back. -/
def NoReturns : Prop :=
  ∀ text ∈ [documentOrganization decision, documentDirection decision,
    formatPartner decision.partner], '\r' ∉ (strip text).toList

/-- Every text consists of XML characters, and no return stands inside one that is read back. -/
structure Printable : Prop where
  chars : ∀ text ∈ documentTexts lower email recipient decision isSpam, isXmlText text = true
  values : NoReturns decision
  letter : ∀ text ∈ [email.senderEmail, recipient, documentProcess decision isSpam],
    '\r' ∉ (strip text).toList

theorem strip_normalText_iff (text : String) :
    strip (normalText text) = strip text ↔ '\r' ∉ (strip text).toList :=
  Text.strip_newlines_eq_iff text

theorem saysDecision_of_reported {fields : DocumentFields} (hreturns : NoReturns decision)
    (h : Reported lower email recipient decision isSpam fields) :
    SaysDecision lower email decision isSpam fields where
  organization := by
    rw [h.organization, strip_normalText_iff]
    exact hreturns _ (by simp)
  theme := by rw [h.theme, strip_normalText_theme]
  direction := by
    rw [h.direction, strip_normalText_iff]
    exact hreturns _ (by simp)
  claim := h.claim
  partner := by
    rw [h.partner, strip_normalText_iff]
    exact hreturns _ (by simp)
  services := h.services

theorem noReturns_of_saysDecision {fields : DocumentFields}
    (h : Reported lower email recipient decision isSpam fields)
    (hgiven : SaysDecision lower email decision isSpam fields) : NoReturns decision := by
  intro text htext
  rw [← strip_normalText_iff]
  simp only [List.mem_cons, List.not_mem_nil, or_false] at htext
  rcases htext with rfl | rfl | rfl
  · rw [← h.organization, hgiven.organization]
  · rw [← h.direction, hgiven.direction]
  · rw [← h.partner, hgiven.partner]

/-- A document that is accepted consists of XML characters. -/
theorem chars_of_readsBack (h : ReadsBack lower email recipient decision isSpam) :
    ∀ text ∈ documentTexts lower email recipient decision isSpam, isXmlText text = true := by
  have haccepted := h.accepted
  rw [stripForbiddenTags_document, validateXmlDocument_document, legal_documentElement] at haccepted
  exact List.all_eq_true.mp haccepted

/-- A document reads back exactly when every text that is put in consists of XML characters and
none that is read back has a return inside. -/
theorem readsBack_iff_printable (htrue : lower "true" = "true") (hfalse : lower "false" = "false") :
    ReadsBack lower email recipient decision isSpam ↔
      Printable lower email recipient decision isSpam := by
  have hstrip := stripForbiddenTags_document lower email recipient decision isSpam
  constructor
  · intro h
    have hchars := chars_of_readsBack lower email recipient decision isSpam h
    have hlegal : (documentElement lower email recipient decision isSpam).legal = true := by
      rw [legal_documentElement]
      exact List.all_eq_true.mpr hchars
    obtain ⟨fields, hparsed, hgiven⟩ := h.parsed
    obtain ⟨fields', hparsed', hreported⟩ :=
      parseDocumentXml_of_legal lower email recipient decision isSpam htrue hfalse hlegal
    rw [hstrip, hparsed'] at hparsed
    cases hparsed
    refine ⟨hchars, ?_, ?_⟩
    · exact noReturns_of_saysDecision lower email recipient decision isSpam hreported
        hgiven.toSaysDecision
    · intro text htext
      rw [← strip_normalText_iff]
      simp only [List.mem_cons, List.not_mem_nil, or_false] at htext
      rcases htext with rfl | rfl | rfl
      · rw [← hreported.emailSender, hgiven.emailSender]
      · rw [← hreported.emailRecipient, hgiven.emailRecipient]
      · rw [← hreported.process, hgiven.process]
  · intro h
    have hlegal : (documentElement lower email recipient decision isSpam).legal = true := by
      rw [legal_documentElement]
      exact List.all_eq_true.mpr h.chars
    obtain ⟨fields, hparsed, hreported⟩ :=
      parseDocumentXml_of_legal lower email recipient decision isSpam htrue hfalse hlegal
    constructor
    · rw [hstrip, fromstring_document, if_pos hlegal]
      rfl
    · rw [hstrip, validateXmlDocument_document, hlegal]
    · refine ⟨fields, ?_, ?_⟩
      · rw [hstrip, hparsed]
      · refine ⟨saysDecision_of_reported lower email recipient decision isSpam h.values hreported,
          ?_, ?_, ?_⟩
        · rw [hreported.emailSender, strip_normalText_iff]
          exact h.letter _ (by simp)
        · rw [hreported.emailRecipient, strip_normalText_iff]
          exact h.letter _ (by simp)
        · rw [hreported.process, strip_normalText_iff]
          exact h.letter _ (by simp)

end

def supplierLetter (subject : String) : EmailMessage where
  senderEmail := "sales@vektor.ru"
  subject := subject
  mailDatetime := (2026, 3, 2, 10, 15, 0)

def supplierDecision (partner : String) : RoutingDecision where
  organization := "НП"
  direction := "ПР"
  process := "исполнение"
  services := [{ code := "00-000042", name := "Отдел снабжения", process := "исполнение",
                 reasoning := "", direction := "ПР" }]
  confidenceLevel := .high
  confidenceScore := 90
  partner := some partner
  claim := true
  theme := ""
  hasConflict := false
  matchSource := "keyword"
  dialogMode := none
  xmlDocument := none
  hardSignalCount := 1
  adaptiveSignalCount := 0
  hardForeign := false

/-- A control character in the subject of a letter makes its document unreadable. -/
theorem readsBack_control_fails :
    ¬ ReadsBack Text.lowerRu (supplierLetter "Акт\x08") "info@turbo-don.ru"
      (supplierDecision "Вектор") false := by
  intro h
  have hchars := chars_of_readsBack _ _ _ _ _ h (serviceReasoning (supplierLetter "Акт\x08")
    (supplierDecision "Вектор")) (by simp [documentTexts])
  revert hchars
  decide +kernel

theorem readsBack_iff_printable_plain :
    ReadsBack Text.lowerRu (supplierLetter "Акт") "info@turbo-don.ru"
      (supplierDecision "Вектор") false := by
  apply (readsBack_iff_printable Text.lowerRu (supplierLetter "Акт") "info@turbo-don.ru"
    (supplierDecision "Вектор") false (by decide) (by decide)).mpr
  constructor
  · decide +kernel
  · unfold NoReturns
    decide +kernel
  · decide +kernel

end AgentBack.Mail.Routing
