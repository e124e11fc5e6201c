import AgentBack.Laws.Mail.Routing.ReadBack

/-!
# The document of the current decision

A run of `rebuild_decision_xml`: before each call the fields of the decision may have been set by
copies, which carry the document along. A call replaces the document when the new one is valid and
returns the carried one otherwise, so that the document states the current decision exactly when the
new values can be read back, or there was nothing to carry.
-/

namespace AgentBack.Mail.Routing

open Text (strip)

def NoDocument (decision : RoutingDecision) : Prop := decision.xmlDocument.getD "" = ""

/-- A call of `rebuild_decision_xml` in a run: its recipient, the fields of the decision at the call
and the values that it changes. -/
structure RebuildCall where
  recipient : String
  copied : RoutingDecision
  changes : Rebuild

section
variable (lower ruleDirection : String → String) (email : EmailMessage)

def RebuildCall.decision (call : RebuildCall) (previous : RoutingDecision) : RoutingDecision :=
  { call.copied with xmlDocument := previous.xmlDocument }

def RebuildCall.values (call : RebuildCall) (previous : RoutingDecision) : RoutingDecision :=
  updatedDecision ruleDirection (call.decision previous) call.changes

def RebuildCall.result (call : RebuildCall) (previous : RoutingDecision) : RoutingDecision :=
  rebuildDecisionXml lower ruleDirection email call.recipient (call.decision previous) call.changes

def EveryCall (holds : RebuildCall → RoutingDecision → Prop) :
    RoutingDecision → List RebuildCall → Prop
  | _, [] => True
  | previous, call :: rest =>
    holds call previous ∧ EveryCall holds (call.result lower ruleDirection email previous) rest

/-- The decision has no document, or its document parses to its own values; when its values give no
valid document, it has none. -/
structure DocumentCurrent (recipient : String) (decision : RoutingDecision) : Prop where
  states : NoDocument decision ∨
    ∃ fields, parseDocumentXml lower (decision.xmlDocument.getD "") = some fields ∧
      SaysDecision lower email decision false fields
  dropped : validateXmlDocument (stripForbiddenTags
    (buildXmlDocument lower email recipient decision false)) = false → NoDocument decision

def XmlTexts (recipient : String) (decision : RoutingDecision) : Prop :=
  (documentTexts lower email recipient decision false).all isXmlText = true

/-- The new values can be written and read back, or they cannot be written and no document was
carried along. -/
def RebuildCall.Sound (call : RebuildCall) (previous : RoutingDecision) : Prop :=
  (XmlTexts lower email call.recipient (call.values ruleDirection previous) ∧
    NoReturns (call.values ruleDirection previous)) ∨
  (¬ XmlTexts lower email call.recipient (call.values ruleDirection previous) ∧
    NoDocument previous)

/-! ## One call -/

theorem buildXmlDocument_carried (recipient : String) (decision : RoutingDecision)
    (xml : Option String) (isSpam : Bool) :
    buildXmlDocument lower email recipient { decision with xmlDocument := xml } isSpam =
      buildXmlDocument lower email recipient decision isSpam := rfl

theorem saysDecision_carried (decision : RoutingDecision) (xml : Option String)
    (fields : DocumentFields) :
    SaysDecision lower email { decision with xmlDocument := xml } false fields ↔
      SaysDecision lower email decision false fields := by
  constructor
  · intro h
    exact ⟨h.organization, h.theme, h.direction, h.claim, h.partner, h.services⟩
  · intro h
    exact ⟨h.organization, h.theme, h.direction, h.claim, h.partner, h.services⟩

theorem updatedDecision_xmlDocument (decision : RoutingDecision) (changes : Rebuild) :
    (updatedDecision ruleDirection decision changes).xmlDocument = decision.xmlDocument := by
  unfold updatedDecision
  simp only
  split
  · rfl
  · split
    · rfl
    · rfl

theorem withDocument_of_xmlTexts {recipient : String} {decision : RoutingDecision}
    (h : XmlTexts lower email recipient decision) :
    withDocument lower email recipient decision =
      { decision with xmlDocument := some (buildXmlDocument lower email recipient decision false) } := by
  have hvalid : validateXmlDocument (buildXmlDocument lower email recipient decision false) =
      true := by
    rw [validateXmlDocument_document, legal_documentElement]
    exact h
  unfold withDocument
  simp only
  rw [stripForbiddenTags_document, if_pos hvalid]

theorem withDocument_of_not_xmlTexts {recipient : String} {decision : RoutingDecision}
    (h : ¬ XmlTexts lower email recipient decision) :
    withDocument lower email recipient decision = decision := by
  have hvalid : ¬ validateXmlDocument (buildXmlDocument lower email recipient decision false) =
      true := by
    rw [validateXmlDocument_document, legal_documentElement]
    exact h
  unfold withDocument
  simp only
  rw [stripForbiddenTags_document, if_neg hvalid]

/-- What a call leaves states the current decision exactly when the call is sound. -/
theorem documentCurrent_iff (htrue : lower "true" = "true") (hfalse : lower "false" = "false")
    (call : RebuildCall) (previous : RoutingDecision) :
    DocumentCurrent lower email call.recipient (call.result lower ruleDirection email previous) ↔
      call.Sound lower ruleDirection email previous := by
  have hcarried : (call.values ruleDirection previous).xmlDocument = previous.xmlDocument :=
    updatedDecision_xmlDocument ruleDirection _ _
  have hresult : call.result lower ruleDirection email previous =
      withDocument lower email call.recipient (call.values ruleDirection previous) := rfl
  rw [hresult]
  unfold RebuildCall.Sound
  generalize call.values ruleDirection previous = values at hcarried
  by_cases hchars : XmlTexts lower email call.recipient values
  · rw [withDocument_of_xmlTexts lower email hchars]
    have hlegal : (documentElement lower email call.recipient values false).legal = true := by
      rw [legal_documentElement]
      exact hchars
    obtain ⟨fields, hparsed, hreported⟩ :=
      parseDocumentXml_of_legal lower email call.recipient values false htrue hfalse hlegal
    have hvalid : validateXmlDocument (buildXmlDocument lower email call.recipient values false) =
        true := by
      rw [validateXmlDocument_document, hlegal]
    constructor
    · intro h
      refine .inl ⟨hchars, ?_⟩
      rcases h.states with hnone | ⟨fields', hparsed', hgiven⟩
      · -- a document that parses is not empty
        exact absurd hnone (buildXmlDocument_ne_empty lower email call.recipient values false)
      · have hsame : parseDocumentXml lower
            (buildXmlDocument lower email call.recipient values false) = some fields' := hparsed'
        rw [hparsed] at hsame
        cases hsame
        exact noReturns_of_saysDecision lower email call.recipient values false hreported
          ((saysDecision_carried lower email values _ fields).mp hgiven)
    · intro h
      rcases h with ⟨-, hreturns⟩ | ⟨hnot, -⟩
      · have hgiven := saysDecision_of_reported lower email call.recipient values false hreturns
          hreported
        constructor
        · exact .inr ⟨fields, hparsed, (saysDecision_carried lower email values _ fields).mpr hgiven⟩
        · intro hrefused
          rw [stripForbiddenTags_document, buildXmlDocument_carried, hvalid] at hrefused
          cases hrefused
      · exact absurd hchars hnot
  · rw [withDocument_of_not_xmlTexts lower email hchars]
    have hrefused : validateXmlDocument (stripForbiddenTags
        (buildXmlDocument lower email call.recipient values false)) = false := by
      rw [stripForbiddenTags_document, validateXmlDocument_document, legal_documentElement]
      exact Bool.eq_false_iff.mpr hchars
    have hnone : NoDocument values ↔ NoDocument previous := by
      unfold NoDocument
      rw [hcarried]
    constructor
    · intro h
      exact .inr ⟨hchars, hnone.mp (h.dropped hrefused)⟩
    · intro h
      rcases h with ⟨hpos, -⟩ | ⟨-, hempty⟩
      · exact absurd hpos hchars
      · exact ⟨.inl (hnone.mpr hempty), fun _ => hnone.mpr hempty⟩

theorem everyCall_congr {holds holds' : RebuildCall → RoutingDecision → Prop}
    (h : ∀ call previous, holds call previous ↔ holds' call previous) (calls : List RebuildCall)
    (start : RoutingDecision) :
    EveryCall lower ruleDirection email holds start calls ↔
      EveryCall lower ruleDirection email holds' start calls := by
  induction calls generalizing start with
  | nil => exact Iff.rfl
  | cons call rest ih =>
    rw [EveryCall, EveryCall, h, ih]

/-- After each call of a run the document states the current decision exactly when every call is
sound. -/
theorem document_states_decision_iff (htrue : lower "true" = "true")
    (hfalse : lower "false" = "false") (start : RoutingDecision) (calls : List RebuildCall) :
    EveryCall lower ruleDirection email (fun call previous =>
        DocumentCurrent lower email call.recipient (call.result lower ruleDirection email previous))
      start calls ↔
    EveryCall lower ruleDirection email (RebuildCall.Sound lower ruleDirection email) start calls :=
  everyCall_congr lower ruleDirection email
    (documentCurrent_iff lower ruleDirection email htrue hfalse) calls start

end

def partnerCall (partner : String) : RebuildCall where
  recipient := "info@turbo-don.ru"
  copied := supplierDecision "Вектор"
  changes := { departmentId := none, departmentName := none, theme := none, partner := some partner,
               process := none }

/-- What the rules have made of the letter, with its document. -/
def routedDecision : RoutingDecision :=
  withDocument Text.lowerRu (supplierLetter "Акт") "info@turbo-don.ru" (supplierDecision "Вектор")

theorem document_states_decision_control_fails :
    ¬ EveryCall Text.lowerRu (fun _ => "") (supplierLetter "Акт") (fun call previous =>
        DocumentCurrent Text.lowerRu (supplierLetter "Акт") call.recipient
          (call.result Text.lowerRu (fun _ => "") (supplierLetter "Акт") previous))
      routedDecision [partnerCall "Век\x01тор"] := by
  intro h
  have hsound := (documentCurrent_iff Text.lowerRu (fun _ => "") (supplierLetter "Акт") (by decide)
    (by decide) (partnerCall "Век\x01тор") routedDecision).mp h.1
  have htexts : XmlTexts Text.lowerRu (supplierLetter "Акт") "info@turbo-don.ru"
      (supplierDecision "Вектор") := by
    unfold XmlTexts
    decide +kernel
  rcases hsound with ⟨hwritten, -⟩ | ⟨-, hnone⟩
  · have hpartner := List.all_eq_true.mp hwritten "Век\x01тор" (by
      simp only [documentTexts, List.mem_append, List.mem_cons]
      left; left; right; right; right; left
      decide +kernel)
    revert hpartner
    decide
  · unfold routedDecision at hnone
    rw [withDocument_of_xmlTexts _ _ htexts] at hnone
    exact buildXmlDocument_ne_empty _ _ _ _ _ hnone

theorem document_states_decision_iff_partner :
    EveryCall Text.lowerRu (fun _ => "") (supplierLetter "Акт") (fun call previous =>
        DocumentCurrent Text.lowerRu (supplierLetter "Акт") call.recipient
          (call.result Text.lowerRu (fun _ => "") (supplierLetter "Акт") previous))
      routedDecision [partnerCall "Вест"] := by
  apply (document_states_decision_iff Text.lowerRu (fun _ => "") (supplierLetter "Акт") (by decide)
    (by decide) routedDecision [partnerCall "Вест"]).mpr
  refine ⟨.inl ⟨?_, ?_⟩, trivial⟩
  · unfold XmlTexts
    decide +kernel
  · unfold NoReturns
    decide +kernel

end AgentBack.Mail.Routing
