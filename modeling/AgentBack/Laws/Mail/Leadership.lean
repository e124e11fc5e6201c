import AgentBack.Laws.Mail.Routing.ReadBack
import AgentBack.Mail.Leadership

/-!
# The router and the mapper on the leadership

The mapper asks for the mailbox of the office alone: it knows neither the source of the match nor
the aliases nor the operator. It agrees with an approval of a leadership department exactly when the
address that it reads is that mailbox.
-/

namespace AgentBack.Mail.Leadership

open Text (strip)
open Routing (DocumentFields parseDocumentXml)

/-- Who approved the department of a letter: the router, by a match of some source, or the
operator. -/
inductive Approval where
  | router (source : String)
  | operator
  deriving DecidableEq

section
variable (lower : String → String) (aliases : Dict String String) (letter : Letter)
  (payload : Option Payload) (document : Option String) (departmentId : String)

def approved : Approval → Bool
  | .router source => leadershipAllowed lower letter aliases departmentId source
  | .operator => true

/-- The mapper does not reject an approved letter for the leadership. -/
def MapperAgrees (approval : Approval) : Prop :=
  eligibleForErp lower letter payload = true →
  approved lower aliases letter departmentId approval = true →
  ∀ code recipient,
    checkIncomingDocument lower letter departmentId document ≠
      .error (.leadershipRecipient code recipient)

/-- Without aliases an address is lowered and stripped. -/
theorem normalizeRoutingAddress_empty (address : String) :
    normalizeRoutingAddress lower address ∅ = normalizeEmailAddress lower address := by
  have hnone : Dict.get? (∅ : Dict String String) (strip (lower address)) = none := rfl
  have hvalues : Dict.values (∅ : Dict String String) = [] := rfl
  unfold normalizeRoutingAddress normalizeEmailAddress
  simp only [hnone, hvalues, List.not_mem_nil, and_false, if_false]

/-- What the mapper's check answers. -/
theorem validateLeadership_eq (departmentId recipient : String) :
    validateLeadershipRoutingForErp lower departmentId recipient "" ∅ =
      if isLeadershipDepartment departmentId = true ∧
          normalizeEmailAddress lower (strip recipient) ≠ infoLeadershipMailbox then
        .error (.leadershipRecipient (strip departmentId) (strip recipient))
      else .ok () := by
  have hcode : isLeadershipDepartment (strip departmentId) = isLeadershipDepartment departmentId := by
    unfold isLeadershipDepartment
    rw [Text.strip_strip]
  have hsource : ("" : String) ∉ leadershipDedicatedMailboxSources := by decide
  have hhuman : ¬ ("" : String) = "human_correction" := by decide
  unfold validateLeadershipRoutingForErp leadershipDepartmentAllowed isInfoLeadershipMailbox
  simp only
  rw [hcode, normalizeRoutingAddress_empty, decide_eq_false hsource, decide_eq_false hhuman,
    Bool.or_false, Bool.or_false]
  cases isLeadershipDepartment departmentId with
  | false => simp
  | true =>
    by_cases hinfo : normalizeEmailAddress lower (strip recipient) = infoLeadershipMailbox
    · simp [hinfo]
    · simp [hinfo]

/-- The mapper rejects exactly the leadership's letters whose document names another mailbox. -/
theorem checkIncomingDocument_error_iff :
    (∃ code recipient, checkIncomingDocument lower letter departmentId document =
      .error (.leadershipRecipient code recipient)) ↔
    isLeadershipDepartment departmentId = true ∧
      ∃ parsed, document.bind (parseDocumentXml lower) = some parsed ∧
        normalizeEmailAddress lower (erpRecipient letter parsed) ≠ infoLeadershipMailbox := by
  unfold checkIncomingDocument
  cases hparsed : document.bind (parseDocumentXml lower) with
  | none =>
    constructor
    · intro h
      obtain ⟨code, recipient, heq⟩ := h
      cases heq
    · intro h
      obtain ⟨-, parsed, heq, -⟩ := h
      cases heq
  | some parsed =>
    have hstrip : strip (erpRecipient letter parsed) = erpRecipient letter parsed :=
      Text.strip_strip _
    simp only
    rw [validateLeadership_eq, hstrip]
    constructor
    · intro h
      obtain ⟨code, recipient, heq⟩ := h
      split at heq
      · next hcond => exact ⟨hcond.1, parsed, rfl, hcond.2⟩
      · cases heq
    · intro h
      obtain ⟨hleader, parsed', heq, hother⟩ := h
      cases heq
      rw [if_pos ⟨hleader, hother⟩]
      exact ⟨_, _, rfl⟩

/-- The mapper agrees with an approval exactly when the address that it reads of an eligible,
approved leadership letter is the mailbox of the office. -/
theorem mapper_agrees_iff (approval : Approval) :
    MapperAgrees lower aliases letter payload document departmentId approval ↔
      (eligibleForErp lower letter payload = true →
        approved lower aliases letter departmentId approval = true →
        isLeadershipDepartment departmentId = true →
        ∀ parsed, document.bind (parseDocumentXml lower) = some parsed →
          normalizeEmailAddress lower (erpRecipient letter parsed) = infoLeadershipMailbox) := by
  have herror := checkIncomingDocument_error_iff lower letter document departmentId
  constructor
  · intro h heligible happroved hleader parsed hparsed
    by_contra hother
    obtain ⟨code, recipient, heq⟩ := herror.mpr ⟨hleader, parsed, hparsed, hother⟩
    exact h heligible happroved code recipient heq
  · intro h heligible happroved code recipient heq
    obtain ⟨hleader, parsed, hparsed, hother⟩ := herror.mp ⟨code, recipient, heq⟩
    exact hother (h heligible happroved hleader parsed hparsed)

end

def forwardedLetter : Letter where
  mailbox := "test_ii@turbo-don.ru"
  to_ := ["info@turbo-don.ru"]
  cc := []
  routingRecipient := some "test_ii@turbo-don.ru"

def forwardedDocument : String :=
  Routing.buildXmlDocument Text.lowerRu (Routing.supplierLetter "Акт") "test_ii@turbo-don.ru"
    (Routing.supplierDecision "Вектор") false

theorem parse_forwardedDocument : ∃ parsed,
    parseDocumentXml Text.lowerRu forwardedDocument = some parsed ∧
      parsed.emailRecipient = "test_ii@turbo-don.ru" := by
  have hlegal : (Routing.documentElement Text.lowerRu (Routing.supplierLetter "Акт")
      "test_ii@turbo-don.ru" (Routing.supplierDecision "Вектор") false).legal = true := by
    rw [Routing.legal_documentElement]
    decide +kernel
  obtain ⟨parsed, hparsed, hreported⟩ := Routing.parseDocumentXml_of_legal Text.lowerRu
    (Routing.supplierLetter "Акт") "test_ii@turbo-don.ru" (Routing.supplierDecision "Вектор") false
    (by decide) (by decide) hlegal
  refine ⟨parsed, hparsed, ?_⟩
  rw [hreported.emailRecipient]
  decide +kernel

/-- A letter on the chain to the test mailbox, whose sender's correction names the operational
director, is rejected. -/
theorem mapper_agrees_forwarded_fails :
    ¬ MapperAgrees Text.lowerRu ∅ forwardedLetter none (some forwardedDocument) "00-000152"
      (.router "human_correction") := by
  intro h
  obtain ⟨parsed, hparsed, hrecipient⟩ := parse_forwardedDocument
  have hleader : isLeadershipDepartment "00-000152" = true := by decide +kernel
  have hother : normalizeEmailAddress Text.lowerRu (erpRecipient forwardedLetter parsed) ≠
      infoLeadershipMailbox := by
    unfold erpRecipient
    rw [hrecipient]
    decide +kernel
  have herror := checkIncomingDocument_error_iff Text.lowerRu forwardedLetter
    (some forwardedDocument) "00-000152"
  have hbind : (some forwardedDocument).bind (parseDocumentXml Text.lowerRu) = some parsed := by
    rw [Option.bind_some, hparsed]
  obtain ⟨code, recipient, heq⟩ := herror.mpr ⟨hleader, parsed, hbind, hother⟩
  exact h (by decide +kernel) (by decide +kernel) code recipient heq

end AgentBack.Mail.Leadership
