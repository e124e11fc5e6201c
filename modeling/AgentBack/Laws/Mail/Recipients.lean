import AgentBack.Mail.Intake

/-!
# The keys of the rows

`parse_routing_message_id` takes every suffix with an `@` off, so that a key gives back its
Message-ID exactly when that does not itself end in such a suffix. A key determines the Message-ID
and the recipient when recipients have no `#`; the base in `known_bases` is cut at the first `#` and
is the Message-ID exactly when that has none.
-/

namespace AgentBack.Mail

variable {lower : String → String}

/-- A Message-ID with nothing to take off: what stands behind its last `#` has no `@`. -/
def Bare (messageId : String) : Prop :=
  ∀ front suffix, splitLast '#' messageId.toList = some (front, suffix) → '@' ∉ suffix

theorem bare_of_no_hash {messageId : String} (h : '#' ∉ messageId.toList) : Bare messageId := by
  intro front suffix hsplit
  rw [splitLast_eq_none.mpr h] at hsplit
  cases hsplit

/-- The parser stops where nothing is to be taken off, and takes something off only when there is a
suffix with an `@`. -/
theorem parseSuffixes_spec (base : List Char) (recipient : Option (List Char)) :
    (∀ front suffix, splitLast '#' (parseSuffixes base recipient).1 = some (front, suffix) →
        '@' ∉ suffix) ∧
      ((parseSuffixes base recipient).2 = none →
        recipient = none ∧ (parseSuffixes base recipient).1 = base) := by
  induction base, recipient using parseSuffixes.induct with
  | case1 base recipient hnone =>
    rw [parseSuffixes]
    split
    · refine ⟨fun front suffix h => ?_, fun h => ⟨h, rfl⟩⟩
      rw [hnone] at h
      cases h
    · rename_i hsome
      rw [hnone] at hsome
      cases hsome
  | case2 base recipient front suffix hsome hat ih =>
    rw [parseSuffixes]
    split
    · rename_i hnone
      rw [hnone] at hsome
      cases hsome
    · rename_i hsome'
      cases hsome'.symm.trans hsome
      rw [if_pos hat]
      exact ⟨ih.1, fun h => absurd (ih.2 h).1 (Option.some_ne_none _)⟩
  | case3 base recipient front suffix hsome hat =>
    rw [parseSuffixes]
    split
    · rename_i hnone
      rw [hnone] at hsome
      cases hsome
    · rename_i hsome'
      cases hsome'.symm.trans hsome
      rw [if_neg hat]
      refine ⟨fun front' suffix' h => ?_, fun h => ⟨h, rfl⟩⟩
      cases hsome.symm.trans h
      exact hat

theorem parseSuffixes_of_bare {messageId : String} (h : Bare messageId)
    (recipient : Option (List Char)) :
    parseSuffixes messageId.toList recipient = (messageId.toList, recipient) := by
  rw [parseSuffixes]
  split
  · rfl
  · rename_i front suffix hsome
    rw [if_neg (h front suffix hsome)]

theorem toList_routingMessageId (lower : String → String) (base : String) {recipient : String}
    (h : recipient ≠ "") :
    (routingMessageId lower base recipient).toList =
      base.toList ++ '#' :: (lower recipient).toList := by
  rw [routingMessageId, if_neg h, String.toList_append, String.toList_append, List.append_assoc]
  rfl

theorem ne_empty_of_mem {recipient : String} {c : Char} (h : c ∈ recipient.toList) :
    recipient ≠ "" := by
  rintro rfl
  cases h

section

variable (hlower : LowersAddresses lower) {base recipient : String} (hat : '@' ∈ recipient.toList)
  (hhash : '#' ∉ recipient.toList)
include hlower hat hhash

/-- The parser takes the suffix of the encoder off and goes on with the base. -/
theorem parseRoutingMessageId_routing :
    parseSuffixes (routingMessageId lower base recipient).toList none =
      parseSuffixes base.toList (some (lower recipient).toList) := by
  have hsplit := splitLast_append (fun h => hhash ((hlower.hash recipient).mp h)) base.toList
  rw [toList_routingMessageId lower base (ne_empty_of_mem hat), parseSuffixes]
  split
  · rename_i hnone
    rw [hsplit] at hnone
    cases hnone
  · rename_i front suffix hsome
    cases hsplit.symm.trans hsome
    rw [if_pos ((hlower.at_ recipient).mpr hat)]

/-! ## The laws -/

/-- A key gives back its Message-ID and its recipient exactly when the Message-ID is bare. -/
theorem parse_routing_iff :
    parseRoutingMessageId lower (routingMessageId lower base recipient) =
      (base, some (lower recipient)) ↔ Bare base := by
  rw [parseRoutingMessageId, parseRoutingMessageId_routing hlower hat hhash]
  constructor
  · intro h
    have hspec := parseSuffixes_spec base.toList (some (lower recipient).toList)
    generalize parseSuffixes base.toList (some (lower recipient).toList) = parsed at h hspec
    obtain ⟨front, found⟩ := parsed
    cases found with
    | none => exact absurd (hspec.2 rfl).1 (Option.some_ne_none _)
    | some found =>
      obtain ⟨hbase, -⟩ := Prod.mk.inj h
      rw [← hbase]
      unfold Bare
      rw [String.toList_ofList]
      exact hspec.1
  · intro hbare
    rw [parseSuffixes_of_bare hbare]
    simp only [String.ofList_toList, hlower.idem]

end

/-- Normalising twice is normalising once. -/
theorem normalizeRoutingEmail_idem (lower : String → String) (email : EmailMessage) :
    normalizeRoutingEmail lower (normalizeRoutingEmail lower email) =
      normalizeRoutingEmail lower email := by
  have hspec := parseSuffixes_spec email.messageId.toList none
  unfold normalizeRoutingEmail parseRoutingMessageId
  generalize hparsed : parseSuffixes email.messageId.toList none = parsed at hspec
  obtain ⟨front, found⟩ := parsed
  cases found with
  | none => simp only [hparsed]
  | some found =>
    have hbare : Bare (String.ofList front) := by
      unfold Bare
      rw [String.toList_ofList]
      exact hspec.1
    simp only [parseSuffixes_of_bare hbare]

/-- Recipients without a `#`: equal keys have equal Message-IDs and equal recipients. -/
theorem routingMessageId_inj (hlower : LowersAddresses lower) {base recipient base' recipient' : String}
    (hne : recipient ≠ "") (hhash : '#' ∉ recipient.toList) (hne' : recipient' ≠ "")
    (hhash' : '#' ∉ recipient'.toList)
    (h : routingMessageId lower base recipient = routingMessageId lower base' recipient') :
    base = base' ∧ lower recipient = lower recipient' := by
  have hlist := congrArg String.toList h
  rw [toList_routingMessageId lower base hne, toList_routingMessageId lower base' hne'] at hlist
  obtain ⟨hbase, hrecipient⟩ := append_delimiter_inj
    (fun hmem => hhash ((hlower.hash recipient).mp hmem))
    (fun hmem => hhash' ((hlower.hash recipient').mp hmem)) hlist
  exact ⟨String.toList_inj.mp hbase, String.toList_inj.mp hrecipient⟩

/-- The base in `known_bases` is the Message-ID exactly when that has no `#`. -/
theorem knownBase_routing_iff (lower : String → String) {base recipient : String}
    (hne : recipient ≠ "") :
    knownBase (routingMessageId lower base recipient) = base ↔ '#' ∉ base.toList := by
  rw [knownBase, toList_routingMessageId lower base hne]
  constructor
  · intro h hmem
    rw [← h, String.toList_ofList] at hmem
    exact not_mem_beforeFirst _ _ hmem
  · intro hnot
    rw [beforeFirst_append hnot, String.ofList_toList]

/-- For every Message-ID and every recipient with an `@` and without a `#`: the key gives both back
exactly when the Message-ID is bare, and keys are equal only for the same Message-ID and recipient;
normalising is idempotent; the base in `known_bases` is the Message-ID exactly when that has no
`#`. -/
theorem routingMessageId_faithful (lower : String → String) (hlower : LowersAddresses lower) :
    (∀ base recipient : String, '@' ∈ recipient.toList → '#' ∉ recipient.toList →
      (parseRoutingMessageId lower (routingMessageId lower base recipient) =
        (base, some (lower recipient)) ↔ Bare base)) ∧
    (∀ email, normalizeRoutingEmail lower (normalizeRoutingEmail lower email) =
      normalizeRoutingEmail lower email) ∧
    (∀ base recipient base' recipient' : String,
      '@' ∈ recipient.toList → '#' ∉ recipient.toList →
      '@' ∈ recipient'.toList → '#' ∉ recipient'.toList →
      routingMessageId lower base recipient = routingMessageId lower base' recipient' →
        base = base' ∧ lower recipient = lower recipient') ∧
    ∀ base recipient : String, '@' ∈ recipient.toList →
      (knownBase (routingMessageId lower base recipient) = base ↔ '#' ∉ base.toList) := by
  refine ⟨fun base recipient hat hhash => parse_routing_iff hlower hat hhash,
    normalizeRoutingEmail_idem lower, ?_, fun base recipient hat => ?_⟩
  · intro base recipient base' recipient' hat hhash hat' hhash'
    exact routingMessageId_inj hlower (ne_empty_of_mem hat) hhash (ne_empty_of_mem hat') hhash'
  · exact knownBase_routing_iff lower (ne_empty_of_mem hat)

theorem lowersAddresses_id : LowersAddresses id where
  idem _ := rfl
  stripped _ := Text.strip_strip _
  ne_empty _ h := h
  hash _ := Iff.rfl
  at_ _ := Iff.rfl

theorem routingMessageId_faithful_info :
    parseRoutingMessageId id (routingMessageId id "<1@a>" "info@b") =
      ("<1@a>", some "info@b") :=
  ((routingMessageId_faithful id lowersAddresses_id).1 "<1@a>" "info@b" (by decide)
    (by decide)).mpr (bare_of_no_hash (by decide))

/-- A Message-ID that ends in a suffix with an `@` loses it, a recipient with a `#` shares its key
with another one, and two Message-IDs that differ behind a `#` have one base. -/
theorem routingMessageId_not_faithful :
    parseRoutingMessageId id (routingMessageId id "<1#2@a>" "info@b") = ("<1", some "2@a>") ∧
      routingMessageId id "<1>" "x#info@b" = routingMessageId id "<1>#x" "info@b" ∧
      knownBase (routingMessageId id "<1#2@a>" "info@b") =
        knownBase (routingMessageId id "<1#3@a>" "info@b") := by
  decide +kernel

end AgentBack.Mail
