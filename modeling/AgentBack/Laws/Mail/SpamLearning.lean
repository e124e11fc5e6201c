import AgentBack.Mail.SpamLearning

/-!
# The operator's latest decision

What the operator decided is a list: a decision is added at its end and a removal takes out the
decisions of its message and label (`Operation.log`). The file holds one entry for each decision of
the list, in its order and with its label (`objects_run`), because the migration leaves such an
entry alone; the newest entry that matches an e-mail is then the last decision that does.

The migration of an older entry is not always complete after one pass: a blank text under
`spam_reason` becomes the reason, and the next pass replaces it.
-/

namespace AgentBack.Mail.SpamLearning

open Text (strip)

/-! ## Histories -/

inductive Operation where
  | savePattern (draft : Draft) (spamReason : String)
  | saveAntipattern (draft : Draft) (reason : String)
  | removePatterns (messageId : String)
  | removeAntipatterns (messageId : String)

def Operation.createdAt : Operation → Option Moment
  | .savePattern draft _ => some draft.createdAt
  | .saveAntipattern draft _ => some draft.createdAt
  | _ => none

def Timed (history : List Operation) : Prop :=
  (history.filterMap Operation.createdAt).Pairwise Moment.Before

structure Decision where
  label : Label
  draft : Draft
  reason : String

def withoutDecisions (messageId : String) (label : Label) (log : List Decision) : List Decision :=
  log.filter fun decision => !(decide (decision.draft.messageId = messageId) &&
    decide (decision.label = label))

section
variable (lower : String → String) (keywordsOf : String → String → String → List String)

/-- What the call does to the list of decisions. -/
def Operation.log (log : List Decision) : Operation → List Decision
  | .savePattern draft spamReason =>
    log ++ [⟨.spam, draft, normalizedReason lower .spam (resolveHumanSpamReason lower spamReason)⟩]
  | .saveAntipattern draft reason =>
    log ++ [⟨.notSpam, draft, normalizedReason lower .notSpam reason⟩]
  | .removePatterns messageId => withoutDecisions messageId .spam log
  | .removeAntipatterns messageId => withoutDecisions messageId .notSpam log

def decisions (history : List Operation) : List Decision := history.foldl (Operation.log lower) []

def Operation.run (file : StoreFile) : Operation → StoreFile
  | .savePattern draft spamReason => (saveSpamPattern lower keywordsOf draft spamReason file).1
  | .saveAntipattern draft reason => (saveSpamAntipattern lower keywordsOf draft reason file).1
  | .removePatterns messageId => (removeSpamPatternsByMessageId lower messageId file).1
  | .removeAntipatterns messageId => (removeSpamAntipatternsByMessageId lower messageId file).1

/-- The file after a history that begins with no file. -/
def run (history : List Operation) : StoreFile :=
  history.foldl (Operation.run lower keywordsOf) .absent

def Decision.entry (decision : Decision) : RawEntry :=
  learningEntry lower keywordsOf decision.label decision.draft decision.reason

/-- A decision whose record the migration leaves alone. -/
structure Decision.Settled (decision : Decision) : Prop where
  reason_ne : strip decision.reason ≠ ""
  agrees : decision.label = .spam → reasonIndicatesNotSpam lower decision.reason = false

end

def StoreFile.objects : StoreFile → List RawEntry
  | .object store => store.objects
  | _ => []

variable {lower : String → String} {keywordsOf : String → String → String → List String}

theorem normalizeLabel_text (label : Label) : normalizeLabel label.text = label := by
  cases label <;> decide

theorem shownText_text (s : String) : shownText (.value (.text s)) = s := by
  unfold shownText JsonValue.truth JsonValue.str
  by_cases h : s = "" <;> simp [h]

theorem reconcileLabelWithReason_of_agrees {label : Label} {reason : String}
    (h : label = .spam → reasonIndicatesNotSpam lower reason = false) :
    reconcileLabelWithReason lower label reason = label := by
  unfold reconcileLabelWithReason
  apply if_neg
  rintro ⟨hspam, hreason⟩
  rw [h hspam] at hreason
  cases hreason

theorem Decision.Settled.normalizeEntry_entry {decision : Decision} (h : decision.Settled lower) :
    normalizeEntry lower (decision.entry lower keywordsOf) = decision.entry lower keywordsOf := by
  have hreason : migratedReason (decision.entry lower keywordsOf) =
      .value (.text decision.reason) := by
    unfold migratedReason Decision.entry learningEntry
    rw [shownText_text, if_neg h.reason_ne]
  have hlabel : rawLabel (decision.entry lower keywordsOf) = decision.label :=
    normalizeLabel_text decision.label
  unfold normalizeEntry
  simp only
  rw [hreason, hlabel, shownText_text, reconcileLabelWithReason_of_agrees h.agrees]
  rfl

theorem strip_defaultReason (label : Label) : strip (defaultReason label) ≠ "" := by
  cases label <;> decide +kernel

theorem strip_normalizedReason (label : Label) (reason : String) :
    strip (normalizedReason lower label reason) ≠ "" := by
  have hgiven : strip (if strip reason = "" then defaultReason label else strip reason) ≠ "" := by
    split
    · exact strip_defaultReason label
    · rwa [Text.strip_strip]
  unfold normalizedReason
  simp only
  generalize (if strip reason = "" then defaultReason label else strip reason) = given at hgiven
  split
  · exact strip_defaultReason .spam
  · exact hgiven

theorem normalizedReason_agrees (hdefault : reasonIndicatesNotSpam lower operatorSpamReason = false)
    (label : Label) (reason : String) (hspam : label = .spam) :
    reasonIndicatesNotSpam lower (normalizedReason lower label reason) = false := by
  unfold normalizedReason
  simp only
  generalize (if strip reason = "" then defaultReason label else strip reason) = given
  split
  · exact hdefault
  · next h =>
    rw [not_and, Bool.not_eq_true] at h
    exact h hspam

/-! ## The file and the list of decisions -/

theorem objects_withEntries (store : Store) (entries : List RawEntry) :
    (store.withEntries entries).objects = entries := by
  unfold Store.withEntries Store.objects
  simp only [List.filterMap_map]
  exact List.filterMap_some

theorem objects_normalizeStore (data : Store) :
    (normalizeStore lower data).objects = data.objects.map (normalizeEntry lower) :=
  objects_withEntries data _

theorem objects_save (store : Store) :
    (saveSpamLearning lower store).objects = store.objects.map (normalizeEntry lower) :=
  objects_normalizeStore store

theorem objects_load (file : StoreFile) :
    (loadSpamLearning lower file).objects = file.objects.map (normalizeEntry lower) := by
  cases file with
  | absent => rfl
  | other => rfl
  | object data => exact objects_normalizeStore data

/-- The file holds the entries of settled decisions and nothing else. -/
structure Records (lower : String → String)
    (keywordsOf : String → String → String → List String) (file : StoreFile)
    (log : List Decision) : Prop where
  objects : file.objects = log.map (Decision.entry lower keywordsOf)
  settled : ∀ decision ∈ log, decision.Settled lower

variable {file : StoreFile} {log : List Decision} {raw : RawEntry}

theorem map_normalizeEntry (h : ∀ decision ∈ log, decision.Settled lower) :
    (log.map (Decision.entry lower keywordsOf)).map (normalizeEntry lower) =
      log.map (Decision.entry lower keywordsOf) := by
  rw [List.map_map]
  apply List.map_congr_left
  intro decision hdecision
  exact (h decision hdecision).normalizeEntry_entry

theorem Records.load (h : Records lower keywordsOf file log) :
    (loadSpamLearning lower file).objects = log.map (Decision.entry lower keywordsOf) := by
  rw [objects_load, h.objects, map_normalizeEntry h.settled]

theorem Records.save
    (h : Records lower keywordsOf file log) (label : Label) (draft : Draft) (reason : String)
    (hagrees : label = .spam →
      reasonIndicatesNotSpam lower (normalizedReason lower label reason) = false) :
    Records lower keywordsOf (saveLearningEntry lower keywordsOf label draft reason file).1
      (log ++ [⟨label, draft, normalizedReason lower label reason⟩]) := by
  have hsettled : ∀ decision ∈ log ++ [⟨label, draft, normalizedReason lower label reason⟩],
      decision.Settled lower := by
    intro decision hdecision
    rcases List.mem_append.mp hdecision with hold | hnew
    · exact h.settled decision hold
    · rw [List.mem_singleton.mp hnew]
      exact ⟨strip_normalizedReason label reason, hagrees⟩
  refine ⟨?_, hsettled⟩
  unfold saveLearningEntry
  simp only
  rw [objects_save, objects_withEntries, h.load, ← map_normalizeEntry hsettled,
    List.map_append (f := Decision.entry lower keywordsOf)]
  rfl

theorem isRemoved_entry (decision : Decision) (messageId : String) (label : Label) :
    (decision.entry lower keywordsOf).isRemoved messageId (some label) =
      (decide (decision.draft.messageId = messageId) && decide (decision.label = label)) := by
  have hof : (decision.entry lower keywordsOf).isOf messageId =
      decide (decision.draft.messageId = messageId) := by
    unfold RawEntry.isOf Decision.entry learningEntry JsonValue.truth
    by_cases hempty : decision.draft.messageId = ""
    · simp [hempty, eq_comm]
    · simp [hempty]
  have htext : ∀ label', Label.text label' = label.text ↔ label' = label := by
    intro label'
    constructor
    · intro h
      rw [← normalizeLabel_text label', h, normalizeLabel_text]
    · exact congrArg Label.text
  unfold RawEntry.isRemoved
  rw [hof]
  simp [Decision.entry, learningEntry, htext]

theorem filter_isRemoved (log : List Decision) (messageId : String) (label : Label) :
    (log.map (Decision.entry lower keywordsOf)).filter
        (fun entry => !entry.isRemoved messageId (some label)) =
      (withoutDecisions messageId label log).map (Decision.entry lower keywordsOf) := by
  rw [List.filter_map]
  unfold withoutDecisions
  congr 2
  funext decision
  rw [Function.comp_apply, isRemoved_entry]

theorem Records.remove
    (h : Records lower keywordsOf file log) (messageId : String) (label : Label) :
    Records lower keywordsOf (removeEntriesByMessageId lower messageId (some label) file).1
      (withoutDecisions messageId label log) := by
  have hsettled : ∀ decision ∈ withoutDecisions messageId label log, decision.Settled lower := by
    intro decision hdecision
    exact h.settled decision (List.mem_of_mem_filter hdecision)
  refine ⟨?_, hsettled⟩
  rw [← filter_isRemoved]
  unfold removeEntriesByMessageId
  simp only
  split
  · next hnone =>
    -- nothing is removed and the file is not written
    rw [List.filter_eq_nil_iff, h.load] at hnone
    rw [h.objects, List.filter_eq_self.mpr]
    intro entry hentry
    simpa using hnone entry hentry
  · rw [objects_save, objects_withEntries, h.load, filter_isRemoved, map_normalizeEntry hsettled]

/-- One call keeps the file and the list of decisions together. -/
theorem Records.step (hdefault : reasonIndicatesNotSpam lower operatorSpamReason = false) (h : Records lower keywordsOf file log)
    (operation : Operation) :
    Records lower keywordsOf (operation.run lower keywordsOf file) (operation.log lower log) := by
  cases operation with
  | savePattern draft spamReason =>
    apply h.save .spam draft
    exact normalizedReason_agrees hdefault .spam _
  | saveAntipattern draft reason =>
    apply h.save .notSpam draft reason
    intro hspam
    cases hspam
  | removePatterns messageId => exact h.remove messageId .spam
  | removeAntipatterns messageId => exact h.remove messageId .notSpam

theorem records_run (hdefault : reasonIndicatesNotSpam lower operatorSpamReason = false)
    (history : List Operation) :
    Records lower keywordsOf (run lower keywordsOf history) (decisions lower history) := by
  induction history using List.reverseRecOn with
  | nil => exact ⟨rfl, fun decision h => absurd h List.not_mem_nil⟩
  | append_singleton history operation ih =>
    unfold run decisions
    rw [List.foldl_append, List.foldl_append]
    exact ih.step hdefault operation

/-- The decisions in force are some of those that were saved, in their order. -/
theorem decisions_sublist (history : List Operation) :
    ((decisions lower history).map fun decision => decision.draft.createdAt).Sublist
      (history.filterMap Operation.createdAt) := by
  induction history using List.reverseRecOn with
  | nil => exact List.Sublist.refl _
  | append_singleton history operation ih =>
    unfold decisions at ih ⊢
    rw [List.foldl_append, List.filterMap_append]
    have hremove : ∀ messageId label,
        ((withoutDecisions messageId label (history.foldl (Operation.log lower) [])).map
          fun decision => decision.draft.createdAt).Sublist
            (history.filterMap Operation.createdAt ++ []) := by
      intro messageId label
      rw [List.append_nil]
      exact (List.filter_sublist.map _).trans ih
    cases operation with
    | savePattern draft spamReason | saveAntipattern draft reason =>
      rw [List.foldl_cons, List.foldl_nil, Operation.log, List.map_append]
      exact ih.append (List.Sublist.refl _)
    | removePatterns messageId => exact hremove messageId .spam
    | removeAntipatterns messageId => exact hremove messageId .notSpam

theorem collect_eq (h : Records lower keywordsOf file log)
    (htimed : (log.map fun decision => decision.draft.createdAt).Pairwise Moment.Before) :
    collectLearnedEntries lower file = (log.map (Decision.entry lower keywordsOf)).reverse := by
  unfold collectLearnedEntries
  rw [h.load, map_normalizeEntry h.settled]
  have hlt : (log.map (Decision.entry lower keywordsOf)).Pairwise
      fun a b => a.createdAt.text < b.createdAt.text := by
    rw [List.pairwise_map] at htimed ⊢
    apply htimed.imp
    intro a b hbefore
    exact isoformat_lt hbefore
  rw [sortBy_eq_of_perm (List.reverse_perm _).symm]
  · apply List.Pairwise.insertionSort_eq
    rw [List.pairwise_reverse]
    apply hlt.imp
    intro a b hab
    exact le_of_lt hab
  · apply hlt.imp
    intro a b hab heq
    exact hab.ne (OrderDual.toDual.injective heq)

theorem Decision.Settled.learnedLabel_entry {decision : Decision} (h : decision.Settled lower) :
    learnedLabel lower (decision.entry lower keywordsOf) = decision.label := by
  unfold learnedLabel Decision.entry learningEntry
  simp only
  rw [normalizeLabel_text, shownText_text, reconcileLabelWithReason_of_agrees h.agrees]

theorem Decision.Settled.isLearnedMatch_entry {decision : Decision} (h : decision.Settled lower)
    (senderEmail subject body : String) :
    isLearnedMatch lower senderEmail subject body (decision.entry lower keywordsOf) =
      entryMatchesEmail lower senderEmail subject body (decision.entry lower keywordsOf) := by
  have hshown : shownText (decision.entry lower keywordsOf).reason = decision.reason :=
    shownText_text decision.reason
  unfold isLearnedMatch
  rw [h.learnedLabel_entry, hshown]
  by_cases hspam : decision.label = .spam
  · simp [hspam, h.agrees hspam]
  · simp [hspam]

def Decision.matchesEmail (lower : String → String)
    (keywordsOf : String → String → String → List String) (email : EmailMessage)
    (decision : Decision) : Bool :=
  entryMatchesEmail lower email.senderEmail (email.subject.getD "") (email.bodyText.getD "")
    (decision.entry lower keywordsOf)

theorem findFirstLearnedMatch_eq (h : Records lower keywordsOf file log)
    (htimed : (log.map fun decision => decision.draft.createdAt).Pairwise Moment.Before)
    (email : EmailMessage) :
    findFirstLearnedMatch lower email.senderEmail (email.subject.getD "")
        (email.bodyText.getD "") file =
      (log.reverse.find? (Decision.matchesEmail lower keywordsOf email)).map
        fun decision => (decision.label, decision.entry lower keywordsOf) := by
  unfold findFirstLearnedMatch
  rw [collect_eq h htimed, ← List.map_reverse, List.find?_map]
  have hsettled : ∀ decision ∈ log.reverse, decision.Settled lower := by
    intro decision hdecision
    exact h.settled decision (List.mem_reverse.mp hdecision)
  generalize log.reverse = newest at hsettled
  induction newest with
  | nil => rfl
  | cons decision rest ih =>
    have hhead := hsettled decision (.head _)
    have hmatch : isLearnedMatch lower email.senderEmail (email.subject.getD "")
          (email.bodyText.getD "") (decision.entry lower keywordsOf) =
        entryMatchesEmail lower email.senderEmail (email.subject.getD "")
          (email.bodyText.getD "") (decision.entry lower keywordsOf) :=
      hhead.isLearnedMatch_entry _ _ _
    rw [List.find?_cons, List.find?_cons, Function.comp_apply, hmatch]
    unfold Decision.matchesEmail
    split
    · simp [hhead.learnedLabel_entry]
    · apply ih
      intro decision hdecision
      exact hsettled decision (.tail _ hdecision)

/-! ## Normalising twice -/

/-- An entry of an older format whose reason is missing and whose `spam_reason` is a blank text. -/
def BlankLegacy (raw : RawEntry) : Prop :=
  strip (shownText raw.reason) = "" ∧
    ∃ text, raw.spamReason = .value (.text text) ∧ text ≠ "" ∧ strip text = ""

theorem normalizeEntry_reason (raw : RawEntry) :
    (normalizeEntry lower raw).reason = migratedReason raw := by
  simp only [normalizeEntry]

theorem migratedReason_of_missing (h : raw.spamReason = .missing) : migratedReason raw =
      if strip (shownText raw.reason) = "" then .value (.text (defaultReason (rawLabel raw)))
      else raw.reason := by
  unfold migratedReason
  rw [h]

theorem normalizeEntry_twice (h : strip (shownText (migratedReason raw)) ≠ "") :
    normalizeEntry lower (normalizeEntry lower raw) = normalizeEntry lower raw := by
  have hreason : migratedReason (normalizeEntry lower raw) = migratedReason raw := by
    rw [migratedReason_of_missing rfl, normalizeEntry_reason, if_neg h]
  have hlabel : rawLabel (normalizeEntry lower raw) =
      reconcileLabelWithReason lower (rawLabel raw) (shownText (migratedReason raw)) :=
    normalizeLabel_text _
  have hidem : ∀ label reason, reconcileLabelWithReason lower
      (reconcileLabelWithReason lower label reason) reason =
        reconcileLabelWithReason lower label reason := by
    intro label reason
    unfold reconcileLabelWithReason
    by_cases hflip : label = .spam ∧ reasonIndicatesNotSpam lower reason
    · rw [if_pos hflip, if_neg (fun h => nomatch h.1)]
    · rw [if_neg hflip, if_neg hflip]
  have hunfold : ∀ entry, normalizeEntry lower entry =
      { entry with
        bodySnippet := .missing
        spamReason := .missing
        reason := migratedReason entry
        label := .value (.text (reconcileLabelWithReason lower (rawLabel entry)
          (shownText (migratedReason entry))).text) } := fun _ => rfl
  rw [hunfold (normalizeEntry lower raw), hreason, hlabel, hidem]
  rfl

theorem strip_migratedReason : strip (shownText (migratedReason raw)) = "" ↔ BlankLegacy raw := by
  have hdefault : strip (shownText (.value (.text (defaultReason (rawLabel raw))))) ≠ "" := by
    rw [shownText_text]
    exact strip_defaultReason _
  unfold migratedReason BlankLegacy
  by_cases hblank : strip (shownText raw.reason) = ""
  · rw [if_pos hblank]
    cases hlegacy : raw.spamReason with
    | missing | null => simpa using hdefault
    | value legacy =>
      cases legacy with
      | text text =>
        by_cases hempty : text = ""
        · simpa [JsonValue.truth, hempty] using hdefault
        · simp [JsonValue.truth, hempty, hblank, shownText_text]
      | falsy shown => simpa [JsonValue.truth] using hdefault
      | truthy shown hshown => simpa [JsonValue.truth, shownText, JsonValue.str] using hshown
  · rw [if_neg hblank]
    simp [hblank]

/-- A blank reason is replaced by the next pass. -/
theorem normalizeEntry_twice_ne (h : BlankLegacy raw) :
    normalizeEntry lower (normalizeEntry lower raw) ≠ normalizeEntry lower raw := by
  have hblank := strip_migratedReason.mpr h
  intro heq
  have hreason : migratedReason (normalizeEntry lower raw) = migratedReason raw := by
    rw [← normalizeEntry_reason, heq, normalizeEntry_reason]
  have hnew : migratedReason (normalizeEntry lower raw) =
      .value (.text (defaultReason (rawLabel (normalizeEntry lower raw)))) := by
    rw [migratedReason_of_missing rfl, normalizeEntry_reason, if_pos hblank]
  rw [← hreason, hnew, shownText_text] at hblank
  exact strip_defaultReason _ hblank

theorem normalizeEntry_twice_iff :
    normalizeEntry lower (normalizeEntry lower raw) = normalizeEntry lower raw ↔
      ¬ BlankLegacy raw := by
  constructor
  · intro heq hblank
    exact normalizeEntry_twice_ne hblank heq
  · intro h
    apply normalizeEntry_twice
    rwa [Ne, strip_migratedReason]

theorem normalizeStore_twice_iff {store : Store} :
    normalizeStore lower (normalizeStore lower store) = normalizeStore lower store ↔
      ∀ raw ∈ store.objects, ¬ BlankLegacy raw := by
  have hmap : ((store.objects.map (normalizeEntry lower)).map (normalizeEntry lower) =
      store.objects.map (normalizeEntry lower)) ↔ ∀ raw ∈ store.objects, ¬ BlankLegacy raw := by
    rw [List.map_map, List.map_inj_left]
    apply forall₂_congr
    intro raw _
    exact normalizeEntry_twice_iff
  rw [← hmap]
  have hversion : (normalizeStore lower store).version ≠ .missing := by
    unfold normalizeStore
    split
    · nofun
    · assumption
  constructor
  · intro heq
    have hobjects := congrArg Store.objects heq
    rwa [objects_normalizeStore, objects_normalizeStore] at hobjects
  · intro heq
    have hunfold : ∀ data, normalizeStore lower data =
        { version := if data.version = .missing then .value storeVersion else data.version
          entries := .value ((data.objects.map (normalizeEntry lower)).map some) } := fun _ => rfl
    rw [hunfold (normalizeStore lower store), if_neg hversion, objects_normalizeStore, heq]
    rfl

/-- After the history the file holds the decisions in force, under the labels that were chosen, also
when it is loaded; a removal takes out those of its message and label; and the answer for an e-mail
is the last decision that matches it. -/
structure LatestDecisionWins (lower : String → String)
    (keywordsOf : String → String → String → List String) (history : List Operation) : Prop where
  stored : (run lower keywordsOf history).objects =
    (decisions lower history).map (Decision.entry lower keywordsOf)
  loaded : (loadSpamLearning lower (run lower keywordsOf history)).objects =
    (decisions lower history).map (Decision.entry lower keywordsOf)
  removal : ∀ messageId label,
    (removeEntriesByMessageId lower messageId (some label)
        (run lower keywordsOf history)).1.objects =
      (withoutDecisions messageId label (decisions lower history)).map
        (Decision.entry lower keywordsOf)
  decision : ∀ email,
    (checkLearnedSpamDecision lower email (run lower keywordsOf history)).map
        (fun found => (found.isSpam, found.entryKind, found.matchedEntry)) =
      ((decisions lower history).reverse.find? (Decision.matchesEmail lower keywordsOf email)).map
        fun decision => (decide (decision.label = .spam), decision.label,
          decision.entry lower keywordsOf)

theorem latestDecisionWins_run
    (hdefault : reasonIndicatesNotSpam lower operatorSpamReason = false)
    {history : List Operation} (htimed : Timed history) :
    LatestDecisionWins lower keywordsOf history := by
  have hrecords : Records lower keywordsOf (run lower keywordsOf history)
      (decisions lower history) := records_run hdefault history
  have htimes : ((decisions lower history).map fun decision => decision.draft.createdAt).Pairwise
      Moment.Before := List.Pairwise.sublist (decisions_sublist history) htimed
  refine ⟨hrecords.objects, hrecords.load, fun messageId label => (hrecords.remove _ _).objects, ?_⟩
  intro email
  unfold checkLearnedSpamDecision
  rw [findFirstLearnedMatch_eq hrecords htimes email]
  cases (decisions lower history).reverse.find? (Decision.matchesEmail lower keywordsOf email) with
  | none => rfl
  | some decision =>
    rw [Option.map_some, Option.map_some]
    cases hlabel : decision.label with
    | spam => simp
    | notSpam => simp

/-- The operator's latest decision wins in every history, and normalising a store is idempotent,
exactly when no entry of the store keeps a blank text as its legacy reason. -/
theorem latest_decision_and_idempotence_iff
    (keywordsOf : String → String → String → List String)
    (hdefault : lower operatorSpamReason = "отмечено офис-менеджером") (store : Store) :
    ((∀ history, Timed history → LatestDecisionWins lower keywordsOf history) ∧
        normalizeStore lower (normalizeStore lower store) = normalizeStore lower store) ↔
      ∀ raw ∈ store.objects, ¬ BlankLegacy raw := by
  have hreason : reasonIndicatesNotSpam lower operatorSpamReason = false := by
    unfold reasonIndicatesNotSpam hasMarker
    rw [hdefault]
    decide +kernel
  rw [normalizeStore_twice_iff]
  constructor
  · intro h
    exact h.2
  · intro h
    refine ⟨?_, h⟩
    intro history htimed
    exact latestDecisionWins_run hreason htimed

/-- An entry of the first format, saved with a blank reason. -/
def blankLegacyEntry : RawEntry :=
  { id := .missing
    createdAt := .value "2025-01-01T00:00:00+00:00"
    messageId := .value (.text "m")
    senderEmail := .value "spam@example.com"
    keywords := .value []
    label := .missing
    reason := .missing
    spamReason := .value (.text " ")
    bodySnippet := .missing }

theorem lowerRu_operatorSpamReason :
    Text.lowerRu operatorSpamReason = "отмечено офис-менеджером" := by
  decide +kernel

theorem latest_decision_and_idempotence_migrated :
    (∀ history, Timed history → LatestDecisionWins Text.lowerRu (fun _ _ _ => []) history) ∧
      normalizeStore Text.lowerRu (normalizeStore Text.lowerRu
          { version := .missing
            entries := .value [some { blankLegacyEntry with spamReason := .value (.text "реклама") }] }) =
        normalizeStore Text.lowerRu
          { version := .missing
            entries := .value [some { blankLegacyEntry with spamReason := .value (.text "реклама") }] } := by
  apply (latest_decision_and_idempotence_iff (fun _ _ _ => []) lowerRu_operatorSpamReason _).mpr
  intro raw hraw
  rw [List.mem_singleton.mp hraw]
  rintro ⟨-, text, htext, -, hblank⟩
  cases htext
  exact absurd hblank (by decide +kernel)

theorem latest_decision_and_idempotence_blank :
    ¬ ((∀ history, Timed history → LatestDecisionWins Text.lowerRu (fun _ _ _ => []) history) ∧
      normalizeStore Text.lowerRu (normalizeStore Text.lowerRu
          { version := .missing, entries := .value [some blankLegacyEntry] }) =
        normalizeStore Text.lowerRu
          { version := .missing, entries := .value [some blankLegacyEntry] }) := by
  rintro ⟨-, heq⟩
  have hblank : BlankLegacy blankLegacyEntry :=
    ⟨by decide +kernel, " ", rfl, by decide, by decide +kernel⟩
  exact normalizeStore_twice_iff.mp heq blankLegacyEntry (List.mem_singleton.mpr rfl) hblank

end AgentBack.Mail.SpamLearning
