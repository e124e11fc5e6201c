import AgentBack.Meetings.SeriesLlm

/-!
# The cache of series answers

`resolve_memo_recurrence_async` asks a model for the series of a memo and keeps its answer under the
memo's key. The law is that nobody sees the cache: every draft is the one that no cache at all would
give, an answer is reused only for the prompt it was given to, and a failure of Redis changes
nothing.

The code keeps the law at a call that Redis serves, whose cached answer was given to the same prompt
and can be drafted (`run_transparent`). The fingerprint does not see to the prompt, since it covers
the texts of the memo and no date, time or field of the document; the handlers of a failed read or
write raise; and a cached answer is drafted outside the fallback (`series_cache_shows`).
-/

namespace AgentBack.Meetings

open Py (Value)

/-- A call of `resolve_memo_recurrence_async`, with what Redis does during it. -/
structure MemoCall where
  header : Value
  document : Value
  refKey : Option String
  readFails : Bool
  writeFails : Bool

/-- What happens to the cache: a call, or the end of a lifetime. -/
inductive CacheEvent where
  | resolve (call : MemoCall)
  | expire (key : String)

namespace MemoCall

variable (llm : SeriesLlm) (call : MemoCall)

def key : String := llm.seriesLlmCacheKey (llm.normalizedRef call.header call.refKey)

def messages : List ChatMessage := llm.buildMemoSeriesMessages call.header call.document

def answer : Except Fault MemoSeriesLLMResponse := llm.callMemoSeriesLlm call.header call.document

/-- The call goes on after the schedule of the memo and the hints in its texts. -/
def hinted : Bool :=
  match llm.resolveFromSchedule call.header with
  | .ok none => llm.hasRecurrenceHints (llm.collectRecurrenceTexts call.header)
  | _ => false

def Caches : Prop := call.hinted llm = true ∧ llm.normalizedRef call.header call.refKey ≠ ""

instance : Decidable (call.Caches llm) := inferInstanceAs (Decidable (_ ∧ _))

/-- The cached answer under the call's key, if it has the call's fingerprint. -/
def found (cache : Dict String CachedAnswer) : Option MemoSeriesLLMResponse :=
  match cache.get? (call.key llm) with
  | none => none
  | some answer =>
    if answer.fingerprint = llm.memoSeriesFingerprint call.header then some answer.response else none

/-- The cached answer that the call takes for the model's. -/
def reused (cache : Dict String CachedAnswer) : Option MemoSeriesLLMResponse :=
  if call.Caches llm ∧ call.readFails = false then call.found llm cache else none

/-- The model's answer that the call caches. -/
def stored (cache : Dict String CachedAnswer) : Option MemoSeriesLLMResponse :=
  if call.Caches llm ∧ call.readFails = false ∧ (call.found llm cache).isNone ∧ llm.enabled = true ∧
      call.writeFails = false then
    (call.answer llm).toOption
  else none

/-- `resolve_memo_recurrence_async`, on a state of the cache. -/
def resolve (cache : Dict String CachedAnswer) :
    Except Fault MemoRecurrenceDraft × Dict String CachedAnswer :=
  llm.resolveMemoRecurrenceAsync cache call.header call.document call.refKey call.readFails
    call.writeFails

/-- The draft of the model's answer, or its fallback. -/
def freshDraft : Except Fault MemoRecurrenceDraft :=
  match call.answer llm with
  | .error fault => llm.fallbackDraft call.header fault
  | .ok response => llm.orFallback call.header (llm.draftFromLlmResponse response call.header)

def uncached : Except Fault MemoRecurrenceDraft :=
  match llm.resolveFromSchedule call.header with
  | .error fault => .error fault
  | .ok (some scheduleDraft) => .ok scheduleDraft
  | .ok none =>
    if llm.hasRecurrenceHints (llm.collectRecurrenceTexts call.header) = false then .ok SeriesLlm.singleDraft
    else if llm.enabled = false then llm.resolveMemoRecurrenceRules call.header
    else call.freshDraft llm

end MemoCall

/-- The cache, with the call behind each of its answers. -/
abbrev SeriesMemo := Memo String MemoCall CachedAnswer

/-- The cache after an event, as the code leaves it. -/
def SeriesMemo.after (llm : SeriesLlm) (memo : SeriesMemo) : CacheEvent → SeriesMemo
  | .expire key => memo.expire key
  | .resolve call =>
    { cache := (call.resolve llm memo.cache).2
      origins :=
        if (call.stored llm memo.cache).isSome then memo.origins.set (call.key llm) call
        else memo.origins }

def SeriesMemo.run (llm : SeriesLlm) (events : List CacheEvent) : SeriesMemo :=
  events.foldl (SeriesMemo.after llm) Memo.empty

/-- **A call does not see the cache.** -/
structure Transparent (llm : SeriesLlm) (memo : SeriesMemo) (call : MemoCall) : Prop where
  same_draft : (call.resolve llm memo.cache).1 = call.uncached llm
  /-- A reused answer was given to the prompt that the call would send. -/
  same_prompt : ∀ response, call.reused llm memo.cache = some response →
    ∃ origin, memo.origins.get? (call.key llm) = some origin ∧
      origin.answer llm = .ok response ∧ origin.messages llm = call.messages llm
  not_raised : call.readFails = true ∨ call.writeFails = true → ∀ fault,
    (call.resolve llm memo.cache).1 = .error fault → call.uncached llm = .error fault
  answer_kept : call.hinted llm = true → llm.enabled = true → ∀ response draft,
    call.answer llm = .ok response → llm.draftFromLlmResponse response call.header = .ok draft →
      (call.resolve llm memo.cache).1 = .ok draft

/-- Redis serves the call, the answer in the cache was given to its prompt, and it can be
drafted. -/
structure Served (llm : SeriesLlm) (memo : SeriesMemo) (call : MemoCall) : Prop where
  read : call.Caches llm → call.readFails = false
  write : call.Caches llm → call.found llm memo.cache = none → llm.enabled = true →
    call.writeFails = false
  same_prompt : call.Caches llm → ∀ origin, memo.origins.get? (call.key llm) = some origin →
    llm.memoSeriesFingerprint origin.header = llm.memoSeriesFingerprint call.header →
      llm.buildLlmUserPrompt origin.header origin.document =
        llm.buildLlmUserPrompt call.header call.document
  drafted : call.Caches llm → ∀ response, call.found llm memo.cache = some response →
    ∃ draft, llm.draftFromLlmResponse response call.header = .ok draft

/-! ## One call -/

namespace MemoCall

variable {llm : SeriesLlm} {call : MemoCall} {cache : Dict String CachedAnswer}

theorem resolveFromSchedule_of_hinted (h : call.hinted llm = true) :
    llm.resolveFromSchedule call.header = .ok none ∧
      llm.hasRecurrenceHints (llm.collectRecurrenceTexts call.header) = true := by
  unfold hinted at h
  split at h
  · rename_i hschedule
    exact ⟨hschedule, h⟩
  · cases h

theorem resolve_of_not_hinted (h : call.hinted llm = false) :
    call.resolve llm cache = (call.uncached llm, cache) := by
  unfold hinted at h
  unfold resolve uncached SeriesLlm.resolveMemoRecurrenceAsync
  split at h
  · rename_i hschedule
    simp only [hschedule, h, if_true]
  · rename_i hschedule
    cases hs : llm.resolveFromSchedule call.header with
    | error fault => rfl
    | ok draft =>
      cases draft with
      | none => exact absurd hs hschedule
      | some draft => rfl

theorem resolve_of_hinted (h : call.hinted llm = true) :
    call.resolve llm cache = llm.resolveHinted cache call.header call.document
      (llm.normalizedRef call.header call.refKey) call.readFails call.writeFails := by
  obtain ⟨hschedule, hhints⟩ := resolveFromSchedule_of_hinted h
  unfold resolve SeriesLlm.resolveMemoRecurrenceAsync
  simp only [hschedule, hhints]
  rfl

theorem uncached_of_hinted (h : call.hinted llm = true) :
    call.uncached llm =
      if llm.enabled = false then llm.resolveMemoRecurrenceRules call.header
      else call.freshDraft llm := by
  obtain ⟨hschedule, hhints⟩ := resolveFromSchedule_of_hinted h
  unfold uncached
  simp only [hschedule, hhints]
  rfl

/-- Without a key the call neither reads nor writes. -/
theorem resolve_of_blank (h : call.hinted llm = true)
    (hblank : llm.normalizedRef call.header call.refKey = "") :
    call.resolve llm cache = (call.uncached llm, cache) := by
  rw [resolve_of_hinted h, uncached_of_hinted h, hblank]
  unfold SeriesLlm.resolveHinted SeriesLlm.askModel freshDraft answer
  simp only [if_true]
  by_cases henabled : llm.enabled = false
  · rw [if_pos henabled, if_pos henabled]
  · rw [if_neg henabled, if_neg henabled]
    cases llm.callMemoSeriesLlm call.header call.document with
    | error fault => rfl
    | ok response => rfl

theorem resolve_of_failed_read (h : call.Caches llm) (hread : call.readFails = true) :
    call.resolve llm cache = (.error SeriesLlm.loggerWarning, cache) := by
  rw [resolve_of_hinted h.1]
  unfold SeriesLlm.resolveHinted SeriesLlm.readLlmCache
  simp only [if_neg h.2, hread, if_true]

/-- A read that Redis serves gives what is found. -/
theorem readLlmCache_eq (call : MemoCall) :
    llm.readLlmCache cache (llm.normalizedRef call.header call.refKey)
      (llm.memoSeriesFingerprint call.header) false = .ok (call.found llm cache) := by
  unfold SeriesLlm.readLlmCache found key
  rw [if_neg (by decide)]
  cases cache.get? (llm.seriesLlmCacheKey (llm.normalizedRef call.header call.refKey)) with
  | none => rfl
  | some answer => rfl

section

variable (h : call.Caches llm)
include h

theorem resolve_of_found (hread : call.readFails = false) {response : MemoSeriesLLMResponse}
    (hfound : call.found llm cache = some response) :
    call.resolve llm cache = (llm.draftFromLlmResponse response call.header, cache) := by
  rw [resolve_of_hinted h.1]
  unfold SeriesLlm.resolveHinted
  simp only [if_neg h.2, hread, readLlmCache_eq, hfound]

theorem resolve_of_missed (hread : call.readFails = false) (hfound : call.found llm cache = none) :
    call.resolve llm cache =
      if llm.enabled = false then (llm.resolveMemoRecurrenceRules call.header, cache)
      else llm.askModel cache call.header call.document (llm.normalizedRef call.header call.refKey)
        call.writeFails := by
  rw [resolve_of_hinted h.1]
  unfold SeriesLlm.resolveHinted
  simp only [if_neg h.2, hread, readLlmCache_eq, hfound]

/-- A write that Redis takes leaves the draft alone. -/
theorem askModel_of_written :
    llm.askModel cache call.header call.document (llm.normalizedRef call.header call.refKey) false =
      (call.freshDraft llm,
        match call.answer llm with
        | .error _ => cache
        | .ok response =>
          cache.set (call.key llm) ⟨llm.memoSeriesFingerprint call.header, response⟩) := by
  unfold SeriesLlm.askModel freshDraft answer SeriesLlm.writeLlmCache key
  cases llm.callMemoSeriesLlm call.header call.document with
  | error fault => rfl
  | ok response => simp only [if_neg h.2]; rfl

theorem askModel_of_failed_write :
    llm.askModel cache call.header call.document (llm.normalizedRef call.header call.refKey) true =
      (match call.answer llm with
        | .error fault => llm.fallbackDraft call.header fault
        | .ok _ => llm.fallbackDraft call.header SeriesLlm.loggerWarning, cache) := by
  unfold SeriesLlm.askModel answer SeriesLlm.writeLlmCache
  cases llm.callMemoSeriesLlm call.header call.document with
  | error fault => rfl
  | ok response => simp only [if_neg h.2, if_true]

end

/-- The cache that a call leaves: the old one, with the answer that the call stores. -/
theorem resolve_cache (call : MemoCall) :
    (call.resolve llm cache).2 =
      match call.stored llm cache with
      | none => cache
      | some response =>
        cache.set (call.key llm) ⟨llm.memoSeriesFingerprint call.header, response⟩ := by
  unfold stored
  by_cases h : call.Caches llm
  · cases hread : call.readFails with
    | true =>
      rw [resolve_of_failed_read h hread, if_neg (by simp)]
    | false =>
      cases hfound : call.found llm cache with
      | some response => rw [resolve_of_found h hread hfound, if_neg (by simp)]
      | none =>
        rw [resolve_of_missed h hread hfound]
        by_cases henabled : llm.enabled = false
        · rw [if_pos henabled, if_neg (by simp [henabled])]
        · rw [if_neg henabled]
          cases hwrite : call.writeFails with
          | true => rw [askModel_of_failed_write h, if_neg (by simp)]
          | false =>
            rw [askModel_of_written h, if_pos ⟨h, rfl, rfl, by simpa using henabled, rfl⟩]
            cases call.answer llm with
            | error fault => rfl
            | ok response => rfl
  · rw [if_neg fun hstored => h hstored.1]
    cases hhinted : call.hinted llm with
    | false => rw [resolve_of_not_hinted hhinted]
    | true =>
      have hblank : llm.normalizedRef call.header call.refKey = "" := by
        by_contra hne
        exact h ⟨hhinted, hne⟩
      rw [resolve_of_blank hhinted hblank]

theorem answer_of_stored {response : MemoSeriesLLMResponse}
    (h : call.stored llm cache = some response) :
    llm.enabled = true ∧ call.answer llm = .ok response := by
  unfold stored at h
  split at h
  · rename_i hstores
    refine ⟨hstores.2.2.2.1, ?_⟩
    cases hanswer : call.answer llm with
    | error fault => rw [hanswer] at h; cases h
    | ok answer => rw [hanswer] at h; cases h; rfl
  · cases h

/-- Equal prompts get equal answers. -/
theorem messages_congr {origin : MemoCall}
    (h : llm.buildLlmUserPrompt origin.header origin.document =
      llm.buildLlmUserPrompt call.header call.document) :
    origin.messages llm = call.messages llm := by
  unfold messages SeriesLlm.buildMemoSeriesMessages
  rw [h]

theorem answer_congr {origin : MemoCall} (h : origin.messages llm = call.messages llm) :
    origin.answer llm = call.answer llm := by
  unfold answer SeriesLlm.callMemoSeriesLlm
  exact congrArg llm.answerTo h

end MemoCall

/-! ## Runs -/

/-- The answer is the model's to the call, under the fingerprint of the call's texts. -/
def Answered (llm : SeriesLlm) (call : MemoCall) (answer : CachedAnswer) : Prop :=
  llm.enabled = true ∧ answer.fingerprint = llm.memoSeriesFingerprint call.header ∧
    call.answer llm = .ok answer.response

variable {llm : SeriesLlm}

/-- A call stores one answer under its key, or nothing. -/
theorem SeriesMemo.after_resolve (memo : SeriesMemo) (call : MemoCall) :
    memo.after llm (.resolve call) =
      match call.stored llm memo.cache with
      | none => memo
      | some response =>
        memo.store (call.key llm) call ⟨llm.memoSeriesFingerprint call.header, response⟩ := by
  unfold SeriesMemo.after
  simp only [MemoCall.resolve_cache]
  cases call.stored llm memo.cache with
  | none => rfl
  | some response => rfl

variable {memo : SeriesMemo} {call : MemoCall}

theorem Answered.after (honest : memo.Honest (Answered llm))
    (event : CacheEvent) : (memo.after llm event).Honest (Answered llm) := by
  cases event with
  | expire key => exact honest.expire key
  | resolve call =>
    rw [SeriesMemo.after_resolve]
    cases hstored : call.stored llm memo.cache with
    | none => exact honest
    | some response =>
      obtain ⟨henabled, hanswer⟩ := MemoCall.answer_of_stored hstored
      exact honest.store ⟨henabled, rfl, hanswer⟩

theorem Answered.run (events : List CacheEvent) :
    (SeriesMemo.run llm events).Honest (Answered llm) := by
  unfold SeriesMemo.run
  induction events using List.reverseRecOn with
  | nil => exact Memo.honest_empty
  | append_singleton events event ih =>
    rw [List.foldl_append]
    exact Answered.after ih event

section

variable (honest : memo.Honest (Answered llm))
include honest

/-- What a call finds is the model's answer to the call behind it. -/
theorem Answered.of_found {response : MemoSeriesLLMResponse}
    (h : call.found llm memo.cache = some response) :
    ∃ origin, memo.origins.get? (call.key llm) = some origin ∧ llm.enabled = true ∧
      llm.memoSeriesFingerprint origin.header = llm.memoSeriesFingerprint call.header ∧
      origin.answer llm = .ok response := by
  unfold MemoCall.found at h
  cases hcached : memo.cache.get? (call.key llm) with
  | none => rw [hcached] at h; cases h
  | some answer =>
    rw [hcached] at h
    simp only at h
    split at h
    · rename_i hfingerprint
      cases h
      obtain ⟨origin, horigin, henabled, hmade, hanswer⟩ := honest _ _ hcached
      exact ⟨origin, horigin, henabled, hmade.symm.trans hfingerprint, hanswer⟩
    · cases h

/-- An answer that is reused was given to the call's own prompt. -/
theorem Served.reused (served : Served llm memo call) (hcaches : call.Caches llm)
    {response : MemoSeriesLLMResponse} (hfound : call.found llm memo.cache = some response) :
    ∃ origin, memo.origins.get? (call.key llm) = some origin ∧
      origin.answer llm = .ok response ∧ origin.messages llm = call.messages llm := by
  obtain ⟨origin, horigin, -, hfingerprint, hanswer⟩ := Answered.of_found honest hfound
  have hprompt := served.same_prompt hcaches origin horigin hfingerprint
  exact ⟨origin, horigin, hanswer, MemoCall.messages_congr hprompt⟩

/-- The draft of a call that Redis serves is the one without a cache. -/
theorem Served.same_draft (served : Served llm memo call) :
    (call.resolve llm memo.cache).1 = call.uncached llm := by
  cases hhinted : call.hinted llm with
  | false => rw [MemoCall.resolve_of_not_hinted hhinted]
  | true =>
    by_cases hblank : llm.normalizedRef call.header call.refKey = ""
    · rw [MemoCall.resolve_of_blank hhinted hblank]
    · have hcaches : call.Caches llm := ⟨hhinted, hblank⟩
      have hread := served.read hcaches
      rw [MemoCall.uncached_of_hinted hhinted]
      cases hfound : call.found llm memo.cache with
      | some response =>
        obtain ⟨origin, -, hanswer, hmessages⟩ := served.reused honest hcaches hfound
        obtain ⟨draft, hdraft⟩ := served.drafted hcaches response hfound
        rw [MemoCall.answer_congr hmessages] at hanswer
        obtain ⟨-, -, henabled, -⟩ := Answered.of_found honest hfound
        rw [MemoCall.resolve_of_found hcaches hread hfound, if_neg (by simp [henabled])]
        unfold MemoCall.freshDraft
        simp only [hanswer, hdraft, SeriesLlm.orFallback]
      | none =>
        rw [MemoCall.resolve_of_missed hcaches hread hfound]
        by_cases henabled : llm.enabled = false
        · rw [if_pos henabled, if_pos henabled]
        · rw [if_neg henabled, if_neg henabled,
            served.write hcaches hfound (by simpa using henabled),
            MemoCall.askModel_of_written hcaches]

end

theorem MemoCall.uncached_of_answer (hhinted : call.hinted llm = true)
    (henabled : llm.enabled = true) {response : MemoSeriesLLMResponse}
    {draft : MemoRecurrenceDraft} (hanswer : call.answer llm = .ok response)
    (hdraft : llm.draftFromLlmResponse response call.header = .ok draft) :
    call.uncached llm = .ok draft := by
  rw [uncached_of_hinted hhinted, if_neg (by simp [henabled])]
  unfold freshDraft
  simp only [hanswer, hdraft, SeriesLlm.orFallback]

/-- **After every run, a call does not see the cache**, if Redis serves it, the cached answer was
given to its prompt, and that answer can be drafted. -/
theorem run_transparent (llm : SeriesLlm) (events : List CacheEvent) (call : MemoCall)
    (served : Served llm (SeriesMemo.run llm events) call) :
    Transparent llm (SeriesMemo.run llm events) call := by
  have honest : (SeriesMemo.run llm events).Honest (Answered llm) := Answered.run events
  have same := served.same_draft honest
  constructor
  · exact same
  · intro response hreused
    unfold MemoCall.reused at hreused
    split at hreused
    · rename_i hreads
      exact served.reused honest hreads.1 hreused
    · cases hreused
  · intro _ fault hfault
    rw [← same, hfault]
  · intro hhinted henabled response draft hanswer hdraft
    rw [same, MemoCall.uncached_of_answer hhinted henabled hanswer hdraft]

/-! ## Two memos -/

/-- A model that takes a memo for one meeting, with what the other modules make of the texts
below. -/
def singleLlm : SeriesLlm where
  lower := String.toLower
  fromIsoformat _ := none
  intOf _ := none
  digest _ := "48841681485bde88"
  looksLikeGuid _ := false
  parseOdataDate
    | .str "2026-03-02T00:00:00" => some 739677
    | .str "2026-03-09T00:00:00" => some 739684
    | _ => none
  hasRecurrenceHints texts := decide (texts = ["повтор"])
  timeFromHeader _ := (none, none)
  resolveSourceQuote _ combined := some combined
  resolveFromSchedule _ := .ok none
  resolveMemoRecurrenceRules _ := .ok
    { isSeries := true
      sourceQuote := some "повтор"
      ambiguities := ["Не удалось определить периодичность серии"]
      planningOptions := [.single] }
  finalizeRecurrenceDraft recurrence _ _ := .ok { recurrence := some recurrence }
  systemPrompt := ""
  disableThinking := true
  enabled := true
  chat _ := .ok "\x7b\"is_series\": false\x7d"
  parseSeriesLlmContent _ := .ok {}

variable (date : String)

variable (readFails writeFails : Bool)

/-- A memo on one more meeting, wanted for a date. -/
def repeated : MemoCall where
  header := .dict [("ТекстСлужебнойЗаписки", .str "повтор"),
    ("ЖелаемаяДатаПроведенияСовещания", .str date)]
  document := .null
  refKey := some "5f1c"
  readFails := readFails
  writeFails := writeFails

private theorem normalizedRef_repeated :
    singleLlm.normalizedRef (repeated date readFails writeFails).header (some "5f1c") = "5f1c" := by
  unfold SeriesLlm.normalizedRef SeriesLlm.orText
  rw [if_neg (by decide)]
  decide +kernel

private theorem key_repeated :
    (repeated date readFails writeFails).key singleLlm = singleLlm.seriesLlmCacheKey "5f1c" :=
  congrArg singleLlm.seriesLlmCacheKey (normalizedRef_repeated date readFails writeFails)

private theorem texts_repeated :
    singleLlm.collectRecurrenceTexts (repeated date readFails writeFails).header =
      ["повтор"] := by
  have hclean : singleLlm.cleanText (.str "повтор") = some "повтор" := by
    decide +kernel
  have htext : (repeated date readFails writeFails).header.get "ТекстСлужебнойЗаписки" =
      .str "повтор" := rfl
  have hsubject : (repeated date readFails writeFails).header.get "ТемаСовещания" = .null := rfl
  have hgoal : (repeated date readFails writeFails).header.get "ЦельПланаСовещания" = .null := rfl
  have hnote : (repeated date readFails writeFails).header.get "Комментарий" = .null := rfl
  unfold SeriesLlm.collectRecurrenceTexts
  simp only [List.filterMap_cons, List.filterMap_nil, htext, hsubject, hgoal, hnote, hclean]
  rfl

private theorem hinted_repeated :
    (repeated date readFails writeFails).hinted singleLlm = true := by
  have htexts : singleLlm.hasRecurrenceHints
      (singleLlm.collectRecurrenceTexts (repeated date readFails writeFails).header) = true := by
    rw [texts_repeated]
    rfl
  exact htexts

private theorem caches_repeated :
    (repeated date readFails writeFails).Caches singleLlm := by
  refine ⟨hinted_repeated date readFails writeFails, fun hblank => ?_⟩
  rw [show (repeated date readFails writeFails).refKey = some "5f1c" from rfl,
    normalizedRef_repeated] at hblank
  exact absurd hblank (by decide)

private theorem stored_repeated :
    (repeated "2026-03-02T00:00:00" false false).stored singleLlm ∅ = some {} := by
  have hcaches := caches_repeated "2026-03-02T00:00:00" false false
  unfold MemoCall.stored
  rw [if_pos ⟨hcaches, rfl, rfl, rfl, rfl⟩]
  rfl

/-- The state after the memo was wanted for the first date. -/
private theorem run_repeated :
    SeriesMemo.run singleLlm [.resolve (repeated "2026-03-02T00:00:00" false false)] =
      Memo.empty.store (singleLlm.seriesLlmCacheKey "5f1c")
        (repeated "2026-03-02T00:00:00" false false) ⟨"48841681485bde88", {}⟩ := by
  unfold SeriesMemo.run
  rw [List.foldl_cons, SeriesMemo.after_resolve, key_repeated]
  unfold Memo.empty
  simp only [stored_repeated]
  rfl

/-- In that state the memo finds its answer under every date. -/
private theorem found_repeated :
    (repeated date false false).found singleLlm
      (Memo.empty.store (singleLlm.seriesLlmCacheKey "5f1c")
        (repeated "2026-03-02T00:00:00" false false) ⟨"48841681485bde88", {}⟩).cache = some {} := by
  unfold MemoCall.found
  rw [key_repeated]
  unfold Memo.store
  rw [Dict.get?_set_self]
  rfl

/-- The memo comes back unchanged and finds its answer. -/
theorem run_transparent_again :
    Transparent singleLlm
      (SeriesMemo.run singleLlm [.resolve (repeated "2026-03-02T00:00:00" false false)])
      (repeated "2026-03-02T00:00:00" false false) := by
  apply run_transparent
  rw [run_repeated]
  constructor
  · intro _
    rfl
  · intro _ _ _
    rfl
  · intro _ origin horigin _
    rw [key_repeated] at horigin
    unfold Memo.store at horigin
    rw [Dict.get?_set_self] at horigin
    cases horigin
    rfl
  · intro _ response hfound
    rw [found_repeated] at hfound
    cases hfound
    exact ⟨_, rfl⟩

/-- **The answer to one date is reused for another, a failed read raises, and a failed write
discards the answer.** -/
theorem series_cache_shows :
    ¬ Transparent singleLlm
      (SeriesMemo.run singleLlm [.resolve (repeated "2026-03-02T00:00:00" false false)])
      (repeated "2026-03-09T00:00:00" false false) ∧
    ¬ Transparent singleLlm (SeriesMemo.run singleLlm [])
      (repeated "2026-03-02T00:00:00" true false) ∧
    ¬ Transparent singleLlm (SeriesMemo.run singleLlm [])
      (repeated "2026-03-02T00:00:00" false true) := by
  refine ⟨fun seen => ?_, fun seen => ?_, fun seen => ?_⟩
  · rw [run_repeated] at seen
    have hcaches := caches_repeated "2026-03-09T00:00:00" false false
    obtain ⟨origin, horigin, -, hmessages⟩ := seen.same_prompt {} (by
      unfold MemoCall.reused
      rw [if_pos ⟨hcaches, rfl⟩, found_repeated])
    rw [key_repeated] at horigin
    unfold Memo.store at horigin
    rw [Dict.get?_set_self] at horigin
    cases horigin
    exact absurd hmessages (by decide +kernel)
  · have hcaches := caches_repeated "2026-03-02T00:00:00" true false
    have hraised : ((repeated "2026-03-02T00:00:00" true false).resolve singleLlm ∅).1 =
        .error SeriesLlm.loggerWarning :=
      congrArg Prod.fst (MemoCall.resolve_of_failed_read hcaches rfl)
    have hsame := seen.same_draft
    rw [MemoCall.uncached_of_hinted hcaches.1] at hsame
    cases hraised.symm.trans hsame
  · have hcaches := caches_repeated "2026-03-02T00:00:00" false true
    have hmissed : (repeated "2026-03-02T00:00:00" false true).resolve singleLlm ∅ = _ :=
      MemoCall.resolve_of_missed hcaches rfl rfl
    rw [if_neg (by decide)] at hmissed
    have hfallback := congrArg Prod.fst (hmissed.trans (MemoCall.askModel_of_failed_write hcaches))
    have hsame := seen.same_draft
    rw [MemoCall.uncached_of_hinted hcaches.1] at hsame
    -- the fallback of the rules stands where the model's draft would
    have hseries := congrArg (fun draft => draft.toOption.map MemoRecurrenceDraft.isSeries)
      (hfallback.symm.trans hsame)
    exact absurd hseries (by decide)

end AgentBack.Meetings
