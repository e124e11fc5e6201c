import AgentBack.Laws.Meetings.SeriesCard

/-!
# A synchronisation of a series that is run again

A card keeps its calendar id when the occurrence has none, but is compared with the id of the
occurrence. So a card with an id is written by every synchronisation from the rule. `resync_law` says
when one that is run again is quiet, and when an unchanged slot is not rescheduled.
-/

namespace AgentBack.Meetings

/-! ## The law -/

/-- **A synchronisation that is run again at once does nothing**. -/
def QuietAgain (seriesId : String) (sync : Sync) (registry : List RegistryEntry) : Prop :=
  ∀ answer registry' answer' registry'',
    syncSeriesCard seriesId sync registry = .ok (answer, registry') →
    syncSeriesCard seriesId sync registry' = .ok (answer', registry'') →
      answer'.action ∈ [SyncAction.skipped, .noOccurrences] ∧ answer'.action.event = none ∧
        answer'.action.recreatesDraft = false ∧ registry'' = registry'

/-- The card is on the slot of the occurrence of its date. -/
def Unchanged (sync : Sync) (card : RegistryEntry) (o : SeriesOccurrence) : Prop :=
  ∃ meeting occurrences source, sync.resolve = .ok (.inr (meeting, occurrences, source)) ∧
    findOccurrenceOnDate occurrences o.occurrenceDate = some o ∧
    card.seriesOccurrenceDate = some o.occurrenceDate ∧ card.Shows o

/-- **An unchanged slot is not rescheduled**, whatever the source of the occurrences. -/
def QuietSlot (seriesId : String) (sync : Sync) (registry : List RegistryEntry) : Prop :=
  ∀ card o answer registry', cardOf seriesId registry = some card → Unchanged sync card o →
    syncSeriesCard seriesId sync registry = .ok (answer, registry') →
      answer.action.event ≠ some .rescheduled

/-- The occurrence that the card is put on has ended and is the last, or the first of its date is the
same, with the calendar id that the card keeps. -/
def StaysOn (meeting : Series) (occurrences : List SeriesOccurrence) (now : Moment)
    (before : Option RegistryEntry) (o : SeriesOccurrence) : Prop :=
  if o.slotEnd < now then findNextAfter occurrences o.occurrenceDate = none
  else ∀ o', findOccurrenceOnDate occurrences o.occurrenceDate = some o' →
    o'.slotStart = o.slotStart ∧ o'.slotEnd = o.slotEnd ∧ o'.outlookItemId = heldId before o ∧
      (o'.subject = "" ∨ o'.subject = subjectOf meeting o)

def Settles (seriesId : String) (sync : Sync) (registry : List RegistryEntry) : Prop :=
  ∀ meeting occurrences source o, sync.resolve = .ok (.inr (meeting, occurrences, source)) →
    targetOf occurrences sync.now (cardOf seriesId registry) = some o →
      StaysOn meeting occurrences sync.now (cardOf seriesId registry) o

/-- A live card whose slot has not ended has the calendar id and the subject of its occurrence. -/
def Agrees (seriesId : String) (sync : Sync) (registry : List RegistryEntry) : Prop :=
  ∀ card o, cardOf seriesId registry = some card → Unchanged sync card o →
    card.stage ≠ .cancelled → sync.now ≤ o.slotEnd →
      o.outlookItemId = card.outlookItemId ∧ (o.subject = "" ∨ some o.subject = card.subject)

/-! ## A second run -/

section Again

variable {seriesId : String} {meeting : Series} {occurrences : List SeriesOccurrence}
  {source : OccurrenceSource} {now : Moment} {before : Option RegistryEntry} {card : RegistryEntry}
  {o o' : SeriesOccurrence}

theorem entryNeedsSlotUpdate_eq_false_iff : entryNeedsSlotUpdate card o = false ↔
    card.seriesOccurrenceDate = some o.occurrenceDate ∧ card.Shows o ∧
      o.outlookItemId = card.outlookItemId ∧ (o.subject = "" ∨ some o.subject = card.subject) := by
  simp only [entryNeedsSlotUpdate, RegistryEntry.Shows, Bool.or_eq_false_iff, decide_eq_false_iff_not,
    not_not]
  grind

/-- A card on a slot that has not ended is on the occurrence of its date. -/
theorem targetOf_onDate (hlive : card.stage ≠ .cancelled) (hend : card.slotEnd = some o.slotEnd)
    (hdate : card.seriesOccurrenceDate = some o.occurrenceDate) (hnow : now ≤ o.slotEnd)
    (hfind : findOccurrenceOnDate occurrences o.occurrenceDate = some o') :
    entryIsPast card now = false ∧ targetOf occurrences now (some card) = some o' := by
  have hpast : entryIsPast card now = false := by
    simp only [entryIsPast, hend, decide_eq_false_iff_not, not_lt, hnow]
  refine ⟨hpast, ?_⟩
  simp only [targetOf, if_neg hlive, hpast, Bool.false_eq_true, if_false, hdate, Option.bind_some,
    hfind, Option.some_or]

theorem left_iff : (syncCard seriesId meeting occurrences source now before).1.action ∉
    [SyncAction.created, .rolled, .updated] ↔ ¬ Moves occurrences now before := by
  rcases syncCard_cases seriesId meeting source now before with ⟨hleft, hidle, -⟩ | ⟨haction, hmoves, -⟩
  · exact iff_of_true hleft hidle
  · exact iff_of_false (not_not.mpr haction) (not_not.mpr hmoves)

theorem left_after_iff (hlisted : Listed occurrences)
    (h : Wrote seriesId meeting occurrences now before card o) :
    (syncCard seriesId meeting occurrences source now (some card)).1.action ∉
        [SyncAction.created, .rolled, .updated] ↔ StaysOn meeting occurrences now before o := by
  obtain ⟨⟨hstart, hend⟩, hdate, -, hlive⟩ := h.written
  rw [left_iff, StaysOn]
  split
  · next hended =>
    have hpast : entryIsPast card now = true := by
      simp only [entryIsPast, hend, hended, decide_true]
    have htarget : targetOf occurrences now (some card) =
        findNextAfter occurrences o.occurrenceDate := by
      simp only [targetOf, if_neg hlive, hpast, if_true, hdate]
    simp only [Moves, htarget, Option.some.injEq, forall_eq', hpast, true_or, and_true, not_exists,
      Option.eq_none_iff_forall_ne_some, ne_eq]
  · next hnow =>
    have hmem : o ∈ occurrences := by
      cases target_of_targetOf now hlisted h.target with
      | next h | after _ _ _ _ _ _ h | onDate _ _ _ _ _ _ h => exact List.mem_of_find?_eq_some h
    obtain ⟨o', hfind⟩ : ∃ o', findOccurrenceOnDate occurrences o.occurrenceDate = some o' :=
      Option.isSome_iff_exists.mp (List.find?_isSome.mpr ⟨o, hmem, by simp⟩)
    obtain ⟨hpast, htarget⟩ := targetOf_onDate hlive hend hdate (not_lt.mp hnow) hfind
    have hsame : o'.occurrenceDate = o.occurrenceDate := by
      simpa [findOccurrenceOnDate] using List.find?_some hfind
    simp only [Moves, htarget, hfind, Option.some.injEq, exists_eq_left', forall_eq', hpast,
      Bool.false_eq_true, false_or, Bool.not_eq_true, entryNeedsSlotUpdate_eq_false_iff,
      RegistryEntry.Shows, hstart, hend, hdate, hsame, h.subject, h.outlookItemId]
    grind

/-- A card that is left on its target stays there. -/
theorem staysOn_of_left (h : targetOf occurrences now before = some o)
    (hidle : ¬ Moves occurrences now before) : StaysOn meeting occurrences now before o := by
  cases before with
  | none => exact absurd ⟨o, h, fun _ heq => by cases heq⟩ hidle
  | some card =>
  simp only [Moves, h, Option.some.injEq, exists_eq_left', forall_eq', not_or, Bool.not_eq_true,
    entryNeedsSlotUpdate_eq_false_iff] at hidle
  obtain ⟨hpast, hdate, ⟨-, hend⟩, hid, hsubject⟩ := hidle
  have hlive : card.stage ≠ .cancelled := by
    intro hcancelled
    rw [targetOf, if_pos hcancelled] at h
    cases h
  have hnow : now ≤ o.slotEnd := by
    simpa only [entryIsPast, hend, decide_eq_false_iff_not, not_lt] using hpast
  rw [StaysOn, if_neg (not_lt.mpr hnow)]
  intro o' hfind
  cases h.symm.trans (targetOf_onDate hlive hend hdate hnow hfind).2
  refine ⟨rfl, rfl, ?_, ?_⟩
  · simp only [heldId, Option.elim_some, orPrevious, ← hid]
    split <;> simp_all
  · unfold subjectOf
    split <;> simp_all

/-- A card on the slot of the occurrence of its date is updated while that lasts, if it is live. -/
theorem updated_iff (hfind : findOccurrenceOnDate occurrences o.occurrenceDate = some o)
    (hdate : card.seriesOccurrenceDate = some o.occurrenceDate) (hshows : card.Shows o) :
    (syncCard seriesId meeting occurrences source now (some card)).1.action.event = some .rescheduled ↔
      card.stage ≠ .cancelled ∧ now ≤ o.slotEnd ∧ entryNeedsSlotUpdate card o = true := by
  by_cases hcancelled : card.stage = .cancelled
  · simp [syncCard, hcancelled, leave, SyncAction.event]
  have hpast : entryIsPast card now = decide (o.slotEnd < now) := by simp only [entryIsPast, hshows.2]
  by_cases hended : o.slotEnd < now
  · rw [iff_false_right fun h => absurd h.2.1 (not_le.mpr hended)]
    simp only [syncCard, if_neg hcancelled, hpast, hended, decide_true, if_true, hdate]
    split <;> simp [leave, SyncAction.event]
  · simp only [syncCard, if_neg hcancelled, hpast, hended, decide_false, Bool.false_eq_true, if_false,
      hdate, Option.bind_some, hfind, Option.some_or]
    split <;> simp_all [SyncAction.event]

end Again

theorem not_writes_iff {action : SyncAction} : action ∉ [SyncAction.created, .rolled, .updated] ↔
    action ∈ [SyncAction.skipped, .noOccurrences] ∧ action.event = none ∧
      action.recreatesDraft = false := by
  cases action <;> simp [SyncAction.event, SyncAction.recreatesDraft]

variable (seriesId : String) (sync : Sync) (registry : List RegistryEntry)

theorem quietAgain_iff : QuietAgain seriesId sync registry ↔ Settles seriesId sync registry := by
  constructor
  · intro h meeting occurrences source o hresolve htarget
    have hsync := syncSeriesCard_of_resolve hresolve seriesId
    rcases syncCard_cases seriesId meeting source sync.now (cardOf seriesId registry) with
      ⟨-, hidle, -⟩ | ⟨-, -, card, o', hcard, hwrote⟩
    · exact staysOn_of_left htarget hidle
    · cases hwrote.target.symm.trans htarget
      obtain ⟨hanswer, hevent, hdraft, -⟩ := h _ _ _ _ (hsync registry) (hsync _)
      have hleft := not_writes_iff.mpr ⟨hanswer, hevent, hdraft⟩
      rw [hcard, Option.elim_some, cardOf_writeCard hwrote.written.series] at hleft
      exact (left_after_iff (Sync.listed hresolve) hwrote).mp hleft
  · intro h answer registry' answer' registry'' hfirst hsecond
    have hleft : answer'.action ∉ [SyncAction.created, .rolled, .updated] := by
      rcases syncSeriesCard_cases hfirst with
        ⟨hleft, rfl⟩ | ⟨-, meeting, occurrences, source, hresolve, card, o, rfl, hwrote⟩
      · cases hfirst.symm.trans hsecond
        exact hleft
      · rw [syncSeriesCard_of_resolve hresolve, cardOf_writeCard hwrote.written.series] at hsecond
        cases hsecond
        exact (left_after_iff (Sync.listed hresolve) hwrote).mpr
          (h meeting occurrences source o hresolve hwrote.target)
    obtain ⟨-, hsame⟩ | ⟨hwrites, -⟩ := syncSeriesCard_cases hsecond
    · obtain ⟨hanswer, hevent, hdraft⟩ := not_writes_iff.mp hleft
      exact ⟨hanswer, hevent, hdraft, hsame⟩
    · exact absurd hwrites hleft

theorem quietSlot_iff : QuietSlot seriesId sync registry ↔ Agrees seriesId sync registry := by
  constructor
  · intro h card o hcard hsame hlive hnow
    have ⟨meeting, occurrences, source, hresolve, hfind, hdate, hshows⟩ := hsame
    have hquiet := h card o _ _ hcard hsame (syncSeriesCard_of_resolve hresolve seriesId registry)
    rw [hcard, ne_eq, updated_iff hfind hdate hshows] at hquiet
    have hneeds : entryNeedsSlotUpdate card o = false :=
      Bool.eq_false_of_not_eq_true fun hneeds => hquiet ⟨hlive, hnow, hneeds⟩
    exact (entryNeedsSlotUpdate_eq_false_iff.mp hneeds).2.2
  · intro h card o answer registry' hcard hsame hsync hevent
    have ⟨meeting, occurrences, source, hresolve, hfind, hdate, hshows⟩ := hsame
    rw [syncSeriesCard_of_resolve hresolve, hcard] at hsync
    cases hsync
    obtain ⟨hlive, hnow, hneeds⟩ := (updated_iff hfind hdate hshows).mp hevent
    rw [entryNeedsSlotUpdate_eq_false_iff.mpr
      ⟨hdate, hshows, h card o hcard hsame hlive hnow⟩] at hneeds
    cases hneeds

/-- **A synchronisation that is run again is quiet** exactly when the occurrence that the card is put
on has ended and is the last, or the first of its date has its slot, the calendar id that the card
keeps and its subject; **an unchanged slot is not rescheduled** exactly when the card is cancelled, or
its slot has ended, or it has the calendar id and the subject of the occurrence. -/
theorem resync_law : (QuietAgain seriesId sync registry ↔ Settles seriesId sync registry) ∧
    (QuietSlot seriesId sync registry ↔ Agrees seriesId sync registry) :=
  ⟨quietAgain_iff seriesId sync registry, quietSlot_iff seriesId sync registry⟩

/-- The calendar cannot be read, and the card has its id of the calendar. -/
theorem fromRule_writesAgain :
    ¬ QuietAgain "series-1" { councilSync 739812 8 [] with items := none }
      [createEntry "series-1" council (councilOccurrence 739812)] := by
  intro h
  have hagain := (h _ _ _ _ rfl rfl).1
  exact absurd hagain (by decide +kernel)

end AgentBack.Meetings
