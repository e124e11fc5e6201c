import AgentBack.Base.Guarded
import AgentBack.Laws.Meetings.Window
import AgentBack.Meetings.SeriesCard

/-!
# The card of a series and the next meeting

A synchronisation that writes the card of a series is to put it on the next meeting: the earliest
that has not ended, or the one on the card's own date. It creates the card by the end of the
meetings, but it moves an old card by dates alone, and it takes the first meeting on the card's date
even when that has ended. The law holds exactly when neither happens (`showsNext_iff`), and in runs
of such synchronisations the card goes back only to a meeting that was moved.
-/

namespace AgentBack.Meetings

/-! ## The law -/

/-- No meeting that has not ended starts before it. -/
def Earliest (occurrences : List SeriesOccurrence) (now : Moment) (o : SeriesOccurrence) : Prop :=
  ∀ o' ∈ occurrences, now ≤ o'.slotEnd → o.slotStart ≤ o'.slotStart

def RegistryEntry.Shows (card : RegistryEntry) (o : SeriesOccurrence) : Prop :=
  card.slotStart = some o.slotStart ∧ card.slotEnd = some o.slotEnd

/-- The card after the synchronisation is on a meeting that has not ended, the earliest one or one
on the date of the card before. -/
def ShowsNext (occurrences : List SeriesOccurrence) (now : Moment) (before : Option RegistryEntry)
    (after : RegistryEntry) : Prop :=
  ∃ o ∈ occurrences, after.Shows o ∧ now ≤ o.slotEnd ∧
    (Earliest occurrences now o ∨
      ∃ card, before = some card ∧ card.seriesOccurrenceDate = some o.occurrenceDate)

/-- A synchronisation that creates, rolls or updates the card puts it on the next meeting. -/
def PutsNext (seriesId : String) (sync : Sync) (registry : List RegistryEntry) : Prop :=
  ∀ answer registry', syncSeriesCard seriesId sync registry = .ok (answer, registry') →
    answer.action ∈ [.created, .rolled, .updated] →
      ∃ meeting occurrences source, sync.resolve = .ok (.inr (meeting, occurrences, source)) ∧
        ∃ card, cardOf seriesId registry' = some card ∧
          ShowsNext occurrences sync.now (cardOf seriesId registry) card

/-- The registry after the synchronisation; one that raises writes nothing. -/
def syncStep (seriesId : String) (registry : List RegistryEntry) (sync : Sync) :
    List RegistryEntry :=
  match syncSeriesCard seriesId sync registry with
  | .ok (_, registry') => registry'
  | .error _ => registry

def AtMostOneLive (seriesId : String) (registry : List RegistryEntry) : Prop :=
  (registry.filter fun card =>
    card.scheduledMeetingId = some seriesId ∧ card.stage ≠ .cancelled).length ≤ 1

/-- A meeting of these bounds is listed whenever the synchronisation lists any. -/
def Sync.Lists (sync : Sync) (slotStart slotEnd : Moment) : Prop :=
  ∀ meeting occurrences source, sync.resolve = .ok (.inr (meeting, occurrences, source)) →
    ∃ o ∈ occurrences, o.slotStart = slotStart ∧ o.slotEnd = slotEnd

/-- When the last synchronisation of a run moves the card back, one of those since the card is there
did not list the meeting that it moves to: the meeting was moved. -/
def BackOnlyIfMoved (seriesId : String) (start : List RegistryEntry) (run : List Sync)
    (last : Sync) : Prop :=
  ∀ card card' s s' e', cardOf seriesId (run.foldl (syncStep seriesId) start) = some card →
    cardOf seriesId (syncStep seriesId (run.foldl (syncStep seriesId) start) last) = some card' →
    card.slotStart = some s → card'.slotStart = some s' → card'.slotEnd = some e' → s' < s →
      ∃ sync ∈ run, ¬ sync.Lists s' e'

/-- The card that is found, if it has a date and is not cancelled: when its meeting is over, the
first meeting after its date has not ended, and those up to its date have; when it is not over, the
first meeting on its date, if there is one, has not ended. -/
def OnTime (seriesId : String) (sync : Sync) (registry : List RegistryEntry) : Prop :=
  ∀ meeting occurrences source, sync.resolve = .ok (.inr (meeting, occurrences, source)) →
    ∀ card date, cardOf seriesId registry = some card → card.stage ≠ .cancelled →
      card.seriesOccurrenceDate = some date →
        if entryIsPast card sync.now then
          ∀ o, occurrences.find? (fun o => date < o.occurrenceDate) = some o →
            sync.now ≤ o.slotEnd ∧
              ∀ o' ∈ occurrences, o'.occurrenceDate ≤ date → o'.slotEnd < sync.now
        else
          ∀ o, occurrences.find? (fun o => o.occurrenceDate = date) = some o →
            sync.now ≤ o.slotEnd

/-! ## What is resolved -/

/-- The meetings of a list stand in the order of their starts, and the date of each is that of its
start. -/
structure Listed (occurrences : List SeriesOccurrence) : Prop where
  sorted : occurrences.Pairwise fun o o' => o.slotStart ≤ o'.slotStart
  dated : ∀ o ∈ occurrences, o.occurrenceDate = dateOf o.slotStart

theorem dateOf_mono {a b : Int} (h : a ≤ b) : dateOf a ≤ dateOf b := by
  unfold dateOf ticksPerDay
  omega

theorem lt_of_dateOf_lt {a b : Int} (h : dateOf a < dateOf b) : a < b := by
  unfold dateOf ticksPerDay at h
  omega

theorem dated_itemOccurrences {seriesId : String} {items : List CalendarItem}
    {occurrences : List SeriesOccurrence} (h : itemOccurrences seriesId items = some occurrences) :
    ∀ o ∈ occurrences, o.occurrenceDate = dateOf o.slotStart := by
  induction items generalizing occurrences with
  | nil =>
    cases h
    exact fun o ho => absurd ho List.not_mem_nil
  | cons item rest ih =>
    unfold itemOccurrences at h
    split at h
    · obtain ⟨found, hfound, h⟩ := Option.bind_eq_some_iff.mp h
      obtain ⟨others, hothers, rfl⟩ := Option.map_eq_some_iff.mp h
      intro o ho
      rcases List.mem_append.mp ho with ho | ho
      · rw [Option.mem_toList.mp ho] at hfound
        unfold calendarItemToOccurrence at hfound
        split at hfound
        · cases hfound
        · split at hfound
          · cases hfound
            rfl
          · cases hfound
      · exact ih hothers o ho
    · exact ih h

theorem listed_fetch {seriesId : String} {items : Option (List CalendarItem)} :
    Listed ((fetchSeriesOccurrencesFromOutlook seriesId items).getD []) := by
  cases hfetch : fetchSeriesOccurrencesFromOutlook seriesId items with
  | none => exact ⟨List.Pairwise.nil, fun o ho => absurd ho List.not_mem_nil⟩
  | some occurrences =>
    obtain ⟨found, hfound, rfl⟩ := Option.map_eq_some_iff.mp hfetch
    obtain ⟨read, _, hread⟩ := Option.bind_eq_some_iff.mp hfound
    exact ⟨pairwise_sortBy _ found, fun o ho => dated_itemOccurrences hread o (mem_sortBy.mp ho)⟩

theorem listed_rule {meeting : Series} {rangeStart rangeEnd : Int}
    {occurrences : List SeriesOccurrence}
    (h : buildOccurrencesFromRule meeting rangeStart rangeEnd = .ok occurrences) :
    Listed occurrences := by
  have hvalid : validateRecurrenceInput meeting.recurrence = .ok () := by
    cases hv : validateRecurrenceInput meeting.recurrence with
    | ok _ => rfl
    | error message =>
      simp [buildOccurrencesFromRule, iterOccurrenceDates, hv, bind, Except.bind, Except.map] at h
  obtain ⟨dates, hdates, hexpands⟩ :=
    iterOccurrenceDates_spec hvalid (some rangeStart) (some rangeEnd)
  simp only [buildOccurrencesFromRule, hdates, Except.map] at h
  cases h
  have hday : ∀ d : Int, dateOf (ruleOccurrence meeting d).slotStart = d := by
    intro d
    have hlow := meeting.timeLocal.nonneg
    have hhigh := meeting.timeLocal.lt
    simp only [ruleOccurrence, occurrenceSlotBounds, dateOf, ticksPerDay] at hhigh ⊢
    omega
  constructor
  · refine List.pairwise_map.mpr (hexpands.1.imp fun {a b} hab => ?_)
    exact le_of_lt (lt_of_dateOf_lt (by rw [hday, hday]; exact hab))
  · intro o ho
    obtain ⟨d, _, rfl⟩ := List.mem_map.mp ho
    exact (hday d).symm

theorem listed_resolve {meeting : Series} {items : Option (List CalendarItem)}
    {rangeStart rangeEnd : Int} {answer : List SeriesOccurrence × OccurrenceSource}
    (h : resolveSeriesOccurrences meeting items rangeStart rangeEnd = .ok answer) :
    Listed answer.1 := by
  have hnil : Listed [] := ⟨List.Pairwise.nil, fun o ho => absurd ho List.not_mem_nil⟩
  unfold resolveSeriesOccurrences at h
  split at h
  · cases h
    unfold outlookOccurrences
    split
    · split
      · exact hnil
      · exact listed_fetch
    · exact hnil
  · cases hrule : buildOccurrencesFromRule meeting rangeStart rangeEnd with
    | error message =>
      rw [hrule] at h
      cases h
    | ok found =>
      rw [hrule] at h
      cases h
      dsimp only
      split
      · exact listed_rule hrule
      · exact hnil

/-- A synchronisation that resolves lists the occurrences of a series, or answers without any. -/
theorem Sync.resolve_cases {sync : Sync}
    {resolved : SyncResult ⊕ Series × List SeriesOccurrence × OccurrenceSource}
    (h : sync.resolve = .ok resolved) :
    (∃ answer, resolved = .inl answer ∧ answer.action ∉ [SyncAction.created, .rolled, .updated]) ∨
      ∃ series found, resolved = .inr (series, found) ∧
        resolveSeriesOccurrences series sync.items (dateOf sync.resolvedAt)
          series.recurrence.seriesEndDate = .ok found := by
  have hleft : ∀ answer : SyncResult, answer.action ∉ [SyncAction.created, .rolled, .updated] →
      (.ok (.inl answer) : Except String _) = .ok resolved → ∃ answer, resolved = .inl answer ∧
        answer.action ∉ [SyncAction.created, .rolled, .updated] :=
    fun answer haction h => ⟨answer, (Except.ok.inj h).symm, haction⟩
  unfold Sync.resolve at h
  split at h
  · exact .inl (hleft _ (by simp [leave]) h)
  split at h
  · exact .inl (hleft _ (by simp [leave]) h)
  split at h
  · exact .inl (hleft _ (by simp [leave]) h)
  next series _ _ _ =>
  cases hresolve : resolveSeriesOccurrences series sync.items (dateOf sync.resolvedAt)
    series.recurrence.seriesEndDate with
  | error message =>
    rw [hresolve] at h
    cases h
  | ok found =>
    rw [hresolve] at h
    simp only [Except.map] at h
    by_cases hempty : found.1 = []
    · rw [if_pos hempty] at h
      exact .inl (hleft _ (by simp [leave]) h)
    · rw [if_neg hempty] at h
      cases h
      exact .inr ⟨series, found, rfl, hresolve⟩

theorem Sync.listed {sync : Sync} {meeting : Series} {occurrences : List SeriesOccurrence}
    {source : OccurrenceSource} (h : sync.resolve = .ok (.inr (meeting, occurrences, source))) :
    Listed occurrences := by
  obtain ⟨_, hinl, _⟩ | ⟨series, found, hinr, hresolve⟩ := Sync.resolve_cases h
  · cases hinl
  · cases hinr
    exact listed_resolve hresolve

section Search

variable {occurrences : List SeriesOccurrence} (hlisted : Listed occurrences)

include hlisted

theorem sortBy_of_listed : sortBy SeriesOccurrence.slotStart occurrences = occurrences :=
  hlisted.sorted.insertionSort_eq

theorem findNextOccurrence_of_listed (now : Moment) :
    findNextOccurrence occurrences now = occurrences.find? fun o => now ≤ o.slotEnd := by
  rw [findNextOccurrence, sortBy_of_listed hlisted]

theorem findNextAfter_of_listed (date : Int) :
    findNextAfter occurrences date = occurrences.find? fun o => date < o.occurrenceDate := by
  rw [findNextAfter, sortBy_of_listed hlisted]

/-- What a search finds: the earliest of those that it looks for. -/
theorem find?_listed {p : SeriesOccurrence → Bool} {o : SeriesOccurrence}
    (h : occurrences.find? p = some o) :
    o ∈ occurrences ∧ p o = true ∧
      ∀ o' ∈ occurrences, p o' = true → o.slotStart ≤ o'.slotStart := by
  obtain ⟨hp, before, after, hsplit, hbefore⟩ := List.find?_eq_some_iff_append.mp h
  have hsorted := hlisted.sorted
  rw [hsplit] at hsorted ⊢
  refine ⟨List.mem_append_right _ (.head _), hp, fun o' ho' hp' => ?_⟩
  rcases List.mem_append.mp ho' with ho' | ho'
  · have hnot := hbefore o' ho'
    rw [hp'] at hnot
    cases hnot
  · rcases List.mem_cons.mp ho' with rfl | ho'
    · exact le_refl _
    · exact (List.pairwise_cons.mp (List.pairwise_append.mp hsorted).2.1).1 o' ho'

end Search

/-! ## Writing the card -/

theorem cardOf_writeCard {seriesId : String} {card : RegistryEntry}
    (h : card.scheduledMeetingId = some seriesId) (registry : List RegistryEntry) :
    cardOf seriesId (writeCard seriesId card registry) = some card := by
  unfold cardOf writeCard
  cases hchange : changeFirst RegistryEntry.scheduledMeetingId (some seriesId)
      (fun _ => some card) registry with
  | none =>
    have hnone := firstOf_of_changeFirst_eq_none (by simp) hchange
    rw [Option.getD_none, firstOf_append_singleton, hnone, if_pos h]
    rfl
  | some registry' =>
    obtain ⟨_, _, _, hcard, hfound⟩ := firstOf_changeFirst_self hchange
    cases hcard
    exact hfound h

/-- Why the card is written, and on which meeting. -/
inductive Target (occurrences : List SeriesOccurrence) (now : Moment)
    (before : Option RegistryEntry) (o : SeriesOccurrence) : Prop where
  | next (h : occurrences.find? (fun o => now ≤ o.slotEnd) = some o)
  | after (card : RegistryEntry) (date : Int) (hbefore : before = some card)
      (hlive : card.stage ≠ .cancelled) (hdate : card.seriesOccurrenceDate = some date)
      (hpast : entryIsPast card now = true)
      (h : occurrences.find? (fun o => date < o.occurrenceDate) = some o)
  | onDate (card : RegistryEntry) (date : Int) (hbefore : before = some card)
      (hlive : card.stage ≠ .cancelled) (hdate : card.seriesOccurrenceDate = some date)
      (hpast : entryIsPast card now = false)
      (h : occurrences.find? (fun o => o.occurrenceDate = date) = some o)

/-- A card that is written shows a meeting, of the series and on the date of the meeting. -/
structure Written (seriesId : String) (card : RegistryEntry) (o : SeriesOccurrence) : Prop where
  shows : card.Shows o
  date : card.seriesOccurrenceDate = some o.occurrenceDate
  series : card.scheduledMeetingId = some seriesId
  live : card.stage ≠ .cancelled

/-- The occurrence that a synchronisation looks for. -/
def targetOf (occurrences : List SeriesOccurrence) (now : Moment) :
    Option RegistryEntry → Option SeriesOccurrence
  | none => findNextOccurrence occurrences now
  | some entry =>
    if entry.stage = .cancelled then none
    else if entryIsPast entry now then
      match entry.seriesOccurrenceDate with
      | some date => findNextAfter occurrences date
      | none => findNextOccurrence occurrences now
    else
      (entry.seriesOccurrenceDate.bind (findOccurrenceOnDate occurrences)).or
        (findNextOccurrence occurrences now)

/-- The card is to be put on an occurrence that it is not on. -/
def Moves (occurrences : List SeriesOccurrence) (now : Moment) (before : Option RegistryEntry) :
    Prop :=
  ∃ o, targetOf occurrences now before = some o ∧ ∀ entry, before = some entry →
    entryIsPast entry now = true ∨ entryNeedsSlotUpdate entry o = true

/-- The calendar id of a card that is put on an occurrence. -/
def heldId (before : Option RegistryEntry) (o : SeriesOccurrence) : Option String :=
  before.elim o.outlookItemId fun entry => orPrevious o.outlookItemId entry.outlookItemId

/-- A card that is written is put on the target. -/
structure Wrote (seriesId : String) (meeting : Series) (occurrences : List SeriesOccurrence)
    (now : Moment) (before : Option RegistryEntry) (card : RegistryEntry) (o : SeriesOccurrence) :
    Prop where
  target : targetOf occurrences now before = some o
  written : Written seriesId card o
  subject : card.subject = some (subjectOf meeting o)
  outlookItemId : card.outlookItemId = heldId before o

section SyncCard

variable {seriesId : String} {meeting : Series} {occurrences : List SeriesOccurrence}
  {source : OccurrenceSource} {now : Moment} (hlisted : Listed occurrences)

theorem written_createEntry (o : SeriesOccurrence) :
    Written seriesId (createEntry seriesId meeting o) o :=
  ⟨⟨rfl, rfl⟩, rfl, rfl, by simp [createEntry]⟩

theorem written_rolled (card : RegistryEntry) (o : SeriesOccurrence) :
    Written seriesId
      { applyOccurrenceToEntry card seriesId meeting o with stage := .scheduled } o :=
  ⟨⟨rfl, rfl⟩, rfl, rfl, by simp⟩

theorem written_applied {card : RegistryEntry} (h : card.stage ≠ .cancelled)
    (o : SeriesOccurrence) :
    Written seriesId (applyOccurrenceToEntry card seriesId meeting o) o :=
  ⟨⟨rfl, rfl⟩, rfl, rfl, h⟩

variable (seriesId meeting source now)

/-- What a synchronisation writes, if it writes: the answer says so. -/
theorem syncCard_cases (before : Option RegistryEntry) :
    ((syncCard seriesId meeting occurrences source now before).1.action ∉
        [SyncAction.created, .rolled, .updated] ∧ ¬ Moves occurrences now before ∧
      (syncCard seriesId meeting occurrences source now before).2 = none) ∨
    ((syncCard seriesId meeting occurrences source now before).1.action ∈
        [SyncAction.created, .rolled, .updated] ∧ Moves occurrences now before ∧
      ∃ card o, (syncCard seriesId meeting occurrences source now before).2 = some card ∧
        Wrote seriesId meeting occurrences now before card o) := by
  have hleft : targetOf occurrences now before = none → ¬ Moves occurrences now before := by
    rintro hnone ⟨o, htarget, -⟩
    exact Option.some_ne_none o (htarget.symm.trans hnone)
  cases before with
  | none =>
    unfold syncCard
    dsimp only
    cases hfind : findNextOccurrence occurrences now with
    | none => exact .inl ⟨by simp [leave], hleft hfind, rfl⟩
    | some o =>
      exact .inr ⟨by simp, ⟨o, hfind, fun _ h => by cases h⟩, _, o, rfl, hfind, written_createEntry o,
        rfl, rfl⟩
  | some entry =>
    unfold syncCard
    dsimp only
    by_cases hcancelled : entry.stage = .cancelled
    · rw [if_pos hcancelled]
      exact .inl ⟨by simp [leave], hleft (if_pos hcancelled), rfl⟩
    have htarget : targetOf occurrences now (some entry) = _ := if_neg hcancelled
    rw [if_neg hcancelled]
    cases hpast : entryIsPast entry now with
    | true =>
      rw [hpast, if_pos rfl] at htarget
      rw [if_pos rfl]
      split
      · next hnone => exact .inl ⟨by simp [leave], hleft (htarget.trans hnone), rfl⟩
      · next o hsome =>
        exact .inr ⟨by simp, ⟨o, htarget.trans hsome, fun _ h => .inl (by cases h; exact hpast)⟩, _, o,
          rfl, htarget.trans hsome, written_rolled entry o, rfl, rfl⟩
    | false =>
      rw [hpast, if_neg Bool.false_ne_true] at htarget
      rw [if_neg Bool.false_ne_true]
      split
      · next hnone => exact .inl ⟨by simp [leave], hleft (htarget.trans hnone), rfl⟩
      · next o hsome =>
        cases hneeds : entryNeedsSlotUpdate entry o with
        | true =>
          exact .inr ⟨by simp, ⟨o, htarget.trans hsome, fun _ h => .inr (by cases h; exact hneeds)⟩, _,
            o, rfl, htarget.trans hsome, written_applied hcancelled o, rfl, rfl⟩
        | false =>
          refine .inl ⟨by simp, ?_, rfl⟩
          rintro ⟨o', ho', hmoved⟩
          cases ho'.symm.trans (htarget.trans hsome)
          simp [hpast, hneeds] at hmoved

include hlisted in
theorem target_of_targetOf {before : Option RegistryEntry} {o : SeriesOccurrence}
    (h : targetOf occurrences now before = some o) : Target occurrences now before o := by
  have hnext := findNextOccurrence_of_listed hlisted now
  unfold targetOf at h
  split at h
  · exact .next (hnext ▸ h)
  next entry =>
  split at h
  · cases h
  next hcancelled =>
  cases hdate : entry.seriesOccurrenceDate with
  | none =>
    rw [hdate] at h
    exact .next (hnext ▸ (ite_self (findNextOccurrence occurrences now)).symm.trans h)
  | some date =>
    rw [hdate] at h
    split at h
    · next hpast => exact .after entry date rfl hcancelled hdate hpast (findNextAfter_of_listed hlisted date ▸ h)
    · next hpast =>
      rcases Option.or_eq_some_iff.mp h with hfind | ⟨-, hfind⟩
      · exact .onDate entry date rfl hcancelled hdate (Bool.eq_false_of_not_eq_true hpast) hfind
      · exact .next (hnext ▸ hfind)

end SyncCard

variable {sync : Sync} {meeting : Series} {occurrences : List SeriesOccurrence}
    {source : OccurrenceSource} {seriesId : String} {registry : List RegistryEntry}
    {card : RegistryEntry} {start : List RegistryEntry}

/-- A synchronisation that lists meetings, and what it does with the card. -/
theorem syncSeriesCard_of_resolve
    (h : sync.resolve = .ok (.inr (meeting, occurrences, source))) (seriesId : String)
    (registry : List RegistryEntry) :
    syncSeriesCard seriesId sync registry =
      .ok ((syncCard seriesId meeting occurrences source sync.now (cardOf seriesId registry)).1,
        (syncCard seriesId meeting occurrences source sync.now
          (cardOf seriesId registry)).2.elim registry
            fun entry => writeCard seriesId entry registry) := by
  rw [syncSeriesCard, h]
  rfl

/-- A synchronisation leaves the registry, or it writes the card of the series. -/
theorem syncSeriesCard_cases {answer : SyncResult} {registry' : List RegistryEntry}
    (h : syncSeriesCard seriesId sync registry = .ok (answer, registry')) :
    (answer.action ∉ [SyncAction.created, .rolled, .updated] ∧ registry' = registry) ∨
      answer.action ∈ [SyncAction.created, .rolled, .updated] ∧
        ∃ meeting occurrences source, sync.resolve = .ok (.inr (meeting, occurrences, source)) ∧
          ∃ card o, registry' = writeCard seriesId card registry ∧
            Wrote seriesId meeting occurrences sync.now (cardOf seriesId registry) card o := by
  cases hresolve : sync.resolve with
  | error message =>
    rw [syncSeriesCard, hresolve] at h
    cases h
  | ok resolved =>
    rcases Sync.resolve_cases hresolve with ⟨left, rfl, hleft⟩ | ⟨meeting, found, rfl, -⟩
    · rw [syncSeriesCard, hresolve] at h
      cases h
      exact .inl ⟨hleft, rfl⟩
    · rw [syncSeriesCard_of_resolve hresolve] at h
      cases h
      rcases syncCard_cases seriesId meeting found.2 sync.now (cardOf seriesId registry) with
        ⟨hleft, -, hnone⟩ | ⟨haction, -, card, o, hcard, hwrote⟩
      · exact .inl ⟨hleft, by rw [hnone]; rfl⟩
      · exact .inr ⟨haction, meeting, found.1, found.2, rfl, card, o, by rw [hcard]; rfl, hwrote⟩

/-- What the card is put on in time: a meeting that has not ended, the earliest or the first on the
date of the card before. -/
theorem target_onTime (hresolve : sync.resolve = .ok (.inr (meeting, occurrences, source)))
    (honTime : OnTime seriesId sync registry) {o : SeriesOccurrence}
    (h : Target occurrences sync.now (cardOf seriesId registry) o) :
    o ∈ occurrences ∧ sync.now ≤ o.slotEnd ∧
      (Earliest occurrences sync.now o ∨ ∃ card date, cardOf seriesId registry = some card ∧
        card.seriesOccurrenceDate = some date ∧ o.occurrenceDate = date ∧
        ∀ o' ∈ occurrences, o'.occurrenceDate = date → o.slotStart ≤ o'.slotStart) := by
  have hlisted := Sync.listed hresolve
  cases h with
  | next h =>
    obtain ⟨hmem, hend, hfirst⟩ := find?_listed hlisted h
    exact ⟨hmem, of_decide_eq_true hend,
      Or.inl fun o' ho' hend' => hfirst o' ho' (decide_eq_true hend')⟩
  | after card date hbefore hlive hdate hpast h =>
    obtain ⟨hmem, _, hfirst⟩ := find?_listed hlisted h
    have hcond := honTime meeting occurrences source hresolve card date hbefore hlive hdate
    rw [if_pos hpast] at hcond
    obtain ⟨hend, hover⟩ := hcond o h
    refine ⟨hmem, hend, Or.inl fun o' ho' hend' => ?_⟩
    by_cases hlater : date < o'.occurrenceDate
    · exact hfirst o' ho' (decide_eq_true hlater)
    · exact absurd (hover o' ho' (not_lt.mp hlater)) (not_lt.mpr hend')
  | onDate card date hbefore hlive hdate hpast h =>
    obtain ⟨hmem, hthis, hfirst⟩ := find?_listed hlisted h
    have hcond := honTime meeting occurrences source hresolve card date hbefore hlive hdate
    rw [if_neg (by rw [hpast]; exact Bool.false_ne_true)] at hcond
    exact ⟨hmem, hcond o h, Or.inr ⟨card, date, hbefore, hdate, of_decide_eq_true hthis,
      fun o' ho' hdate' => hfirst o' ho' (decide_eq_true hdate')⟩⟩

theorem putsNext_of_onTime
    (h : OnTime seriesId sync registry) : PutsNext seriesId sync registry := by
  intro answer registry' hsync haction
  obtain ⟨hleft, -⟩ | ⟨-, meeting, occurrences, source, hresolve, card, o, rfl, hwrote⟩ :=
    syncSeriesCard_cases hsync
  · exact absurd haction hleft
  refine ⟨meeting, occurrences, source, hresolve, card, cardOf_writeCard hwrote.written.series _, ?_⟩
  obtain ⟨hmem, hend, hwhich⟩ := target_onTime hresolve h
    (target_of_targetOf sync.now (Sync.listed hresolve) hwrote.target)
  refine ⟨o, hmem, hwrote.written.shows, hend, hwhich.imp id ?_⟩
  rintro ⟨before, date, hbefore, hdate, hthis, _⟩
  exact ⟨before, hbefore, hthis ▸ hdate⟩

/-- What is shown of a card that a synchronisation puts on a meeting. -/
theorem showsNext_of_moves (h : PutsNext seriesId sync registry)
    (hresolve : sync.resolve = .ok (.inr (meeting, occurrences, source))) {o : SeriesOccurrence}
    (hbefore : cardOf seriesId registry = some card)
    (htarget : targetOf occurrences sync.now (some card) = some o)
    (hmoved : entryIsPast card sync.now = true ∨ entryNeedsSlotUpdate card o = true) :
    ∃ o' ∈ occurrences, o'.slotStart = o.slotStart ∧ o'.slotEnd = o.slotEnd ∧
      sync.now ≤ o'.slotEnd ∧
        (Earliest occurrences sync.now o' ∨ card.seriesOccurrenceDate = some o'.occurrenceDate) := by
  have hsync := syncSeriesCard_of_resolve hresolve seriesId registry
  rw [hbefore] at hsync
  obtain ⟨-, hidle, -⟩ | ⟨haction, -, written, o', hcard, hwrote⟩ :=
    syncCard_cases seriesId meeting source sync.now (some card)
  · exact absurd ⟨o, htarget, fun _ heq => by cases heq; exact hmoved⟩ hidle
  cases hwrote.target.symm.trans htarget
  obtain ⟨_, _, _, hresolve', shown, hfound, o', hmem, hshows, hend, hwhich⟩ :=
    h _ _ hsync haction
  rw [hresolve] at hresolve'
  cases hresolve'
  rw [hcard, Option.elim_some, cardOf_writeCard hwrote.written.series] at hfound
  cases hfound
  refine ⟨o', hmem, ?_, ?_, hend, hwhich.imp_right ?_⟩
  · exact Option.some.inj (hshows.1.symm.trans hwrote.written.shows.1)
  · exact Option.some.inj (hshows.2.symm.trans hwrote.written.shows.2)
  · rintro ⟨before, hbefore', hdate⟩
    rw [hbefore] at hbefore'
    cases hbefore'
    exact hdate

theorem onTime_of_putsNext
    (h : PutsNext seriesId sync registry) : OnTime seriesId sync registry := by
  intro meeting occurrences source hresolve card date hbefore hlive hdate
  have hlisted := Sync.listed hresolve
  cases hpast : entryIsPast card sync.now with
  | true =>
    rw [if_pos rfl]
    intro o ho
    have htarget : targetOf occurrences sync.now (some card) = some o := by
      simp only [targetOf, if_neg hlive, hpast, if_true, hdate, findNextAfter_of_listed hlisted, ho]
    obtain ⟨o', hmem, hstart, hend, hnow, hwhich⟩ :=
      showsNext_of_moves h hresolve hbefore htarget (.inl hpast)
    obtain ⟨hmemo, hafter, _⟩ := find?_listed hlisted ho
    have hlater : date < dateOf o.slotStart := by
      rw [← hlisted.dated o hmemo]
      exact of_decide_eq_true hafter
    refine ⟨hend ▸ hnow, fun other hother hother' => ?_⟩
    by_contra hover
    have hearly : dateOf other.slotStart ≤ date := hlisted.dated other hother ▸ hother'
    rcases hwhich with hearliest | hdate'
    · have hle := dateOf_mono (hearliest other hother (not_lt.mp hover))
      rw [hstart] at hle
      exact absurd (lt_of_lt_of_le hlater (hle.trans hearly)) (lt_irrefl _)
    · rw [hdate, hlisted.dated o' hmem, hstart] at hdate'
      exact absurd (Option.some.inj hdate').symm (ne_of_gt hlater)
  | false =>
    rw [if_neg Bool.false_ne_true]
    intro o ho
    by_contra hended
    have htarget : targetOf occurrences sync.now (some card) = some o := by
      simp only [targetOf, if_neg hlive, hpast, Bool.false_eq_true, if_false, hdate, Option.bind_some,
        findOccurrenceOnDate, ho, Option.some_or]
    have hslot : card.slotEnd ≠ some o.slotEnd := by
      intro heq
      simp only [entryIsPast, heq, decide_eq_false_iff_not] at hpast
      exact hpast (not_le.mp hended)
    obtain ⟨o', _, _, hend, hnow, _⟩ :=
      showsNext_of_moves h hresolve hbefore htarget (.inr (by simp [entryNeedsSlotUpdate, hslot]))
    exact hended (hend ▸ hnow)

/-- A synchronisation puts the card on the next meeting exactly when it is in time. -/
theorem putsNext_iff_onTime (seriesId : String) (sync : Sync) (registry : List RegistryEntry) :
    PutsNext seriesId sync registry ↔ OnTime seriesId sync registry :=
  ⟨onTime_of_putsNext, putsNext_of_onTime⟩

/-! ## Runs -/

/-- What a synchronisation does to the registry: nothing, or it writes the card of the series. -/
theorem syncStep_cases (seriesId : String) (registry : List RegistryEntry) (sync : Sync) :
    syncStep seriesId registry sync = registry ∨
      ∃ meeting occurrences source, sync.resolve = .ok (.inr (meeting, occurrences, source)) ∧
        ∃ card o, syncStep seriesId registry sync = writeCard seriesId card registry ∧
          Written seriesId card o ∧
          Target occurrences sync.now (cardOf seriesId registry) o := by
  unfold syncStep
  split
  · next answer registry' hsync =>
    obtain ⟨-, rfl⟩ | ⟨-, meeting, occurrences, source, hresolve, card, o, rfl, hwrote⟩ :=
      syncSeriesCard_cases hsync
    · exact .inl rfl
    · exact .inr ⟨meeting, occurrences, source, hresolve, card, o, rfl, hwrote.written,
        target_of_targetOf sync.now (Sync.listed hresolve) hwrote.target⟩
  · exact .inl rfl

theorem length_filter_changeFirst
    (hcard : card.scheduledMeetingId = some seriesId) {registry' : List RegistryEntry}
    (h : changeFirst RegistryEntry.scheduledMeetingId (some seriesId) (fun _ => some card)
      registry = some registry') :
    (registry'.filter fun e => e.scheduledMeetingId = some seriesId).length =
      (registry.filter fun e => e.scheduledMeetingId = some seriesId).length := by
  obtain ⟨before, a, a', after, rfl, _, ha, hf, rfl⟩ := changeFirst_eq_some_iff.mp h
  cases hf
  simp [List.filter_append, ha, hcard]

theorem cards_writeCard (hcard : card.scheduledMeetingId = some seriesId)
    (h : (registry.filter fun e => e.scheduledMeetingId = some seriesId).length ≤ 1) :
    ((writeCard seriesId card registry).filter fun e =>
      e.scheduledMeetingId = some seriesId).length ≤ 1 := by
  unfold writeCard
  cases hchange : changeFirst RegistryEntry.scheduledMeetingId (some seriesId)
      (fun _ => some card) registry with
  | some registry' =>
    rw [Option.getD_some, length_filter_changeFirst hcard hchange]
    exact h
  | none =>
    have hnone := firstOf_of_changeFirst_eq_none (by simp) hchange
    have hempty : registry.filter (fun e => e.scheduledMeetingId = some seriesId) = [] := by
      rw [List.filter_eq_nil_iff]
      simpa [firstOf_eq_none_iff] using hnone
    rw [Option.getD_none, List.filter_append, hempty]
    simp [hcard]

theorem cards_syncStep (sync : Sync)
    (h : (registry.filter fun e => e.scheduledMeetingId = some seriesId).length ≤ 1) :
    ((syncStep seriesId registry sync).filter fun e =>
      e.scheduledMeetingId = some seriesId).length ≤ 1 := by
  rcases syncStep_cases seriesId registry sync with heq | ⟨_, _, _, _, card, o, heq, hwritten, _⟩
  · rw [heq]
    exact h
  · rw [heq]
    exact cards_writeCard hwritten.series h

theorem cards_run (run : List Sync)
    (h : (start.filter fun e => e.scheduledMeetingId = some seriesId).length ≤ 1) :
    ((run.foldl (syncStep seriesId) start).filter fun e =>
      e.scheduledMeetingId = some seriesId).length ≤ 1 := by
  induction run generalizing start with
  | nil => exact h
  | cons sync rest ih => exact ih (cards_syncStep sync h)

/-- A series without a card has at most one after any run. -/
theorem atMostOneLive_run (h : cardOf seriesId start = none) (run : List Sync) :
    AtMostOneLive seriesId (run.foldl (syncStep seriesId) start) := by
  have hempty : start.filter (fun e => e.scheduledMeetingId = some seriesId) = [] := by
    rw [List.filter_eq_nil_iff]
    simpa [cardOf, firstOf_eq_none_iff] using h
  have hstart : (start.filter fun e => e.scheduledMeetingId = some seriesId).length ≤ 1 := by
    rw [hempty]
    exact Nat.zero_le 1
  have hrun := cards_run run hstart
  refine le_trans (List.Sublist.length_le (List.monotone_filter_right _ ?_)) hrun
  intro card hlive
  simp only [decide_eq_true_eq] at hlive ⊢
  exact hlive.1

/-- The card is on a meeting that no later one, of those that were listed all along and have not
ended, comes before. -/
structure OnCard (seriesId : String) (run : List Sync) (now : Moment)
    (registry : List RegistryEntry) (slotStart : Moment) : Prop where
  card : ∃ card, cardOf seriesId registry = some card ∧ card.slotStart = some slotStart ∧
    card.seriesOccurrenceDate = some (dateOf slotStart)
  first : ∀ a b, now ≤ b → (∀ sync ∈ run, sync.Lists a b) → slotStart ≤ a

theorem onCard_of_earliest {run : List Sync} {o : SeriesOccurrence}
    (hresolve : sync.resolve = .ok (.inr (meeting, occurrences, source))) (hmem : o ∈ occurrences)
    (hwritten : Written seriesId card o) (hrun : sync ∈ run)
    (hearliest : Earliest occurrences sync.now o) :
    OnCard seriesId run sync.now (writeCard seriesId card registry) o.slotStart where
  card := ⟨card, cardOf_writeCard hwritten.series registry, hwritten.shows.1,
    (Sync.listed hresolve).dated o hmem ▸ hwritten.date⟩
  first a b hb hlists := by
    obtain ⟨o', ho', rfl, rfl⟩ := hlists sync hrun meeting occurrences source hresolve
    exact hearliest o' ho' hb

theorem onCard_created {first : Sync} (hnone : cardOf seriesId start = none)
    (hcreated : cardOf seriesId (syncStep seriesId start first) ≠ none) :
    ∃ s, OnCard seriesId [first] first.now (syncStep seriesId start first) s := by
  rcases syncStep_cases seriesId start first with
    heq | ⟨meeting, occurrences, source, hresolve, card, o, heq, hwritten, htarget⟩
  · rw [heq] at hcreated
    exact absurd hnone hcreated
  · rw [heq]
    have hlisted := Sync.listed hresolve
    cases htarget with
    | next h =>
      obtain ⟨hmem, _, hfirst⟩ := find?_listed hlisted h
      exact ⟨o.slotStart, onCard_of_earliest hresolve hmem hwritten (.head _)
        fun o' ho' hend => hfirst o' ho' (decide_eq_true hend)⟩
    | after before date hbefore _ _ _ _ | onDate before date hbefore _ _ _ _ =>
      rw [hnone] at hbefore
      cases hbefore

/-- A synchronisation in time keeps the card where it belongs. -/
theorem onCard_step {run : List Sync} {now : Moment} {s : Moment}
    (h : OnCard seriesId run now registry s) (hnow : now ≤ sync.now)
    (honTime : OnTime seriesId sync registry) :
    ∃ s', OnCard seriesId (run ++ [sync]) sync.now (syncStep seriesId registry sync) s' := by
  have hthis : sync ∈ run ++ [sync] := List.mem_append_right _ (.head _)
  rcases syncStep_cases seriesId registry sync with
    heq | ⟨meeting, occurrences, source, hresolve, card, o, heq, hwritten, htarget⟩
  · rw [heq]
    exact ⟨s, h.card, fun a b hb hlists => h.first a b (hnow.trans hb) fun sync' hsync' =>
      hlists sync' (List.mem_append_left _ hsync')⟩
  · rw [heq]
    obtain ⟨hmem, hend, hwhich⟩ := target_onTime hresolve honTime htarget
    refine ⟨o.slotStart, ?_⟩
    rcases hwhich with hearliest | ⟨before, date, hbefore, hdate, hodate, hfirst⟩
    · exact onCard_of_earliest hresolve hmem hwritten hthis hearliest
    -- the card stays on its date: what is listed all along was not before it, so it is on the date
    -- or on a later one
    have hlisted := Sync.listed hresolve
    obtain ⟨card₀, hcard₀, hstart₀, hdate₀⟩ := h.card
    rw [hbefore] at hcard₀
    cases hcard₀
    have hs : dateOf s = date := Option.some.inj (hdate₀.symm.trans hdate)
    refine ⟨⟨card, cardOf_writeCard hwritten.series registry, hwritten.shows.1,
      hlisted.dated o hmem ▸ hwritten.date⟩, fun a b hb hlists => ?_⟩
    have hsa : s ≤ a := h.first a b (hnow.trans hb) fun sync' hsync' =>
      hlists sync' (List.mem_append_left _ hsync')
    obtain ⟨o', ho', rfl, rfl⟩ := hlists sync hthis meeting occurrences source hresolve
    rcases (hs ▸ dateOf_mono hsa).lt_or_eq with hlater | hsame
    · refine le_of_lt (lt_of_dateOf_lt ?_)
      rw [← hlisted.dated o hmem, hodate]
      exact hlater
    · exact hfirst o' ho' ((hlisted.dated o' ho').trans hsame.symm)

/-- A run in time keeps the card where it belongs. -/
theorem onCard_run (rest : List Sync) {run : List Sync} {now : Moment} {s : Moment} (h : OnCard seriesId run now registry s)
    (hnow : ∀ sync ∈ rest, now ≤ sync.now) (hrest : (rest.map Sync.now).Pairwise (· ≤ ·))
    (hguard : Guarded (syncStep seriesId) (OnTime seriesId) rest registry) :
    ∃ now' s', (now' = now ∨ ∃ sync ∈ rest, now' = sync.now) ∧
      OnCard seriesId (run ++ rest) now' (rest.foldl (syncStep seriesId) registry) s' := by
  induction rest generalizing run now registry s with
  | nil => exact ⟨now, s, Or.inl rfl, by rw [List.append_nil]; exact h⟩
  | cons sync rest ih =>
    obtain ⟨hlater, hsorted⟩ := List.pairwise_cons.mp (List.map_cons ▸ hrest)
    obtain ⟨s₁, h₁⟩ := onCard_step h (hnow sync (.head _)) hguard.1
    obtain ⟨now', s', hnow', hcard⟩ := ih h₁
      (fun sync' hsync' => hlater sync'.now (List.mem_map_of_mem hsync')) hsorted hguard.2
    refine ⟨now', s', Or.inr ?_, ?_⟩
    · rcases hnow' with rfl | ⟨sync', hsync', rfl⟩
      · exact ⟨sync, .head _, rfl⟩
      · exact ⟨sync', .tail _ hsync', rfl⟩
    · rw [List.append_assoc] at hcard
      exact hcard

/-- In a run of increasing moments that is in time, from the synchronisation that creates the card
on, the card goes back only to a meeting that was moved. -/
theorem backOnlyIfMoved {first last : Sync} {mid : List Sync} (hnone : cardOf seriesId start = none)
    (hcreated : cardOf seriesId (syncStep seriesId start first) ≠ none)
    (hnow : ((first :: mid ++ [last]).map Sync.now).Pairwise (· ≤ ·))
    (hguard : Guarded (syncStep seriesId) (OnTime seriesId) (first :: mid ++ [last]) start) :
    BackOnlyIfMoved seriesId start (first :: mid) last := by
  intro card card' s s' e' hcard hcard' hs hs' he' hback
  by_contra hmoved
  push Not at hmoved
  obtain ⟨hguard, hlast⟩ := Guarded.last hguard
  rw [List.map_append, List.map_cons] at hnow
  obtain ⟨hsorted, _, hbefore⟩ := List.pairwise_append.mp hnow
  obtain ⟨hfirst, hmid⟩ := List.pairwise_cons.mp hsorted
  obtain ⟨s₀, hcreate⟩ := onCard_created hnone hcreated
  obtain ⟨now', s₁, hnow', hon⟩ := onCard_run mid hcreate
    (fun sync hsync => hfirst sync.now (List.mem_map_of_mem hsync)) hmid hguard.2
  have hle : now' ≤ last.now := by
    have hmem : now' ∈ first.now :: mid.map Sync.now := by
      rcases hnow' with rfl | ⟨sync, hsync, rfl⟩
      · exact .head _
      · exact .tail _ (List.mem_map_of_mem hsync)
    exact hbefore now' hmem last.now (.head _)
  obtain ⟨card₁, hcard₁, hstart₁, _⟩ := hon.card
  have hsame : s₁ = s := by
    have heq : card₁ = card := Option.some.inj (hcard₁.symm.trans hcard)
    rw [heq, hs] at hstart₁
    exact (Option.some.inj hstart₁).symm
  rcases syncStep_cases seriesId ((first :: mid).foldl (syncStep seriesId) start) last with
    heq | ⟨meeting, occurrences, source, hresolve, written, o, heq, hwritten, htarget⟩
  · rw [heq, hcard] at hcard'
    cases hcard'
    rw [hs] at hs'
    cases hs'
    exact lt_irrefl _ hback
  · rw [heq, cardOf_writeCard hwritten.series] at hcard'
    cases hcard'
    obtain ⟨_, hend, _⟩ := target_onTime hresolve hlast htarget
    have hbound : e' = o.slotEnd := Option.some.inj (he'.symm.trans hwritten.shows.2)
    have hge := hon.first s' e' (hle.trans (hbound ▸ hend)) hmoved
    rw [hsame] at hge
    exact absurd hback (not_lt.mpr hge)

/-- **The card of a series shows the next meeting when it is moved in time.** A synchronisation that
creates, rolls or updates the card puts it on a meeting that has not ended, the earliest or one on
the card's own date, exactly when the first meeting after the date of a card that is over has not
ended and those up to that date have, or the first meeting on the date of a card that is not over
has not ended. In runs of such synchronisations a series has at most one card that lives, and the
card goes back only to a meeting that was moved. -/
theorem series_card_law (seriesId : String) :
    (∀ sync registry, PutsNext seriesId sync registry ↔ OnTime seriesId sync registry) ∧
      ∀ start first mid last, cardOf seriesId start = none →
        cardOf seriesId (syncStep seriesId start first) ≠ none →
        ((first :: mid ++ [last]).map Sync.now).Pairwise (· ≤ ·) →
        Guarded (syncStep seriesId) (OnTime seriesId) (first :: mid ++ [last]) start →
          AtMostOneLive seriesId ((first :: mid ++ [last]).foldl (syncStep seriesId) start) ∧
            BackOnlyIfMoved seriesId start (first :: mid) last :=
  ⟨putsNext_iff_onTime seriesId, fun _ _ _ _ hnone hcreated hnow hguard =>
    ⟨atMostOneLive_run hnone _, backOnlyIfMoved hnone hcreated hnow hguard⟩⟩

/-! ## A daily meeting -/

def atHour (day hour : Int) : Moment := day * ticksPerDay + hour * 3600000000

/-- The meeting of a day in the calendar, at nine for an hour. -/
def councilItem (day : Int) : CalendarItem where
  masterId := some "master-1"
  isCancelled := false
  isSeriesOccurrence := true
  start := some (atHour day 9)
  finish := some (atHour day 10)
  id := "item"
  changekey := ""
  subject := "Технический совет"

/-- A daily series of three days from 15 July 2026. -/
def council : Series where
  title := "Технический совет"
  status := .planned
  outlookSeriesId := some "master-1"
  outlookMeetingUrl := none
  recurrence :=
    { frequency := .daily
      interval := 1
      seriesStartDate := 739812
      seriesEndDate := 739814
      monthlyMode := none
      dayOfMonth := none
      weekday := none
      weekdayPosition := none }
  timeLocal := ⟨9 * 3600000000, by decide, by decide⟩
  durationMinutes := 60

/-- A synchronisation at an hour of a day, with the meetings from that day on. -/
def councilSync (day hour : Int) (days : List Int) : Sync where
  meeting := some council
  items := some (days.map councilItem)
  resolvedAt := atHour day hour
  now := atHour day hour

def councilOccurrence (day : Int) : SeriesOccurrence where
  occurrenceDate := day
  slotStart := atHour day 9
  slotEnd := atHour day 10
  outlookItemId := some "item"
  outlookChangekey := none
  subject := "Технический совет"
  source := .outlook

/-- The card on the first day; the next synchronisation is on the second day, after its meeting. -/
theorem putsNext_afterTodaysMeeting_fails :
    ¬ PutsNext "series-1" (councilSync 739813 11 [739813, 739814])
      [createEntry "series-1" council (councilOccurrence 739812)] := by
  intro h
  have honTime := onTime_of_putsNext h council
    [councilOccurrence 739813, councilOccurrence 739814] .outlook rfl
    (createEntry "series-1" council (councilOccurrence 739812)) 739812 rfl (by decide) rfl
  have hend := (honTime (councilOccurrence 739813) rfl).1
  exact absurd hend (by decide)

/-- The calendar lists the meetings, and the series is planned in it. -/
theorem resolve_councilSync (day hour day₁ : Int) (days : List Int)
    (h : itemOccurrences "master-1" ((day₁ :: days).map councilItem) =
      some ((day₁ :: days).map councilOccurrence))
    (hsorted : sortBy SeriesOccurrence.slotStart ((day₁ :: days).map councilOccurrence) =
      (day₁ :: days).map councilOccurrence) :
    (councilSync day hour (day₁ :: days)).resolve =
      .ok (.inr (council, (day₁ :: days).map councilOccurrence, .outlook)) := by
  simp only [Sync.resolve, councilSync, council, resolveSeriesOccurrences, outlookOccurrences,
    fetchSeriesOccurrencesFromOutlook, Option.bind_some, h, Option.map_some, hsorted]
  simp [Except.map]

/-- The card of a meeting of the day before is over in the morning, and the next one is to come. -/
theorem onTime_councilSync {day : Int} {days : List Int} (before : RegistryEntry)
    (hresolve : (councilSync day 8 (day :: days)).resolve =
      .ok (.inr (council, (day :: days).map councilOccurrence, .outlook)))
    (hcard : cardOf "series-1" registry = some before)
    (hdate : before.seriesOccurrenceDate = some (day - 1))
    (hpast : entryIsPast before (councilSync day 8 (day :: days)).now = true)
    (hlater : ∀ d ∈ days, day < d) :
    OnTime "series-1" (councilSync day 8 (day :: days)) registry := by
  intro meeting occurrences source hresolve' card date hcard' _ hdate'
  rw [hresolve] at hresolve'
  cases hresolve'
  rw [hcard] at hcard'
  cases hcard'
  rw [hdate] at hdate'
  cases hdate'
  rw [if_pos hpast]
  intro o ho
  have hfirst : o = councilOccurrence day := by
    rw [List.map_cons, List.find?_cons_of_pos (by simp [councilOccurrence])] at ho
    exact (Option.some.inj ho).symm
  constructor
  · rw [hfirst]
    change (day * ticksPerDay + 8 * 3600000000 : Int) ≤ day * ticksPerDay + 10 * 3600000000
    exact Int.add_le_add_left (by decide) _
  · intro o' ho' hold
    obtain ⟨d, hd, rfl⟩ := List.mem_map.mp ho'
    have hge : day ≤ d := by
      rcases List.mem_cons.mp hd with rfl | hd
      · exact le_refl _
      · exact le_of_lt (hlater d hd)
    simp only [councilOccurrence] at hold
    omega

/-- The card is created on the first morning and moved on each morning after. -/
theorem series_card_law_mornings :
    BackOnlyIfMoved "series-1" [] [councilSync 739812 8 [739812, 739813, 739814],
      councilSync 739813 8 [739813, 739814]] (councilSync 739814 8 [739814]) := by
  refine (((series_card_law "series-1").2 [] (councilSync 739812 8 [739812, 739813, 739814])
    [councilSync 739813 8 [739813, 739814]] (councilSync 739814 8 [739814]) rfl ?_ ?_
      ⟨?_, ?_, ?_, trivial⟩)).2
  · decide +kernel
  · decide +kernel
  · intro meeting occurrences source hresolve card date hcard
    cases hcard
  · exact onTime_councilSync (createEntry "series-1" council (councilOccurrence 739812))
      (resolve_councilSync 739813 8 739813 [739814] rfl (by decide +kernel)) (by decide +kernel)
      rfl (by decide) (by decide)
  · exact onTime_councilSync (createEntry "series-1" council (councilOccurrence 739813))
      (resolve_councilSync 739814 8 739814 [] rfl (by decide +kernel)) (by decide +kernel)
      rfl (by decide) (by decide)

end AgentBack.Meetings
