import AgentBack.Laws.Outlook.Reschedule

/-!
# The hints of `attach_reschedule_hints` keep apart

A hint is an answer of a search whose busy data contains the reserved slot and the hints that were
assigned before it, whichever of the two searches it comes from (`groupHint_apart`,
`ownerHint_apart`). The loop over the records therefore keeps the hints of different events apart
(`HintInv`); a record whose event has a hint already repeats that hint.
-/

namespace AgentBack.Outlook

open AgentBack.Span (Covers Holds Apart)
open Text (strip normalize LawfulLower)

/-! ## What the busy data of a search covers -/

variable {duration x : Int} {busyByAttendee : BusyMap} {blockedSlots : List Interval}

/-- A slot that is free of a list shares no instant with it. -/
theorem not_covers_of_free {start : Int} {busyIntervals : List Interval}
    (h : isFreeForAttendee start duration busyIntervals = true)
    (hx : Holds (start, start + duration) x) : ¬ Covers busyIntervals x := by
  rintro ⟨iv, hiv, hivx⟩
  exact Span.apart_of_not_overlap (isFreeForAttendee_iff.mp h iv hiv) x hx hivx

theorem covers_hintBlockedSlots (reservedSlot : Option Interval) (blockedHintSlots : List Interval)
    (x : Int) :
    Covers (hintBlockedSlots reservedSlot blockedHintSlots) x ↔
      Covers (reservedSlot.toList ++ blockedHintSlots) x :=
  covers_coalesce_all _ x

/-- Pruning takes the window out of an interval and nothing else. -/
theorem covers_pruneInterval (excludeStart excludeEnd : Int) (busy : Interval) (x : Int) :
    Covers (pruneInterval excludeStart excludeEnd busy) x ↔
      Holds busy x ∧ ¬ Holds (excludeStart, excludeEnd) x := by
  unfold pruneInterval
  by_cases hout : busy.2 ≤ excludeStart ∨ busy.1 ≥ excludeEnd
  · rw [if_pos hout]
    simp only [Covers, List.mem_singleton, exists_eq_left, Holds]
    omega
  · rw [if_neg hout, Span.covers_append]
    have hleft : Covers (if busy.1 < excludeStart then [(busy.1, excludeStart)] else []) x ↔
        busy.1 ≤ x ∧ x < excludeStart := by
      split
      · simp only [Covers, List.mem_singleton, exists_eq_left, Holds]
      · simp only [Covers, List.not_mem_nil, false_and, exists_false, false_iff]
        omega
    have hright : Covers (if busy.2 > excludeEnd then [(excludeEnd, busy.2)] else []) x ↔
        excludeEnd ≤ x ∧ x < busy.2 := by
      split
      · simp only [Covers, List.mem_singleton, exists_eq_left, Holds]
      · simp only [Covers, List.not_mem_nil, false_and, exists_false, false_iff]
        omega
    rw [hleft, hright]
    simp only [Holds]
    omega

theorem covers_flatMap_pruneInterval (excludeStart excludeEnd : Int) (intervals : List Interval)
    (x : Int) :
    Covers (intervals.flatMap (pruneInterval excludeStart excludeEnd)) x ↔
      Covers intervals x ∧ ¬ Holds (excludeStart, excludeEnd) x := by
  constructor
  · rintro ⟨piece, hpiece, hx⟩
    obtain ⟨busy, hbusy, hmem⟩ := List.mem_flatMap.mp hpiece
    obtain ⟨hin, hout⟩ := (covers_pruneInterval _ _ busy x).mp ⟨piece, hmem, hx⟩
    exact ⟨⟨busy, hbusy, hin⟩, hout⟩
  · rintro ⟨⟨busy, hbusy, hin⟩, hout⟩
    obtain ⟨piece, hmem, hx⟩ :=
      (covers_pruneInterval excludeStart excludeEnd busy x).mpr ⟨hin, hout⟩
    exact ⟨piece, List.mem_flatMap.mpr ⟨busy, hbusy, hmem⟩, hx⟩

/-- What is left of an attendee's intervals covers them outside the window. -/
theorem covers_excludeWindowFromBusy {excludeStart excludeEnd : Int}
    {email : String} {intervals : List Interval} (h : busyByAttendee.get? email = some intervals)
    (x : Int) :
    Covers ((excludeWindowFromBusy busyByAttendee excludeStart excludeEnd).getD email []) x ↔
      Covers intervals x ∧ ¬ Holds (excludeStart, excludeEnd) x := by
  rw [excludeWindowFromBusy, Dict.getD, Dict.get?_mapItems, h, Option.map_some, Option.getD_some,
    covers_coalesce_all, covers_flatMap_pruneInterval]

/-- Blocking slots only adds to what an attendee's intervals cover. -/
theorem covers_applyBlockedSlots {lower : String → String} {owner : Option String} {email : String}
    (h : Covers (busyByAttendee.getD email []) x) :
    Covers ((applyBlockedSlotsToBusy lower busyByAttendee owner blockedSlots).getD email []) x := by
  unfold applyBlockedSlotsToBusy
  cases owner with
  | none => exact h
  | some owner =>
    simp only
    split
    · exact h
    · by_cases hkey : normalize lower owner = email
      · subst hkey
        rw [Dict.getD, Dict.get?_set_self, Option.getD_some, covers_coalesce_all,
          Span.covers_append]
        exact .inl h
      · rw [Dict.getD, Dict.get?_set_ne _ hkey]
        exact h

theorem covers_blocked_applyBlockedSlots {lower : String → String}
    {owner : String} (howner : owner ≠ "")
    (h : Covers blockedSlots x) :
    Covers ((applyBlockedSlotsToBusy lower busyByAttendee (some owner) blockedSlots).getD
      (normalize lower owner) []) x := by
  have hsome : ¬ (blockedSlots = [] ∨ owner = "") := by
    rintro (rfl | he)
    · obtain ⟨iv, hiv, _⟩ := h
      cases hiv
    · exact howner he
  simp only [applyBlockedSlotsToBusy, if_neg hsome]
  rw [Dict.getD, Dict.get?_set_self, Option.getD_some, covers_coalesce_all, Span.covers_append]
  exact .inr h

/-- A slot that is free for all shares no instant with the intervals of any attendee. -/
theorem not_covers_of_freeForAll {start : Int}
    (h : isFreeForAll start duration busyByAttendee = true) (email : String)
    (hx : Holds (start, start + duration) x) : ¬ Covers (busyByAttendee.getD email []) x := by
  rw [Dict.getD]
  cases hget : busyByAttendee.get? email with
  | none =>
    rintro ⟨iv, hiv, _⟩
    cases hiv
  | some intervals =>
    have hfree := List.all_eq_true.mp h intervals (Dict.mem_values_iff.mpr ⟨email, hget⟩)
    exact not_covers_of_free hfree hx

/-- The answer of the group search avoids the blocked slots, and the busy intervals of the group
outside the window of the event. -/
theorem groupHint_apart {fuel : Nat} {lower : String → String}
    {owner : String} (howner : owner ≠ "")
    {eventStart eventEnd step searchEnd c : Int}
    (h : groupHint fuel lower busyByAttendee (some owner) blockedSlots eventStart eventEnd duration
      step searchEnd = some (some c)) (hx : Holds (c, c + duration) x) :
    ¬ Covers blockedSlots x ∧
      ∀ intervals ∈ busyByAttendee.values, Covers intervals x →
        Holds (eventStart, eventEnd) x := by
  have hfree := (searchHint_sound h).2
  refine ⟨fun hb => ?_, fun intervals hmem hcov => ?_⟩
  · exact not_covers_of_freeForAll hfree (normalize lower owner) hx
      (covers_blocked_applyBlockedSlots howner hb)
  · obtain ⟨email, hget⟩ := Dict.mem_values_iff.mp hmem
    by_contra hwindow
    have hleft := (covers_excludeWindowFromBusy hget x).mpr ⟨hcov, hwindow⟩
    exact not_covers_of_freeForAll hfree email hx (covers_applyBlockedSlots hleft)

/-- The answer of the owner's search avoids the blocked slots and the owner's intervals. -/
theorem ownerHint_apart {fuel : Nat} {busyIntervals : List Interval}
    {eventEnd step searchEnd c : Int}
    (h : ownerHint fuel busyIntervals blockedSlots eventEnd duration step searchEnd =
      some (some c)) (hx : Holds (c, c + duration) x) :
    ¬ Covers blockedSlots x ∧ ¬ Covers busyIntervals x := by
  have hfree := not_covers_of_free (searchHint_sound h).2 hx
  rw [covers_coalesce_all, Span.covers_append] at hfree
  exact ⟨fun hb => hfree (.inr hb), fun hb => hfree (.inl hb)⟩

/-! ## The hint of one event -/

section Hints

variable (fuel : Nat) (lower : String → String) (fromIsoFormat : String → Option Int)
  (exchange : Exchange) (request : HintRequest)

/-- The group's busy data for an event, when its hint is searched in a group. -/
def HintRequest.groupBusy (event : HintEvent) : Option BusyMap :=
  hintGroupBusy lower exchange event.stop request.searchEnd (some request.ownerEmail)
    event.attendees (skipGroupBusyFetchForHint lower request.lightHints event.attendees)

def HintRequest.ownerBusy (event : HintEvent) : List Interval :=
  busyIntervalsForHint lower exchange request.ownerEmail event.stop request.searchEnd
    request.busyIntervals !(skipGroupBusyFetchForHint lower request.lightHints event.attendees)

/-- The answer of the group search in given data, when some slots are blocked. -/
def HintRequest.groupAnswer (assigned : List Interval) (event : HintEvent)
    (busyByAttendee : BusyMap) : Option (Option Int) :=
  groupHint fuel lower busyByAttendee (hintOwner lower (some request.ownerEmail))
    (hintBlockedSlots request.reservedSlot assigned) event.start event.stop
    (hintDuration event.start event.stop) request.step request.searchEnd

/-- The busy data that a hint was checked against: the group's, outside the window of the event,
when the group search answered the hint, and the owner's when there was no group search or it
found nothing. -/
inductive Consulted (assigned : List Interval) (event : HintEvent) (hint : Interval) : Prop where
  | group (busyByAttendee : BusyMap)
      (fetched : request.groupBusy lower exchange event = some busyByAttendee)
      (answered : request.groupAnswer fuel lower assigned event busyByAttendee =
        some (some hint.1))
      (free : ∀ intervals ∈ busyByAttendee.values, ∀ x, Holds hint x → Covers intervals x →
        Holds (event.start, event.stop) x)
  | owner
      (unanswered : ∀ busyByAttendee, request.groupBusy lower exchange event =
        some busyByAttendee → request.groupAnswer fuel lower assigned event busyByAttendee =
          some none)
      (free : ∀ x, Holds hint x → ¬ Covers (request.ownerBusy lower exchange event) x)

/-- What the search for the hint of an event guarantees. -/
structure Checked (assigned : List Interval) (event : HintEvent) (hint : Interval) : Prop where
  length : hint.2 = hint.1 + hintDuration event.start event.stop
  rules : slotRespectsRules hint.1 (hint.2 - hint.1) = true
  reserved : ∀ slot ∈ request.reservedSlot, Apart hint slot
  earlier : ∀ other ∈ assigned, Apart hint other
  consulted : Consulted fuel lower exchange request assigned event hint

variable {fuel lower fromIsoFormat exchange request}

theorem hintOwner_of_not_blank (hlower : LawfulLower lower) {email : String}
    (h : strip email ≠ "") :
    normalize lower email ≠ "" ∧ hintOwner lower (some email) = some (normalize lower email) := by
  have hne : normalize lower email ≠ "" := hlower.ne_empty _ h
  refine ⟨hne, ?_⟩
  simp only [hintOwner, Option.getD_some, Option.filter_some, decide_eq_true hne, if_true]

variable {assigned : List Interval} {record : ConflictRecord} {s : HintState}

/-- A slot that avoids the blocked slots is apart from the reserved slot and the earlier hints. -/
private theorem apart_of_not_blocked {reservedSlot : Option Interval} (hint : Interval)
    (h : ∀ x, Holds hint x → ¬ Covers (hintBlockedSlots reservedSlot assigned) x) :
    (∀ slot ∈ reservedSlot, Apart hint slot) ∧ ∀ other ∈ assigned, Apart hint other := by
  have key : ∀ iv ∈ reservedSlot.toList ++ assigned, Apart hint iv := by
    intro iv hiv x hx hivx
    exact h x hx ((covers_hintBlockedSlots _ _ x).mpr ⟨iv, hiv, hivx⟩)
  exact ⟨fun slot hslot => key slot (List.mem_append_left _ (Option.mem_toList.mpr hslot)),
    fun other hother => key other (List.mem_append_right _ hother)⟩

private theorem checked_of_group (hlower : LawfulLower lower)
    (howner : strip request.ownerEmail ≠ "") {event : HintEvent}
    {busyByAttendee : BusyMap} {c : Int}
    (fetched : request.groupBusy lower exchange event = some busyByAttendee)
    (answered : request.groupAnswer fuel lower assigned event busyByAttendee = some (some c)) :
    Checked fuel lower exchange request assigned event
      (c, c + hintDuration event.start event.stop) := by
  obtain ⟨hne, hown⟩ := hintOwner_of_not_blank hlower howner
  have hgroup := answered
  rw [HintRequest.groupAnswer, hown] at hgroup
  have hrules := (searchHint_sound hgroup).1
  obtain ⟨hres, hass⟩ := apart_of_not_blocked
    (c, c + hintDuration event.start event.stop) fun x hx => (groupHint_apart hne hgroup hx).1
  refine ⟨rfl, ?_, hres, hass, .group busyByAttendee fetched answered fun intervals hmem x hx => ?_⟩
  · simpa only [add_sub_cancel_left] using hrules
  · exact (groupHint_apart hne hgroup hx).2 intervals hmem

private theorem checked_of_owner {event : HintEvent} {c : Int}
    (unanswered : ∀ busyByAttendee, request.groupBusy lower exchange event =
      some busyByAttendee → request.groupAnswer fuel lower assigned event busyByAttendee =
        some none)
    (answered : ownerHint fuel (request.ownerBusy lower exchange event)
      (hintBlockedSlots request.reservedSlot assigned) event.stop
      (hintDuration event.start event.stop) request.step request.searchEnd = some (some c)) :
    Checked fuel lower exchange request assigned event
      (c, c + hintDuration event.start event.stop) := by
  have hrules := (searchHint_sound answered).1
  obtain ⟨hres, hass⟩ := apart_of_not_blocked
    (c, c + hintDuration event.start event.stop) fun x hx => (ownerHint_apart answered hx).1
  refine ⟨rfl, ?_, hres, hass, .owner unanswered fun x hx => (ownerHint_apart answered hx).2⟩
  simpa only [add_sub_cancel_left] using hrules

theorem newHint_checked (hlower : LawfulLower lower) (howner : strip request.ownerEmail ≠ "") {event : HintEvent} {hint : Interval}
    (h : newHint fuel lower exchange request assigned event = some (some hint)) :
    Checked fuel lower exchange request assigned event hint := by
  unfold newHint resolveHint at h
  simp only at h
  obtain ⟨first, hfirst, hrest⟩ := Option.bind_eq_some_iff.mp h
  rcases suggestRescheduleWindow_cases hfirst with
    ⟨busyByAttendee, c, fetched, answered, rfl⟩ | ⟨unanswered, found, hfound, rfl⟩
  · cases Option.some.inj hrest
    exact checked_of_group hlower howner fetched answered
  · cases found with
    | some c =>
      cases Option.some.inj hrest
      exact checked_of_owner unanswered hfound
    | none =>
      -- the second call searches for the owner alone
      simp only [Option.map_none, Option.isSome_none, Bool.false_eq_true, false_or] at hrest
      split at hrest
      · cases hrest
      · rcases suggestRescheduleWindow_cases hrest with
          ⟨busyByAttendee, c, fetched, _, _⟩ | ⟨_, found, hfound, hhint⟩
        · simp only [hintGroupBusy, not_true_eq_false, and_false, if_false, reduceCtorEq] at fetched
        · obtain ⟨c, rfl, rfl⟩ := Option.map_eq_some_iff.mp hhint.symm
          exact checked_of_owner unanswered hfound

/-! ## The loop over the records -/

def EventOf (fromIsoFormat : String → Option Int) (record : ConflictRecord) (event : HintEvent) :
    Prop :=
  fromIsoFormat record.eventStart = some event.start ∧
    fromIsoFormat record.eventEnd = some event.stop ∧
    event.attendees = record.eventAttendees.getD []

variable (fuel lower fromIsoFormat exchange request) in
/-- A hint of a record was found for the first record of the same event. -/
def HintFor (conflicts : List HintedRecord) (record : ConflictRecord) (hint : Interval) : Prop :=
  ∃ first ∈ conflicts, eventKey first.record = eventKey record ∧
    ∃ assigned event, EventOf fromIsoFormat first.record event ∧
      Checked fuel lower exchange request assigned event hint

variable (fuel lower fromIsoFormat exchange request) in
/-- The invariant of the loop: the dictionary knows the hint of every event seen and of no other,
the hints are blocked for later events, those of different events are apart, and each was found
for its event. -/
structure HintInv (s : HintState) : Prop where
  known : ∀ key hint, s.hintsByEvent.get? key = some hint ↔
    ∃ a ∈ s.conflicts, eventKey a.record = key ∧ a.hint = hint
  blocked : ∀ a ∈ s.conflicts, ∀ hint ∈ a.hint, hint ∈ s.assignedHints
  apart : ∀ a ∈ s.conflicts, ∀ b ∈ s.conflicts, eventKey a.record ≠ eventKey b.record →
    ∀ x ∈ a.hint, ∀ y ∈ b.hint, Apart x y
  found : ∀ a ∈ s.conflicts, ∀ hint ∈ a.hint,
    HintFor fuel lower fromIsoFormat exchange request s.conflicts a.record hint

theorem HintInv.nil : HintInv fuel lower fromIsoFormat exchange request ⟨[], [], ∅⟩ where
  known key hint := by simp
  blocked a ha := by cases ha
  apart a ha := by cases ha
  found a ha := by cases ha

theorem HintFor.mono {conflicts conflicts' : List HintedRecord}
    {hint : Interval} (hsub : conflicts ⊆ conflicts')
    (h : HintFor fuel lower fromIsoFormat exchange request conflicts record hint) :
    HintFor fuel lower fromIsoFormat exchange request conflicts' record hint := by
  obtain ⟨first, hmem, hrest⟩ := h
  exact ⟨first, hsub hmem, hrest⟩

theorem mem_append_conflicts {hint : Option Interval} {a : HintedRecord} :
    a ∈ (s.append lower record hint).conflicts ↔
      a ∈ s.conflicts ∨ a = hintedRecord lower record hint := by
  simp only [HintState.append, List.mem_append, List.mem_singleton]

/-- The dictionary keeps knowing the hint of every event seen. -/
private theorem HintInv.known_append
    {hint : Option Interval} (h : HintInv fuel lower fromIsoFormat exchange request s)
    (same : ∀ old, s.hintsByEvent.get? (eventKey record) = some old → old = hint)
    (key : String × String × String) (found : Option Interval) :
    (s.append lower record hint).hintsByEvent.get? key = some found ↔
      ∃ a ∈ (s.append lower record hint).conflicts, eventKey a.record = key ∧ a.hint = found := by
  have hset : (s.append lower record hint).hintsByEvent.get? key =
      if eventKey record = key then some hint else s.hintsByEvent.get? key :=
    Dict.get?_set _ _ _ _
  rw [hset]
  by_cases hkey : eventKey record = key
  · rw [if_pos hkey]
    constructor
    · rintro ⟨⟩
      exact ⟨_, mem_append_conflicts.mpr (.inr rfl), hkey, rfl⟩
    · rintro ⟨a, ha, hak, hah⟩
      rcases mem_append_conflicts.mp ha with ha | rfl
      · have hold := same found ((h.known _ _).mpr ⟨a, ha, hak.trans hkey.symm, hah⟩)
        rw [hold]
      · exact congrArg some hah
  · rw [if_neg hkey, h.known]
    constructor
    · rintro ⟨a, ha, hak, hah⟩
      exact ⟨a, mem_append_conflicts.mpr (.inl ha), hak, hah⟩
    · rintro ⟨a, ha, hak, hah⟩
      rcases mem_append_conflicts.mp ha with ha | rfl
      · exact ⟨a, ha, hak, hah⟩
      · exact absurd hak hkey

/-- Appending a record keeps the invariant when its event has this hint or none yet, and the hint
is apart from those of the other events. -/
theorem HintInv.append {hint : Option Interval}
    (h : HintInv fuel lower fromIsoFormat exchange request s)
    (same : ∀ old, s.hintsByEvent.get? (eventKey record) = some old → old = hint)
    (apart : ∀ a ∈ s.conflicts, eventKey a.record ≠ eventKey record →
      ∀ x ∈ a.hint, ∀ y ∈ hint, Apart x y)
    (found : ∀ x ∈ hint, HintFor fuel lower fromIsoFormat exchange request
      (s.append lower record hint).conflicts record x) :
    HintInv fuel lower fromIsoFormat exchange request (s.append lower record hint) := by
  constructor
  · exact h.known_append same
  · intro a ha x hx
    apply List.mem_append.mpr
    rcases mem_append_conflicts.mp ha with ha | rfl
    · exact .inl (h.blocked a ha x hx)
    · exact .inr (Option.mem_toList.mpr hx)
  · intro a ha b hb hne x hx y hy
    rcases mem_append_conflicts.mp ha with ha | rfl <;>
      rcases mem_append_conflicts.mp hb with hb | rfl
    · exact h.apart a ha b hb hne x hx y hy
    · exact apart a ha hne x hx y hy
    · exact (apart b hb (Ne.symm hne) y hy x hx).symm
    · exact absurd rfl hne
  · intro a ha x hx
    rcases mem_append_conflicts.mp ha with ha | rfl
    · exact (h.found a ha x hx).mono (List.subset_append_left _ _)
    · exact found x hx

/-- One round keeps the invariant and appends its record. -/
theorem attachRecord_inv (hlower : LawfulLower lower) (howner : strip request.ownerEmail ≠ "")
    {s' : HintState}
    (hs : HintInv fuel lower fromIsoFormat exchange request s)
    (h : attachRecord fuel lower fromIsoFormat exchange request s record = some (.ok s')) :
    HintInv fuel lower fromIsoFormat exchange request s' ∧
      s'.conflicts.map HintedRecord.record = s.conflicts.map HintedRecord.record ++ [record] := by
  have happend : ∀ hint, (s.append lower record hint).conflicts.map HintedRecord.record =
      s.conflicts.map HintedRecord.record ++ [record] := fun hint => by
    simp only [HintState.append, List.map_append, List.map_cons, List.map_nil, hintedRecord]
  unfold attachRecord at h
  split at h
  · next eventStart eventEnd hstart hend =>
    split at h
    · next hint hknown =>
      -- the event has a hint already
      obtain rfl := Except.ok.inj (Option.some.inj h)
      refine ⟨hs.append (fun old hold => ?_) (fun a ha hne x hx y hy => ?_) fun x hx => ?_,
        happend hint⟩
      · rw [hknown] at hold
        exact (Option.some.inj hold).symm
      · obtain ⟨b, hb, hkey, rfl⟩ := (hs.known _ _).mp hknown
        exact hs.apart a ha b hb (hkey ▸ hne) x hx y hy
      · obtain ⟨b, hb, hkey, rfl⟩ := (hs.known _ _).mp hknown
        obtain ⟨first, hfirst, hsame, hrest⟩ := hs.found b hb x hx
        exact ⟨first, List.mem_append_left _ hfirst, hsame.trans hkey, hrest⟩
    · next hnew =>
      obtain ⟨hint, hhint, hok⟩ := Option.map_eq_some_iff.mp h
      obtain rfl := Except.ok.inj hok
      have hchecked : ∀ x ∈ hint, Checked fuel lower exchange request s.assignedHints
          ⟨eventStart, eventEnd, record.eventAttendees.getD []⟩ x := by
        rintro x hx
        rw [Option.mem_def.mp hx] at hhint
        exact newHint_checked hlower howner hhint
      refine ⟨hs.append (fun old hold => ?_) (fun a ha _ x hx y hy => ?_) fun x hx => ?_,
        happend hint⟩
      · rw [hnew] at hold
        cases hold
      · exact ((hchecked y hy).earlier x (hs.blocked a ha x hx)).symm
      · exact ⟨hintedRecord lower record hint, List.mem_append_right _ (List.mem_singleton.mpr rfl),
          rfl, s.assignedHints, ⟨eventStart, eventEnd, record.eventAttendees.getD []⟩,
          ⟨hstart, hend, rfl⟩, hchecked x hx⟩
  · cases h

/-- So does the loop over the records that are left. -/
theorem attachRecords_inv (hlower : LawfulLower lower) (howner : strip request.ownerEmail ≠ "")
    {records : List ConflictRecord} {s' : HintState}
    (hs : HintInv fuel lower fromIsoFormat exchange request s)
    (h : attachRecords fuel lower fromIsoFormat exchange request records s = some (.ok s')) :
    HintInv fuel lower fromIsoFormat exchange request s' ∧
      s'.conflicts.map HintedRecord.record = s.conflicts.map HintedRecord.record ++ records := by
  induction records generalizing s with
  | nil =>
    obtain rfl := Except.ok.inj (Option.some.inj h)
    exact ⟨hs, (List.append_nil _).symm⟩
  | cons record rest ih =>
    rw [attachRecords] at h
    obtain ⟨outcome, hround, hrest⟩ := Option.bind_eq_some_iff.mp h
    cases outcome with
    | error fault => cases hrest
    | ok mid =>
      obtain ⟨hmid, hrecords⟩ := attachRecord_inv hlower howner hs hround
      obtain ⟨hinv, hall⟩ := ih hmid hrest
      refine ⟨hinv, hall.trans ?_⟩
      rw [hrecords, List.append_assoc, List.singleton_append]

variable (fuel lower fromIsoFormat exchange request) in
/-- Every record keeps its place; the hints of different events share no instant; and every hint
was found for an event of its key: it respects the rules, and it shares no instant with the
reserved slot or with the busy intervals that were consulted. -/
theorem attachRescheduleHints_apart (hlower : LawfulLower lower)
    (howner : strip request.ownerEmail ≠ "") (records : List ConflictRecord)
    (conflicts : List HintedRecord)
    (h : attachRescheduleHints fuel lower fromIsoFormat exchange request records =
      some (.ok conflicts)) :
    conflicts.map HintedRecord.record = records ∧
      (∀ a ∈ conflicts, ∀ b ∈ conflicts, eventKey a.record ≠ eventKey b.record →
        ∀ x ∈ a.hint, ∀ y ∈ b.hint, Apart x y) ∧
      ∀ a ∈ conflicts, ∀ hint ∈ a.hint,
        HintFor fuel lower fromIsoFormat exchange request conflicts a.record hint := by
  obtain ⟨outcome, hrun, hout⟩ := Option.map_eq_some_iff.mp h
  cases outcome with
  | error fault => cases hout
  | ok s =>
    obtain rfl := Except.ok.inj hout
    obtain ⟨hinv, hrecords⟩ := attachRecords_inv hlower howner HintInv.nil hrun
    exact ⟨hrecords, hinv.apart, hinv.found⟩

end Hints

def calendarRecord (eventStart eventEnd subject : String) : ConflictRecord where
  eventStart
  eventEnd
  eventSubject := some subject
  busyType := some "Busy"
  source := some "calendar"
  movability := some "medium"
  eventAttendees := none

def mondayClock : String → Option Int
  | "10:00" => some (10 * hour)
  | "10:30" => some (10 * hour + 30 * minute)
  | "11:00" => some (11 * hour)
  | _ => none

/-- Both events are in the way of a meeting at 10:00; its slot is reserved. -/
def morningRequest : HintRequest where
  ownerEmail := "a@x"
  busyIntervals := [(10 * hour, 10 * hour + 30 * minute), (10 * hour + 30 * minute, 11 * hour)]
  step := 30 * minute
  searchEnd := 2 * day
  reservedSlot := some (10 * hour, 11 * hour)
  lightHints := false

def silentExchange : Exchange where
  getFreeBusyInfo _ _ _ := .error "timeout"
  calendarView _ _ _ _ := .error "timeout"

/-- The two events move to 11:00 and to 11:30, apart from each other. -/
theorem attachRescheduleHints_apart_morning :
    ∃ conflicts, attachRescheduleHints 5 String.toLower mondayClock silentExchange morningRequest
        [calendarRecord "10:00" "10:30" "Sync", calendarRecord "10:30" "11:00" "Review"] =
          some (.ok conflicts) ∧
      conflicts.map HintedRecord.hint = [some (11 * hour, 11 * hour + 30 * minute),
        some (11 * hour + 30 * minute, 12 * hour)] ∧
      ∀ a ∈ conflicts, ∀ b ∈ conflicts, eventKey a.record ≠ eventKey b.record →
        ∀ x ∈ a.hint, ∀ y ∈ b.hint, Apart x y := by
  have hrun : (attachRescheduleHints 5 String.toLower mondayClock silentExchange morningRequest
      [calendarRecord "10:00" "10:30" "Sync", calendarRecord "10:30" "11:00" "Review"]).map
        (fun outcome => outcome.toOption.map (List.map HintedRecord.hint)) =
          some (some [some (11 * hour, 11 * hour + 30 * minute),
            some (11 * hour + 30 * minute, 12 * hour)]) := by decide +kernel
  obtain ⟨outcome, hattach, hhints⟩ := Option.map_eq_some_iff.mp hrun
  cases outcome with
  | error fault => cases hhints
  | ok conflicts =>
    exact ⟨conflicts, hattach, Option.some.inj hhints,
      (attachRescheduleHints_apart 5 String.toLower mondayClock silentExchange morningRequest
        Text.lawful_toLower (by decide +kernel) _ conflicts hattach).2.1⟩

end AgentBack.Outlook
