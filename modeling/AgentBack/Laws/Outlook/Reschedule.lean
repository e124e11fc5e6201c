import AgentBack.Laws.Outlook.Busy
import AgentBack.Outlook.Conflicts

/-!
# Where `suggest_reschedule_window` may move a meeting

Both searches of `suggest_reschedule_window` walk along the candidates that `advance_candidate`
produces from the end of the event (`searchHint_run`), so a hint is before the end of its event
only when an advance goes back, from a Saturday before 08:00 to Friday 08:00, and past that end.
Only the first two advances can do that (`hint_not_before`): a candidate that lies two steps
after the event and a step before Saturday has its Friday opening after the event already.
-/

namespace AgentBack.Outlook

variable {fuel : Nat} {free : Int → Bool} {duration step searchEnd c eventEnd : Int}

/-- One pass stops at the end of the search, answers a free slot, or advances. -/
theorem hintPass_cases
    {p : Pass Int (Option Int)} (h : hintPass fuel free duration step searchEnd c = some p) :
    (p = .ret none ∧ searchEnd ≤ c) ∨
      (p = .ret (some c) ∧ c < searchEnd ∧ slotRespectsRules c duration = true ∧
        free c = true) ∨
      ∃ c', p = .again c' ∧ advanceCandidate fuel c step duration = some c' := by
  unfold hintPass at h
  split at h
  · next hin =>
    split at h
    · next hok =>
      obtain ⟨hrules, hfree⟩ := Bool.and_eq_true_iff.mp hok
      exact .inr (.inl ⟨(Option.some.inj h).symm, hin, hrules, hfree⟩)
    · obtain ⟨c', hc', hp⟩ := Option.map_eq_some_iff.mp h
      exact .inr (.inr ⟨c', hp.symm, hc'⟩)
  · next hout => exact .inl ⟨(Option.some.inj h).symm, not_lt.mp hout⟩

/-- What holds of the first candidate and of every next one holds of the answer, which is a free
slot that respects the rules. -/
theorem searchHint_run (Inv : Int → Prop)
    (first : ∀ c, advanceCandidate fuel eventEnd step duration = some c → Inv c)
    (next : ∀ c c', Inv c → advanceCandidate fuel c step duration = some c' → Inv c')
    (h : searchHint fuel free eventEnd duration step searchEnd = some (some c)) :
    Inv c ∧ slotRespectsRules c duration = true ∧ free c = true := by
  obtain ⟨c₀, hc₀, hrun⟩ := Option.bind_eq_some_iff.mp h
  refine Pass.run_inv Inv
    (fun r => ∀ c, r = some c → Inv c ∧ slotRespectsRules c duration = true ∧ free c = true)
    (fun s s' hs hpass => ?_) (fun s r hs hpass => ?_) (first c₀ hc₀) hrun c rfl
  · rcases hintPass_cases hpass with ⟨hp, _⟩ | ⟨hp, _⟩ | ⟨c', hp, hadv⟩
    · cases hp
    · cases hp
    · cases hp
      exact next s s' hs hadv
  · rcases hintPass_cases hpass with ⟨hp, _⟩ | ⟨hp, _, hok⟩ | ⟨c', hp, _⟩
    · cases hp
      rintro c ⟨⟩
    · cases hp
      rintro c ⟨⟩
      exact ⟨hs, hok⟩
    · cases hp

/-- The answer of a search respects the rules and is free. -/
theorem searchHint_sound
    (h : searchHint fuel free eventEnd duration step searchEnd = some (some c)) :
    slotRespectsRules c duration = true ∧ free c = true :=
  (searchHint_run (fun _ => True) (fun _ _ => trivial) (fun _ _ _ _ => trivial) h).2

theorem hintPass_steady (free : Int → Bool) (duration step searchEnd c : Int) :
    Steady fun fuel => hintPass fuel free duration step searchEnd c := by
  unfold hintPass
  refine Steady.ite (Steady.ite (Steady.const _) ?_) (Steady.const _)
  exact (advanceCandidate_steady c step duration).map _

theorem hintDuration_pos (eventStart eventEnd : Int) : 0 < hintDuration eventStart eventEnd := by
  unfold hintDuration
  simp only
  split
  · decide
  · next h => exact not_le.mp h

/-- The answer is that of the group search, or, when there is no group search or it finds nothing,
that of the owner's search. -/
theorem suggestRescheduleWindow_cases {lower : String → String} {exchange : Exchange}
    {eventStart : Int} {busyIntervals : List Interval}
    {reservedSlot : Option Interval} {blockedHintSlots : List Interval}
    {ownerEmail : Option String} {meetingAttendees : List String} {skipGroupBusyFetch : Bool}
    {answer : Option Interval}
    (h : suggestRescheduleWindow fuel lower exchange eventStart eventEnd busyIntervals step
      searchEnd reservedSlot blockedHintSlots ownerEmail meetingAttendees skipGroupBusyFetch =
        some answer) :
    (∃ busyByAttendee c, hintGroupBusy lower exchange eventEnd searchEnd ownerEmail
        meetingAttendees skipGroupBusyFetch = some busyByAttendee ∧
      groupHint fuel lower busyByAttendee (hintOwner lower ownerEmail)
        (hintBlockedSlots reservedSlot blockedHintSlots) eventStart eventEnd
        (hintDuration eventStart eventEnd) step searchEnd = some (some c) ∧
      answer = some (c, c + hintDuration eventStart eventEnd)) ∨
    ((∀ busyByAttendee, hintGroupBusy lower exchange eventEnd searchEnd ownerEmail
        meetingAttendees skipGroupBusyFetch = some busyByAttendee →
      groupHint fuel lower busyByAttendee (hintOwner lower ownerEmail)
        (hintBlockedSlots reservedSlot blockedHintSlots) eventStart eventEnd
        (hintDuration eventStart eventEnd) step searchEnd = some none) ∧
      ∃ found, ownerHint fuel busyIntervals (hintBlockedSlots reservedSlot blockedHintSlots)
        eventEnd (hintDuration eventStart eventEnd) step searchEnd = some found ∧
      answer = found.map fun c => (c, c + hintDuration eventStart eventEnd)) := by
  unfold suggestRescheduleWindow at h
  simp only at h
  split at h
  · next hgroup =>
    obtain ⟨found, hfound, hanswer⟩ := Option.map_eq_some_iff.mp h
    refine .inr ⟨fun busyByAttendee hbusy => ?_, found, hfound, hanswer.symm⟩
    rw [hgroup] at hbusy
    cases hbusy
  · next busyByAttendee hgroup =>
    obtain ⟨answered, hanswered, hrest⟩ := Option.bind_eq_some_iff.mp h
    cases answered with
    | none =>
      obtain ⟨found, hfound, hanswer⟩ := Option.map_eq_some_iff.mp hrest
      refine .inr ⟨fun busy hbusy => ?_, found, hfound, hanswer.symm⟩
      rw [hgroup] at hbusy
      exact Option.some.inj hbusy ▸ hanswered
    | some c => exact .inl ⟨busyByAttendee, c, hgroup, hanswered, (Option.some.inj hrest).symm⟩

/-! ## Back to Friday -/

/-- An advance that starts its loop at `x` goes back before `limit`. -/
def FallsBehind (limit x : Int) : Prop := SaturdayNight x ∧ openingBefore x < limit

instance (limit x : Int) : Decidable (FallsBehind limit x) := inferInstanceAs (Decidable (_ ∧ _))

/-- The first or the second advance of the search goes back before the end of the event, for a
meeting that fits a morning or an afternoon. -/
def StepsBack (eventEnd duration step : Int) : Prop :=
  duration ≤ 4 * hour ∧
    (FallsBehind eventEnd (eventEnd + step) ∨
      (Admissible duration (eventEnd + step) ∧ FallsBehind eventEnd (eventEnd + 2 * step)))

private instance (duration x : Int) : Decidable (Admissible duration x) :=
  decidable_of_iff (isWorkday x = true ∧ workStart ≤ time x ∧ x ≤ combine x workEnd - duration)
    ⟨fun h => ⟨h.1, h.2.1, h.2.2⟩, fun h => ⟨h.workday, h.opened, h.fits⟩⟩

instance (eventEnd duration step : Int) : Decidable (StepsBack eventEnd duration step) :=
  inferInstanceAs (Decidable (_ ∧ _))

/-- Lunch leaves two working spans of four hours. -/
theorem short_of_respects {start : Int} (hdur : 0 < duration)
    (h : slotRespectsRules start duration = true) : duration ≤ 4 * hour := by
  obtain ⟨_, hopen, hclose, hlunch⟩ := (slotRespectsRules_iff hdur).mp h
  simp only [workStart, workEnd, hour] at *
  omega

/-- The advance leaves its starting point only for an opening. -/
theorem landing_eq_or_opening (duration x : Int) :
    landing duration x = x ∨ combine (landing duration x) workStart = landing duration x := by
  unfold landing
  split
  · exact .inr (opening_eq (nextWorkdayStart_spec _).opening)
  · split
    · exact .inr (opening_eq (time_opening x))
    · split
      · exact .inr (opening_eq (nextWorkdayStart_spec _).opening)
      · exact .inl rfl

theorem combine_openingBefore (x : Int) :
    combine (openingBefore x) workStart = openingBefore x :=
  opening_eq (time_opening (x - day))

theorem combine_mono {x y : Int} (clock : Int) (h : x ≤ y) : combine x clock ≤ combine y clock := by
  have hmul := midnight_mono (date_mono h)
  simp only [combine]
  omega

/-- A working instant before a Saturday is on the Friday at the latest. -/
private theorem date_before_saturday {x : Int} (hadm : Admissible duration c)
    (hle : c ≤ x) (hsat : SaturdayNight x) : date c ≤ date x - 1 := by
  have hw := isWorkday_iff.mp hadm.workday
  have h5 := hsat.1
  have hd := date_mono hle
  have hne : date c ≠ date x := by
    intro he
    simp only [weekday, he] at hw h5
    omega
  omega

/-- The invariant of the candidates: not before the end of the event, and either the day opens
after that end, or this is the first candidate, or two steps are made. -/
structure AfterEvent (eventEnd duration step c : Int) : Prop where
  admissible : Admissible duration c
  after : eventEnd ≤ c
  far : eventEnd ≤ combine c workStart ∨ c = eventEnd + step ∨ eventEnd + 2 * step ≤ c

/-- A step from two steps after the event into a Saturday goes back to an opening after it. -/
private theorem opening_after_two_steps (hdur : 0 < duration)
    (hstep : 0 < step) (hadm : Admissible duration c) (hfar : eventEnd + 2 * step ≤ c)
    (hsat : SaturdayNight (c + step)) : eventEnd ≤ openingBefore (c + step) := by
  have hd := date_before_saturday hadm (by omega) hsat
  have hfits := fits_iff.mp hadm.fits
  have hc := eq_date_add_time c
  have hx := eq_date_add_time (c + step)
  have ht := time_nonneg (c + step)
  have hct := time_nonneg c
  have hmul := midnight_mono hd
  simp only [openingBefore, combine, date_sub_day]
  -- the day of `c` ends seven hours after its last meeting, so the step is that long
  rw [Int.sub_mul] at hmul ⊢
  simp only [workEnd, workStart, hour, day] at *
  omega

theorem afterEvent_first (hlen : duration ≤ workDay)
    (hstep : 0 < step) (hback : ¬ FallsBehind eventEnd (eventEnd + step)) :
    AfterEvent eventEnd duration step (landing duration (eventEnd + step)) := by
  have hadm := landing_admissible hlen (eventEnd + step)
  by_cases hsat : SaturdayNight (eventEnd + step)
  · have hopen : eventEnd ≤ openingBefore (eventEnd + step) :=
      not_lt.mp fun hlt => hback ⟨hsat, hlt⟩
    rw [landing_of_saturdayNight hsat] at hadm ⊢
    exact ⟨hadm, hopen, .inl ((combine_openingBefore _).symm ▸ hopen)⟩
  · have hle := (@landing_spec _ duration hsat).1
    refine ⟨hadm, by omega, ?_⟩
    rcases landing_eq_or_opening duration (eventEnd + step) with he | he
    · exact .inr (.inl he)
    · apply Or.inl
      rw [he]
      omega

theorem AfterEvent.next (hlen : duration ≤ workDay) (hdur : 0 < duration) (hstep : 0 < step)
    (hback : Admissible duration (eventEnd + step) → ¬ FallsBehind eventEnd (eventEnd + 2 * step))
    (h : AfterEvent eventEnd duration step c) :
    AfterEvent eventEnd duration step (landing duration (c + step)) := by
  have hadm := landing_admissible hlen (c + step)
  by_cases hsat : SaturdayNight (c + step)
  · have hopen : eventEnd ≤ openingBefore (c + step) := by
      rcases h.far with hday | hfirst | hfar
      · have hd := date_before_saturday h.admissible (by omega) hsat
        have hmul := midnight_mono hd
        simp only [openingBefore, combine, date_sub_day] at hday ⊢
        omega
      · have h2 : c + step = eventEnd + 2 * step := by omega
        rw [h2] at hsat ⊢
        exact not_lt.mp fun hlt => hback (hfirst ▸ h.admissible) ⟨hsat, hlt⟩
      · exact opening_after_two_steps hdur hstep h.admissible hfar hsat
    rw [landing_of_saturdayNight hsat] at hadm ⊢
    exact ⟨hadm, hopen, .inl ((combine_openingBefore _).symm ▸ hopen)⟩
  · have hle := (@landing_spec _ duration hsat).1
    have hafter := h.after
    refine ⟨hadm, by omega, ?_⟩
    rcases h.far with hday | hfirst | hfar
    · exact .inl (le_trans hday (combine_mono workStart (by omega)))
    · exact .inr (.inr (by omega))
    · exact .inr (.inr (by omega))

/-- Unless the search steps back, its answer is not before the end of the event. -/
theorem hint_not_before (hdur : 0 < duration) (hstep : 0 < step)
    (hback : ¬ StepsBack eventEnd duration step)
    (h : searchHint fuel free eventEnd duration step searchEnd = some (some c)) :
    eventEnd ≤ c := by
  have hshort := short_of_respects hdur (searchHint_sound h).1
  have hlen : duration ≤ workDay := le_trans hshort (by decide)
  have hfirst : ¬ FallsBehind eventEnd (eventEnd + step) :=
    fun hf => hback ⟨hshort, .inl hf⟩
  have hsecond : Admissible duration (eventEnd + step) →
      ¬ FallsBehind eventEnd (eventEnd + 2 * step) :=
    fun hadm hf => hback ⟨hshort, .inr ⟨hadm, hf⟩⟩
  refine (searchHint_run (AfterEvent eventEnd duration step) ?_ ?_ h).1.after
  · intro c hc
    rw [advanceCandidate_eq_landing hlen hc]
    exact afterEvent_first hlen hstep hfirst
  · intro c c' hinv hc
    rw [advanceCandidate_eq_landing hlen hc]
    exact hinv.next hlen hdur hstep hsecond

/-! ## The step back happens -/

theorem coalesceIntervals_singleton {iv : Interval} (h : iv.1 < iv.2) :
    coalesceIntervals [iv] none none = [iv] := by
  have hclip : clipInterval none none iv = some iv := by
    simp only [clipInterval, Option.elim_none, if_neg (not_le.mpr h), Prod.mk.eta]
  simp only [coalesceIntervals, List.filterMap_cons, hclip, List.filterMap_nil]
  apply Span.Normal.coalesce_eq
  exact ⟨by simpa using h, List.pairwise_singleton _ _⟩

/-- A Friday opening respects the rules for a meeting that fits the morning. -/
private theorem friday_respects {x : Int} (hdur : 0 < duration)
    (hshort : duration ≤ 4 * hour) (hsat : SaturdayNight x) :
    slotRespectsRules (openingBefore x) duration = true := by
  have h5 := hsat.1
  have htime : time (openingBefore x) = workStart := time_opening (x - day)
  refine (slotRespectsRules_iff hdur).mpr ⟨?_, ?_, ?_, .inl ?_⟩
  · rw [openingBefore, isWorkday_opening, isWorkday_iff]
    simp only [weekday, date_sub_day] at *
    omega
  · rw [htime]
  all_goals
    rw [htime]
    simp only [workStart, workEnd, hour] at *
    omega

/-- A pass at a free slot that respects the rules answers it. -/
private theorem hintPass_found
    (hin : c < searchEnd) (hrules : slotRespectsRules c duration = true) (hfree : free c = true) :
    Settles (fun fuel => hintPass fuel free duration step searchEnd c) (.ret (some c)) := by
  refine ⟨0, fun fuel _ => ?_⟩
  simp only [hintPass, if_pos hin, hrules, hfree, Bool.and_true, if_true]

private theorem hintPass_taken
    (hlen : duration ≤ workDay) (hin : c < searchEnd) (hfree : free c = false) :
    Settles (fun fuel => hintPass fuel free duration step searchEnd c)
      (.again (landing duration (c + step))) := by
  obtain ⟨enough, hadv⟩ :=
    (advanceCandidate_settles hlen c step).map (@Pass.again Int (Option Int))
  refine ⟨enough, fun fuel hfuel => ?_⟩
  have hpass := hadv fuel hfuel
  simp only [hintPass, if_pos hin, hfree, Bool.and_false, Bool.false_eq_true, if_false]
  exact hpass

/-- The owner's search answers the Friday opening when the first advance falls behind. -/
private theorem ownerHint_first (hdur : 0 < duration)
    (hstep : 0 < step) (hshort : duration ≤ 4 * hour)
    (hback : FallsBehind eventEnd (eventEnd + step)) :
    Settles (fun fuel => ownerHint fuel [] [] eventEnd duration step (eventEnd + 2 * step))
      (some (openingBefore (eventEnd + step))) := by
  have hadv := advanceCandidate_settles (le_trans hshort (by decide)) eventEnd step
  rw [landing_of_saturdayNight hback.1] at hadv
  have hlt := hback.2
  exact hadv.bind (Pass.settles_ret
    (hintPass_found (by omega) (friday_respects hdur hshort hback.1) rfl))

/-- The owner's search answers the Friday opening when the second advance falls behind and the
first candidate is taken. -/
private theorem ownerHint_second (hdur : 0 < duration)
    (hstep : 0 < step) (hshort : duration ≤ 4 * hour)
    (hadm : Admissible duration (eventEnd + step))
    (hback : FallsBehind eventEnd (eventEnd + 2 * step)) :
    Settles (fun fuel => ownerHint fuel [(eventEnd + step, eventEnd + step + duration)] [] eventEnd
        duration step (eventEnd + 2 * step)) (some (openingBefore (eventEnd + 2 * step))) := by
  have hlen : duration ≤ workDay := le_trans hshort (by decide)
  have hlt := hback.2
  have hbusy : coalesceIntervals ([(eventEnd + step, eventEnd + step + duration)] ++ []) none none =
      [(eventEnd + step, eventEnd + step + duration)] :=
    coalesceIntervals_singleton (by show eventEnd + step < _; omega)
  -- two steps lead from before the event into Saturday, so Friday morning is before both
  have hmorning : openingBefore (eventEnd + 2 * step) + duration ≤ eventEnd + step := by
    have hd := date_before_saturday hadm (by omega : eventEnd + step ≤ eventEnd + 2 * step) hback.1
    have hc := eq_date_add_time (eventEnd + step)
    have hx := eq_date_add_time (eventEnd + 2 * step)
    have ht := time_nonneg (eventEnd + 2 * step)
    have hfits := fits_iff.mp hadm.fits
    have hmul := midnight_mono hd
    simp only [openingBefore, combine, date_sub_day] at hlt ⊢
    rw [Int.sub_mul] at hmul hlt ⊢
    simp only [workEnd, workStart, hour, day] at *
    omega
  have htaken : isFreeForAttendee (eventEnd + step) duration
      [(eventEnd + step, eventEnd + step + duration)] = false := by
    rw [← Bool.not_eq_true, isFreeForAttendee_iff]
    refine fun h => h _ (List.mem_singleton.mpr rfl) ⟨?_, ?_⟩
    all_goals
      show eventEnd + step < eventEnd + step + duration
      omega
  have hfree : isFreeForAttendee (openingBefore (eventEnd + 2 * step)) duration
      [(eventEnd + step, eventEnd + step + duration)] = true := by
    apply isFreeForAttendee_iff.mpr
    intro iv hiv
    rw [List.mem_singleton.mp hiv]
    exact fun hov => absurd hov.2 (not_lt.mpr hmorning)
  have hadv := advanceCandidate_settles hlen eventEnd step
  rw [landing_of_admissible hadm] at hadv
  have hin : eventEnd + step < eventEnd + 2 * step := by omega
  have hback' : openingBefore (eventEnd + 2 * step) < eventEnd + 2 * step := by omega
  have hnext := fun free => @hintPass_taken free duration step _ _ hlen hin
  rw [show eventEnd + step + step = eventEnd + 2 * step by omega,
    landing_of_saturdayNight hback.1] at hnext
  simp only [ownerHint, hbusy]
  exact hadv.bind (Pass.settles_again (fun c => hintPass_steady _ _ _ _ c) (hnext _ htaken)
    (Pass.settles_ret (hintPass_found hback' (friday_respects hdur hshort hback.1) hfree)))

/-- A hint never starts before the end of its event, whatever the busy data, the blocked slots and
the end of the search are, exactly when the search for that event does not step back. -/
theorem suggestRescheduleWindow_not_before_iff (eventStart eventEnd step : Int) (hstep : 0 < step) :
    (∀ fuel lower exchange busyIntervals searchEnd reservedSlot blockedHintSlots ownerEmail
        meetingAttendees skipGroupBusyFetch hint,
      suggestRescheduleWindow fuel lower exchange eventStart eventEnd busyIntervals step searchEnd
        reservedSlot blockedHintSlots ownerEmail meetingAttendees skipGroupBusyFetch =
          some (some hint) → eventEnd ≤ hint.1) ↔
      ¬ StepsBack eventEnd (hintDuration eventStart eventEnd) step := by
  have hdur := hintDuration_pos eventStart eventEnd
  constructor
  · rintro hsafe ⟨hshort, hback⟩
    -- a free Friday morning, and no group search
    have answered : ∀ (busyIntervals : List Interval) (c : Int),
        Settles (fun fuel => ownerHint fuel busyIntervals [] eventEnd
          (hintDuration eventStart eventEnd) step (eventEnd + 2 * step)) (some c) →
        eventEnd ≤ c := by
      rintro busyIntervals c ⟨enough, hown⟩
      refine hsafe enough id ⟨fun _ _ _ => .ok [], fun _ _ _ _ => .ok []⟩ busyIntervals
        (eventEnd + 2 * step) none [] none [] true (c, c + hintDuration eventStart eventEnd) ?_
      have hgroup : hintGroupBusy id ⟨fun _ _ _ => .ok [], fun _ _ _ _ => .ok []⟩ eventEnd
          (eventEnd + 2 * step) none [] true = none := by
        simp only [hintGroupBusy, not_true_eq_false, and_false, if_false]
      have hblocked : hintBlockedSlots none [] = [] := by
        simp only [hintBlockedSlots, coalesceIntervals, Option.toList_none, List.append_nil,
          List.filterMap_nil, Span.coalesce, List.insertionSort_nil]
      simp only [suggestRescheduleWindow, hgroup, hblocked, hown enough le_rfl, Option.map_some]
    rcases hback with hfirst | ⟨hadm, hsecond⟩
    · exact absurd hfirst.2 (not_lt.mpr (answered _ _ (ownerHint_first hdur hstep hshort hfirst)))
    · exact absurd hsecond.2
        (not_lt.mpr (answered _ _ (ownerHint_second hdur hstep hshort hadm hsecond)))
  · intro hback fuel lower exchange busyIntervals searchEnd reservedSlot blockedHintSlots ownerEmail
      meetingAttendees skipGroupBusyFetch hint h
    rcases suggestRescheduleWindow_cases h with ⟨_, c, _, hgroup, hanswer⟩ | ⟨_, _, hown, hanswer⟩
    · cases hanswer
      exact hint_not_before hdur hstep hback hgroup
    · obtain ⟨c, rfl, rfl⟩ := Option.map_eq_some_iff.mp hanswer.symm
      exact hint_not_before hdur hstep hback hown

/-- The event on Monday from 10:00 to 11:00, with a step of a quarter of an hour. -/
theorem suggestRescheduleWindow_not_before_monday :
    0 < 15 * minute ∧ ¬ StepsBack (11 * hour) hour (15 * minute) ∧
      ∀ fuel lower exchange busyIntervals searchEnd reservedSlot blockedHintSlots ownerEmail
        meetingAttendees skipGroupBusyFetch hint,
      suggestRescheduleWindow fuel lower exchange (10 * hour) (11 * hour) busyIntervals
        (15 * minute) searchEnd reservedSlot blockedHintSlots ownerEmail meetingAttendees
        skipGroupBusyFetch = some (some hint) → 11 * hour ≤ hint.1 :=
  ⟨by decide, by decide,
    (suggestRescheduleWindow_not_before_iff (10 * hour) (11 * hour) (15 * minute)
      (by decide)).mpr (by decide)⟩

/-- The event from Friday 22:00 to Saturday 01:00 is moved to Friday 08:00, fourteen hours before
it starts. -/
theorem suggestRescheduleWindow_friday_night_goes_back :
    suggestRescheduleWindow 3 String.toLower ⟨fun _ _ _ => .ok [], fun _ _ _ _ => .ok []⟩
      (4 * day + 22 * hour) (5 * day + hour) [] (15 * minute) (12 * day) none [] (some "a@x") []
      false = some (some (4 * day + 8 * hour, 4 * day + 11 * hour)) ∧
      4 * day + 8 * hour < 5 * day + hour := by
  decide +kernel

end AgentBack.Outlook
