import AgentBack.Laws.Outlook.Calendar
import AgentBack.Outlook.Availability
import Mathlib.Tactic.Ring

/-!
# `advance_candidate` returns exactly for meetings that fit a working day

One pass through the `while True` either returns an admissible instant or moves to where the
advance lands (`advancePass_eq`). When the meeting is at most nine hours long every landing is
admissible, so the second pass returns. When it is longer no instant is admissible: before 08:00
the loop moves to 08:00, from 08:00 on it moves to the next working day, and it never leaves.
-/

namespace AgentBack.Outlook

/-- The length of the working day, the longest meeting that fits it: nine hours. -/
def workDay : Int := workEnd - workStart

/-- A pass returns at an admissible instant and lands anywhere else. -/
theorem advancePass_eq (duration x : Int) :
    (Admissible duration x ∧ advancePass duration x = .ret x) ∨
      (¬ Admissible duration x ∧ advancePass duration x = .again (landing duration x)) := by
  unfold advancePass landing
  by_cases hw : isWorkday x = true
  · by_cases ht : time x < workStart
    · refine .inr ⟨fun h => absurd ht (not_lt.mpr h.opened), ?_⟩
      simp only [hw, not_true_eq_false, ↓reduceIte, ht]
    · by_cases hf : x > combine x workEnd - duration
      · refine .inr ⟨fun h => absurd hf (not_lt.mpr h.fits), ?_⟩
        simp only [hw, not_true_eq_false, ↓reduceIte, ht, hf]
      · refine .inl ⟨⟨hw, not_lt.mp ht, not_lt.mp hf⟩, ?_⟩
        simp only [hw, not_true_eq_false, ↓reduceIte, ht, hf]
  · refine .inr ⟨fun h => absurd h.workday hw, ?_⟩
    simp only [hw, Bool.false_eq_true, not_false_eq_true, ↓reduceIte]

variable {duration : Int}

theorem advancePass_of_admissible {x : Int} (h : Admissible duration x) :
    advancePass duration x = .ret x := by
  rcases advancePass_eq duration x with ⟨_, he⟩ | ⟨hn, _⟩
  · exact he
  · exact absurd h hn

theorem advanceCandidate_steady (current step duration : Int) :
    Steady fun fuel => advanceCandidate fuel current step duration :=
  Pass.run_steady (fun _ c => some (advancePass duration c)) (fun _ => Steady.const _) _

/-- A meeting that fits the working day: the advance lands, at the latest on its second pass. -/
theorem advanceCandidate_settles (hlen : duration ≤ workDay) (current step : Int) :
    Settles (fun fuel => advanceCandidate fuel current step duration)
      (landing duration (current + step)) := by
  apply (advanceCandidate_steady current step duration).settles (n := 2)
  have hland := advancePass_of_admissible (landing_admissible hlen (current + step))
  unfold advanceCandidate
  rcases advancePass_eq duration (current + step) with ⟨hadm, he⟩ | ⟨_, he⟩
  · simp only [Pass.run, he, landing_of_admissible hadm]
  · simp only [Pass.run, he, hland]

/-- Whatever budget the advance returns under, it returns where it lands. -/
theorem advanceCandidate_eq_landing (hlen : duration ≤ workDay) {current step r : Int} {fuel : Nat}
    (h : advanceCandidate fuel current step duration = some r) :
    r = landing duration (current + step) :=
  (advanceCandidate_steady current step duration).eq_of_settles h
    (advanceCandidate_settles hlen current step)

/-- No instant is admissible for a meeting longer than the working day. -/
theorem not_admissible_of_long (hlong : workDay < duration) (x : Int) :
    ¬ Admissible duration x := by
  intro h
  have hopen := h.opened
  have hfits := fits_iff.mp h.fits
  simp only [workDay] at hlong
  omega

/-- A meeting longer than the working day: the loop goes round for ever. -/
theorem advanceCandidate_diverges (hlong : workDay < duration) (fuel : Nat)
    (current step : Int) : advanceCandidate fuel current step duration = none := by
  refine Pass.run_diverges (fun _ => True) (fun x _ => ?_) fuel trivial
  rcases advancePass_eq duration x with ⟨hadm, _⟩ | ⟨_, he⟩
  · exact absurd hadm (not_admissible_of_long hlong x)
  · exact ⟨landing duration x, congrArg some he, trivial⟩

/-- The advance lands at the first admissible instant, except from a Saturday before 08:00. -/
theorem isLeast_landing_iff (hlen : duration ≤ workDay) (x : Int) :
    IsLeast {z | Admissible duration z ∧ x ≤ z} (landing duration x) ↔ ¬ SaturdayNight x := by
  constructor
  · intro hleast hsat
    have hle := hleast.1.2
    rw [landing_of_saturdayNight hsat] at hle
    -- the Friday opening lies before the Saturday night
    have hback : openingBefore x < x := by
      have hx := eq_date_add_time (x - day)
      have ht := time_nonneg (x - day)
      simp only [openingBefore, combine]
      simp only [workStart, hour, day] at *
      omega
    omega
  · intro hsat
    obtain ⟨hle, hfirst⟩ := @landing_spec _ duration hsat
    exact ⟨⟨landing_admissible hlen _, hle⟩, fun z hz => hfirst z hz.1 hz.2⟩

/-- The advance finishes exactly for the meetings that fit a working day, and then it returns the
first admissible instant from `current + step` on, except from a Saturday before 08:00. -/
theorem advanceCandidate_finishes_iff (current step duration : Int) (_hstep : 0 < step)
    (_hduration : 0 < duration) :
    ((∃ fuel r, advanceCandidate fuel current step duration = some r) ↔ duration ≤ workDay) ∧
      ((∃ fuel r, advanceCandidate fuel current step duration = some r ∧
          IsLeast {z | Admissible duration z ∧ current + step ≤ z} r) ↔
        duration ≤ workDay ∧ ¬ SaturdayNight (current + step)) := by
  have hfin : ∀ {fuel r}, advanceCandidate fuel current step duration = some r →
      duration ≤ workDay := by
    intro fuel r h
    by_contra hlong
    rw [advanceCandidate_diverges (not_le.mp hlong)] at h
    cases h
  refine ⟨⟨fun ⟨fuel, r, h⟩ => hfin h, fun hlen => ?_⟩,
    ⟨fun ⟨fuel, r, h, hleast⟩ => ⟨hfin h, ?_⟩, fun ⟨hlen, hsat⟩ => ?_⟩⟩
  · obtain ⟨n, hn⟩ := advanceCandidate_settles hlen current step
    exact ⟨n, _, hn n le_rfl⟩
  · rw [advanceCandidate_eq_landing (hfin h) h] at hleast
    exact (isLeast_landing_iff (hfin h) _).mp hleast
  · obtain ⟨n, hn⟩ := advanceCandidate_settles hlen current step
    exact ⟨n, _, hn n le_rfl, (isLeast_landing_iff hlen _).mpr hsat⟩

theorem advanceCandidate_finishes_hour :
    (∃ fuel r, advanceCandidate fuel (10 * hour) (15 * minute) hour = some r) ∧
      hour ≤ workDay :=
  have h := advanceCandidate_finishes_iff (10 * hour) (15 * minute) hour (by decide) (by decide)
  ⟨h.1.mpr (by decide), by decide⟩

/-- A ten-hour event on the calendar: no budget is enough to advance from Monday 10:00. -/
theorem advanceCandidate_ten_hours_never_returns :
    (0 < 15 * minute ∧ 0 < 10 * hour) ∧
      ∀ fuel, advanceCandidate fuel (10 * hour) (15 * minute) (10 * hour) = none :=
  ⟨by decide, fun fuel => advanceCandidate_diverges (by decide) fuel _ _⟩

/-- **The advance finds the least admissible start** that is not before `current + step`. -/
def AdvancesToLeast (current step duration : Int) : Prop :=
  ∃ fuel r, advanceCandidate fuel current step duration = some r ∧
    IsLeast {t | Admissible duration t ∧ current + step ≤ t} r

/-- For meetings that fit a working day it does so exactly when the step does not lead into a
Saturday before 08:00. -/
theorem advancesToLeast_iff {current step duration : Int} (_hstep : 0 < step)
    (_hduration : 0 < duration) (hlen : duration ≤ workDay) :
    AdvancesToLeast current step duration ↔ ¬ SaturdayNight (current + step) := by
  obtain ⟨n, hn⟩ := advanceCandidate_settles hlen current step
  constructor
  · rintro ⟨fuel, r, h, hleast⟩
    rw [advanceCandidate_eq_landing hlen h] at hleast
    exact (isLeast_landing_iff hlen _).mp hleast
  · exact fun hsat => ⟨n, _, hn n le_rfl, (isLeast_landing_iff hlen _).mpr hsat⟩

/-- An event that ends on Friday at 23:00, advanced by an hour and a half. -/
theorem advancesToLeast_friday_night_fails :
    (0 < 90 * minute ∧ 0 < hour ∧ hour ≤ workDay) ∧
      ¬ AdvancesToLeast (4 * day + 23 * hour) (90 * minute) hour := by
  refine ⟨by decide, fun ⟨fuel, r, h, hleast⟩ => ?_⟩
  rw [advanceCandidate_eq_landing (by decide) h] at hleast
  exact (isLeast_landing_iff (by decide) _).mp hleast (by decide)

/-- From Saturday 07:45 a quarter of an hour leads to the Monday. -/
theorem advancesToLeast_saturday_morning :
    AdvancesToLeast (5 * day + 7 * hour + 45 * minute) (15 * minute) hour :=
  (advancesToLeast_iff (by decide) (by decide) (by decide)).mpr (by decide)

end AgentBack.Outlook

/-!
# The slot grid and the working-time rules

A slot of the search starts on the step grid and respects the working-time rules. This module
brings `slot_respects_rules`, `align_preferred` and `snap_to_step` into the form that the scans
need: the first is a condition on the date and the time of day, the other two find the first
instant of a set from a given one on.
-/

namespace AgentBack.Outlook

/-- The comparison of the source is the overlap of two spans. -/
theorem intervalsOverlap_iff {a b c d : Int} :
    intervalsOverlap a b c d = true ↔ Span.Overlap (a, b) (c, d) := by
  simp only [intervalsOverlap, Bool.and_eq_true, decide_eq_true_eq, Span.Overlap, gt_iff_lt]

theorem not_intervalsOverlap_iff {a b c d : Int} :
    (!intervalsOverlap a b c d) = true ↔ b ≤ c ∨ d ≤ a := by
  rw [Bool.not_eq_true', ← Bool.not_eq_true, intervalsOverlap_iff, Span.Overlap]
  simp only [not_and_or, not_lt]
  exact or_comm

section

variable {start duration : Int} (hdur : 0 < duration)
include hdur

/-- `slot_respects_rules` for a meeting of positive length: it lies in one working day and leaves
lunch free. -/
theorem slotRespectsRules_iff :
    slotRespectsRules start duration = true ↔
      isWorkday start = true ∧ workStart ≤ time start ∧ time start + duration ≤ workEnd ∧
        (time start + duration ≤ 12 * hour ∨ 13 * hour ≤ time start) := by
  have hs := eq_date_add_time start
  have hlunch : forbiddenBlocks.all (fun block =>
      !intervalsOverlap start (start + duration) (combine start block.1) (combine start block.2)) =
        true ↔ (time start + duration ≤ 12 * hour ∨ 13 * hour ≤ time start) := by
    simp only [forbiddenBlocks, List.all_cons, List.all_nil, Bool.and_true,
      not_intervalsOverlap_iff, combine]
    omega
  -- a meeting that ends by 17:00 ends on the day it starts
  have hend : date start = date (start + duration) ∧ time (start + duration) ≤ workEnd ↔
      time start + duration ≤ workEnd := by
    simp only [date, time, workEnd, hour, day] at *
    omega
  unfold slotRespectsRules
  by_cases hw : isWorkday start = true
  · rw [if_neg (not_not.mpr hw)]
    by_cases hd : date start = date (start + duration)
    · rw [if_neg (not_not.mpr hd)]
      by_cases hc : time start < workStart ∨ time (start + duration) > workEnd
      · rw [if_pos hc]
        simp only [Bool.false_eq_true, false_iff]
        omega
      · rw [if_neg hc, hlunch]
        simp only [hw, true_and]
        omega
    · rw [if_pos hd]
      simp only [Bool.false_eq_true, false_iff]
      omega
  · rw [if_pos hw]
    simp only [hw, Bool.false_eq_true, false_and]

/-- A slot that respects the rules starts at an admissible instant. -/
theorem admissible_of_respects (h : slotRespectsRules start duration = true) :
    Admissible duration start := by
  obtain ⟨hw, ho, hc, _⟩ := (slotRespectsRules_iff hdur).mp h
  exact ⟨hw, ho, fits_iff.mpr hc⟩

/-- What respects the rules still does when its seconds are dropped. -/
theorem respects_dropSeconds (h : slotRespectsRules start duration = true) :
    slotRespectsRules (dropSeconds start) duration = true := by
  rw [slotRespectsRules_iff hdur] at h ⊢
  have hdate : date (dropSeconds start) = date start := by
    simp only [date, dropSeconds, day, minute]
    omega
  have htime : time (dropSeconds start) = time start - time start % minute := by
    simp only [time, dropSeconds, day, minute]
    omega
  obtain ⟨hw, hrest⟩ := h
  refine ⟨(isWorkday_congr hdate).trans hw, ?_⟩
  rw [htime]
  simp only [workStart, workEnd, hour, minute] at *
  omega

end

structure WorkingMinute (x : Int) : Prop where
  aligned : MinuteAligned x
  workday : isWorkday x = true
  opened : workStart ≤ time x
  closed : time x < workEnd

theorem WorkingMinute.of_opening {x : Int} (hw : isWorkday x = true) (ht : time x = workStart)
    (ha : MinuteAligned x) : WorkingMinute x :=
  ⟨ha, hw, ht ▸ le_refl _, ht ▸ by decide⟩

private theorem aligned_of_opening {x : Int} (ht : time x = workStart) : MinuteAligned x := by
  have hx := eq_date_add_time x
  simp only [MinuteAligned, workStart, hour, day, minute] at *
  omega

/-- `align_preferred` finds the first working minute from the minute of its argument on. -/
theorem alignPreferred_least (x : Int) :
    IsLeast {z | WorkingMinute z ∧ dropSeconds x ≤ z} (alignPreferred x) := by
  have hal := dropSeconds_aligned x
  have hcur := eq_date_add_time (dropSeconds x)
  unfold alignPreferred
  simp only
  by_cases hw : isWorkday (dropSeconds x) = true
  · rw [if_neg (not_not.mpr hw)]
    by_cases ht : time (dropSeconds x) < workStart
    · rw [if_pos ht]
      refine ⟨⟨.of_opening ((isWorkday_opening _).trans hw) (time_opening _) (opening_aligned _), ?_⟩,
        fun z hz => opening_le (date_mono hz.2) hz.1.opened⟩
      simp only [combine]
      omega
    · rw [if_neg ht]
      by_cases hl : dropSeconds x > combine (dropSeconds x) workEnd - minute
      · rw [if_pos hl]
        have hn := nextWorkdayStart_spec (dropSeconds x)
        refine ⟨⟨.of_opening hn.workday hn.opening (aligned_of_opening hn.opening),
          le_of_lt hn.later⟩, fun z hz => ?_⟩
        have hze := eq_date_add_time z
        -- no working minute is left on the day of `x`
        apply hn.le hz.1.workday hz.1.opened hz.2
        intro heq
        rw [heq] at hze
        have hza := hz.1.aligned
        have hzc := hz.1.closed
        have := hz.2
        simp only [combine, MinuteAligned, workEnd, hour, day, minute] at *
        omega
      · rw [if_neg hl]
        refine ⟨⟨⟨hal, hw, not_lt.mp ht, ?_⟩, le_refl _⟩, fun z hz => hz.2⟩
        have hmin := minute_pos
        simp only [combine] at hl
        omega
  · rw [if_pos hw]
    have hskip := eq_date_add_time (skipToWorkday (dropSeconds x))
    have hnext : date (dropSeconds x) < date (skipToWorkday (dropSeconds x)) := by
      refine lt_of_le_of_ne (date_mono (le_skip _)) fun heq => hw ?_
      rw [isWorkday_congr heq]
      exact isWorkday_skip _
    refine ⟨⟨.of_opening ((isWorkday_opening _).trans (isWorkday_skip _)) (time_opening _)
      (opening_aligned _), ?_⟩,
      fun z hz => opening_le (date_skip_le hz.1.workday (date_mono hz.2)) hz.1.opened⟩
    have hxt := time_lt_day (dropSeconds x)
    have hmul := midnight_mono (show date (dropSeconds x) + 1 ≤ _ from hnext)
    have hopen := workStart_nonneg
    rw [Int.add_mul, Int.one_mul] at hmul
    simp only [combine]
    omega

/-! ## The step grid -/

/-- A step of the search that divides the hour into whole minutes. -/
structure GridStep (step : Int) : Prop where
  pos : 0 < step
  aligned : MinuteAligned step
  divides : step ∣ hour

/-- A point of the step grid: a whole minute whose minute of the hour is divisible by the step. -/
structure OnGrid (step t : Int) : Prop where
  aligned : MinuteAligned t
  divides : minuteOfHour t % stepMinutes step = 0

variable {step : Int}

theorem GridStep.exists_minutes (h : GridStep step) :
    ∃ s, 0 < s ∧ s ∣ 60 ∧ step = s * minute ∧ stepMinutes step = s := by
  obtain ⟨s, rfl⟩ := h.aligned
  have hpos : 0 < s := by
    have := h.pos
    exact Int.pos_of_mul_pos_right this minute_pos
  refine ⟨s, hpos, ?_, Int.mul_comm _ _, ?_⟩
  · have : minute * s ∣ minute * 60 := h.divides
    exact Int.dvd_of_mul_dvd_mul_left (ne_of_gt minute_pos) this
  · unfold stepMinutes
    rw [Int.mul_ediv_cancel_left _ (ne_of_gt minute_pos)]
    omega

theorem onGrid_iff (h : GridStep step) (t : Int) : OnGrid step t ↔ step ∣ t := by
  obtain ⟨s, _, hs60, rfl, hsm⟩ := h.exists_minutes
  have hmin : minute ≠ 0 := ne_of_gt minute_pos
  have key : ∀ m : Int, minuteOfHour (minute * m) % stepMinutes (s * minute) = m % s := by
    intro m
    rw [hsm, minuteOfHour, Int.mul_ediv_cancel_left _ hmin, Int.emod_emod_of_dvd m hs60]
  constructor
  · rintro ⟨⟨m, rfl⟩, hdiv⟩
    rw [key] at hdiv
    rw [Int.mul_comm minute m]
    exact Int.mul_dvd_mul_right _ (Int.dvd_of_emod_eq_zero hdiv)
  · intro hdvd
    obtain ⟨m, rfl⟩ : minute ∣ t := Int.dvd_trans (Int.dvd_mul_left s minute) hdvd
    refine ⟨⟨m, rfl⟩, ?_⟩
    rw [key]
    rw [Int.mul_comm minute m] at hdvd
    exact Int.emod_eq_zero_of_dvd (Int.dvd_of_mul_dvd_mul_right hmin hdvd)

/-- Rounding up to a multiple of `s` skips no multiple. -/
private theorem roundUp_le {s m q : Int} (hs : 0 < s) (hle : m ≤ s * q) (hrem : m % s ≠ 0) :
    m - m % s + s ≤ s * q := by
  have hm := Int.mul_ediv_add_emod m s
  have hr : 0 ≤ m % s := Int.emod_nonneg m (ne_of_gt hs)
  have hq : m / s + 1 ≤ q := by
    by_contra hlt
    have : s * q ≤ s * (m / s) := Int.mul_le_mul_of_nonneg_left (by omega) (le_of_lt hs)
    omega
  have := Int.mul_le_mul_of_nonneg_left hq (le_of_lt hs)
  rw [Int.mul_add, Int.mul_one] at this
  omega

/-- `snap_to_step` finds the first grid point from the minute of its argument on. -/
theorem snapToStep_least (h : GridStep step) (x : Int) :
    IsLeast {t | OnGrid step t ∧ dropSeconds x ≤ t} (snapToStep x step) := by
  have hgrid := h
  obtain ⟨s, hs, hs60, rfl, hsm⟩ := h.exists_minutes
  have hminpos := minute_pos
  have hmin : minute ≠ 0 := ne_of_gt minute_pos
  obtain ⟨m, hm⟩ := dropSeconds_aligned x
  have hrem : minuteOfHour (dropSeconds x) % stepMinutes (s * minute) = m % s := by
    rw [hm, hsm, minuteOfHour, Int.mul_ediv_cancel_left _ hmin, Int.emod_emod_of_dvd m hs60]
  unfold snapToStep
  simp only [hrem]
  split
  · next hz =>
    refine ⟨⟨⟨dropSeconds_aligned x, hrem.trans hz⟩, le_refl _⟩, fun t ht => ht.2⟩
  · next hnz =>
    have hr : m % s < s := Int.emod_lt_of_pos m hs
    -- the rounded minute is a multiple of the step
    have hup : dropSeconds x + (stepMinutes (s * minute) - m % s) * minute =
        s * minute * (m / s + 1) := by
      have hdiv := Int.mul_ediv_add_emod m s
      calc dropSeconds x + (stepMinutes (s * minute) - m % s) * minute
          = (m + (s - m % s)) * minute := by rw [hm, hsm]; ring
        _ = (s * (m / s) + s) * minute := by congr 1; omega
        _ = s * minute * (m / s + 1) := by ring
    refine ⟨⟨(onGrid_iff hgrid _).mpr ⟨_, hup⟩, ?_⟩, fun t ht => ?_⟩
    · rw [hsm]
      have : 0 ≤ (s - m % s) * minute := Int.mul_nonneg (by omega) (le_of_lt hminpos)
      omega
    · obtain ⟨q, hq⟩ := (onGrid_iff hgrid t).mp ht.1
      have hle := ht.2
      have htq : t = minute * (s * q) := by rw [hq]; ring
      rw [hm, htq] at hle
      have hround := roundUp_le hs (Int.le_of_mul_le_mul_left hle hminpos) hnz
      have := Int.mul_le_mul_of_nonneg_left hround (le_of_lt hminpos)
      calc dropSeconds x + (stepMinutes (s * minute) - m % s) * minute
          = minute * (m - m % s + s) := by rw [hm, hsm]; ring
        _ ≤ minute * (s * q) := this
        _ = t := htq.symm

/-- Two grid points in order are a step apart. -/
theorem OnGrid.add_le_of_lt {t u : Int} (h : GridStep step) (ht : OnGrid step t)
    (hu : OnGrid step u) (hlt : t < u) : t + step ≤ u := by
  obtain ⟨a, rfl⟩ := (onGrid_iff h t).mp ht
  obtain ⟨b, rfl⟩ := (onGrid_iff h u).mp hu
  have hab : a < b := Int.lt_of_mul_lt_mul_left hlt (le_of_lt h.pos)
  have := Int.mul_le_mul_of_nonneg_left (show a + 1 ≤ b from hab) (le_of_lt h.pos)
  rw [Int.mul_add, Int.mul_one] at this
  exact this

theorem GridStep.minute_le (h : GridStep step) : minute ≤ step :=
  Int.le_of_dvd h.pos h.aligned

theorem GridStep.le_hour (h : GridStep step) : step ≤ hour :=
  Int.le_of_dvd (by decide) h.divides

theorem OnGrid.of_opening {x : Int} (h : GridStep step) (ht : time x = workStart) :
    OnGrid step x := by
  have hx := eq_date_add_time x
  rw [onGrid_iff h, hx, ht]
  have hday : hour ∣ day := by decide
  have hopen : hour ∣ workStart := by decide
  exact Int.dvd_add (Int.dvd_trans h.divides (Int.dvd_mul_of_dvd_right hday))
    (Int.dvd_trans h.divides hopen)

end AgentBack.Outlook
