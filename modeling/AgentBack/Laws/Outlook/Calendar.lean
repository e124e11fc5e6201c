import AgentBack.Outlook.Rules

/-!
# Calendar arithmetic of the slot search

Every fact about weekdays and hours that the later laws use is proved here, from the decomposition
of a datetime into its date and its time of day. `Admissible duration` is the set of instants that
`advance_candidate` returns: a working day, not before 08:00, ending by 17:00.

`landing` is where one `advance_candidate` call ends up when it starts its loop at `x`. It is the
first admissible instant from `x` on, with one exception: from a Saturday before 08:00 the call
`next_workday_start(x - 1 day)` finds the Friday behind `x`.
-/

namespace AgentBack.Outlook

/-! ## Date and time of day -/

theorem eq_date_add_time (x : Int) : x = date x * day + time x := by
  simp only [date, time, day]
  omega

theorem time_nonneg (x : Int) : 0 ≤ time x := by
  simp only [time, day]
  omega

theorem time_lt_day (x : Int) : time x < day := by
  simp only [time, day]
  omega

theorem day_pos : 0 < day := by decide
theorem minute_pos : 0 < minute := by decide

variable {x y duration : Int}

theorem date_eq_iff {d : Int} : date x = d ↔ d * day ≤ x ∧ x < (d + 1) * day := by
  simp only [date, day]
  omega

theorem date_mono (h : x ≤ y) : date x ≤ date y := by
  simp only [date, day]
  omega

theorem midnight_mono {d e : Int} (h : d ≤ e) : d * day ≤ e * day :=
  Int.mul_le_mul_of_nonneg_right h (le_of_lt day_pos)

theorem date_add_days (x : Int) (k : Int) : date (x + k * day) = date x + k := by
  simp only [date, day]
  omega

theorem time_add_days (x : Int) (k : Int) : time (x + k * day) = time x := by
  simp only [time, day]
  omega

theorem date_sub_day (x : Int) : date (x - day) = date x - 1 := by
  simp only [date, day]
  omega

theorem time_sub_day (x : Int) : time (x - day) = time x := by
  simp only [time, day]
  omega

theorem weekday_lt (x : Int) : weekday x < 7 := by
  simp only [weekday]
  omega

theorem isWorkday_iff : isWorkday x = true ↔ weekday x < 5 := by
  simp only [isWorkday, decide_eq_true_eq]

theorem isWorkday_congr (h : date x = date y) : isWorkday x = isWorkday y := by
  unfold isWorkday weekday
  rw [h]

theorem date_combine {clock : Int} (h₀ : 0 ≤ clock) (h₁ : clock < day) :
    date (combine x clock) = date x := by
  simp only [date, combine, day] at *
  omega

theorem time_combine {clock : Int} (h₀ : 0 ≤ clock) (h₁ : clock < day) :
    time (combine x clock) = clock := by
  simp only [time, combine, date, day] at *
  omega

theorem workStart_nonneg : 0 ≤ workStart := by decide
theorem workStart_lt_day : workStart < day := by decide

theorem date_opening (x : Int) : date (combine x workStart) = date x :=
  date_combine workStart_nonneg workStart_lt_day

theorem time_opening (x : Int) : time (combine x workStart) = workStart :=
  time_combine workStart_nonneg workStart_lt_day

/-- An opening comes before the working hours of its day and of every later one. -/
theorem opening_le {z : Int} (hd : date x ≤ date z) (ht : workStart ≤ time z) :
    combine x workStart ≤ z := by
  have hz := eq_date_add_time z
  have hmul := midnight_mono hd
  simp only [combine]
  omega

theorem opening_eq (h : time x = workStart) : combine x workStart = x := by
  have hx := eq_date_add_time x
  simp only [combine]
  omega

theorem isWorkday_opening (x : Int) : isWorkday (combine x workStart) = isWorkday x :=
  isWorkday_congr (date_opening x)

/-! ## Whole minutes -/

def MinuteAligned (x : Int) : Prop := minute ∣ x

instance (x : Int) : Decidable (MinuteAligned x) := inferInstanceAs (Decidable (_ ∣ _))

theorem dropSeconds_aligned (x : Int) : MinuteAligned (dropSeconds x) := by
  simp only [MinuteAligned, dropSeconds, minute]
  omega

theorem dropSeconds_le (x : Int) : dropSeconds x ≤ x := by
  simp only [dropSeconds, minute]
  omega

theorem lt_dropSeconds_add (x : Int) : x < dropSeconds x + minute := by
  simp only [dropSeconds, minute]
  omega

theorem MinuteAligned.dropSeconds_eq (h : MinuteAligned x) : dropSeconds x = x := by
  simp only [MinuteAligned, dropSeconds, minute] at *
  omega

theorem dropSeconds_mono (h : x ≤ y) : dropSeconds x ≤ dropSeconds y := by
  simp only [dropSeconds, minute]
  omega

/-- A whole minute is below a datetime exactly when it is below its minute. -/
theorem MinuteAligned.le_dropSeconds (hx : MinuteAligned x) : x ≤ dropSeconds y ↔ x ≤ y := by
  simp only [MinuteAligned, dropSeconds, minute] at *
  omega

/-- Two whole minutes in the wrong order are a minute apart. -/
theorem MinuteAligned.add_le_of_lt (hx : MinuteAligned x) (hy : MinuteAligned y)
    (h : x < y) : x + minute ≤ y := by
  simp only [MinuteAligned, minute] at *
  omega

theorem MinuteAligned.combine {clock : Int} (h : MinuteAligned clock) :
    MinuteAligned (combine x clock) := by
  simp only [MinuteAligned, Outlook.combine, minute, day] at *
  omega

theorem workStart_aligned : MinuteAligned workStart := by decide

theorem opening_aligned (x : Int) : MinuteAligned (combine x workStart) :=
  MinuteAligned.combine workStart_aligned

/-- The two passes of the weekend loops, in closed form. -/
theorem skipToWorkday_eq (c : Int) :
    skipToWorkday c = if weekday c < 5 then c else c + (7 - weekday c) * day := by
  have hwork : ∀ y : Int, weekday y < 5 → skipToWorkday y = y := by
    intro y hy
    rw [skipToWorkday, if_pos (isWorkday_iff.mpr hy)]
  have hrest : ∀ y : Int, ¬ weekday y < 5 → skipToWorkday y = skipToWorkday (y + day) := by
    intro y hy
    conv_lhs => rw [skipToWorkday]
    rw [if_neg (fun h => hy (isWorkday_iff.mp h))]
  have hnext : date (c + day) = date c + 1 := by simpa using date_add_days c 1
  have hnext2 : date (c + day + day) = date c + 2 := by
    have := date_add_days (c + day) 1
    rw [one_mul, hnext] at this
    omega
  split
  · next h => exact hwork c h
  · next h =>
    have hlt := weekday_lt c
    have hcases : weekday c = 5 ∨ weekday c = 6 := by omega
    rcases hcases with h5 | h6
    · have h6 : ¬ weekday (c + day) < 5 := by simp only [weekday, hnext] at *; omega
      have h0 : weekday (c + day + day) < 5 := by simp only [weekday, hnext2] at *; omega
      rw [hrest c h, hrest _ h6, hwork _ h0, h5]
      omega
    · have h0 : weekday (c + day) < 5 := by simp only [weekday, hnext] at *; omega
      rw [hrest c h, hwork _ h0, h6]
      omega

theorem isWorkday_skip (c : Int) : isWorkday (skipToWorkday c) = true := by
  rw [isWorkday_iff, skipToWorkday_eq]
  split
  · next h => exact h
  · next h =>
    have hlt := weekday_lt c
    simp only [weekday, date_add_days] at *
    omega

theorem time_skip (c : Int) : time (skipToWorkday c) = time c := by
  rw [skipToWorkday_eq]
  split
  · rfl
  · exact time_add_days c _

theorem le_skip (c : Int) : c ≤ skipToWorkday c := by
  have hlt := weekday_lt c
  have hpos : (0 : Int) ≤ (7 - weekday c) * day := Int.mul_nonneg (by omega) (le_of_lt day_pos)
  rw [skipToWorkday_eq]
  split <;> omega

/-- No working day is skipped: `skipToWorkday c` is on the first one from the day of `c` on. -/
theorem date_skip_le {c z : Int} (hz : isWorkday z = true) (h : date c ≤ date z) :
    date (skipToWorkday c) ≤ date z := by
  rw [isWorkday_iff] at hz
  have hlt := weekday_lt c
  rw [skipToWorkday_eq]
  split
  · exact h
  · next hc =>
    simp only [weekday, date_add_days] at *
    omega

/-- What `next_workday_start` finds: an opening after `x`, and every working instant after `x` is
on the day of `x` itself or not before that opening. -/
structure NextOpening (x y : Int) : Prop where
  workday : isWorkday y = true
  opening : time y = workStart
  later : x < y
  first : ∀ z, isWorkday z = true → workStart ≤ time z → x < z →
    y ≤ z ∨ (date z = date x ∧ workStart ≤ time x)

/-- A working instant from `x` on that is on another day is not before the next opening. -/
theorem NextOpening.le {z : Int} (h : NextOpening x y) (hw : isWorkday z = true)
    (ht : workStart ≤ time z) (hxz : x ≤ z) (hd : date z ≠ date x) : y ≤ z := by
  have hne : x ≠ z := fun heq => hd (congrArg date heq.symm)
  rcases h.first z hw ht (lt_of_le_of_ne hxz hne) with hle | ⟨heq, _⟩
  · exact hle
  · exact absurd heq hd

theorem nextWorkdayStart_spec (x : Int) : NextOpening x (nextWorkdayStart x) := by
  have hx := eq_date_add_time x
  have hxt := time_lt_day x
  have hstart : combine x workStart ≤ x ↔ workStart ≤ time x := by
    simp only [combine]
    omega
  -- the candidate before the weekend is skipped: an opening after `x`
  have key : ∀ c : Int, time c = workStart → x < c →
      (∀ z, workStart ≤ time z → x < z →
        date c ≤ date z ∨ (date z = date x ∧ workStart ≤ time x)) →
      NextOpening x (skipToWorkday c) := by
    intro c hc hxc hfirst
    refine ⟨isWorkday_skip c, (time_skip c).trans hc, lt_of_lt_of_le hxc (le_skip c), ?_⟩
    intro z hz hzt hxz
    rcases hfirst z hzt hxz with h | h
    · left
      rw [← opening_eq ((time_skip c).trans hc)]
      exact opening_le (date_skip_le hz h) hzt
    · exact .inr h
  unfold nextWorkdayStart
  simp only [hstart]
  split
  · next h =>
    refine key _ ?_ ?_ ?_
    · have := time_add_days (combine x workStart) 1
      rw [one_mul] at this
      rw [this, time_opening]
    · simp only [combine]
      simp only [workStart, hour, day] at *
      omega
    · intro z hzt hxz
      have hd : date (combine x workStart + day) = date x + 1 := by
        have := date_add_days (combine x workStart) 1
        rw [one_mul, date_opening] at this
        exact this
      have hzx := date_mono (le_of_lt hxz)
      rcases eq_or_lt_of_le hzx with heq | hlt
      · exact .inr ⟨heq.symm, h⟩
      · left
        omega
  · next h =>
    refine key _ (time_opening x) ?_ ?_
    · simp only [combine]
      omega
    · intro z _ hxz
      left
      rw [date_opening]
      exact date_mono (le_of_lt hxz)

/-! ## Admissible instants -/

/-- An instant from which a meeting of that length fits the working day; `slot_respects_rules`
asks for more, namely that lunch is left free. -/
structure Admissible (duration : Int) (x : Int) : Prop where
  workday : isWorkday x = true
  opened : workStart ≤ time x
  fits : x ≤ combine x workEnd - duration

/-- The times of day of a fitting instant, without the date. -/
theorem fits_iff : x ≤ combine x workEnd - duration ↔ time x + duration ≤ workEnd := by
  have hx := eq_date_add_time x
  simp only [combine]
  omega

/-- An opening is admissible for every meeting that fits a working day. -/
theorem Admissible.of_opening (hlen : duration ≤ workEnd - workStart) (hw : isWorkday x = true) (ht : time x = workStart) :
    Admissible duration x :=
  ⟨hw, ht ▸ le_refl _, fits_iff.mpr (by rw [ht]; omega)⟩

def SaturdayNight (x : Int) : Prop := weekday x = 5 ∧ time x < workStart

instance (x : Int) : Decidable (SaturdayNight x) := inferInstanceAs (Decidable (_ ∧ _))

def openingBefore (x : Int) : Int := combine (x - day) workStart

/-- Where `advance_candidate` ends up when it starts its loop at `x`. -/
def landing (duration : Int) (x : Int) : Int :=
  if ¬ isWorkday x then nextWorkdayStart (x - day)
  else if time x < workStart then combine x workStart
  else if x > combine x workEnd - duration then nextWorkdayStart x
  else x

theorem landing_of_admissible (h : Admissible duration x) : landing duration x = x := by
  unfold landing
  rw [if_neg (by simp [h.workday]), if_neg (not_lt.mpr h.opened), if_neg (not_lt.mpr h.fits)]

theorem landing_admissible (hlen : duration ≤ workEnd - workStart)
    (x : Int) : Admissible duration (landing duration x) := by
  unfold landing
  split
  · have h := nextWorkdayStart_spec (x - day)
    exact Admissible.of_opening hlen h.workday h.opening
  · next hw =>
    have hw : isWorkday x = true := by simpa using hw
    split
    · exact Admissible.of_opening hlen ((isWorkday_opening x).trans hw) (time_opening x)
    · next ht =>
      split
      · have h := nextWorkdayStart_spec x
        exact Admissible.of_opening hlen h.workday h.opening
      · next hfit => exact ⟨hw, not_lt.mp ht, not_lt.mp hfit⟩

/-- From a Saturday before 08:00 the advance goes back to the opening of the Friday before. -/
theorem landing_of_saturdayNight (h : SaturdayNight x) : landing duration x = openingBefore x := by
  have hnw : ¬ isWorkday x = true := fun hw => by
    have := isWorkday_iff.mp hw
    have := h.1
    omega
  have ht : ¬ combine (x - day) workStart ≤ x - day := by
    have hx := eq_date_add_time (x - day)
    have htime := time_sub_day x
    have := h.2
    simp only [combine]
    omega
  unfold landing
  rw [if_pos hnw]
  unfold nextWorkdayStart openingBefore
  simp only [if_neg ht]
  rw [skipToWorkday_eq, if_pos]
  have h5 := h.1
  simp only [weekday, date_opening, date_sub_day] at *
  omega

/-- From a Saturday at 08:00 on, and from a Sunday, the advance finds the Monday. -/
private theorem date_after_weekend (hw : isWorkday x ≠ true) (h : ¬ SaturdayNight x) :
    date x < date (nextWorkdayStart (x - day)) := by
  have hn := nextWorkdayStart_spec (x - day)
  have hmono := date_mono (le_of_lt hn.later)
  rw [date_sub_day] at hmono
  have hy := isWorkday_iff.mp hn.workday
  have hx : ¬ weekday x < 5 := fun h5 => hw (isWorkday_iff.mpr h5)
  have hlt := weekday_lt x
  have hsame : date (nextWorkdayStart (x - day)) ≠ date x := by
    intro heq
    simp only [weekday, heq] at *
    omega
  -- the opening of the day before `x` is a Friday's and at most a day before `x`
  have hbefore : date (nextWorkdayStart (x - day)) ≠ date x - 1 := by
    intro heq
    have hlater := hn.later
    rw [← opening_eq hn.opening, combine, heq, Int.sub_mul, Int.one_mul] at hlater
    have hxe := eq_date_add_time x
    refine h ⟨?_, by omega⟩
    simp only [weekday, heq] at *
    omega
  omega

/-- Everywhere else the advance goes forward, to the first admissible instant. -/
theorem landing_spec (h : ¬ SaturdayNight x) :
    x ≤ landing duration x ∧ ∀ z, Admissible duration z → x ≤ z → landing duration x ≤ z := by
  have hx := eq_date_add_time x
  unfold landing
  split
  · next hw =>
    have hn := nextWorkdayStart_spec (x - day)
    have hgt : x < nextWorkdayStart (x - day) := by
      by_contra hle
      exact absurd (date_mono (not_lt.mp hle)) (not_le.mpr (date_after_weekend hw h))
    refine ⟨le_of_lt hgt, fun z hz hxz => ?_⟩
    have hday := day_pos
    have hdz := date_mono hxz
    apply hn.le hz.workday hz.opened
    · omega
    · rw [date_sub_day]
      omega
  · next hw =>
    split
    · next ht =>
      have hopen : x < combine x workStart := by
        simp only [combine]
        omega
      exact ⟨le_of_lt hopen, fun z hz hxz => opening_le (date_mono hxz) hz.opened⟩
    · next ht =>
      split
      · next hfit =>
        have hn := nextWorkdayStart_spec x
        refine ⟨le_of_lt hn.later, fun z hz hxz => ?_⟩
        have hzt := fits_iff.mp hz.fits
        have hxt : ¬ time x + duration ≤ workEnd := fun hc => (not_lt.mpr (fits_iff.mpr hc)) hfit
        have hze := eq_date_add_time z
        -- an admissible instant on the day of `x` would end too late
        apply hn.le hz.workday hz.opened hxz
        intro heq
        rw [heq] at hze
        omega
      · exact ⟨le_refl _, fun _ _ hz => hz⟩

end AgentBack.Outlook
