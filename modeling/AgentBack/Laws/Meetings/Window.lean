import AgentBack.Meetings.Recurrence

/-!
# Windows of a series

A window takes an occurrence by its original date or by the date that it is moved to; what the loops
find is said once for all frequencies (`iterOccurrenceDates_spec`), and the laws of windows follow
from the order of the dates. An occurrence moved from a weekend over the first day of a window still
belongs to the window of its original date.
-/

namespace AgentBack.Meetings

open Civil

variable {data : RecurrenceInput} {start finish : Int}

/-- `raw` is an occurrence of the pattern, on its original date. -/
def Occurs (data : RecurrenceInput) (raw : Int) : Prop :=
  match data.frequency with
  | .daily =>
    let anchor := firstWeekdayOnOrAfter data.seriesStartDate
    isWeekend raw = false ∧ anchor ≤ raw ∧ businessDayIndex anchor raw % data.interval = 0
  | .weekly =>
    ∃ weekday, data.weekday = some weekday ∧
      let anchor := nextWeekday weekday.iso data.seriesStartDate
      Civil.weekday raw = weekday.iso ∧ anchor ≤ raw ∧ (raw - anchor) / 7 % data.interval = 0
  | .monthly =>
    let months := monthIndex raw - monthIndex data.seriesStartDate
    0 ≤ months ∧ months % data.interval = 0 ∧ monthlyOccurrence data (monthIndex raw) = some raw
  | .yearly =>
    let years := yearOf raw - yearOf data.seriesStartDate
    0 ≤ years ∧ years % data.interval = 0 ∧ yearlyOccurrence data (yearOf raw) = raw

/-- `raw` lies in a month or a year that begins after `bound`; for a series by days or weeks, after
`bound`. -/
def Beyond (data : RecurrenceInput) (bound raw : Int) : Prop :=
  match data.frequency with
  | .monthly => monthIndex bound < monthIndex raw
  | .yearly => yearOf bound < yearOf raw
  | _ => bound < raw

/-- What a sweep from `start` to `finish` takes. -/
def Taken (data : RecurrenceInput) (start finish raw : Int) : Prop :=
  (start ≤ raw ∧ raw ≤ finish) ∨
    (start ≤ adjustWeekendToPrecedingWeekday raw ∧ adjustWeekendToPrecedingWeekday raw ≤ finish ∧
      ¬ Beyond data finish raw)

/-- The dates of the occurrences that a sweep takes, each once and in order. -/
structure Expands (data : RecurrenceInput) (start finish : Int) (dates : List Int) : Prop where
  increasing : dates.Pairwise (· < ·)
  mem : ∀ d, d ∈ dates ↔ ∃ raw, Occurs data raw ∧ adjustWeekendToPrecedingWeekday raw = d ∧
    Taken data start finish raw

/-! ## Moving a date -/

theorem adjust_le (raw : Int) : adjustWeekendToPrecedingWeekday raw ≤ raw := by
  unfold adjustWeekendToPrecedingWeekday
  split
  · omega
  · split <;> omega

theorem sub_two_le_adjust (raw : Int) : raw - 2 ≤ adjustWeekendToPrecedingWeekday raw := by
  unfold adjustWeekendToPrecedingWeekday
  split
  · omega
  · split <;> omega

theorem adjust_of_weekday {raw : Int} (h : isWeekend raw = false) :
    adjustWeekendToPrecedingWeekday raw = raw := by
  have hlt : weekday raw < 5 := by simpa [isWeekend] using h
  unfold adjustWeekendToPrecedingWeekday
  rw [if_neg (by omega), if_neg (by omega)]

theorem isWeekend_adjust (raw : Int) :
    isWeekend (adjustWeekendToPrecedingWeekday raw) = false := by
  unfold isWeekend adjustWeekendToPrecedingWeekday weekday
  rw [decide_eq_false_iff_not]
  split
  · omega
  · split <;> omega

theorem weekday_nextWeekday {iso : Int} (hlow : 0 ≤ iso) (hhigh : iso < 7) (value : Int) :
    weekday (nextWeekday iso value) = iso := by
  unfold nextWeekday weekday
  omega

theorem nextWeekday_le_iff {iso d : Int} (hd : weekday d = iso) (value : Int) :
    nextWeekday iso value ≤ d ↔ value ≤ d := by
  unfold nextWeekday
  unfold weekday at hd ⊢
  omega

theorem firstWeekdayOnOrAfter_le_iff (value : Int) {d : Int} (hd : isWeekend d = false) :
    firstWeekdayOnOrAfter value ≤ d ↔ value ≤ d := by
  have hlt : weekday d < 5 := by simpa [isWeekend] using hd
  unfold firstWeekdayOnOrAfter isWeekend
  split
  · next h =>
    rw [decide_eq_true_eq] at h
    unfold nextWeekday
    unfold weekday at h hlt ⊢
    omega
  · rfl

theorem Weekday.iso_mem (weekday : Weekday) : 0 ≤ weekday.iso ∧ weekday.iso < 7 := by
  cases weekday <;> decide

theorem mem_foldl_append {step : List Int → Int → List Int} (occurrence : Int → Option Int)
    (hstep : ∀ dates cursor, step dates cursor =
      match occurrence cursor with
      | some raw => appendAdjustedOccurrence start finish dates raw
      | none => dates) (cursors : List Int) (d : Int) :
    d ∈ cursors.foldl step [] ↔ ∃ cursor ∈ cursors, ∃ raw, occurrence cursor = some raw ∧
      adjustWeekendToPrecedingWeekday raw = d ∧
      ((start ≤ raw ∧ raw ≤ finish) ∨
        (start ≤ adjustWeekendToPrecedingWeekday raw ∧
          adjustWeekendToPrecedingWeekday raw ≤ finish)) := by
  induction cursors using List.reverseRecOn with
  | nil => simp
  | append_singleton cursors cursor ih =>
    rw [List.foldl_append, List.foldl_cons, List.foldl_nil, hstep]
    have hlast : (d ∈ match occurrence cursor with
        | some raw => appendAdjustedOccurrence start finish (cursors.foldl step []) raw
        | none => cursors.foldl step []) ↔ d ∈ cursors.foldl step [] ∨
          ∃ raw, occurrence cursor = some raw ∧ adjustWeekendToPrecedingWeekday raw = d ∧
            ((start ≤ raw ∧ raw ≤ finish) ∨
              (start ≤ adjustWeekendToPrecedingWeekday raw ∧
                adjustWeekendToPrecedingWeekday raw ≤ finish)) := by
      cases occurrence cursor with
      | none => simp
      | some raw =>
        unfold appendAdjustedOccurrence
        simp only
        split
        · next h => simp [h, eq_comm]
        · next h => simp [h]
    rw [hlast, ih]
    constructor
    · rintro (⟨c, hc, h⟩ | h)
      · exact ⟨c, List.mem_append_left _ hc, h⟩
      · exact ⟨cursor, List.mem_append_right _ (List.mem_singleton.mpr rfl), h⟩
    · rintro ⟨c, hc, h⟩
      rcases List.mem_append.mp hc with hc | hc
      · exact .inl ⟨c, hc, h⟩
      · rw [List.mem_singleton.mp hc] at h
        exact .inr h

/-- A sweep over cells, each with at most one occurrence that lies in it. -/
theorem expands_cells {cell : Int → Int} (hmono : ∀ {d d' : Int}, d ≤ d' → cell d ≤ cell d')
    (occurrence : Int → Option Int) (hcell : ∀ cursor raw, occurrence cursor = some raw →
      cell raw = cursor)
    (hoccurs : ∀ raw, Occurs data raw ↔ occurrence (cell raw) = some raw)
    (hbeyond : ∀ raw, Beyond data finish raw ↔ cell finish < cell raw)
    {step : List Int → Int → List Int} (hstep : ∀ dates cursor, step dates cursor =
      match occurrence cursor with
      | some raw => appendAdjustedOccurrence start finish dates raw
      | none => dates) :
    Expands data start finish
      (dedupeSortedDates ((countUp (cell start) (cell finish) 1).foldl step [])) := by
  refine ⟨pairwise_sortedSet _, ?_⟩
  intro d
  unfold dedupeSortedDates
  rw [mem_sortedSet, mem_foldl_append occurrence hstep]
  constructor
  · rintro ⟨cursor, hcursor, raw, hraw, hd, htaken⟩
    have hin := (mem_countUp Int.one_pos).mp hcursor
    have hcursor' := hcell cursor raw hraw
    refine ⟨raw, (hoccurs raw).mpr (hcursor'.symm ▸ hraw), hd, ?_⟩
    rcases htaken with hraw' | hadj
    · exact .inl hraw'
    · refine .inr ⟨hadj.1, hadj.2, ?_⟩
      rw [hbeyond, hcursor']
      omega
  · rintro ⟨raw, hraw, hd, htaken⟩
    have hle := adjust_le raw
    have hin : cell start ≤ cell raw ∧ cell raw ≤ cell finish := by
      rcases htaken with ⟨hlow, hhigh⟩ | ⟨hlow, hhigh, hreach⟩
      · exact ⟨hmono hlow, hmono hhigh⟩
      · rw [hbeyond] at hreach
        exact ⟨hmono (hlow.trans hle), not_lt.mp hreach⟩
    refine ⟨cell raw, (mem_countUp Int.one_pos).mpr ⟨hin.1, hin.2, Int.emod_one _⟩, raw,
      (hoccurs raw).mp hraw, hd, ?_⟩
    rcases htaken with hraw' | hadj
    · exact .inl hraw'
    · exact .inr ⟨hadj.1, hadj.2.1⟩

theorem expands_daily (hfreq : data.frequency = .daily) :
    Expands data start finish (dailyDates data start finish) := by
  have htaken : ∀ raw, isWeekend raw = false → (Taken data start finish raw ↔
      start ≤ raw ∧ raw ≤ finish) := by
    intro raw hraw
    unfold Taken
    rw [adjust_of_weekday hraw]
    tauto
  refine ⟨(pairwise_countUp Int.one_pos).filter _, ?_⟩
  intro d
  have hindex : ∀ raw, firstWeekdayOnOrAfter data.seriesStartDate ≤ raw →
      0 ≤ businessDayIndex (firstWeekdayOnOrAfter data.seriesStartDate) raw := by
    intro raw hraw
    unfold businessDayIndex
    rw [if_neg (not_lt.mpr hraw)]
    exact Int.natCast_nonneg _
  have hbefore : ∀ raw, 0 ≤ businessDayIndex (firstWeekdayOnOrAfter data.seriesStartDate) raw →
      firstWeekdayOnOrAfter data.seriesStartDate ≤ raw := by
    intro raw hraw
    unfold businessDayIndex at hraw
    split at hraw
    · omega
    · next h => exact not_lt.mp h
  unfold dailyDates
  simp only [List.mem_filter, mem_countUp Int.one_pos, Bool.and_eq_true, Bool.not_eq_true',
    decide_eq_true_eq]
  constructor
  · rintro ⟨⟨hlow, hhigh, -⟩, ⟨hweekday, hanchor⟩, hphase⟩
    rw [firstWeekdayOnOrAfter_le_iff _ hweekday] at hlow
    refine ⟨d, ?_, adjust_of_weekday hweekday, ?_⟩
    · unfold Occurs
      rw [hfreq]
      exact ⟨hweekday, hbefore d hanchor, hphase⟩
    · exact (htaken d hweekday).mpr ⟨(le_max_left _ _).trans hlow, hhigh⟩
  · rintro ⟨raw, hraw, rfl, hin⟩
    unfold Occurs at hraw
    rw [hfreq] at hraw
    obtain ⟨hweekday, hanchor, hphase⟩ := hraw
    obtain ⟨hlow, hhigh⟩ := (htaken raw hweekday).mp hin
    rw [adjust_of_weekday hweekday]
    refine ⟨⟨?_, hhigh, Int.emod_one _⟩, ⟨hweekday, hindex raw hanchor⟩, hphase⟩
    rw [firstWeekdayOnOrAfter_le_iff _ hweekday]
    exact max_le hlow hanchor

/-- The first multiple of the interval from `weeks` on. -/
theorem roundUp_spec {interval : Int} (hinterval : 0 < interval) (weeks : Int) :
    ∃ up, (weeks + if weeks % interval ≠ 0 then interval - weeks % interval else 0) =
        interval * up ∧ ∀ v, weeks ≤ interval * v ↔ up ≤ v := by
  have hdiv := Int.mul_ediv_add_emod weeks interval
  have hnonneg := Int.emod_nonneg weeks (ne_of_gt hinterval)
  have hlt := Int.emod_lt_of_pos weeks hinterval
  by_cases hrem : weeks % interval = 0
  · refine ⟨weeks / interval, ?_, ?_⟩
    · rw [if_neg (not_not.mpr hrem)]
      omega
    · intro v
      rw [hrem, add_zero] at hdiv
      rw [← hdiv, Int.mul_ediv_cancel_left _ (ne_of_gt hinterval)]
      exact mul_le_mul_iff_right₀ hinterval
  · refine ⟨weeks / interval + 1, ?_, ?_⟩
    · rw [if_pos hrem, mul_add, mul_one]
      omega
    · intro v
      constructor
      · intro h
        have hmul : interval * (weeks / interval) < interval * v := by omega
        exact Int.add_one_le_iff.mpr (lt_of_mul_lt_mul_left hmul hinterval.le)
      · intro h
        have hmul : interval * (weeks / interval + 1) ≤ interval * v :=
          mul_le_mul_of_nonneg_left h hinterval.le
        rw [mul_add, mul_one] at hmul
        omega

/-- The weekly cursor runs through the weeks from `current` on in the phase of the anchor. -/
theorem mem_countUp_weeks {interval anchor current : Int} (hinterval : 0 < interval)
    (hcurrent : (current - anchor) % 7 = 0) (hanchor : anchor ≤ current) (raw : Int) :
    raw ∈ countUp
        (if anchor ≤ current ∧ (current - anchor) / 7 % interval ≠ 0 then
          current + (interval - (current - anchor) / 7 % interval) * 7 else current)
        finish (7 * interval) ↔
      (raw - anchor) % 7 = 0 ∧ current ≤ raw ∧ raw ≤ finish ∧
        (raw - anchor) / 7 % interval = 0 := by
  obtain ⟨up, hup, hle⟩ := roundUp_spec hinterval ((current - anchor) / 7)
  have hfirst : (if anchor ≤ current ∧ (current - anchor) / 7 % interval ≠ 0 then
      current + (interval - (current - anchor) / 7 % interval) * 7 else current) =
        anchor + 7 * (interval * up) := by
    rw [← hup]
    by_cases hrem : (current - anchor) / 7 % interval = 0
    · rw [if_neg (fun h => h.2 hrem), if_neg (not_not.mpr hrem)]
      omega
    · rw [if_pos ⟨hanchor, hrem⟩, if_pos hrem]
      omega
  rw [hfirst, mem_countUp (by omega)]
  constructor
  · rintro ⟨hlow, hhigh, hmod⟩
    obtain ⟨k, hk⟩ := Int.dvd_of_emod_eq_zero hmod
    have hweeks : raw - anchor = 7 * (interval * (up + k)) := by
      rw [mul_add]
      rw [mul_assoc] at hk
      omega
    have hdiv : (raw - anchor) / 7 = interval * (up + k) := by omega
    have hk0 : 0 ≤ interval * k := by
      rw [mul_assoc] at hk
      omega
    have hv := (hle (up + k)).mpr (by
      have := (mul_nonneg_iff_of_pos_left hinterval).mp hk0
      omega)
    refine ⟨by omega, by omega, hhigh, ?_⟩
    rw [hdiv, Int.mul_emod_right]
  · rintro ⟨hseven, hlow, hhigh, hmod⟩
    obtain ⟨v, hv⟩ := Int.dvd_of_emod_eq_zero hmod
    have hup := mul_le_mul_of_nonneg_left ((hle v).mp (by omega)) hinterval.le
    refine ⟨by omega, hhigh, ?_⟩
    have hsub : raw - (anchor + 7 * (interval * up)) = 7 * interval * (v - up) := by
      rw [mul_assoc, mul_sub]
      omega
    rw [hsub, Int.mul_emod_right]

theorem expands_weekly (hfreq : data.frequency = .weekly) (hinterval : 0 < data.interval)
    (hstart : data.seriesStartDate ≤ start) :
    Expands data start finish (weeklyDates data start finish) := by
  unfold weeklyDates
  cases hweekday : data.weekday with
  | none =>
    refine ⟨List.Pairwise.nil, ?_⟩
    intro d
    unfold Occurs
    rw [hfreq, hweekday]
    simp
  | some w =>
    have hiso := w.iso_mem
    have hcurrent := weekday_nextWeekday hiso.1 hiso.2 start
    have hanchor := weekday_nextWeekday hiso.1 hiso.2 data.seriesStartDate
    have hoccurs : ∀ raw, Occurs data raw ↔ weekday raw = w.iso ∧
        nextWeekday w.iso data.seriesStartDate ≤ raw ∧
          (raw - nextWeekday w.iso data.seriesStartDate) / 7 % data.interval = 0 := by
      intro raw
      unfold Occurs
      rw [hfreq, hweekday]
      simp
    have htaken : ∀ raw, Taken data start finish raw ↔ start ≤ raw ∧ raw ≤ finish := by
      intro raw
      have hle := adjust_le raw
      unfold Taken Beyond
      rw [hfreq]
      simp only
      omega
    simp only
    have hphase : ∀ raw, weekday raw = w.iso →
        (raw - nextWeekday w.iso data.seriesStartDate) % 7 = 0 := by
      intro raw hraw
      unfold weekday at hraw hanchor
      omega
    have hle : nextWeekday w.iso data.seriesStartDate ≤ nextWeekday w.iso start := by
      rw [nextWeekday_le_iff hcurrent]
      exact hstart.trans ((nextWeekday_le_iff hcurrent start).mp le_rfl)
    split
    · next hempty =>
      refine ⟨List.Pairwise.nil, ?_⟩
      intro d
      refine iff_of_false List.not_mem_nil ?_
      rintro ⟨raw, hraw, -, hin⟩
      have hin := (htaken raw).mp hin
      have hnext := (nextWeekday_le_iff ((hoccurs raw).mp hraw).1 start).mpr hin.1
      omega
    · have hmem := @mem_countUp_weeks finish _ _ _ hinterval (hphase _ hcurrent) hle
      refine ⟨pairwise_sortedSet _, ?_⟩
      intro d
      unfold dedupeSortedDates
      rw [mem_sortedSet, mem_foldl_append some (fun _ _ => rfl)]
      constructor
      · rintro ⟨cursor, hcursor, raw, hraw, hd, -⟩
        cases hraw
        obtain ⟨hseven, hlow, hhigh, hmod⟩ := (hmem cursor).mp hcursor
        have hday : weekday cursor = w.iso := by
          unfold weekday at hanchor ⊢
          omega
        refine ⟨cursor, (hoccurs cursor).mpr ⟨hday, hle.trans hlow, hmod⟩, hd, ?_⟩
        exact (htaken cursor).mpr ⟨(nextWeekday_le_iff hday start).mp hlow, hhigh⟩
      · rintro ⟨raw, hraw, hd, hin⟩
        have hin := (htaken raw).mp hin
        obtain ⟨hday, -, hmod⟩ := (hoccurs raw).mp hraw
        have hlow := (nextWeekday_le_iff hday start).mpr hin.1
        refine ⟨raw, (hmem raw).mpr ⟨hphase raw hday, hlow, hin.2, hmod⟩, raw, rfl, hd, .inl hin⟩

/-! ## Months and years -/

theorem monthIndex_clamp {month day : Int} (hday : 1 ≤ day) :
    monthIndex (clampDayOfMonth month day) = month := by
  have hmonth := daysInMonth_pos month
  apply monthIndex_ofMonthDay
  · exact le_min hday (by omega)
  · exact min_le_right _ _

theorem monthIndex_of_mem {month : Int} {weekday : Weekday} {raw : Int}
    (h : raw ∈ weekdayDatesInMonth month weekday) : monthIndex raw = month := by
  obtain ⟨day, hday, rfl⟩ := List.mem_map.mp (List.mem_filter.mp h).1
  have hin := (mem_countUp Int.one_pos).mp hday
  exact monthIndex_ofMonthDay hin.1 hin.2.1

section

variable {month : Int} {weekday : Weekday} {position : WeekdayPosition} {raw : Int}
  (h : monthlyWeekdayPositionDate month weekday position = some raw)
include h

theorem mem_of_position :
    raw ∈ weekdayDatesInMonth month weekday := by
  unfold monthlyWeekdayPositionDate at h
  cases position with
  | last => exact List.mem_of_getLast? h
  | first | second | third | fourth => exact List.mem_of_getElem? h

theorem monthIndex_position :
    monthIndex raw = month := monthIndex_of_mem (mem_of_position h)

end

/-- The series is one that `validate_recurrence_input` accepts. -/
def Valid (data : RecurrenceInput) : Prop := validateRecurrenceInput data = .ok ()

theorem Valid.interval_pos (h : Valid data) : 0 < data.interval := by
  unfold Valid validateRecurrenceInput at h
  split at h
  · cases h
  · omega

theorem Valid.start_le_end (h : Valid data) : data.seriesStartDate ≤ data.seriesEndDate := by
  unfold Valid validateRecurrenceInput at h
  split at h
  · cases h
  · split at h
    · cases h
    · omega

theorem Valid.dayOfMonth (h : Valid data) (hfreq : data.frequency = .monthly)
    (hmode : data.monthlyMode = some .byDayOfMonth) :
    ∃ day, data.dayOfMonth = some day ∧ 1 ≤ day := by
  unfold Valid validateRecurrenceInput at h
  split at h
  · cases h
  · split at h
    · cases h
    · rw [hfreq, hmode] at h
      cases hday : data.dayOfMonth with
      | none =>
        rw [hday] at h
        cases h
      | some day =>
        rw [hday] at h
        simp only at h
        split at h
        · next hin => exact ⟨day, rfl, hin.1⟩
        · cases h

theorem monthIndex_monthlyOccurrence (h : Valid data) (hfreq : data.frequency = .monthly)
    {month raw : Int} (hraw : monthlyOccurrence data month = some raw) :
    monthIndex raw = month := by
  unfold monthlyOccurrence at hraw
  split at hraw
  · next hmode =>
    obtain ⟨day, hday, hpos⟩ := h.dayOfMonth hfreq hmode
    rw [hday, if_neg (by simp; omega)] at hraw
    rw [← Option.some.inj hraw]
    exact monthIndex_clamp hpos
  · exact monthIndex_position hraw
  · cases hraw

theorem yearOf_yearlyOccurrence (data : RecurrenceInput) (year : Int) :
    yearOf (yearlyOccurrence data year) = year := by
  have hday := dayOf_pos data.seriesStartDate
  have hmonth : monthIndex (yearlyOccurrence data year) =
      12 * year + monthIndex data.seriesStartDate % 12 := by
    unfold yearlyOccurrence
    simp only
    split
    · next hin => exact monthIndex_ofMonthDay hday hin
    · exact monthIndex_clamp hday
  rw [← monthIndex_div, hmonth]
  omega

def inPhase (data : RecurrenceInput) (first : Int) (occurrence : Int → Option Int) (cursor : Int) :
    Option Int :=
  if 0 ≤ cursor - first ∧ (cursor - first) % data.interval = 0 then occurrence cursor else none

theorem inPhase_eq_some {first : Int} {occurrence : Int → Option Int} {cursor raw : Int} :
    inPhase data first occurrence cursor = some raw ↔
      (0 ≤ cursor - first ∧ (cursor - first) % data.interval = 0) ∧
        occurrence cursor = some raw := by
  unfold inPhase
  split
  · next h => exact (and_iff_right h).symm
  · next h => exact iff_of_false nofun (fun hin => h hin.1)

theorem expands_monthly (hvalid : Valid data) (hfreq : data.frequency = .monthly) :
    Expands data start finish (monthlyDates data start finish) := by
  apply expands_cells @monthIndex_mono
    (inPhase data (monthIndex data.seriesStartDate) (monthlyOccurrence data))
  · intro month raw hraw
    exact monthIndex_monthlyOccurrence hvalid hfreq (inPhase_eq_some.mp hraw).2
  · intro raw
    rw [inPhase_eq_some]
    unfold Occurs
    rw [hfreq, and_assoc]
  · intro raw
    unfold Beyond
    rw [hfreq]
  · intro dates month
    unfold inPhase
    simp only
    by_cases h : 0 ≤ month - monthIndex data.seriesStartDate ∧
        (month - monthIndex data.seriesStartDate) % data.interval = 0
    · cases monthlyOccurrence data month with
      | none | some occurrence => simp only [if_pos h]
    · rw [if_neg h, if_neg h]

theorem expands_yearly (hfreq : data.frequency = .yearly) :
    Expands data start finish (yearlyDates data start finish) := by
  apply expands_cells @yearOf_mono
    (inPhase data (yearOf data.seriesStartDate) fun year => some (yearlyOccurrence data year))
  · intro year raw hraw
    rw [← Option.some.inj (inPhase_eq_some.mp hraw).2]
    exact yearOf_yearlyOccurrence data year
  · intro raw
    rw [inPhase_eq_some, Option.some_inj]
    unfold Occurs
    rw [hfreq, and_assoc]
  · intro raw
    unfold Beyond
    rw [hfreq]
  · intro dates year
    unfold inPhase
    simp only
    by_cases h : 0 ≤ year - yearOf data.seriesStartDate ∧
        (year - yearOf data.seriesStartDate) % data.interval = 0
    · rw [if_pos h, if_pos h]
    · rw [if_neg h, if_neg h]

/-- Every expansion of a valid series is a sweep over its part of the window. -/
theorem iterOccurrenceDates_spec (hvalid : Valid data) (rangeStart rangeEnd : Option Int) :
    ∃ dates, iterOccurrenceDates data rangeStart rangeEnd = .ok dates ∧
      Expands data (clipped data rangeStart rangeEnd).1 (clipped data rangeStart rangeEnd).2
        dates := by
  have hstart : data.seriesStartDate ≤ (clipped data rangeStart rangeEnd).1 := le_max_left _ _
  have hunfold : iterOccurrenceDates data rangeStart rangeEnd =
      if (clipped data rangeStart rangeEnd).2 < (clipped data rangeStart rangeEnd).1 then .ok []
      else .ok (match data.frequency with
        | .daily => dailyDates data (clipped data rangeStart rangeEnd).1
          (clipped data rangeStart rangeEnd).2
        | .weekly => weeklyDates data (clipped data rangeStart rangeEnd).1
          (clipped data rangeStart rangeEnd).2
        | .monthly => monthlyDates data (clipped data rangeStart rangeEnd).1
          (clipped data rangeStart rangeEnd).2
        | .yearly => yearlyDates data (clipped data rangeStart rangeEnd).1
          (clipped data rangeStart rangeEnd).2) := by
    unfold iterOccurrenceDates
    rw [hvalid]
    rfl
  rw [hunfold]
  generalize (clipped data rangeStart rangeEnd).1 = start at hstart ⊢
  generalize (clipped data rangeStart rangeEnd).2 = finish
  split
  · next hempty =>
    refine ⟨[], rfl, List.Pairwise.nil, ?_⟩
    intro d
    refine iff_of_false List.not_mem_nil ?_
    rintro ⟨raw, -, -, hin⟩
    unfold Taken at hin
    omega
  · refine ⟨_, rfl, ?_⟩
    cases hfreq : data.frequency with
    | daily => exact expands_daily hfreq
    | weekly => exact expands_weekly hfreq hvalid.interval_pos hstart
    | monthly => exact expands_monthly hvalid hfreq
    | yearly => exact expands_yearly hfreq

/-! ## Occurrences are far from each other -/

theorem weekday_of_mem {month : Int} {weekday : Weekday} {raw : Int}
    (h : raw ∈ weekdayDatesInMonth month weekday) : Civil.weekday raw = weekday.iso := by
  simpa using (List.mem_filter.mp h).2

theorem weekday_position {month : Int} {weekday : Weekday} {position : WeekdayPosition}
    {raw : Int} (h : monthlyWeekdayPositionDate month weekday position = some raw) :
    Civil.weekday raw = weekday.iso := weekday_of_mem (mem_of_position h)

theorem eq_of_weekday {raw raw' : Int} (h : Civil.weekday raw = Civil.weekday raw')
    (hlow : raw' - 2 ≤ raw) (hhigh : raw ≤ raw' + 2) : raw = raw' := by
  unfold Civil.weekday at h
  omega

/-- The same day in a later month is more than two days later. -/
theorem clampDayOfMonth_lt {month month' day : Int} (hday : 1 ≤ day) (h : month < month') :
    clampDayOfMonth month day + 2 < clampDayOfMonth month' day := by
  have hnext : monthStart (month + 1) ≤ monthStart month' := by
    rw [← not_lt, monthStart_lt_iff]
    omega
  have hlength := daysInMonth_pos month
  have hlength' := daysInMonth_pos month'
  unfold clampDayOfMonth ofMonthDay
  unfold daysInMonth at hlength hlength' ⊢
  omega

theorem monthlyOccurrence_close (hvalid : Valid data) (hfreq : data.frequency = .monthly)
    {month month' raw raw' : Int} (h : monthlyOccurrence data month = some raw)
    (h' : monthlyOccurrence data month' = some raw') (hlow : raw' - 2 ≤ raw)
    (hhigh : raw ≤ raw' + 2) : raw = raw' := by
  unfold monthlyOccurrence at h h'
  split at h
  · next hmode =>
    obtain ⟨day, hday, hpos⟩ := hvalid.dayOfMonth hfreq hmode
    rw [hmode] at h'
    simp only at h'
    rw [hday, if_neg (by simp; omega)] at h h'
    have hraw : clampDayOfMonth month day = raw := Option.some.inj h
    have hraw' : clampDayOfMonth month' day = raw' := Option.some.inj h'
    rcases lt_trichotomy month month' with hlt | rfl | hlt
    · have hfar := clampDayOfMonth_lt hpos hlt
      omega
    · rw [← hraw, hraw']
    · have hfar := clampDayOfMonth_lt hpos hlt
      omega
  · next hmode hweekday hposition =>
    rw [hmode, hweekday, hposition] at h'
    exact eq_of_weekday ((weekday_position h).trans (weekday_position h').symm) hlow hhigh
  · cases h

/-- The occurrence of a year is the day of the start, or the last day of its month. -/
theorem yearlyOccurrence_eq_clamp (data : RecurrenceInput) (year : Int) :
    yearlyOccurrence data year =
      clampDayOfMonth (12 * year + monthIndex data.seriesStartDate % 12)
        (dayOf data.seriesStartDate) := by
  unfold yearlyOccurrence
  simp only
  split
  · next hin =>
    unfold clampDayOfMonth
    rw [min_eq_left hin]
  · rfl

theorem yearlyOccurrence_close {year year' : Int}
    (hlow : yearlyOccurrence data year' - 2 ≤ yearlyOccurrence data year)
    (hhigh : yearlyOccurrence data year ≤ yearlyOccurrence data year' + 2) : year = year' := by
  have hfar : ∀ {y y' : Int}, y < y' →
      yearlyOccurrence data y + 2 < yearlyOccurrence data y' := by
    intro y y' hlt
    have hday := dayOf_pos data.seriesStartDate
    rw [yearlyOccurrence_eq_clamp, yearlyOccurrence_eq_clamp]
    apply clampDayOfMonth_lt hday
    omega
  rcases lt_trichotomy year year' with hlt | heq | hlt
  · have := hfar hlt
    omega
  · exact heq
  · have := hfar hlt
    omega

/-- Different occurrences are moved to different dates. -/
theorem Occurs.eq_of_adjust (hvalid : Valid data) {raw raw' : Int} (h : Occurs data raw)
    (h' : Occurs data raw')
    (heq : adjustWeekendToPrecedingWeekday raw = adjustWeekendToPrecedingWeekday raw') :
    raw = raw' := by
  have hclose : raw' - 2 ≤ raw ∧ raw ≤ raw' + 2 := by
    have hle := adjust_le raw
    have hle' := adjust_le raw'
    have hge := sub_two_le_adjust raw
    have hge' := sub_two_le_adjust raw'
    omega
  unfold Occurs at h h'
  cases hfreq : data.frequency with
  | daily =>
    rw [hfreq] at h h'
    rwa [adjust_of_weekday h.1, adjust_of_weekday h'.1] at heq
  | weekly =>
    rw [hfreq] at h h'
    obtain ⟨w, hw, hday, -⟩ := h
    obtain ⟨w', hw', hday', -⟩ := h'
    cases hw.symm.trans hw'
    exact eq_of_weekday (hday.trans hday'.symm) hclose.1 hclose.2
  | monthly =>
    rw [hfreq] at h h'
    exact monthlyOccurrence_close hvalid hfreq h.2.2 h'.2.2 hclose.1 hclose.2
  | yearly =>
    rw [hfreq] at h h'
    have hyear : yearOf raw = yearOf raw' := by
      apply @yearlyOccurrence_close data
      · rw [h.2.2, h'.2.2]
        exact hclose.1
      · rw [h.2.2, h'.2.2]
        exact hclose.2
    rw [← h.2.2, hyear, h'.2.2]

/-! ## The edges of a window -/

theorem Beyond.anti {bound bound' raw : Int} (hle : bound ≤ bound') (h : Beyond data bound' raw) :
    Beyond data bound raw := by
  unfold Beyond at h ⊢
  cases hfreq : data.frequency with
  | daily | weekly =>
    rw [hfreq] at h
    exact lt_of_le_of_lt hle h
  | monthly =>
    rw [hfreq] at h
    exact lt_of_le_of_lt (monthIndex_mono hle) h
  | yearly =>
    rw [hfreq] at h
    exact lt_of_le_of_lt (yearOf_mono hle) h

theorem not_beyond {bound raw : Int} (h : raw ≤ bound) : ¬ Beyond data bound raw := by
  unfold Beyond
  cases data.frequency with
  | daily | weekly => exact not_lt.mpr h
  | monthly => exact not_lt.mpr (monthIndex_mono h)
  | yearly => exact not_lt.mpr (yearOf_mono h)

theorem Taken.mono {start' finish' raw : Int} (hstart : start' ≤ start) (hfinish : finish ≤ finish')
    (h : Taken data start finish raw) : Taken data start' finish' raw := by
  rcases h with ⟨hlow, hhigh⟩ | ⟨hlow, hhigh, hreach⟩
  · exact .inl ⟨hstart.trans hlow, hhigh.trans hfinish⟩
  · refine .inr ⟨hstart.trans hlow, hhigh.trans hfinish, ?_⟩
    intro hbeyond
    exact hreach (hbeyond.anti hfinish)

/-- No occurrence of the series is moved over the first day of the window, and none is moved over
the last day from a month or a year that the loops do not come to or from before the series. -/
structure Contained (data : RecurrenceInput) (rangeStart rangeEnd : Int) : Prop where
  left : ∀ raw, Occurs data raw → rangeStart ≤ raw → raw ≤ rangeEnd →
    rangeStart ≤ adjustWeekendToPrecedingWeekday raw
  right : ∀ raw, Occurs data raw → rangeStart ≤ adjustWeekendToPrecedingWeekday raw →
    adjustWeekendToPrecedingWeekday raw ≤ rangeEnd → rangeEnd < raw →
      data.seriesStartDate ≤ adjustWeekendToPrecedingWeekday raw ∧ ¬ Beyond data rangeEnd raw

/-- An occurrence that is moved over the last day `seam` of a window lies in a later month or year,
and the sweep up to `finish` comes to it or ends before its month or year. -/
def SeamKept (data : RecurrenceInput) (finish seam : Int) : Prop :=
  ∀ raw, Occurs data raw → adjustWeekendToPrecedingWeekday raw ≤ seam → seam < raw →
    Beyond data seam raw ∧ (finish < raw → Beyond data finish raw)

/-- In a window that separates no occurrence from its date, a sweep takes what the whole series has
there. -/
theorem taken_iff_inside {rangeStart rangeEnd raw : Int}
    (hcontained : Contained data rangeStart rangeEnd) (hraw : Occurs data raw) :
    Taken data (max data.seriesStartDate rangeStart) (min data.seriesEndDate rangeEnd) raw ↔
      Taken data data.seriesStartDate data.seriesEndDate raw ∧
        rangeStart ≤ adjustWeekendToPrecedingWeekday raw ∧
        adjustWeekendToPrecedingWeekday raw ≤ rangeEnd := by
  have hle := adjust_le raw
  constructor
  · intro h
    refine ⟨h.mono (le_max_left _ _) (min_le_left _ _), ?_⟩
    rcases h with ⟨hlow, hhigh⟩ | ⟨hlow, hhigh, -⟩
    · have hstart := (le_max_right data.seriesStartDate rangeStart).trans hlow
      have hend := hhigh.trans (min_le_right data.seriesEndDate rangeEnd)
      exact ⟨hcontained.left raw hraw hstart hend, hle.trans hend⟩
    · exact ⟨(le_max_right _ _).trans hlow, hhigh.trans (min_le_right _ _)⟩
  · rintro ⟨hfull, hstart, hend⟩
    rcases le_or_gt raw rangeEnd with hraw' | hraw'
    · rcases hfull with ⟨hlow, hhigh⟩ | ⟨hlow, hhigh, hreach⟩
      · exact .inl ⟨max_le hlow (hstart.trans hle), le_min hhigh hraw'⟩
      · refine .inr ⟨max_le hlow hstart, le_min hhigh hend, ?_⟩
        rcases min_choice data.seriesEndDate rangeEnd with hmin | hmin
        · rwa [hmin]
        · rw [hmin]
          exact not_beyond hraw'
    · obtain ⟨hlow, hreach⟩ := hcontained.right raw hraw hstart hend hraw'
      have hhigh : adjustWeekendToPrecedingWeekday raw ≤ data.seriesEndDate := by
        rcases hfull with ⟨-, hhigh⟩ | ⟨-, hhigh, -⟩
        · exact hle.trans hhigh
        · exact hhigh
      refine .inr ⟨max_le hlow hstart, le_min hhigh hend, ?_⟩
      rcases min_choice data.seriesEndDate rangeEnd with hmin | hmin
      · rw [hmin]
        rcases hfull with ⟨-, hend'⟩ | ⟨-, -, hreach'⟩
        · exact not_beyond hend'
        · exact hreach'
      · rwa [hmin]

theorem adjust_of_daily (hfreq : data.frequency = .daily) {raw : Int} (hraw : Occurs data raw) :
    adjustWeekendToPrecedingWeekday raw = raw := by
  unfold Occurs at hraw
  rw [hfreq] at hraw
  exact adjust_of_weekday hraw.1

theorem contained_of_daily (hfreq : data.frequency = .daily) (rangeStart rangeEnd : Int) :
    Contained data rangeStart rangeEnd := by
  constructor
  · intro raw hraw hlow _
    rwa [adjust_of_daily hfreq hraw]
  · intro raw hraw _ hhigh hlt
    rw [adjust_of_daily hfreq hraw] at hhigh
    omega

/-- By days and by weeks an occurrence belongs to the window of its original date. -/
theorem seamKept_of_daily_or_weekly (hfreq : data.frequency = .daily ∨ data.frequency = .weekly)
    (finish seam : Int) : SeamKept data finish seam := by
  intro raw _ _ hlt
  unfold Beyond
  rcases hfreq with hfreq | hfreq
  · rw [hfreq]
    exact ⟨hlt, id⟩
  · rw [hfreq]
    exact ⟨hlt, id⟩

/-- Over a seam a sweep takes an occurrence exactly when one of the two parts does, and never both
do. -/
theorem taken_seam {rangeStart seam rangeEnd raw : Int} (hseam : rangeStart ≤ seam)
    (hkept : SeamKept data (min data.seriesEndDate rangeEnd) seam) (hraw : Occurs data raw)
    (hend : seam < rangeEnd) :
    (Taken data (max data.seriesStartDate rangeStart) (min data.seriesEndDate rangeEnd) raw ↔
        Taken data (max data.seriesStartDate rangeStart) (min data.seriesEndDate seam) raw ∨
          Taken data (max data.seriesStartDate (seam + 1)) (min data.seriesEndDate rangeEnd) raw) ∧
      ¬ (Taken data (max data.seriesStartDate rangeStart) (min data.seriesEndDate seam) raw ∧
        Taken data (max data.seriesStartDate (seam + 1)) (min data.seriesEndDate rangeEnd) raw) := by
  have hle := adjust_le raw
  have hmono : Taken data (max data.seriesStartDate rangeStart) (min data.seriesEndDate seam) raw ∨
      Taken data (max data.seriesStartDate (seam + 1)) (min data.seriesEndDate rangeEnd) raw →
        Taken data (max data.seriesStartDate rangeStart) (min data.seriesEndDate rangeEnd) raw := by
    rintro (h | h)
    · exact h.mono le_rfl (min_le_min_left _ hend.le)
    · exact h.mono (max_le_max_left _ (by omega)) le_rfl
  rcases le_or_gt raw seam with hbefore | hafter
  · -- the occurrence and its date are before the seam
    have hnot : ¬ Taken data (max data.seriesStartDate (seam + 1))
        (min data.seriesEndDate rangeEnd) raw := by
      unfold Taken
      omega
    refine ⟨⟨?_, hmono⟩, fun h => hnot h.2⟩
    rintro (⟨hlow, hhigh⟩ | ⟨hlow, hhigh, hreach⟩)
    · exact .inl (.inl ⟨hlow, le_min (hhigh.trans (min_le_left _ _)) hbefore⟩)
    · refine .inl (.inr ⟨hlow, le_min (hhigh.trans (min_le_left _ _)) (hle.trans hbefore), ?_⟩)
      rcases min_choice data.seriesEndDate seam with hmin | hmin
      · rw [hmin]
        intro hbeyond
        exact hreach (hbeyond.anti (min_le_left _ _))
      · rw [hmin]
        exact not_beyond hbefore
  · rcases le_or_gt (adjustWeekendToPrecedingWeekday raw) seam with hover | hclear
    · -- its date is before the seam and it is after: the part of the original date takes it
      obtain ⟨hbeyond, hlast⟩ := hkept raw hraw hover hafter
      have hnot : ¬ Taken data (max data.seriesStartDate rangeStart)
          (min data.seriesEndDate seam) raw := by
        rintro (⟨hlow, hhigh⟩ | ⟨-, -, hreach⟩)
        · have := hhigh.trans (min_le_right _ _)
          omega
        · exact hreach (hbeyond.anti (min_le_right _ _))
      refine ⟨⟨?_, hmono⟩, fun h => hnot h.1⟩
      rintro (⟨hlow, hhigh⟩ | ⟨hlow, hhigh, hreach⟩)
      · exact .inr (.inl ⟨by omega, hhigh⟩)
      · rcases le_or_gt raw (min data.seriesEndDate rangeEnd) with hin | hout
        · exact .inr (.inl ⟨by omega, hin⟩)
        · exact absurd (hlast hout) hreach
    · -- the occurrence and its date are after the seam
      have hnot : ¬ Taken data (max data.seriesStartDate rangeStart)
          (min data.seriesEndDate seam) raw := by
        unfold Taken
        omega
      refine ⟨⟨?_, hmono⟩, fun h => hnot h.1⟩
      rintro (⟨hlow, hhigh⟩ | ⟨hlow, hhigh, hreach⟩)
      · exact .inr (.inl ⟨by omega, hhigh⟩)
      · exact .inr (.inr ⟨by omega, hhigh, hreach⟩)

/-- The expansion of a window is the full expansion's part in it. -/
def WindowLaw (data : RecurrenceInput) (rangeStart rangeEnd : Int) : Prop :=
  ∃ full dates, iterOccurrenceDates data none none = .ok full ∧
    iterOccurrenceDates data (some rangeStart) (some rangeEnd) = .ok dates ∧
    dates = full.filter fun d => decide (rangeStart ≤ d ∧ d ≤ rangeEnd)

/-- Two adjacent windows give every date of their union exactly once. -/
def SeamLaw (data : RecurrenceInput) (rangeStart seam rangeEnd : Int) : Prop :=
  ∃ whole left right,
    iterOccurrenceDates data (some rangeStart) (some rangeEnd) = .ok whole ∧
    iterOccurrenceDates data (some rangeStart) (some seam) = .ok left ∧
    iterOccurrenceDates data (some (seam + 1)) (some rangeEnd) = .ok right ∧
    whole.Nodup ∧ (left ++ right).Perm whole

theorem iterOccurrenceDates_full (hvalid : Valid data) :
    ∃ full, iterOccurrenceDates data none none = .ok full ∧
      Expands data data.seriesStartDate data.seriesEndDate full := by
  have hspec := iterOccurrenceDates_spec hvalid none none
  unfold clipped at hspec
  rwa [Option.getD_none, Option.getD_none, max_self, min_self] at hspec

theorem windowLaw_of_contained (hvalid : Valid data) {rangeStart rangeEnd : Int}
    (hcontained : Contained data rangeStart rangeEnd) : WindowLaw data rangeStart rangeEnd := by
  obtain ⟨full, hfull, hexpands⟩ := iterOccurrenceDates_full hvalid
  obtain ⟨dates, hdates, hwindow⟩ :=
    iterOccurrenceDates_spec hvalid (some rangeStart) (some rangeEnd)
  refine ⟨full, dates, hfull, hdates, ?_⟩
  apply eq_of_increasing hwindow.increasing (hexpands.increasing.filter _)
  intro d
  rw [hwindow.mem, List.mem_filter, hexpands.mem, decide_eq_true_eq]
  constructor
  · rintro ⟨raw, hraw, rfl, htaken⟩
    obtain ⟨hin, hlow, hhigh⟩ := (taken_iff_inside hcontained hraw).mp htaken
    exact ⟨⟨raw, hraw, rfl, hin⟩, hlow, hhigh⟩
  · rintro ⟨⟨raw, hraw, rfl, hin⟩, hlow, hhigh⟩
    exact ⟨raw, hraw, rfl, (taken_iff_inside hcontained hraw).mpr ⟨hin, hlow, hhigh⟩⟩

theorem seamLaw_of_kept (hvalid : Valid data) {rangeStart seam rangeEnd : Int}
    (hseam : rangeStart ≤ seam) (hend : seam < rangeEnd)
    (hkept : SeamKept data (min data.seriesEndDate rangeEnd) seam) :
    SeamLaw data rangeStart seam rangeEnd := by
  obtain ⟨whole, hwhole, hw⟩ :=
    iterOccurrenceDates_spec hvalid (some rangeStart) (some rangeEnd)
  obtain ⟨left, hleft, hl⟩ := iterOccurrenceDates_spec hvalid (some rangeStart) (some seam)
  obtain ⟨right, hright, hr⟩ :=
    iterOccurrenceDates_spec hvalid (some (seam + 1)) (some rangeEnd)
  have hnodup : whole.Nodup := hw.increasing.imp ne_of_lt
  refine ⟨whole, left, right, hwhole, hleft, hright, hnodup, ?_⟩
  have hsplit := fun {raw} (hraw : Occurs data raw) => taken_seam hseam hkept hraw hend
  have happend : (left ++ right).Nodup := by
    rw [List.nodup_append]
    refine ⟨hl.increasing.imp ne_of_lt, hr.increasing.imp ne_of_lt, ?_⟩
    rintro d hd d' hd' rfl
    obtain ⟨raw, hraw, hadj, htaken⟩ := (hl.mem d).mp hd
    obtain ⟨raw', hraw', hadj', htaken'⟩ := (hr.mem d).mp hd'
    obtain rfl := hraw.eq_of_adjust hvalid hraw' (hadj.trans hadj'.symm)
    exact (hsplit hraw).2 ⟨htaken, htaken'⟩
  apply (List.perm_ext_iff_of_nodup happend hnodup).mpr
  intro d
  rw [List.mem_append, hl.mem, hr.mem, hw.mem]
  constructor
  · rintro (⟨raw, hraw, hadj, htaken⟩ | ⟨raw, hraw, hadj, htaken⟩)
    · exact ⟨raw, hraw, hadj, (hsplit hraw).1.mpr (.inl htaken)⟩
    · exact ⟨raw, hraw, hadj, (hsplit hraw).1.mpr (.inr htaken)⟩
  · rintro ⟨raw, hraw, hadj, htaken⟩
    rcases (hsplit hraw).1.mp htaken with h | h
    · exact .inl ⟨raw, hraw, hadj, h⟩
    · exact .inr ⟨raw, hraw, hadj, h⟩

structure Windowed (data : RecurrenceInput) (rangeStart rangeEnd : Int) : Prop where
  /-- Only dates of the full expansion, whose original or moved date lies in the window. -/
  sound : ∃ full dates, iterOccurrenceDates data none none = .ok full ∧
    iterOccurrenceDates data (some rangeStart) (some rangeEnd) = .ok dates ∧
    ∀ d ∈ dates, d ∈ full ∧ ∃ raw, Occurs data raw ∧ adjustWeekendToPrecedingWeekday raw = d ∧
      ((rangeStart ≤ raw ∧ raw ≤ rangeEnd) ∨ (rangeStart ≤ d ∧ d ≤ rangeEnd))
  /-- Every occurrence of the series whose original date lies in the window. -/
  complete : ∃ dates, iterOccurrenceDates data (some rangeStart) (some rangeEnd) = .ok dates ∧
    ∀ raw, Occurs data raw → data.seriesStartDate ≤ raw → raw ≤ data.seriesEndDate →
      rangeStart ≤ raw → raw ≤ rangeEnd → adjustWeekendToPrecedingWeekday raw ∈ dates
  inside : data.frequency = .daily ∨ Contained data rangeStart rangeEnd →
    WindowLaw data rangeStart rangeEnd
  seam : ∀ seam, rangeStart ≤ seam → seam < rangeEnd →
    data.frequency = .daily ∨ data.frequency = .weekly ∨
      SeamKept data (min data.seriesEndDate rangeEnd) seam →
    SeamLaw data rangeStart seam rangeEnd

/-- Windows take occurrences by their original or their moved date; they are the full expansion's
parts, and adjacent windows give each occurrence once, where no occurrence is separated from its
date. -/
theorem iterOccurrenceDates_windowed (hvalid : validateRecurrenceInput data = .ok ())
    (rangeStart rangeEnd : Int) : Windowed data rangeStart rangeEnd := by
  obtain ⟨full, hfull, hexpands⟩ := iterOccurrenceDates_full hvalid
  obtain ⟨dates, hdates, hwindow⟩ :=
    iterOccurrenceDates_spec hvalid (some rangeStart) (some rangeEnd)
  refine ⟨⟨full, dates, hfull, hdates, ?_⟩, ⟨dates, hdates, ?_⟩, ?_, ?_⟩
  · intro d hd
    obtain ⟨raw, hraw, hadj, htaken⟩ := (hwindow.mem d).mp hd
    have hin := htaken.mono (le_max_left _ _) (min_le_left _ _)
    refine ⟨(hexpands.mem d).mpr ⟨raw, hraw, hadj, hin⟩, raw, hraw, hadj, ?_⟩
    rcases htaken with ⟨hlow, hhigh⟩ | ⟨hlow, hhigh, -⟩
    · exact .inl ⟨(le_max_right _ _).trans hlow, hhigh.trans (min_le_right _ _)⟩
    · rw [hadj] at hlow hhigh
      exact .inr ⟨(le_max_right _ _).trans hlow, hhigh.trans (min_le_right _ _)⟩
  · intro raw hraw hlow hhigh hstart hend
    exact (hwindow.mem _).mpr ⟨raw, hraw, rfl, .inl ⟨max_le hlow hstart, le_min hhigh hend⟩⟩
  · rintro (hfreq | hcontained)
    · exact windowLaw_of_contained hvalid (contained_of_daily hfreq _ _)
    · exact windowLaw_of_contained hvalid hcontained
  · rintro seam hseam hend (hfreq | hfreq | hkept)
    · exact seamLaw_of_kept hvalid hseam hend (seamKept_of_daily_or_weekly (.inl hfreq) _ _)
    · exact seamLaw_of_kept hvalid hseam hend (seamKept_of_daily_or_weekly (.inr hfreq) _ _)
    · exact seamLaw_of_kept hvalid hseam hend hkept

/-- On the 15th of every month from January to March 2026; the 15th of February is a Sunday. -/
def fifteenths : RecurrenceInput :=
  { frequency := .monthly
    interval := 1
    seriesStartDate := ofMonthDay (12 * 2026) 1
    seriesEndDate := ofMonthDay (12 * 2026 + 2) 31
    monthlyMode := some .byDayOfMonth
    dayOfMonth := some 15
    weekday := none
    weekdayPosition := none }

theorem iterOccurrenceDates_windowed_fifteenths :
    Windowed fifteenths (ofMonthDay (12 * 2026 + 1) 1) (ofMonthDay (12 * 2026 + 2) 31) :=
  iterOccurrenceDates_windowed (by decide) _ _

/-- The window from the 14th of February on yields the 13th. -/
theorem windowLaw_fifteenths_fails :
    ¬ WindowLaw fifteenths (ofMonthDay (12 * 2026 + 1) 14) (ofMonthDay (12 * 2026 + 2) 31) := by
  rintro ⟨full, dates, -, hdates, heq⟩
  have hrun : iterOccurrenceDates fifteenths (some (ofMonthDay (12 * 2026 + 1) 14))
      (some (ofMonthDay (12 * 2026 + 2) 31)) =
        .ok [ofMonthDay (12 * 2026 + 1) 13, ofMonthDay (12 * 2026 + 2) 13] := by
    decide +kernel
  rw [hrun] at hdates
  have hmem : ofMonthDay (12 * 2026 + 1) 13 ∈ dates := by
    rw [← Except.ok.inj hdates]
    exact .head _
  rw [heq] at hmem
  exact absurd (List.mem_filter.mp hmem).2 (by decide +kernel)

end AgentBack.Meetings
