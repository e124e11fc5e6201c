import AgentBack.Laws.Meetings.Window
import AgentBack.Meetings.OutlookSeries

/-!
# The same meetings in Outlook

What is sent for a series denotes the dates of the local rule only when the re-encoding loses
nothing: the interval of a daily and a yearly series is dropped, weeks are counted from the week of
the start, and no date is moved from a weekend. The numbers of a relative pattern are one less than
those that the client reads, so that series by the position of a weekday are refused or are other
series.
-/

namespace AgentBack.Meetings

open Civil

variable {data : RecurrenceInput} {exchange : Exchange}

/-! ## What is sent -/

theorem daysInMonth_le (month : Int) : daysInMonth month ≤ 31 := by
  have h := (monthStart_step month).2
  unfold daysInMonth
  omega

theorem dayOf_le (d : Int) : dayOf d ≤ daysInMonth (monthIndex d) := by
  have hlt := lt_monthStart d
  unfold dayOf daysInMonth
  omega

def sentPattern (data : RecurrenceInput) : Pattern :=
  match data.frequency with
  | .daily => .weekly 1 workweekOutlook
  | .weekly => .weekly data.interval data.weekday.toList
  | .monthly =>
    if data.monthlyMode = some .byWeekdayPosition then
      .relativeMonthly data.interval ((data.weekday.map fun named => (allWeekdays.idxOf named : Int)).getD 0)
        ((data.weekdayPosition.map fun position => (allPositions.idxOf position : Int)).getD 0)
    else .absoluteMonthly data.interval (data.dayOfMonth.getD 1)
  | .yearly => .absoluteMonthly 12 (dayOf data.seriesStartDate)

def sent (data : RecurrenceInput) : Recurrence :=
  { pattern := sentPattern data, start := combineStart data, finish := data.seriesEndDate }

theorem Valid.cases (h : Valid data) :
    data.frequency = .daily ∨ (data.frequency = .weekly ∧ ∃ named, data.weekday = some named) ∨
      (data.frequency = .monthly ∧ data.monthlyMode = some .byDayOfMonth ∧
        ∃ day, data.dayOfMonth = some day ∧ 1 ≤ day ∧ day ≤ 31) ∨
      (data.frequency = .monthly ∧ data.monthlyMode = some .byWeekdayPosition ∧
        ∃ named position, data.weekday = some named ∧ data.weekdayPosition = some position) ∨
      data.frequency = .yearly := by
  unfold Valid validateRecurrenceInput at h
  split at h
  · cases h
  · split at h
    · cases h
    · cases hfreq : data.frequency with
      | daily => exact .inl rfl
      | yearly => exact .inr (.inr (.inr (.inr rfl)))
      | weekly =>
        rw [hfreq] at h
        cases hweekday : data.weekday with
        | none => simp [hweekday] at h
        | some named => exact .inr (.inl ⟨rfl, named, rfl⟩)
      | monthly =>
        rw [hfreq] at h
        cases hmode : data.monthlyMode with
        | none => simp [hmode] at h
        | some mode =>
          cases mode with
          | byDayOfMonth =>
            cases hday : data.dayOfMonth with
            | none => simp [hmode, hday] at h
            | some day =>
              simp only [hmode, hday] at h
              split at h
              · next hin => exact .inr (.inr (.inl ⟨rfl, rfl, day, rfl, hin⟩))
              · cases h
          | byWeekdayPosition =>
            cases hweekday : data.weekday with
            | none => simp [hmode, hweekday] at h
            | some named =>
              cases hposition : data.weekdayPosition with
              | none => simp [hmode, hposition] at h
              | some position =>
                exact .inr (.inr (.inr (.inl ⟨rfl, rfl, named, position, rfl, rfl⟩)))

/-- Only a daily series starts on another day than it says. -/
theorem combineStart_of_ne_daily (h : data.frequency ≠ .daily) :
    combineStart data = data.seriesStartDate :=
  if_neg h

variable {d : Int} {recurrence : Recurrence} {interval : Int} {named : Weekday}

/-- For a valid series both ways send the same, unless the moved start is after the end. -/
theorem buildRecurrence_eq_ok_iff (h : Valid data) :
    buildRecurrence data (combineStart data) = .ok recurrence ↔
      combineStart data ≤ data.seriesEndDate ∧ recurrence = sent data := by
  unfold sent sentPattern buildRecurrence
  have hend : ∀ pattern, (if data.seriesEndDate < combineStart data then
      .error "series_end_date не может быть раньше series_start_date"
      else .ok { pattern, start := combineStart data, finish := data.seriesEndDate } :
        Except String Recurrence) = .ok recurrence ↔ combineStart data ≤ data.seriesEndDate ∧
      recurrence = { pattern, start := combineStart data, finish := data.seriesEndDate } := by
    intro pattern
    split
    · next hlt => exact iff_of_false (by simp) fun hall => absurd hall.1 (not_le.mpr hlt)
    · next hle => simp [not_lt.mp hle, eq_comm]
  rcases h.cases with hfreq | ⟨hfreq, named, hnamed⟩ | ⟨hfreq, hmode, day, hday, -⟩ |
    ⟨hfreq, hmode, named, position, hnamed, hposition⟩ | hfreq
  · simp only [hfreq]
    exact hend _
  · simp only [hfreq, hnamed]
    exact hend _
  · simp only [hfreq, hmode, hday]
    exact hend _
  · simp only [hfreq, hmode, hnamed, hposition]
    exact hend _
  · have hstart := combineStart_of_ne_daily (by rw [hfreq]; decide)
    simp only [hfreq]
    rw [← hstart]
    exact hend _

theorem toolRecurrence_weekly_eq_ok_iff {start finish : Int} {weekdays : List Weekday} (hinterval : 0 < interval)
    (hweekdays : normalizeWeekdays (some weekdays) start = weekdays) :
    toolRecurrence .weekly start interval (some weekdays) none finish = .ok recurrence ↔
      start ≤ finish ∧ recurrence = { pattern := .weekly interval weekdays, start, finish } := by
  unfold toolRecurrence
  rw [if_neg (by omega), hweekdays]
  change (if finish < start then _ else _) = _ ↔ _
  split
  · next hlt => exact iff_of_false (by simp) fun hall => absurd hall.1 (not_le.mpr hlt)
  · next hle => simp [not_lt.mp hle, eq_comm]

theorem toolRecurrence_monthly_eq_ok_iff {start finish day : Int} (hinterval : 0 < interval) (hday : 1 ≤ day ∧ day ≤ 31) :
    toolRecurrence .monthly start interval none (some day) finish = .ok recurrence ↔
      start ≤ finish ∧ recurrence = { pattern := .absoluteMonthly interval day, start, finish } := by
  have hin : ¬ (day < 1 ∨ 31 < day) := by omega
  unfold toolRecurrence
  rw [if_neg (by omega)]
  simp only [Option.getD_some, if_neg hin]
  change (if finish < start then _ else _) = _ ↔ _
  split
  · next hlt => exact iff_of_false (by simp) fun hall => absurd hall.1 (not_le.mpr hlt)
  · next hle => simp [not_lt.mp hle, eq_comm]

theorem dayOf_mem (d : Int) : 1 ≤ dayOf d ∧ dayOf d ≤ 31 :=
  ⟨dayOf_pos d, (dayOf_le d).trans (daysInMonth_le _)⟩

theorem dispatchScheduledMeetingInvite_eq_ok_iff (h : Valid data) :
    dispatchScheduledMeetingInvite data = .ok recurrence ↔
      combineStart data ≤ data.seriesEndDate ∧ recurrence = sent data := by
  rcases h.cases with hfreq | ⟨hfreq, named, hnamed⟩ | ⟨hfreq, hmode, day, hday, hin⟩ |
    ⟨hfreq, hmode, named, position, hnamed, hposition⟩ | hfreq
  · unfold dispatchScheduledMeetingInvite sent sentPattern
    simp only [hfreq]
    exact toolRecurrence_weekly_eq_ok_iff Int.one_pos rfl
  · unfold dispatchScheduledMeetingInvite sent sentPattern
    simp only [hfreq, hnamed]
    exact toolRecurrence_weekly_eq_ok_iff h.interval_pos rfl
  · unfold dispatchScheduledMeetingInvite sent sentPattern
    simp only [hfreq, hmode, hday]
    exact toolRecurrence_monthly_eq_ok_iff h.interval_pos hin
  · have hboth : dispatchScheduledMeetingInvite data = buildRecurrence data (combineStart data) := by
      unfold dispatchScheduledMeetingInvite
      simp only [hfreq, hmode, if_true]
    rw [hboth]
    exact buildRecurrence_eq_ok_iff h
  · unfold dispatchScheduledMeetingInvite sent sentPattern
    simp only [hfreq]
    exact toolRecurrence_monthly_eq_ok_iff (by decide) (dayOf_mem _)

/-- A result of sending a series describes it: there is a recurrence, the client takes it, and it
denotes the dates of the local rule. -/
def Describes (exchange : Exchange) (data : RecurrenceInput) (result : Except String Recurrence) :
    Prop :=
  ∃ recurrence dates, result = .ok recurrence ∧ recurrence.pattern.accepted exchange = true ∧
    iterOccurrenceDates data none none = .ok dates ∧
      ∀ d, recurrence.Denotes exchange d ↔ d ∈ dates

/-- Outlook and the local rule speak of the same meetings, whichever way the series was sent. -/
def SameMeetings (exchange : Exchange) (data : RecurrenceInput) : Prop :=
  Describes exchange data (dispatchScheduledMeetingInvite data) ∧
    Describes exchange data (buildRecurrence data (combineStart data))

def Local (data : RecurrenceInput) (d : Int) : Prop :=
  ∃ raw, Occurs data raw ∧ adjustWeekendToPrecedingWeekday raw = d ∧
    Taken data data.seriesStartDate data.seriesEndDate raw

theorem local_dates (h : Valid data) :
    ∃ dates, iterOccurrenceDates data none none = .ok dates ∧ ∀ d, d ∈ dates ↔ Local data d := by
  obtain ⟨dates, hdates, hexpands⟩ := iterOccurrenceDates_spec h none none
  refine ⟨dates, hdates, fun d => ?_⟩
  rw [hexpands.mem]
  have hclip : clipped data none none = (data.seriesStartDate, data.seriesEndDate) := by
    unfold clipped
    rw [Option.getD_none, Option.getD_none, max_self, min_self]
  rw [hclip]
  rfl

theorem sameMeetings_iff_sent (h : Valid data) :
    SameMeetings exchange data ↔ combineStart data ≤ data.seriesEndDate ∧
      (sentPattern data).accepted exchange = true ∧
        ∀ d, (sent data).Denotes exchange d ↔ Local data d := by
  obtain ⟨dates, hdates, hmem⟩ := local_dates h
  have hone : ∀ result : Except String Recurrence,
      (∀ recurrence, result = .ok recurrence ↔
        combineStart data ≤ data.seriesEndDate ∧ recurrence = sent data) →
      (Describes exchange data result ↔ combineStart data ≤ data.seriesEndDate ∧
        (sentPattern data).accepted exchange = true ∧
          ∀ d, (sent data).Denotes exchange d ↔ Local data d) := by
    intro result hresult
    constructor
    · rintro ⟨recurrence, found, hok, haccepted, hfound, hdenotes⟩
      obtain ⟨hstart, rfl⟩ := (hresult recurrence).mp hok
      cases hdates.symm.trans hfound
      exact ⟨hstart, haccepted, fun d => (hdenotes d).trans (hmem d)⟩
    · rintro ⟨hstart, haccepted, hdenotes⟩
      exact ⟨sent data, dates, (hresult _).mpr ⟨hstart, rfl⟩, haccepted, hdates,
        fun d => (hdenotes d).trans (hmem d).symm⟩
  unfold SameMeetings
  rw [hone _ fun _ => dispatchScheduledMeetingInvite_eq_ok_iff h,
    hone _ fun _ => buildRecurrence_eq_ok_iff h, and_self]

/-- Where the sent dates are the occurrences within the series, they are those of the local rule
exactly when no occurrence that it takes falls on a weekend. -/
theorem same_iff_no_weekend (h : Valid data) {denotes : Int → Prop}
    (hdenotes : ∀ d, denotes d ↔
      Occurs data d ∧ data.seriesStartDate ≤ d ∧ d ≤ data.seriesEndDate) :
    (∀ d, denotes d ↔ Local data d) ↔
      ∀ raw, Occurs data raw → Taken data data.seriesStartDate data.seriesEndDate raw →
        isWeekend raw = false := by
  constructor
  · intro hsame raw hraw htaken
    by_contra hweekend
    rw [Bool.not_eq_false] at hweekend
    have hmoved := (hdenotes _).mp ((hsame _).mpr ⟨raw, hraw, rfl, htaken⟩)
    have hagain : adjustWeekendToPrecedingWeekday (adjustWeekendToPrecedingWeekday raw) =
        adjustWeekendToPrecedingWeekday raw := adjust_of_weekday (isWeekend_adjust raw)
    have heq := hmoved.1.eq_of_adjust h hraw hagain
    have hfriday := isWeekend_adjust raw
    rw [heq, hweekend] at hfriday
    cases hfriday
  · intro hnone d
    rw [hdenotes]
    constructor
    · rintro ⟨hd, hstart, hend⟩
      have htaken : Taken data data.seriesStartDate data.seriesEndDate d := .inl ⟨hstart, hend⟩
      exact ⟨d, hd, adjust_of_weekday (hnone d hd htaken), htaken⟩
    · rintro ⟨raw, hraw, rfl, htaken⟩
      have hsame := adjust_of_weekday (hnone raw hraw htaken)
      rw [hsame]
      refine ⟨hraw, ?_⟩
      rcases htaken with hin | ⟨hstart, hend, -⟩
      · exact hin
      · rw [hsame] at hstart hend
        exact ⟨hstart, hend⟩

/-- What the client documents of its numbers: intervals go from 1 to 99, and the numbers of a weekday
and of a week begin at 1. -/
structure Exchange.Documented (exchange : Exchange) : Prop where
  takesInterval : ∀ interval, exchange.takesInterval interval = true ↔ 1 ≤ interval ∧ interval ≤ 99
  weekday : ∀ named : Weekday, exchange.weekday (named.iso + 1) = some named
  no_weekday : exchange.weekday 0 = none
  week : ∀ position : WeekdayPosition, exchange.week (allPositions.idxOf position + 1) = some position
  no_week : exchange.week 0 = none

/-! ## Days -/

/-- The first working day after a day. -/
def nextWorkday (d : Int) : Int := firstWeekdayOnOrAfter (d + 1)

theorem isWeekend_firstWeekdayOnOrAfter (value : Int) :
    isWeekend (firstWeekdayOnOrAfter value) = false := by
  unfold firstWeekdayOnOrAfter
  cases h : isWeekend value with
  | false => rw [if_neg (by decide), h]
  | true =>
    rw [if_pos rfl]
    unfold isWeekend
    rw [weekday_nextWeekday (by decide) (by decide)]
    rfl

theorem businessDayIndex_self (anchor : Int) : businessDayIndex anchor anchor = 0 := by
  have hnone : countUp (anchor + 1) anchor 1 = [] := by
    refine List.eq_nil_iff_forall_not_mem.mpr fun d hd => ?_
    have hin := (mem_countUp Int.one_pos).mp hd
    omega
  unfold businessDayIndex
  rw [if_neg (lt_irrefl anchor), hnone]
  rfl

theorem businessDayIndex_nextWorkday (anchor : Int) :
    businessDayIndex anchor (nextWorkday anchor) = 1 := by
  have hworkday := isWeekend_firstWeekdayOnOrAfter (anchor + 1)
  have hafter : anchor + 1 ≤ nextWorkday anchor :=
    (firstWeekdayOnOrAfter_le_iff _ hworkday).mp le_rfl
  have honly : (countUp (anchor + 1) (nextWorkday anchor) 1).filter
      (fun current => !isWeekend current) = [nextWorkday anchor] := by
    refine eq_of_increasing ((pairwise_countUp Int.one_pos).filter _) (List.pairwise_singleton _ _)
      fun d => ?_
    rw [List.mem_filter, mem_countUp Int.one_pos, List.mem_singleton, Bool.not_eq_true']
    constructor
    · rintro ⟨⟨hlow, hhigh, -⟩, hd⟩
      exact le_antisymm hhigh ((firstWeekdayOnOrAfter_le_iff _ hd).mpr hlow)
    · rintro rfl
      exact ⟨⟨hafter, le_rfl, Int.emod_one _⟩, hworkday⟩
  unfold businessDayIndex
  rw [if_neg (by omega), honly]
  rfl

theorem mem_workweek_iff (d : Int) :
    (∃ named ∈ workweekOutlook, weekday d = named.iso) ↔ isWeekend d = false := by
  have hlow : 0 ≤ weekday d := by
    unfold weekday
    omega
  unfold isWeekend workweekOutlook
  rw [decide_eq_false_iff_not]
  simp only [List.mem_cons, List.not_mem_nil, or_false, exists_eq_or_imp, exists_eq_left]
  change (weekday d = 0 ∨ weekday d = 1 ∨ weekday d = 2 ∨ weekday d = 3 ∨ weekday d = 4) ↔ _
  omega

/-- A daily series is the same when every working day is one, or when it has one day. -/
theorem same_daily (hdocumented : exchange.Documented) (h : Valid data)
    (hfreq : data.frequency = .daily) :
    SameMeetings exchange data ↔ combineStart data ≤ data.seriesEndDate ∧
      (data.interval = 1 ∨ data.seriesEndDate < nextWorkday (combineStart data)) := by
  have hstart : combineStart data = firstWeekdayOnOrAfter data.seriesStartDate := by
    unfold combineStart
    rw [if_pos hfreq]
  have hpattern : sentPattern data = .weekly 1 workweekOutlook := by
    unfold sentPattern
    rw [hfreq]
  have haccepted : (sentPattern data).accepted exchange = true := by
    rw [hpattern]
    exact Bool.and_eq_true_iff.mpr ⟨(hdocumented.takesInterval 1).mpr (by decide), rfl⟩
  have hdenotes : ∀ d, (sent data).Denotes exchange d ↔
      combineStart data ≤ d ∧ d ≤ data.seriesEndDate ∧ isWeekend d = false := by
    intro d
    change _ ∧ _ ∧ (sentPattern data).Denotes exchange _ d ↔ _
    rw [hpattern]
    refine and_congr_right fun _ => and_congr_right fun _ => ?_
    exact (and_iff_left (Int.emod_one _)).trans (mem_workweek_iff d)
  have hlocal : ∀ d, Local data d ↔ combineStart data ≤ d ∧ d ≤ data.seriesEndDate ∧
      isWeekend d = false ∧ businessDayIndex (combineStart data) d % data.interval = 0 := by
    intro d
    constructor
    · rintro ⟨raw, hraw, rfl, htaken⟩
      rw [adjust_of_daily hfreq hraw]
      unfold Occurs at hraw
      rw [hfreq] at hraw
      obtain ⟨hweekday, hanchor, hphase⟩ := hraw
      unfold Taken at htaken
      rw [adjust_of_weekday hweekday] at htaken
      rw [hstart]
      exact ⟨hanchor, by omega, hweekday, hphase⟩
    · rintro ⟨hlow, hhigh, hweekday, hphase⟩
      rw [hstart] at hlow hphase
      refine ⟨d, ?_, adjust_of_weekday hweekday, .inl ⟨?_, hhigh⟩⟩
      · unfold Occurs
        rw [hfreq]
        exact ⟨hweekday, hlow, hphase⟩
      · exact (firstWeekdayOnOrAfter_le_iff _ hweekday).mp hlow
  rw [sameMeetings_iff_sent h, and_iff_right haccepted]
  refine and_congr_right fun hspan => ?_
  constructor
  · intro hsame
    by_contra hnot
    obtain ⟨hinterval, hnext⟩ := not_or.mp hnot
    have hworkday := isWeekend_firstWeekdayOnOrAfter (combineStart data + 1)
    have hafter : combineStart data + 1 ≤ nextWorkday (combineStart data) :=
      (firstWeekdayOnOrAfter_le_iff _ hworkday).mp le_rfl
    have hin := (hdenotes (nextWorkday (combineStart data))).mpr
      ⟨by omega, not_lt.mp hnext, hworkday⟩
    obtain ⟨-, -, -, hphase⟩ := (hlocal _).mp ((hsame _).mp hin)
    rw [businessDayIndex_nextWorkday] at hphase
    have hpos := h.interval_pos
    rw [Int.emod_eq_of_lt (by decide) (by omega)] at hphase
    cases hphase
  · intro hcase d
    rw [hdenotes, hlocal]
    refine and_congr_right fun hlow => and_congr_right fun hhigh => ?_
    refine (and_iff_left_of_imp fun hweekday => ?_).symm
    rcases hcase with hinterval | hnext
    · rw [hinterval]
      exact Int.emod_one _
    · have hfirst : d = combineStart data := by
        by_contra hne
        have hlate : nextWorkday (combineStart data) ≤ d :=
          (firstWeekdayOnOrAfter_le_iff _ hweekday).mpr (by omega)
        omega
      rw [hfirst, businessDayIndex_self]
      exact Int.zero_emod _

/-- The weeks of two days of the same weekday are as far apart as the days. -/
theorem weekIndex_sub {d' : Int} (h : weekday d = weekday d') :
    weekIndex d - weekIndex d' = (d - d') / 7 := by
  unfold weekday at h
  unfold weekIndex
  omega

theorem weekIndex_nextWeekday {iso : Int} (hlow : 0 ≤ iso) (hhigh : iso < 7) (value : Int) :
    weekIndex (nextWeekday iso value) - weekIndex value = if weekday value ≤ iso then 0 else 1 := by
  unfold weekIndex nextWeekday weekday
  split <;> omega

/-- The weeks of the start and of its first weekday are in phase. -/
theorem inPhase_iff {iso value : Int} (hpos : 1 ≤ interval) (hlow : 0 ≤ iso)
    (hhigh : iso < 7) : (interval = 1 ∨ weekday value ≤ iso) ↔
      (weekIndex (nextWeekday iso value) - weekIndex value) % interval = 0 := by
  rw [weekIndex_nextWeekday hlow hhigh]
  split
  · next hle => exact iff_of_true (.inr hle) (Int.zero_emod _)
  · next hgt =>
    rw [or_iff_left hgt]
    constructor
    · intro hone
      rw [hone]
      rfl
    · intro hmod
      by_contra hne
      rw [Int.emod_eq_of_lt (by decide) (by omega)] at hmod
      cases hmod

/-- From a start in phase, the weeks can be counted from the first weekday. -/
theorem weekIndex_emod_of_inPhase {value first : Int}
    (hmod : (weekIndex first - weekIndex value) % interval = 0) (hday : weekday d = weekday first) :
    (weekIndex d - weekIndex value) % interval = (d - first) / 7 % interval := by
  rw [← weekIndex_sub hday]
  obtain ⟨k, hk⟩ := Int.dvd_of_emod_eq_zero hmod
  have hsplit : weekIndex d - weekIndex value =
      weekIndex d - weekIndex first + interval * k := by
    rw [← hk]
    omega
  rw [hsplit, Int.add_mul_emod_self_left]

/-- A weekly series is the same when it has no meeting, or when it falls on a working day and its
weeks are counted from the week of its first meeting. -/
theorem same_weekly (hdocumented : exchange.Documented) (h : Valid data)
    (hfreq : data.frequency = .weekly) (hnamed : data.weekday = some named) :
    SameMeetings exchange data ↔ data.interval ≤ 99 ∧
      (data.seriesEndDate < nextWeekday named.iso data.seriesStartDate ∨
        (named.iso < 5 ∧
          (data.interval = 1 ∨ weekday data.seriesStartDate ≤ named.iso))) := by
  obtain ⟨hiso, hiso'⟩ := named.iso_mem
  have hpos := h.interval_pos
  have hstart := combineStart_of_ne_daily (by rw [hfreq]; decide)
  have hpattern : sentPattern data = .weekly data.interval [named] := by
    unfold sentPattern
    rw [hfreq, hnamed]
    rfl
  have haccepted : (sentPattern data).accepted exchange = true ↔ data.interval ≤ 99 := by
    rw [hpattern]
    change (exchange.takesInterval data.interval && true) = true ↔ _
    rw [Bool.and_true, hdocumented.takesInterval]
    omega
  have hdenotes : ∀ d, (sent data).Denotes exchange d ↔ data.seriesStartDate ≤ d ∧
      d ≤ data.seriesEndDate ∧ weekday d = named.iso ∧
        (weekIndex d - weekIndex data.seriesStartDate) % data.interval = 0 := by
    intro d
    change combineStart data ≤ d ∧ _ ∧ (sentPattern data).Denotes exchange (combineStart data) d ↔ _
    rw [hpattern, hstart]
    change _ ∧ d ≤ data.seriesEndDate ∧ ((∃ other ∈ [named], weekday d = other.iso) ∧ _) ↔ _
    simp only [List.mem_singleton, exists_eq_left]
  have hoccurs : ∀ raw, Occurs data raw ↔ weekday raw = named.iso ∧
      nextWeekday named.iso data.seriesStartDate ≤ raw ∧
        (raw - nextWeekday named.iso data.seriesStartDate) / 7 % data.interval = 0 := by
    intro raw
    unfold Occurs
    rw [hfreq, hnamed]
    simp only [Option.some.injEq, exists_eq_left']
  have htaken : ∀ raw, Taken data data.seriesStartDate data.seriesEndDate raw →
      raw ≤ data.seriesEndDate := by
    intro raw hraw
    unfold Taken Beyond at hraw
    rw [hfreq] at hraw
    simp only at hraw
    omega
  have hfirst : weekday (nextWeekday named.iso data.seriesStartDate) = named.iso :=
    weekday_nextWeekday hiso hiso' _
  have hfirst_occurs : Occurs data (nextWeekday named.iso data.seriesStartDate) := by
    rw [hoccurs, sub_self]
    exact ⟨hfirst, le_rfl, Int.zero_emod _⟩
  have hfirst_le : data.seriesStartDate ≤ nextWeekday named.iso data.seriesStartDate :=
    (nextWeekday_le_iff hfirst _).mp le_rfl
  rw [sameMeetings_iff_sent h, and_iff_right (hstart.trans_le h.start_le_end), haccepted]
  refine and_congr_right fun _ => ?_
  by_cases hempty : data.seriesEndDate < nextWeekday named.iso data.seriesStartDate
  · rw [iff_true_right (.inl hempty)]
    intro d
    rw [hdenotes]
    constructor
    · rintro ⟨hlow, hhigh, hday, -⟩
      have hle := (nextWeekday_le_iff hday data.seriesStartDate).mpr hlow
      omega
    · rintro ⟨raw, hraw, -, hin⟩
      have hle := htaken raw hin
      have hge := ((hoccurs raw).mp hraw).2.1
      omega
  rw [or_iff_right hempty]
  have hin : Taken data data.seriesStartDate data.seriesEndDate
      (nextWeekday named.iso data.seriesStartDate) := .inl ⟨hfirst_le, not_lt.mp hempty⟩
  rw [inPhase_iff hpos hiso hiso']
  constructor
  · intro hsame
    have hdate := (hdenotes _).mp ((hsame _).mpr ⟨_, hfirst_occurs, rfl, hin⟩)
    have hworkday := isWeekend_adjust (nextWeekday named.iso data.seriesStartDate)
    have hlt : named.iso < 5 := by
      rw [← hdate.2.2.1]
      exact not_le.mp (of_decide_eq_false hworkday)
    have hstill : adjustWeekendToPrecedingWeekday (nextWeekday named.iso data.seriesStartDate) =
        nextWeekday named.iso data.seriesStartDate := by
      apply adjust_of_weekday
      unfold isWeekend
      rw [hfirst]
      exact decide_eq_false (not_le.mpr hlt)
    rw [hstill] at hdate
    exact ⟨hlt, hdate.2.2.2⟩
  · rintro ⟨hlt, hmod⟩
    have hweeks := fun d (hday : weekday d = named.iso) =>
      weekIndex_emod_of_inPhase hmod (hday.trans hfirst.symm)
    have hinside : ∀ d, (sent data).Denotes exchange d ↔ Occurs data d ∧
        data.seriesStartDate ≤ d ∧ d ≤ data.seriesEndDate := by
      intro d
      rw [hdenotes, hoccurs]
      constructor
      · rintro ⟨hlow, hhigh, hday, hd⟩
        rw [hweeks d hday] at hd
        exact ⟨⟨hday, (nextWeekday_le_iff hday _).mpr hlow, hd⟩, hlow, hhigh⟩
      · rintro ⟨⟨hday, -, hd⟩, hlow, hhigh⟩
        rw [← hweeks d hday] at hd
        exact ⟨hlow, hhigh, hday, hd⟩
    refine (same_iff_no_weekend h hinside).mpr fun raw hraw _ => ?_
    unfold isWeekend
    rw [((hoccurs raw).mp hraw).1]
    exact decide_eq_false (not_le.mpr hlt)

/-- A series by a day of the month is the same when no meeting is moved from a weekend. -/
theorem same_monthly (hdocumented : exchange.Documented) (h : Valid data)
    (hfreq : data.frequency = .monthly) (hmode : data.monthlyMode = some .byDayOfMonth) {day : Int}
    (hday : data.dayOfMonth = some day) (hin : 1 ≤ day ∧ day ≤ 31) :
    SameMeetings exchange data ↔ data.interval ≤ 99 ∧
      ∀ raw, Occurs data raw → Taken data data.seriesStartDate data.seriesEndDate raw →
        isWeekend raw = false := by
  have hpos := h.interval_pos
  have hstart := combineStart_of_ne_daily (by rw [hfreq]; decide)
  have hpattern : sentPattern data = .absoluteMonthly data.interval day := by
    unfold sentPattern
    rw [hfreq, hmode, hday]
    rfl
  have haccepted : (sentPattern data).accepted exchange = true ↔ data.interval ≤ 99 := by
    rw [hpattern]
    change (exchange.takesInterval data.interval && decide _) = true ↔ _
    rw [decide_eq_true hin, Bool.and_true, hdocumented.takesInterval]
    omega
  have hoccurs : ∀ raw, Occurs data raw ↔ 0 ≤ monthIndex raw - monthIndex data.seriesStartDate ∧
      (monthIndex raw - monthIndex data.seriesStartDate) % data.interval = 0 ∧
        clampDayOfMonth (monthIndex raw) day = raw := by
    intro raw
    unfold Occurs monthlyOccurrence
    rw [hfreq, hmode, hday, if_neg (by simp; omega)]
    simp only [Option.getD_some, Option.some.injEq]
  have hinside : ∀ d, (sent data).Denotes exchange d ↔ Occurs data d ∧
      data.seriesStartDate ≤ d ∧ d ≤ data.seriesEndDate := by
    intro d
    change combineStart data ≤ d ∧ d ≤ data.seriesEndDate ∧
      (sentPattern data).Denotes exchange (combineStart data) d ↔ _
    rw [hpattern, hstart, hoccurs]
    constructor
    · rintro ⟨hlow, hhigh, hphase, hd⟩
      exact ⟨⟨sub_nonneg.mpr (monthIndex_mono hlow), hphase, hd⟩, hlow, hhigh⟩
    · rintro ⟨⟨-, hphase, hd⟩, hlow, hhigh⟩
      exact ⟨hlow, hhigh, hphase, hd⟩
  rw [sameMeetings_iff_sent h, and_iff_right (hstart.trans_le h.start_le_end), haccepted]
  exact and_congr_right fun _ => same_iff_no_weekend h hinside

theorem yearlyOccurrence_mono {year year' : Int} (h : year ≤ year') :
    yearlyOccurrence data year ≤ yearlyOccurrence data year' := by
  rcases h.lt_or_eq with hlt | rfl
  · rw [yearlyOccurrence_eq_clamp, yearlyOccurrence_eq_clamp]
    have hfar := clampDayOfMonth_lt (dayOf_pos data.seriesStartDate)
      (show 12 * year + monthIndex data.seriesStartDate % 12 <
        12 * year' + monthIndex data.seriesStartDate % 12 by omega)
    omega
  · exact le_rfl

/-- The days that `AbsoluteMonthlyPattern` finds every twelve months are those of every year. -/
theorem yearly_pattern_iff (data : RecurrenceInput) (d : Int) :
    ((monthIndex d - monthIndex data.seriesStartDate) % 12 = 0 ∧
        clampDayOfMonth (monthIndex d) (dayOf data.seriesStartDate) = d) ↔
      yearlyOccurrence data (yearOf d) = d := by
  have hyear := monthIndex_div d
  rw [yearlyOccurrence_eq_clamp]
  constructor
  · rintro ⟨hphase, hd⟩
    have hmonth : 12 * yearOf d + monthIndex data.seriesStartDate % 12 = monthIndex d := by omega
    rw [hmonth]
    exact hd
  · intro hd
    have hmonth : monthIndex d = 12 * yearOf d + monthIndex data.seriesStartDate % 12 := by
      conv_lhs => rw [← hd]
      exact monthIndex_clamp (dayOf_pos _)
    rw [hmonth]
    exact ⟨by omega, hd⟩

/-- A yearly series is the same when every year is one, or it ends before the second, and no meeting
is moved from a weekend. -/
theorem same_yearly (hdocumented : exchange.Documented) (h : Valid data)
    (hfreq : data.frequency = .yearly) :
    SameMeetings exchange data ↔
      (data.interval = 1 ∨
        data.seriesEndDate < yearlyOccurrence data (yearOf data.seriesStartDate + 1)) ∧
      ∀ raw, Occurs data raw → Taken data data.seriesStartDate data.seriesEndDate raw →
        isWeekend raw = false := by
  have hpos := h.interval_pos
  have hstart := combineStart_of_ne_daily (by rw [hfreq]; decide)
  have hpattern : sentPattern data = .absoluteMonthly 12 (dayOf data.seriesStartDate) := by
    unfold sentPattern
    rw [hfreq]
  have haccepted : (sentPattern data).accepted exchange = true := by
    rw [hpattern]
    exact Bool.and_eq_true_iff.mpr ⟨(hdocumented.takesInterval 12).mpr (by decide),
      decide_eq_true (dayOf_mem _)⟩
  have hoccurs : ∀ raw, Occurs data raw ↔ 0 ≤ yearOf raw - yearOf data.seriesStartDate ∧
      (yearOf raw - yearOf data.seriesStartDate) % data.interval = 0 ∧
        yearlyOccurrence data (yearOf raw) = raw := by
    intro raw
    unfold Occurs
    rw [hfreq]
  have hdenotes : ∀ d, (sent data).Denotes exchange d ↔ data.seriesStartDate ≤ d ∧
      d ≤ data.seriesEndDate ∧ yearlyOccurrence data (yearOf d) = d := by
    intro d
    change combineStart data ≤ d ∧ d ≤ data.seriesEndDate ∧
      (sentPattern data).Denotes exchange (combineStart data) d ↔ _
    rw [hpattern, hstart]
    exact and_congr_right fun _ => and_congr_right fun _ => yearly_pattern_iff data d
  rw [sameMeetings_iff_sent h, and_iff_right (hstart.trans_le h.start_le_end),
    and_iff_right haccepted]
  by_cases hcase : data.interval = 1 ∨
      data.seriesEndDate < yearlyOccurrence data (yearOf data.seriesStartDate + 1)
  · rw [and_iff_right hcase]
    refine same_iff_no_weekend h fun d => ?_
    rw [hdenotes, hoccurs]
    constructor
    · rintro ⟨hlow, hhigh, hd⟩
      have hyears := sub_nonneg.mpr (yearOf_mono hlow)
      refine ⟨⟨hyears, ?_, hd⟩, hlow, hhigh⟩
      rcases hcase with hone | hnext
      · rw [hone]
        exact Int.emod_one _
      · have hsame : yearOf d - yearOf data.seriesStartDate = 0 := by
          by_contra hne
          have hle : yearlyOccurrence data (yearOf data.seriesStartDate + 1) ≤
              yearlyOccurrence data (yearOf d) := yearlyOccurrence_mono (by omega)
          omega
        rw [hsame]
        exact Int.zero_emod _
    · rintro ⟨⟨-, -, hd⟩, hlow, hhigh⟩
      exact ⟨hlow, hhigh, hd⟩
  · rw [iff_false_right fun hall => hcase hall.1]
    intro hsame
    obtain ⟨hinterval, hnext⟩ := not_or.mp hcase
    have hyear := yearOf_yearlyOccurrence data (yearOf data.seriesStartDate + 1)
    have hlow : data.seriesStartDate ≤ yearlyOccurrence data (yearOf data.seriesStartDate + 1) := by
      by_contra hlt
      have hle := yearOf_mono (not_le.mp hlt).le
      omega
    obtain ⟨raw, hraw, hmoved, -⟩ := (hsame _).mp
      ((hdenotes _).mpr ⟨hlow, not_lt.mp hnext, by rw [hyear]⟩)
    obtain ⟨-, hphase, hyearly⟩ := (hoccurs raw).mp hraw
    have hnear : yearlyOccurrence data (yearOf data.seriesStartDate + 1) - 2 ≤
          yearlyOccurrence data (yearOf raw) ∧
        yearlyOccurrence data (yearOf raw) ≤
          yearlyOccurrence data (yearOf data.seriesStartDate + 1) + 2 := by
      have hle := adjust_le raw
      have hge := sub_two_le_adjust raw
      rw [hyearly, ← hmoved]
      omega
    have hclose := yearlyOccurrence_close hnear.1 hnear.2
    rw [hclose, add_sub_cancel_left, Int.emod_eq_of_lt (by decide) (by omega)] at hphase
    cases hphase

/-! ## Weekdays of a month -/

theorem mem_weekdayDatesInMonth {month raw : Int} : raw ∈ weekdayDatesInMonth month named ↔
      monthStart month ≤ raw ∧ raw < monthStart (month + 1) ∧ weekday raw = named.iso := by
  unfold weekdayDatesInMonth
  rw [List.mem_filter, decide_eq_true_eq, List.mem_map, ← and_assoc]
  refine and_congr_left fun _ => ?_
  unfold ofMonthDay daysInMonth
  constructor
  · rintro ⟨day, hday, rfl⟩
    have hin := (mem_countUp Int.one_pos).mp hday
    omega
  · rintro ⟨hlow, hhigh⟩
    exact ⟨raw - monthStart month + 1, (mem_countUp Int.one_pos).mpr
      ⟨by omega, by omega, Int.emod_one _⟩, by omega⟩

theorem pairwise_weekdayDatesInMonth (month : Int) (named : Weekday) :
    (weekdayDatesInMonth month named).Pairwise (· < ·) := by
  unfold weekdayDatesInMonth
  refine List.Pairwise.filter _ ?_
  rw [List.pairwise_map]
  refine (pairwise_countUp Int.one_pos).imp fun hlt => ?_
  unfold ofMonthDay
  omega

/-- Another weekday than the first one of a month is after its first week. -/
theorem first_week_before {month raw : Int} {position : WeekdayPosition}
    (hposition : position ≠ .first)
    (h : monthlyWeekdayPositionDate month named position = some raw) : monthStart month + 7 ≤ raw := by
  have hpairwise := pairwise_weekdayDatesInMonth month named
  have hindex : ∀ i : Nat, (weekdayDatesInMonth month named)[i + 1]? = some raw →
      monthStart month + 7 ≤ raw := by
    intro i hi
    cases hdates : weekdayDatesInMonth month named with
    | nil =>
      rw [hdates] at hi
      cases hi
    | cons first rest =>
      rw [hdates] at hi hpairwise
      rw [List.getElem?_cons_succ] at hi
      have hlt := (List.pairwise_cons.mp hpairwise).1 raw (List.mem_of_getElem? hi)
      have hfirst := mem_weekdayDatesInMonth.mp (hdates ▸ List.mem_cons_self : first ∈ _)
      have hraw := mem_weekdayDatesInMonth.mp
        (hdates ▸ List.mem_cons_of_mem first (List.mem_of_getElem? hi) : raw ∈ _)
      have hsame := hfirst.2.2.trans hraw.2.2.symm
      unfold weekday at hsame
      omega
  unfold monthlyWeekdayPositionDate at h
  cases position with
  | first => exact absurd rfl hposition
  | second => exact hindex 0 h
  | third => exact hindex 1 h
  | fourth => exact hindex 2 h
  | last =>
    obtain ⟨before, hdates⟩ := List.getLast?_eq_some_iff.mp h
    have hin : nextWeekday named.iso (monthStart month + 7) ∈ weekdayDatesInMonth month named := by
      obtain ⟨hlow, hhigh⟩ := named.iso_mem
      have hday := weekday_nextWeekday hlow hhigh (monthStart month + 7)
      have hmonth := monthStart_succ month
      refine mem_weekdayDatesInMonth.mpr ⟨?_, ?_, hday⟩
      · unfold nextWeekday
        omega
      · unfold nextWeekday
        omega
    have hafter : monthStart month + 7 ≤ nextWeekday named.iso (monthStart month + 7) := by
      unfold nextWeekday
      omega
    rw [hdates] at hin hpairwise
    rcases List.mem_append.mp hin with hbefore | hlast
    · have hlt := (List.pairwise_append.mp hpairwise).2.2 _ hbefore raw (List.mem_singleton_self raw)
      omega
    · rw [← List.mem_singleton.mp hlast]
      exact hafter

def Weekday.before : Weekday → Option Weekday
  | .monday => none
  | .tuesday => some .monday
  | .wednesday => some .tuesday
  | .thursday => some .wednesday
  | .friday => some .thursday
  | .saturday => some .friday
  | .sunday => some .saturday

def WeekdayPosition.before : WeekdayPosition → Option WeekdayPosition
  | .first => none
  | .second => some .first
  | .third => some .second
  | .fourth => some .third
  | .last => some .fourth

theorem Exchange.Documented.weekday_idxOf (h : exchange.Documented) (named : Weekday) :
    exchange.weekday (allWeekdays.idxOf named) = named.before := by
  cases named with
  | monday => exact h.no_weekday
  | tuesday => exact h.weekday .monday
  | wednesday => exact h.weekday .tuesday
  | thursday => exact h.weekday .wednesday
  | friday => exact h.weekday .thursday
  | saturday => exact h.weekday .friday
  | sunday => exact h.weekday .saturday

theorem Exchange.Documented.week_idxOf (h : exchange.Documented) (position : WeekdayPosition) :
    exchange.week (allPositions.idxOf position) = position.before := by
  cases position with
  | first => exact h.no_week
  | second => exact h.week .first
  | third => exact h.week .second
  | fourth => exact h.week .third
  | last => exact h.week .fourth

def shiftedDate (named : Weekday) (position : WeekdayPosition) (month : Int) : Option Int :=
  named.before.bind fun earlier => position.before.bind fun week =>
    monthlyWeekdayPositionDate month earlier week

/-- In a month that has a date of the local rule or of what is sent, the series is on a Saturday, and
what is sent is the Friday before it. -/
def AgreesInMonth (data : RecurrenceInput) (named : Weekday) (position : WeekdayPosition)
    (month : Int) : Prop :=
  ((∃ raw, monthlyWeekdayPositionDate month named position = some raw ∧
      Taken data data.seriesStartDate data.seriesEndDate raw) ∨
    ∃ d, shiftedDate named position month = some d ∧ data.seriesStartDate ≤ d ∧
      d ≤ data.seriesEndDate) →
  named = .saturday ∧ ∃ d, shiftedDate named position month = some d ∧
    monthlyWeekdayPositionDate month named position = some (d + 1) ∧ data.seriesStartDate ≤ d

/-- The date that is sent lies in the month, on the weekday before. -/
theorem shiftedDate_spec {position : WeekdayPosition} {month : Int}
    (h : shiftedDate named position month = some d) :
    monthIndex d = month ∧ weekday d + 1 = named.iso := by
  unfold shiftedDate at h
  obtain ⟨earlier, hearlier, h⟩ := Option.bind_eq_some_iff.mp h
  obtain ⟨week, -, h⟩ := Option.bind_eq_some_iff.mp h
  refine ⟨monthIndex_position h, ?_⟩
  rw [weekday_position h]
  cases named <;> cases hearlier <;> rfl

/-- A meeting on a Saturday is moved to the day before. -/
theorem adjust_saturday (hnamed : named = .saturday)
    (hday : weekday (d + 1) = named.iso) : adjustWeekendToPrecedingWeekday (d + 1) = d := by
  rw [hnamed] at hday
  change weekday (d + 1) = 5 at hday
  unfold adjustWeekendToPrecedingWeekday
  rw [if_pos hday, add_sub_cancel_right]

/-- Of a date and the weekday before it, only a Saturday is moved to the other. -/
theorem saturday_of_adjust {raw : Int} (hraw : weekday raw = named.iso)
    (hd : weekday d + 1 = named.iso) (h : adjustWeekendToPrecedingWeekday raw = d) :
    named = .saturday ∧ raw = d + 1 := by
  subst h
  unfold adjustWeekendToPrecedingWeekday at hd ⊢
  rw [hraw] at hd ⊢
  cases named
  case saturday => exact ⟨rfl, by change raw = raw - 1 + 1; omega⟩
  case sunday =>
    change weekday (raw - 2) + 1 = 6 at hd
    change weekday raw = 6 at hraw
    unfold weekday at hd hraw
    omega
  all_goals
    change weekday raw + 1 = _ at hd
    rw [hraw] at hd
    cases hd

/-- A series by the position of a weekday is refused on Mondays and for the first position, and is
the same only where Fridays stand in for Saturdays. -/
theorem same_position (hdocumented : exchange.Documented) (h : Valid data)
    (hfreq : data.frequency = .monthly) (hmode : data.monthlyMode = some .byWeekdayPosition) {position : WeekdayPosition} (hnamed : data.weekday = some named)
    (hposition : data.weekdayPosition = some position) :
    SameMeetings exchange data ↔ (data.interval ≤ 99 ∧ named ≠ .monday ∧ position ≠ .first) ∧
      ∀ month, 0 ≤ month - monthIndex data.seriesStartDate →
        (month - monthIndex data.seriesStartDate) % data.interval = 0 →
          AgreesInMonth data named position month := by
  have hpos := h.interval_pos
  have hstart := combineStart_of_ne_daily (by rw [hfreq]; decide)
  have hpattern : sentPattern data = .relativeMonthly data.interval (allWeekdays.idxOf named)
      (allPositions.idxOf position) := by
    unfold sentPattern
    rw [hfreq, hmode, hnamed, hposition]
    rfl
  have haccepted : (sentPattern data).accepted exchange = true ↔
      data.interval ≤ 99 ∧ named ≠ .monday ∧ position ≠ .first := by
    rw [hpattern]
    change (exchange.takesInterval data.interval && (exchange.weekday _).isSome &&
      (exchange.week _).isSome) = true ↔ _
    rw [hdocumented.weekday_idxOf, hdocumented.week_idxOf, Bool.and_eq_true, Bool.and_eq_true,
      hdocumented.takesInterval, and_assoc]
    have hweekday : named.before.isSome = true ↔ named ≠ .monday := by
      cases named <;> decide
    have hweek : position.before.isSome = true ↔ position ≠ .first := by
      cases position <;> decide
    rw [hweekday, hweek, and_iff_right (show (1 : Int) ≤ data.interval from hpos)]
  have hoccurs : ∀ raw, Occurs data raw ↔ 0 ≤ monthIndex raw - monthIndex data.seriesStartDate ∧
      (monthIndex raw - monthIndex data.seriesStartDate) % data.interval = 0 ∧
        monthlyWeekdayPositionDate (monthIndex raw) named position = some raw := by
    intro raw
    unfold Occurs monthlyOccurrence
    rw [hfreq, hmode, hnamed, hposition]
  have hdenotes : ∀ d, (sent data).Denotes exchange d ↔ data.seriesStartDate ≤ d ∧
      d ≤ data.seriesEndDate ∧
        (monthIndex d - monthIndex data.seriesStartDate) % data.interval = 0 ∧
          shiftedDate named position (monthIndex d) = some d := by
    intro d
    change combineStart data ≤ d ∧ d ≤ data.seriesEndDate ∧
      (sentPattern data).Denotes exchange (combineStart data) d ↔ _
    rw [hpattern, hstart]
    change _ ∧ _ ∧ _ ∧ (∃ earlier ∈ exchange.weekday _, ∃ week ∈ exchange.week _, _) ↔ _
    rw [hdocumented.weekday_idxOf, hdocumented.week_idxOf]
    unfold shiftedDate
    simp only [Option.mem_def, Option.bind_eq_some_iff]
  rw [sameMeetings_iff_sent h, and_iff_right (hstart.trans_le h.start_le_end), haccepted]
  refine and_congr_right fun hnumbers => ?_
  have hmonth : ∀ month raw, monthlyWeekdayPositionDate month named position = some raw →
      monthIndex raw = month ∧ monthIndex (adjustWeekendToPrecedingWeekday raw) = month := by
    intro month raw hraw
    have hindex := monthIndex_position hraw
    have hweek := first_week_before hnumbers.2.2 hraw
    have hle := adjust_le raw
    have hge := sub_two_le_adjust raw
    have hlt := lt_monthStart raw
    rw [hindex] at hlt
    exact ⟨hindex, monthIndex_eq (by omega) (by omega)⟩
  constructor
  · intro hsame month hlate hphase
    rintro (⟨raw, hraw, htaken⟩ | ⟨d, hd, hlow, hhigh⟩)
    · obtain ⟨hindex, hmoved⟩ := hmonth month raw hraw
      have hin : Occurs data raw := by
        rw [hoccurs, hindex]
        exact ⟨hlate, hphase, hraw⟩
      obtain ⟨hlow, -, -, hshifted⟩ := (hdenotes _).mp ((hsame _).mpr ⟨raw, hin, rfl, htaken⟩)
      rw [hmoved] at hshifted
      obtain ⟨hsaturday, hnext⟩ :=
        saturday_of_adjust (weekday_position hraw) (shiftedDate_spec hshifted).2 rfl
      exact ⟨hsaturday, _, hshifted, hnext ▸ hraw, hlow⟩
    · obtain ⟨hindex, hday⟩ := shiftedDate_spec hd
      obtain ⟨raw, hraw, hmoved, -⟩ := (hsame d).mp ((hdenotes d).mpr
        ⟨hlow, hhigh, by rw [hindex]; exact hphase, by rw [hindex]; exact hd⟩)
      have hdate := ((hoccurs raw).mp hraw).2.2
      have hsame_month := (hmonth _ raw hdate).2
      rw [hmoved, hindex] at hsame_month
      obtain ⟨hsaturday, hnext⟩ := saturday_of_adjust (weekday_position hdate) hday hmoved
      rw [← hsame_month, hnext] at hdate
      exact ⟨hsaturday, d, hd, hdate, hlow⟩
  · intro hagrees d
    rw [hdenotes]
    constructor
    · rintro ⟨hlow, hhigh, hphase, hd⟩
      have hlate := sub_nonneg.mpr (monthIndex_mono hlow)
      obtain ⟨hsaturday, other, hother, hraw, -⟩ :=
        hagrees _ hlate hphase (.inr ⟨d, hd, hlow, hhigh⟩)
      cases hd.symm.trans hother
      have hindex := (hmonth _ _ hraw).1
      have hmoved := adjust_saturday hsaturday (weekday_position hraw)
      refine ⟨d + 1, ?_, hmoved, .inr ⟨by rw [hmoved]; exact hlow, by rw [hmoved]; exact hhigh, ?_⟩⟩
      · rw [hoccurs, hindex]
        exact ⟨hlate, hphase, hraw⟩
      · unfold Beyond
        rw [hfreq]
        simp only
        rw [hindex]
        exact not_lt.mpr (monthIndex_mono hhigh)
    · rintro ⟨raw, hraw, hmoved, htaken⟩
      obtain ⟨hlate, hphase, hdate⟩ := (hoccurs raw).mp hraw
      obtain ⟨hsaturday, other, hother, hnext, hlow⟩ :=
        hagrees _ hlate hphase (.inl ⟨raw, hdate, htaken⟩)
      obtain rfl : raw = other + 1 := Option.some.inj (hdate.symm.trans hnext)
      have hfriday := adjust_saturday hsaturday (weekday_position hdate)
      obtain rfl : other = d := hfriday.symm.trans hmoved
      have hindex := (shiftedDate_spec hother).1
      refine ⟨hlow, ?_, by rw [hindex]; exact hphase, by rw [hindex]; exact hother⟩
      rcases htaken with ⟨-, hhigh⟩ | ⟨-, hhigh, -⟩
      · omega
      · rw [hmoved] at hhigh
        exact hhigh

/-- The re-encoding of a series loses nothing. -/
def Lossless (data : RecurrenceInput) : Prop :=
  match data.frequency with
  | .daily => combineStart data ≤ data.seriesEndDate ∧
      (data.interval = 1 ∨ data.seriesEndDate < nextWorkday (combineStart data))
  | .weekly => data.interval ≤ 99 ∧ ∀ named ∈ data.weekday,
      data.seriesEndDate < nextWeekday named.iso data.seriesStartDate ∨
        (named.iso < 5 ∧ (data.interval = 1 ∨ weekday data.seriesStartDate ≤ named.iso))
  | .monthly =>
    match data.monthlyMode, data.weekday, data.weekdayPosition with
    | some .byWeekdayPosition, some named, some position =>
      (data.interval ≤ 99 ∧ named ≠ .monday ∧ position ≠ .first) ∧
        ∀ month, 0 ≤ month - monthIndex data.seriesStartDate →
          (month - monthIndex data.seriesStartDate) % data.interval = 0 →
            AgreesInMonth data named position month
    | _, _, _ => data.interval ≤ 99 ∧
        ∀ raw, Occurs data raw → Taken data data.seriesStartDate data.seriesEndDate raw →
          isWeekend raw = false
  | .yearly =>
      (data.interval = 1 ∨
        data.seriesEndDate < yearlyOccurrence data (yearOf data.seriesStartDate + 1)) ∧
      ∀ raw, Occurs data raw → Taken data data.seriesStartDate data.seriesEndDate raw →
        isWeekend raw = false

/-- Outlook and the local rule speak of the same meetings exactly when the re-encoding loses
nothing. -/
theorem same_meetings_iff (exchange : Exchange) (data : RecurrenceInput)
    (hdocumented : exchange.Documented) (hvalid : validateRecurrenceInput data = .ok ()) :
    SameMeetings exchange data ↔ Lossless data := by
  have h : Valid data := hvalid
  unfold Lossless
  rcases h.cases with hfreq | ⟨hfreq, named, hnamed⟩ | ⟨hfreq, hmode, day, hday, hin⟩ |
    ⟨hfreq, hmode, named, position, hnamed, hposition⟩ | hfreq
  · rw [same_daily hdocumented h hfreq, hfreq]
  · rw [same_weekly hdocumented h hfreq hnamed, hfreq, hnamed]
    simp only [Option.mem_def, Option.some.injEq, forall_eq']
  · rw [same_monthly hdocumented h hfreq hmode hday hin, hfreq, hmode]
  · rw [same_position hdocumented h hfreq hmode hnamed hposition, hfreq, hmode, hnamed, hposition]
  · rw [same_yearly hdocumented h hfreq, hfreq]

def clientNumbers : Exchange where
  takesInterval interval := decide (1 ≤ interval ∧ interval ≤ 99)
  weekday number := if 1 ≤ number then allWeekdays[(number - 1).toNat]? else none
  week number := if 1 ≤ number then allPositions[(number - 1).toNat]? else none

theorem documented_clientNumbers : clientNumbers.Documented where
  takesInterval _ := decide_eq_true_iff
  weekday named := by cases named <;> decide
  no_weekday := rfl
  week position := by cases position <;> decide
  no_week := rfl

/-- Every working day, or every second one, from Monday, the 6th of July 2026, for a week. -/
def workingDays (interval : Int) : RecurrenceInput where
  frequency := .daily
  interval := interval
  seriesStartDate := ofMonthDay (12 * 2026 + 6) 6
  seriesEndDate := ofMonthDay (12 * 2026 + 6) 10
  monthlyMode := none
  dayOfMonth := none
  weekday := none
  weekdayPosition := none

theorem same_meetings_everyDay : SameMeetings clientNumbers (workingDays 1) :=
  (same_meetings_iff clientNumbers (workingDays 1) documented_clientNumbers (by decide)).mpr
    ⟨by decide, .inl rfl⟩

theorem same_meetings_everySecondDay_fails :
    validateRecurrenceInput (workingDays 2) = .ok () ∧
      ¬ SameMeetings clientNumbers (workingDays 2) := by
  have hvalid : Valid (workingDays 2) := by
    unfold Valid
    decide
  refine ⟨hvalid, fun h => ?_⟩
  obtain ⟨-, hone | hnext⟩ := (same_daily documented_clientNumbers hvalid rfl).mp h
  · cases hone
  · exact absurd hnext (by decide)

end AgentBack.Meetings
