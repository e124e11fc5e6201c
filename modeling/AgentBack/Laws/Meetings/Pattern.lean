import AgentBack.Laws.Meetings.Window
import Mathlib

/-!
# The pattern of a series

What a series says, with no loop: a day of a kind, every so many of them (`EveryNth`), the clamped
day or the n-th weekday of a month, the clamped anniversary of a year (`PatternDate`). The loops of
`iter_occurrence_dates` find these dates (`occurs_iff_patternDate`), and stop on the original date,
its month or its year, so an occurrence that is moved back into the series from beyond its end is
lost (`iterOccurrenceDates_exact_iff`).
-/

namespace AgentBack.Meetings

open Civil

/-! ## The dates of a pattern -/

/-- Every so many days of a kind, counted from the first on or after `start`. -/
def EveryNth (kind : Int → Prop) [DecidablePred kind] (start interval raw : Int) : Prop :=
  kind raw ∧ start ≤ raw ∧ interval ∣ (((Finset.Ico start raw).filter kind).card : Int)

/-- The place of a day among the days of its month that fall on its weekday. -/
def WeekdayPosition.Holds (position : WeekdayPosition) (raw : Int) : Prop :=
  match position with
  | .first => (dayOf raw - 1) / 7 = 0
  | .second => (dayOf raw - 1) / 7 = 1
  | .third => (dayOf raw - 1) / 7 = 2
  | .fourth => (dayOf raw - 1) / 7 = 3
  | .last => daysInMonth (monthIndex raw) < dayOf raw + 7

/-- The day of a month, or the last one of a month that is too short. -/
def IsClamped (day raw : Int) : Prop :=
  dayOf raw = min day (daysInMonth (monthIndex raw))

/-- **A date of the pattern**, before it is moved from a weekend. -/
def PatternDate (data : RecurrenceInput) (raw : Int) : Prop :=
  match data.frequency with
  | .daily => EveryNth (fun d => isWeekend d = false) data.seriesStartDate data.interval raw
  | .weekly => ∃ weekday, data.weekday = some weekday ∧
      EveryNth (fun d => Civil.weekday d = weekday.iso) data.seriesStartDate data.interval raw
  | .monthly =>
    (∃ count : ℕ, monthIndex raw = monthIndex data.seriesStartDate + count * data.interval) ∧
      ((data.monthlyMode = some .byDayOfMonth ∧ ∃ day, data.dayOfMonth = some day ∧
          IsClamped day raw) ∨
        (data.monthlyMode = some .byWeekdayPosition ∧ ∃ weekday position,
          data.weekday = some weekday ∧ data.weekdayPosition = some position ∧
          Civil.weekday raw = weekday.iso ∧ position.Holds raw))
  | .yearly =>
    (∃ count : ℕ, monthIndex raw =
      monthIndex data.seriesStartDate + 12 * (count * data.interval)) ∧
        IsClamped (dayOf data.seriesStartDate) raw

/-- **The exact expansion.** The weekdays that the pattern has or is moved to, each once and in
order, when the series has the date of the pattern or the one that it is moved to. -/
structure Exact (data : RecurrenceInput) (dates : List Int) : Prop where
  increasing : dates.Pairwise (· < ·)
  workdays : ∀ d ∈ dates, isWeekend d = false
  mem : ∀ d, d ∈ dates ↔ ∃ raw, PatternDate data raw ∧ adjustWeekendToPrecedingWeekday raw = d ∧
    ((data.seriesStartDate ≤ raw ∧ raw ≤ data.seriesEndDate) ∨
      (data.seriesStartDate ≤ d ∧ d ≤ data.seriesEndDate))

/-- No date of the pattern is moved back into the series from after its end, or by months and years
from a month or a year after that of its end. -/
def EndsClean (data : RecurrenceInput) : Prop :=
  ∀ raw, PatternDate data raw → Beyond data data.seriesEndDate raw →
    ¬ (data.seriesStartDate ≤ adjustWeekendToPrecedingWeekday raw ∧
      adjustWeekendToPrecedingWeekday raw ≤ data.seriesEndDate)

/-- A list of the days of a kind before `raw` counts them. -/
theorem card_eq_length {kind : Int → Prop} [DecidablePred kind] {start raw : Int} {days : List Int}
    (hdays : days.Pairwise (· < ·)) (hmem : ∀ d, d ∈ days ↔ (start ≤ d ∧ d < raw) ∧ kind d) :
    ((Finset.Ico start raw).filter kind).card = days.length := by
  have hset : (Finset.Ico start raw).filter kind = days.toFinset := by
    ext d
    rw [Finset.mem_filter, Finset.mem_Ico, List.mem_toFinset, hmem]
  rw [hset, List.toFinset_card_of_nodup (hdays.imp ne_of_lt)]

/-- Days of a kind that are not before the first of them count from it. -/
theorem card_from_first {kind : Int → Prop} [DecidablePred kind] {start first : Int}
    (hfirst : ∀ d, kind d → (first ≤ d ↔ start ≤ d)) (raw : Int) :
    ((Finset.Ico start raw).filter kind).card = ((Finset.Ico first raw).filter kind).card := by
  congr 1
  ext d
  simp only [Finset.mem_filter, Finset.mem_Ico]
  constructor
  · rintro ⟨⟨hlow, hhigh⟩, hkind⟩
    exact ⟨⟨(hfirst d hkind).mpr hlow, hhigh⟩, hkind⟩
  · rintro ⟨⟨hlow, hhigh⟩, hkind⟩
    exact ⟨⟨(hfirst d hkind).mp hlow, hhigh⟩, hkind⟩

/-- Between two days of a kind as many of it follow the first as precede the second. -/
theorem card_shift (kind : Int → Prop) [DecidablePred kind] {first raw : Int} (hfirst : kind first)
    (hraw : kind raw) :
    ((Finset.Ioc first raw).filter kind).card = ((Finset.Ico first raw).filter kind).card := by
  rcases lt_or_ge first raw with hlt | hle
  · rw [← Finset.Ioo_insert_right hlt, ← Finset.Ioo_insert_left hlt, Finset.filter_insert,
      Finset.filter_insert, if_pos hfirst, if_pos hraw, Finset.card_insert_of_notMem,
      Finset.card_insert_of_notMem]
    · simp
    · simp
  · rw [Finset.Ioc_eq_empty (not_lt.mpr hle), Finset.Ico_eq_empty (not_lt.mpr hle)]

theorem businessDayIndex_eq_card {start raw : Int} (hraw : isWeekend raw = false)
    (hstart : start ≤ raw) :
    businessDayIndex (firstWeekdayOnOrAfter start) raw =
      (((Finset.Ico start raw).filter fun d => isWeekend d = false).card : Int) := by
  have hanchor := (firstWeekdayOnOrAfter_le_iff start hraw).mpr hstart
  have hweekday : isWeekend (firstWeekdayOnOrAfter start) = false := by
    unfold firstWeekdayOnOrAfter
    split
    · have hmonday := weekday_nextWeekday le_rfl (by decide : (0 : Int) < 7) start
      simp [isWeekend, hmonday]
    · next h => exact Bool.eq_false_iff.mpr h
  unfold businessDayIndex
  rw [if_neg (not_lt.mpr hanchor),
    card_from_first (fun d hd => firstWeekdayOnOrAfter_le_iff start hd) raw,
    ← card_shift (fun d => isWeekend d = false) hweekday hraw]
  have hset : (Finset.Ioc (firstWeekdayOnOrAfter start) raw).filter (fun d => isWeekend d = false) =
      (Finset.Ico (firstWeekdayOnOrAfter start + 1) (raw + 1)).filter
        fun d => isWeekend d = false := by
    ext d
    simp only [Finset.mem_filter, Finset.mem_Ioc, Finset.mem_Ico]
    refine and_congr_left fun _ => ?_
    omega
  rw [hset, card_eq_length ((pairwise_countUp Int.one_pos).filter _)]
  intro d
  simp only [List.mem_filter, mem_countUp Int.one_pos, Bool.not_eq_true', Int.emod_one, and_true]
  refine and_congr_left fun _ => ?_
  omega

theorem card_weekdays {iso start raw : Int} (hlow : 0 ≤ iso) (hhigh : iso < 7)
    (hraw : weekday raw = iso) (hstart : start ≤ raw) :
    (((Finset.Ico start raw).filter fun d => weekday d = iso).card : Int) =
      (raw - nextWeekday iso start) / 7 := by
  have hanchor := (nextWeekday_le_iff hraw start).mpr hstart
  have hfirst := weekday_nextWeekday hlow hhigh start
  rw [@card_from_first _ _ start (nextWeekday iso start) fun d hd => nextWeekday_le_iff hd start,
    @card_eq_length _ _ _ _ (countUp (nextWeekday iso start) (raw - 1) 7)
      (pairwise_countUp (by decide))]
  · unfold countUp
    rw [List.length_map, List.length_range]
    unfold weekday at hraw hfirst
    omega
  · intro d
    rw [mem_countUp (by decide)]
    unfold weekday at hfirst ⊢
    omega

theorem getElem?_countUp {lo hi step x : Int} (hstep : 0 < step) (n : ℕ) :
    (countUp lo hi step)[n]? = some x ↔ x = lo + step * n ∧ x ≤ hi := by
  have hin : n < ((hi - lo) / step + 1).toNat ↔ lo + step * n ≤ hi := by
    have hdiv := Int.le_ediv_iff_mul_le (a := (n : Int)) (b := hi - lo) hstep
    rw [mul_comm] at hdiv
    omega
  unfold countUp
  rw [List.getElem?_map, Option.map_eq_some_iff]
  constructor
  · rintro ⟨m, hm, rfl⟩
    obtain ⟨hlt, rfl⟩ := List.getElem?_eq_some_iff.mp hm
    rw [List.getElem_range]
    rw [List.length_range] at hlt
    exact ⟨rfl, hin.mp hlt⟩
  · rintro ⟨rfl, hle⟩
    exact ⟨n, List.getElem?_range (hin.mpr hle), rfl⟩

theorem getLast?_countUp {lo hi step x : Int} (hstep : 0 < step) :
    (countUp lo hi step).getLast? = some x ↔ x ∈ countUp lo hi step ∧ hi < x + step := by
  constructor
  · intro h
    refine ⟨List.mem_of_getLast? h, ?_⟩
    by_contra hle
    obtain ⟨hlow, -, hmod⟩ := (mem_countUp hstep).mp (List.mem_of_getLast? h)
    -- the next one is in the list too, and nothing of it is after the last
    have hnext : x + step ∈ countUp lo hi step := by
      refine (mem_countUp hstep).mpr ⟨by omega, not_lt.mp hle, ?_⟩
      rw [add_sub_right_comm, Int.add_emod_right, hmod]
    obtain ⟨before, hbefore⟩ := List.getLast?_eq_some_iff.mp h
    have hsorted := @pairwise_countUp lo hi step hstep
    rw [hbefore] at hsorted hnext
    rcases List.mem_append.mp hnext with hmem | hmem
    · have := (List.pairwise_append.mp hsorted).2.2 _ hmem x (.head _)
      omega
    · have := List.mem_singleton.mp hmem
      omega
  · rintro ⟨hmem, hlast⟩
    cases hend : (countUp lo hi step).getLast? with
    | none =>
      rw [List.getLast?_eq_none_iff.mp hend] at hmem
      cases hmem
    | some y =>
      obtain ⟨before, hbefore⟩ := List.getLast?_eq_some_iff.mp hend
      have hy := (mem_countUp hstep).mp (List.mem_of_getLast? hend)
      have hx := (mem_countUp hstep).mp hmem
      have hsorted := @pairwise_countUp lo hi step hstep
      rw [hbefore] at hsorted hmem
      rcases List.mem_append.mp hmem with hmem | hmem
      · -- a step after `x` the list has ended, so nothing of it is between
        have hlt := (List.pairwise_append.mp hsorted).2.2 _ hmem y (.head _)
        have hdvd : step ∣ y - x := by
          have := Int.dvd_sub (Int.dvd_of_emod_eq_zero hy.2.2) (Int.dvd_of_emod_eq_zero hx.2.2)
          rwa [sub_sub_sub_cancel_right] at this
        have := Int.le_of_dvd (by omega) hdvd
        omega
      · rw [List.mem_singleton.mp hmem]

theorem weekdayDatesInMonth_eq (month : Int) (weekday : Weekday) :
    weekdayDatesInMonth month weekday =
      countUp (nextWeekday weekday.iso (monthStart month)) (monthStart (month + 1) - 1) 7 := by
  have hiso := weekday.iso_mem
  have hfirst := weekday_nextWeekday hiso.1 hiso.2 (monthStart month)
  apply eq_of_increasing
  · refine List.Pairwise.filter _ (List.pairwise_map.mpr ?_)
    refine (pairwise_countUp Int.one_pos).imp fun hlt => ?_
    unfold ofMonthDay
    omega
  · exact pairwise_countUp (by decide)
  · intro raw
    rw [mem_countUp (by decide)]
    unfold weekdayDatesInMonth daysInMonth
    simp only [List.mem_filter, List.mem_map, mem_countUp Int.one_pos, decide_eq_true_eq]
    constructor
    · rintro ⟨⟨day, ⟨hlow, hhigh, -⟩, rfl⟩, hday⟩
      have hle := (nextWeekday_le_iff hday (monthStart month)).mpr (by unfold ofMonthDay; omega)
      refine ⟨hle, by unfold ofMonthDay; omega, ?_⟩
      unfold Civil.weekday at hday hfirst
      omega
    · rintro ⟨hlow, hhigh, hmod⟩
      have hday : Civil.weekday raw = weekday.iso := by
        unfold Civil.weekday at hfirst ⊢
        omega
      have hle := (nextWeekday_le_iff hday (monthStart month)).mp hlow
      refine ⟨⟨raw - monthStart month + 1, ⟨by omega, by omega, Int.emod_one _⟩, ?_⟩, hday⟩
      unfold ofMonthDay
      omega

theorem monthlyWeekdayPositionDate_eq_some {month raw : Int} {weekday : Weekday}
    {position : WeekdayPosition} :
    monthlyWeekdayPositionDate month weekday position = some raw ↔
      monthIndex raw = month ∧ Civil.weekday raw = weekday.iso ∧ position.Holds raw := by
  have hiso := weekday.iso_mem
  have hfirst := weekday_nextWeekday hiso.1 hiso.2 (monthStart month)
  have hlow := (nextWeekday_le_iff hfirst (monthStart month)).mp le_rfl
  have hweek : nextWeekday weekday.iso (monthStart month) < monthStart month + 7 := by
    unfold nextWeekday
    omega
  have hmonth : monthIndex raw = month ↔
      monthStart month ≤ raw ∧ raw < monthStart (month + 1) := by
    constructor
    · rintro rfl
      exact ⟨monthStart_le raw, lt_monthStart raw⟩
    · rintro ⟨hstart, hend⟩
      exact monthIndex_eq hstart hend
  have hlength := monthStart_succ month
  -- in the month, the day is known by its weekday and by the week of the month that it is in
  have hnth (n : ℕ) : (weekdayDatesInMonth month weekday)[n]? = some raw ↔
      monthIndex raw = month ∧ Civil.weekday raw = weekday.iso ∧ (dayOf raw - 1) / 7 = n := by
    rw [weekdayDatesInMonth_eq, getElem?_countUp (by decide)]
    unfold Civil.weekday at hfirst ⊢
    constructor
    · rintro ⟨hraw, hend⟩
      have hin := hmonth.mpr ⟨by omega, by omega⟩
      refine ⟨hin, by omega, ?_⟩
      unfold dayOf
      rw [hin]
      omega
    · rintro ⟨hin, hday, hplace⟩
      have hbounds := hmonth.mp hin
      unfold dayOf at hplace
      rw [hin] at hplace
      exact ⟨by omega, by omega⟩
  unfold monthlyWeekdayPositionDate WeekdayPosition.Holds
  cases position with
  | first => exact hnth 0
  | second => exact hnth 1
  | third => exact hnth 2
  | fourth => exact hnth 3
  | last =>
    dsimp only
    rw [weekdayDatesInMonth_eq, getLast?_countUp (by decide), mem_countUp (by decide)]
    unfold Civil.weekday at hfirst ⊢
    constructor
    · rintro ⟨⟨hstart, hend, hmod⟩, hlast⟩
      have hin := hmonth.mpr ⟨by omega, by omega⟩
      refine ⟨hin, by omega, ?_⟩
      unfold dayOf daysInMonth
      rw [hin]
      omega
    · rintro ⟨hin, hday, hplace⟩
      have hbounds := hmonth.mp hin
      unfold dayOf daysInMonth at hplace
      rw [hin] at hplace
      exact ⟨⟨by omega, by omega, by omega⟩, by omega⟩

theorem clampDayOfMonth_eq_iff {month day raw : Int} (hday : 1 ≤ day) :
    clampDayOfMonth month day = raw ↔ monthIndex raw = month ∧ IsClamped day raw := by
  unfold IsClamped
  constructor
  · rintro rfl
    rw [monthIndex_clamp hday]
    refine ⟨rfl, ?_⟩
    unfold dayOf
    rw [monthIndex_clamp hday]
    unfold clampDayOfMonth ofMonthDay
    omega
  · rintro ⟨rfl, hplace⟩
    unfold clampDayOfMonth ofMonthDay
    rw [← hplace]
    unfold dayOf
    omega

variable {data : RecurrenceInput} {raw : Int}

theorem exists_count_iff {interval : Int} (hinterval : 0 < interval) (first cursor : Int) :
    (∃ count : ℕ, cursor = first + count * interval) ↔
      0 ≤ cursor - first ∧ (cursor - first) % interval = 0 := by
  constructor
  · rintro ⟨count, rfl⟩
    rw [add_sub_cancel_left, Int.mul_emod_left]
    exact ⟨mul_nonneg (Int.natCast_nonneg count) hinterval.le, rfl⟩
  · rintro ⟨hnonneg, hmod⟩
    obtain ⟨k, hk⟩ := Int.dvd_of_emod_eq_zero hmod
    have hk0 : 0 ≤ k := by
      apply (mul_nonneg_iff_of_pos_left hinterval).mp
      omega
    refine ⟨k.toNat, ?_⟩
    rw [Int.toNat_of_nonneg hk0, mul_comm]
    omega

theorem yearlyOccurrence_eq (data : RecurrenceInput) (year : Int) :
    yearlyOccurrence data year =
      clampDayOfMonth (12 * year + monthIndex data.seriesStartDate % 12)
        (dayOf data.seriesStartDate) := by
  unfold yearlyOccurrence
  dsimp only
  split
  · next hin =>
    unfold clampDayOfMonth
    rw [min_eq_left hin]
  · rfl

theorem occurs_iff_patternDate (hvalid : Valid data) (raw : Int) :
    Occurs data raw ↔ PatternDate data raw := by
  have hinterval := hvalid.interval_pos
  unfold Occurs PatternDate
  cases hfreq : data.frequency with
  | daily =>
    unfold EveryNth
    dsimp only
    refine and_congr_right fun hraw => ?_
    rw [firstWeekdayOnOrAfter_le_iff _ hraw]
    refine and_congr_right fun hstart => ?_
    rw [businessDayIndex_eq_card hraw hstart, Int.dvd_iff_emod_eq_zero]
  | weekly =>
    unfold EveryNth
    dsimp only
    refine exists_congr fun weekday => and_congr_right fun _ => and_congr_right fun hraw => ?_
    rw [nextWeekday_le_iff hraw]
    refine and_congr_right fun hstart => ?_
    rw [card_weekdays weekday.iso_mem.1 weekday.iso_mem.2 hraw hstart, Int.dvd_iff_emod_eq_zero]
  | monthly =>
    dsimp only
    rw [exists_count_iff hinterval, ← and_assoc]
    refine and_congr_right fun _ => ?_
    unfold monthlyOccurrence
    split
    · next hmode =>
      obtain ⟨day, hday, hpos⟩ := hvalid.dayOfMonth hfreq hmode
      rw [hday, if_neg (by simp; omega), Option.getD_some, Option.some_inj,
        clampDayOfMonth_eq_iff hpos, hmode]
      simp
    · next weekday position hmode hweekday hposition =>
      rw [monthlyWeekdayPositionDate_eq_some, hmode, hweekday, hposition]
      simp
    · next hday hposition =>
      refine iff_of_false nofun ?_
      rintro (⟨hmode, -⟩ | ⟨hmode, weekday, position, hweekday, hposition', -⟩)
      · exact hday hmode
      · exact hposition _ _ hmode hweekday hposition'
  | yearly =>
    dsimp only
    rw [yearlyOccurrence_eq, clampDayOfMonth_eq_iff (dayOf_pos _), ← and_assoc, ← and_assoc,
      ← exists_count_iff hinterval, ← monthIndex_div raw, ← monthIndex_div data.seriesStartDate]
    refine and_congr_left fun _ => ?_
    constructor
    · rintro ⟨⟨count, hyear⟩, hmonth⟩
      exact ⟨count, by omega⟩
    · rintro ⟨count, hmonth⟩
      exact ⟨⟨count, by omega⟩, by omega⟩

/-- The dates of a series are its pattern's exactly when its end is clean. -/
theorem exact_iff (hvalid : Valid data) {dates : List Int}
    (hexpands : Expands data data.seriesStartDate data.seriesEndDate dates) :
    Exact data dates ↔ EndsClean data := by
  constructor
  · intro h raw hraw hbeyond hin
    obtain ⟨other, hother, hadj, htaken⟩ :=
      (hexpands.mem _).mp ((h.mem _).mpr ⟨raw, hraw, rfl, .inr hin⟩)
    -- occurrences that are moved to one date are one
    obtain rfl := hother.eq_of_adjust hvalid ((occurs_iff_patternDate hvalid raw).mpr hraw) hadj
    rcases htaken with ⟨-, hend⟩ | ⟨-, -, hreach⟩
    · exact not_beyond hend hbeyond
    · exact hreach hbeyond
  · intro hclean
    have hmem : ∀ d, d ∈ dates ↔ ∃ raw, PatternDate data raw ∧
        adjustWeekendToPrecedingWeekday raw = d ∧
        ((data.seriesStartDate ≤ raw ∧ raw ≤ data.seriesEndDate) ∨
          (data.seriesStartDate ≤ d ∧ d ≤ data.seriesEndDate)) := by
      intro d
      rw [hexpands.mem]
      refine exists_congr fun raw => ?_
      rw [occurs_iff_patternDate hvalid]
      refine and_congr_right fun hraw => and_congr_right fun hadj => or_congr_right ?_
      rw [hadj]
      constructor
      · exact fun h => ⟨h.1, h.2.1⟩
      · rintro ⟨hlow, hhigh⟩
        refine ⟨hlow, hhigh, fun hbeyond => hclean raw hraw hbeyond ?_⟩
        rw [hadj]
        exact ⟨hlow, hhigh⟩
    refine ⟨hexpands.increasing, ?_, hmem⟩
    intro d hd
    obtain ⟨raw, -, rfl, -⟩ := (hmem d).mp hd
    exact isWeekend_adjust raw

/-- **The expansion of a series.** It is strictly increasing and has weekdays only, and it is exact
when and only when no date of the pattern is moved back over the end of the series from where the
loops do not look. -/
theorem iterOccurrenceDates_exact_iff (data : RecurrenceInput)
    (hvalid : validateRecurrenceInput data = .ok ()) :
    ∃ dates, iterOccurrenceDates data none none = .ok dates ∧ dates.Pairwise (· < ·) ∧
      (∀ d ∈ dates, isWeekend d = false) ∧ (Exact data dates ↔ EndsClean data) := by
  obtain ⟨dates, hdates, hexpands⟩ := iterOccurrenceDates_spec hvalid none none
  have hclip : clipped data none none = (data.seriesStartDate, data.seriesEndDate) := by
    unfold clipped
    rw [Option.getD_none, Option.getD_none, max_self, min_self]
  rw [hclip] at hexpands
  refine ⟨dates, hdates, hexpands.increasing, ?_, exact_iff hvalid hexpands⟩
  intro d hd
  obtain ⟨raw, -, rfl, -⟩ := (hexpands.mem d).mp hd
  exact isWeekend_adjust raw

theorem iterOccurrenceDates_exact_fifteenths :
    ∃ dates, iterOccurrenceDates fifteenths none none = .ok dates ∧ dates.Pairwise (· < ·) ∧
      (∀ d ∈ dates, isWeekend d = false) ∧ (Exact fifteenths dates ↔ EndsClean fifteenths) :=
  iterOccurrenceDates_exact_iff fifteenths (by decide)

def saturdays : RecurrenceInput :=
  { frequency := .weekly
    interval := 1
    seriesStartDate := ofMonthDay (12 * 2026 + 5) 29
    seriesEndDate := ofMonthDay (12 * 2026 + 6) 3
    monthlyMode := none
    dayOfMonth := none
    weekday := some .saturday
    weekdayPosition := none }

/-- The meeting of the Saturday belongs to the Friday, the last day of the series, and is lost. -/
theorem iterOccurrenceDates_loses_the_last_friday :
    validateRecurrenceInput saturdays = .ok () ∧
      ¬ ∃ dates, iterOccurrenceDates saturdays none none = .ok dates ∧ Exact saturdays dates := by
  refine ⟨by decide, ?_⟩
  rintro ⟨dates, hdates, hexact⟩
  have hrun : iterOccurrenceDates saturdays none none = .ok [] := by decide +kernel
  obtain rfl := Except.ok.inj (hrun.symm.trans hdates)
  have hpattern : PatternDate saturdays (ofMonthDay (12 * 2026 + 6) 4) := by
    refine ⟨.saturday, rfl, by decide +kernel, by decide +kernel, ?_⟩
    decide +kernel
  have hfriday : adjustWeekendToPrecedingWeekday (ofMonthDay (12 * 2026 + 6) 4) =
      ofMonthDay (12 * 2026 + 6) 3 := by decide +kernel
  have hin := (hexact.mem (ofMonthDay (12 * 2026 + 6) 3)).mpr
    ⟨_, hpattern, hfriday, .inr (by decide +kernel)⟩
  cases hin

end AgentBack.Meetings
