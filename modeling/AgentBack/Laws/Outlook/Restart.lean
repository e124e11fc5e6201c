import AgentBack.Laws.Outlook.Busy
import AgentBack.Laws.Outlook.GapScan

/-!
# Where the gap scan restarts, and when its slots are safe

Behind a busy block `find_slot_via_busy_gaps` restarts at `snap_to_step` of the end of the block.
That function drops the seconds first, so a block that ends at 10:00:30 restarts the scan at 10:00
when the minute lies on the grid, before the block has ended, and the slot at 10:00 overlaps it.

`Opens` says which windows the scan opens. A slot inside a window is at fault only when it is the
window start itself (`slot_at_start`), so every slot is safe exactly when no opened window starts
with a slot that comes too early (`findSlotViaBusyGaps_safe_iff`). The step may be any here.
-/

namespace AgentBack.Outlook

open AgentBack.Span (Covers Holds Overlap Apart)

/-- The end of the free window in front of the blocks `rest`. -/
def windowEnd (searchEnd : Int) : List Interval → Int
  | [] => searchEnd
  | block :: _ => min block.1 searchEnd

def NoSlot (duration step lo hi : Int) : Prop :=
  ∃ fuel n, firstValidSlotInWindow fuel lo hi duration step = some (none, n)

/-- The scan opens a window at `lo`, behind the blocks `passed` and in front of `rest`. -/
inductive Opens (earliestAllowed searchEnd duration step : Int) (blocks : List Interval) :
    List Interval → List Interval → Int → Prop where
  | first : Opens earliestAllowed searchEnd duration step blocks [] blocks earliestAllowed
  | next {passed rest : List Interval} {block : Interval} {lo : Int}
      (opened : Opens earliestAllowed searchEnd duration step blocks passed (block :: rest) lo)
      (inRange : block.1 ≤ searchEnd) (noSlot : NoSlot duration step lo block.1) :
      Opens earliestAllowed searchEnd duration step blocks (passed ++ [block]) rest
        (snapToStep (max lo block.2) step)

/-! ## Rounding the restart -/

/-- Rounding goes up, except that it may drop the seconds of a minute on the grid. -/
theorem le_snapToStep_or (x step : Int) :
    x ≤ snapToStep x step ∨
      (dropSeconds x = snapToStep x step ∧ OnGrid step (snapToStep x step)) := by
  have hsec := lt_dropSeconds_add x
  unfold snapToStep
  simp only
  split
  · next h => exact .inr ⟨rfl, dropSeconds_aligned x, h⟩
  · have hpos : 0 < stepMinutes step := lt_of_lt_of_le (by decide) (le_max_right _ _)
    have hlt := Int.emod_lt_of_pos (minuteOfHour (dropSeconds x)) hpos
    have hmul : minute ≤
        (stepMinutes step - minuteOfHour (dropSeconds x) % stepMinutes step) * minute := by
      have := Int.mul_le_mul_of_nonneg_right
        (show 1 ≤ stepMinutes step - minuteOfHour (dropSeconds x) % stepMinutes step by omega)
        (le_of_lt minute_pos)
      rwa [Int.one_mul] at this
    exact .inl (by omega)

/-- An instant in the minute of a grid point is rounded to it. -/
theorem snapToStep_of_onGrid {x y step : Int} (hx : OnGrid step x) (hy : dropSeconds y = x) :
    snapToStep y step = x := by
  unfold snapToStep
  rw [hy, if_pos hx.divides]

/-- What a restart at `lo` may lose of an instant `x` before it: its seconds at most. -/
def KeepsMinute (step lo x : Int) : Prop := x ≤ lo ∨ (dropSeconds x = lo ∧ OnGrid step lo)

/-- Rounding keeps the minute of every instant up to the one it rounds. -/
theorem keepsMinute_snap {step x y : Int} (hxy : x ≤ y) :
    KeepsMinute step (snapToStep y step) x := by
  rcases le_snapToStep_or y step with h | ⟨h, hgrid⟩
  · exact .inl (le_trans hxy h)
  · by_cases hle : x ≤ snapToStep y step
    · exact .inl hle
    · refine .inr ⟨?_, hgrid⟩
      have hmono := dropSeconds_mono hxy
      have hle' := hgrid.aligned.le_dropSeconds.mpr (le_of_lt (not_le.mp hle))
      omega

/-- Rounding again behind the next block keeps it as well. -/
theorem KeepsMinute.restart {step lo x stop : Int} (h : KeepsMinute step lo x) :
    KeepsMinute step (snapToStep (max lo stop) step) x := by
  by_cases hle : x ≤ max lo stop
  · exact keepsMinute_snap hle
  · rcases h with h | ⟨hdrop, hgrid⟩
    · exact absurd (le_trans h (le_max_left _ _)) hle
    · -- the block ends in the minute of `lo`, and the scan restarts where it was
      have hsec := lt_dropSeconds_add x
      have hlo : lo ≤ max lo stop := le_max_left _ _
      have hdrop' : dropSeconds (max lo stop) = lo := by
        have hge := hgrid.aligned.le_dropSeconds.mpr hlo
        have hmono := dropSeconds_mono (le_of_lt (not_le.mp hle))
        omega
      rw [snapToStep_of_onGrid hgrid hdrop']
      exact .inr ⟨hdrop, hgrid⟩

section Windows

variable {earliestAllowed searchEnd duration step : Int} {blocks passed rest : List Interval}
  {lo : Int}

section

variable (h : Opens earliestAllowed searchEnd duration step blocks passed rest lo)
include h

theorem Opens.split :
    passed ++ rest = blocks := by
  induction h with
  | first => rfl
  | next _ _ _ ih => rw [List.append_assoc, List.singleton_append, ih]

/-- An opened window keeps the minute of `earliest_allowed` and of the end of every passed block. -/
theorem Opens.keepsMinute :
    KeepsMinute step lo earliestAllowed ∧ ∀ block ∈ passed, KeepsMinute step lo block.2 := by
  induction h with
  | first => exact ⟨.inl (le_refl _), by simp⟩
  | next _ _ _ ih =>
    refine ⟨ih.1.restart, fun b hb => ?_⟩
    rcases List.mem_append.mp hb with hb | hb
    · exact (ih.2 b hb).restart
    · obtain rfl := List.mem_singleton.mp hb
      exact keepsMinute_snap (le_max_right _ _)

end

/-- A working minute on the grid is the first candidate of the window that it opens. -/
private theorem firstCandidate_eq (hgrid : OnGrid step lo) (hwm : WorkingMinute lo) :
    snapToStep (max lo (alignPreferred lo)) step = lo := by
  have halign : alignPreferred lo = lo := by
    refine (alignPreferred_least lo).unique ⟨⟨hwm, ?_⟩, fun z hz => ?_⟩
    · exact dropSeconds_le lo
    · rw [← hgrid.aligned.dropSeconds_eq]
      exact hz.2
  rw [halign, max_self, snapToStep_of_onGrid hgrid hgrid.aligned.dropSeconds_eq]

theorem firstValidSlotInWindow_at_start (hdur : 0 < duration) {hi : Int} (hgrid : OnGrid step lo)
    (hslot : SlotIn duration lo hi lo) (fuel : Nat) :
    firstValidSlotInWindow (fuel + 1) lo hi duration step = some (some lo, 1) := by
  have hends := hslot.ends
  obtain ⟨hw, ho, hc, _⟩ := (slotRespectsRules_iff hdur).mp hslot.rules
  have hwm : WorkingMinute lo := ⟨hgrid.aligned, hw, ho, by omega⟩
  have hin : lo < hi ∧ lo + duration ≤ hi := ⟨by omega, hends⟩
  unfold firstValidSlotInWindow
  rw [if_neg (by omega)]
  simp only [firstCandidate_eq hgrid hwm, Pass.run, windowPass, if_pos hin, lt_irrefl, if_false,
    if_pos hslot.rules, Int.zero_add]

variable {fuel : Nat} {t n : Int}

/-- A slot in the minute of a window start on the grid is the window start. -/
theorem slot_at_start (hdur : 0 < duration) {hi : Int} (hgrid : OnGrid step lo)
    (h : firstValidSlotInWindow fuel lo hi duration step = some (some t, n))
    (ht : t < lo + minute) : t = lo ∧ SlotIn duration lo hi lo := by
  have hslot := slotIn_of_firstValidSlotInWindow h
  have hends := hslot.ends
  have hstarts := hslot.starts
  have hdrop : dropSeconds t = lo := by
    have hle := hgrid.aligned.le_dropSeconds.mpr hstarts
    have hle' := dropSeconds_le t
    by_contra hne
    have := hgrid.aligned.add_le_of_lt (dropSeconds_aligned t) (by omega)
    omega
  have hstart : SlotIn duration lo hi lo :=
    ⟨le_refl _, by omega, hdrop ▸ respects_dropSeconds hdur hslot.rules⟩
  refine ⟨?_, hstart⟩
  cases fuel with
  | zero =>
    simp only [firstValidSlotInWindow, if_neg (show ¬ hi ≤ lo by omega), Pass.run] at h
    cases h
  | succ fuel =>
    rw [firstValidSlotInWindow_at_start hdur hgrid hstart] at h
    cases h
    rfl

theorem scanGaps_slot (rest : List Interval) :
    ∀ {passed lo checked n}, Opens earliestAllowed searchEnd duration step blocks passed rest lo →
      scanGaps fuel searchEnd duration step rest lo checked = some (some t, n) →
      ∃ passed' rest' lo' n', Opens earliestAllowed searchEnd duration step blocks passed' rest' lo' ∧
        firstValidSlotInWindow fuel lo' (windowEnd searchEnd rest') duration step =
          some (some t, n') := by
  have hlast : ∀ {lo checked n}, lastWindow fuel searchEnd duration step lo checked =
      some (some t, n) →
      ∃ n', firstValidSlotInWindow fuel lo searchEnd duration step = some (some t, n') := by
    intro lo checked n h
    unfold lastWindow at h
    split at h
    · obtain ⟨⟨slot, n'⟩, hfirst, heq⟩ := Option.map_eq_some_iff.mp h
      obtain rfl : slot = some t := congrArg Prod.fst heq
      exact ⟨n', hfirst⟩
    · cases h
  induction rest with
  | nil =>
    intro passed lo checked n hopen h
    obtain ⟨n', hfirst⟩ := hlast h
    exact ⟨passed, [], lo, n', hopen, hfirst⟩
  | cons block rest ih =>
    intro passed lo checked n hopen h
    unfold scanGaps at h
    split at h
    · next hbreak =>
      obtain ⟨n', hfirst⟩ := hlast h
      refine ⟨passed, block :: rest, lo, n', hopen, ?_⟩
      rw [windowEnd, min_eq_right (le_of_lt hbreak)]
      exact hfirst
    · next hbreak =>
      have hin : block.1 ≤ searchEnd := not_lt.mp hbreak
      obtain ⟨⟨slot, windowChecked⟩, hwindow, hrest⟩ := Option.bind_eq_some_iff.mp h
      cases slot with
      | some slot =>
        obtain rfl : slot = t := Option.some.inj (congrArg Prod.fst (Option.some.inj hrest))
        split at hwindow
        · exact ⟨passed, block :: rest, lo, windowChecked, hopen, hwindow⟩
        · cases hwindow
      | none =>
        refine ih (hopen.next hin ?_) hrest
        split at hwindow
        · rw [min_eq_left hin] at hwindow
          exact ⟨fuel, windowChecked, hwindow⟩
        · next hgap =>
          refine ⟨0, 0, ?_⟩
          rw [firstValidSlotInWindow, if_pos (not_lt.mp hgap)]

/-- The scan reaches every window that it opens: what it answers from there is its answer. -/
theorem Opens.reached (h : Opens earliestAllowed searchEnd duration step blocks passed rest lo) :
    ∃ checked, ∀ found,
      Settles (fun fuel => scanGaps fuel searchEnd duration step rest lo checked) found →
      Settles (fun fuel =>
        findSlotViaBusyGaps fuel earliestAllowed searchEnd duration step blocks) found := by
  induction h with
  | first => exact ⟨0, fun _ hfound => hfound⟩
  | @next passed rest block lo _ inRange noSlot ih =>
    obtain ⟨checked, ih⟩ := ih
    obtain ⟨fuel, n, hnone⟩ := noSlot
    by_cases hgap : block.1 > lo
    · refine ⟨checked + n, fun found hfound => ih found ?_⟩
      unfold scanGaps
      simp only [if_neg (not_lt.mpr inRange), if_pos hgap, min_eq_left inRange]
      exact ((firstValidSlotInWindow_steady lo block.1 duration step).settles hnone).bind hfound
    · refine ⟨checked + 0, fun found hfound => ih found ?_⟩
      unfold scanGaps
      simp only [if_neg (not_lt.mpr inRange), if_neg hgap]
      exact (Settles.const (none, 0)).bind hfound

/-- A scan whose next window has a slot answers this slot. -/
theorem scanGaps_of_window
    (h : firstValidSlotInWindow fuel lo (windowEnd searchEnd rest) duration step =
      some (some t, n)) (checked : Int) :
    Settles (fun fuel => scanGaps fuel searchEnd duration step rest lo checked)
      (some t, checked + n) := by
  have hset := (firstValidSlotInWindow_steady lo _ duration step).settles h
  have hlt : lo < windowEnd searchEnd rest := by
    by_contra hempty
    rw [firstValidSlotInWindow, if_pos (not_lt.mp hempty)] at h
    cases h
  have hlast : windowEnd searchEnd rest = searchEnd →
      Settles (fun fuel => lastWindow fuel searchEnd duration step lo checked)
        (some t, checked + n) := by
    intro hend
    rw [hend] at hlt hset
    unfold lastWindow
    simp only [if_pos hlt]
    exact hset.map _
  cases rest with
  | nil => exact hlast rfl
  | cons block rest =>
    unfold scanGaps
    by_cases hbreak : block.1 > searchEnd
    · simp only [if_pos hbreak]
      exact hlast (min_eq_right (le_of_lt hbreak))
    · have hgap : block.1 > lo := lt_of_lt_of_le hlt (min_le_left _ _)
      simp only [if_neg hbreak, if_pos hgap]
      exact hset.bind (Settles.const _)

/-! ## Safe slots -/

/-- A slot that nobody has to be asked about: inside the search, within the working-time rules and
apart from every busy interval, as `is_free_for_all` confirms when the intervals are proper. -/
structure Safe (earliestAllowed searchEnd duration : Int) (busyByAttendee : BusyMap)
    (t : Int) : Prop where
  starts : earliestAllowed ≤ t
  ends : t + duration ≤ searchEnd
  rules : slotRespectsRules t duration = true
  free : ∀ iv ∈ busyByAttendee.values.flatten, Apart (t, t + duration) iv
  freeForAll : (∀ iv ∈ busyByAttendee.values.flatten, iv.1 < iv.2) →
    isFreeForAll t duration busyByAttendee = true

theorem windowEnd_le (searchEnd : Int) (rest : List Interval) :
    windowEnd searchEnd rest ≤ searchEnd := by
  cases rest with
  | nil => exact le_refl _
  | cons block rest => exact min_le_right _ _

theorem windowEnd_le_start (searchEnd : Int) {rest : List Interval} (h : Span.Normal rest) :
    ∀ block ∈ rest, windowEnd searchEnd rest ≤ block.1 := by
  cases rest with
  | nil => simp
  | cons first rest =>
    intro block hb
    have hle : windowEnd searchEnd (first :: rest) ≤ first.1 := min_le_left _ _
    rcases List.mem_cons.mp hb with rfl | hb
    · exact hle
    · have h₁ := h.proper first (.head _)
      have h₂ := h.head_lt block hb
      omega

/-- No window that the scan opens starts with a slot that comes before `earliest_allowed` or
overlaps a block behind which the scan restarted. -/
def RestartsInTime (earliestAllowed searchEnd duration step : Int) (blocks : List Interval) :
    Prop :=
  ∀ passed rest lo, Opens earliestAllowed searchEnd duration step blocks passed rest lo →
    SlotIn duration lo (windowEnd searchEnd rest) lo →
      earliestAllowed ≤ lo ∧ ∀ block ∈ passed, ¬ Overlap (lo, lo + duration) block

/-- A slot of an opened window lies after everything that the scan has passed, unless it is the
window start. -/
private theorem starts_behind (hdur : 0 < duration) {x : Int} (hkeeps : KeepsMinute step lo x)
    (h : firstValidSlotInWindow fuel lo (windowEnd searchEnd rest) duration step =
      some (some t, n)) :
    x ≤ t ∨ (t = lo ∧ SlotIn duration lo (windowEnd searchEnd rest) lo) := by
  have hstarts := (slotIn_of_firstValidSlotInWindow h).starts
  rcases hkeeps with hle | ⟨hdrop, hgrid⟩
  · exact .inl (le_trans hle hstarts)
  · by_cases hxt : x ≤ t
    · exact .inl hxt
    · have hsec := lt_dropSeconds_add x
      exact .inr (slot_at_start hdur hgrid h (by omega))

/-- The meeting is free of intervals when it is apart from the blocks they coalesce to. -/
private theorem apart_of_apart_coalesced {intervals : List Interval} {iv : Interval}
    (h : ∀ block ∈ coalesceIntervals intervals none none, Apart (t, t + duration) block)
    (hiv : iv ∈ intervals) : Apart (t, t + duration) iv := by
  intro x hx hxiv
  obtain ⟨block, hmem, hxb⟩ := (covers_coalesce_all intervals x).mpr ⟨iv, hiv, hxiv⟩
  exact h block hmem x hx hxb

private theorem not_apart_of_overlap_coalesced {intervals : List Interval} {block : Interval} (hdur : 0 < duration) (hmem : block ∈ coalesceIntervals intervals none none)
    (hov : Overlap (t, t + duration) block) :
    ¬ ∀ iv ∈ intervals, Apart (t, t + duration) iv := by
  intro hfree
  obtain ⟨x, hx, iv, hiv, hxiv⟩ := exists_covered_of_overlap hdur hmem hov
  exact hfree iv hiv x hx hxiv

/-- When the scan restarts in time, a slot of an opened window starts after `earliest_allowed` and
is apart from all blocks. -/
theorem RestartsInTime.apart (htime : RestartsInTime earliestAllowed searchEnd duration step blocks)
    (hdur : 0 < duration) (hnormal : Span.Normal blocks)
    (hopen : Opens earliestAllowed searchEnd duration step blocks passed rest lo) (hwindow : firstValidSlotInWindow fuel lo (windowEnd searchEnd rest) duration step =
      some (some t, n)) :
    earliestAllowed ≤ t ∧ ∀ block ∈ blocks, Apart (t, t + duration) block := by
  obtain ⟨hearliest, hpassed⟩ := hopen.keepsMinute
  constructor
  · rcases starts_behind hdur hearliest hwindow with hle | ⟨rfl, hstart⟩
    · exact hle
    · exact (htime passed rest t hopen hstart).1
  · -- passed blocks lie before the slot, the others behind the window
    intro block hmem x hx hxb
    rw [← hopen.split] at hmem hnormal
    rcases List.mem_append.mp hmem with hb | hb
    · rcases starts_behind hdur (hpassed block hb) hwindow with hle | ⟨rfl, hstart⟩
      · have h₁ : t ≤ x := hx.1
        have h₂ := hxb.2
        omega
      · apply (htime passed rest t hopen hstart).2 block hb
        exact ⟨lt_of_le_of_lt hx.1 hxb.2, lt_of_le_of_lt hxb.1 hx.2⟩
    · have hrest : Span.Normal rest := ⟨fun b hb => hnormal.proper b (List.mem_append_right _ hb),
        (List.pairwise_append.mp hnormal.separated).2.1⟩
      have hends := (slotIn_of_firstValidSlotInWindow hwindow).ends
      have h₁ := windowEnd_le_start searchEnd hrest block hb
      have h₂ : x < t + duration := hx.2
      have h₃ := hxb.1
      omega

/-- A window that starts too early starts on the grid. -/
private theorem Opens.onGrid_of_early
    (hopen : Opens earliestAllowed searchEnd duration step blocks passed rest lo)
    (hearly : ¬ (earliestAllowed ≤ lo ∧ ∀ block ∈ passed, ¬ Overlap (lo, lo + duration) block)) :
    OnGrid step lo := by
  obtain ⟨hearliest, hpassed⟩ := hopen.keepsMinute
  by_contra hno
  refine hearly ⟨hearliest.resolve_right fun h => hno h.2, fun block hb hov => ?_⟩
  have hle := (hpassed block hb).resolve_right fun h => hno h.2
  have hlt : lo < block.2 := hov.1
  omega

/-- The slots of the gap scan are safe exactly when it restarts in time behind every block. -/
theorem findSlotViaBusyGaps_safe_iff (earliestAllowed searchEnd duration step : Int)
    (hdur : 0 < duration) (busyByAttendee : BusyMap) :
    (∀ fuel t n, findSlotViaBusyGaps fuel earliestAllowed searchEnd duration step
        (coalesceIntervals busyByAttendee.values.flatten none none) = some (some t, n) →
      Safe earliestAllowed searchEnd duration busyByAttendee t) ↔
    RestartsInTime earliestAllowed searchEnd duration step
      (coalesceIntervals busyByAttendee.values.flatten none none) := by
  constructor
  · intro hsafe passed rest lo hopen hslot
    by_contra hbad
    -- the window starts with a slot, which is the answer of the scan
    have hgrid := hopen.onGrid_of_early hbad
    obtain ⟨checked, hreach⟩ := hopen.reached
    obtain ⟨enough, hset⟩ := hreach _ (scanGaps_of_window
      (firstValidSlotInWindow_at_start hdur hgrid hslot 0) checked)
    have hlo := hsafe enough lo _ (hset enough le_rfl)
    apply hbad
    refine ⟨hlo.starts, fun block hb hov => ?_⟩
    apply not_apart_of_overlap_coalesced hdur _ hov hlo.free
    rw [← hopen.split]
    exact List.mem_append_left _ hb
  · intro htime fuel t n h
    obtain ⟨passed, rest, lo, n', hopen, hwindow⟩ := scanGaps_slot _ .first h
    have hslot := slotIn_of_firstValidSlotInWindow hwindow
    obtain ⟨hstarts, hblocks⟩ := htime.apart hdur (coalesceIntervals_normal _ _ _) hopen hwindow
    have hfree : ∀ iv ∈ busyByAttendee.values.flatten, Apart (t, t + duration) iv :=
      fun iv hiv => apart_of_apart_coalesced hblocks hiv
    refine ⟨hstarts, le_trans hslot.ends (windowEnd_le searchEnd rest), hslot.rules, hfree,
      fun hproper => ?_⟩
    apply isFreeForAll_iff.mpr
    intro iv hiv
    exact Span.not_overlap_of_apart (a := (t, t + duration)) (show t < t + duration by omega)
      (hproper iv hiv) (hfree iv hiv)

/-- With whole minutes the scan always restarts in time. -/
theorem restartsInTime_of_aligned (hearliest : MinuteAligned earliestAllowed)
    (hblocks : ∀ block ∈ blocks, MinuteAligned block.2) :
    RestartsInTime earliestAllowed searchEnd duration step blocks := by
  intro passed rest lo hopen hslot
  have hkeep : ∀ x, MinuteAligned x → KeepsMinute step lo x → x ≤ lo := by
    rintro x hx (hle | ⟨hdrop, _⟩)
    · exact hle
    · exact le_of_eq (hx.dropSeconds_eq.symm.trans hdrop)
  obtain ⟨hearliest', hpassed⟩ := hopen.keepsMinute
  refine ⟨hkeep _ hearliest hearliest', fun block hb hov => ?_⟩
  have hmem : block ∈ blocks := hopen.split ▸ List.mem_append_left _ hb
  have hle := hkeep _ (hblocks block hmem) (hpassed block hb)
  have hlt : lo < block.2 := hov.1
  omega

end Windows

/-- Monday from 09:00 on, one attendee busy from 09:00 to 10:00: the slot of an hour at 10:00 is
safe. -/
theorem findSlotViaBusyGaps_safe_monday :
    findSlotViaBusyGaps 5 (9 * hour) (4 * day) hour (15 * minute)
        (coalesceIntervals
          (Dict.ofList [("a@x", [(9 * hour, 10 * hour)])] : BusyMap).values.flatten
          none none) = some (some (10 * hour), 1) ∧
      Safe (9 * hour) (4 * day) hour (Dict.ofList [("a@x", [(9 * hour, 10 * hour)])])
        (10 * hour) := by
  have hslot : findSlotViaBusyGaps 5 (9 * hour) (4 * day) hour (15 * minute)
      (coalesceIntervals
        (Dict.ofList [("a@x", [(9 * hour, 10 * hour)])] : BusyMap).values.flatten
        none none) = some (some (10 * hour), 1) := by decide +kernel
  exact ⟨hslot, (findSlotViaBusyGaps_safe_iff _ _ _ _ (by decide) _).mpr
    (restartsInTime_of_aligned (by decide) (by decide +kernel)) 5 _ _ hslot⟩

/-- One attendee busy from 09:00 to 10:00:30, and a quarter of an hour as the step: the slot of
half an hour at 10:00 overlaps the last thirty seconds. -/
theorem findSlotViaBusyGaps_overlaps_half_minute :
    (0 < 15 * minute ∧ 0 < 30 * minute ∧ 30 * minute ≤ workDay) ∧
      ¬ ∀ fuel t n, findSlotViaBusyGaps fuel (9 * hour) (4 * day) (30 * minute) (15 * minute)
          (coalesceIntervals (Dict.ofList
            [("a@x", [(9 * hour, 10 * hour + 30 * second)])] : BusyMap).values.flatten
            none none) = some (some t, n) →
        Safe (9 * hour) (4 * day) (30 * minute)
          (Dict.ofList [("a@x", [(9 * hour, 10 * hour + 30 * second)])]) t := by
  refine ⟨by decide, fun h => ?_⟩
  have hsafe := h 5 (10 * hour) 1 (by decide +kernel)
  have hfree := hsafe.free (9 * hour, 10 * hour + 30 * second) (by decide +kernel) (10 * hour)
  exact hfree ⟨by decide, by decide⟩ ⟨by decide, by decide⟩

end AgentBack.Outlook
