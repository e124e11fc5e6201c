import AgentBack.Laws.Outlook.Grid
import Mathlib.Tactic.Linarith

/-!
# What the busy data says

`coalesce_intervals` keeps the covered instants of its list, inside the clipping range, and a slot
is free of a list of proper intervals exactly when it shares no instant with it. Every interval
that a parser reads from an Exchange answer is proper.
-/

namespace AgentBack.Outlook

open AgentBack.Span (Covers Holds Overlap Apart)

/-! ## Coalescing with a clipping range -/

/-- The instants inside a clipping range. -/
def InClip (clipStart clipEnd : Option Int) (x : Int) : Prop :=
  (∀ a ∈ clipStart, a ≤ x) ∧ ∀ b ∈ clipEnd, x < b

variable {clipStart clipEnd : Option Int} {start localEnd step t : Int}

/-- A clipped interval is proper, and it holds the instants of the interval in the range. -/
theorem clipInterval_eq_some {iv clipped : Interval}
    (h : clipInterval clipStart clipEnd iv = some clipped) :
    clipped.1 < clipped.2 ∧
      ∀ x, Holds clipped x ↔ Holds iv x ∧ InClip clipStart clipEnd x := by
  unfold clipInterval at h
  split at h
  · cases h
  · simp only at h
    split at h
    · cases h
    · next hproper =>
      cases h
      refine ⟨not_le.mp hproper, fun x => ?_⟩
      cases clipStart <;> cases clipEnd <;>
        simp only [Holds, InClip, Option.elim_none, Option.elim_some, Option.mem_def,
          reduceCtorEq, false_implies, forall_const, Option.some.injEq, forall_eq', max_le_iff,
          lt_min_iff, and_true, true_and] <;>
        tauto

/-- An interval that is clipped away holds no instant of the range. -/
theorem clipInterval_eq_none {iv : Interval}
    (h : clipInterval clipStart clipEnd iv = none) (x : Int) :
    ¬ (Holds iv x ∧ InClip clipStart clipEnd x) := by
  rintro ⟨⟨h₁, h₂⟩, ha, hb⟩
  unfold clipInterval at h
  split at h
  · omega
  · simp only at h
    split at h
    · next hempty =>
      have hstart : clipStart.elim iv.1 (max iv.1) ≤ x := by
        cases clipStart with
        | none => exact h₁
        | some a => exact max_le h₁ (ha a rfl)
      have hend : x < clipEnd.elim iv.2 (min iv.2) := by
        cases clipEnd with
        | none => exact h₂
        | some b => exact lt_min h₂ (hb b rfl)
      omega
    · cases h

variable (intervals : List Interval)

private theorem clipped_proper (clipStart clipEnd : Option Int) :
    ∀ iv ∈ intervals.filterMap (clipInterval clipStart clipEnd), iv.1 < iv.2 := by
  intro iv hiv
  obtain ⟨raw, _, hclip⟩ := List.mem_filterMap.mp hiv
  exact (clipInterval_eq_some hclip).1

theorem coalesceIntervals_normal (clipStart clipEnd : Option Int) :
    Span.Normal (coalesceIntervals intervals clipStart clipEnd) :=
  Span.coalesce_normal (clipped_proper intervals clipStart clipEnd)

/-- `coalesce_intervals` covers the instants that its list covers in the clipping range. -/
theorem covers_coalesceIntervals (clipStart clipEnd : Option Int) (x : Int) :
    Covers (coalesceIntervals intervals clipStart clipEnd) x ↔
      Covers intervals x ∧ InClip clipStart clipEnd x := by
  rw [coalesceIntervals, Span.covers_coalesce (clipped_proper intervals clipStart clipEnd)]
  constructor
  · rintro ⟨iv, hiv, hx⟩
    obtain ⟨raw, hraw, hclip⟩ := List.mem_filterMap.mp hiv
    obtain ⟨hrawx, hin⟩ := ((clipInterval_eq_some hclip).2 x).mp hx
    exact ⟨⟨raw, hraw, hrawx⟩, hin⟩
  · rintro ⟨⟨raw, hraw, hrawx⟩, hin⟩
    cases hclip : clipInterval clipStart clipEnd raw with
    | none => exact absurd ⟨hrawx, hin⟩ (clipInterval_eq_none hclip x)
    | some iv =>
      exact ⟨iv, List.mem_filterMap.mpr ⟨raw, hraw, hclip⟩,
        ((clipInterval_eq_some hclip).2 x).mpr ⟨hrawx, hin⟩⟩

theorem inClip_none (x : Int) : InClip none none x := by
  simp [InClip]

/-- Without a clipping range the coalesced intervals cover the same instants. -/
theorem covers_coalesce_all (x : Int) :
    Covers (coalesceIntervals intervals none none) x ↔ Covers intervals x := by
  rw [covers_coalesceIntervals]
  exact and_iff_left (inClip_none x)

/-- A meeting that overlaps a coalesced block shares an instant with the intervals. -/
theorem exists_covered_of_overlap {intervals : List Interval}
    {block : Interval} {duration : Int} (hdur : 0 < duration)
    (hmem : block ∈ coalesceIntervals intervals clipStart clipEnd)
    (hov : Overlap (start, start + duration) block) :
    ∃ x, Holds (start, start + duration) x ∧ Covers intervals x := by
  have hproper := (coalesceIntervals_normal intervals clipStart clipEnd).proper block hmem
  obtain ⟨x, hx, hxb⟩ := Span.exists_holds_of_overlap (a := (start, start + duration))
    (show start < start + duration by omega) hproper hov
  exact ⟨x, hx, ((covers_coalesceIntervals _ _ _ x).mp ⟨block, hmem, hxb⟩).1⟩

/-- **The canonical form** of a list of intervals in a clipping range: proper intervals, in order and
with gaps between them, that cover what the list covers in the range. -/
structure Canonical (intervals : List Interval) (clipStart clipEnd : Option Int)
    (blocks : List Interval) : Prop where
  normal : Span.Normal blocks
  covers : ∀ x, Covers blocks x ↔ Covers intervals x ∧ InClip clipStart clipEnd x

theorem canonical_coalesceIntervals (clipStart clipEnd : Option Int) :
    Canonical intervals clipStart clipEnd (coalesceIntervals intervals clipStart clipEnd) :=
  ⟨coalesceIntervals_normal _ _ _, covers_coalesceIntervals _ _ _⟩

/-- Lists that cover the same instants have one canonical form. -/
theorem Canonical.unique {intervals intervals' : List Interval}
    {blocks blocks' : List Interval} (h : Canonical intervals clipStart clipEnd blocks)
    (h' : Canonical intervals' clipStart clipEnd blocks')
    (hsame : ∀ x, Covers intervals x ↔ Covers intervals' x) : blocks = blocks' :=
  h.normal.ext h'.normal fun x => by rw [h.covers, h'.covers, hsame]

/-- `coalesce_intervals` finds the canonical form of its list, which does not depend on the order and
the repetition of the intervals, coalesces to itself, and is the same however busy time is split among
the attendees. -/
theorem coalesceIntervals_canonical (intervals : List Interval) (clipStart clipEnd : Option Int) :
    Canonical intervals clipStart clipEnd (coalesceIntervals intervals clipStart clipEnd) ∧
      (∀ intervals' : List Interval, (∀ iv, iv ∈ intervals' ↔ iv ∈ intervals) →
        coalesceIntervals intervals' clipStart clipEnd =
          coalesceIntervals intervals clipStart clipEnd) ∧
      coalesceIntervals (coalesceIntervals intervals clipStart clipEnd) clipStart clipEnd =
        coalesceIntervals intervals clipStart clipEnd ∧
      ∀ (busyByAttendee busyByAttendee' : BusyMap) (rangeStart rangeEnd : Int),
        (∀ x, Covers busyByAttendee.values.flatten x ↔ Covers busyByAttendee'.values.flatten x) →
          unionBusyForAll busyByAttendee rangeStart rangeEnd =
            unionBusyForAll busyByAttendee' rangeStart rangeEnd := by
  have hform := canonical_coalesceIntervals intervals clipStart clipEnd
  refine ⟨hform, fun intervals' hmem => ?_, ?_, fun busy busy' rangeStart rangeEnd hsame => ?_⟩
  · refine (canonical_coalesceIntervals intervals' clipStart clipEnd).unique hform fun x => ?_
    simp only [Covers, hmem]
  · refine (canonical_coalesceIntervals _ clipStart clipEnd).normal.ext hform.normal fun x => ?_
    -- what is coalesced lies in the range already
    rw [covers_coalesceIntervals, hform.covers, and_assoc, and_self]
  · exact (canonical_coalesceIntervals _ _ _).unique (canonical_coalesceIntervals _ _ _) hsame

/-- Two meetings that overlap, listed the other way round and one of them twice. -/
theorem coalesceIntervals_canonical_overlap :
    coalesceIntervals [(2, 4), (1, 3), (2, 4)] none none =
      coalesceIntervals [(1, 3), (2, 4)] none none :=
  (coalesceIntervals_canonical [(1, 3), (2, 4)] none none).2.1 _ fun iv => by
    simp only [List.mem_cons, List.not_mem_nil, or_false]
    tauto

theorem isFreeForAttendee_iff {duration : Int} {busyIntervals : List Interval} :
    isFreeForAttendee start duration busyIntervals = true ↔
      ∀ iv ∈ busyIntervals, ¬ Overlap (start, start + duration) iv := by
  unfold isFreeForAttendee
  simp only [List.all_eq_true, Bool.not_eq_true', ← Bool.not_eq_true, intervalsOverlap_iff]

theorem isFreeForAll_iff {duration : Int} {busyByAttendee : BusyMap} :
    isFreeForAll start duration busyByAttendee = true ↔
      ∀ iv ∈ busyByAttendee.values.flatten, ¬ Overlap (start, start + duration) iv := by
  unfold isFreeForAll
  simp only [List.all_eq_true, isFreeForAttendee_iff, List.mem_flatten]
  constructor
  · rintro h iv ⟨intervals, hmem, hiv⟩
    exact h intervals hmem iv hiv
  · exact fun h intervals hmem iv hiv => h iv ⟨intervals, hmem, hiv⟩

/-- A busy run of the merged string starts before the cell that is read next, and before the end
of the range. -/
private theorem mergedCells_proper (hstep : 0 < step) (cells : List Char) :
    ∀ (slotStart : Int) (busyStart : Option Int), (∀ b ∈ busyStart, b < slotStart ∧ b < localEnd) →
      ∀ iv ∈ mergedCells localEnd step cells slotStart busyStart, iv.1 < iv.2 := by
  have hclose : ∀ (slotStart : Int) (busyStart : Option Int),
      (∀ b ∈ busyStart, b < slotStart ∧ b < localEnd) →
      ∀ iv ∈ busyStart.toList.map fun b => (b, min slotStart localEnd), iv.1 < iv.2 := by
    intro slotStart busyStart hb iv hiv
    obtain ⟨b, hmem, rfl⟩ := List.mem_map.mp hiv
    have hlt := hb b (Option.mem_toList.mp hmem)
    exact lt_min hlt.1 hlt.2
  induction cells with
  | nil => exact hclose
  | cons char rest ih =>
    intro slotStart busyStart hb iv hiv
    unfold mergedCells at hiv
    split at hiv
    · exact hclose slotStart busyStart hb iv hiv
    · next hin =>
      split at hiv
      · refine ih _ _ ?_ iv hiv
        rintro b ⟨⟩
        cases busyStart with
        | none => exact ⟨by show slotStart < _; omega, not_le.mp hin⟩
        | some b =>
          have := hb b rfl
          exact ⟨by show b < _; omega, this.2⟩
      · rcases List.mem_append.mp hiv with hiv | hiv
        · obtain ⟨b, hmem, rfl⟩ := List.mem_map.mp hiv
          exact (hb b (Option.mem_toList.mp hmem)).1
        · exact ih _ _ (by simp) iv hiv

theorem busyIntervalsFromMergedString_proper (merged : String) (rangeStart rangeEnd : Int) :
    ∀ iv ∈ busyIntervalsFromMergedString merged rangeStart rangeEnd, iv.1 < iv.2 :=
  mergedCells_proper (by decide) merged.toList _ none (by simp)

/-! ## The merged string -/

/-- The instant lies in a cell of the grid from `start` on whose character is not free. -/
def InBusyCell (step start : Int) (cells : List Char) (t : Int) : Prop :=
  ∃ i : Nat, ∃ char ∈ cells[i]?, char ∉ mergedFreeChars ∧
    start + i * step ≤ t ∧ t < start + (i + 1) * step

theorem not_inBusyCell_nil (step start t : Int) : ¬ InBusyCell step start [] t := by
  rintro ⟨i, char, hchar, -⟩
  cases hchar

/-- The first cell, or one of the grid that starts behind it. -/
theorem inBusyCell_cons {char : Char} {rest : List Char} : InBusyCell step start (char :: rest) t ↔
      (char ∉ mergedFreeChars ∧ start ≤ t ∧ t < start + step) ∨
        InBusyCell step (start + step) rest t := by
  constructor
  · rintro ⟨i, found, hfound, hbusy, hlow, hhigh⟩
    cases i with
    | zero =>
      cases hfound
      refine .inl ⟨hbusy, ?_, ?_⟩
      · simpa using hlow
      · simpa using hhigh
    | succ i =>
      refine .inr ⟨i, found, hfound, hbusy, ?_, ?_⟩
      · push_cast at hlow
        linarith
      · push_cast at hhigh
        linarith
  · rintro (⟨hbusy, hlow, hhigh⟩ | ⟨i, found, hfound, hbusy, hlow, hhigh⟩)
    · refine ⟨0, char, rfl, hbusy, ?_, ?_⟩
      · simpa using hlow
      · simpa using hhigh
    · refine ⟨i + 1, found, hfound, hbusy, ?_, ?_⟩
      · push_cast
        linarith
      · push_cast
        linarith

theorem InBusyCell.start_le (hstep : 0 < step) {cells : List Char}
    (h : InBusyCell step start cells t) : start ≤ t := by
  obtain ⟨i, char, -, -, hlow, -⟩ := h
  have hpos : 0 ≤ (i : Int) * step := Int.mul_nonneg (Int.natCast_nonneg i) hstep.le
  omega

/-- The interval of an open run, closed at the end of the loop. -/
theorem covers_close {slotStart : Int} {busyStart : Option Int} (ht : t < localEnd) :
    Covers (busyStart.toList.map fun b => (b, min slotStart localEnd)) t ↔
      ∃ b ∈ busyStart, b ≤ t ∧ t < slotStart := by
  cases busyStart with
  | none => simp [Covers]
  | some b => simp [Covers, Holds, ht]

/-- Before the end of the range the loop covers its open run and the busy cells to come. -/
theorem covers_mergedCells (hstep : 0 < step) (ht : t < localEnd)
    (cells : List Char) {slotStart : Int} {busyStart : Option Int}
    (hrun : ∀ b ∈ busyStart, b ≤ slotStart) :
    Covers (mergedCells localEnd step cells slotStart busyStart) t ↔
      (∃ b ∈ busyStart, b ≤ t ∧ t < slotStart) ∨ InBusyCell step slotStart cells t := by
  induction cells generalizing slotStart busyStart with
  | nil =>
    rw [mergedCells, covers_close ht, or_iff_left (not_inBusyCell_nil step slotStart t)]
  | cons char rest ih =>
    unfold mergedCells
    by_cases hend : slotStart ≥ localEnd
    · rw [if_pos hend, covers_close ht, or_iff_left]
      intro hcell
      have := hcell.start_le hstep
      omega
    · rw [if_neg hend, inBusyCell_cons]
      by_cases hbusy : char ∉ mergedFreeChars
      · rw [if_pos hbusy, ih fun b hb => ?_]
        · rw [← or_assoc]
          refine or_congr_left ?_
          cases busyStart with
          | none => simp [hbusy]
          | some b =>
            have := hrun b rfl
            simp only [Option.getD_some, Option.mem_def, Option.some.injEq, exists_eq_left', hbusy,
              not_false_eq_true, true_and]
            omega
        · cases hb
          cases busyStart with
          | none => simp only [Option.getD_none]; omega
          | some b =>
            have := hrun b rfl
            simp only [Option.getD_some]
            omega
      · rw [if_neg hbusy, Span.covers_append, ih fun b hb => (by cases hb)]
        have hclosed : Covers (busyStart.toList.map fun b => (b, slotStart)) t ↔
            ∃ b ∈ busyStart, b ≤ t ∧ t < slotStart := by
          cases busyStart with
          | none => simp [Covers]
          | some b => simp [Covers, Holds]
        rw [hclosed]
        simp [hbusy]

/-- The intervals start with the open run at the earliest, and stop in the range. -/
theorem mergedCells_inside (hstep : 0 < step) (cells : List Char)
    {slotStart : Int} {busyStart : Option Int} (hrun : ∀ b ∈ busyStart, b ≤ slotStart) :
    ∀ iv ∈ mergedCells localEnd step cells slotStart busyStart,
      busyStart.getD slotStart ≤ iv.1 ∧ iv.2 ≤ localEnd := by
  have hclose : ∀ (slotStart : Int) (busyStart : Option Int),
      ∀ iv ∈ busyStart.toList.map fun b => (b, min slotStart localEnd),
        busyStart.getD slotStart ≤ iv.1 ∧ iv.2 ≤ localEnd := by
    intro slotStart busyStart iv hiv
    obtain ⟨b, hb, rfl⟩ := List.mem_map.mp hiv
    rw [Option.mem_toList] at hb
    rw [hb]
    exact ⟨le_refl _, min_le_right _ _⟩
  induction cells generalizing slotStart busyStart with
  | nil => exact hclose slotStart busyStart
  | cons char rest ih =>
    unfold mergedCells
    by_cases hend : slotStart ≥ localEnd
    · rw [if_pos hend]
      exact hclose slotStart busyStart
    · rw [if_neg hend]
      have hstart : busyStart.getD slotStart ≤ slotStart := by
        cases busyStart with
        | none => exact le_refl _
        | some b => exact hrun b rfl
      by_cases hbusy : char ∉ mergedFreeChars
      · rw [if_pos hbusy]
        refine ih fun b hb => ?_
        cases hb
        omega
      · rw [if_neg hbusy]
        intro iv hiv
        rcases List.mem_append.mp hiv with hiv | hiv
        · obtain ⟨b, hb, rfl⟩ := List.mem_map.mp hiv
          rw [Option.mem_toList] at hb
          rw [hb]
          exact ⟨le_refl _, by dsimp only; omega⟩
        · have hin := ih (fun b hb => (by cases hb)) iv hiv
          rw [Option.getD_none] at hin
          exact ⟨by omega, hin.2⟩

/-- Between two intervals lies a free cell. -/
theorem mergedCells_separated (hstep : 0 < step) (cells : List Char)
    (slotStart : Int) (busyStart : Option Int) :
    (mergedCells localEnd step cells slotStart busyStart).Pairwise fun a b => a.2 < b.1 := by
  have hclose : ∀ (f : Int → Interval) (busyStart : Option Int),
      (busyStart.toList.map f).Pairwise fun a b => a.2 < b.1 := by
    intro f busyStart
    cases busyStart with
    | none => exact List.Pairwise.nil
    | some b => exact List.pairwise_singleton _ _
  induction cells generalizing slotStart busyStart with
  | nil => exact hclose _ busyStart
  | cons char rest ih =>
    unfold mergedCells
    split
    · exact hclose _ busyStart
    · split
      · exact ih _ _
      · refine List.pairwise_append.mpr ⟨hclose _ busyStart, ih _ _, fun a ha b hb => ?_⟩
        obtain ⟨start, -, rfl⟩ := List.mem_map.mp ha
        have hin := (mergedCells_inside hstep rest (fun _ hnone => (by cases hnone)) b hb).1
        rw [Option.getD_none] at hin
        dsimp only
        omega

/-- **The intervals decode the string exactly**: they are sorted, disjoint, not empty and in the
range, and cover the instants of its busy cells there. -/
structure Decodes (merged : String) (rangeStart rangeEnd : Int) (intervals : List Interval) :
    Prop where
  covers : ∀ t, rangeStart ≤ t → t < rangeEnd → (Covers intervals t ↔
    InBusyCell (freeBusyMergedIntervalMinutes * minute) rangeStart merged.toList t)
  normal : Span.Normal intervals
  inside : ∀ iv ∈ intervals, rangeStart ≤ iv.1 ∧ iv.2 ≤ rangeEnd

/-- In a range of whole minutes the string is decoded exactly. -/
theorem busyIntervalsFromMergedString_decodes (merged : String) {rangeStart rangeEnd : Int}
    (hstart : MinuteAligned rangeStart) (hend : MinuteAligned rangeEnd) :
    Decodes merged rangeStart rangeEnd
      (busyIntervalsFromMergedString merged rangeStart rangeEnd) := by
  have hstep : 0 < freeBusyMergedIntervalMinutes * minute := by decide
  have hnone : ∀ b ∈ (none : Option Int), b ≤ rangeStart := fun b hb => by cases hb
  refine ⟨fun t _ ht => ?_, ⟨busyIntervalsFromMergedString_proper merged rangeStart rangeEnd, ?_⟩,
    fun iv hiv => ?_⟩
  · unfold busyIntervalsFromMergedString
    rw [hstart.dropSeconds_eq, hend.dropSeconds_eq,
      covers_mergedCells hstep ht merged.toList hnone]
    simp
  · exact mergedCells_separated hstep _ _ _
  · unfold busyIntervalsFromMergedString at hiv
    rw [hstart.dropSeconds_eq, hend.dropSeconds_eq] at hiv
    exact mergedCells_inside hstep _ hnone iv hiv

/-- Free, busy and out of the office from 08:00 on, asked until 09:10. -/
theorem busyIntervalsFromMergedString_decodes_morning :
    Decodes "023" (8 * hour) (9 * hour + 10 * minute)
      (busyIntervalsFromMergedString "023" (8 * hour) (9 * hour + 10 * minute)) :=
  busyIntervalsFromMergedString_decodes "023" (by decide) (by decide)

end AgentBack.Outlook
