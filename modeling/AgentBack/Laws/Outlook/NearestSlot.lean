import AgentBack.Laws.Outlook.Restart
import AgentBack.Outlook.Search
import Mathlib.Data.Int.LeastGreatest

/-!
# When `find_nearest_slot` finds the nearest slot

With verification on, `find_nearest_slot` tries the first open slot, and when the calendar refuses
it the whole slot is blocked before the next scan. A slot that starts inside a refused one is lost
that way, although the event behind the refusal may not touch it.

`Query` is one such search with its verifier, `Reached` says which busy blocks the loop gets to, and
`KeepsFirstValid` is the condition under which no refusal hides the first valid slot. The search is
right exactly then (`findNearestSlot_right_iff`). When the meeting is no longer than the step and
the busy data are whole minutes, nothing is ever hidden (`keepsFirstValid_of_short`).
-/

namespace AgentBack.Outlook

open AgentBack.Span (Covers Holds Overlap Apart)

/-- Inside the clipping range, a meeting that is clear of the coalesced blocks is clear of the
intervals they were made of. -/
theorem clear_of_clear_coalesced {intervals : List Interval} {duration lo hi t : Int}
    (hproper : ∀ iv ∈ intervals, iv.1 < iv.2) (hdur : 0 < duration) (hhi : MinuteAligned hi)
    (hlo : lo ≤ t) (hends : t + duration ≤ hi)
    (h : Clear duration (coalesceIntervals intervals (some lo) (some hi)) t) :
    Clear duration intervals t := by
  intro iv hiv
  have hiv' := hproper iv hiv
  by_cases hin : min iv.2 hi ≤ max iv.1 lo
  · -- the interval lies outside the range
    by_cases hbefore : iv.2 ≤ lo
    · exact .inr (le_trans (dropSeconds_le _) (le_trans hbefore hlo))
    · exact .inl (by omega)
  · have hclip : clipInterval (some lo) (some hi) iv = some (max iv.1 lo, min iv.2 hi) := by
      rw [clipInterval, if_neg (not_le.mpr hiv')]
      exact if_neg hin
    have hmem : (max iv.1 lo, min iv.2 hi) ∈ intervals.filterMap (clipInterval (some lo) (some hi)) :=
      List.mem_filterMap.mpr ⟨iv, hiv, hclip⟩
    have hall : ∀ b ∈ intervals.filterMap (clipInterval (some lo) (some hi)), b.1 < b.2 := by
      intro b hb
      obtain ⟨raw, _, hraw⟩ := List.mem_filterMap.mp hb
      exact (clipInterval_eq_some hraw).1
    obtain ⟨block, hblock, hstart, hend⟩ := Span.inside_coalesce hall hmem
    have hstart : block.1 ≤ max iv.1 lo := hstart
    have hend : min iv.2 hi ≤ block.2 := hend
    rcases h block hblock with hclear | hclear
    · exact .inl (by omega)
    · have hdrop := le_trans (dropSeconds_mono hend) hclear
      rcases min_choice iv.2 hi with hmin | hmin
      · rw [hmin] at hdrop
        exact .inr hdrop
      · rw [hmin, hhi.dropSeconds_eq] at hdrop
        omega

/-! ## A search and its verifier -/

/-- A search with verification on: its window, the united busy blocks, and the events behind the
refusals of the calendar. -/
structure Query where
  earliestAllowed : Int
  searchEnd : Int
  duration : Int
  step : Int
  unionBusy : List Interval
  extra : List Interval

namespace Query

/-- What the callers and the code guarantee of a search. -/
structure WellFormed (q : Query) : Prop where
  step : GridStep q.step
  positive : 0 < q.duration
  fits : q.duration ≤ workDay
  earliest : MinuteAligned q.earliestAllowed
  last : MinuteAligned q.searchEnd
  normal : Span.Normal q.unionBusy

variable (q : Query)

/-- The calendar accepts a slot when no extra event overlaps it. -/
def Accepts (t : Int) : Prop := ∀ event ∈ q.extra, ¬ Overlap (t, t + q.duration) event

instance (t : Int) : Decidable (q.Accepts t) := inferInstanceAs (Decidable (∀ _ ∈ _, _))

/-- The slots that the gap scan finds between given blocks. -/
def OpenIn (blocks : List Interval) (t : Int) : Prop :=
  Open q.step q.duration q.searchEnd blocks q.earliestAllowed t

/-- The slots that the search is to find: on the grid, within the rules, free of the united busy
blocks and accepted by the calendar. -/
def Valid (t : Int) : Prop :=
  Bookable q.step q.duration q.earliestAllowed q.searchEnd q.unionBusy t ∧ q.Accepts t

/-- The blocks after a refusal of `t`. -/
def block (blocks : List Interval) (t : Int) : List Interval :=
  blockSlot q.earliestAllowed q.searchEnd q.duration blocks t

/-- The blocks that the loop gets to, and after how many refusals. -/
inductive Reached : Nat → List Interval → Prop where
  | start : Reached 0 q.unionBusy
  | refused {k : Nat} {blocks : List Interval} {t : Int} (reached : Reached k blocks)
      (first : IsLeast {t | q.OpenIn blocks t} t) (refusal : ¬ q.Accepts t) :
      Reached (k + 1) (q.block blocks t)

/-- The number of refusals after which the search gives up. -/
def attempts : Int := maxCalendarVerifications q.earliestAllowed q.searchEnd q.step

/-- Along the run: an accepted slot is free of the busy blocks, and a refused one leaves the first
valid slot open and is not the last that the search may try. -/
def KeepsFirstValid : Prop :=
  ∀ k blocks t, q.Reached k blocks → IsLeast {t | q.OpenIn blocks t} t → (k : Int) < q.attempts →
    (q.Accepts t → ∀ iv ∈ q.unionBusy, Apart (t, t + q.duration) iv) ∧
    (¬ q.Accepts t → ∀ v, IsLeast {v | q.Valid v} v →
      (k + 1 : Int) < q.attempts ∧ q.OpenIn (q.block blocks t) v)

variable {q}

theorem Reached.normal (hq : q.WellFormed) {k : Nat} {blocks : List Interval}
    (h : q.Reached k blocks) : Span.Normal blocks := by
  cases h with
  | start => exact hq.normal
  | refused _ _ _ => exact coalesceIntervals_normal _ _ _

theorem OpenIn.of_block (hq : q.WellFormed) {blocks : List Interval} {t x : Int}
    (hproper : ∀ iv ∈ blocks, iv.1 < iv.2) (h : q.OpenIn (q.block blocks t) x) :
    q.OpenIn blocks x := by
  have hall : ∀ iv ∈ blocks ++ [(t, t + q.duration)], iv.1 < iv.2 := by
    intro iv hiv
    rcases List.mem_append.mp hiv with hiv | hiv
    · exact hproper iv hiv
    · obtain rfl := List.mem_singleton.mp hiv
      have := hq.positive
      show t < t + q.duration
      omega
  have hclear := clear_of_clear_coalesced hall hq.positive hq.last h.slot.starts h.slot.ends h.clear
  exact ⟨h.grid, h.slot, fun iv hiv => hclear iv (List.mem_append_left _ hiv)⟩

/-- A valid slot is open between the united busy blocks. -/
theorem Valid.openIn (hq : q.WellFormed) {v : Int} (h : q.Valid v) : q.OpenIn q.unionBusy v := by
  refine ⟨h.1.grid, h.1.slot, fun iv hiv => ?_⟩
  rcases (apart_iff hq.positive (hq.normal.proper iv hiv)).mp (h.1.free iv hiv) with hb | hb
  · exact .inl hb
  · exact .inr (le_trans (dropSeconds_le _) hb)

/-- When there are valid slots, there is a first one. -/
theorem exists_first_valid {v : Int} (h : q.Valid v) : ∃ w, IsLeast {v | q.Valid v} w := by
  have hbdd : ∃ b, ∀ z, q.Valid z → b ≤ z := ⟨q.earliestAllowed, fun z hz => hz.1.slot.starts⟩
  obtain ⟨w, hw, hleast⟩ := Int.exists_least_of_bdd hbdd ⟨v, h⟩
  exact ⟨w, hw, fun z hz => hleast z hz⟩

/-! ## The loop -/

/-- The calendar check refuses exactly the slots that overlap an extra event. -/
def Verifies (q : Query) (exchange : Exchange) (attendees : List String) : Prop :=
  ∀ slot, ∃ busy, verifySlotWithCalendar exchange attendees slot q.duration =
    .ok (decide (q.Accepts slot), busy)

/-- A pass of the loop of `find_nearest_slot` with verification on. -/
def pass (q : Query) (exchange : Exchange) (attendees : List String) (fuel : Nat)
    (s : NearestState) : Option (Pass NearestState (Except String (Option (Int × Int)))) :=
  nearestPass fuel exchange attendees q.earliestAllowed q.searchEnd q.duration q.step true
    .freebusy s

/-- What a pass does: there is no open slot, or the first one is accepted, or it is refused and the
search gives up, or it is refused and blocked. -/
inductive PassCase (q : Query) (s : NearestState) :
    Pass NearestState (Except String (Option (Int × Int))) → Prop where
  | exhausted (none_open : ∀ t, ¬ q.OpenIn s.unionBusySearch t) : PassCase q s (.ret (.ok none))
  | accepted {t checked : Int} (first : IsLeast {t | q.OpenIn s.unionBusySearch t} t)
      (accepts : q.Accepts t) : PassCase q s (.ret (.ok (some (t, checked))))
  | givenUp {t : Int} (first : IsLeast {t | q.OpenIn s.unionBusySearch t} t)
      (refusal : ¬ q.Accepts t) (last : q.attempts ≤ s.verificationAttempts + 1) :
      PassCase q s (.ret (.ok none))
  | refused {t checked : Int} (first : IsLeast {t | q.OpenIn s.unionBusySearch t} t)
      (refusal : ¬ q.Accepts t) (more : s.verificationAttempts + 1 < q.attempts) :
      PassCase q s (.again ⟨q.block s.unionBusySearch t, checked, s.verificationAttempts + 1⟩)

section Loop

variable {exchange : Exchange} {attendees : List String}

theorem pass_steady (s : NearestState) :
    Steady fun fuel => q.pass exchange attendees fuel s :=
  (findSlotViaBusyGaps_steady _ _ _ _ _).map _

theorem pass_settles (hq : q.WellFormed) (hv : q.Verifies exchange attendees) (s : NearestState)
    (hnormal : Span.Normal s.unionBusySearch) :
    ∃ p, Settles (fun fuel => q.pass exchange attendees fuel s) p ∧ PassCase q s p := by
  obtain ⟨⟨slot, stepChecked⟩, hset, hfinds⟩ := findSlotViaBusyGaps_finds hq.step hq.positive
    hq.fits hnormal hq.earliest q.searchEnd
  have hpass := hset.map (judgeSlot exchange attendees q.earliestAllowed q.searchEnd q.duration
    q.step true .freebusy s)
  cases slot with
  | none => exact ⟨_, hpass, .exhausted hfinds⟩
  | some t =>
    have hstart : ¬ t < q.earliestAllowed := not_lt.mpr hfinds.1.slot.starts
    obtain ⟨busy, hbusy⟩ := hv t
    refine ⟨_, hpass, ?_⟩
    simp only [judgeSlot, if_neg hstart, not_true_eq_false, reduceCtorEq, or_self, if_false, hbusy]
    by_cases hacc : q.Accepts t
    · rw [decide_eq_true hacc]
      exact .accepted hfinds hacc
    · rw [decide_eq_false hacc]
      simp only [rejectSlot]
      split
      · next hlast => exact .givenUp hfinds hacc hlast
      · next hmore => exact .refused hfinds hacc (not_le.mp hmore)

/-- How the loop leaves: with an accepted slot that was open from the beginning, or without a slot,
after the last open or the last allowed one. -/
def Leaves (q : Query) (start : List Interval) : Except String (Option (Int × Int)) → Prop
  | .ok (some (t, _)) => ∃ k blocks, q.Reached k blocks ∧ (k : Int) < q.attempts ∧
      IsLeast {t | q.OpenIn blocks t} t ∧ q.Accepts t ∧ q.OpenIn start t
  | .ok none => ∃ k blocks, q.Reached k blocks ∧ (k : Int) < q.attempts ∧
      ((∀ t, ¬ q.OpenIn blocks t) ∨
        ∃ t, IsLeast {t | q.OpenIn blocks t} t ∧ ¬ q.Accepts t ∧ q.attempts ≤ k + 1)
  | .error _ => False

variable {k : Nat} {blocks : List Interval}

/-- The loop leaves, from every state that it reaches. -/
theorem run_settles (hq : q.WellFormed) (hv : q.Verifies exchange attendees) (hreached : q.Reached k blocks) (hk : (k : Int) < q.attempts)
    (checked : Int) :
    ∃ r, Settles (fun fuel => Pass.run (q.pass exchange attendees fuel) fuel ⟨blocks, checked, k⟩) r ∧
      q.Leaves blocks r := by
  refine Pass.run_settles
    (fun s : NearestState => ∃ k' : Nat, s.verificationAttempts = k' ∧ (k' : Int) < q.attempts ∧
      q.Reached k' s.unionBusySearch ∧ ∀ x, q.OpenIn s.unionBusySearch x → q.OpenIn blocks x)
    (q.Leaves blocks) (fun s => (q.attempts - s.verificationAttempts).toNat) (fun s hs => ?_)
    ⟨blocks, checked, k⟩ ⟨k, rfl, hk, hreached, fun _ hx => hx⟩
  obtain ⟨k', hattempts, hk', hreached', hopen⟩ := hs
  obtain ⟨p, hset, hcase⟩ := pass_settles hq hv s (hreached'.normal hq)
  refine ⟨p, hset, ?_⟩
  cases hcase with
  | exhausted none_open => exact ⟨k', _, hreached', hk', .inl none_open⟩
  | accepted first accepts => exact ⟨k', _, hreached', hk', first, accepts, hopen _ first.1⟩
  | givenUp first refusal last =>
    exact ⟨k', _, hreached', hk', .inr ⟨_, first, refusal, hattempts ▸ last⟩⟩
  | refused first refusal more =>
    rw [hattempts] at more
    refine ⟨⟨k' + 1, by simp [hattempts], by push_cast; exact more,
      hreached'.refused first refusal, fun x hx => hopen x ?_⟩, ?_⟩
    · exact hx.of_block hq (hreached'.normal hq).proper
    · show (q.attempts - (s.verificationAttempts + 1)).toNat <
        (q.attempts - s.verificationAttempts).toNat
      omega

/-- The loop gets to every blocks that it reaches within its attempts: what it answers from there
is its answer. -/
theorem Reached.continues (hq : q.WellFormed) (hv : q.Verifies exchange attendees) (h : q.Reached k blocks) (hk : (k : Int) < q.attempts) :
    ∃ checked, ∀ r,
      Settles (fun fuel => Pass.run (q.pass exchange attendees fuel) fuel ⟨blocks, checked, k⟩) r →
      Settles (fun fuel =>
        Pass.run (q.pass exchange attendees fuel) fuel ⟨q.unionBusy, 0, 0⟩) r := by
  induction h with
  | start => exact ⟨0, fun _ hr => hr⟩
  | @refused k blocks t reached first refusal ih =>
    have hk' : (k : Int) + 1 < q.attempts := by exact_mod_cast hk
    obtain ⟨checked, ih⟩ := ih (by omega)
    obtain ⟨p, hset, hcase⟩ := pass_settles hq hv ⟨blocks, checked, k⟩ (reached.normal hq)
    cases hcase with
    | exhausted none_open => exact absurd first.1 (none_open t)
    | accepted first' accepts => exact absurd (first.unique first' ▸ accepts) refusal
    | givenUp first' _ last => exact absurd last (not_le.mpr hk')
    | @refused t' checked' first' _ _ =>
      obtain rfl := first.unique first'
      refine ⟨checked', fun r hr => ih r (Pass.settles_again pass_steady hset ?_)⟩
      exact_mod_cast hr

/-- The first valid slot is open between all blocks that are reached while refusals keep it. -/
theorem Reached.openIn_first (hq : q.WellFormed) (hkeeps : q.KeepsFirstValid) {v : Int}
    (hvalid : IsLeast {v | q.Valid v} v)
    (h : q.Reached k blocks) (hk : (k : Int) < q.attempts) : q.OpenIn blocks v := by
  cases h with
  | start => exact hvalid.1.openIn hq
  | @refused k blocks t reached first refusal =>
    have hk' : (k : Int) < q.attempts := by
      push_cast at hk
      omega
    exact ((hkeeps k blocks t reached first hk').2 refusal v hvalid).2

/-- The answer of the loop is right: the first valid slot, or none when no slot is valid. -/
def RightAnswer (q : Query) : Except String (Option (Int × Int)) → Prop
  | .ok (some (t, _)) => IsLeast {v | q.Valid v} t
  | .ok none => ∀ v, ¬ q.Valid v
  | .error _ => False

theorem attempts_pos (q : Query) : 0 < q.attempts :=
  lt_of_lt_of_le (by decide) (le_max_left _ _)

variable (hq : q.WellFormed)
include hq

/-- What the loop answers from the blocks that it reaches is right when its own answer is. -/
private theorem Reached.right (hv : q.Verifies exchange attendees) (hreached : q.Reached k blocks)
    (hk : (k : Int) < q.attempts) {r : Except String (Option (Int × Int))}
    (hset : Settles (fun fuel => Pass.run (q.pass exchange attendees fuel) fuel
      ⟨q.unionBusy, 0, 0⟩) r) (hright : q.RightAnswer r) :
    ∃ checked, ∀ found, Settles (fun fuel =>
      Pass.run (q.pass exchange attendees fuel) fuel ⟨blocks, checked, k⟩) found →
      q.RightAnswer found := by
  obtain ⟨checked, hcontinues⟩ := hreached.continues hq hv hk
  exact ⟨checked, fun found hfound => hset.unique (hcontinues found hfound) ▸ hright⟩

/-- A loop that answers right hides no valid slot. -/
theorem keepsFirstValid_of_right (hv : q.Verifies exchange attendees)
    {r : Except String (Option (Int × Int))}
    (hset : Settles (fun fuel => Pass.run (q.pass exchange attendees fuel) fuel
      ⟨q.unionBusy, 0, 0⟩) r) (hright : q.RightAnswer r) : q.KeepsFirstValid := by
  intro k blocks t hreached hfirst hk
  obtain ⟨checked, hanswers⟩ := hreached.right hq hv hk hset hright
  obtain ⟨p, hpass, hcase⟩ := pass_settles hq hv ⟨blocks, checked, k⟩ (hreached.normal hq)
  refine ⟨fun hacc => ?_, fun href v hvalid => ?_⟩
  · cases hcase with
    | exhausted none_open => exact absurd hfirst.1 (none_open t)
    | accepted first _ =>
      obtain rfl := hfirst.unique first
      exact (hanswers _ (Pass.settles_ret hpass)).1.1.free
    | givenUp first refusal _ | refused first refusal _ =>
      exact absurd (hfirst.unique first ▸ hacc) refusal
  · cases hcase with
    | exhausted none_open => exact absurd hfirst.1 (none_open t)
    | accepted first accepts => exact absurd (hfirst.unique first ▸ accepts) href
    | givenUp _ _ _ => exact absurd hvalid.1 (hanswers _ (Pass.settles_ret hpass) v)
    | @refused t' checked' first _ more =>
      obtain rfl := hfirst.unique first
      refine ⟨more, ?_⟩
      -- what the loop answers after the refusal was open right after it
      obtain ⟨r₁, hset₁, hleaves⟩ := run_settles hq hv (hreached.refused hfirst href)
        (by push_cast; exact more) checked'
      have hright₁ := hanswers r₁ (Pass.settles_again pass_steady hpass (by exact_mod_cast hset₁))
      match r₁, hright₁, hleaves with
      | .ok (some (t', _)), hright₁, ⟨_, _, _, _, _, _, hopen⟩ =>
        exact hvalid.unique hright₁ ▸ hopen
      | .ok none, hright₁, _ => exact absurd hvalid.1 (hright₁ v)

/-- When no refusal hides the first valid slot, the way the loop leaves is right. -/
theorem Leaves.right (hkeeps : q.KeepsFirstValid) {r : Except String (Option (Int × Int))}
    (h : q.Leaves q.unionBusy r) : q.RightAnswer r := by
  match r, h with
  | .ok (some (t, _)), ⟨k, blocks, hreached, hk, hfirst, hacc, _⟩ =>
    have hfree := (hkeeps k blocks t hreached hfirst hk).1 hacc
    have hvalid : q.Valid t := ⟨⟨hfirst.1.grid, hfirst.1.slot, hfree⟩, hacc⟩
    obtain ⟨w, hw⟩ := exists_first_valid hvalid
    have hle := hfirst.2 (hreached.openIn_first hq hkeeps hw hk)
    obtain rfl : t = w := le_antisymm hle (hw.2 hvalid)
    exact hw
  | .ok none, ⟨k, blocks, hreached, hk, hend⟩ =>
    intro v hvalid
    obtain ⟨w, hw⟩ := exists_first_valid hvalid
    rcases hend with hnone | ⟨t, hfirst, href, hlast⟩
    · exact hnone w (hreached.openIn_first hq hkeeps hw hk)
    · have hmore := ((hkeeps k blocks t hreached hfirst hk).2 href w hw).1
      omega

/-- The loop answers right exactly when no refusal hides the first valid slot. -/
theorem loop_right_iff (hv : q.Verifies exchange attendees) :
    (∃ r, Settles (fun fuel => Pass.run (q.pass exchange attendees fuel) fuel ⟨q.unionBusy, 0, 0⟩) r ∧
      q.RightAnswer r) ↔ q.KeepsFirstValid := by
  constructor
  · rintro ⟨r, hset, hright⟩
    exact keepsFirstValid_of_right hq hv hset hright
  · intro hkeeps
    obtain ⟨r, hset, hleaves⟩ := run_settles hq hv .start q.attempts_pos 0
    exact ⟨r, hset, hleaves.right hq hkeeps⟩

end Loop

/-! ## Short meetings -/

/-- Whole minutes throughout, and a meeting that is no longer than the step. -/
structure Short (q : Query) : Prop where
  duration : MinuteAligned q.duration
  short : q.duration ≤ q.step
  busy : ∀ iv ∈ q.unionBusy, MinuteAligned iv.1 ∧ MinuteAligned iv.2

/-- Coalescing and clipping keep to whole minutes. -/
private theorem aligned_coalesceIntervals {intervals : List Interval} {lo hi : Int}
    (hall : ∀ iv ∈ intervals, MinuteAligned iv.1 ∧ MinuteAligned iv.2) (hlo : MinuteAligned lo)
    (hhi : MinuteAligned hi) :
    ∀ b ∈ coalesceIntervals intervals (some lo) (some hi),
      MinuteAligned b.1 ∧ MinuteAligned b.2 := by
  have hclipped : ∀ iv ∈ intervals.filterMap (clipInterval (some lo) (some hi)),
      MinuteAligned iv.1 ∧ MinuteAligned iv.2 := by
    intro iv hiv
    obtain ⟨raw, hraw, hclip⟩ := List.mem_filterMap.mp hiv
    unfold clipInterval at hclip
    split at hclip
    · cases hclip
    · simp only at hclip
      split at hclip
      · cases hclip
      · cases hclip
        obtain ⟨h₁, h₂⟩ := hall raw hraw
        simp only [Option.elim_some]
        constructor
        · rcases max_choice raw.1 lo with h | h <;> rw [h] <;> assumption
        · rcases min_choice raw.2 hi with h | h <;> rw [h] <;> assumption
  intro b hb
  obtain ⟨⟨s, hs, hsb⟩, e, he, heb⟩ := Span.ends_coalesce hb
  exact ⟨hsb ▸ (hclipped s hs).1, heb ▸ (hclipped e he).2⟩

variable {k : Nat} {blocks : List Interval}

theorem Reached.aligned (hq : q.WellFormed) (hshort : q.Short)
    (h : q.Reached k blocks) : ∀ b ∈ blocks, MinuteAligned b.1 ∧ MinuteAligned b.2 := by
  induction h with
  | start => exact hshort.busy
  | @refused k blocks t _ first _ ih =>
    refine aligned_coalesceIntervals (fun iv hiv => ?_) hq.earliest hq.last
    rcases List.mem_append.mp hiv with hiv | hiv
    · exact ih iv hiv
    · obtain rfl := List.mem_singleton.mp hiv
      exact ⟨first.1.grid.aligned, Int.dvd_add first.1.grid.aligned hshort.duration⟩

/-- On whole minutes, clear of blocks means apart from them. -/
private theorem clear_iff_apart (hq : q.WellFormed) (hproper : ∀ b ∈ blocks, b.1 < b.2)
    (haligned : ∀ b ∈ blocks, MinuteAligned b.1 ∧ MinuteAligned b.2) (t : Int) :
    Clear q.duration blocks t ↔ ∀ b ∈ blocks, Apart (t, t + q.duration) b := by
  apply forall₂_congr
  intro b hb
  rw [apart_iff hq.positive (hproper b hb), (haligned b hb).2.dropSeconds_eq]

variable (hq : q.WellFormed) (hshort : q.Short)
include hq hshort

/-- After a refusal the slots apart from the refused one stay open. -/
private theorem openIn_block (hreached : q.Reached k blocks) {t v : Int}
    (hfirst : IsLeast {t | q.OpenIn blocks t} t) (href : ¬ q.Accepts t) (hv : q.OpenIn blocks v)
    (hne : v ≠ t) : q.OpenIn (q.block blocks t) v := by
  have hreached' := hreached.refused hfirst href
  have hstep : t + q.step ≤ v :=
    hfirst.1.grid.add_le_of_lt hq.step hv.grid (lt_of_le_of_ne (hfirst.2 hv) (Ne.symm hne))
  have hapart := (clear_iff_apart hq (hreached.normal hq).proper (hreached.aligned hq hshort) v).mp
    hv.clear
  refine ⟨hv.grid, hv.slot, (clear_iff_apart hq (hreached'.normal hq).proper
    (hreached'.aligned hq hshort) v).mpr fun b hb x hx hxb => ?_⟩
  obtain ⟨⟨iv, hiv, hxiv⟩, _⟩ := (covers_coalesceIntervals _ _ _ x).mp ⟨b, hb, hxb⟩
  rcases List.mem_append.mp hiv with hiv | hiv
  · exact hapart iv hiv x hx hxiv
  · obtain rfl := List.mem_singleton.mp hiv
    have h₁ : v ≤ x := hx.1
    have h₂ : x < t + q.duration := hxiv.2
    have := hshort.short
    omega

/-- A refused slot is not tried again. -/
private theorem not_openIn_block (hreached : q.Reached k blocks) {t : Int}
    (hfirst : IsLeast {t | q.OpenIn blocks t} t) (href : ¬ q.Accepts t) :
    ¬ q.OpenIn (q.block blocks t) t := by
  intro h
  have hreached' := hreached.refused hfirst href
  have hpos := hq.positive
  have hends := hfirst.1.slot.ends
  have hcovers : Covers (q.block blocks t) t := by
    refine (covers_coalesceIntervals _ _ _ t).mpr ⟨⟨(t, t + q.duration), by simp, le_refl _, ?_⟩, ?_⟩
    · show t < t + q.duration
      omega
    · refine ⟨fun a ha => ?_, fun b hb => ?_⟩
      · cases ha
        exact hfirst.1.slot.starts
      · cases hb
        omega
  obtain ⟨b, hb, hxb⟩ := hcovers
  refine (clear_iff_apart hq (hreached'.normal hq).proper (hreached'.aligned hq hshort) t).mp
    h.clear b hb t ⟨le_refl _, ?_⟩ hxb
  show t < t + q.duration
  omega

/-- Every refusal moves the open slots a step on. -/
private theorem Reached.step_le (h : q.Reached k blocks) :
    ∀ x, q.OpenIn blocks x → q.earliestAllowed + k * q.step ≤ x := by
  induction h with
  | start =>
    intro x hx
    have := hx.slot.starts
    simpa using this
  | @refused k blocks t reached first refusal ih =>
    intro x hx
    have hx' := hx.of_block hq (reached.normal hq).proper
    have hne : t ≠ x := by
      rintro rfl
      exact not_openIn_block hq hshort reached first refusal hx
    have hstep := first.1.grid.add_le_of_lt hq.step hx'.grid (lt_of_le_of_ne (first.2 hx') hne)
    have hle := ih t first.1
    rw [Nat.cast_succ, Int.add_mul, Int.one_mul]
    omega

/-- When the meeting is no longer than the step and everything is in whole minutes, no refusal
hides a valid slot, and the attempts never run out. -/
theorem keepsFirstValid_of_short : q.KeepsFirstValid := by
  have hopen : ∀ {k blocks}, q.Reached k blocks →
      (∀ v, q.Valid v → q.OpenIn blocks v) ∧ ∀ x, q.OpenIn blocks x → q.OpenIn q.unionBusy x := by
    intro k blocks h
    induction h with
    | start => exact ⟨fun v hv => hv.openIn hq, fun _ hx => hx⟩
    | @refused k blocks t reached first refusal ih =>
      refine ⟨fun v hv => ?_, fun x hx => ih.2 x (hx.of_block hq (reached.normal hq).proper)⟩
      apply openIn_block hq hshort reached first refusal (ih.1 v hv)
      rintro rfl
      exact refusal hv.2
  intro k blocks t hreached hfirst _
  refine ⟨fun _ => ?_, fun href v hvalid => ⟨?_, ?_⟩⟩
  · exact (clear_iff_apart hq hq.normal.proper hshort.busy t).mp ((hopen hreached).2 t hfirst.1).clear
  · have hle := hreached.step_le hq hshort t hfirst.1
    have hends := hfirst.1.slot.ends
    have hpos := hq.positive
    have hk : (k : Int) ≤ (q.searchEnd - q.earliestAllowed) / max q.step minute := by
      rw [max_eq_left hq.step.minute_le]
      exact Int.le_ediv_of_mul_le hq.step.pos (by omega)
    have hcap : (q.searchEnd - q.earliestAllowed) / max q.step minute + 10 ≤ q.attempts :=
      le_max_right _ _
    omega
  · apply openIn_block hq hshort hreached hfirst href ((hopen hreached).1 v hvalid.1)
    rintro rfl
    exact href hvalid.1.2

end Query

/-! ## The search -/

/-- The query of a call of `find_nearest_slot` with this busy data and these extra events. -/
def nearestQuery (now preferred duration maxDays step : Int) (busyByAttendee : BusyMap)
    (extra : List Interval) : Query :=
  let bounds := searchBoundsForPreferred now preferred maxDays
  { earliestAllowed := bounds.earliestAllowed
    searchEnd := bounds.searchEnd
    duration, step
    unionBusy := unionBusyForAll busyByAttendee bounds.earliestAllowed bounds.searchEnd
    extra }

theorem earliestAllowed_aligned (now preferred maxDays : Int) :
    MinuteAligned (searchBoundsForPreferred now preferred maxDays).earliestAllowed := by
  have h₁ := dropSeconds_aligned preferred
  have h₂ := (alignPreferred_least (dropSeconds preferred)).1.1.aligned
  have h₃ := (alignPreferred_least (dropSeconds now)).1.1.aligned
  unfold searchBoundsForPreferred notBeforeNow
  simp only
  rcases max_choice (alignPreferred (dropSeconds preferred)) (alignPreferred (dropSeconds now))
    with h | h <;> rw [h]
  · rcases max_choice (dropSeconds preferred) (alignPreferred (dropSeconds preferred)) with h | h <;>
      rw [h] <;> assumption
  · rcases max_choice (dropSeconds preferred) (alignPreferred (dropSeconds now)) with h | h <;>
      rw [h] <;> assumption

theorem nearestQuery_wellFormed {now preferred duration maxDays step : Int}
    {busyByAttendee : BusyMap} {extra : List Interval} (hstep : GridStep step)
    (hdur : 0 < duration) (hlen : duration ≤ workDay) :
    (nearestQuery now preferred duration maxDays step busyByAttendee extra).WellFormed where
  step := hstep
  positive := hdur
  fits := hlen
  earliest := earliestAllowed_aligned now preferred maxDays
  last := Int.dvd_add (earliestAllowed_aligned now preferred maxDays)
    (Int.dvd_mul_of_dvd_right (by decide))
  normal := coalesceIntervals_normal _ _ _

/-- The search is right: it returns the first valid slot, and it reports that there is no slot only
when no slot is valid. -/
def RightSearch (q : Query) (maxDays : Int) : Except SearchError SlotSearchResult → Prop
  | .ok result => IsLeast {v | q.Valid v} result.slotStart
  | .error fault => fault = .slotNotFound maxDays q.earliestAllowed ∧ ∀ v, ¬ q.Valid v

private theorem rightSearch_iff {q : Query} {bounds : SearchBounds} {duration maxDays : Int}
    {attendees : List String} {source : AvailabilitySource} {busyByAttendee : BusyMap}
    (hbounds : bounds.earliestAllowed = q.earliestAllowed)
    (r : Except String (Option (Int × Int))) :
    RightSearch q maxDays
      (nearestOutcome bounds duration maxDays attendees source busyByAttendee r) ↔
      q.RightAnswer r := by
  match r with
  | .ok (some (t, _)) => exact Iff.rfl
  | .ok none =>
    simp only [nearestOutcome, RightSearch, Query.RightAnswer, hbounds, true_and]
  | .error fault =>
    simp only [nearestOutcome, RightSearch, Query.RightAnswer, reduceCtorEq, false_and]

/-- With verification on, `find_nearest_slot` is right exactly when no refusal hides the first valid
slot. -/
theorem findNearestSlot_right_iff (lower : String → String) (exchange : Exchange)
    (now preferred duration maxDays step maxItems : Int) (attendees : List String)
    (prefetched : Option BusyMap) (busyByAttendee : BusyMap) (extra : List Interval)
    (hattendees : attendees ≠ []) (hdays : 1 ≤ maxDays) (hstep : GridStep step)
    (hdur : 0 < duration) (hlen : duration ≤ workDay)
    (hbusy : busyForWindow lower exchange attendees
      (searchBoundsForPreferred now preferred maxDays).earliestAllowed
      (searchBoundsForPreferred now preferred maxDays).searchEnd .freebusy maxItems prefetched =
        .ok busyByAttendee)
    (hverifies : (nearestQuery now preferred duration maxDays step busyByAttendee extra).Verifies
      exchange attendees) :
    (∃ outcome, Settles (fun fuel => findNearestSlot fuel lower exchange now attendees preferred
        duration maxDays step maxItems .freebusy true prefetched) outcome ∧
      RightSearch (nearestQuery now preferred duration maxDays step busyByAttendee extra) maxDays
        outcome) ↔
    (nearestQuery now preferred duration maxDays step busyByAttendee extra).KeepsFirstValid := by
  have hq : (nearestQuery now preferred duration maxDays step busyByAttendee extra).WellFormed :=
    nearestQuery_wellFormed hstep hdur hlen
  rw [← Query.loop_right_iff hq hverifies]
  have hrun : ∀ fuel, findNearestSlot fuel lower exchange now attendees preferred duration maxDays
      step maxItems .freebusy true prefetched =
      (Pass.run ((nearestQuery now preferred duration maxDays step busyByAttendee extra).pass
        exchange attendees fuel) fuel ⟨(nearestQuery now preferred duration maxDays step
          busyByAttendee extra).unionBusy, 0, 0⟩).map
        (nearestOutcome (searchBoundsForPreferred now preferred maxDays) duration maxDays attendees
          .freebusy busyByAttendee) := by
    intro fuel
    unfold findNearestSlot
    rw [if_neg hattendees, if_neg (not_le.mpr hdur), if_neg (not_lt.mpr hdays)]
    simp only [hbusy]
    rfl
  simp only [hrun]
  obtain ⟨r, hset, _⟩ := Query.run_settles hq hverifies .start (Query.attempts_pos _) 0
  constructor
  · rintro ⟨outcome, hout, hright⟩
    obtain rfl := hout.unique (hset.map _)
    exact ⟨r, hset, (rightSearch_iff rfl r).mp hright⟩
  · rintro ⟨r', hset', hright⟩
    exact ⟨_, hset'.map _, (rightSearch_iff rfl r').mpr hright⟩

theorem findNearestSlot_steady (lower : String → String) (exchange : Exchange)
    (now preferred duration maxDays step maxItems : Int) (attendees : List String)
    (source : AvailabilitySource) (verifyCalendar : Bool) (prefetched : Option BusyMap) :
    Steady fun fuel => findNearestSlot fuel lower exchange now attendees preferred duration maxDays
      step maxItems source verifyCalendar prefetched := by
  unfold findNearestSlot
  refine Steady.ite (Steady.const _) (Steady.ite (Steady.const _) (Steady.ite (Steady.const _) ?_))
  simp only
  cases busyForWindow lower exchange attendees _ _ source maxItems prefetched with
  | error fault => exact Steady.const _
  | ok busyByAttendee =>
    refine (Pass.run_steady _ (fun s => ?_) _).map _
    exact (findSlotViaBusyGaps_steady _ _ _ _ _).map _

/-- A server that knows one event, Monday 10:00 to 10:15, and reports every mailbox free in its
merged string. -/
def quarterHourExchange : Exchange where
  getFreeBusyInfo mailboxes _ _ := .ok (mailboxes.map fun _ =>
    { merged := some "0"
      calendarEvents := some [⟨false, "Busy", 10 * hour, 10 * hour + 15 * minute⟩]
      message := none })
  calendarView _ _ _ _ := .ok []

private theorem quarterHourExchange_verifies (q : Query)
    (hextra : q.extra = [(10 * hour, 10 * hour + 15 * minute)]) :
    q.Verifies quarterHourExchange ["a@x"] := by
  intro slot
  have hfetch : verifySlotWithCalendar quarterHourExchange ["a@x"] slot q.duration =
      .ok (isFreeForAll slot q.duration
        (Dict.ofList [("a@x", [(10 * hour, 10 * hour + 15 * minute)])]),
        Dict.ofList [("a@x", [(10 * hour, 10 * hour + 15 * minute)])]) := rfl
  have hvalues : (Dict.ofList [("a@x", [(10 * hour, 10 * hour + 15 * minute)])] :
      BusyMap).values.flatten = q.extra := by
    rw [hextra]
    rfl
  have haccepts : isFreeForAll slot q.duration
      (Dict.ofList [("a@x", [(10 * hour, 10 * hour + 15 * minute)])]) =
        decide (q.Accepts slot) := by
    rw [Bool.eq_iff_iff, isFreeForAll_iff, hvalues, decide_eq_true_iff]
    rfl
  exact ⟨_, hfetch.trans (by rw [haccepts])⟩

theorem findNearestSlot_right_half_hour :
    ∃ outcome, Settles (fun fuel => findNearestSlot fuel String.toLower quarterHourExchange 0
        ["a@x"] (10 * hour) (30 * minute) 5 (30 * minute) 500 .freebusy true none) outcome ∧
      RightSearch (nearestQuery 0 (10 * hour) (30 * minute) 5 (30 * minute)
        (Dict.ofList [("a@x", [])]) [(10 * hour, 10 * hour + 15 * minute)]) 5 outcome := by
  have hstep : GridStep (30 * minute) := ⟨by decide, by decide, by decide⟩
  refine (findNearestSlot_right_iff String.toLower quarterHourExchange 0 (10 * hour) (30 * minute)
    5 (30 * minute) 500 ["a@x"] none (Dict.ofList [("a@x", [])])
    [(10 * hour, 10 * hour + 15 * minute)] (by decide) (by decide) hstep (by decide) (by decide)
    ?_ ?_).mpr ?_
  · rfl
  · exact quarterHourExchange_verifies _ rfl
  · refine Query.keepsFirstValid_of_short
      (nearestQuery_wellFormed hstep (by decide) (by decide)) ⟨by decide, by decide, ?_⟩
    intro iv hiv
    cases hiv

/-- An hour on a grid of quarter hours, from Monday 10:00: the event from 10:00 to 10:15 makes the
calendar refuse 10:00, the search blocks the whole hour and answers 11:00, and 10:15 is lost. -/
theorem findNearestSlot_loses_quarter_past :
    ¬ ∃ outcome, Settles (fun fuel => findNearestSlot fuel String.toLower quarterHourExchange 0
        ["a@x"] (10 * hour) hour 5 (15 * minute) 500 .freebusy true none) outcome ∧
      RightSearch (nearestQuery 0 (10 * hour) hour 5 (15 * minute)
        (Dict.ofList [("a@x", [])]) [(10 * hour, 10 * hour + 15 * minute)]) 5 outcome := by
  rintro ⟨outcome, hset, hright⟩
  have hrun : (findNearestSlot 20 String.toLower quarterHourExchange 0 ["a@x"] (10 * hour) hour 5
      (15 * minute) 500 .freebusy true none).map (fun o => o.toOption.map (·.slotStart)) =
        some (some (11 * hour)) := by decide +kernel
  obtain ⟨o, ho, hslot⟩ := Option.map_eq_some_iff.mp hrun
  obtain rfl := (findNearestSlot_steady _ _ _ _ _ _ _ _ _ _ _ _).eq_of_settles ho hset
  cases o with
  | error fault => cases hslot
  | ok result =>
    have hleast : IsLeast _ result.slotStart := hright
    have heleven : result.slotStart = 11 * hour := Option.some.inj hslot
    -- a quarter past ten is valid
    have hle := hleast.2 (show 10 * hour + 15 * minute ∈ _ from
      ⟨⟨⟨by decide, by decide⟩, ⟨by decide +kernel, by decide +kernel, by decide +kernel⟩,
        fun iv hiv => by cases hiv⟩, by decide +kernel⟩)
    rw [heleven] at hle
    exact absurd hle (by decide)

end AgentBack.Outlook
