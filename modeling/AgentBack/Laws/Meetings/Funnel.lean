import AgentBack.Meetings.ProtocolDraft
import Mathlib.Tactic.FinCases

/-!
# What the stage counts of the registry say

`STAGE_ORDER` begins with the stage before the first that is counted, and the thresholds of the loop
begin at its first place, so each count takes in the stage before its own (`of_buildStageCounts`).
The counts fall along the funnel and the entries add up all the same; each count is that of its stage
exactly when nothing waits in between (`funnel_iff`).
-/

namespace AgentBack.Meetings

/-- `STAGE_ORDER`. -/
def stageOrder : List RegistryStage :=
  [.scheduled, .invitationsSent, .protocolCreated, .protocolConducted, .meetingCompleted]

def funnelStages : List RegistryStage :=
  [.invitationsSent, .protocolCreated, .protocolConducted, .meetingCompleted]

def StageCounts.of (counts : StageCounts) : RegistryStage → ℕ
  | .invitationsSent => counts.invitationsSent
  | .protocolCreated => counts.protocolCreated
  | .protocolConducted => counts.protocolConducted
  | .meetingCompleted => counts.meetingCompleted
  | _ => 0

def nextStage (stage : RegistryStage) : Option RegistryStage :=
  if stage ∈ stageOrder then stageOrder[stageOrder.idxOf stage + 1]? else none

/-- The entry is not cancelled, and its stage is this one or a later one. -/
def reached (stage : RegistryStage) (entry : ProtocolRow) : Bool :=
  decide (entry.stage ≠ .cancelled ∧ stageOrder.idxOf stage ≤ stageOrder.idxOf entry.stage)

/-- **The funnel is right**: each stage counts the entries that reached it, the counts never
increase, the entries add up, and one entry that goes on raises one count by one. -/
structure Funnel (entries : List ProtocolRow) : Prop where
  counted : ∀ stage ∈ funnelStages,
    (buildStageCounts entries).of stage = entries.countP (reached stage)
  falling : (funnelStages.map (buildStageCounts entries).of).Pairwise (· ≥ ·)
  total : (buildStageCounts entries).approved + (buildStageCounts entries).cancelled =
    (buildStageCounts entries).all
  advance : ∀ before entry after next, entries = before ++ entry :: after →
    nextStage entry.stage = some next → ∃ raised ∈ funnelStages, ∀ stage ∈ funnelStages,
      (buildStageCounts (before ++ { entry with stage := next } :: after)).of stage =
        (buildStageCounts entries).of stage + if stage = raised then 1 else 0

/-! ## The loop -/

/-- The entry is counted under a stage: it got to the stage before it at least. -/
def taken (stage : RegistryStage) (entry : ProtocolRow) : Bool :=
  decide (entry.stage ≠ .cancelled ∧ stageIndex stage ≤ stageIndex entry.stage + 1)

theorem taken_of_reached {stage : RegistryStage} {entry : ProtocolRow}
    (h : reached stage entry = true) : taken stage entry = true := by
  obtain ⟨stage', key⟩ := entry
  revert h
  cases stage <;> cases stage' <;> simp [reached, taken, stageOrder, stageIndex]

section

variable {stage : RegistryStage} (hstage : stage ∈ funnelStages) (entries : List ProtocolRow)
include hstage

/-- What the loop adds to the count of a stage. -/
theorem of_foldl (counts : StageCounts) :
    ((entries.filter fun entry => entry.stage ≠ .cancelled).foldl countEntry counts).of stage =
      counts.of stage + entries.countP (taken stage) := by
  induction entries generalizing counts with
  | nil => simp
  | cons entry rest ih =>
    rw [List.countP_cons]
    by_cases hcancelled : entry.stage = .cancelled
    · rw [List.filter_cons_of_neg (by simp [hcancelled]), ih]
      simp [taken, hcancelled]
    · have step : (countEntry counts entry).of stage =
          counts.of stage + if taken stage entry then 1 else 0 := by
        obtain ⟨stage', key⟩ := entry
        fin_cases hstage <;> cases stage' <;>
          simp_all [countEntry, StageCounts.of, taken, stageIndex]
      rw [List.filter_cons_of_pos (by simp [hcancelled]), List.foldl_cons, ih, step]
      omega

/-- **Each count takes in the stage before its own.** -/
theorem of_buildStageCounts :
    (buildStageCounts entries).of stage = entries.countP (taken stage) := by
  rw [buildStageCounts, of_foldl hstage]
  fin_cases hstage <;> exact Nat.zero_add _

end

theorem foldl_countEntry_frame (entries : List ProtocolRow) (counts : StageCounts) :
    (entries.foldl countEntry counts).all = counts.all ∧
      (entries.foldl countEntry counts).approved = counts.approved ∧
      (entries.foldl countEntry counts).cancelled = counts.cancelled := by
  induction entries generalizing counts with
  | nil => exact ⟨rfl, rfl, rfl⟩
  | cons entry rest ih => exact ih (countEntry counts entry)

theorem approved_add_cancelled (entries : List ProtocolRow) :
    (buildStageCounts entries).approved + (buildStageCounts entries).cancelled =
      (buildStageCounts entries).all := by
  obtain ⟨hall, happroved, hcancelled⟩ := foldl_countEntry_frame
    (entries.filter fun entry => entry.stage ≠ .cancelled)
    ⟨entries.length, (entries.filter fun entry => entry.stage ≠ .cancelled).length,
      entries.length - (entries.filter fun entry => entry.stage ≠ .cancelled).length, 0, 0, 0, 0⟩
  have within := List.length_filter_le (fun entry : ProtocolRow => entry.stage ≠ .cancelled) entries
  rw [buildStageCounts]
  simp only [hall, happroved, hcancelled]
  omega

theorem counts_fall (entries : List ProtocolRow) :
    (funnelStages.map (buildStageCounts entries).of).Pairwise (· ≥ ·) := by
  refine List.pairwise_map.mpr (List.Pairwise.imp_of_mem ?_ (R := fun earlier later =>
    stageIndex earlier ≤ stageIndex later) (by decide))
  intro earlier later hearlier hlater hle
  rw [of_buildStageCounts hearlier, of_buildStageCounts hlater]
  refine List.countP_mono_left fun entry _ h => ?_
  simp only [taken, decide_eq_true_eq] at h ⊢
  exact ⟨h.1, hle.trans h.2⟩

/-- An entry that waits is counted under the stage that comes next. -/
theorem exists_next {entry : ProtocolRow} (hcancelled : entry.stage ≠ .cancelled)
    (hcompleted : entry.stage ≠ .meetingCompleted) :
    ∃ next ∈ funnelStages, taken next entry = true ∧ reached next entry = false := by
  obtain ⟨stage, key⟩ := entry
  cases stage
  · exact ⟨.invitationsSent, by decide, by rfl, by rfl⟩
  · exact ⟨.protocolCreated, by decide, by rfl, by rfl⟩
  · exact ⟨.protocolConducted, by decide, by rfl, by rfl⟩
  · exact ⟨.meetingCompleted, by decide, by rfl, by rfl⟩
  · exact absurd rfl hcompleted
  · exact absurd rfl hcancelled

/-- **The funnel is right exactly when every entry is cancelled or completed.** -/
theorem funnel_iff (entries : List ProtocolRow) :
    Funnel entries ↔ ∀ entry ∈ entries, entry.stage = .cancelled ∨ entry.stage = .meetingCompleted := by
  constructor
  · intro funnel entry hentry
    by_contra hwaits
    obtain ⟨hcancelled, hcompleted⟩ := not_or.mp hwaits
    obtain ⟨next, hnext, htaken, hreached⟩ := exists_next hcancelled hcompleted
    have same := funnel.counted next hnext
    rw [of_buildStageCounts hnext] at same
    obtain ⟨before, after, rfl⟩ := List.append_of_mem hentry
    have le : ∀ rows : List ProtocolRow, rows.countP (reached next) ≤ rows.countP (taken next) :=
      fun rows => List.countP_mono_left fun _ _ => taken_of_reached
    have front := le before
    have back := le after
    simp only [List.countP_append, List.countP_cons, htaken, hreached, if_true,
      Bool.false_eq_true, if_false] at same
    omega
  · intro settled
    refine ⟨fun stage hstage => ?_, counts_fall entries, approved_add_cancelled entries,
      fun before entry after next hentries hnext => ?_⟩
    · rw [of_buildStageCounts hstage]
      refine List.countP_congr fun entry hentry => ?_
      obtain ⟨stage', key⟩ := entry
      rcases settled _ hentry with rfl | rfl <;> fin_cases hstage <;>
        simp [taken, reached, stageOrder, stageIndex]
    · have hmem : entry ∈ entries := hentries ▸ List.mem_append_right _ (.head _)
      rcases settled entry hmem with h | h <;> rw [h] at hnext <;> cases hnext

/-- A planned meeting counts as one whose invitations were sent. -/
theorem funnel_scheduled_fails : ¬ Funnel [⟨.scheduled, none⟩] := by
  intro funnel
  exact absurd (funnel.counted .invitationsSent (by decide)) (by decide)

end AgentBack.Meetings
