import AgentBack.Mail.Routing.Scoring
import Mathlib.Algebra.Order.BigOperators.Group.List

/-!
# What a signal does to a score

The score is that of the signals, whatever their order (`base`, `deducted`), and of the bonus of the
model, which is given for hard evidence or for three adaptive signals in use. The loop over the
adaptive signals stops at its ceiling, so how many are in use depends on their order, and a strong
signal in front of them can put the bonus out (`accumulateConfidence_steady_iff`).
-/

namespace AgentBack.Mail.Routing

open Text (strip)

/-! ## The law -/

section Law

variable {F : Type} [Floating F] (round25 : F → Option Int)

/-- The score, when the points of the model have a value. -/
def scoreOf (signals : List EvidenceSignal) (llmConfidence : Option F) : Option Int :=
  (accumulateConfidence round25 signals llmConfidence).map (·.score)

/-- **A steady score.** The order of the signals does not matter to it, evidence does not lower it,
penalties and conflicts do not raise it, and the floor only lifts it, and not against a conflict. -/
structure Steady (signals : List EvidenceSignal) (llmConfidence : Option F) : Prop where
  order : ∀ signals', signals'.Perm signals → ∃ score,
    scoreOf round25 signals llmConfidence = some score ∧
      scoreOf round25 signals' llmConfidence = some score
  evidence : ∀ before signal after, signals = before ++ after → 0 ≤ signal.points →
    signal.kind ≠ .penalty → ∃ score score', scoreOf round25 signals llmConfidence = some score ∧
      scoreOf round25 (before ++ signal :: after) llmConfidence = some score' ∧ score ≤ score'
  penalty : ∀ before signal after, signals = before ++ after → 0 ≤ signal.points →
    signal.kind = .penalty → ∃ score score', scoreOf round25 signals llmConfidence = some score ∧
      scoreOf round25 (before ++ signal :: after) llmConfidence = some score' ∧ score' ≤ score
  conflict : ∀ result, accumulateConfidence round25 signals llmConfidence = some result → ∀ code,
    (applyDepartmentFloor result code true).score ≤ (applyDepartmentFloor result code false).score
  floor : ∀ result, accumulateConfidence round25 signals llmConfidence = some result →
    ∀ code hasConflict, result.score ≤ (applyDepartmentFloor result code hasConflict).score
  leadership : ∀ result, accumulateConfidence round25 signals llmConfidence = some result →
    ∀ code, strip code ∈ leadershipDepartmentCodes →
      (applyDepartmentFloor result code true).score = result.score

def llmWorth : Option F → Option Int
  | none => some 0
  | some confidence =>
    if Floating.positive confidence then llmPoints round25 confidence else some 0

/-- Three signals, of which the first two stay below the ceiling. -/
def UsesThree : List EvidenceSignal → Prop
  | first :: second :: _ :: _ => first.points + second.points < maxAdaptivePoints
  | _ => False

/-- Three signals, with two that reach the ceiling together and two that do not. -/
structure OrderMatters (adaptive : List EvidenceSignal) : Prop where
  three : 3 ≤ adaptive.length
  full : ∃ first second rest, adaptive.Perm (first :: second :: rest) ∧
    maxAdaptivePoints ≤ first.points + second.points
  short : ∃ first second rest, adaptive.Perm (first :: second :: rest) ∧
    first.points + second.points < maxAdaptivePoints

def deducted (signals : List EvidenceSignal) : Int :=
  ((ofKind .penalty signals).map fun signal => |signal.points|).sum

def adaptivePoints (signals : List EvidenceSignal) : Int :=
  min maxAdaptivePoints (total (ofKind .adaptive signals))

/-- The bonus is worth nothing or does not hang on how many adaptive signals are in use, or the
penalties leave nothing of it, or the signals are too weak to reach the ceiling beside it. -/
def BonusSafe (signals : List EvidenceSignal) (worth : Int) : Prop :=
  worth = 0 ∨ ofKind .hard signals ≠ [] ∨
    ((OrderMatters (ofKind .adaptive signals) → maxAdaptivePoints + worth ≤ deducted signals) ∧
      (UsesThree (ofKind .adaptive signals) → maxAdaptivePoints < adaptivePoints signals + worth →
        adaptivePoints signals + worth ≤ deducted signals))

end Law

def Nonneg (signals : List EvidenceSignal) : Prop := ∀ signal ∈ signals, 0 ≤ signal.points

variable {signals signals' : List EvidenceSignal} {signal : EvidenceSignal}

theorem Nonneg.filter (h : Nonneg signals)
    (p : EvidenceSignal → Bool) : Nonneg (signals.filter p) :=
  fun signal hsignal => h signal (List.mem_of_mem_filter hsignal)

theorem Nonneg.ofKind (h : Nonneg signals) (kind : SignalClass) :
    Nonneg (ofKind kind signals) := h.filter _

theorem Nonneg.perm (h : Nonneg signals) (hperm : signals'.Perm signals) : Nonneg signals' :=
  fun signal hsignal => h signal (hperm.mem_iff.mp hsignal)

theorem Nonneg.insert {before after : List EvidenceSignal}
    (h : Nonneg (before ++ after)) (hsignal : 0 ≤ signal.points) :
    Nonneg (before ++ signal :: after) := by
  intro other hother
  rcases List.mem_cons.mp (List.perm_middle.mem_iff.mp hother) with rfl | hother
  · exact hsignal
  · exact h other hother

/-! ## Sums and ceilings -/

@[simp] theorem total_nil : total [] = 0 := rfl

@[simp] theorem total_cons (signal : EvidenceSignal) (signals : List EvidenceSignal) :
    total (signal :: signals) = signal.points + total signals := rfl

theorem total_perm (h : signals.Perm signals') : total signals = total signals' := (h.map _).sum_eq

theorem Nonneg.total_nonneg (h : Nonneg signals) : 0 ≤ total signals :=
  List.sum_nonneg (List.forall_mem_map.mpr h)

/-- A loop with a ceiling gives the points of all signals, up to the ceiling. -/
theorem capped_points (kind : SignalClass) {ceiling : Int}
    (h : Nonneg signals) {s : Capped} (hs : s.points ≤ ceiling) :
    (capped ceiling kind s signals).points = min ceiling (s.points + total signals) := by
  induction signals generalizing s with
  | nil => simp [capped, hs]
  | cons signal rest ih =>
    obtain ⟨hsignal, hrest⟩ := List.forall_mem_cons.mp h
    have htotal := Nonneg.total_nonneg hrest
    unfold capped
    rw [total_cons]
    split
    · omega
    · dsimp only
      rw [ih hrest (by dsimp only; omega)]
      dsimp only
      omega

theorem length_le_capped (ceiling : Int) (kind : SignalClass) (signals : List EvidenceSignal)
    (s : Capped) : s.used.length ≤ (capped ceiling kind s signals).used.length := by
  induction signals generalizing s with
  | nil => exact le_rfl
  | cons signal rest ih =>
    unfold capped
    split
    · exact le_rfl
    · refine le_trans ?_ (ih _)
      rw [List.length_append]
      exact Nat.le_add_right _ _

theorem capped_length_le (ceiling : Int) (kind : SignalClass) (signals : List EvidenceSignal)
    (s : Capped) :
    (capped ceiling kind s signals).used.length ≤ s.used.length + signals.length := by
  induction signals generalizing s with
  | nil => exact le_rfl
  | cons signal rest ih =>
    unfold capped
    split
    · exact Nat.le_add_right _ _
    · refine (ih _).trans_eq ?_
      rw [List.length_append, List.length_singleton, List.length_cons]
      omega

theorem usesThree_iff :
    UsesThree signals ↔ ∃ first second third rest, signals = first :: second :: third :: rest ∧
      first.points + second.points < maxAdaptivePoints := by
  constructor
  · intro h
    unfold UsesThree at h
    split at h
    · next first second third rest => exact ⟨first, second, third, rest, rfl, h⟩
    · cases h
  · rintro ⟨first, second, third, rest, rfl, h⟩
    exact h

/-- Three adaptive signals are in use when the first two leave something of the ceiling. -/
theorem three_le_capped_iff (kind : SignalClass) (h : Nonneg signals) :
    3 ≤ (capped maxAdaptivePoints kind ⟨0, []⟩ signals).used.length ↔ UsesThree signals := by
  by_cases hthree : 3 ≤ signals.length
  swap
  · have hle := capped_length_le maxAdaptivePoints kind signals ⟨0, []⟩
    rw [List.length_nil] at hle
    refine iff_of_false (by omega) fun huses => ?_
    obtain ⟨first, second, third, rest, rfl, -⟩ := usesThree_iff.mp huses
    exact hthree (by simp)
  obtain ⟨first, tail, rfl⟩ := List.exists_cons_of_length_pos (by omega : 0 < signals.length)
  rw [List.length_cons] at hthree
  obtain ⟨second, tail, rfl⟩ := List.exists_cons_of_length_pos (by omega : 0 < tail.length)
  rw [List.length_cons] at hthree
  obtain ⟨third, rest, rfl⟩ := List.exists_cons_of_length_pos (by omega : 0 < tail.length)
  have hfirst := h first (.head _)
  have hsecond := h second (.tail _ (.head _))
  unfold UsesThree maxAdaptivePoints
  rw [capped, if_neg (by decide)]
  dsimp only
  rw [capped]
  split
  · next hfull =>
    dsimp only at hfull
    exact iff_of_false (by simp) (by omega)
  · next hroom =>
    dsimp only at hroom ⊢
    rw [capped]
    split
    · next hfull =>
      dsimp only at hfull
      exact iff_of_false (by simp) (by omega)
    · next hroom' =>
      dsimp only at hroom'
      refine iff_of_true (le_trans ?_ (length_le_capped _ _ rest _)) (by omega)
      simp

def strongest (signals : List EvidenceSignal) : Int :=
  (@List.argmax _ Int Int.instLinearOrder.toPreorder _ (·.points) signals).elim 0 (·.points)

theorem strongest_cons (h : 0 ≤ signal.points) (signals : List EvidenceSignal) :
    strongest (signal :: signals) = max signal.points (strongest signals) := by
  unfold strongest
  rw [List.argmax_cons]
  cases @List.argmax _ Int Int.instLinearOrder.toPreorder _ (·.points) signals with
  | none => exact (max_eq_left h).symm
  | some best =>
    dsimp only [Option.elim_some]
    split
    · next hlt => exact (max_eq_right hlt.le).symm
    · next hle => exact (max_eq_left (not_lt.mp hle)).symm

theorem strongest_perm (hperm : signals.Perm signals')
    (h : Nonneg signals) : strongest signals = strongest signals' := by
  induction hperm with
  | nil => rfl
  | cons signal _ ih =>
    obtain ⟨hsignal, hrest⟩ := List.forall_mem_cons.mp h
    rw [strongest_cons hsignal, strongest_cons hsignal, ih hrest]
  | swap first second rest =>
    obtain ⟨hsecond, hrest⟩ := List.forall_mem_cons.mp h
    obtain ⟨hfirst, -⟩ := List.forall_mem_cons.mp hrest
    rw [strongest_cons hsecond, strongest_cons hfirst, strongest_cons hfirst,
      strongest_cons hsecond, max_left_comm]
  | trans hleft _ ih ih' => exact (ih h).trans (ih' (h.perm hleft.symm))

/-! ## The score without the bonus -/

/-- The points of the signals, without their penalties. -/
def base (signals : List EvidenceSignal) : Int :=
  let hard := ofKind .hard signals
  total (hard.filter (·.isNamed)) + strongest (hard.filter (·.isCascade)) +
    min maxConfirmPoints (total (hard.filter (·.isConfirm))) + total (otherHard hard) +
    adaptivePoints signals

theorem ofKind_perm (kind : SignalClass)
    (h : signals.Perm signals') : (ofKind kind signals).Perm (ofKind kind signals') :=
  h.filter _

theorem base_perm (hperm : signals.Perm signals')
    (h : Nonneg signals) : base signals = base signals' := by
  have hhard := ofKind_perm .hard hperm
  unfold base adaptivePoints otherHard
  dsimp only
  rw [total_perm (hhard.filter _), total_perm (hhard.filter _), total_perm (hhard.filter _),
    strongest_perm (hhard.filter _) ((h.filter _).filter _),
    total_perm (ofKind_perm .adaptive hperm)]

theorem deducted_perm (hperm : signals.Perm signals') : deducted signals = deducted signals' :=
  ((ofKind_perm .penalty hperm).map _).sum_eq

theorem ofKind_cons (kind : SignalClass) (signal : EvidenceSignal)
    (signals : List EvidenceSignal) :
    ofKind kind (signal :: signals) =
      if signal.kind = kind then signal :: ofKind kind signals else ofKind kind signals := by
  unfold ofKind
  rw [List.filter_cons]
  simp only [decide_eq_true_eq]

section

variable (h : 0 ≤ signal.points) (p : EvidenceSignal → Bool) (signals : List EvidenceSignal)
include h

theorem total_filter_cons_le :
    total (signals.filter p) ≤ total ((signal :: signals).filter p) := by
  rw [List.filter_cons]
  split
  · rw [total_cons]
    omega
  · exact le_rfl

theorem strongest_filter_cons_le :
    strongest (signals.filter p) ≤ strongest ((signal :: signals).filter p) := by
  rw [List.filter_cons]
  split
  · rw [strongest_cons h]
    exact le_max_right _ _
  · exact le_rfl

end

/-- Evidence adds to the points and takes nothing. -/
theorem base_cons_le (h : 0 ≤ signal.points)
    (signals : List EvidenceSignal) : base signals ≤ base (signal :: signals) := by
  unfold base adaptivePoints otherHard
  dsimp only
  rw [ofKind_cons, ofKind_cons]
  cases hkind : signal.kind with
  | hard =>
    rw [if_pos rfl, if_neg (by decide)]
    have hnamed := total_filter_cons_le h (·.isNamed) (ofKind .hard signals)
    have hcascade := strongest_filter_cons_le h (·.isCascade) (ofKind .hard signals)
    have hconfirm := total_filter_cons_le h (·.isConfirm) (ofKind .hard signals)
    have hother := total_filter_cons_le h
      (fun signal => !signal.isNamed && !signal.isCascade && !signal.isConfirm)
      (ofKind .hard signals)
    omega
  | adaptive =>
    rw [if_neg (by decide), if_pos rfl, total_cons]
    omega
  | penalty =>
    rw [if_neg (by decide), if_neg (by decide)]

theorem base_cons_penalty (h : signal.kind = .penalty)
    (signals : List EvidenceSignal) : base (signal :: signals) = base signals := by
  unfold base adaptivePoints
  dsimp only
  rw [ofKind_cons, ofKind_cons, h, if_neg (by decide), if_neg (by decide)]

theorem deducted_nonneg (signals : List EvidenceSignal) : 0 ≤ deducted signals :=
  List.sum_nonneg (List.forall_mem_map.mpr fun _ _ => abs_nonneg _)

theorem deducted_cons (signals : List EvidenceSignal) : deducted (signal :: signals) =
      if signal.kind = .penalty then |signal.points| + deducted signals else deducted signals := by
  unfold deducted
  rw [ofKind_cons]
  split
  · rfl
  · rfl

/-! ## The score -/

theorem hardUnits_pos_iff (hard : List EvidenceSignal) : 1 ≤ hardUnits hard ↔ hard ≠ [] := by
  unfold hardUnits
  cases hard with
  | nil => simp [otherHard]
  | cons signal rest =>
    refine iff_of_true ?_ (List.cons_ne_nil _ _)
    -- the first signal is counted by its key, or among the others
    by_cases hmailbox : signal.key = "exact_mailbox"
    · rw [if_pos (by simp [hmailbox])]
      omega
    by_cases hlearned : signal.key = "learned_hard"
    · rw [if_pos (c := ((signal :: rest).any fun signal => signal.key = "learned_hard") = true)
        (by simp [hlearned])]
      omega
    by_cases hcascade : signal.isCascade = true
    · rw [if_pos (c := ((signal :: rest).any fun signal => signal.isCascade) = true)
        (by simp [hcascade])]
      omega
    by_cases hconfirm : signal.isConfirm = true
    · rw [if_pos (c := ((signal :: rest).any fun signal => signal.isConfirm) = true)
        (by simp [hconfirm])]
      omega
    have hother : otherHard (signal :: rest) = signal :: otherHard rest := by
      unfold otherHard
      rw [List.filter_cons_of_pos]
      simp [EvidenceSignal.isNamed, hmailbox, hlearned, hcascade, hconfirm]
    rw [hother, List.length_cons]
    omega

section Score

variable {F : Type} [Floating F] {round25 : F → Option Int} {signals : List EvidenceSignal}
variable {llmConfidence : Option F}

theorem llmBonus_points (round25 : F → Option Int) (llmConfidence : Option F)
    (hardCount adaptiveCount : Nat) :
    (llmBonus round25 hardCount adaptiveCount llmConfidence).map (·.points) =
      if 1 ≤ hardCount ∨ 3 ≤ adaptiveCount then llmWorth round25 llmConfidence else some 0 := by
  unfold llmBonus llmWorth
  cases llmConfidence with
  | none => simp
  | some confidence =>
    dsimp only
    split
    · split
      · cases llmPoints round25 confidence with
        | none => rfl
        | some points =>
          simp only [Option.map_some]
          split
          · next hzero => rw [hzero]
          · rfl
      · rfl
    · simp

/-- The bonus is given for hard evidence or for three adaptive signals in use. -/
def Backed (signals : List EvidenceSignal) : Prop :=
  ofKind .hard signals ≠ [] ∨ UsesThree (ofKind .adaptive signals)

theorem backed_iff (h : Nonneg signals) :
    Backed signals ↔ 1 ≤ hardUnits (ofKind .hard signals) ∨
      3 ≤ (capped maxAdaptivePoints .adaptive ⟨0, []⟩ (ofKind .adaptive signals)).used.length := by
  rw [hardUnits_pos_iff, three_le_capped_iff _ (h.ofKind _), Backed]

theorem scoreOf_eq (h : Nonneg signals) :
    scoreOf round25 signals llmConfidence =
      ((llmBonus round25 (hardUnits (ofKind .hard signals))
        (capped maxAdaptivePoints .adaptive ⟨0, []⟩ (ofKind .adaptive signals)).used.length
        llmConfidence).map (·.points)).map fun worth =>
          clamp (base signals + worth - deducted signals) := by
  have hconfirm : (capped maxConfirmPoints .hard ⟨0, []⟩
      ((ofKind .hard signals).filter (·.isConfirm))).points =
        min maxConfirmPoints (0 + total ((ofKind .hard signals).filter (·.isConfirm))) :=
    capped_points .hard ((h.ofKind _).filter _) (by decide)
  have hadaptive : (capped maxAdaptivePoints .adaptive ⟨0, []⟩ (ofKind .adaptive signals)).points =
      min maxAdaptivePoints (0 + total (ofKind .adaptive signals)) :=
    capped_points .adaptive (h.ofKind _) (by decide)
  rw [zero_add] at hconfirm hadaptive
  unfold scoreOf accumulateConfidence
  dsimp only
  rw [Option.map_map, Option.map_map, hconfirm, hadaptive]
  rfl

theorem scoreOf_backed (h : Nonneg signals) (hbacked : Backed signals) :
    scoreOf round25 signals llmConfidence = (llmWorth round25 llmConfidence).map fun worth =>
      clamp (base signals + worth - deducted signals) := by
  rw [scoreOf_eq h, llmBonus_points, if_pos ((backed_iff h).mp hbacked)]

/-- Without it only the signals do. -/
theorem scoreOf_unbacked (h : Nonneg signals) (hbacked : ¬ Backed signals) :
    scoreOf round25 signals llmConfidence = some (clamp (base signals - deducted signals)) := by
  rw [scoreOf_eq h, llmBonus_points, if_neg (mt (backed_iff h).mpr hbacked), Option.map_some,
    add_zero]

variable {result : EvidenceResult} {adaptive : List EvidenceSignal} {worth : Int}

theorem score_bounded (h : accumulateConfidence round25 signals llmConfidence = some result) :
    0 ≤ result.score ∧ result.score ≤ 100 := by
  obtain ⟨bonus, -, rfl⟩ := Option.map_eq_some_iff.mp h
  dsimp only [clamp]
  omega

theorem lt_of_hardFloor {code note : String} {foreign : Bool} {score lifted : Int}
    (h : hardFloor code foreign score = some (lifted, note)) : score < lifted ∧ lifted ≤ 100 := by
  unfold hardFloor at h
  split at h
  · next hcode =>
    cases h
    exact ⟨hcode.2, by decide⟩
  · split at h
    · next hcode =>
      cases h
      exact ⟨hcode.2, by decide⟩
    · split at h
      · next hcode =>
        cases h
        exact ⟨hcode.2.2, by decide⟩
      · cases h

section

variable (hlow : 0 ≤ result.score) (hhigh : result.score ≤ 100)
include hlow hhigh

theorem le_applyDepartmentFloor (code : String) (hasConflict : Bool) :
    result.score ≤ (applyDepartmentFloor result code hasConflict).score := by
  unfold applyDepartmentFloor
  dsimp only
  split
  · exact le_rfl
  · dsimp only
    cases hlift : (if 1 ≤ result.hardCount then
      hardFloor (strip code) result.hardForeign result.score else none) with
    | none =>
      dsimp only [Option.elim_none, clamp]
      omega
    | some lifted =>
      obtain ⟨score, note⟩ := lifted
      have hgate : result.score < score ∧ score ≤ 100 := by
        split at hlift
        · exact lt_of_hardFloor hlift
        · cases hlift
      dsimp only [Option.elim_some, clamp]
      omega

/-- A conflict does not raise a score: it takes the floor away, or the floor does not depend on
it. -/
theorem applyDepartmentFloor_conflict_le (code : String) :
    (applyDepartmentFloor result code true).score ≤
      (applyDepartmentFloor result code false).score := by
  by_cases hcode : strip code = chairmanDepartmentCode ∨ strip code = odDepartmentCode
  · have hleft : (applyDepartmentFloor result code true).score = result.score := by
      unfold applyDepartmentFloor
      dsimp only
      rw [if_pos ⟨rfl, hcode⟩]
    rw [hleft]
    exact le_applyDepartmentFloor hlow hhigh code false
  · unfold applyDepartmentFloor
    simp only [hcode, and_false, if_false, le_refl]

theorem applyDepartmentFloor_leadership {code : String}
    (hcode : strip code ∈ leadershipDepartmentCodes) :
    (applyDepartmentFloor result code true).score = result.score := by
  unfold applyDepartmentFloor
  dsimp only
  split
  · rfl
  · next hnot =>
    -- the third code of the leadership has no floor
    have hthird : strip code = "00-000182" := by
      unfold leadershipDepartmentCodes at hcode
      rcases List.mem_cons.mp hcode with h | hcode
      · exact absurd ⟨rfl, .inl h⟩ hnot
      · rcases List.mem_cons.mp hcode with h | hcode
        · exact absurd ⟨rfl, .inr h⟩ hnot
        · exact List.mem_singleton.mp hcode
    have hnone (foreign : Bool) (score : Int) : hardFloor "00-000182" foreign score = none := by
      unfold hardFloor
      rw [if_neg (by simp [chairmanDepartmentCode]), if_neg (by simp [odDepartmentCode]),
        if_neg (by simp [vedDepartmentCode])]
    dsimp only
    rw [hthird, hnone, ite_self, Option.elim_none, clamp]
    omega

end

/-! ## What depends on the order -/

theorem full_of_not_usesThree (hthree : 3 ≤ adaptive.length)
    (hnot : ¬ UsesThree adaptive) : ∃ first second rest, adaptive = first :: second :: rest ∧
      maxAdaptivePoints ≤ first.points + second.points := by
  obtain ⟨first, tail, rfl⟩ := List.exists_cons_of_length_pos (by omega : 0 < adaptive.length)
  rw [List.length_cons] at hthree
  obtain ⟨second, tail, rfl⟩ := List.exists_cons_of_length_pos (by omega : 0 < tail.length)
  rw [List.length_cons] at hthree
  obtain ⟨third, rest, rfl⟩ := List.exists_cons_of_length_pos (by omega : 0 < tail.length)
  exact ⟨first, second, _, rfl, not_lt.mp hnot⟩

/-- Two signals that reach the ceiling fill it with the rest. -/
theorem total_of_full (h : Nonneg adaptive)
    {first second : EvidenceSignal} {rest : List EvidenceSignal}
    (hperm : adaptive.Perm (first :: second :: rest))
    (hfull : maxAdaptivePoints ≤ first.points + second.points) :
    maxAdaptivePoints ≤ total adaptive := by
  have hrest : Nonneg rest := fun signal hsignal =>
    h signal (hperm.mem_iff.mpr (.tail _ (.tail _ hsignal)))
  have hnonneg := hrest.total_nonneg
  rw [total_perm hperm, total_cons, total_cons]
  omega

theorem orderMatters_of {uses stops : List EvidenceSignal} (huses : adaptive.Perm uses)
    (hstops : adaptive.Perm stops) (hthree : UsesThree uses) (hnot : ¬ UsesThree stops) :
    OrderMatters adaptive := by
  obtain ⟨first, second, third, rest, rfl, hshort⟩ := usesThree_iff.mp hthree
  have hlength : 3 ≤ adaptive.length := by
    rw [huses.length_eq]
    simp
  obtain ⟨first', second', rest', rfl, hfull⟩ :=
    full_of_not_usesThree (hstops.length_eq ▸ hlength) hnot
  exact ⟨hlength, ⟨first', second', rest', hstops, hfull⟩, ⟨first, second, _, huses, hshort⟩⟩

/-- The adaptive signals can be put in any order. -/
theorem exists_perm_adaptive (signals : List EvidenceSignal)
    (h : (ofKind .adaptive signals).Perm adaptive) :
    ∃ signals', signals'.Perm signals ∧ ofKind .adaptive signals' = adaptive := by
  refine ⟨adaptive ++ signals.filter fun signal => !decide (signal.kind = .adaptive), ?_, ?_⟩
  · exact (h.symm.append_right _).trans (List.filter_append_perm _ signals)
  · have hall : ofKind .adaptive adaptive = adaptive := by
      refine List.filter_eq_self.mpr fun signal hsignal => ?_
      exact (List.mem_filter.mp (h.mem_iff.mpr hsignal)).2
    have hnone : ofKind .adaptive (signals.filter fun signal =>
        !decide (signal.kind = .adaptive)) = [] := by
      refine List.filter_eq_nil_iff.mpr fun signal hsignal => ?_
      have := (List.mem_filter.mp hsignal).2
      simpa using this
    unfold ofKind at hall hnone ⊢
    rw [List.filter_append, hall, hnone, List.append_nil]

theorem base_of_no_hard (h : ofKind .hard signals = []) :
    base signals = adaptivePoints signals := by
  unfold base
  rw [h]
  simp [strongest, otherHard, maxConfirmPoints]

theorem backed_of_no_hard (h : ofKind .hard signals = []) :
    Backed signals ↔ UsesThree (ofKind .adaptive signals) :=
  or_iff_right (not_not.mpr h)

theorem ofKind_insert_of_ne {kind : SignalClass} {signal : EvidenceSignal}
    (h : signal.kind ≠ kind) (before after : List EvidenceSignal) :
    ofKind kind (before ++ signal :: after) = ofKind kind (before ++ after) := by
  unfold ofKind
  rw [List.filter_append, List.filter_append, List.filter_cons_of_neg (by simpa using h)]

theorem llmWorth_mem (h : llmWorth round25 llmConfidence = some worth) :
    0 ≤ worth ∧ worth ≤ maxLlmPoints := by
  have hzero : (0 : Int) ≤ 0 ∧ (0 : Int) ≤ maxLlmPoints := by decide
  unfold llmWorth at h
  split at h
  · cases h
    exact hzero
  · split at h
    · obtain ⟨points, -, rfl⟩ := Option.map_eq_some_iff.mp h
      unfold maxLlmPoints
      omega
    · cases h
      exact hzero

/-- A score is that of the signals with what the model is worth, when it is backed. -/
theorem scoreOf_eq_some (h : Nonneg signals)
    (hworth : llmWorth round25 llmConfidence = some worth) :
    ∃ given, scoreOf round25 signals llmConfidence =
      some (clamp (base signals + given - deducted signals)) ∧
        (Backed signals ∧ given = worth ∨ ¬ Backed signals ∧ given = 0) := by
  by_cases hbacked : Backed signals
  · refine ⟨worth, ?_, .inl ⟨hbacked, rfl⟩⟩
    rw [scoreOf_backed h hbacked, hworth]
    rfl
  · refine ⟨0, ?_, .inr ⟨hbacked, rfl⟩⟩
    rw [scoreOf_unbacked h hbacked, add_zero]

section

variable (hnonneg : Nonneg signals) (h : Steady round25 signals llmConfidence)
include hnonneg h

/-- Where a steady score uses the points of the model they have a value. -/
theorem Steady.exists_worth :
    ∃ worth, llmWorth round25 llmConfidence = some worth := by
  rw [← Option.isSome_iff_exists, ← Option.ne_none_iff_isSome]
  intro hnone
  have hhard : Backed (⟨.hard, "exact_mailbox", 0, ""⟩ :: signals) :=
    .inl (List.cons_ne_nil _ _)
  obtain ⟨-, score', -, hscore', -⟩ :=
    h.evidence [] ⟨.hard, "exact_mailbox", 0, ""⟩ signals rfl le_rfl (by decide)
  rw [List.nil_append, scoreOf_backed (List.forall_mem_cons.mpr ⟨le_rfl, hnonneg⟩) hhard, hnone]
    at hscore'
  cases hscore'

/-- Two orders of the signals, of which one uses three and one stops before, have one score only
when the penalties take it all. -/
theorem Steady.deducted_of_orderMatters (hworth : llmWorth round25 llmConfidence = some worth)
    (hpos : worth ≠ 0) (hhard : ofKind .hard signals = [])
    (hmatters : OrderMatters (ofKind .adaptive signals)) :
    maxAdaptivePoints + worth ≤ deducted signals := by
  obtain ⟨first, second, rest, hfullPerm, hfull⟩ := hmatters.full
  obtain ⟨first', second', rest', hshortPerm, hshort⟩ := hmatters.short
  obtain ⟨stops, hstopsPerm, hstops⟩ := exists_perm_adaptive signals hfullPerm
  obtain ⟨uses, husesPerm, huses⟩ := exists_perm_adaptive signals hshortPerm
  have hceiling : adaptivePoints signals = maxAdaptivePoints :=
    min_eq_left (total_of_full (hnonneg.ofKind _) hfullPerm hfull)
  have hbase := base_of_no_hard hhard
  have hnoHard {other : List EvidenceSignal} (hperm : other.Perm signals) :
      ofKind .hard other = [] := by
    have := ofKind_perm .hard hperm
    rw [hhard] at this
    exact this.eq_nil
  obtain ⟨given, hgiven, hstop⟩ := scoreOf_eq_some (hnonneg.perm hstopsPerm) hworth
  obtain ⟨given', hgiven', huse⟩ := scoreOf_eq_some (hnonneg.perm husesPerm) hworth
  rw [backed_of_no_hard (hnoHard hstopsPerm), hstops] at hstop
  rw [backed_of_no_hard (hnoHard husesPerm), huses] at huse
  have hthree : UsesThree (first' :: second' :: rest') := by
    have hlength := hmatters.three
    rw [hshortPerm.length_eq, List.length_cons, List.length_cons] at hlength
    obtain ⟨third, rest'', rfl⟩ := List.exists_cons_of_length_pos (by omega : 0 < rest'.length)
    exact hshort
  have hnot : ¬ UsesThree (first :: second :: rest) := by
    intro hthree
    obtain ⟨_, _, _, _, heq, hlt⟩ := usesThree_iff.mp hthree
    cases heq
    exact absurd hlt (not_lt.mpr hfull)
  obtain ⟨score, hscore, hscoreStops⟩ := h.order stops hstopsPerm
  obtain ⟨score', hscore', hscoreUses⟩ := h.order uses husesPerm
  have hsame := Option.some.inj ((hgiven.symm.trans hscoreStops).trans
    (hscore.symm.trans (hscore'.trans (hscoreUses.symm.trans hgiven'))))
  rw [base_perm hstopsPerm (hnonneg.perm hstopsPerm), base_perm husesPerm (hnonneg.perm husesPerm),
    deducted_perm hstopsPerm, deducted_perm husesPerm, hbase, hceiling] at hsame
  have hzero := (hstop.resolve_left fun hin => hnot hin.1).2
  have hgives := (huse.resolve_right fun hout => hout.1 hthree).2
  have hmem := llmWorth_mem hworth
  have hdeducted := deducted_nonneg signals
  rw [hzero, hgives] at hsame
  unfold clamp maxAdaptivePoints at *
  unfold maxLlmPoints at hmem
  omega

/-- A signal of forty points before three in use puts the bonus out. -/
theorem Steady.deducted_of_usesThree (hworth : llmWorth round25 llmConfidence = some worth)
    (hhard : ofKind .hard signals = []) (hthree : UsesThree (ofKind .adaptive signals))
    (hmore : maxAdaptivePoints < adaptivePoints signals + worth) :
    adaptivePoints signals + worth ≤ deducted signals := by
  obtain ⟨score, score', hscore, hscore', hle⟩ :=
    h.evidence [] ⟨.adaptive, "", 40, ""⟩ signals rfl (by decide) (by decide)
  have hnonneg' : Nonneg (⟨.adaptive, "", 40, ""⟩ :: signals) :=
    List.forall_mem_cons.mpr ⟨by decide, hnonneg⟩
  have htotal := (hnonneg.ofKind .adaptive).total_nonneg
  have hhard' : ofKind .hard (⟨.adaptive, "", 40, ""⟩ :: signals) = [] := by
    rw [ofKind_cons, if_neg (by decide), hhard]
  have hadaptive : ofKind .adaptive (⟨.adaptive, "", 40, ""⟩ :: signals) =
      ⟨.adaptive, "", 40, ""⟩ :: ofKind .adaptive signals := by
    rw [ofKind_cons, if_pos rfl]
  have hnot : ¬ UsesThree (⟨.adaptive, "", 40, ""⟩ :: ofKind .adaptive signals) := by
    intro huses
    obtain ⟨_, second, _, _, heq, hlt⟩ := usesThree_iff.mp huses
    obtain ⟨rfl, htail⟩ := List.cons.inj heq
    have hsecond := hnonneg.ofKind .adaptive second (by rw [htail]; exact .head _)
    unfold maxAdaptivePoints at hlt
    dsimp only at hlt
    omega
  obtain ⟨given, hgiven, hbacked⟩ := scoreOf_eq_some hnonneg hworth
  obtain ⟨given', hgiven', hunbacked⟩ := scoreOf_eq_some hnonneg' hworth
  rw [backed_of_no_hard hhard] at hbacked
  rw [backed_of_no_hard hhard', hadaptive] at hunbacked
  obtain rfl := (hbacked.resolve_right fun hout => hout.1 hthree).2
  obtain rfl := (hunbacked.resolve_left fun hin => hnot hin.1).2
  have hfirst := Option.some.inj (hscore.symm.trans hgiven)
  have hlast := Option.some.inj (hscore'.symm.trans hgiven')
  rw [base_of_no_hard hhard] at hfirst
  rw [List.nil_append] at hscore'
  rw [base_of_no_hard hhard', deducted_cons, if_neg (by decide), adaptivePoints, hadaptive,
    total_cons] at hlast
  have hmem := llmWorth_mem hworth
  have hdeducted := deducted_nonneg signals
  unfold clamp adaptivePoints maxAdaptivePoints at *
  unfold maxLlmPoints at hmem
  dsimp only at hlast
  omega

end

/-- Signals in another order have the same score. -/
theorem order_of_safe (hnonneg : Nonneg signals)
    (hworth : llmWorth round25 llmConfidence = some worth) (hsafe : BonusSafe signals worth)
    {signals' : List EvidenceSignal} (hperm : signals'.Perm signals) :
    ∃ score, scoreOf round25 signals llmConfidence = some score ∧
      scoreOf round25 signals' llmConfidence = some score := by
  obtain ⟨given, hgiven, hbacked⟩ := scoreOf_eq_some hnonneg hworth
  obtain ⟨given', hgiven', hbacked'⟩ := scoreOf_eq_some (hnonneg.perm hperm) hworth
  refine ⟨_, hgiven, hgiven'.trans (congrArg some ?_)⟩
  rw [base_perm hperm (hnonneg.perm hperm), deducted_perm hperm]
  by_cases hsame : given' = given
  · rw [hsame]
  -- the two orders differ in the bonus, so it hangs on the adaptive signals in use
  have hhard : ofKind .hard signals = [] := by
    by_contra hhard
    have hhard' : ofKind .hard signals' ≠ [] := fun hnil =>
      hhard ((hnil ▸ ofKind_perm .hard hperm.symm).eq_nil)
    have hgives := (hbacked.resolve_right fun hout => hout.1 (.inl hhard)).2
    have hgives' := (hbacked'.resolve_right fun hout => hout.1 (.inl hhard')).2
    exact hsame (hgives'.trans hgives.symm)
  have hhard' : ofKind .hard signals' = [] := (hhard ▸ ofKind_perm .hard hperm).eq_nil
  have hpos : worth ≠ 0 := by
    rintro rfl
    have hgives : given = 0 := hbacked.elim And.right And.right
    have hgives' : given' = 0 := hbacked'.elim And.right And.right
    exact hsame (hgives'.trans hgives.symm)
  rw [backed_of_no_hard hhard] at hbacked
  rw [backed_of_no_hard hhard'] at hbacked'
  have hadaptive := (ofKind_perm .adaptive hperm).symm
  have hmatters : OrderMatters (ofKind .adaptive signals) := by
    rcases hbacked with ⟨huses, rfl⟩ | ⟨hnot, rfl⟩
    · rcases hbacked' with ⟨-, rfl⟩ | ⟨hnot, -⟩
      · exact absurd rfl hsame
      · exact orderMatters_of (List.Perm.refl _) hadaptive huses hnot
    · rcases hbacked' with ⟨huses, -⟩ | ⟨-, rfl⟩
      · exact orderMatters_of hadaptive (List.Perm.refl _) huses hnot
      · exact absurd rfl hsame
  obtain ⟨first, second, rest, hfullPerm, hfull⟩ := hmatters.full
  have hceiling : adaptivePoints signals = maxAdaptivePoints :=
    min_eq_left (total_of_full (hnonneg.ofKind _) hfullPerm hfull)
  have hdeducted := (hsafe.resolve_left hpos).resolve_left (not_not.mpr hhard) |>.1 hmatters
  have hgives : given ≤ worth ∧ given' ≤ worth := by
    have hmem := llmWorth_mem hworth
    rcases hbacked with ⟨-, rfl⟩ | ⟨-, rfl⟩ <;> rcases hbacked' with ⟨-, rfl⟩ | ⟨-, rfl⟩ <;> omega
  rw [base_of_no_hard hhard, hceiling]
  unfold clamp
  omega

section

variable {before after : List EvidenceSignal} (hnonneg : Nonneg (before ++ after))
  (hworth : llmWorth round25 llmConfidence = some worth)
include hnonneg hworth

/-- More evidence does not lower a score. -/
theorem evidence_of_safe (hsafe : BonusSafe (before ++ after) worth) {signal : EvidenceSignal}
    (hpoints : 0 ≤ signal.points) (hkind : signal.kind ≠ .penalty) :
    ∃ score score', scoreOf round25 (before ++ after) llmConfidence = some score ∧
      scoreOf round25 (before ++ signal :: after) llmConfidence = some score' ∧ score ≤ score' := by
  have hmore := hnonneg.insert hpoints
  obtain ⟨given, hgiven, hbacked⟩ := scoreOf_eq_some hnonneg hworth
  obtain ⟨given', hgiven', hbacked'⟩ := scoreOf_eq_some hmore hworth
  refine ⟨_, _, hgiven, hgiven', ?_⟩
  have hbase : base (before ++ after) ≤ base (before ++ signal :: after) := by
    rw [base_perm List.perm_middle hmore]
    exact base_cons_le hpoints _
  have hdeducted : deducted (before ++ signal :: after) = deducted (before ++ after) := by
    rw [deducted_perm List.perm_middle, deducted_cons, if_neg hkind]
  rw [hdeducted]
  have hmem := llmWorth_mem hworth
  rcases hbacked' with ⟨-, rfl⟩ | ⟨hnot', rfl⟩
  · have hgives : given ≤ given' := by
      rcases hbacked with ⟨-, rfl⟩ | ⟨-, rfl⟩
      · exact le_rfl
      · exact hmem.1
    unfold clamp
    omega
  rcases hbacked with ⟨hin, rfl⟩ | ⟨-, rfl⟩
  swap
  · unfold clamp
    omega
  -- the signal has put the bonus out: it is adaptive, and the ceiling is reached
  have hhard' : ofKind .hard (before ++ signal :: after) = [] := by
    by_contra hhard
    exact hnot' (.inl hhard)
  have hne : signal.kind ≠ .hard := by
    intro heq
    have hmem : signal ∈ ofKind .hard (before ++ signal :: after) :=
      List.mem_filter.mpr ⟨List.mem_append_right _ (.head _), decide_eq_true heq⟩
    rw [hhard'] at hmem
    cases hmem
  have hhard : ofKind .hard (before ++ after) = [] := by
    rw [← ofKind_insert_of_ne hne]
    exact hhard'
  rw [backed_of_no_hard hhard] at hin
  rw [backed_of_no_hard hhard'] at hnot'
  have hlength : 3 ≤ (ofKind .adaptive (before ++ signal :: after)).length := by
    obtain ⟨_, _, _, _, heq, -⟩ := usesThree_iff.mp hin
    have hmiddle : (before ++ signal :: after).Perm (signal :: (before ++ after)) :=
      List.perm_middle
    rw [(ofKind_perm .adaptive hmiddle).length_eq, ofKind_cons]
    split
    · rw [heq]
      simp
    · rw [heq]
      simp
  obtain ⟨first, second, rest, heq, hfull⟩ := full_of_not_usesThree hlength hnot'
  have hceiling : adaptivePoints (before ++ signal :: after) = maxAdaptivePoints :=
    min_eq_left (total_of_full (hmore.ofKind _) (List.Perm.of_eq heq) hfull)
  rw [base_of_no_hard hhard, base_of_no_hard hhard', hceiling]
  rcases hsafe with rfl | hsome | ⟨-, hsafe⟩
  · have : adaptivePoints (before ++ after) ≤ maxAdaptivePoints := min_le_left _ _
    unfold clamp
    omega
  · exact absurd hhard hsome
  · have hgone := hsafe hin
    unfold clamp
    omega

/-- Penalties do not raise a score. -/
theorem penalty_of_worth {signal : EvidenceSignal} (hpoints : 0 ≤ signal.points)
    (hkind : signal.kind = .penalty) :
    ∃ score score', scoreOf round25 (before ++ after) llmConfidence = some score ∧
      scoreOf round25 (before ++ signal :: after) llmConfidence = some score' ∧ score' ≤ score := by
  have hmore := hnonneg.insert hpoints
  obtain ⟨given, hgiven, hbacked⟩ := scoreOf_eq_some hnonneg hworth
  obtain ⟨given', hgiven', hbacked'⟩ := scoreOf_eq_some hmore hworth
  refine ⟨_, _, hgiven, hgiven', ?_⟩
  have hsame : Backed (before ++ signal :: after) ↔ Backed (before ++ after) := by
    unfold Backed
    rw [ofKind_insert_of_ne (by rw [hkind]; decide), ofKind_insert_of_ne (by rw [hkind]; decide)]
  have hgives : given' = given := by
    rw [hsame] at hbacked'
    rcases hbacked with ⟨hin, rfl⟩ | ⟨hout, rfl⟩
    · exact (hbacked'.resolve_right fun h => h.1 hin).2
    · exact (hbacked'.resolve_left fun h => hout h.1).2
  have hdeducted : deducted (before ++ after) ≤ deducted (before ++ signal :: after) := by
    rw [deducted_perm List.perm_middle, deducted_cons, if_pos hkind]
    have := abs_nonneg signal.points
    omega
  rw [base_perm List.perm_middle hmore, base_cons_penalty hkind, hgives]
  unfold clamp
  omega

end

/-- **Steady scores.** The score of the signals is steady exactly when the points of the model have
a value and the bonus is safe. -/
theorem accumulateConfidence_steady_iff {F : Type} [Floating F] (round25 : F → Option Int)
    (signals : List EvidenceSignal) (llmConfidence : Option F)
    (hnonneg : ∀ signal ∈ signals, 0 ≤ signal.points) :
    Steady round25 signals llmConfidence ↔
      ∃ worth, llmWorth round25 llmConfidence = some worth ∧ BonusSafe signals worth := by
  constructor
  · intro h
    obtain ⟨worth, hworth⟩ := h.exists_worth hnonneg
    refine ⟨worth, hworth, or_iff_not_imp_left.mpr fun hpos => or_iff_not_imp_left.mpr ?_⟩
    intro hhard
    have hhard := not_not.mp hhard
    exact ⟨h.deducted_of_orderMatters hnonneg hworth hpos hhard,
      h.deducted_of_usesThree hnonneg hworth hhard⟩
  · rintro ⟨worth, hworth, hsafe⟩
    constructor
    · intro signals' hperm
      exact order_of_safe hnonneg hworth hsafe hperm
    · rintro before signal after rfl hpoints hkind
      exact evidence_of_safe hnonneg hworth hsafe hpoints hkind
    · rintro before signal after rfl hpoints hkind
      exact penalty_of_worth hnonneg hworth hpoints hkind
    · intro result hresult code
      obtain ⟨hlow, hhigh⟩ := score_bounded hresult
      exact applyDepartmentFloor_conflict_le hlow hhigh code
    · intro result hresult code hasConflict
      obtain ⟨hlow, hhigh⟩ := score_bounded hresult
      exact le_applyDepartmentFloor hlow hhigh code hasConflict
    · intro result hresult code hcode
      obtain ⟨hlow, hhigh⟩ := score_bounded hresult
      exact applyDepartmentFloor_leadership hlow hhigh hcode

end Score

/-- `round(float(x) * 25)` on a number that is exact. -/
def round25Rat (confidence : ℚ) : Option Int := some (Floating.roundHalfEven (confidence * 25))

def cluster (points : Int) : EvidenceSignal := ⟨.adaptive, "cluster", points, ""⟩

/-- With a mailbox that is known exactly the bonus hangs on nothing else. -/
theorem accumulateConfidence_steady_mailbox :
    Steady round25Rat (⟨.hard, "exact_mailbox", 55, ""⟩ ::
      [cluster 10, cluster 15, cluster 15, cluster 40]) (some (1 / 2 : ℚ)) :=
  (accumulateConfidence_steady_iff round25Rat _ _ (by decide)).mpr
    ⟨12, by decide +kernel, .inr (.inl (by decide))⟩

/-- A strong signal in front of the weak ones puts the bonus out: the score is 40 and not 52. -/
theorem accumulateConfidence_depends_on_order :
    ¬ Steady round25Rat [cluster 10, cluster 15, cluster 15, cluster 40] (some (1 / 2 : ℚ)) := by
  intro h
  obtain ⟨score, hscore, hscore'⟩ := h.order [cluster 40, cluster 10, cluster 15, cluster 15]
    (by decide)
  have hback : scoreOf round25Rat [cluster 10, cluster 15, cluster 15, cluster 40]
      (some (1 / 2 : ℚ)) = some 52 := by decide +kernel
  have hfront : scoreOf round25Rat [cluster 40, cluster 10, cluster 15, cluster 15]
      (some (1 / 2 : ℚ)) = some 40 := by decide +kernel
  rw [hback] at hscore
  rw [hfront] at hscore'
  cases hscore
  cases hscore'

end AgentBack.Mail.Routing
