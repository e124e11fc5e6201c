import AgentBack.Mail.Routing.Decision
import Mathlib.Data.List.MinMax

/-!
# The score of a department (`agent_pochta/routing/evidence.py`)

`accumulateConfidence` adds up the signals for a department, some of them under a ceiling, and
`applyDepartmentFloor` lifts the score to the gate of a department that has hard evidence. The
confidence of the model is a floating point number; its points, `round(float(x) * 25)`, are a
parameter, with no value where the product is not finite.
-/

namespace AgentBack.Mail.Routing

open Text (strip)

def maxConfirmPoints : Int := 30

def maxAdaptivePoints : Int := 40

def maxLlmPoints : Int := 25

inductive SignalClass where
  | hard
  | adaptive
  | penalty
  deriving DecidableEq

structure EvidenceSignal where
  kind : SignalClass
  key : String
  points : Int
  label : String
  deriving DecidableEq

structure EvidenceResult where
  score : Int
  level : ConfidenceLevel
  hardCount : Nat
  adaptiveCount : Nat
  hardForeign : Bool
  signals : List EvidenceSignal
  notes : List String
  deriving DecidableEq

def clamp (score : Int) : Int := max 0 (min 100 score)

/-! ## The signals of a kind -/

def EvidenceSignal.startsWith (start : String) (signal : EvidenceSignal) : Bool :=
  start.toList.isPrefixOf signal.key.toList

/-- `s.key in {"exact_mailbox", "learned_hard"}`. -/
def EvidenceSignal.isNamed (signal : EvidenceSignal) : Bool :=
  signal.key = "exact_mailbox" ∨ signal.key = "learned_hard"

def EvidenceSignal.isCascade (signal : EvidenceSignal) : Bool := signal.startsWith "cascade_"

def EvidenceSignal.isConfirm (signal : EvidenceSignal) : Bool := signal.startsWith "confirm_"

def ofKind (kind : SignalClass) (signals : List EvidenceSignal) : List EvidenceSignal :=
  signals.filter fun signal => signal.kind = kind

def otherHard (hard : List EvidenceSignal) : List EvidenceSignal :=
  hard.filter fun signal => !signal.isNamed && !signal.isCascade && !signal.isConfirm

def total (signals : List EvidenceSignal) : Int := (signals.map (·.points)).sum

/-- The points that a loop with a ceiling has given, and for what. -/
structure Capped where
  points : Int
  used : List EvidenceSignal

/-- The loops over the confirming and over the adaptive signals: each adds up to the ceiling, and
they stop when it is reached. -/
def capped (ceiling : Int) (kind : SignalClass) : Capped → List EvidenceSignal → Capped
  | s, [] => s
  | s, signal :: rest =>
    if ceiling ≤ s.points then s
    else
      let add := min signal.points (ceiling - s.points)
      capped ceiling kind ⟨s.points + add, s.used ++ [⟨kind, signal.key, add, signal.label⟩]⟩ rest

section
variable {F : Type} [Floating F] (round25 : F → Option Int)

structure Bonus where
  points : Int
  used : List EvidenceSignal
  notes : List String

/-- `min(MAX_LLM_POINTS, max(0, round(float(llm_confidence) * 25)))`. -/
def llmPoints (confidence : F) : Option Int :=
  (round25 confidence).map fun points => min maxLlmPoints (max 0 points)

/-- The block of `llm_confidence`. -/
def llmBonus (hardCount adaptiveCount : Nat) (llmConfidence : Option F) : Option Bonus :=
  match llmConfidence with
  | none => some ⟨0, [], []⟩
  | some confidence =>
    if Floating.positive confidence then
      if 1 ≤ hardCount ∨ 3 ≤ adaptiveCount then
        (llmPoints round25 confidence).map fun points =>
          if points = 0 then ⟨0, [], []⟩
          else ⟨points, [⟨.adaptive, "llm", points, "llm=" ++ Floating.fixed 2 confidence⟩],
            ["llm=+" ++ toString points]⟩
      else some ⟨0, [], ["llm_skipped_no_evidence"]⟩
    else some ⟨0, [], []⟩

def hardUnits (hard : List EvidenceSignal) : Nat :=
  (if hard.any fun signal => signal.key = "exact_mailbox" then 1 else 0) +
    (if hard.any fun signal => signal.key = "learned_hard" then 1 else 0) +
    (if hard.any fun signal => signal.isCascade then 1 else 0) +
    (if hard.any fun signal => signal.isConfirm then 1 else 0) + (otherHard hard).length

def hardForeign (hard : List EvidenceSignal) : Bool :=
  hard.any fun signal =>
    signal.key = "cascade_foreign" ∨ signal.key = "hard_foreign" ∨
      signal.key = "confirm_foreign_domain"

def accumulateConfidence (signals : List EvidenceSignal) (llmConfidence : Option F) :
    Option EvidenceResult :=
  let hard := ofKind .hard signals
  let penalties := ofKind .penalty signals
  let named := hard.filter (·.isNamed)
  -- `max(cascades, key=lambda s: s.points)`, the first of the strongest
  let best := @List.argmax _ Int Int.instLinearOrder.toPreorder _ (·.points) (hard.filter (·.isCascade))
  let confirm := capped maxConfirmPoints .hard ⟨0, []⟩ (hard.filter (·.isConfirm))
  let other := otherHard hard
  let adaptive := capped maxAdaptivePoints .adaptive ⟨0, []⟩ (ofKind .adaptive signals)
  let hardCount := hardUnits hard
  let adaptiveCount := adaptive.used.length
  (llmBonus round25 hardCount adaptiveCount llmConfidence).map fun bonus =>
    let score := total named + best.elim 0 (·.points) + confirm.points + total other +
      adaptive.points + bonus.points - (penalties.map fun signal => |signal.points|).sum
    { score := clamp score
      level := scoreToLevel (clamp score)
      hardCount
      adaptiveCount
      hardForeign := hardForeign hard
      signals := named ++ best.toList ++ confirm.used ++ other ++ adaptive.used ++ bonus.used ++
        penalties
      notes := (best.toList.map fun signal =>
          "hard_cascade=" ++ signal.key ++ ":" ++ toString signal.points) ++
        (if confirm.points = 0 then [] else ["confirm=" ++ toString confirm.points]) ++
        (if adaptive.points = 0 then []
          else ["adaptive=" ++ toString adaptive.points ++ "/" ++ toString adaptiveCount]) ++
        bonus.notes ++
        penalties.map fun signal =>
          "penalty=" ++ signal.key ++ ":-" ++ toString |signal.points| }

end

/-- The gate that hard evidence lifts the score of a department to, with its note. -/
def hardFloor (code : String) (hardForeign : Bool) (score : Int) : Option (Int × String) :=
  if code = chairmanDepartmentCode ∧ score < gateChairman then
    some (gateChairman, "floor_chairman_hard")
  else if code = odDepartmentCode ∧ score < gateOd then some (gateOd, "floor_od_hard")
  else if code = vedDepartmentCode ∧ hardForeign ∧ score < gateVed then
    some (gateVed, "floor_ved_hard_foreign")
  else none

def applyDepartmentFloor (result : EvidenceResult) (departmentCode : String)
    (hasConflict : Bool) : EvidenceResult :=
  let code := strip departmentCode
  if hasConflict ∧ (code = chairmanDepartmentCode ∨ code = odDepartmentCode) then
    { result with
      level := scoreToLevel result.score
      notes := result.notes ++ ["no_floor_due_to_conflict"] }
  else
    let lifted := if 1 ≤ result.hardCount then hardFloor code result.hardForeign result.score else none
    let score := clamp (lifted.elim result.score Prod.fst)
    { result with
      score
      level := scoreToLevel score
      notes := result.notes ++ (lifted.map Prod.snd).toList }

end AgentBack.Mail.Routing
