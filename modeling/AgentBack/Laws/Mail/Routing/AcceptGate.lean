import AgentBack.Laws.Mail.Routing.Node

/-!
# Whose evidence lets a department through

The gate takes the greater of two scores and one pair of counts, whichever department they were
computed for. The score and the counts of the decision were computed for the department of the
rules, the confidence of a routing for the department of its verdict.
-/

namespace AgentBack.Mail.Routing

open Text (strip)

variable {F : Type} [Floating F] {lower ruleDirection : String → String}

/-! ## Evidence of one's own -/

def SameDepartment (a b : String) : Prop := strip a = strip b

instance (a b : String) : Decidable (SameDepartment a b) :=
  inferInstanceAs (Decidable (_ = _))

variable (i : NodeInput F)

/-- The department that the confidence of the final routing was given for. -/
def NodeInput.judgedFor : Option String :=
  i.search.bind fun r => (i.origin r).map fun origin => (origin.1.finalVerdict i).judgedFor

def NodeInput.ownScores (department : String) (confidence : F) (judgedFor : String) : List Int :=
  (if SameDepartment judgedFor department then (Floating.percent confidence).toList else []) ++
    if SameDepartment i.primaryCode department then [i.routed.confidenceScore] else []

/-- The evidence of a department with a score: the signals count for the department of the rules. -/
def NodeInput.ownEvidence (department : String) (score : Int) : Evidence :=
  if SameDepartment i.primaryCode department then i.evidence score
  else { i.evidence score with hardCount := 0, adaptiveCount := 0 }

/-- The department passes its gate on a score and on signals that were computed for it. -/
def NodeInput.OwnAccepted (department : String) (confidence : F) (judgedFor : String) : Prop :=
  ∃ score ∈ i.ownScores department confidence judgedFor, ∃ reason,
    departmentConfidenceAccepted department (i.ownEvidence department score)
      (i.settings.defaultMin department) = some (true, reason)

/-- Every routing without an operator passes the gate of its department on evidence of its own. -/
def GateSound (lower ruleDirection : String → String) (i : NodeInput F) : Prop :=
  ∀ patch routing, nodeRouteDepartment lower ruleDirection i = some patch →
    patch.humanReview = false → patch.routing = some routing →
    ∃ judgedFor, i.judgedFor = some judgedFor ∧
      i.OwnAccepted routing.departmentId routing.confidence judgedFor

/-- The evidence belongs to the department: the rules scored it, and their score or a confidence
given for it reaches the minimum, or another department was scored, the gate needs no signals, and
the confidence that reaches the minimum was given for it. -/
def Grounded (verdict : Verdict F) : Prop :=
  ∃ percent minPct, Floating.percent verdict.confidence = some percent ∧
    departmentGateMin verdict.departmentId (i.settings.defaultMin verdict.departmentId) =
      some minPct ∧
    ((SameDepartment i.primaryCode verdict.departmentId ∧
        (SameDepartment verdict.judgedFor verdict.departmentId ∨
          minPct ≤ i.routed.confidenceScore)) ∨
      (¬ SameDepartment i.primaryCode verdict.departmentId ∧
        ¬ GatedLeadership verdict.departmentId ∧
        SameDepartment verdict.judgedFor verdict.departmentId ∧ minPct ≤ percent))

/-! ## The gate on one's own evidence -/

theorem adaptiveNeed_pos (code : String) : 0 < adaptiveNeed code := by
  unfold adaptiveNeed
  split_ifs <;> decide

omit [Floating F] in
/-- The evidence of the rules with another score that reaches the minimum. -/
theorem Accepts.rescore {i : NodeInput F} {code : String} {score other minPct : Int}
    (h : Accepts code (i.evidence score) minPct) :
    Accepts code (i.evidence other) minPct ↔ minPct ≤ other :=
  ⟨fun h => h.score, fun hscore => ⟨hscore, h.conflict, h.signals, h.foreign⟩⟩

omit [Floating F] in
/-- Without signals of its own a department passes when its gate asks for none. -/
theorem Accepts.withoutSignals {i : NodeInput F} {code : String} {score other minPct : Int}
    (h : Accepts code (i.evidence score) minPct) :
    Accepts code { i.evidence other with hardCount := 0, adaptiveCount := 0 } minPct ↔
      ¬ GatedLeadership code ∧ minPct ≤ other := by
  constructor
  · intro hown
    refine ⟨fun hlead => ?_, hown.score⟩
    have := hown.signals hlead
    have := adaptiveNeed_pos code
    simp only at *
    omega
  · intro hown
    exact ⟨hown.2, fun hlead => absurd hlead hown.1, fun hlead => absurd hlead hown.1, h.foreign⟩

/-- A department that passed on what the gate saw passes on its own evidence exactly when the
evidence is grounded. -/
theorem ownAccepted_iff {i : NodeInput F} {ragUsed : Bool} {verdict : Verdict F}
    (h : Passes i ragUsed verdict) :
    i.OwnAccepted verdict.departmentId verdict.confidence verdict.judgedFor ↔
      Grounded i verdict := by
  obtain ⟨percent, minPct, hpercent, hmin, haccepts⟩ := h.gate
  have hreached : minPct ≤ percent ∨ minPct ≤ i.routed.confidenceScore := by
    have := haccepts.score
    simp only [NodeInput.evidence] at this
    omega
  have hown : ∀ score, (∃ reason, departmentConfidenceAccepted verdict.departmentId
      (i.ownEvidence verdict.departmentId score)
      (i.settings.defaultMin verdict.departmentId) = some (true, reason)) ↔
      Accepts verdict.departmentId (i.ownEvidence verdict.departmentId score) minPct := by
    intro score
    rw [departmentConfidenceAccepted_iff, hmin]
    simp only [Option.some.injEq, exists_eq_left']
  unfold NodeInput.OwnAccepted Grounded
  simp only [hown, hpercent, hmin, Option.some.injEq, exists_and_left, exists_eq_left']
  unfold NodeInput.ownScores NodeInput.ownEvidence
  rw [hpercent]
  by_cases hprimary : SameDepartment i.primaryCode verdict.departmentId
  · simp only [hprimary, if_true, haccepts.rescore, true_and, not_true, false_and, or_false]
    by_cases hjudged : SameDepartment verdict.judgedFor verdict.departmentId
    · simp [hjudged, hreached]
    · simp [hjudged]
  · simp only [hprimary, if_false, haccepts.withoutSignals, false_and, not_false_eq_true, true_and,
      false_or, List.append_nil]
    by_cases hjudged : SameDepartment verdict.judgedFor verdict.departmentId
    · simp [hjudged]
    · simp [hjudged]

section

variable {i : NodeInput F} {r : Retrieval F} {origin : Origin F} {spam : Option (SpamResult F)}
  (h : Automatic i r origin spam)
include h

theorem judgedFor_eq :
    i.judgedFor = some (origin.finalVerdict i).judgedFor := by
  unfold NodeInput.judgedFor
  rw [h.search, Option.bind_some, h.chosen, Option.map_some]

/-- The node is sound on an automatic letter exactly when its evidence is grounded. -/
theorem gateSound_iff_grounded :
    GateSound lower ruleDirection i ↔ Grounded i (origin.finalVerdict i) := by
  rw [← ownAccepted_iff h.passes]
  constructor
  · intro hsound
    obtain ⟨patch, routing, hnode, hhuman, hrouting, hshows⟩ :=
      automatic_routed lower ruleDirection h
    obtain ⟨judgedFor, hjudged, haccepted⟩ := hsound patch routing hnode hhuman hrouting
    rw [judgedFor_eq h] at hjudged
    cases hjudged
    rw [hshows.department, hshows.confidence] at haccepted
    exact haccepted
  · intro haccepted patch routing hnode hhuman hrouting
    obtain ⟨r', origin', spam', hautomatic, hshows⟩ := routed_automatic hnode hhuman hrouting
    have hsearch := hautomatic.search
    rw [h.search] at hsearch
    cases hsearch
    have hchosen := hautomatic.chosen
    rw [h.chosen] at hchosen
    cases hchosen
    refine ⟨_, judgedFor_eq h, ?_⟩
    rw [hshows.department, hshows.confidence]
    exact haccepted

end

/-- A letter without a rule: the model is sure of the candidate, and the hint of the kind names a
third department. -/
def reserveLetter : NodeInput ℚ :=
  { plainLetter with
    routed :=
      { plainLetter.routed with
        services := [
          { code := "00-000066", name := "00-000066", process := "рассмотрение"
            reasoning := "reserve", direction := "КС" }]
        matchSource := "reserve", adaptiveSignalCount := 0 }
    llm := .chatCompletions
      { items := [("is_spam", .bool false), ("spam_confidence", .float 0.05 "0.05"),
          ("department_id", .text "00-000063" none), ("dept_confidence", .float 0.9 "0.9")]
        nodup := by decide } }

end AgentBack.Mail.Routing
