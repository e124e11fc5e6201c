import AgentBack.Laws.Mail.Routing.Node

/-!
# What the model may choose

The gateway's contract is one department of the candidates, and the empty answer falls back on the
first of them. A department that the model makes up is not compared with the candidates, so it is
routed to whenever its answer is taken and both checks pass.
-/

namespace AgentBack.Mail.Routing

variable {F : Type} [Floating F] {lower ruleDirection : String → String}

/-- The departments that do not come from the model: the one of the rules, the candidates that are
offered, the winner of the corrections and the hint of the kind. -/
def NodeInput.known (i : NodeInput F) : List String :=
  i.primaryCode ::
    (i.search.elim [] fun r =>
      r.llmCandidates.map Candidate.departmentId ++ r.bgeDeptCorrectId.toList) ++
    i.priorityDecision.primaryDepartmentCodes.head?.toList

/-- Every routing without an operator goes to a known department. -/
def Contained (lower ruleDirection : String → String) (i : NodeInput F) : Prop :=
  ∀ patch routing, nodeRouteDepartment lower ruleDirection i = some patch →
    patch.humanReview = false → patch.routing = some routing → routing.departmentId ∈ i.known

/-- The model's answer is taken, names an unknown department that no hint replaces, and passes both
checks. -/
structure Invented (i : NodeInput F) (r : Retrieval F) (answer : RoutingResult F)
    (spam : Option (SpamResult F)) : Prop where
  search : i.search = some r
  taken : r.ragUsed = true
  read : i.reading r = some (answer, spam)
  notRestored : i.restoredFromSpam = false
  notReanalyzed : i.reanalyze = false
  notSpam : i.hardSpam spam = none
  unknown : answer.departmentId ∉ i.known
  noHint : i.hint answer.departmentId = none
  passes : Passes i true ((Origin.model answer).verdict i)

/-! ## Known departments -/

omit [Floating F] in
theorem given_eq_some {value : Option String} {text : String} (h : given value = some text) :
    value = some text :=
  (Option.filter_eq_some_iff.mp h).1

theorem primaryCode_known (i : NodeInput F) : i.primaryCode ∈ i.known :=
  List.mem_append_left _ (.head _)

variable {i : NodeInput F} {r : Retrieval F} {spam : Option (SpamResult F)}

theorem hint_known {department hint : String}
    (h : i.hint department = some hint) : hint ∈ i.known := by
  unfold NodeInput.hint at h
  split_ifs at h
  apply List.mem_append_right
  rw [h]
  exact List.mem_singleton_self hint

theorem winner_known {winner : String} {score : F}
    (hsearch : i.search = some r) (h : r.startOrigin = .corrections winner score) :
    winner ∈ i.known := by
  have hwinner : r.bgeDeptCorrectId = some winner := by
    unfold Retrieval.startOrigin at h
    split at h
    · next hgiven =>
      cases h
      exact given_eq_some hgiven
    · cases h
  apply List.mem_append_left
  apply List.mem_cons_of_mem
  rw [hsearch]
  apply List.mem_append_right
  rw [hwinner]
  exact List.mem_singleton_self winner

/-- A hint is known, so a verdict is known when its department before the hint is. -/
theorem hinted_known {verdict : Verdict F}
    (h : i.hint verdict.departmentId = none → verdict.departmentId ∈ i.known) :
    (i.hintedVerdict verdict).departmentId ∈ i.known := by
  unfold NodeInput.hintedVerdict
  cases hhint : i.hint verdict.departmentId with
  | none => exact h hhint
  | some hint => exact hint_known hhint

/-- Without foreign evidence no verdict passes the gate of foreign trade. -/
theorem not_passes_ved {ragUsed : Bool} {verdict : Verdict F}
    (hved : verdict.departmentId = vedDepartmentCode) (hforeign : i.hardForeign = false) :
    ¬ Passes i ragUsed verdict := by
  intro h
  obtain ⟨percent, minPct, _, _, haccepts⟩ := h.gate
  have hcode : Text.strip verdict.departmentId = vedDepartmentCode := by
    rw [hved]
    decide +kernel
  have := haccepts.foreign hcode
  rw [NodeInput.evidence, hforeign] at this
  cases this

/-- The check on foreign trade keeps a known department, and what it keeps of another one does not
pass the gate. -/
theorem checked_known {ragUsed : Bool} {verdict : Verdict F}
    (h : verdict.departmentId ∈ i.known ∨ i.checkedVerdict verdict ≠ verdict)
    (hpasses : Passes i ragUsed (i.hintedVerdict (i.checkedVerdict verdict))) :
    (i.hintedVerdict (i.checkedVerdict verdict)).departmentId ∈ i.known := by
  apply hinted_known
  intro hhint
  unfold NodeInput.checkedVerdict at h hhint hpasses ⊢
  split_ifs at h hhint hpasses ⊢ with hrefused hfallback
  · exact primaryCode_known i
  · -- the department of foreign trade stays, and no hint replaces it
    exfalso
    apply not_passes_ved (i := i) _ hrefused.2 hpasses
    unfold NodeInput.hintedVerdict
    dsimp only at hhint ⊢
    rw [hhint]
    exact hrefused.1
  · rcases h with h | h
    · exact h
    · exact absurd rfl h

theorem bgeRetrieval_ragUsed (i : NodeInput F) (hused : i.bgeRetrieval.ragUsed = true) :
    i.bgeRetrieval.bgeDirect = false := by
  unfold NodeInput.bgeRetrieval at hused ⊢
  dsimp only at hused ⊢
  generalize Option.any _ i.prediction.score = direct at hused ⊢
  cases direct with
  | true => cases hused
  | false => rfl

omit [Floating F] in
theorem ragRetrieval_bgeDirect (i : NodeInput F) (note : String) :
    (i.ragRetrieval note).bgeDirect = false := by
  unfold NodeInput.ragRetrieval
  split <;> rfl

/-- The model is asked about the candidates or the winner is taken, never both. -/
theorem search_ragUsed (hsearch : i.search = some r)
    (hused : r.ragUsed = true) : r.bgeDirect = false := by
  obtain ⟨fallback, _, rfl⟩ := Option.map_eq_some_iff.mp hsearch
  unfold NodeInput.retrieve at hused ⊢
  split_ifs at hused ⊢
  · exact bgeRetrieval_ragUsed i hused
  · exact ragRetrieval_bgeDirect i _
  · exact ragRetrieval_bgeDirect i _
  · rfl

/-- An automatic letter takes the model's answer exactly when it was asked about the candidates. -/
theorem origin_model_iff (hsearch : i.search = some r)
    (hrestored : i.restoredFromSpam = false) (hreanalyze : i.reanalyze = false)
    (answer : RoutingResult F) (spam : Option (SpamResult F)) :
    i.origin r = some (.model answer, spam) ↔
      r.ragUsed = true ∧ i.reading r = some (answer, spam) := by
  have hstart : r.startOrigin ≠ .model answer := by
    intro h
    unfold Retrieval.startOrigin at h
    split at h <;> cases h
  have happly : i.applyLlmRouting r = r.ragUsed := by
    unfold NodeInput.applyLlmRouting
    rw [hrestored, hreanalyze]
    cases hused : r.ragUsed with
    | true =>
      rw [search_ragUsed hsearch hused]
      rfl
    | false => rfl
  unfold NodeInput.origin
  rw [happly]
  cases r.ragUsed with
  | true =>
    simp only [if_true, true_and]
    cases i.reading r with
    | none => simp
    | some read =>
      obtain ⟨found, seen⟩ := read
      cases i.useLlmAnalyze <;> simp
  | false =>
    simp only [Bool.false_eq_true, if_false, false_and, iff_false]
    cases i.useLlmAnalyze with
    | true =>
      simp only [if_true]
      intro h
      obtain ⟨read, _, hread⟩ := Option.map_eq_some_iff.mp h
      exact hstart (Prod.mk.inj hread).1
    | false =>
      simp only [Bool.false_eq_true, if_false, Option.some.injEq, Prod.mk.injEq]
      intro h
      exact hstart h.1

/-- An origin is the model's answer or the one before it is asked. -/
theorem origin_cases {origin : Origin F} (h : i.origin r = some (origin, spam)) :
    origin = r.startOrigin ∨ ∃ answer, origin = .model answer := by
  unfold NodeInput.origin at h
  split_ifs at h
  · obtain ⟨read, _, hread⟩ := Option.map_eq_some_iff.mp h
    exact .inr ⟨read.1, (Prod.mk.inj hread).1.symm⟩
  · obtain ⟨read, _, hread⟩ := Option.map_eq_some_iff.mp h
    exact .inl (Prod.mk.inj hread).1.symm
  · obtain ⟨read, _, hread⟩ := Option.map_eq_some_iff.mp h
    exact .inr ⟨read.1, (Prod.mk.inj hread).1.symm⟩
  · exact .inl (Prod.mk.inj (Option.some.inj h)).1.symm

theorem start_known (hsearch : i.search = some r) :
    (r.startOrigin.verdict i).departmentId ∈ i.known := by
  cases hstart : r.startOrigin with
  | rules => exact primaryCode_known i
  | corrections winner score => exact winner_known hsearch hstart
  | model answer =>
    unfold Retrieval.startOrigin at hstart
    split at hstart <;> cases hstart

/-- An unknown department of an automatic letter is one that the model made up. -/
theorem invented_of_automatic {origin : Origin F} (h : Automatic i r origin spam)
    (hunknown : (origin.finalVerdict i).departmentId ∉ i.known) :
    ∃ answer, Invented i r answer spam := by
  have hpasses := h.passes
  have hverdict : (origin.verdict i).departmentId ∉ i.known ∧
      i.checkedVerdict (origin.verdict i) = origin.verdict i := by
    constructor
    · intro hknown
      exact hunknown (checked_known (.inl hknown) hpasses)
    · by_contra hchanged
      exact hunknown (checked_known (.inr hchanged) hpasses)
  obtain ⟨hother, hkept⟩ := hverdict
  have hhint : i.hint (origin.verdict i).departmentId = none := by
    by_contra hsome
    obtain ⟨hint, hhint⟩ := Option.ne_none_iff_exists'.mp hsome
    apply hunknown
    unfold Origin.finalVerdict NodeInput.hintedVerdict
    rw [hkept, hhint]
    exact hint_known hhint
  have hfinal : origin.finalVerdict i = origin.verdict i := by
    unfold Origin.finalVerdict NodeInput.hintedVerdict
    rw [hkept, hhint]
    rfl
  rw [hfinal] at hpasses
  rcases origin_cases h.chosen with rfl | ⟨answer, rfl⟩
  · exact absurd (start_known h.search) hother
  · obtain ⟨htaken, hread⟩ :=
      (origin_model_iff h.search h.notRestored h.notReanalyzed answer spam).mp h.chosen
    rw [htaken] at hpasses
    exact ⟨answer, h.search, htaken, hread, h.notRestored, h.notReanalyzed, h.notSpam, hother, hhint,
      hpasses⟩

/-- A made up department that passes is routed to. -/
theorem Invented.automatic {answer : RoutingResult F} (h : Invented i r answer spam) :
    Automatic i r (.model answer) spam ∧
      ((Origin.model answer).finalVerdict i).departmentId = answer.departmentId := by
  have hkept : i.checkedVerdict ((Origin.model answer).verdict i) =
      (Origin.model answer).verdict i := by
    unfold NodeInput.checkedVerdict
    rw [if_neg]
    intro hrefused
    exact not_passes_ved hrefused.1 hrefused.2 h.passes
  have hfinal : (Origin.model answer).finalVerdict i = (Origin.model answer).verdict i := by
    unfold Origin.finalVerdict NodeInput.hintedVerdict
    rw [hkept]
    have hhint : i.hint ((Origin.model answer).verdict i).departmentId = none := h.noHint
    rw [hhint]
    rfl
  have hchosen := (origin_model_iff h.search h.notRestored h.notReanalyzed answer spam).mpr
    ⟨h.taken, h.read⟩
  constructor
  · refine ⟨h.search, hchosen, h.notRestored, h.notReanalyzed, h.notSpam, ?_⟩
    rw [hfinal, h.taken]
    exact h.passes
  · rw [hfinal]
    rfl

theorem Invented.not_contained {answer : RoutingResult F} (h : Invented i r answer spam) :
    ¬ Contained lower ruleDirection i := by
  intro hcontained
  obtain ⟨hautomatic, hdepartment⟩ := h.automatic
  obtain ⟨patch, routing, hnode, hhuman, hrouting, hshows⟩ :=
    automatic_routed lower ruleDirection hautomatic
  have hknown := hcontained patch routing hnode hhuman hrouting
  rw [hshows.department, hdepartment] at hknown
  exact h.unknown hknown

/-- **What the model may choose.** Every routing without an operator goes to a known department if
and only if the model made none up that passes. -/
theorem contained_iff (i : NodeInput F) :
    Contained lower ruleDirection i ↔ ¬ ∃ r answer spam, Invented i r answer spam := by
  constructor
  · intro hcontained hinvented
    obtain ⟨r, answer, spam, hinvented⟩ := hinvented
    exact hinvented.not_contained hcontained
  · intro hnone patch routing hnode hhuman hrouting
    by_contra hunknown
    obtain ⟨r, origin, spam, hautomatic, hshows⟩ := routed_automatic hnode hhuman hrouting
    rw [hshows.department] at hunknown
    obtain ⟨answer, hinvented⟩ := invented_of_automatic hautomatic hunknown
    exact hnone ⟨r, answer, spam, hinvented⟩

/-- A letter on which two rules disagree, one candidate, and an answer that is not it. -/
def conflictLetter : NodeInput ℚ :=
  { plainLetter with
    routed := { plainLetter.routed with hasConflict := true }
    llm := .chatCompletions
      { items := [("is_spam", .bool false), ("spam_confidence", .float 0.05 "0.05"),
          ("department_id", .text "00-000777" none), ("dept_confidence", .float 0.9 "0.9")]
        nodup := by decide } }

/-- The answered department is no candidate, and the letter goes there without an operator. -/
theorem contained_invented_fails :
    ¬ Contained Text.lowerRu id conflictLetter := by
  have hinvented : Invented conflictLetter (conflictLetter.ragRetrieval "route_department_rag")
      (RoutingResult.of "00-000777" "" 0.9 "")
      (some { isSpam := false, confidence := 0.05, reason := "", ruleHit := none }) :=
    { search := rfl
      taken := rfl
      read := by decide +kernel
      notRestored := rfl
      notReanalyzed := rfl
      notSpam := by decide +kernel
      unknown := by decide +kernel
      noHint := by decide +kernel
      passes :=
        { review := .inl ⟨rfl, by decide +kernel⟩
          gate := by
            refine ⟨90, 70, by decide +kernel, by decide +kernel, ?_⟩
            constructor
            · decide +kernel
            · intro h
              revert h
              decide +kernel
            · intro h
              revert h
              decide +kernel
            · intro h
              revert h
              decide +kernel } }
  exact hinvented.not_contained

end AgentBack.Mail.Routing
