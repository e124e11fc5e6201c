import AgentBack.Laws.Quality.Release

/-!
# The runs of quality control

The status that the engineer's agent proposes is the stage of the next run. A case whose documents
are complete and whose inspection is recorded should come to an act or a release. From the stages of
the documents it goes to the inspection, and the inspection asks for its record again, recorded or
not: `progresses_iff` says from which stages a case gets on.
-/

namespace AgentBack.Quality

open Py (Value strOf)

/-- `document[key] = value`. -/
def setKey (key : String) (value : Value) : Value → Value
  | .dict fields => .dict ((key, value) :: fields.filter fun field => field.1 ≠ key)
  | other => other

theorem isDict_setKey (key : String) (value : Value) {document : Value}
    (h : document.isDict = true) : (setKey key value document).isDict = true := by
  cases document with
  | dict _ => rfl
  | _ => cases h

theorem hasKey_setKey_ne {key key' : String} (hne : key' ≠ key) (value document : Value) :
    hasKey key' (setKey key value document) = hasKey key' document := by
  cases document with
  | dict fields =>
    simp only [setKey, hasKey, List.any_cons, decide_eq_false (Ne.symm hne), Bool.false_or,
      List.any_filter]
    refine congrArg₂ List.any rfl (funext fun field => ?_)
    by_cases h : field.1 = key'
    · simp [h, hne]
    · simp [h]
  | _ => rfl

theorem get_setKey_ne {key key' : String} (hne : key' ≠ key) (value document : Value) :
    (setKey key value document).get key' = document.get key' := by
  cases document with
  | dict fields =>
    have hfind : (fields.filter fun field => field.1 ≠ key).find? (fun field => field.1 = key') =
        fields.find? fun field => field.1 = key' := by
      rw [List.find?_filter]
      refine congrArg₂ List.find? (funext fun field => ?_) rfl
      by_cases h : field.1 = key'
      · simp [h, hne]
      · simp [h]
    simp only [setKey, Value.get, List.find?_cons, decide_eq_false (Ne.symm hne), hfind]
  | _ => rfl

theorem get_setKey_self {key : String} (value : Value) {document : Value}
    (h : document.isDict = true) : (setKey key value document).get key = value := by
  cases document with
  | dict fields => simp [setKey, Value.get]
  | _ => cases h

/-- The request of the next run: `_apply_role_agent_result` makes the next status the stage of the
case, and the context of the next run carries it. -/
def nextRequest (request : Request) (out : EngineerOutput) : Request :=
  { request with
    roleContext := setKey "quality_stage" (.str out.nextStatus) request.roleContext
    roleContext_isDict := isDict_setKey _ _ request.roleContext_isDict }

variable (py : Reading)

/-- The case reaches an act or a release within a number of runs. -/
def ReachesWithin : Nat → Request → Prop
  | 0, _ => False
  | n + 1, request => ∃ out, run py request = some out ∧
      (out.nextStatus ∈ ["nonconformity", "quality_released"] ∨
        ReachesWithin n (nextRequest request out))

/-- **Quality control gets on**: after some number of runs there is an act or a release. -/
def Progresses (request : Request) : Prop := ∃ n, ReachesWithin py n request

structure Recorded (request : Request) : Prop where
  complete : docFindings py request = []
  inspected : inspectionComplete request = true
  measured : ((qualityBlob engineerKeys request).get "measured_results").truthy = true
  instruments : ((qualityBlob engineerKeys request).get "instrument_refs").truthy = true
  evidence : ((qualityBlob engineerKeys request).get "evidence_refs").truthy = true

def EarlyStage (request : Request) : Prop :=
  workStage py request ∈ documentStages ∨ workStage py request ∈ inspectionStages

section Stage

variable (request : Request) (out : EngineerOutput)

theorem takeKey_setKey {key : String} (hne : key ≠ "quality_stage") (value document base : Value) :
    takeKey (setKey "quality_stage" value document) base key = takeKey document base key := by
  unfold takeKey
  rw [hasKey_setKey_ne hne, get_setKey_ne hne]

theorem qualityBlob_nextRequest :
    qualityBlob engineerKeys (nextRequest request out) = qualityBlob engineerKeys request := by
  have hkeys : ∀ key ∈ engineerKeys, key ≠ "quality_stage" := by decide
  unfold qualityBlob
  refine List.foldl_ext _ _ _ fun base key hkey => ?_
  exact congrArg (fun base => takeKey request.sourceData base key)
    (takeKey_setKey (hkeys key hkey) _ _ _)

theorem extractContext_nextRequest :
    extractContext py (nextRequest request out) = extractContext py request := by
  have hget : ∀ key, key ≠ "quality_stage" →
      (nextRequest request out).roleContext.get key = request.roleContext.get key :=
    fun key hne => get_setKey_ne hne _ _
  unfold extractContext
  simp only [hget "item_group" (by decide), hget "present_docs" (by decide),
    hget "lot_qty" (by decide), hget "quantity" (by decide), hget "presentation_ref" (by decide),
    hget "supplier_quality_rating" (by decide), hget "inspector_id" (by decide)]
  rfl

theorem workStage_nextRequest (hcase : LawfulCase py) (hne : out.nextStatus ≠ "")
    (hcode : ∀ c ∈ out.nextStatus.toList, c ∈ codeChars)
    (hqueued : out.nextStatus ∉ ["queued", "quality_queued"]) :
    workStage py (nextRequest request out) = out.nextStatus := by
  have hget : (nextRequest request out).roleContext.get "quality_stage" = .str out.nextStatus :=
    get_setKey_self _ request.roleContext_isDict
  have hstage : requestedStage py (nextRequest request out) = out.nextStatus := by
    unfold requestedStage
    rw [hget]
    simp only [Value.anyOf, Value.truthy, decide_eq_true hne, if_true]
    exact hcase.lower _ hcode
  unfold workStage
  rw [hstage]
  exact if_neg hqueued

theorem recorded_nextRequest (h : Recorded py request) : Recorded py (nextRequest request out) := by
  refine ⟨?_, ?_, ?_, ?_, ?_⟩
  · rw [← h.complete]
    unfold docFindings documentsOf
    rw [extractContext_nextRequest]
    rfl
  · unfold inspectionComplete
    rw [qualityBlob_nextRequest]
    exact h.inspected
  · rw [qualityBlob_nextRequest]
    exact h.measured
  · rw [qualityBlob_nextRequest]
    exact h.instruments
  · rw [qualityBlob_nextRequest]
    exact h.evidence

end Stage

variable {py} {request : Request}

theorem nextStatus_of_early (h : Recorded py request) (hearly : EarlyStage py request) :
    (assess py request (docFindings py request)).nextStatus = "quality_inspection" := by
  unfold assess
  simp only
  rw [if_neg (not_not_intro h.complete)]
  by_cases hstage : workStage py request ∈ documentStages
  · rw [if_pos hstage]
    rfl
  · rw [if_neg hstage, if_pos (.inr (hearly.resolve_left hstage))]
    rfl

/-- From an early stage the case stays in an early stage for ever. -/
theorem not_reaches_of_early (hcase : LawfulCase py) (n : Nat) (h : Recorded py request)
    (hearly : EarlyStage py request) : ¬ ReachesWithin py n request := by
  induction n generalizing request with
  | zero => exact id
  | succ n ih =>
    rintro ⟨out, hrun, hout⟩
    obtain ⟨-, -, rfl⟩ := (run_eq_some_iff py request out).mp hrun
    have hstatus := nextStatus_of_early h hearly
    have hnext : EarlyStage py
        (nextRequest request (assess py request (docFindings py request))) := by
      refine .inr ?_
      rw [workStage_nextRequest py request _ hcase]
      · rw [hstatus]
        decide
      · rw [hstatus]
        decide
      · rw [hstatus]
        exact codeChars_of_all (by decide)
      · rw [hstatus]
        decide
    rcases hout with hout | hout
    · rw [hstatus] at hout
      exact absurd hout (by decide)
    · exact ih (recorded_nextRequest py request _ h) hnext hout

/-- Past the inspection there is an act or a release at once. -/
theorem nextStatus_of_late (h : Recorded py request) (hlate : ¬ EarlyStage py request) :
    (assess py request (docFindings py request)).nextStatus ∈
      ["nonconformity", "quality_released"] := by
  obtain ⟨hdocuments, hinspection⟩ := not_or.mp hlate
  unfold assess
  simp only
  rw [if_neg (not_not_intro h.complete), if_neg hdocuments, if_neg]
  · unfold decideLot
    simp only
    split
    · exact .head _
    · exact .tail _ (.head _)
  · rintro (hinspected | hstage)
    · rw [h.inspected] at hinspected
      cases hinspected
    · exact hinspection hstage

/-- **A recorded case gets on** exactly when its stage is past the inspection and its references are
accepted; it then needs one run. -/
theorem progresses_iff (hcase : LawfulCase py) (h : Recorded py request) :
    Progresses py request ↔
      ¬ EarlyStage py request ∧ Accepted py request ∧ sampleAccepted py request = true := by
  constructor
  · rintro ⟨n, hreaches⟩
    refine ⟨fun hearly => not_reaches_of_early hcase n h hearly hreaches, ?_⟩
    cases n with
    | zero => exact absurd hreaches id
    | succ n =>
      obtain ⟨out, hrun, -⟩ := hreaches
      obtain ⟨haccepted, hsample, -⟩ := (run_eq_some_iff py request out).mp hrun
      exact ⟨haccepted, hsample⟩
  · rintro ⟨hlate, haccepted, hsample⟩
    exact ⟨1, _, (run_eq_some_iff py request _).mpr ⟨haccepted, hsample, rfl⟩,
      .inl (nextStatus_of_late h hlate)⟩

def recordedAt (stage : String) : Request where
  caseId := "case-3"
  sourceData := .dict
    [("quality", .dict
      [("item_group", .str "metal"), ("present_docs", .list [.str "certificate_or_passport"]),
        ("inspection_complete", .bool true), ("measured_results", .list [.str "Ø 10"]),
        ("instrument_refs", .list [.str "СИ-1"]), ("evidence_refs", .list [.str "фото-1"]),
        ("scrap_pct", .num 0 "0")])]
  roleContext := .dict [("quality_stage", .str stage)]
  caseId_ne := by decide
  sourceData_isDict := rfl
  roleContext_isDict := rfl

theorem recorded_recordedAt {stage : String} (h : stage ∈ ["assigned", "quality_decision"]) :
    Recorded plainReading (recordedAt stage) := by
  simp only [List.mem_cons, List.not_mem_nil, or_false] at h
  rcases h with rfl | rfl
  · exact ⟨List.isEmpty_iff.mp (by decide +kernel), by decide +kernel, by decide +kernel,
      by decide +kernel, by decide +kernel⟩
  · exact ⟨List.isEmpty_iff.mp (by decide +kernel), by decide +kernel, by decide +kernel,
      by decide +kernel, by decide +kernel⟩

theorem progresses_assigned_fails : ¬ Progresses plainReading (recordedAt "assigned") := by
  rintro ⟨n, hreaches⟩
  exact not_reaches_of_early lawfulCase_plain n (recorded_recordedAt (by decide))
    (.inl (by decide +kernel)) hreaches

theorem progresses_decision : Progresses plainReading (recordedAt "quality_decision") := by
  refine (progresses_iff lawfulCase_plain (recorded_recordedAt (by decide))).mpr
    ⟨?_, ⟨by decide +kernel, by decide +kernel⟩, by decide +kernel⟩
  unfold EarlyStage
  decide +kernel

end AgentBack.Quality
