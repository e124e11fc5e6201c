import AgentBack.Quality.Deputy
import AgentBack.Quality.Engineer

/-!
# When a lot is released

A release is warranted when every document that the category asks for is named by a document that is
there, a person has completed the inspection, the scrap is known to be zero or the lot is said to be
fit and no scrap is reported, and the lot has an analog; a resolution to release is warranted by one
of the words for it. The engineer's agent lets more through: a blank document names every type, a
share of scrap that is not known, not a number or negative falls through to the label, and an analog
flag that is not `False` counts as an analog. The deputy's agent takes a word for a release anywhere
in the text. `releasesWarranted_iff` says which requests are handled as they should be.
-/

namespace AgentBack.Quality

open Py (Value strOf)

def codeChars : List Char := "abcdefghijklmnopqrstuvwxyz_".toList

/-- The case mappings leave the codes alone, which are lower case. -/
structure LawfulCase (py : Reading) : Prop where
  casefold : ∀ text : String, (∀ c ∈ text.toList, c ∈ codeChars) → py.casefold text = text
  lower : ∀ text : String, (∀ c ∈ text.toList, c ∈ codeChars) → py.lower text = text

variable (py : Reading) (request : Request)

/-! ## What a release needs -/

/-- The documents that are there, as the pipeline reads them. -/
def documentsOf : List String := ((extractContext py request).presentDocs).getD []

def Names (docType document : String) : Prop :=
  Text.strip document ≠ "" ∧ matchesDocument py docType document = true

def scrapValue : Value := (qualityBlob engineerKeys request).get "scrap_pct"

/-- The context gives a value: neither `None` nor the empty text. -/
def isGiven : Value → Bool
  | .null => false
  | .str text => text ≠ ""
  | _ => true

/-- The share of scrap is known to be zero, or the lot is said to be fit and none is reported. -/
def ScrapSettled : Prop :=
  asFloat py (scrapValue request) = some (.finite 0) ∨
    fitnessText py request = "fit" ∧ isGiven (scrapValue request) = false

/-- The flag of the lot says that there is an analog. -/
def HasAnalog : Prop := (analogInNomenclature (qualityBlob engineerKeys request)).truthy = true

/-- **A warranted release.** -/
structure Warranted (category : Category) : Prop where
  documents : ∀ spec ∈ categoryDocuments category, ∃ document ∈ documentsOf py request,
    Names py spec.docType document
  inspected : inspectionComplete request = true
  scrap : ScrapSettled py request
  analog : HasAnalog request

/-- The wordings of a release: its words in the list of the deputy, and its label. -/
def releaseWordings : List String :=
  ["оприходовать", "использовать", "post_and_use", "оприходовать и использовать"]

/-- The text that the resolution rests on: that of the case, or that of the rules about scrap when
the case gives none. -/
def dispositionText : Option String :=
  let quality := qualityBlob Deputy.deputyKeys request
  let given := quality.get "disposition"
  if isGiven given then some (foldText py (strOf py.toReading given))
  else (Deputy.scrapOf py quality).disposition.map Disposition.text

/-- **No release without documents and evidence**: what the engineer releases is warranted, and the
deputy proposes a release on a wording of a release only. -/
structure ReleasesWarranted : Prop where
  engineer : ∀ out, run py request = some out → out.nextStatus = "quality_released" →
    Warranted py request out.category
  deputy : ∀ out, Deputy.run py request = some out → out.nextStatus = "quality_released" →
    ∃ text ∈ dispositionText py request, text ∈ releaseWordings

/-! ## What the code asks -/

/-- The pipeline and the sample rule go through. -/
structure Accepted : Prop where
  documents : (extractContext py request).presentDocs.isSome = true
  card : (extractContext py request).cardAccepted py = true

/-- The engineer drafts the label: the documents match in the sense of the code, the stage is past
the inspection, which is complete, and neither the scrap nor the fitness calls for an act. -/
structure DraftsLabel : Prop where
  accepted : Accepted py request
  sample : sampleAccepted py request = true
  documents : ∀ spec ∈ categoryDocuments (extractContext py request).category,
    ∃ document ∈ documentsOf py request, matchesDocument py spec.docType document = true
  stage : workStage py request ∉ documentStages ∧ workStage py request ∉ inspectionStages
  inspected : inspectionComplete request = true
  fitness : fitnessText py request ∉ ["unfit", "doubtful", "unidentified"]
  scrap : (scrapDecision py (qualityBlob engineerKeys request)).requireZdk = false

/-- The text of the case has a word for a release, or no word of the list while the rules about
scrap allow a release. -/
def ReadsAsRelease (text : String) (scrap : ScrapDecision) : Prop :=
  (∃ word ∈ ["оприходовать", "использовать", "post_and_use"], Text.contains word text = true) ∨
    (∀ entry ∈ Deputy.dispositionAliases, Text.contains entry.1 text = false) ∧
      scrap.disposition = some .postAndUse

structure LabelWarranted : Prop where
  documents : ∀ spec ∈ categoryDocuments (reportedCategory py request),
    ∃ document ∈ documentsOf py request, Names py spec.docType document
  scrap : ScrapSettled py request
  analog : HasAnalog request

def caseText : String :=
  foldText py (strOf py.toReading ((qualityBlob Deputy.deputyKeys request).get "disposition"))

def caseGiven : Bool := isGiven ((qualityBlob Deputy.deputyKeys request).get "disposition")

/-- What the deputy reads as a release in the text of the case is a wording of one. -/
def ResolutionWarranted : Prop :=
  caseGiven request = true →
    ReadsAsRelease (caseText py request)
      (Deputy.scrapOf py (qualityBlob Deputy.deputyKeys request)) →
    caseText py request ∈ releaseWordings

section Texts

variable {py}

/-- The test that the characters of a closed text are evaluated by. -/
theorem codeChars_of_all {text : String} (h : text.toList.all codeChars.contains = true) :
    ∀ c ∈ text.toList, c ∈ codeChars :=
  fun c hc => List.contains_iff_mem.mp (List.all_eq_true.mp h c hc)

theorem LawfulCase.normalizeCategory_text (h : LawfulCase py) (category : Category) :
    normalizeCategory py category.text = category := by
  have hfold : foldText py category.text = category.text := by
    unfold foldText
    cases category <;> (rw [h.casefold _ (codeChars_of_all (by decide))]; decide)
  unfold normalizeCategory
  rw [hfold]
  cases category <;> decide

theorem LawfulCase.foldText_disposition (h : LawfulCase py) (disposition : Disposition) :
    foldText py disposition.text = disposition.text := by
  unfold foldText
  cases disposition <;> (rw [h.casefold _ (codeChars_of_all (by decide))]; decide)

theorem LawfulCase.foldText_empty (h : LawfulCase py) : foldText py "" = "" := by
  unfold foldText
  rw [h.casefold _ (codeChars_of_all (by decide))]
  decide

end Texts

/-! ## The engineer -/

def docFindings : List Finding :=
  evaluateDocumentCompleteness py (extractContext py request).category.text
    (documentsOf py request) request.caseId

theorem runQualityPipeline_eq (h : Accepted py request) :
    runQualityPipeline py request = some (docFindings py request) := by
  obtain ⟨documents, hdocuments⟩ := Option.isSome_iff_exists.mp h.documents
  unfold runQualityPipeline docFindings documentsOf
  simp only
  rw [hdocuments, Option.bind_some, if_pos h.card, Option.getD_some]

theorem accepted_of_pipeline {findings : List Finding}
    (h : runQualityPipeline py request = some findings) : Accepted py request := by
  unfold runQualityPipeline at h
  obtain ⟨documents, hdocuments, hcard⟩ := Option.bind_eq_some_iff.mp h
  refine ⟨Option.isSome_iff_exists.mpr ⟨documents, hdocuments⟩, ?_⟩
  by_contra hnot
  rw [if_neg hnot] at hcard
  cases hcard

theorem run_eq_some_iff (out : EngineerOutput) :
    run py request = some out ↔
      Accepted py request ∧ sampleAccepted py request = true ∧
        assess py request (docFindings py request) = out := by
  unfold run
  constructor
  · intro h
    obtain ⟨findings, hpipeline, h⟩ := Option.bind_eq_some_iff.mp h
    have haccepted := accepted_of_pipeline py request hpipeline
    rw [runQualityPipeline_eq py request haccepted, Option.some.injEq] at hpipeline
    subst hpipeline
    by_cases hsample : sampleAccepted py request = true
    · rw [if_pos hsample] at h
      exact ⟨haccepted, hsample, Option.some.inj h⟩
    · rw [if_neg hsample] at h
      cases h
  · rintro ⟨haccepted, hsample, hout⟩
    rw [runQualityPipeline_eq py request haccepted, Option.bind_some, if_pos hsample, hout]

/-- The pipeline finds nothing exactly when every document matches in the sense of the code. -/
theorem docFindings_eq_nil_iff (hcase : LawfulCase py) :
    docFindings py request = [] ↔
      ∀ spec ∈ categoryDocuments (extractContext py request).category,
        ∃ document ∈ documentsOf py request, matchesDocument py spec.docType document = true := by
  unfold docFindings evaluateDocumentCompleteness buildMandatoryDocuments
  rw [List.map_eq_nil_iff, List.filter_eq_nil_iff, hcase.normalizeCategory_text]
  simp only [List.mem_map, forall_exists_index, and_imp, forall_apply_eq_imp_iff₂,
    Bool.not_eq_true', Bool.not_eq_false, List.any_eq_true]

/-- Without a call for the deputy director, the rules about scrap forbid nothing. -/
theorem scrap_disposition_of_no_zdk {scrap : Option PyFloat} {analog : Value}
    (h : (evaluateScrapDecision py scrap analog).requireZdk = false) :
    (evaluateScrapDecision py scrap analog).disposition = none ∨
      (evaluateScrapDecision py scrap analog).disposition = some .postAndUse := by
  unfold evaluateScrapDecision at h ⊢
  split
  · next hanalog => rw [if_pos hanalog] at h; cases h
  · next hanalog =>
    rw [if_neg hanalog] at h
    cases scrap with
    | none => exact .inl rfl
    | some pct =>
      simp only at h ⊢
      split
      · next hge => rw [if_pos hge] at h; cases h
      · next hge =>
        rw [if_neg hge] at h
        split
        · next hgt => rw [if_pos hgt] at h; cases h
        · exact .inr rfl

theorem decidedFitness_mem_iff {fitness : String} {scrap : ScrapDecision}
    (h : scrap.disposition = none ∨ scrap.disposition = some .postAndUse) :
    decidedFitness fitness scrap ∈ ["unfit", "doubtful"] ↔
      fitness ∈ ["unfit", "doubtful", "unidentified"] := by
  unfold decidedFitness
  by_cases hdoubt : fitness ∈ ["doubtful", "unidentified"]
  · rw [if_pos hdoubt]
    refine ⟨fun _ => List.mem_cons_of_mem _ hdoubt, fun _ => ?_⟩
    rw [if_neg (by decide)]
    decide
  · rw [if_neg hdoubt]
    by_cases hpending : fitness = "pending"
    · rw [if_pos hpending, hpending]
      rcases h with h | h <;> rw [h] <;> decide
    · rw [if_neg hpending]
      simp only [List.mem_cons, List.not_mem_nil, or_false, not_or] at hdoubt ⊢
      tauto

theorem decideLot_released_iff (category : Category) :
    (decideLot py request category).nextStatus = "quality_released" ↔
      fitnessText py request ∉ ["unfit", "doubtful", "unidentified"] ∧
        (scrapDecision py (qualityBlob engineerKeys request)).requireZdk = false := by
  unfold decideLot
  simp only
  cases hzdk : (scrapDecision py (qualityBlob engineerKeys request)).requireZdk with
  | true =>
    rw [if_pos (.inr rfl)]
    exact ⟨fun h => absurd h (by change "nonconformity" ≠ _; decide), fun h => by cases h.2⟩
  | false =>
    rw [← decidedFitness_mem_iff (scrap_disposition_of_no_zdk py hzdk)]
    unfold scrapDecision
    split
    · next h =>
      have hmem := h.resolve_right Bool.false_ne_true
      exact ⟨fun h => absurd h (by change "nonconformity" ≠ _; decide), fun h => absurd hmem h.1⟩
    · next h => exact ⟨fun _ => ⟨fun hmem => h (.inl hmem), rfl⟩, fun _ => rfl⟩

/-- The engineer releases exactly the lots for which a label is drafted. -/
theorem released_iff (hcase : LawfulCase py) (out : EngineerOutput)
    (hrun : run py request = some out) :
    out.nextStatus = "quality_released" ↔ DraftsLabel py request := by
  obtain ⟨haccepted, hsample, rfl⟩ := (run_eq_some_iff py request out).mp hrun
  have hdocs := docFindings_eq_nil_iff py request hcase
  unfold assess
  simp only
  by_cases hnil : docFindings py request = []
  · rw [if_neg (not_not_intro hnil)]
    by_cases hstage : workStage py request ∈ documentStages
    · rw [if_pos hstage]
      exact ⟨fun h => absurd h (by change "quality_inspection" ≠ _; decide),
        fun h => absurd hstage h.stage.1⟩
    · rw [if_neg hstage]
      by_cases hinspect : inspectionComplete request = false ∨
          workStage py request ∈ inspectionStages
      · rw [if_pos hinspect]
        refine ⟨fun h => absurd h (by change "quality_inspection" ≠ _; decide), fun h => ?_⟩
        rcases hinspect with hinspect | hinspect
        · exact absurd h.inspected (by rw [hinspect]; exact Bool.false_ne_true)
        · exact absurd hinspect h.stage.2
      · rw [if_neg hinspect, decideLot_released_iff]
        rw [not_or, Bool.not_eq_false] at hinspect
        exact ⟨fun h => ⟨haccepted, hsample, hdocs.mp hnil, ⟨hstage, hinspect.2⟩, hinspect.1, h.1,
          h.2⟩, fun h => ⟨h.fitness, h.scrap⟩⟩
  · rw [if_pos hnil]
    exact ⟨fun h => absurd h (by change "quality_doc_check" ≠ _; decide),
      fun h => absurd (hdocs.mpr h.documents) hnil⟩

theorem run_category {out : EngineerOutput} (hrun : run py request = some out) :
    out.category = reportedCategory py request := by
  obtain ⟨-, -, rfl⟩ := (run_eq_some_iff py request out).mp hrun
  unfold assess
  simp only
  split
  · rfl
  · split
    · rfl
    · split
      · rfl
      · unfold decideLot
        simp only
        split <;> rfl

theorem engineer_warranted_iff (hcase : LawfulCase py) :
    (∀ out, run py request = some out → out.nextStatus = "quality_released" →
        Warranted py request out.category) ↔
      (DraftsLabel py request → LabelWarranted py request) := by
  constructor
  · intro h hdrafts
    have hrun := (run_eq_some_iff py request _).mpr ⟨hdrafts.accepted, hdrafts.sample, rfl⟩
    have hwarranted := h _ hrun ((released_iff py request hcase _ hrun).mpr hdrafts)
    rw [run_category py request hrun] at hwarranted
    exact ⟨hwarranted.documents, hwarranted.scrap, hwarranted.analog⟩
  · intro h out hrun hreleased
    have hdrafts := (released_iff py request hcase out hrun).mp hreleased
    have hlabel := h hdrafts
    rw [run_category py request hrun]
    exact ⟨hlabel.documents, hdrafts.inspected, hlabel.scrap, hlabel.analog⟩

/-! ## The deputy -/

section Deputy

open Deputy

/-- The words for a release come first in the list of the deputy. -/
theorem dispositionOf_postAndUse_iff (text : String) :
    dispositionOf text = some .postAndUse ↔
      ∃ word ∈ ["оприходовать", "использовать", "post_and_use"],
        Text.contains word text = true := by
  unfold dispositionOf dispositionAliases
  constructor
  · intro h
    obtain ⟨entry, hfind, hcode⟩ := Option.map_eq_some_iff.mp h
    have hmem := List.mem_of_find?_eq_some hfind
    have hcontains := List.find?_some hfind
    refine ⟨entry.1, ?_, hcontains⟩
    simp only [List.mem_cons, List.not_mem_nil, or_false] at hmem
    rcases hmem with rfl | rfl | rfl | rfl | rfl | rfl | rfl | rfl | rfl | rfl | rfl | rfl |
      rfl | rfl | rfl | rfl <;> first | decide | cases hcode
  · rintro ⟨word, hword, hcontains⟩
    simp only [List.mem_cons, List.not_mem_nil, or_false] at hword
    by_cases h₁ : Text.contains "оприходовать" text = true
    · simp only [List.find?_cons, h₁, Option.map_some]
    · by_cases h₂ : Text.contains "использовать" text = true
      · simp only [List.find?_cons, h₁, h₂, Option.map_some]
      · have h₃ : Text.contains "post_and_use" text = true := by
          rcases hword with rfl | rfl | rfl
          · exact absurd hcontains h₁
          · exact absurd hcontains h₂
          · exact hcontains
        simp only [List.find?_cons, h₁, h₂, h₃, Option.map_some]

theorem dispositionOf_eq_none_iff (text : String) :
    dispositionOf text = none ↔
      ∀ entry ∈ dispositionAliases, Text.contains entry.1 text = false := by
  unfold dispositionOf
  rw [Option.map_eq_none_iff, List.find?_eq_none]
  simp only [Bool.not_eq_true]

/-- The rules about scrap are read as what they say. -/
theorem normalize_disposition_text (hcase : LawfulCase py) (disposition : Disposition) :
    normalizeDisposition py (.str disposition.text) = some disposition := by
  change dispositionOf (foldText py disposition.text) = _
  rw [hcase.foldText_disposition]
  cases disposition <;> decide

/-- A release is proposed on a text of the case that reads as one, or on the rules about scrap. -/
theorem proposed_release_iff (hcase : LawfulCase py) (quality : Value) (scrap : ScrapDecision) :
    proposedDisposition py quality scrap = some .postAndUse ↔
      if isGiven (quality.get "disposition") then
        ReadsAsRelease (foldText py (strOf py.toReading (quality.get "disposition"))) scrap
      else scrap.disposition = some .postAndUse := by
  have hscrap : (scrap.disposition.bind fun disposition =>
      normalizeDisposition py (.str disposition.text)) = scrap.disposition := by
    simp only [normalize_disposition_text py hcase, Option.bind_fun_some]
  have hgiven : isGiven (quality.get "disposition") = false →
      normalizeDisposition py (quality.get "disposition") = none := by
    intro h
    cases hvalue : quality.get "disposition" with
    | null => rfl
    | str text =>
      rw [hvalue] at h
      have htext : text = "" := by simpa [isGiven] using h
      subst htext
      change dispositionOf (foldText py "") = none
      rw [hcase.foldText_empty]
      decide
    | bool _ | num _ _ | list _ | dict _ => rw [hvalue] at h; cases h
  have hread : isGiven (quality.get "disposition") = true →
      normalizeDisposition py (quality.get "disposition") =
        dispositionOf (foldText py (strOf py.toReading (quality.get "disposition"))) := by
    intro h
    cases hvalue : quality.get "disposition" with
    | null => rw [hvalue] at h; cases h
    | _ => rfl
  unfold proposedDisposition
  rw [hscrap]
  cases h : isGiven (quality.get "disposition") with
  | false =>
    rw [hgiven h, Option.none_or, if_neg Bool.false_ne_true]
  | true =>
    rw [hread h, if_pos rfl]
    unfold ReadsAsRelease
    rw [← dispositionOf_postAndUse_iff, ← dispositionOf_eq_none_iff]
    cases dispositionOf (foldText py (strOf py.toReading (quality.get "disposition"))) with
    | none => simp
    | some code => simp

theorem nextStatusOf_released_iff (disposition : Disposition) :
    nextStatusOf disposition = "quality_released" ↔ disposition = .postAndUse := by
  cases disposition <;> decide

theorem resolve_released_iff :
    (resolve py request).nextStatus = "quality_released" ↔
      proposedDisposition py (qualityBlob deputyKeys request)
        (scrapOf py (qualityBlob deputyKeys request)) = some .postAndUse := by
  change nextStatusOf (Option.getD _ _) = _ ↔ _
  rw [nextStatusOf_released_iff]
  cases proposedDisposition py (qualityBlob deputyKeys request)
    (scrapOf py (qualityBlob deputyKeys request)) with
  | none => decide
  | some code => simp

theorem deputy_run_eq_some_iff (out : DeputyOutput) :
    Deputy.run py request = some out ↔ Accepted py request ∧ resolve py request = out := by
  unfold Deputy.run
  constructor
  · intro h
    obtain ⟨findings, hpipeline, hout⟩ := Option.map_eq_some_iff.mp h
    exact ⟨accepted_of_pipeline py request hpipeline, hout⟩
  · rintro ⟨haccepted, hout⟩
    rw [runQualityPipeline_eq py request haccepted, Option.map_some, hout]

theorem deputy_warranted_iff (hcase : LawfulCase py) :
    (∀ out, Deputy.run py request = some out → out.nextStatus = "quality_released" →
        ∃ text ∈ dispositionText py request, text ∈ releaseWordings) ↔
      (Accepted py request → ResolutionWarranted py request) := by
  have hproposed := proposed_release_iff py hcase (qualityBlob deputyKeys request)
    (scrapOf py (qualityBlob deputyKeys request))
  have htext : dispositionText py request = if caseGiven request then some (caseText py request)
      else (scrapOf py (qualityBlob deputyKeys request)).disposition.map Disposition.text := rfl
  change _ ↔ if caseGiven request then ReadsAsRelease (caseText py request) _ else _ at hproposed
  unfold ResolutionWarranted
  cases hgiven : caseGiven request with
  | false =>
    rw [hgiven, if_neg Bool.false_ne_true] at hproposed htext
    refine ⟨fun _ _ hfalse => absurd hfalse Bool.false_ne_true, fun _ out hrun hreleased => ?_⟩
    obtain ⟨-, rfl⟩ := (deputy_run_eq_some_iff py request out).mp hrun
    have hscrap := hproposed.mp ((resolve_released_iff py request).mp hreleased)
    refine ⟨"post_and_use", ?_, by decide⟩
    rw [htext, hscrap]
    rfl
  | true =>
    rw [hgiven, if_pos rfl] at hproposed htext
    constructor
    · intro h haccepted _ hreads
      have hreleased := (resolve_released_iff py request).mpr (hproposed.mpr hreads)
      obtain ⟨text, hmem, hwording⟩ :=
        h _ ((deputy_run_eq_some_iff py request _).mpr ⟨haccepted, rfl⟩) hreleased
      rw [htext, Option.mem_some_iff] at hmem
      exact hmem ▸ hwording
    · intro h out hrun hreleased
      obtain ⟨haccepted, rfl⟩ := (deputy_run_eq_some_iff py request out).mp hrun
      have hreads := hproposed.mp ((resolve_released_iff py request).mp hreleased)
      exact ⟨caseText py request, by rw [htext]; rfl, h haccepted rfl hreads⟩

end Deputy

/-- **Releases are warranted** exactly when a request for which a label is drafted has a named
document for each one that is asked for, settled scrap and an analog, and the text of its
disposition, where it reads as a release, is a wording of one. -/
theorem releasesWarranted_iff (hcase : LawfulCase py) :
    ReleasesWarranted py request ↔
      (DraftsLabel py request → LabelWarranted py request) ∧
        (Accepted py request → ResolutionWarranted py request) := by
  rw [← engineer_warranted_iff py request hcase, ← deputy_warranted_iff py request hcase]
  exact ⟨fun h => ⟨h.engineer, h.deputy⟩, fun h => ⟨h.1, h.2⟩⟩

/-- A reading of the texts below: the case of ASCII and Russian letters. -/
def plainReading : Reading where
  lower := Text.lowerRu
  casefold := Text.lowerRu
  decimal _ := none
  repr _ := ""
  float text := if text = "0" then some (.finite 0) else none
  floatText _ := "0.0"

theorem lawfulCase_plain : LawfulCase plainReading := by
  have hchar : ∀ c ∈ codeChars, Text.lowerRuChar c = c := fun c hc =>
    eq_of_beq (List.all_eq_true.mp (by decide : codeChars.all fun c => Text.lowerRuChar c == c) c hc)
  have hlower : ∀ text : String, (∀ c ∈ text.toList, c ∈ codeChars) →
      Text.lowerRu text = text := by
    intro text h
    unfold Text.lowerRu
    rw [List.map_congr_left fun c hc => hchar c (h c hc), List.map_id', String.ofList_toList]
  exact ⟨hlower, hlower⟩

/-- A lot past its inspection, with one blank document and no word about scrap. -/
def blankDocument : Request where
  caseId := "case-1"
  sourceData := .dict
    [("quality", .dict
      [("item_group", .str "electronics"), ("present_docs", .list [.str " "]),
        ("inspection_complete", .bool true)])]
  roleContext := .dict [("quality_stage", .str "quality_decision")]
  caseId_ne := by decide
  sourceData_isDict := rfl
  roleContext_isDict := rfl

theorem releasesWarranted_blankDocument_fails :
    ¬ ReleasesWarranted plainReading blankDocument := by
  intro h
  have hdocuments : documentsOf plainReading blankDocument = [" "] := by decide +kernel
  have hstatus : (run plainReading blankDocument).map EngineerOutput.nextStatus =
      some "quality_released" := by decide +kernel
  obtain ⟨out, hrun, hreleased⟩ := Option.map_eq_some_iff.mp hstatus
  have hcategory : out.category = .electronics := by
    rw [run_category plainReading blankDocument hrun]
    decide +kernel
  have hwarranted := (h.engineer out hrun hreleased).documents
  rw [hcategory, hdocuments] at hwarranted
  obtain ⟨document, hmem, hblank, -⟩ := hwarranted _ (.head _)
  rw [List.mem_singleton.mp hmem] at hblank
  exact hblank (by decide)

def certified : Request where
  caseId := "case-2"
  sourceData := .dict
    [("quality", .dict
      [("item_group", .str "metal"), ("present_docs", .list [.str "Сертификат", .str "certificate"]),
        ("inspection_complete", .bool true), ("scrap_pct", .num 0 "0"),
        ("disposition", .str "Использовать")])]
  roleContext := .dict [("quality_stage", .str "quality_decision")]
  caseId_ne := by decide
  sourceData_isDict := rfl
  roleContext_isDict := rfl

theorem releasesWarranted_certified :
    ReleasesWarranted plainReading certified := by
  refine (releasesWarranted_iff plainReading certified lawfulCase_plain).mpr
    ⟨fun _ => ⟨?_, .inl (by decide +kernel), by unfold HasAnalog; decide +kernel⟩, fun _ _ _ => ?_⟩
  · have hcategory : reportedCategory plainReading certified = .metal := by decide +kernel
    have hdocuments : documentsOf plainReading certified = ["Сертификат", "certificate"] := by
      decide +kernel
    rw [hcategory, hdocuments]
    intro spec hspec
    obtain rfl := List.mem_singleton.mp hspec
    exact ⟨"certificate", by decide, by decide, by decide +kernel⟩
  · decide +kernel

end AgentBack.Quality
