import AgentBack.Base.Guarded
import AgentBack.Eskd.Jobs
import Mathlib.Data.List.Nodup

/-!
# A result is never taken for a newer document

There is one row for a document and revision; once a card with another content has been accepted, the
jobs that were made for a content before are stale; a request that is repeated gets its first job; and
a job that has ended keeps its status. A card without a revision does not find the row that an earlier
one has left, and nothing keeps a job from being set again after its end, so this holds in the runs
without these (`service_keepsFaith`). In every run, though, a request that is repeated finds the job
that it got (`createOrGet_finds_first`).
-/

namespace AgentBack.Eskd

variable {joins : Bool}

/-- The rows, with the content that each job was made for: the checksum of its document then. -/
structure Watched where
  world : World
  madeFor : List (Option String)

def Watched.step (joins : Bool) (w : Watched) (call : Int × Call) : Watched where
  world := w.world.step joins call
  madeFor :=
    match call with
    | (now, .submit submission) =>
      match (createOrGet joins now submission w.world).2 with
      | some (_, true) => w.madeFor ++ [(upsert now submission.card w.world).2.checksum]
      | _ => w.madeFor
    | (_, .job _ _) => w.madeFor

def IntegrationDocument.key (document : IntegrationDocument) : String × String × Option String :=
  (document.sourceSystem, document.externalDocumentId, document.revision)

def World.OfDocument (world : World) (job : IntegrationJob) (key : String × String × Option String) :
    Prop :=
  ∃ document ∈ world.documents, document.id = job.documentId ∧ document.key = key

def ended (status : String) : Prop :=
  status ∈ ["cancelled", "error", "completed", "completed_with_remarks"]

/-- **A call keeps faith** with the documents and the jobs. -/
structure KeepsFaith (joins : Bool) (w : Watched) (call : Int × Call) : Prop where
  unique : ((w.world.step joins call).documents.map IntegrationDocument.key).Nodup
  stale : ∀ now submission job, call = (now, .submit submission) →
    (createOrGet joins now submission w.world).2 = some (job, true) →
    ∀ checksum, submission.card.checksum = some checksum → checksum ≠ "" →
    ∀ key, (w.world.step joins call).OfDocument job key →
    ∀ (i : Nat) earlier before, (w.world.step joins call).jobs[i]? = some earlier →
      w.madeFor[i]? = some (some before) → before ≠ "" → before ≠ checksum →
      (w.world.step joins call).OfDocument earlier key → earlier.isStale = true
  repeated : ∀ now submission job, call = (now, .submit submission) →
    (w.world.jobs.find? fun job => job.requestId = submission.requestId) = some job →
    createOrGet joins now submission w.world = (w.world, some (job, false))
  final : ∀ (i : Nat) job, w.world.jobs[i]? = some job → ended job.status →
    ∃ job', (w.world.step joins call).jobs[i]? = some job' ∧ job'.status = job.status

def JobEvent.status : JobEvent → String
  | .setStatus status => status
  | .complete result => result.status
  | .fail _ => "error"
  | .cancel => "cancelled"

/-- A new card has a revision, or its document has no row without one; a job that has ended is not set
to another status. -/
def Careful (call : Int × Call) (w : Watched) : Prop :=
  match call.2 with
  | .submit submission =>
    (∃ job ∈ w.world.jobs, job.requestId = submission.requestId) ∨
      given submission.card.revision = true ∨
      ∀ row ∈ w.world.documents,
        row.key ≠ (submission.card.sourceSystem, submission.card.documentId, none)
  | .job jobId event =>
    ∀ job ∈ w.world.jobs, job.id = jobId → ended job.status → event.status = job.status

/-- Rows are numbered, documents are told apart by their keys, and a job that is not stale was made for
what its document holds. -/
structure Watched.Sound (w : Watched) : Prop where
  documentIds : ∀ (i : Nat) document, w.world.documents[i]? = some document → document.id = i
  jobIds : ∀ (i : Nat) job, w.world.jobs[i]? = some job → job.id = i
  keys : (w.world.documents.map IntegrationDocument.key).Nodup
  madeFor : w.madeFor.length = w.world.jobs.length
  current : ∀ (i : Nat) job checksum, w.world.jobs[i]? = some job → w.madeFor[i]? = some (some checksum) →
    checksum ≠ "" → job.isStale = false →
    ∃ document, w.world.documents[job.documentId]? = some document ∧
      document.checksum = some checksum

section Invariant

variable {w : Watched}

/-- A change of the jobs that makes none fresh keeps the invariant. -/
theorem Watched.Sound.mapJobs (h : w.Sound) {f : IntegrationJob → IntegrationJob}
    (hf : ∀ job, (f job).id = job.id ∧ (f job).documentId = job.documentId ∧
      ((f job).isStale = false → job.isStale = false)) :
    Watched.Sound ⟨{ w.world with jobs := w.world.jobs.map f }, w.madeFor⟩ := by
  have hjobs : ∀ {i : Nat} {job}, (w.world.jobs.map f)[i]? = some job →
      ∃ old, w.world.jobs[i]? = some old ∧ f old = job := by
    intro i job hjob
    rw [List.getElem?_map] at hjob
    exact Option.map_eq_some_iff.mp hjob
  refine ⟨h.documentIds, fun i job hjob => ?_, h.keys, h.madeFor.trans (List.length_map _).symm,
    fun i job checksum hjob hmade hne hfresh => ?_⟩
  · obtain ⟨old, hold, rfl⟩ := hjobs hjob
    exact (hf old).1.trans (h.jobIds i old hold)
  · obtain ⟨old, hold, rfl⟩ := hjobs hjob
    rw [(hf old).2.1]
    exact h.current i old checksum hold hmade hne ((hf old).2.2 hfresh)

theorem Watched.Sound.markStale (h : w.Sound) (test : IntegrationJob → Bool) :
    Watched.Sound ⟨w.world.markStale test, w.madeFor⟩ := by
  refine h.mapJobs fun job => ?_
  split
  · exact ⟨rfl, rfl, fun hstale => by cases hstale⟩
  · exact ⟨rfl, rfl, id⟩

theorem isStale_invalidateJobs {world : World} {documentId i : Nat} {job : IntegrationJob}
    (hjob : (invalidateJobsForDocument documentId world).jobs[i]? = some job)
    (hdocument : job.documentId = documentId) : job.isStale = true := by
  unfold invalidateJobsForDocument World.markStale at hjob
  rw [List.getElem?_map] at hjob
  obtain ⟨old, hold, rfl⟩ := Option.map_eq_some_iff.mp hjob
  split at hdocument
  · next hpicked =>
    rw [if_pos hpicked]
  · next hleft =>
    rw [if_neg hleft]
    cases hstale : old.isStale with
    | true => rfl
    | false =>
      refine absurd ?_ hleft
      dsimp only
      rw [hstale, Bool.not_false, Bool.and_true]
      exact decide_eq_true hdocument

theorem orText_eq_some {new old : Option String} (h : given new = true) : orText new old = new := by
  unfold orText
  rw [if_pos h]

end Invariant

/-! ## What the submission of a card keeps -/

section Submission

variable {w : Watched} {now : Int} {card : DocumentCard}

theorem Watched.Sound.eq_of_id (h : w.Sound) {a b : IntegrationDocument}
    (ha : a ∈ w.world.documents) (hb : b ∈ w.world.documents) (hid : a.id = b.id) : a = b := by
  obtain ⟨i, hi⟩ := List.getElem?_of_mem ha
  obtain ⟨j, hj⟩ := List.getElem?_of_mem hb
  have hij : i = j := (h.documentIds i a hi).symm.trans (hid.trans (h.documentIds j b hj))
  rw [hij] at hi
  exact Option.some.inj (hi.symm.trans hj)

/-- The card leaves a row with its content, and the invariant. -/
structure Upserted (w : Watched) (card : DocumentCard) (out : World × IntegrationDocument) :
    Prop where
  sound : Watched.Sound ⟨out.1, w.madeFor⟩
  row : out.1.documents[out.2.id]? = some out.2
  checksum : given card.checksum = true → out.2.checksum = card.checksum

/-- A row that is found is changed in its place. -/
theorem upserted_of_some (h : w.Sound) {existing : IntegrationDocument}
    (hfind : findDocument w.world card = some existing) : Upserted w card (upsert now card w.world) := by
  have hin : existing ∈ w.world.documents := List.mem_of_find?_eq_some hfind
  have hplace : w.world.documents[existing.id]? = some existing := by
    obtain ⟨i, hi⟩ := List.getElem?_of_mem hin
    rw [h.documentIds i existing hi]
    exact hi
  unfold upsert
  rw [hfind]
  simp only
  generalize hmarked : (if (given card.checksum && given existing.checksum &&
    decide (card.checksum ≠ existing.checksum)) = true then
      invalidateJobsForDocument existing.id w.world else w.world) = marked
  have hsound : Watched.Sound ⟨marked, w.madeFor⟩ := by
    rw [← hmarked]
    split
    · exact h.markStale _
    · exact h
  have hdocuments : marked.documents = w.world.documents := by
    rw [← hmarked]
    split <;> rfl
  have hrow : (card.update existing).id = existing.id := rfl
  have hget : ∀ j : Nat, (marked.documents.map fun other =>
      if other.id = existing.id then card.update existing else other)[j]? =
      w.world.documents[j]?.map fun other =>
        if other.id = existing.id then card.update existing else other := by
    intro j
    rw [hdocuments, List.getElem?_map]
  refine ⟨⟨fun i document hdocument => ?_, hsound.jobIds, ?_, hsound.madeFor,
    fun i job checksum hjob hmade hne hfresh => ?_⟩, ?_, fun hgiven => orText_eq_some hgiven⟩
  · obtain ⟨old, hold, rfl⟩ := Option.map_eq_some_iff.mp ((hget i).symm.trans hdocument)
    split
    · next hid => exact (hrow.trans hid.symm).trans (h.documentIds i old hold)
    · exact h.documentIds i old hold
  · have hkeys : (marked.documents.map fun other =>
        if other.id = existing.id then card.update existing else other).map
        IntegrationDocument.key = w.world.documents.map IntegrationDocument.key := by
      rw [hdocuments, List.map_map]
      refine List.map_congr_left fun other hother => ?_
      simp only [Function.comp_apply]
      split
      · next hid =>
        rw [h.eq_of_id hother hin hid]
        rfl
      · rfl
    exact hkeys ▸ h.keys
  · obtain ⟨document, hdocument, hchecksum⟩ := hsound.current i job checksum hjob hmade hne hfresh
    rw [hdocuments] at hdocument
    refine ⟨_, (hget job.documentId).trans (congrArg _ hdocument), ?_⟩
    dsimp only
    by_cases hid : document.id = existing.id
    · rw [if_pos hid]
      obtain rfl : document = existing := h.eq_of_id (List.mem_of_getElem? hdocument) hin hid
      change orText card.checksum document.checksum = some checksum
      by_cases hgiven : given card.checksum = true
      · rw [orText_eq_some hgiven]
        by_contra hother
        have hexisting : given document.checksum = true := by
          rw [hchecksum]
          exact decide_eq_true hne
        have htest : (given card.checksum && given document.checksum &&
            decide (card.checksum ≠ document.checksum)) = true := by
          rw [hgiven, hexisting, hchecksum]
          exact decide_eq_true hother
        rw [if_pos htest] at hmarked
        have hstale := isStale_invalidateJobs (hmarked ▸ hjob)
          ((h.documentIds _ _ hdocument).symm)
        rw [hfresh] at hstale
        cases hstale
      · unfold orText
        rw [if_neg hgiven]
        exact hchecksum
    · rw [if_neg hid]
      exact hchecksum
  · rw [hrow]
    refine (hget existing.id).trans ?_
    rw [hplace, Option.map_some, if_pos rfl]

/-- A row that is not found is added, under a key of its own. -/
theorem upserted_of_none (h : w.Sound) (hfind : findDocument w.world card = none)
    (hcareful : given card.revision = true ∨
      ∀ row ∈ w.world.documents, row.key ≠ (card.sourceSystem, card.documentId, none)) :
    Upserted w card (upsert now card w.world) := by
  unfold upsert
  rw [hfind]
  have hkey : (card.row now w.world.documents.length).key ∉
      w.world.documents.map IntegrationDocument.key := by
    intro hin
    obtain ⟨row, hrow, hsame⟩ := List.mem_map.mp hin
    by_cases hgiven : given card.revision = true
    · unfold IntegrationDocument.key DocumentCard.row at hsame
      rw [if_pos hgiven] at hsame
      obtain ⟨hsource, hrest⟩ := Prod.mk.inj hsame
      obtain ⟨hexternal, hrevision⟩ := Prod.mk.inj hrest
      obtain ⟨revision, hcard, -⟩ := (Option.any_eq_true _ _).mp hgiven
      refine List.find?_eq_none.mp hfind row hrow ?_
      rw [hsource, hexternal, hrevision, hcard, Option.getD_some]
      simp only [decide_true, Bool.and_self]
    · refine hcareful.resolve_left hgiven row hrow (hsame.trans ?_)
      unfold IntegrationDocument.key DocumentCard.row
      rw [if_neg hgiven]
  have hnew : (w.world.documents ++ [card.row now w.world.documents.length])[
      w.world.documents.length]? = some (card.row now w.world.documents.length) := by
    rw [List.getElem?_append_right le_rfl, Nat.sub_self]
    rfl
  refine ⟨⟨fun i document hdocument => ?_, h.jobIds, ?_, h.madeFor,
    fun i job checksum hjob hmade hne hfresh => ?_⟩, hnew, fun _ => rfl⟩
  · rcases Nat.lt_or_ge i w.world.documents.length with hlt | hge
    · exact h.documentIds i document ((List.getElem?_append_left hlt).symm.trans hdocument)
    · rw [List.getElem?_append_right hge] at hdocument
      have hlast : i - w.world.documents.length = 0 := by
        by_contra hpos
        rw [List.getElem?_eq_none (by rw [List.length_singleton]; omega)] at hdocument
        cases hdocument
      rw [hlast] at hdocument
      cases hdocument
      change w.world.documents.length = i
      omega
  · rw [List.map_append, List.nodup_append]
    refine ⟨h.keys, List.pairwise_singleton _ _, fun a ha b hb hab => ?_⟩
    rw [List.map_singleton, List.mem_singleton] at hb
    exact hkey (hb ▸ hab ▸ ha)
  · obtain ⟨document, hdocument, hchecksum⟩ := h.current i job checksum hjob hmade hne hfresh
    refine ⟨document, ?_, hchecksum⟩
    have hlt : job.documentId < w.world.documents.length :=
      (List.getElem?_eq_some_iff.mp hdocument).1
    exact (List.getElem?_append_left hlt).trans hdocument

theorem upserted (h : w.Sound) (hcareful : given card.revision = true ∨
    ∀ row ∈ w.world.documents, row.key ≠ (card.sourceSystem, card.documentId, none)) :
    Upserted w card (upsert now card w.world) := by
  cases hfind : findDocument w.world card with
  | none => exact upserted_of_none h hfind hcareful
  | some existing => exact upserted_of_some h hfind

theorem Watched.Sound.addJob (h : w.Sound) {job : IntegrationJob} {document : IntegrationDocument}
    (hid : job.id = w.world.jobs.length)
    (hdocument : w.world.documents[job.documentId]? = some document) :
    Watched.Sound ⟨{ w.world with jobs := w.world.jobs ++ [job] },
      w.madeFor ++ [document.checksum]⟩ := by
  have hget : ∀ {i : Nat} {other}, (w.world.jobs ++ [job])[i]? = some other →
      w.world.jobs[i]? = some other ∧ i < w.world.jobs.length ∨
        i = w.world.jobs.length ∧ other = job := by
    intro i other hother
    rcases Nat.lt_or_ge i w.world.jobs.length with hlt | hge
    · exact .inl ⟨(List.getElem?_append_left hlt).symm.trans hother, hlt⟩
    · have hbound := (List.getElem?_eq_some_iff.mp hother).1
      rw [List.length_append, List.length_singleton] at hbound
      obtain rfl : i = w.world.jobs.length := by omega
      rw [List.getElem?_append_right le_rfl, Nat.sub_self] at hother
      exact .inr ⟨rfl, (Option.some.inj hother).symm⟩
  refine ⟨h.documentIds, fun i other hother => ?_, h.keys, ?_,
    fun i other checksum hother hmade hne hfresh => ?_⟩
  · rcases hget hother with ⟨hold, -⟩ | ⟨rfl, rfl⟩
    · exact h.jobIds i other hold
    · exact hid
  · rw [List.length_append, List.length_append, h.madeFor]
    rfl
  · rcases hget hother with ⟨hold, hlt⟩ | ⟨rfl, rfl⟩
    · rw [List.getElem?_append_left (h.madeFor ▸ hlt)] at hmade
      exact h.current i other checksum hold hmade hne hfresh
    · rw [← h.madeFor, List.getElem?_append_right le_rfl, Nat.sub_self] at hmade
      exact ⟨document, hdocument, Option.some.inj hmade⟩

def newJob (submission : Submission) (document : IntegrationDocument) (id : Nat) : IntegrationJob :=
  { id
    requestId := submission.requestId
    documentId := document.id
    sourceSystem := submission.card.sourceSystem
    status := "accepted"
    rulesetVersion :=
      if given submission.rulesetVersion then submission.rulesetVersion.getD "" else rulesetVersion
    submittedBy := submission.submittedBy }

/-- A new request is for the row that its card leaves; with a checksum it needs the statement that
marks the other contents. -/
theorem createOrGet_new {submission : Submission} {world : World}
    (hnew : (world.jobs.find? fun job => job.requestId = submission.requestId) = none) :
    createOrGet joins now submission world =
      let out := upsert now submission.card world
      if given submission.card.checksum && !joins then (out.1, none)
      else
        let marked :=
          if given submission.card.checksum then invalidateOtherChecksumJobs out.2 out.1 else out.1
        let job := newJob submission out.2 marked.jobs.length
        ({ marked with jobs := marked.jobs ++ [job] }, some (job, true)) := by
  unfold createOrGet
  rw [hnew]
  rfl

theorem sound_invalidateOther (document : IntegrationDocument) (h : w.Sound) :
    Watched.Sound ⟨invalidateOtherChecksumJobs document w.world, w.madeFor⟩ ∧
      (invalidateOtherChecksumJobs document w.world).documents = w.world.documents := by
  unfold invalidateOtherChecksumJobs
  split
  · exact ⟨h, rfl⟩
  · exact ⟨h.markStale _, rfl⟩

/-- An accepted request leaves the invariant, and its job at the row of its card. -/
theorem sound_accepted {submission : Submission} {job : IntegrationJob} (h : w.Sound)
    (hcareful : Careful (now, .submit submission) w)
    (hnew : (w.world.jobs.find? fun job => job.requestId = submission.requestId) = none)
    (haccepted : (createOrGet joins now submission w.world).2 = some (job, true)) :
    Watched.Sound ⟨(createOrGet joins now submission w.world).1,
        w.madeFor ++ [(upsert now submission.card w.world).2.checksum]⟩ ∧
      job.documentId = (upsert now submission.card w.world).2.id ∧
      (createOrGet joins now submission w.world).1.documents[job.documentId]? =
        some (upsert now submission.card w.world).2 ∧
      (given submission.card.checksum = true →
        (upsert now submission.card w.world).2.checksum = submission.card.checksum) := by
  have hunknown : ¬ ∃ job ∈ w.world.jobs, job.requestId = submission.requestId := by
    rintro ⟨known, hin, hknown⟩
    exact List.find?_eq_none.mp hnew known hin (decide_eq_true hknown)
  have hupserted : Upserted w submission.card (upsert now submission.card w.world) :=
    upserted h (hcareful.resolve_left hunknown)
  rw [createOrGet_new hnew] at haccepted ⊢
  generalize upsert now submission.card w.world = out at hupserted haccepted ⊢
  obtain ⟨world, document⟩ := out
  dsimp only at hupserted haccepted ⊢
  by_cases hraises : (given submission.card.checksum && !joins) = true
  · rw [if_pos hraises] at haccepted
    cases haccepted
  rw [if_neg hraises] at haccepted ⊢
  have hmarked : Watched.Sound ⟨if given submission.card.checksum = true then
        invalidateOtherChecksumJobs document world else world, w.madeFor⟩ ∧
      (if given submission.card.checksum = true then
        invalidateOtherChecksumJobs document world else world).documents = world.documents := by
    split
    · exact sound_invalidateOther document hupserted.sound
    · exact ⟨hupserted.sound, rfl⟩
  generalize (if given submission.card.checksum = true then
    invalidateOtherChecksumJobs document world else world) = marked at hmarked haccepted ⊢
  obtain rfl : newJob submission document marked.jobs.length = job :=
    (Prod.mk.inj (Option.some.inj haccepted)).1
  have hrow : marked.documents[document.id]? = some document := by
    rw [hmarked.2]
    exact hupserted.row
  exact ⟨hmarked.1.addJob rfl hrow, rfl, hrow, hupserted.checksum⟩

end Submission

/-! ## The runs -/

section Runs

variable {w : Watched} {now : Int}

theorem JobEvent.frame (event : JobEvent) (now : Int) (job : IntegrationJob) :
    (event.apply now job).id = job.id ∧ (event.apply now job).documentId = job.documentId ∧
      (event.apply now job).isStale = job.isStale ∧
      (event.apply now job).status = event.status := by
  cases event <;> exact ⟨rfl, rfl, rfl, rfl⟩

theorem Watched.Sound.job (h : w.Sound) (jobId : Nat) (event : JobEvent) :
    (w.step joins (now, .job jobId event)).Sound := by
  refine h.mapJobs fun job => ?_
  split
  · obtain ⟨hid, hdocument, hstale, -⟩ := event.frame now job
    exact ⟨hid, hdocument, hstale ▸ id⟩
  · exact ⟨rfl, rfl, id⟩

theorem createOrGet_repeated {submission : Submission} {world : World} {job : IntegrationJob}
    (hknown : (world.jobs.find? fun job => job.requestId = submission.requestId) = some job) :
    createOrGet joins now submission world = (world, some (job, false)) := by
  unfold createOrGet
  rw [hknown]

theorem Watched.Sound.submit (h : w.Sound) {submission : Submission}
    (hcareful : Careful (now, .submit submission) w) :
    (w.step joins (now, .submit submission)).Sound := by
  cases hnew : w.world.jobs.find? fun job => job.requestId = submission.requestId with
  | some existing =>
    have hsame : w.step joins (now, .submit submission) = w := by
      unfold Watched.step World.step
      simp only [createOrGet_repeated hnew]
    rw [hsame]
    exact h
  | none =>
    have hunknown : ¬ ∃ job ∈ w.world.jobs, job.requestId = submission.requestId := by
      rintro ⟨known, hin, hknown⟩
      exact List.find?_eq_none.mp hnew known hin (decide_eq_true hknown)
    cases hout : (createOrGet joins now submission w.world).2 with
    | none =>
      have hworld : w.step joins (now, .submit submission) =
          ⟨(upsert now submission.card w.world).1, w.madeFor⟩ := by
        unfold Watched.step World.step
        rw [createOrGet_new hnew] at hout
        simp only [createOrGet_new hnew] at hout ⊢
        split at hout
        · next hraises => simp only [if_pos hraises]
        · cases hout
      rw [hworld]
      exact (upserted h (hcareful.resolve_left hunknown)).sound
    | some pair =>
      obtain ⟨job, isNew⟩ := pair
      obtain rfl : isNew = true := by
        rw [createOrGet_new hnew] at hout
        dsimp only at hout
        split at hout
        · cases hout
        · exact (Prod.mk.inj (Option.some.inj hout)).2.symm
      have hworld : w.step joins (now, .submit submission) =
          ⟨(createOrGet joins now submission w.world).1,
            w.madeFor ++ [(upsert now submission.card w.world).2.checksum]⟩ := by
        unfold Watched.step World.step
        simp only [hout]
      rw [hworld]
      exact (sound_accepted h hcareful hnew hout).1

theorem Watched.Sound.step (h : w.Sound) {call : Int × Call} (hcareful : Careful call w) :
    (w.step joins call).Sound := by
  obtain ⟨now, call⟩ := call
  cases call with
  | submit submission => exact h.submit hcareful
  | job jobId event => exact h.job jobId event

/-- The jobs are kept in their places, some of them marked as stale. -/
def Marked (jobs jobs' : List IntegrationJob) : Prop :=
  ∃ f : IntegrationJob → IntegrationJob, jobs' = jobs.map f ∧
    ∀ job, f job = job ∨ f job = { job with isStale := true }

theorem Marked.refl (jobs : List IntegrationJob) : Marked jobs jobs :=
  ⟨id, (List.map_id _).symm, fun _ => .inl rfl⟩

theorem Marked.trans {jobs jobs' jobs'' : List IntegrationJob} (h : Marked jobs jobs')
    (h' : Marked jobs' jobs'') : Marked jobs jobs'' := by
  obtain ⟨f, rfl, hf⟩ := h
  obtain ⟨g, rfl, hg⟩ := h'
  refine ⟨g ∘ f, List.map_map, fun job => ?_⟩
  rw [Function.comp]
  rcases hg (f job) with hnext | hnext <;> rw [hnext]
  · exact hf job
  · rcases hf job with hsame | hsame <;> rw [hsame] <;> exact .inr rfl

theorem marked_markStale (world : World) (test : IntegrationJob → Bool) :
    Marked world.jobs (world.markStale test).jobs := by
  refine ⟨_, rfl, fun job => ?_⟩
  split
  · exact .inr rfl
  · exact .inl rfl

theorem marked_upsert (card : DocumentCard) (world : World) :
    Marked world.jobs (upsert now card world).1.jobs := by
  unfold upsert
  split
  · dsimp only
    split
    · exact marked_markStale world _
    · exact .refl _
  · exact .refl _

/-- A submission marks jobs and adds at most one, under a request id of its own. -/
theorem jobs_submit (submission : Submission) (world : World) : ∃ marked added,
    Marked world.jobs marked ∧ (createOrGet joins now submission world).1.jobs = marked ++ added ∧
      (added = [] ∨ ∃ job, added = [job] ∧ job.requestId ∉ world.jobs.map (·.requestId)) := by
  cases hnew : world.jobs.find? fun job => job.requestId = submission.requestId with
  | some existing =>
    exact ⟨_, [], .refl _, by rw [createOrGet_repeated hnew, List.append_nil], .inl rfl⟩
  | none =>
    have hup := @marked_upsert now submission.card world
    rw [createOrGet_new hnew]
    dsimp only
    split
    · exact ⟨_, [], hup, (List.append_nil _).symm, .inl rfl⟩
    · refine ⟨_, _, hup.trans ?_, rfl, .inr ⟨_, rfl, fun hin => ?_⟩⟩
      · split
        · unfold invalidateOtherChecksumJobs
          split
          · exact .refl _
          · exact marked_markStale _ _
        · exact .refl _
      · obtain ⟨known, hknown, hsame⟩ := List.mem_map.mp hin
        exact List.find?_eq_none.mp hnew known hknown (decide_eq_true hsame)

/-- The statuses of the jobs that there are stay when a card is submitted. -/
theorem status_submit {submission : Submission} {i : Nat} {job : IntegrationJob}
    (hjob : w.world.jobs[i]? = some job) :
    ∃ job', (createOrGet joins now submission w.world).1.jobs[i]? = some job' ∧
      job'.status = job.status := by
  obtain ⟨_, added, ⟨f, rfl, hf⟩, hjobs, -⟩ :=
    @jobs_submit joins now submission w.world
  refine ⟨f job, ?_, ?_⟩
  · rw [hjobs]
    exact (List.getElem?_append_left (by simpa using (List.getElem?_eq_some_iff.mp hjob).1)).trans
      (by rw [List.getElem?_map, hjob, Option.map_some])
  · rcases hf job with hsame | hsame <;> rw [hsame]

theorem Watched.Sound.keepsFaith (h : w.Sound) {call : Int × Call} (hcareful : Careful call w) :
    KeepsFaith joins w call := by
  refine ⟨(h.step hcareful).keys, ?_, ?_, ?_⟩
  · rintro now submission job rfl haccepted checksum hchecksum hne key hkey i earlier before hearlier
      hbefore hgiven hother hsame
    have hnew : (w.world.jobs.find? fun job => job.requestId = submission.requestId) = none := by
      cases hknown : w.world.jobs.find? fun job => job.requestId = submission.requestId with
      | none => rfl
      | some existing =>
        rw [createOrGet_repeated hknown] at haccepted
        cases haccepted
    obtain ⟨hsound, hid, hrow, hcontent⟩ := sound_accepted h hcareful hnew haccepted
    by_contra hfresh
    have hmade : (w.madeFor ++ [(upsert now submission.card w.world).2.checksum])[i]? =
        some (some before) :=
      (List.getElem?_append_left (List.getElem?_eq_some_iff.mp hbefore).1).trans hbefore
    obtain ⟨document, hdocument, hcurrent⟩ := hsound.current i earlier before hearlier hmade hgiven
      (Bool.not_eq_true _ ▸ hfresh)
    -- both jobs are of the one row that is known by the key
    obtain ⟨mine, hmine, hmineId, hmineKey⟩ := hkey
    obtain ⟨theirs, htheirs, htheirsId, htheirsKey⟩ := hsame
    have hone : mine = theirs := List.inj_on_of_nodup_map hsound.keys hmine htheirs
      (hmineKey.trans htheirsKey.symm)
    have hjobs : earlier.documentId = job.documentId := by
      rw [← htheirsId, ← hmineId, hone]
    rw [hjobs, hrow] at hdocument
    cases hdocument
    rw [hcontent (by rw [hchecksum]; exact decide_eq_true hne), hchecksum] at hcurrent
    exact hother (Option.some.inj hcurrent).symm
  · rintro now submission job rfl hknown
    exact createOrGet_repeated hknown
  · intro i job hjob hended
    obtain ⟨now, call⟩ := call
    cases call with
    | submit submission => exact status_submit hjob
    | job jobId event =>
      unfold World.step
      rw [List.getElem?_map, hjob]
      refine ⟨_, rfl, ?_⟩
      dsimp only
      split
      · next hid =>
        rw [(event.frame _ job).2.2.2]
        exact hcareful job (List.mem_of_getElem? hjob) hid hended
      · rfl

/-- **The service keeps faith** in every run in which no card without a revision comes for a document
that has a row without one, and no job is set to another status after its end; whether the library can
build the statement with the join or not. -/
theorem service_keepsFaith (joins : Bool) (calls : List (Int × Call)) (call : Int × Call)
    (h : Guarded (Watched.step joins) Careful (calls ++ [call]) ⟨{}, []⟩) :
    KeepsFaith joins (calls.foldl (Watched.step joins) ⟨{}, []⟩) call := by
  obtain ⟨hrun, hcareful⟩ := h.last
  have hstart : Watched.Sound ⟨{}, []⟩ :=
    ⟨(fun i document hdocument => by cases hdocument), (fun i job hjob => by cases hjob),
      List.nodup_nil, rfl, (fun i job checksum hjob => by cases hjob)⟩
  exact (hrun.invariant (P := Watched.Sound) (fun _ _ hw hstep => hw.step hstep) hstart).keepsFaith
    hcareful

end Runs

/-! ## Requests over a run -/

section Ledger

variable {world : World}

/-- A job goes on as the job that it is; what is stale stays stale. -/
def Continues (job job' : IntegrationJob) : Prop :=
  (job'.id, job'.requestId, job'.documentId, job'.sourceSystem, job'.rulesetVersion,
      job'.submittedBy) =
    (job.id, job.requestId, job.documentId, job.sourceSystem, job.rulesetVersion, job.submittedBy) ∧
  (job.isStale = true → job'.isStale = true)

theorem Continues.requestId {job job' : IntegrationJob} (h : Continues job job') :
    job'.requestId = job.requestId :=
  (Prod.mk.inj (Prod.mk.inj h.1).2).1

/-- A call changes the jobs in their places and adds at most one, under a request id of its own. -/
theorem World.jobs_step (call : Int × Call) : ∃ (f : IntegrationJob → IntegrationJob) (added : _),
    (∀ job, Continues job (f job)) ∧ (world.step joins call).jobs = world.jobs.map f ++ added ∧
      (added = [] ∨ ∃ job, added = [job] ∧ job.requestId ∉ world.jobs.map (·.requestId)) := by
  obtain ⟨now, submission | ⟨jobId, event⟩⟩ := call
  · obtain ⟨_, added, ⟨f, rfl, hf⟩, h⟩ := @jobs_submit joins now submission world
    refine ⟨f, added, fun job => ?_, h⟩
    rcases hf job with hsame | hsame <;> rw [hsame]
    exacts [⟨rfl, id⟩, ⟨rfl, fun _ => rfl⟩]
  · refine ⟨_, [], fun job => ?_, (List.append_nil _).symm, .inl rfl⟩
    split
    · cases event <;> exact ⟨rfl, id⟩
    · exact ⟨rfl, id⟩

theorem World.nodup_run (calls : List (Int × Call)) (h : (world.jobs.map (·.requestId)).Nodup) :
    ((calls.foldl (World.step joins) world).jobs.map (·.requestId)).Nodup := by
  induction calls generalizing world with
  | nil => exact h
  | cons call calls ih =>
    obtain ⟨f, added, hf, hjobs, hadded⟩ := @jobs_step joins world call
    have hkept : world.jobs.map ((·.requestId) ∘ f) = world.jobs.map (·.requestId) :=
      List.map_congr_left fun job _ => (hf job).requestId
    refine ih ?_
    rw [hjobs, List.map_append, List.map_map, hkept]
    obtain rfl | ⟨job, rfl, hfresh⟩ := hadded
    · rwa [List.map_nil, List.append_nil]
    · exact h.append (List.nodup_singleton _) (List.disjoint_singleton.mpr hfresh)

theorem World.continues_run (calls : List (Int × Call)) {job : IntegrationJob}
    (hjob : job ∈ world.jobs) :
    ∃ job' ∈ (calls.foldl (World.step joins) world).jobs, Continues job job' := by
  induction calls generalizing world job with
  | nil => exact ⟨job, hjob, rfl, id⟩
  | cons call calls ih =>
    obtain ⟨f, added, hf, hjobs, -⟩ := @jobs_step joins world call
    have hnext : f job ∈ (world.step joins call).jobs :=
      hjobs ▸ List.mem_append_left _ (List.mem_map_of_mem hjob)
    obtain ⟨job', hjob', hrest⟩ := ih hnext
    exact ⟨job', hjob', hrest.1.trans (hf job).1, hrest.2 ∘ (hf job).2⟩

/-- **A request has one job for good**: whatever is called after it, its repetition finds the job
that it got, still stale if it ever was, and changes nothing. -/
theorem createOrGet_finds_first (calls later : List (Int × Call)) (now : Int)
    (submission : Submission) :
    let world := calls.foldl (World.step joins) {}
    ∀ job ∈ world.jobs, job.requestId = submission.requestId → ∃ job', Continues job job' ∧
      createOrGet joins now submission (later.foldl (World.step joins) world) =
        (later.foldl (World.step joins) world, some (job', false)) := by
  intro world job hjob hrequest
  obtain ⟨job', hjob', hcontinues⟩ := World.continues_run later hjob
  refine ⟨job', hcontinues, createOrGet_repeated ?_⟩
  have hnodup : ((later.foldl (World.step joins) world).jobs.map (·.requestId)).Nodup :=
    World.nodup_run later (World.nodup_run calls List.nodup_nil)
  have hsame := hcontinues.requestId.trans hrequest
  cases hfind : (later.foldl (World.step joins) world).jobs.find?
      fun job => job.requestId = submission.requestId with
  | none => exact absurd (decide_eq_true hsame) (List.find?_eq_none.mp hfind job' hjob')
  | some found =>
    have hfound : found.requestId = submission.requestId := by simpa using List.find?_some hfind
    rw [List.inj_on_of_nodup_map hnodup (List.mem_of_find?_eq_some hfind) hjob'
      (hfound.trans hsame.symm)]

end Ledger

/-- A request for revision A of a drawing with some content. -/
def drawing (requestId checksum : String) : Call :=
  .submit
    { requestId
      card := { documentId := "doc-1", revision := some "A", checksum := some checksum } }

theorem service_keepsFaith_newContent :
    (((Watched.step true ⟨{}, []⟩ (0, drawing "r1" "c1")).world.step true
        (1, drawing "r2" "c2")).jobs.map (·.isStale)) = [true, false] ∧
      KeepsFaith true ([(0, drawing "r1" "c1")].foldl (Watched.step true) ⟨{}, []⟩)
        (1, drawing "r2" "c2") := by
  refine ⟨by decide +kernel, service_keepsFaith true [(0, drawing "r1" "c1")] _ ?_⟩
  exact ⟨.inr (.inl (by decide)), .inr (.inl (by decide)), trivial⟩

/-- A document is submitted, its check begins, and the job is cancelled. -/
def afterCancel : Watched :=
  [(0, Call.submit { requestId := "r1", card := { documentId := "doc-1" } }),
    (1, .job 0 (.setStatus "running")), (2, .job 0 .cancel)].foldl (Watched.step false) ⟨{}, []⟩

def checkEnds : Int × Call :=
  (3, .job 0 (.complete ⟨.null, "approved", 0, 0, 0, none⟩))

theorem keepsFaith_completedAfterCancel_fails : ¬ KeepsFaith false afterCancel checkEnds := by
  intro h
  have hrun : afterCancel.world.jobs.map (·.status) = ["cancelled"] ∧
      (afterCancel.world.step false checkEnds).jobs.map (·.status) = ["completed"] := by
    decide +kernel
  obtain ⟨hbefore, hafter⟩ := hrun
  have hfirst : (afterCancel.world.jobs.map (·.status))[0]? = some "cancelled" := by rw [hbefore]; rfl
  rw [List.getElem?_map] at hfirst
  obtain ⟨job, hjob, hstatus⟩ := Option.map_eq_some_iff.mp hfirst
  obtain ⟨job', hjob', hsame⟩ := h.final 0 job hjob (by rw [hstatus]; exact .head _)
  have hlast : ((afterCancel.world.step false checkEnds).jobs.map (·.status))[0]? =
      some "cancelled" := by
    rw [List.getElem?_map, hjob', Option.map_some, hsame, hstatus]
  rw [hafter] at hlast
  exact absurd hlast (by decide)

end AgentBack.Eskd
