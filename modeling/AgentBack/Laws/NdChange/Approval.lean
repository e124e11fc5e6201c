import AgentBack.Base.Guarded
import AgentBack.NdChange.Requests

/-!
# A draft that has been sent to approval stays as it was reviewed

A request is sent when a user has marked the review of the draft that was written last, and once it
has been sent the document, the draft, the status and the route stay (`Lawful`). Only the sending
looks at the status, and the writing of a draft can set the mark itself, so this holds in the runs in
which a request with a live route is left alone and the mark is a user's (`approval_freezes`).
-/

namespace AgentBack.NdChange

open Py (Value)

/-! ## What is watched -/

def ChangeRequest.Live (request : ChangeRequest) : Prop :=
  ∃ route ∈ request.approvalRoutes, route.status = .sent

/-- A world, with the number of drafts there were when a user last marked the review, among what has
been committed and among what the session sees. -/
structure Watched where
  world : World
  storedMark : Option Nat
  loadedMark : Option Nat

def Operation.marks : Operation → Bool
  | .markUserReviewed => true
  | _ => false

def Operation.sends : Operation → Bool
  | .sendToApproval _ => true
  | _ => false

/-- A mark is committed and rolled back as the rows are. -/
def Watched.step (w : Watched) : Event → Watched
  | .call call =>
    match (call.run w.world.loaded).2 with
    | some _ =>
      { w with
        world := w.world.step (.call call)
        loadedMark :=
          if call.operation.marks then some w.world.draftsWritten else w.loadedMark }
    | none => { w with world := w.world.step (.call call), loadedMark := w.storedMark }
  | .commit => { w with world := w.world.step .commit, storedMark := w.loadedMark }
  | .rollback => { w with world := w.world.step .rollback, loadedMark := w.storedMark }

/-- A request that has just been created has no mark. -/
def Watched.created (id : Nat) (payload : NewRequest) : Watched :=
  ⟨World.created id payload, none, none⟩

/-- What stays of a request that has been sent. -/
structure Frozen (before after : ChangeRequest) : Prop where
  document : after.selectedDocumentId = before.selectedDocumentId
  version : after.selectedDocumentVersionId = before.selectedDocumentVersionId
  drafts : after.draftFiles = before.draftFiles
  routes : after.approvalRoutes = before.approvalRoutes
  status : after.status = .sentToApproval

/-- **A call keeps the approval.** What is sent was marked after the last draft was written, and a
request with a live route keeps its document, its drafts, its status and its routes. -/
structure Lawful (w : Watched) (call : Call) : Prop where
  reviewed : call.operation.sends = true → (call.run w.world.loaded).2.isSome = true →
    w.loadedMark = some w.world.draftsWritten
  sent : w.world.loaded.Live → w.world.loaded.status = .sentToApproval
  frozen : w.world.loaded.Live → ∀ request, (call.run w.world.loaded).2 = some request →
    Frozen w.world.loaded request
  unwritten : w.world.loaded.Live → (call.run w.world.loaded).1 = false

def Operation.edits : Operation → Bool
  | .detectDocument _ => true
  | .selectDocument _ _ => true
  | .findLocation _ => true
  | .applyChanges _ _ _ => true
  | .markUserReviewed => false
  | .sendToApproval _ => false

def Operation.presumesReview : Operation → Bool
  | .applyChanges _ mark _ => mark
  | _ => false

def NoAccess (call : Call) (request : ChangeRequest) : Prop :=
  ∀ documentId, request.selectedDocumentId = some documentId →
    hasDocumentAccess call.access call.user documentId = false

/-- An operation that leads to a draft is refused by its own checks, or by the service it asks before
anything is written. -/
def Refused (call : Call) (request : ChangeRequest) : Prop :=
  match call.operation with
  | .detectDocument found =>
    (request.reason = "" ∨ request.changeText = "") ∨
      ∃ top, found.head? = some top ∧ (8 / 10 : Rat) ≤ top.score ∧
        hasDocumentAccess call.access call.user top.documentId = false
  | .selectDocument documentId _ => hasDocumentAccess call.access call.user documentId = false
  | .findLocation located => NoAccess call request ∨ located = none
  | .applyChanges _ _ edit =>
    NoAccess call request ∨
      (∀ documentId, request.selectedDocumentId = some documentId →
        ∀ document ∈ call.access.db.documents, document.id ≠ documentId) ∨
      edit = .raises
  | .markUserReviewed => False
  | .sendToApproval _ => False

/-- An operation that leads to a draft is refused, or there is no live route and the mark is left to a
user. -/
def Careful (event : Event) (w : Watched) : Prop :=
  match event with
  | .call call => call.operation.edits = true →
    Refused call w.world.loaded ∨
      ¬ w.world.loaded.Live ∧ call.operation.presumesReview = false
  | _ => True

/-! ## What the operations keep -/

section Operations

variable {call : Call} {request request' : ChangeRequest}

theorem selectDocument_eq_none {documentId : Nat} {versionId : Option Nat}
    (h : hasDocumentAccess call.access call.user documentId = false) :
    selectDocument call.access call.user documentId versionId request = none := by
  unfold selectDocument
  rw [h]
  rfl

/-- What is refused changes nothing and writes nothing. -/
theorem run_of_refused (h : Refused call request) : call.run request = (false, none) := by
  unfold Refused at h
  unfold Call.run
  cases hop : call.operation with
  | detectDocument found =>
    simp only [hop] at h ⊢
    unfold detectDocument
    rcases h with h | ⟨top, htop, hscore, haccess⟩
    · rw [if_pos h]
    · split
      · rfl
      · have hhead : (found.mapIdx fun index item => CandidateDocument.mk item.documentId
            item.documentVersionId item.score (index + 1) false).head? =
            some ⟨top.documentId, top.documentVersionId, top.score, 1, false⟩ := by
          cases found with
          | nil => cases htop
          | cons first rest =>
            cases htop
            rw [List.mapIdx_cons]
            rfl
        simp only [hhead]
        rw [if_pos hscore, selectDocument_eq_none haccess]
  | selectDocument documentId versionId =>
    simp only [hop] at h ⊢
    rw [selectDocument_eq_none h]
  | findLocation located =>
    simp only [hop] at h ⊢
    unfold findLocation
    cases hselected : request.selectedDocumentId with
    | none => rfl
    | some documentId =>
      simp only
      rcases h with h | h
      · rw [h documentId hselected]
        rfl
      · rw [h]
        split <;> rfl
  | applyChanges locationId mark edit =>
    simp only [hop] at h ⊢
    unfold applyChanges
    cases hselected : request.selectedDocumentId with
    | none => rfl
    | some documentId =>
      simp only
      split
      · rfl
      · next hdocument =>
        split
        · rfl
        · next haccess =>
          rcases h with h | h | h
          · rw [h documentId hselected] at haccess
            exact absurd rfl haccess
          · refine absurd (List.all_eq_true.mpr fun document hin => ?_) hdocument
            exact decide_eq_true (h documentId hselected document hin)
          · rw [h]
  | markUserReviewed | sendToApproval approvalUserIds => simp only [hop] at h

/-- The mark, the row behind it and the routes stay. -/
structure KeepsReview (before after : ChangeRequest) : Prop where
  metadata : after.metadata = before.metadata
  metadataRow : after.metadataRow = before.metadataRow
  routes : after.approvalRoutes = before.approvalRoutes

theorem keepsReview_selectDocument {documentId : Nat} {versionId : Option Nat}
    (h : selectDocument call.access call.user documentId versionId request = some request') :
    KeepsReview request request' := by
  unfold selectDocument at h
  split at h
  · cases h
  · cases h
    exact ⟨rfl, rfl, rfl⟩

theorem keepsReview_detectDocument {found : List FoundDocument}
    (h : detectDocument call.access call.user found request = some request') :
    KeepsReview request request' := by
  unfold detectDocument at h
  split at h
  · cases h
  · dsimp only at h
    split at h
    · cases h
      exact ⟨rfl, rfl, rfl⟩
    · split at h
      · have hselected := keepsReview_selectDocument h
        exact ⟨hselected.metadata, hselected.metadataRow, hselected.routes⟩
      · cases h
        exact ⟨rfl, rfl, rfl⟩

theorem keepsReview_findLocation {located : Option (List LocatedChange)}
    (h : findLocation call.access call.user located request = some request') :
    KeepsReview request request' := by
  unfold findLocation at h
  split at h
  · cases h
  · split at h
    · cases h
    · obtain ⟨places, -, rfl⟩ := Option.map_eq_some_iff.mp h
      exact ⟨rfl, rfl, rfl⟩

/-- A draft that is applied leaves the routes and sets the mark as it is told. -/
theorem applyChanges_eq_some {locationId : Option Nat} {mark : Bool} {edit : EditOutcome}
    (h : (applyChanges call.access call.user locationId mark edit request).2 = some request') :
    ∃ applied : ChangeRequest, KeepsReview request applied ∧
      request' = applied.setReviewed mark := by
  unfold applyChanges at h
  split at h
  · cases h
  · split at h
    · cases h
    · split at h
      · cases h
      · split at h
        · cases h
        · cases h
        · cases h
          refine ⟨_, ?_, rfl⟩
          exact ⟨rfl, rfl, rfl⟩

/-- What is sent was ready, with a mark, and gets a route. -/
theorem sendToApproval_eq_some {approvalUserIds : List Nat}
    (h : sendToApproval call.user approvalUserIds request = some request') :
    request.status = .readyForUserReview ∧ request.userReviewed = true ∧
      request'.status = .sentToApproval ∧ request'.metadata = request.metadata ∧
      request'.metadataRow = request.metadataRow := by
  unfold sendToApproval at h
  split at h
  · cases h
  · next hready =>
    split at h
    · cases h
    · next hreviewed =>
      cases h
      refine ⟨?_, ?_, rfl, rfl, rfl⟩
      · exact not_not.mp (not_or.mp hready).1
      · cases hmark : request.userReviewed with
        | true => rfl
        | false => exact absurd (by rw [hmark]; rfl) hreviewed

end Operations

/-! ## The invariant -/

/-- The request has a dictionary in memory and one in its row, where the review is not marked, and
with a live route it is sent. -/
structure Sound (request : ChangeRequest) : Prop where
  metadata : ∃ metadata, request.metadata = some metadata ∧ metadata.items.isEmpty = false
  row : ∃ metadata, request.metadataRow = some metadata ∧ metadata.items.isEmpty = false ∧
    metadata.get? "user_reviewed" = some (.bool false)
  sent : request.Live → request.status = .sentToApproval

section Invariant

variable {request request' : ChangeRequest}

theorem not_isEmpty_of_get? {metadata : Dict String Value} {key : String} {value : Value}
    (h : metadata.get? key = some value) : metadata.items.isEmpty = false := by
  unfold Dict.get? at h
  cases hitems : metadata.items with
  | nil =>
    rw [hitems] at h
    cases h
  | cons item rest => rfl

section

variable (h : Sound request)
include h

/-- The dictionary of a sound request is changed in place. -/
theorem Sound.setReviewed_eq (reviewed : Bool) :
    ∃ metadata : Dict String Value, request.setReviewed reviewed =
      { request with metadata := some (metadata.set "user_reviewed" (.bool reviewed)) } := by
  obtain ⟨metadata, hmetadata, hitems⟩ := h.metadata
  refine ⟨metadata, ?_⟩
  unfold ChangeRequest.setReviewed
  rw [hmetadata]
  simp only
  rw [hitems, if_neg Bool.false_ne_true]

theorem Sound.setReviewed (reviewed : Bool) :
    Sound (request.setReviewed reviewed) := by
  obtain ⟨metadata, heq⟩ := h.setReviewed_eq reviewed
  have hget : (metadata.set "user_reviewed" (.bool reviewed)).get? "user_reviewed" =
      some (.bool reviewed) := by
    rw [Dict.get?_set, if_pos rfl]
  rw [heq]
  exact ⟨⟨_, rfl, not_isEmpty_of_get? hget⟩, h.row, h.sent⟩

theorem Sound.userReviewed_setReviewed (reviewed : Bool) :
    (request.setReviewed reviewed).userReviewed = reviewed := by
  obtain ⟨metadata, heq⟩ := h.setReviewed_eq reviewed
  rw [heq]
  unfold ChangeRequest.userReviewed
  simp only [Option.bind_some]
  rw [Dict.get?_set, if_pos rfl]
  rfl

theorem Sound.reload :
    Sound request.reload ∧ request.reload.userReviewed = false := by
  obtain ⟨metadata, hrow, hitems, hget⟩ := h.row
  refine ⟨⟨⟨metadata, hrow, hitems⟩, h.row, h.sent⟩, ?_⟩
  unfold ChangeRequest.userReviewed ChangeRequest.reload
  rw [hrow, Option.bind_some, hget]
  rfl

theorem Sound.of_keepsReview (hkeeps : KeepsReview request request') (hlive : ¬ request.Live) :
    Sound request' := by
  refine ⟨?_, ?_, fun hlive' => absurd ?_ hlive⟩
  · rw [hkeeps.metadata]
    exact h.metadata
  · rw [hkeeps.metadataRow]
    exact h.row
  · unfold ChangeRequest.Live at hlive' ⊢
    rw [← hkeeps.routes]
    exact hlive'

end

theorem KeepsReview.userReviewed (h : KeepsReview request request') :
    request'.userReviewed = request.userReviewed := by
  unfold ChangeRequest.userReviewed
  rw [h.metadata]

theorem sound_create (id : Nat) (payload : NewRequest) :
    Sound (create id payload) ∧ (create id payload).userReviewed = false := by
  have hget : ∀ metadata : Dict String Value,
      (metadata.set "user_reviewed" (.bool false)).get? "user_reviewed" = some (.bool false) :=
    fun metadata => by rw [Dict.get?_set, if_pos rfl]
  refine ⟨⟨⟨_, rfl, not_isEmpty_of_get? (hget _)⟩, ⟨_, rfl, not_isEmpty_of_get? (hget _), hget _⟩,
    ?_⟩, ?_⟩
  · rintro ⟨route, hroute, -⟩
    cases hroute
  · unfold ChangeRequest.userReviewed create
    simp only [Option.bind_some, hget]
    rfl

end Invariant

/-- The rows and the session are sound, and a mark that the session sees is of the last draft. -/
structure Watched.Sound (w : Watched) : Prop where
  stored : NdChange.Sound w.world.stored
  unmarked : w.world.stored.userReviewed = false
  loaded : NdChange.Sound w.world.loaded
  marked : w.world.loaded.userReviewed = true → w.loadedMark = some w.world.draftsWritten

section Runs

variable {w : Watched} {call : Call}

/-- A careful operation that succeeds is not refused, so that there is no live route. -/
theorem careful_of_some {request : ChangeRequest} (hcareful : Careful (.call call) w)
    (hrun : (call.run w.world.loaded).2 = some request) (hedits : call.operation.edits = true) :
    ¬ w.world.loaded.Live ∧ call.operation.presumesReview = false := by
  refine (hcareful hedits).resolve_left fun hrefused => ?_
  rw [run_of_refused hrefused] at hrun
  cases hrun

/-- Rolled back, the session sees what has been committed. -/
theorem Watched.Sound.rollback (h : w.Sound) (world : World) (hstored : world.stored = w.world.stored)
    (hloaded : world.loaded = w.world.stored) (mark : Option Nat) :
    Watched.Sound { world, storedMark := w.storedMark, loadedMark := mark } := by
  refine ⟨?_, ?_, ?_, fun hmarked => ?_⟩
  · rw [hstored]
    exact h.stored
  · rw [hstored]
    exact h.unmarked
  · rw [hloaded]
    exact h.stored
  · rw [hloaded, h.unmarked] at hmarked
    cases hmarked

theorem sound_of_run {request : ChangeRequest} (h : w.Sound) (hcareful : Careful (.call call) w)
    (hrun : (call.run w.world.loaded).2 = some request) :
    NdChange.Sound request ∧
      (request.userReviewed = true →
        (call.run w.world.loaded).1 = false ∧
          (call.operation.marks = true ∨ w.world.loaded.userReviewed = true)) := by
  have hkeeps : ∀ {request'}, KeepsReview w.world.loaded request' →
      call.operation.edits = true → (call.run w.world.loaded).1 = false → request' = request →
      NdChange.Sound request ∧ (request.userReviewed = true →
        (call.run w.world.loaded).1 = false ∧
          (call.operation.marks = true ∨ w.world.loaded.userReviewed = true)) := by
    rintro request' hkeeps hedits hwritten rfl
    refine ⟨h.loaded.of_keepsReview hkeeps (careful_of_some hcareful hrun hedits).1, fun hmarked => ?_⟩
    exact ⟨hwritten, .inr (hkeeps.userReviewed ▸ hmarked)⟩
  cases hop : call.operation with
  | detectDocument found =>
    have hout : detectDocument call.access call.user found w.world.loaded = some request := by
      simpa only [Call.run, hop] using hrun
    exact hop ▸ hkeeps (keepsReview_detectDocument hout) (by rw [hop]; rfl)
      (by simp only [Call.run, hop]) rfl
  | selectDocument documentId versionId =>
    have hout : selectDocument call.access call.user documentId versionId w.world.loaded =
        some request := by
      simpa only [Call.run, hop] using hrun
    exact hop ▸ hkeeps (keepsReview_selectDocument hout) (by rw [hop]; rfl)
      (by simp only [Call.run, hop]) rfl
  | findLocation located =>
    have hout : findLocation call.access call.user located w.world.loaded = some request := by
      simpa only [Call.run, hop] using hrun
    exact hop ▸ hkeeps (keepsReview_findLocation hout) (by rw [hop]; rfl)
      (by simp only [Call.run, hop]) rfl
  | applyChanges locationId mark edit =>
    have hout : (applyChanges call.access call.user locationId mark edit w.world.loaded).2 =
        some request := by
      simpa only [Call.run, hop] using hrun
    obtain ⟨hlive, hpresumes⟩ := careful_of_some hcareful hrun (by rw [hop]; rfl)
    obtain rfl : mark = false := by
      rw [hop] at hpresumes
      exact hpresumes
    obtain ⟨applied, hkept, rfl⟩ := applyChanges_eq_some hout
    have hsound := h.loaded.of_keepsReview hkept hlive
    refine ⟨hsound.setReviewed false, fun hmarked => ?_⟩
    rw [hsound.userReviewed_setReviewed] at hmarked
    cases hmarked
  | markUserReviewed =>
    have hout : w.world.loaded.setReviewed true = request := by
      simpa only [Call.run, hop, Option.some.injEq] using hrun
    refine ⟨hout ▸ h.loaded.setReviewed true, fun _ => ⟨?_, .inl rfl⟩⟩
    simp only [Call.run, hop]
  | sendToApproval approvalUserIds =>
    have hout : sendToApproval call.user approvalUserIds w.world.loaded = some request := by
      simpa only [Call.run, hop] using hrun
    obtain ⟨-, hreviewed, hstatus, hmetadata, hrow⟩ := sendToApproval_eq_some hout
    refine ⟨⟨?_, ?_, fun _ => hstatus⟩, fun _ => ⟨?_, .inr hreviewed⟩⟩
    · rw [hmetadata]
      exact h.loaded.metadata
    · rw [hrow]
      exact h.loaded.row
    · simp only [Call.run, hop]

theorem Watched.Sound.step (h : w.Sound) {event : Event} (hcareful : Careful event w) :
    (w.step event).Sound := by
  cases event with
  | call call =>
    cases hrun : (call.run w.world.loaded).2 with
    | none =>
      have hworld : (w.world.step (.call call)).stored = w.world.stored ∧
          (w.world.step (.call call)).loaded = w.world.stored := by
        constructor <;> simp only [World.step, hrun]
      simp only [Watched.step, hrun]
      exact h.rollback _ hworld.1 hworld.2 _
    | some request =>
      obtain ⟨hsound, hmarked⟩ := sound_of_run h hcareful hrun
      have hworld : w.world.step (.call call) =
          { w.world with
            loaded := request
            draftsWritten := if (call.run w.world.loaded).1 then w.world.draftsWritten + 1
              else w.world.draftsWritten } := by
        unfold World.step
        simp only [hrun]
      simp only [Watched.step, hrun, hworld]
      refine ⟨h.stored, h.unmarked, hsound, fun hreviewed => ?_⟩
      obtain ⟨hwritten, hmark⟩ := hmarked hreviewed
      simp only [hwritten, Bool.false_eq_true, if_false]
      cases hmarks : call.operation.marks with
      | true => simp only [if_true]
      | false =>
        simp only [Bool.false_eq_true, if_false]
        exact h.marked (hmark.resolve_left (by rw [hmarks]; exact Bool.false_ne_true))
  | commit =>
    obtain ⟨hsound, hunmarked⟩ := h.loaded.reload
    refine ⟨hsound, hunmarked, hsound, fun hreviewed => ?_⟩
    have hreload : w.world.loaded.reload.userReviewed = true := hreviewed
    rw [hunmarked] at hreload
    cases hreload
  | rollback => exact h.rollback (w.world.step .rollback) rfl rfl _

/-- A careful call of a sound world keeps the approval. -/
theorem Watched.Sound.lawful (h : w.Sound) (hcareful : Careful (.call call) w) : Lawful w call := by
  refine ⟨fun hsends hrun => ?_, h.loaded.sent, fun hlive request hrun => ?_, fun hlive => ?_⟩
  · obtain ⟨request, hrun⟩ := Option.isSome_iff_exists.mp hrun
    cases hop : call.operation with
    | sendToApproval approvalUserIds =>
      have hout : sendToApproval call.user approvalUserIds w.world.loaded = some request := by
        simpa only [Call.run, hop] using hrun
      exact h.marked (sendToApproval_eq_some hout).2.1
    | _ =>
      rw [hop] at hsends
      cases hsends
  · have hsent := h.loaded.sent hlive
    cases hop : call.operation with
    | markUserReviewed =>
      obtain ⟨metadata, heq⟩ := h.loaded.setReviewed_eq true
      have hout : w.world.loaded.setReviewed true = request := by
        simpa only [Call.run, hop, Option.some.injEq] using hrun
      rw [← hout, heq]
      exact ⟨rfl, rfl, rfl, rfl, hsent⟩
    | sendToApproval approvalUserIds =>
      have hout : sendToApproval call.user approvalUserIds w.world.loaded = some request := by
        simpa only [Call.run, hop] using hrun
      have hready := (sendToApproval_eq_some hout).1
      rw [hsent] at hready
      cases hready
    | _ => exact absurd hlive (careful_of_some hcareful hrun (by rw [hop]; rfl)).1
  · cases hop : call.operation with
    | applyChanges locationId mark edit =>
      have hrefused := (hcareful (by rw [hop]; rfl)).resolve_right fun hfree => hfree.1 hlive
      rw [run_of_refused hrefused]
    | _ => simp only [Call.run, hop]

/-- **The approval freezes the draft** in every run in which the operations that lead to a draft leave
a request with a live route alone, and leave the mark of the review to a user. -/
theorem approval_freezes (id : Nat) (payload : NewRequest) (events : List Event) (call : Call)
    (h : Guarded Watched.step Careful (events ++ [.call call]) (Watched.created id payload)) :
    Lawful (events.foldl Watched.step (Watched.created id payload)) call := by
  obtain ⟨hrun, hcareful⟩ := h.last
  obtain ⟨hsound, hunmarked⟩ := sound_create id payload
  have hstart : (Watched.created id payload).Sound :=
    ⟨hsound, hunmarked, hsound, fun hreviewed => by
      have hcreated : (create id payload).userReviewed = true := hreviewed
      rw [hunmarked] at hcreated
      cases hcreated⟩
  exact (hrun.invariant (P := Watched.Sound) (fun _ _ hw hstep => hw.step hstep) hstart).lawful hcareful

end Runs

/-! ## A document that is selected after the approval -/

/-- A user who may see every document, and the document. -/
def editorCall (operation : Operation) : Call where
  user := { id := 1, isSuperuser := true }
  access :=
    { db :=
        { departments := ⟨[], fun _ => 0, fun _ hrow => absurd hrow List.not_mem_nil⟩
          documents := [{ id := 3 }] }
      now := 0
      sources := [] }
  operation

def plainPayload : NewRequest :=
  ⟨"ND-1", "Причина", "Текст", none, .null, .null, .null, .null, Dict.empty⟩

/-- The document is selected, the draft is written, and in a third session the review is marked. -/
def untilReview : List Event :=
  [.call (editorCall (.selectDocument 3 none)), .commit,
    .call (editorCall (.applyChanges none false
      (.done ⟨⟨"drafts/ND-1.docx", []⟩, ⟨"notices/ND-1.docx", []⟩, [], []⟩))), .commit,
    .call (editorCall .markUserReviewed)]

def sending : Call := editorCall (.sendToApproval [2])

theorem approval_freezes_reviewed :
    (sending.run (untilReview.foldl Watched.step
        (Watched.created 0 plainPayload)).world.loaded).2.isSome = true ∧
      Lawful (untilReview.foldl Watched.step (Watched.created 0 plainPayload)) sending := by
  refine ⟨by decide +kernel, approval_freezes 0 plainPayload untilReview sending ?_⟩
  refine ⟨fun _ => .inr ⟨?_, rfl⟩, trivial, fun _ => .inr ⟨?_, rfl⟩, trivial,
    (fun hedits => by cases hedits), (fun hedits => by cases hedits), trivial⟩
  · rintro ⟨route, hroute, -⟩
    cases hroute
  · rintro ⟨route, hroute, -⟩
    cases hroute

def afterSending : Watched :=
  (untilReview ++ [Event.call sending, .commit]).foldl Watched.step (Watched.created 0 plainPayload)

def reselection : Call := editorCall (.selectDocument 4 none)

theorem lawful_selectedAfterApproval_fails : ¬ Lawful afterSending reselection := by
  intro h
  have hrun : afterSending.world.loaded.approvalRoutes.map (·.status) = [.sent] ∧
      (reselection.run afterSending.world.loaded).2.map (·.status) = some .documentSelected := by
    decide +kernel
  obtain ⟨hroutes, hselected⟩ := hrun
  obtain ⟨request, hrequest, hstatus⟩ := Option.map_eq_some_iff.mp hselected
  obtain ⟨route, hin, hsent⟩ := List.mem_map.mp (hroutes ▸ List.mem_singleton.mpr rfl :
    ApprovalStatus.sent ∈ afterSending.world.loaded.approvalRoutes.map (·.status))
  have hfrozen := (h.frozen ⟨route, hin, hsent⟩ request hrequest).status
  rw [hstatus] at hfrozen
  cases hfrozen

end AgentBack.NdChange
