import AgentBack.Laws.Mail.Attachments

/-!
# The volume under a run of attachments

A place on the volume is made of the day and the name of a file, and nothing keeps two records from
having the same. An attachment writes and removes at the place of its own file only, so that the
files of the other records stay as they are when none of these has that place.
-/

namespace AgentBack.Mail.Attachments

inductive Call where
  | attach (documentRefKey : String) (file : AttachedFileInput) (answers : AttachAnswers)
      (key : RefKey) (deletion : DeleteAnswer) (verifyOwnerExists : Bool)
  | replace (documentRefKey : String) (files : List AttachedFileInput) (server : Server)
      (verifyOwnerExists : Bool)

/-- One attachment of a run: the worlds before and after it, and its file. -/
structure AttachStep where
  before : World
  file : AttachedFileInput
  after : World

/-- The files of the records are as they were. -/
def Frame (w w' : World) : Prop :=
  ∀ r ∈ w.records, ∀ place, r.place = some place → w'.volume place = w.volume place

section
variable (lower locate : String → String) (defaults : Defaults)

def Call.run (w : World) : Call → World
  | .attach documentRefKey file answers key deletion verifyOwnerExists =>
    (attachFileToIncomingDocument lower locate defaults documentRefKey file answers key deletion
      verifyOwnerExists w).1
  | .replace documentRefKey files server verifyOwnerExists =>
    (replaceAttachedFilesForDocument lower locate defaults documentRefKey files server
      verifyOwnerExists w).1

/-- The attachments of the loop over the files, up to the first that fails. -/
def loopSteps (documentRefKey : String) (server : Server) (verifyOwnerExists : Bool) :
    Nat → List AttachedFileInput → World → List AttachStep
  | _, [], _ => []
  | index, file :: rest, w =>
    let key := server.newKey index
    match attachFileToIncomingDocument lower locate defaults documentRefKey file
        (server.attach index) key (server.deletion key) (verifyOwnerExists && index == 0) w with
    | (w', .error _) => [⟨w, file, w'⟩]
    | (w', .ok _) =>
      ⟨w, file, w'⟩ :: loopSteps documentRefKey server verifyOwnerExists (index + 1) rest w'

def Call.steps (w : World) : Call → List AttachStep
  | .attach documentRefKey file answers key deletion verifyOwnerExists =>
    [⟨w, file, (attachFileToIncomingDocument lower locate defaults documentRefKey file answers key
      deletion verifyOwnerExists w).1⟩]
  | .replace documentRefKey files server verifyOwnerExists =>
    match normalizeDocumentRefKey documentRefKey with
    | .error _ => []
    | .ok _ =>
      if server.lists then
        loopSteps lower locate defaults documentRefKey server verifyOwnerExists 0 files w
      else []

def EveryCall (holds : Call → World → Prop) : World → List Call → Prop
  | _, [] => True
  | w, call :: rest => holds call w ∧ EveryCall holds (call.run lower locate defaults w) rest

/-- A call leaves the files of the other records as they are: each attachment the files of the
records that exist before it, and the call those of the records that exist before the call. -/
structure LeavesFiles (call : Call) (w : World) : Prop where
  steps : ∀ step ∈ call.steps lower locate defaults w, Frame step.before step.after
  whole : Frame w (call.run lower locate defaults w)

/-- No record that exists before the attachment has the place of its file. -/
def AttachStep.Apart (step : AttachStep) : Prop :=
  (resolveAttachedFileUploadPlan defaults).volumePreupload = true →
  ∀ place, placeOf lower locate defaults step.file = some place →
    ∀ r ∈ step.before.records, r.place ≠ some place

/-! ## One attachment -/

theorem preupload_volume {place : Option String} {other : String}
    (hother : (resolveAttachedFileUploadPlan defaults).volumePreupload = true → place ≠ some other)
    (content : Content) (answer : WriteAnswer) (w : World) :
    (preuploadVolumeFile defaults place content answer w).1.volume other = w.volume other ∧
      ∀ preuploaded, (preuploadVolumeFile defaults place content answer w).2 = .ok (some preuploaded) →
        preuploaded ≠ other := by
  unfold preuploadVolumeFile
  cases hplan : (resolveAttachedFileUploadPlan defaults).volumePreupload with
  | false => exact ⟨rfl, nofun⟩
  | true =>
    rw [if_pos rfl]
    cases place with
    | none => exact ⟨rfl, nofun⟩
    | some place =>
      have hne : place ≠ other := fun heq => hother hplan (congrArg some heq)
      have hwrite : ∀ bytes, (w.write place bytes).volume other = w.volume other := by
        intro bytes
        exact Function.update_of_ne hne.symm _ _
      cases answer with
      | refused => exact ⟨rfl, nofun⟩
      | broken bytes => exact ⟨hwrite bytes, nofun⟩
      | written =>
        refine ⟨hwrite content, ?_⟩
        intro preuploaded h
        cases h
        exact hne

theorem cleanup_volume {preuploaded : Option String} {other : String}
    (hother : preuploaded ≠ some other) (unlinks : Bool) (w : World) :
    (cleanupPreuploadedVolumeFile preuploaded unlinks w).volume other = w.volume other := by
  unfold cleanupPreuploadedVolumeFile
  cases preuploaded with
  | none => rfl
  | some place =>
    cases unlinks with
    | false => rfl
    | true => exact Function.update_of_ne (fun heq => hother (congrArg some heq.symm)) _ _

theorem createRecord_volume (record : Record) (answer : CreateAnswer) (w : World) :
    (createRecord record answer w).1.volume = w.volume := by
  cases answer <;> rfl

theorem delete_volume (w : World) (key : RefKey) (answer : DeleteAnswer) :
    (w.delete key answer).volume = w.volume := by
  cases answer <;> rfl

variable (documentRefKey : String)

/-- An attachment touches the place of its own file at most. -/
theorem attach_volume (file : AttachedFileInput) (answers : AttachAnswers) (key : RefKey)
    (deletion : DeleteAnswer) (verifyOwnerExists : Bool) (w : World) {other : String}
    (hother : (resolveAttachedFileUploadPlan defaults).volumePreupload = true →
      placeOf lower locate defaults file ≠ some other) :
    (attachFileToIncomingDocument lower locate defaults documentRefKey file answers key deletion
      verifyOwnerExists w).1.volume other = w.volume other := by
  unfold attachFileToIncomingDocument
  cases hprepare : prepareAttachment lower locate defaults documentRefKey file answers
    verifyOwnerExists with
  | error e => rfl
  | ok prepared =>
    obtain ⟨owner, place⟩ := prepared
    obtain ⟨-, hplace⟩ := prepareAttachment_ok lower locate defaults hprepare
    rw [← hplace] at hother
    obtain ⟨hwritten, hpre⟩ := preupload_volume defaults hother file.content answers.write w
    simp only
    generalize preuploadVolumeFile defaults place file.content answers.write w = run at hwritten hpre
    obtain ⟨w₁, result⟩ := run
    cases result with
    | error e => exact hwritten
    | ok preuploaded =>
      have hpreuploaded : preuploaded ≠ some other := by
        intro heq
        exact hpre other (congrArg Except.ok heq) rfl
      have hcreated := createRecord_volume ⟨key, owner, place⟩ answers.create w₁
      simp only
      generalize createRecord ⟨key, owner, place⟩ answers.create w₁ = run₂ at hcreated
      obtain ⟨w₂, result₂⟩ := run₂
      have hvolume : w₂.volume other = w.volume other := by
        rw [show w₂.volume = w₁.volume from hcreated]
        exact hwritten
      cases result₂ with
      | error e =>
        exact (cleanup_volume hpreuploaded answers.unlinks w₂).trans hvolume
      | ok refKey =>
        simp only
        split
        · exact hvolume
        · rw [cleanup_volume hpreuploaded, delete_volume]
          exact hvolume

theorem attach_frame (file : AttachedFileInput) (answers : AttachAnswers) (key : RefKey)
    (deletion : DeleteAnswer) (verifyOwnerExists : Bool) (w w' : World)
    (h : AttachStep.Apart lower locate defaults ⟨w, file, w'⟩) :
    Frame w (attachFileToIncomingDocument lower locate defaults documentRefKey file answers key
      deletion verifyOwnerExists w).1 := by
  intro r hr place hplace
  apply attach_volume
  intro hplan heq
  exact h hplan place heq r hr hplace

theorem attach_ok_records {documentRefKey : String} {file : AttachedFileInput}
    {answers : AttachAnswers} {key ref : RefKey} {deletion : DeleteAnswer} {verifyOwnerExists : Bool}
    {w : World}
    (h : (attachFileToIncomingDocument lower locate defaults documentRefKey file answers key deletion
      verifyOwnerExists w).2 = .ok ref) :
    ∀ r ∈ w.records, r ∈ (attachFileToIncomingDocument lower locate defaults documentRefKey file
      answers key deletion verifyOwnerExists w).1.records := by
  unfold attachFileToIncomingDocument at h ⊢
  cases hprepare : prepareAttachment lower locate defaults documentRefKey file answers
    verifyOwnerExists with
  | error e =>
    rw [hprepare] at h
    cases h
  | ok prepared =>
    obtain ⟨owner, place⟩ := prepared
    rw [hprepare] at h
    obtain ⟨hrecords, -, -⟩ := preuploadVolumeFile_spec defaults place file.content answers.write w
    simp only at h ⊢
    generalize preuploadVolumeFile defaults place file.content answers.write w = run at h hrecords
    obtain ⟨w₁, result⟩ := run
    cases result with
    | error e => cases h
    | ok preuploaded =>
      cases hcreate : answers.create with
      | refused | lost | keyless =>
        rw [hcreate] at h
        cases h
      | created =>
        rw [hcreate] at h
        simp only [createRecord] at h ⊢
        split at h
        · intro r hr
          rw [if_pos (by assumption)]
          show r ∈ w₁.records ++ [_]
          rw [show w₁.records = w.records from hrecords]
          exact List.mem_append_left _ hr
        · cases h

theorem Frame.trans {w w' w'' : World} (h : Frame w w') (hkept : ∀ r ∈ w.records, r ∈ w'.records)
    (h' : Frame w' w'') : Frame w w'' := by
  intro r hr place hplace
  rw [h' r (hkept r hr) place hplace, h r hr place hplace]

theorem deleteRefs_volume (deletion : RefKey → DeleteAnswer) (refs : List RefKey) (w : World) :
    (deleteAttachedFileRefs deletion refs w).1.volume = w.volume := by
  induction refs generalizing w with
  | nil => rfl
  | cons key rest ih =>
    unfold deleteAttachedFileRefs
    split
    · exact ih (w.delete key .deleted)
    · exact delete_volume w key (deletion key)

/-- The loop leaves the files of the records as they are when each of its attachments is apart. -/
theorem loop_frames (server : Server) (verifyOwnerExists : Bool) (files : List AttachedFileInput)
    (index : Nat) (refs : List RefKey) (w : World)
    (h : ∀ step ∈ loopSteps lower locate defaults documentRefKey server verifyOwnerExists index files
      w, step.Apart lower locate defaults) :
    (∀ step ∈ loopSteps lower locate defaults documentRefKey server verifyOwnerExists index files w,
      Frame step.before step.after) ∧
    Frame w (attachLoop lower locate defaults documentRefKey server verifyOwnerExists index files refs
      w).1 := by
  induction files generalizing index refs w with
  | nil => exact ⟨nofun, fun _ _ _ _ => rfl⟩
  | cons file rest ih =>
    have hframe := attach_frame lower locate defaults documentRefKey file (server.attach index)
      (server.newKey index) (server.deletion (server.newKey index)) (verifyOwnerExists && index == 0) w
    have hkept : ∀ ref, (attachFileToIncomingDocument lower locate defaults documentRefKey file
        (server.attach index) (server.newKey index) (server.deletion (server.newKey index))
        (verifyOwnerExists && index == 0) w).2 = .ok ref →
      ∀ r ∈ w.records, r ∈ (attachFileToIncomingDocument lower locate defaults documentRefKey file
        (server.attach index) (server.newKey index) (server.deletion (server.newKey index))
        (verifyOwnerExists && index == 0) w).1.records :=
      fun ref hok => attach_ok_records lower locate defaults hok
    unfold loopSteps at h ⊢
    unfold attachLoop
    simp only at h ⊢
    generalize attachFileToIncomingDocument lower locate defaults documentRefKey file
      (server.attach index) (server.newKey index) (server.deletion (server.newKey index))
      (verifyOwnerExists && index == 0) w = run at h hframe hkept ⊢
    obtain ⟨w₁, result⟩ := run
    cases result with
    | error e =>
      have hfirst : Frame w w₁ := hframe w₁ (h _ (.head _))
      refine ⟨?_, hfirst⟩
      intro step hstep
      rw [List.mem_singleton.mp hstep]
      exact hfirst
    | ok ref =>
      have hfirst : Frame w w₁ := hframe w₁ (h _ (.head _))
      obtain ⟨hsteps, hwhole⟩ := ih (index + 1) (refs ++ [ref]) w₁
        (fun step hstep => h step (.tail _ hstep))
      constructor
      · intro step hstep
        rcases List.mem_cons.mp hstep with rfl | hstep
        · exact hfirst
        · exact hsteps step hstep
      · exact hfirst.trans (hkept ref rfl) hwhole

theorem replace_frames (files : List AttachedFileInput) (server : Server) (verifyOwnerExists : Bool)
    (w : World)
    (h : ∀ step ∈ (Call.replace documentRefKey files server verifyOwnerExists).steps lower locate
      defaults w, step.Apart lower locate defaults) :
    LeavesFiles lower locate defaults (.replace documentRefKey files server verifyOwnerExists) w := by
  have hvolume : ∀ w' w'' : World, w''.volume = w'.volume → Frame w w' → Frame w w'' := by
    intro w' w'' hsame hframe r hr place hplace
    rw [hsame]
    exact hframe r hr place hplace
  have huntouched : Frame w w := fun _ _ _ _ => rfl
  have hcall : (Call.replace documentRefKey files server verifyOwnerExists).steps lower locate
      defaults w =
        match normalizeDocumentRefKey documentRefKey with
        | .error _ => []
        | .ok _ =>
          if server.lists then
            loopSteps lower locate defaults documentRefKey server verifyOwnerExists 0 files w
          else [] := rfl
  rw [hcall] at h
  constructor
  · rw [hcall]
    cases hdocument : normalizeDocumentRefKey documentRefKey with
    | error e =>
      intro step hstep
      cases hstep
    | ok owner =>
      rw [hdocument] at h
      simp only at h ⊢
      split
      · next hlists =>
        rw [if_pos hlists] at h
        exact (loop_frames lower locate defaults documentRefKey server verifyOwnerExists files 0 [] w
          h).1
      · intro step hstep
        cases hstep
  · unfold Call.run replaceAttachedFilesForDocument
    simp only
    split
    · exact huntouched
    · cases hdocument : normalizeDocumentRefKey documentRefKey with
      | error e => exact huntouched
      | ok owner =>
        rw [hdocument] at h
        simp only at h ⊢
        split
        · next hlists =>
          rw [if_pos hlists] at h
          have hloop := (loop_frames lower locate defaults documentRefKey server verifyOwnerExists
            files 0 [] w h).2
          generalize attachLoop lower locate defaults documentRefKey server verifyOwnerExists 0 files
            [] w = run at hloop
          -- the deletions after the loop do not reach the volume
          have hdeleted : ∀ refs, Frame w
              (deleteAttachedFileRefs server.deletion refs run.1).1 := by
            intro refs
            exact hvolume run.1 _ (deleteRefs_volume server.deletion refs run.1) hloop
          obtain ⟨w₁, refs, failure⟩ := run
          cases failure with
          | some e =>
            have hrefs := hdeleted refs
            simp only at hrefs ⊢
            split
            · next heq =>
              rw [heq] at hrefs
              exact hrefs
            · next heq =>
              rw [heq] at hrefs
              exact hrefs
          | none =>
            have hrefs := hdeleted (((listAttachedFilesForDocument owner w).map Record.refKey).filter
              fun ref => ref ∉ refs)
            simp only at hrefs ⊢
            split
            · next heq =>
              rw [heq] at hrefs
              exact hrefs
            · next heq =>
              rw [heq] at hrefs
              exact hrefs
        · exact huntouched

theorem call_leaves_files (call : Call) (w : World)
    (h : ∀ step ∈ call.steps lower locate defaults w, step.Apart lower locate defaults) :
    LeavesFiles lower locate defaults call w := by
  cases call with
  | attach documentRefKey file answers key deletion verifyOwnerExists =>
    have hframe := attach_frame lower locate defaults documentRefKey file answers key deletion
      verifyOwnerExists w _ (h _ (.head _))
    refine ⟨?_, hframe⟩
    intro step hstep
    rw [List.mem_singleton.mp hstep]
    exact hframe
  | replace documentRefKey files server verifyOwnerExists =>
    exact replace_frames lower locate defaults documentRefKey files server verifyOwnerExists w h

/-- Attaching a file does not touch the files of other records, in every run in which no record has
the place of a file that is attached. -/
theorem volume_untouched (calls : List Call) (w : World)
    (h : EveryCall lower locate defaults (fun call w =>
      ∀ step ∈ call.steps lower locate defaults w, step.Apart lower locate defaults) w calls) :
    EveryCall lower locate defaults (LeavesFiles lower locate defaults) w calls := by
  induction calls generalizing w with
  | nil => trivial
  | cons call rest ih =>
    exact ⟨call_leaves_files lower locate defaults call w h.1, ih _ h.2⟩

end

/-- Files on the volume, written before the record is created. -/
def volumeDefaults : Defaults where
  volumeMode := true
  uploadBinaryViaStream := false
  volumePreupload := true
  stagingEnabled := false

def emptyWorld : World where
  records := []
  volume := fun _ => none
  moments := []

def orderCall (filename : String) (create : CreateAnswer) (key : RefKey) : Call :=
  .attach orderKey (letterFile filename) (smooth create) key .deleted true

/-- A letter is attached again on the same day and the creation fails: the clean-up removes the file
of the record that exists. -/
theorem volume_untouched_again_fails :
    ¬ EveryCall id id volumeDefaults (LeavesFiles id id volumeDefaults) emptyWorld
      [orderCall "letter.msg" .created 10, orderCall "letter.msg" .refused 11] := by
  intro h
  have hframe := h.2.1.whole ⟨10, orderKey, some "20260302\\letter.msg"⟩ (by decide +kernel)
    "20260302\\letter.msg" rfl
  revert hframe
  decide +kernel

theorem volume_untouched_names :
    EveryCall id id volumeDefaults (LeavesFiles id id volumeDefaults) emptyWorld
      [orderCall "letter.msg" .created 10, orderCall "order.pdf" .refused 11] := by
  apply volume_untouched id id volumeDefaults
    [orderCall "letter.msg" .created 10, orderCall "order.pdf" .refused 11] emptyWorld
  refine ⟨?_, ?_, trivial⟩
  · intro step hstep
    rw [List.mem_singleton.mp hstep]
    intro _ place _ r hr
    cases hr
  · intro step hstep
    rw [List.mem_singleton.mp hstep]
    intro _ place hplace r hr
    have hother : placeOf id id volumeDefaults (letterFile "order.pdf") =
        some "20260302\\order.pdf" := by decide +kernel
    have hrecords : ((orderCall "letter.msg" .created 10).run id id volumeDefaults
        emptyWorld).records = [⟨10, orderKey, some "20260302\\letter.msg"⟩] := by decide +kernel
    rw [← hplace, show placeOf id id volumeDefaults _ = _ from hother]
    rw [show r = _ from List.mem_singleton.mp (hrecords ▸ hr)]
    decide

end AgentBack.Mail.Attachments
