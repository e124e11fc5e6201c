import AgentBack.Mail.Attachments

/-!
# Replacing the files of a document

Whether a file is attached, and whether its record stays behind when it is not, does not depend on
what the ERP holds (`outcome`). So a replacement is read off the outcomes of its files: the old
records are touched after the last file only. What the roll-back leaves is exact too
(`removed`): it stops at the first deletion that raises.
-/

namespace AgentBack.Mail.Attachments

/-! ## One file -/

/-- How the attachment of a file ends: with its record, or without one that the caller knows; then
the record may be left in the ERP. -/
inductive Outcome where
  | attached
  | failed (left : Bool)
  deriving DecidableEq

section
variable (lower locate : String → String) (defaults : Defaults)

def placeOf (file : AttachedFileInput) : Option String :=
  match volumePath lower defaults file with
  | .ok path => path.map locate
  | .error _ => none

def preuploads (place : Option String) (answer : WriteAnswer) : Bool :=
  !(resolveAttachedFileUploadPlan defaults).volumePreupload ||
    (place.isSome && decide (answer = .written))

def outcome (documentRefKey : String) (file : AttachedFileInput) (answers : AttachAnswers)
    (deletion : DeleteAnswer) (verifyOwnerExists : Bool) : Outcome :=
  match prepareAttachment lower locate defaults documentRefKey file answers verifyOwnerExists with
  | .error _ => .failed false
  | .ok (_, place) =>
    if preuploads defaults place answers.write then
      match answers.create with
      | .refused => .failed false
      | .lost => .failed true
      | .keyless => .failed true
      | .created =>
        if (stages defaults).all answers.passes then .attached
        else .failed (decide (deletion = .refused))
    else .failed false

def Outcome.added (record : Record) : Outcome → List Record
  | .attached => [record]
  | .failed left => if left then [record] else []

theorem bind_eq_ok {α β : Type} {x : Except AttachedFileError α}
    {f : α → Except AttachedFileError β} {b : β} :
    (x >>= f) = .ok b ↔ ∃ a, x = .ok a ∧ f a = .ok b := by
  cases x with
  | error e =>
    constructor
    · intro h
      cases h
    · intro h
      obtain ⟨a, ha, -⟩ := h
      cases ha
  | ok a =>
    constructor
    · intro h
      exact ⟨a, rfl, h⟩
    · intro h
      obtain ⟨a', ha, hb⟩ := h
      cases ha
      exact hb

theorem prepareAttachment_ok {documentRefKey : String} {file : AttachedFileInput}
    {answers : AttachAnswers} {verifyOwnerExists : Bool} {owner : String} {place : Option String}
    (h : prepareAttachment lower locate defaults documentRefKey file answers verifyOwnerExists =
      .ok (owner, place)) :
    normalizeDocumentRefKey documentRefKey = .ok owner ∧ place = placeOf lower locate defaults file := by
  unfold prepareAttachment at h
  obtain ⟨key, hkey, h⟩ := bind_eq_ok.mp h
  obtain ⟨-, -, h⟩ := bind_eq_ok.mp h
  obtain ⟨-, -, h⟩ := bind_eq_ok.mp h
  obtain ⟨-, -, h⟩ := bind_eq_ok.mp h
  obtain ⟨path, hpath, h⟩ := bind_eq_ok.mp h
  cases h
  refine ⟨hkey, ?_⟩
  unfold placeOf
  rw [hpath]

theorem preuploadVolumeFile_spec (place : Option String) (content : Content) (answer : WriteAnswer)
    (w : World) :
    (preuploadVolumeFile defaults place content answer w).1.records = w.records ∧
    (preuploadVolumeFile defaults place content answer w).1.moments = w.moments ∧
    ((∃ file, (preuploadVolumeFile defaults place content answer w).2 = .ok file) ↔
      preuploads defaults place answer = true) := by
  unfold preuploadVolumeFile preuploads
  cases (resolveAttachedFileUploadPlan defaults).volumePreupload with
  | false => simp
  | true =>
    cases place with
    | none => simp
    | some place => cases answer <;> simp [World.write]

structure AttachLaw (w w' : World) (result : Except AttachedFileError RefKey) (record : Record)
    (end_ : Outcome) : Prop where
  records : w'.records = w.records ++ end_.added record
  ok : end_ = .attached → result = .ok record.refKey
  error : ∀ left, end_ = .failed left → ∃ e, result = .error e
  moments : ∃ new, w'.moments = w.moments ++ new ∧ ∀ m ∈ new, ∀ r ∈ w.records, r ∈ m

theorem cleanup_records (preuploaded : Option String) (unlinks : Bool) (w : World) :
    (cleanupPreuploadedVolumeFile preuploaded unlinks w).records = w.records ∧
      (cleanupPreuploadedVolumeFile preuploaded unlinks w).moments = w.moments := by
  unfold cleanupPreuploadedVolumeFile
  cases preuploaded with
  | none => exact ⟨rfl, rfl⟩
  | some place =>
    cases unlinks with
    | false | true => exact ⟨rfl, rfl⟩

/-- Deleting the new record leaves the others. -/
theorem filter_new {records : List Record} {record : Record}
    (hfresh : ∀ r ∈ records, r.refKey ≠ record.refKey) :
    (records ++ [record]).filter (fun r => r.refKey ≠ record.refKey) = records := by
  rw [List.filter_append, List.filter_eq_self.mpr]
  · simp
  · intro r hr
    simpa using hfresh r hr

theorem attachLaw_failed {w w' : World} {record : Record} {left : Bool} (new : List (List Record))
    (hrecords : w'.records = w.records ++ Outcome.added record (.failed left))
    (hmoments : w'.moments = w.moments ++ new) (hkept : ∀ m ∈ new, ∀ r ∈ w.records, r ∈ m)
    (e : AttachedFileError) : AttachLaw w w' (.error e) record (.failed left) := by
  refine ⟨hrecords, ?_, fun _ _ => ⟨e, rfl⟩, new, hmoments, hkept⟩
  intro hend
  cases hend

/-- An attachment that fails before it reaches the ERP. -/
theorem attachLaw_untouched {w w' : World} (hrecords : w'.records = w.records ++ [])
    (hmoments : w'.moments = w.moments ++ []) (e : AttachedFileError) (record : Record) :
    AttachLaw w w' (.error e) record (.failed false) := by
  apply attachLaw_failed [] hrecords hmoments
  intro m hm
  cases hm

/-- Deleting the record that was just created: it is gone, or the ERP refused. -/
theorem delete_created {w w' : World} {record : Record}
    (hcreate : w'.records = w.records ++ [record])
    (hfresh : ∀ r ∈ w.records, r.refKey ≠ record.refKey) (deletion : DeleteAnswer) :
    (w'.delete record.refKey deletion).records =
        w.records ++ Outcome.added record (.failed (decide (deletion = .refused))) ∧
      (w'.delete record.refKey deletion).moments = w'.moments ++
        [w.records ++ Outcome.added record (.failed (decide (deletion = .refused)))] := by
  have hgone : w'.records.filter (fun r => r.refKey ≠ record.refKey) = w.records ++ [] := by
    rw [hcreate, List.append_nil]
    exact filter_new hfresh
  have hdelete : (w'.delete record.refKey deletion).records =
      w.records ++ Outcome.added record (.failed (decide (deletion = .refused))) := by
    cases deletion with
    | refused => exact hcreate
    | lost | deleted => exact hgone
  have hstep : (w'.delete record.refKey deletion).moments =
      w'.moments ++ [(w'.delete record.refKey deletion).records] := by
    cases deletion <;> rfl
  exact ⟨hdelete, by rw [hstep, hdelete]⟩

theorem attach_law {documentRefKey owner : String}
    (hdocument : normalizeDocumentRefKey documentRefKey = .ok owner) (file : AttachedFileInput)
    (answers : AttachAnswers) {key : RefKey} (deletion : DeleteAnswer) (verifyOwnerExists : Bool)
    {w : World} (hfresh : ∀ r ∈ w.records, r.refKey ≠ key) :
    AttachLaw w
      (attachFileToIncomingDocument lower locate defaults documentRefKey file answers key deletion
        verifyOwnerExists w).1
      (attachFileToIncomingDocument lower locate defaults documentRefKey file answers key deletion
        verifyOwnerExists w).2
      ⟨key, owner, placeOf lower locate defaults file⟩
      (outcome lower locate defaults documentRefKey file answers deletion verifyOwnerExists) := by
  unfold attachFileToIncomingDocument outcome
  cases hprepare : prepareAttachment lower locate defaults documentRefKey file answers
    verifyOwnerExists with
  | error e =>
    exact attachLaw_untouched (List.append_nil _).symm (List.append_nil _).symm e _
  | ok prepared =>
    obtain ⟨owner', place⟩ := prepared
    obtain ⟨howner, hplace⟩ := prepareAttachment_ok lower locate defaults hprepare
    rw [hdocument] at howner
    cases howner
    rw [← hplace]
    obtain ⟨hrecords, hmoments, hok⟩ := preuploadVolumeFile_spec defaults
      place file.content answers.write w
    simp only
    generalize hrun : preuploadVolumeFile defaults place file.content
      answers.write w = run at hrecords hmoments hok
    obtain ⟨w₁, result⟩ := run
    simp only at hrecords hmoments hok
    generalize hrecord : (⟨key, owner, place⟩ : Record) = record
    have hkey : record.refKey = key := by rw [← hrecord]
    cases result with
    | error e =>
      have hnot : ¬ preuploads defaults place answers.write = true := by
        rw [← hok]
        intro h
        obtain ⟨file, hfile⟩ := h
        cases hfile
      simp only
      rw [if_neg hnot]
      apply attachLaw_untouched
      · rw [hrecords]
        exact (List.append_nil _).symm
      · rw [hmoments]
        exact (List.append_nil _).symm
    | ok preuploaded =>
      have hyes := hok.mp ⟨preuploaded, rfl⟩
      simp only
      rw [if_pos hyes]
      have hsub : ∀ r ∈ w.records, r ∈ w.records ++ [record] :=
        fun r hr => List.mem_append_left _ hr
      have hcreate : (w₁.create record).records = w.records ++ [record] := by
        rw [← hrecords]
        rfl
      have hcreatem : (w₁.create record).moments = w.moments ++ [w.records ++ [record]] := by
        rw [← hrecords, ← hmoments]
        rfl
      have hkept : ∀ m ∈ [w.records ++ [record]], ∀ r ∈ w.records, r ∈ m := by
        intro m hm
        rw [List.mem_singleton.mp hm]
        exact hsub
      cases answers.create with
      | refused =>
        simp only [createRecord]
        obtain ⟨hclean, hcleanm⟩ :=
          cleanup_records preuploaded answers.unlinks (w₁.after w₁.records)
        apply attachLaw_failed [w.records]
        · rw [hclean, ← hrecords]
          exact (List.append_nil _).symm
        · rw [hcleanm, ← hrecords, ← hmoments]
          rfl
        · intro m hm
          rw [List.mem_singleton.mp hm]
          exact fun r hr => hr
      | lost | keyless =>
        simp only [createRecord]
        obtain ⟨hclean, hcleanm⟩ := cleanup_records preuploaded answers.unlinks (w₁.create record)
        exact attachLaw_failed _ (hclean.trans hcreate) (hcleanm.trans hcreatem) hkept _
      | created =>
        simp only [createRecord]
        split
        · refine ⟨hcreate, fun _ => rfl, ?_, _, hcreatem, hkept⟩
          intro left hleft
          cases hleft
        · obtain ⟨hclean, hcleanm⟩ := cleanup_records preuploaded answers.unlinks
            ((w₁.create record).delete record.refKey deletion)
          -- the roll-back of this file: its own record, if the ERP lets it go
          obtain ⟨hdelete, hdeletem⟩ := delete_created hcreate (by rw [hkey]; exact hfresh) deletion
          rw [hcreatem, List.append_assoc] at hdeletem
          apply attachLaw_failed _ (hclean.trans hdelete) (hcleanm.trans hdeletem)
          intro m hm r hr
          simp only [List.cons_append, List.nil_append, List.mem_cons, List.not_mem_nil,
            or_false] at hm
          rcases hm with rfl | rfl
          · exact hsub r hr
          · exact List.mem_append_left _ hr

/-! ## The loop -/

variable (documentRefKey owner : String) (server : Server) (verifyOwnerExists : Bool)

def fileOutcome (index : Nat) (file : AttachedFileInput) : Outcome :=
  outcome lower locate defaults documentRefKey file (server.attach index)
    (server.deletion (server.newKey index)) (verifyOwnerExists && index == 0)

def newRecord (index : Nat) (file : AttachedFileInput) : Record :=
  ⟨server.newKey index, owner, placeOf lower locate defaults file⟩

def newRecords : Nat → List AttachedFileInput → List Record
  | _, [] => []
  | index, file :: rest =>
    newRecord lower locate defaults owner server index file :: newRecords (index + 1) rest

def AllAttached : Nat → List AttachedFileInput → Prop
  | _, [] => True
  | index, file :: rest =>
    fileOutcome lower locate defaults documentRefKey server verifyOwnerExists index file =
      .attached ∧ AllAttached (index + 1) rest

/-- The keys of the ERP are new: none is given twice, and no record has one. -/
structure Server.Fresh (server : Server) (w : World) : Prop where
  injective : ∀ i j, server.newKey i = server.newKey j → i = j
  unused : ∀ i, ∀ r ∈ w.records, r.refKey ≠ server.newKey i

inductive LoopEnd (index : Nat) (files : List AttachedFileInput) (refs : List RefKey) (w : World) :
    World × List RefKey × Option AttachedFileError → Prop
  | all {w' : World} {refs' : List RefKey}
      (attached : AllAttached lower locate defaults documentRefKey server verifyOwnerExists index files)
      (records : w'.records = w.records ++ newRecords lower locate defaults owner server index files)
      (keys : refs' = refs ++
        (newRecords lower locate defaults owner server index files).map Record.refKey) :
      LoopEnd index files refs w (w', refs', none)
  | stopped {w' : World} {refs' : List RefKey} {e : AttachedFileError}
      {front : List AttachedFileInput} {file : AttachedFileInput} {back : List AttachedFileInput}
      {left : Bool} (split : files = front ++ file :: back)
      (attached : AllAttached lower locate defaults documentRefKey server verifyOwnerExists index front)
      (failed : fileOutcome lower locate defaults documentRefKey server verifyOwnerExists
        (index + front.length) file = .failed left)
      (records : w'.records = w.records ++ newRecords lower locate defaults owner server index front ++
        if left then
          [newRecord lower locate defaults owner server (index + front.length) file]
        else [])
      (keys : refs' = refs ++
        (newRecords lower locate defaults owner server index front).map Record.refKey) :
      LoopEnd index files refs w (w', refs', some e)

variable {lower locate defaults documentRefKey owner server verifyOwnerExists} in
/-- A file that is attached goes before what the loop does with the rest. -/
theorem LoopEnd.cons {index : Nat} {file : AttachedFileInput} {rest : List AttachedFileInput}
    {refs : List RefKey} {w w₁ : World} {run : World × List RefKey × Option AttachedFileError}
    (hend : fileOutcome lower locate defaults documentRefKey server verifyOwnerExists index file =
      .attached)
    (hrecords : w₁.records = w.records ++ [newRecord lower locate defaults owner server index file])
    (h : LoopEnd lower locate defaults documentRefKey owner server verifyOwnerExists (index + 1) rest
      (refs ++ [server.newKey index]) w₁ run) :
    LoopEnd lower locate defaults documentRefKey owner server verifyOwnerExists index (file :: rest)
      refs w run := by
  cases h with
  | all attached records keys =>
    refine .all ⟨hend, attached⟩ ?_ ?_
    · rw [records, hrecords, newRecords, List.append_assoc, List.singleton_append]
    · rw [keys, newRecords, List.map_cons, List.append_assoc, List.singleton_append]
      rfl
  | @stopped w' refs' e front file' back left split attached failed records keys =>
    have hindex : index + 1 + front.length = index + (file :: front).length := by
      rw [List.length_cons]
      omega
    rw [hindex] at failed records
    have hattached : AllAttached lower locate defaults documentRefKey server verifyOwnerExists index
        (file :: front) := ⟨hend, attached⟩
    refine .stopped (by rw [split, List.cons_append]) hattached failed ?_ ?_
    · rw [records, hrecords, newRecords, List.append_assoc w.records, List.singleton_append]
    · rw [keys, newRecords, List.map_cons, List.append_assoc, List.singleton_append]
      rfl

theorem attachLoop_law (hdocument : normalizeDocumentRefKey documentRefKey = .ok owner)
    (hinjective : ∀ i j, server.newKey i = server.newKey j → i = j)
    (files : List AttachedFileInput) (index : Nat) (refs : List RefKey) (w : World)
    (hfresh : ∀ i, index ≤ i → ∀ r ∈ w.records, r.refKey ≠ server.newKey i) :
    LoopEnd lower locate defaults documentRefKey owner server verifyOwnerExists index files refs w
      (attachLoop lower locate defaults documentRefKey server verifyOwnerExists index files refs w) ∧
    ∃ new, (attachLoop lower locate defaults documentRefKey server verifyOwnerExists index files refs
      w).1.moments = w.moments ++ new ∧ ∀ m ∈ new, ∀ r ∈ w.records, r ∈ m := by
  induction files generalizing index refs w with
  | nil =>
    refine ⟨.all trivial (List.append_nil _).symm (List.append_nil _).symm, [], ?_, nofun⟩
    exact (List.append_nil _).symm
  | cons file rest ih =>
    have hlaw := attach_law lower locate defaults hdocument file (server.attach index)
      (server.deletion (server.newKey index)) (verifyOwnerExists && index == 0)
      (hfresh index (Nat.le_refl _))
    have houtcome : outcome lower locate defaults documentRefKey file (server.attach index)
        (server.deletion (server.newKey index)) (verifyOwnerExists && index == 0) =
          fileOutcome lower locate defaults documentRefKey server verifyOwnerExists index file := rfl
    have hrecord : (⟨server.newKey index, owner, placeOf lower locate defaults file⟩ : Record) =
        newRecord lower locate defaults owner server index file := rfl
    rw [houtcome, hrecord] at hlaw
    unfold attachLoop
    simp only
    generalize attachFileToIncomingDocument lower locate defaults documentRefKey file
      (server.attach index) (server.newKey index) (server.deletion (server.newKey index))
      (verifyOwnerExists && index == 0) w = run at hlaw
    obtain ⟨w₁, result⟩ := run
    obtain ⟨hrecords, hok, herror, new, hmoments, hkept⟩ := hlaw
    cases hend : fileOutcome lower locate defaults documentRefKey server verifyOwnerExists index file with
    | failed left =>
      obtain ⟨e, he⟩ := herror left hend
      cases he
      rw [hend] at hrecords
      refine ⟨.stopped (List.nil_append _).symm trivial hend ?_ (List.append_nil _).symm, new,
        hmoments, hkept⟩
      refine hrecords.trans ?_
      rw [newRecords, List.append_nil]
      rfl
    | attached =>
      cases hok hend
      rw [hend] at hrecords
      have hrecords₁ : w₁.records =
          w.records ++ [newRecord lower locate defaults owner server index file] := hrecords
      have hfresh₁ : ∀ i, index + 1 ≤ i → ∀ r ∈ w₁.records, r.refKey ≠ server.newKey i := by
        intro i hi r hr
        rw [hrecords₁, List.mem_append, List.mem_singleton] at hr
        rcases hr with hr | rfl
        · exact hfresh i (by omega) r hr
        · intro heq
          have hindex := hinjective _ _ heq
          omega
      obtain ⟨hloop, new', hmoments', hkept'⟩ := ih (index + 1) (refs ++ [server.newKey index]) w₁
        hfresh₁
      constructor
      · exact hloop.cons hend hrecords₁
      · refine ⟨new ++ new', ?_, ?_⟩
        · refine hmoments'.trans ?_
          rw [show w₁.moments = _ from hmoments, List.append_assoc]
        · intro m hm r hr
          rcases List.mem_append.mp hm with hm | hm
          · exact hkept m hm r hr
          · apply hkept' m hm r
            rw [hrecords₁]
            exact List.mem_append_left _ hr

end

/-- The keys that are gone after a list of deletions, which stops at the first that raises. -/
def removed (deletion : RefKey → DeleteAnswer) : List RefKey → List RefKey
  | [] => []
  | key :: rest =>
    match deletion key with
    | .deleted => key :: removed deletion rest
    | .lost => [key]
    | .refused => []

theorem removed_subset (deletion : RefKey → DeleteAnswer) (refs : List RefKey) :
    removed deletion refs ⊆ refs := by
  induction refs with
  | nil => exact List.Subset.refl _
  | cons key rest ih =>
    unfold removed
    cases deletion key with
    | deleted => exact List.cons_subset_cons key ih
    | lost => exact List.cons_subset_cons key (List.nil_subset rest)
    | refused => exact List.nil_subset _

/-- What a list of deletions does to the records. -/
structure DeleteLaw (deletion : RefKey → DeleteAnswer) (refs : List RefKey) (w w' : World)
    (result : Except AttachedFileError (List RefKey)) : Prop where
  records : w'.records = w.records.filter fun r => r.refKey ∉ removed deletion refs
  ok : ∀ keys, result = .ok keys → removed deletion refs = refs
  moments : ∃ new, w'.moments = w.moments ++ new ∧
    ∀ m ∈ new, ∀ r ∈ w.records, r.refKey ∉ refs → r ∈ m

theorem delete_law (deletion : RefKey → DeleteAnswer) (refs : List RefKey) (w : World) :
    DeleteLaw deletion refs w (deleteAttachedFileRefs deletion refs w).1
      (deleteAttachedFileRefs deletion refs w).2 := by
  induction refs generalizing w with
  | nil =>
    refine ⟨?_, fun _ _ => rfl, [], (List.append_nil _).symm, nofun⟩
    exact (List.filter_eq_self.mpr fun r _ => decide_eq_true List.not_mem_nil).symm
  | cons key rest ih =>
    have hfiltered : ∀ r ∈ w.records, r.refKey ∉ key :: rest →
        r ∈ w.records.filter fun r => r.refKey ≠ key := by
      intro r hr hnot
      rw [List.mem_filter]
      refine ⟨hr, decide_eq_true ?_⟩
      intro heq
      exact hnot (heq ▸ List.mem_cons_self)
    unfold deleteAttachedFileRefs
    cases hanswer : deletion key with
    | deleted =>
      rw [if_pos rfl]
      have hrest := ih (w.delete key .deleted)
      generalize deleteAttachedFileRefs deletion rest (w.delete key .deleted) = run at hrest
      obtain ⟨w', result⟩ := run
      obtain ⟨hrecords, hok, new, hmoments, hkept⟩ := hrest
      have hremoved : removed deletion (key :: rest) = key :: removed deletion rest := by
        rw [removed, hanswer]
      have hdeleted : (w.delete key .deleted).records =
          w.records.filter fun r => r.refKey ≠ key := rfl
      have hdeletedm : (w.delete key .deleted).moments =
          w.moments ++ [w.records.filter fun r => r.refKey ≠ key] := rfl
      refine ⟨?_, ?_, (w.records.filter fun r => r.refKey ≠ key) :: new, ?_, ?_⟩
      · refine hrecords.trans ?_
        rw [hdeleted, List.filter_filter, hremoved]
        apply List.filter_congr
        intro r _
        simp [Bool.and_comm]
      · intro keys hkeys
        cases result with
        | error e => cases hkeys
        | ok keys' => rw [hremoved, hok keys' rfl]
      · refine hmoments.trans ?_
        rw [hdeletedm, List.append_assoc, List.singleton_append]
      · intro m hm r hr hnot
        rcases List.mem_cons.mp hm with rfl | hm
        · exact hfiltered r hr hnot
        · apply hkept m hm r (hfiltered r hr hnot)
          exact fun hmem => hnot (.tail _ hmem)
    | lost =>
      have hremoved : removed deletion (key :: rest) = [key] := by rw [removed, hanswer]
      rw [if_neg nofun]
      refine ⟨?_, nofun, [w.records.filter fun r => r.refKey ≠ key], rfl, ?_⟩
      · rw [hremoved]
        simp [World.delete, World.after]
      · intro m hm r hr hnot
        rw [List.mem_singleton.mp hm]
        exact hfiltered r hr hnot
    | refused =>
      have hremoved : removed deletion (key :: rest) = [] := by rw [removed, hanswer]
      rw [if_neg nofun]
      refine ⟨?_, nofun, [w.records], rfl, ?_⟩
      · rw [hremoved]
        simp [World.delete, World.after]
      · intro m hm r hr _
        rw [List.mem_singleton.mp hm]
        exact hr

/-- The deletions leave nothing behind that could be deleted exactly when, after the first that
raises, none would succeed. -/
theorem removed_complete_iff {deletion : RefKey → DeleteAnswer} {refs : List RefKey}
    (hnodup : refs.Nodup) :
    (∀ key ∈ refs, key ∉ removed deletion refs → deletion key = .refused) ↔
      refs.Pairwise fun key later => deletion key ≠ .deleted → deletion later = .refused := by
  induction refs with
  | nil => simp
  | cons key rest ih =>
    obtain ⟨hkey, hrest⟩ := List.nodup_cons.mp hnodup
    rw [List.pairwise_cons, ← ih hrest]
    cases hanswer : deletion key with
    | deleted =>
      have hremoved : removed deletion (key :: rest) = key :: removed deletion rest := by
        rw [removed, hanswer]
      rw [hremoved]
      constructor
      · intro h
        refine ⟨fun later _ hne => absurd rfl hne, ?_⟩
        intro later hlater hnot
        apply h later (.tail _ hlater)
        rw [List.mem_cons, not_or]
        refine ⟨?_, hnot⟩
        rintro rfl
        exact hkey hlater
      · intro h later hlater hnot
        rw [List.mem_cons, not_or] at hnot
        rcases List.mem_cons.mp hlater with rfl | hlater
        · exact absurd rfl hnot.1
        · exact h.2 later hlater hnot.2
    | lost =>
      have hremoved : removed deletion (key :: rest) = [key] := by rw [removed, hanswer]
      rw [hremoved]
      constructor
      · intro h
        have hall : ∀ later ∈ rest, deletion later = .refused := by
          intro later hlater
          apply h later (.tail _ hlater)
          rw [List.mem_singleton]
          rintro rfl
          exact hkey hlater
        exact ⟨fun later hlater _ => hall later hlater, fun later hlater _ => hall later hlater⟩
      · intro h later hlater hnot
        rcases List.mem_cons.mp hlater with rfl | hlater
        · exact absurd (.head _) hnot
        · exact h.1 later hlater nofun
    | refused =>
      have hremoved : removed deletion (key :: rest) = [] := by rw [removed, hanswer]
      rw [hremoved]
      constructor
      · intro h
        have hall : ∀ later ∈ rest, deletion later = .refused := by
          intro later hlater
          exact h later (.tail _ hlater) List.not_mem_nil
        exact ⟨fun later hlater _ => hall later hlater, fun later hlater _ => hall later hlater⟩
      · intro h later hlater _
        rcases List.mem_cons.mp hlater with rfl | hlater
        · exact hanswer
        · exact h.1 later hlater nofun

/-! ## The replacement -/

section
variable (lower locate : String → String) (defaults : Defaults) (documentRefKey : String)
  (files : List AttachedFileInput) (server : Server) (verifyOwnerExists : Bool) (w : World)

def replacement : World × Except ReplaceError (List RefKey × List RefKey) :=
  replaceAttachedFilesForDocument lower locate defaults documentRefKey files server
    verifyOwnerExists { w with moments := [] }

/-- A replacement never loses the letter: at every moment the document has all of its old records or
all of the new ones; if it fails before every new file is written and verified, every old record is
there and every new one that could be deleted is gone; if it succeeds, exactly the new ones are
left. -/
structure ReplaceSafe : Prop where
  always : ∀ owner, normalizeDocumentRefKey documentRefKey = .ok owner →
    ∀ m ∈ (replacement lower locate defaults documentRefKey files server verifyOwnerExists
        w).1.records ::
      (replacement lower locate defaults documentRefKey files server verifyOwnerExists w).1.moments,
    (∀ r ∈ listAttachedFilesForDocument owner w, r ∈ m) ∨
      ∀ r ∈ newRecords lower locate defaults owner server 0 files, r ∈ m
  failed : ∀ e, (replacement lower locate defaults documentRefKey files server verifyOwnerExists
      w).2 = .error e → (∀ e', e ≠ .deletingOld e') →
    (∀ r ∈ w.records, r ∈ (replacement lower locate defaults documentRefKey files server
      verifyOwnerExists w).1.records) ∧
    ∀ r ∈ (replacement lower locate defaults documentRefKey files server verifyOwnerExists
      w).1.records, r ∉ w.records → server.deletion r.refKey = .refused
  replaced : ∀ owner, normalizeDocumentRefKey documentRefKey = .ok owner →
    ∀ refs, (replacement lower locate defaults documentRefKey files server verifyOwnerExists
      w).2 = .ok refs →
    ∀ r, r ∈ listAttachedFilesForDocument owner (replacement lower locate defaults documentRefKey
        files server verifyOwnerExists w).1 ↔
      r ∈ newRecords lower locate defaults owner server 0 files

/-- When a file fails after some were attached: its own record does not stay where it could be
deleted, and among the records before it none that could be deleted comes after one whose deletion
raises. -/
def CleanRollback : Prop :=
  server.lists = true → ∀ owner, normalizeDocumentRefKey documentRefKey = .ok owner →
  ∀ front file back left, files = front ++ file :: back →
    AllAttached lower locate defaults documentRefKey server verifyOwnerExists 0 front →
    fileOutcome lower locate defaults documentRefKey server verifyOwnerExists front.length file =
      .failed left →
    (left = true → server.deletion (server.newKey front.length) = .refused) ∧
    ((newRecords lower locate defaults owner server 0 front).map Record.refKey).Pairwise
      fun key later => server.deletion key ≠ .deleted → server.deletion later = .refused

variable {owner : String} {index : Nat} {w₁ : World} {refs : List RefKey} {w₂ : World}
    {result : Except AttachedFileError (List RefKey)}

theorem refKey_newRecords {files : List AttachedFileInput}
    {r : Record} (h : r ∈ newRecords lower locate defaults owner server index files) :
    ∃ i, index ≤ i ∧ i < index + files.length ∧ r.refKey = server.newKey i := by
  induction files generalizing index with
  | nil => cases h
  | cons file rest ih =>
    rw [newRecords] at h
    rw [List.length_cons]
    rcases List.mem_cons.mp h with rfl | h
    · exact ⟨index, Nat.le_refl _, by omega, rfl⟩
    · obtain ⟨i, hle, hlt, hkey⟩ := ih h
      exact ⟨i, by omega, by omega, hkey⟩

theorem refKey_not_mem_newRecords {files : List AttachedFileInput}
    (hfresh : server.Fresh w) {r : Record} (hr : r ∈ w.records) :
    r.refKey ∉ (newRecords lower locate defaults owner server 0 files).map Record.refKey := by
  intro hkey
  obtain ⟨r', hr', heq⟩ := List.mem_map.mp hkey
  obtain ⟨i, -, -, hi⟩ := refKey_newRecords lower locate defaults server hr'
  exact hfresh.unused i r hr (heq.symm.trans hi)

theorem owner_newRecords {files : List AttachedFileInput}
    {r : Record} (h : r ∈ newRecords lower locate defaults owner server index files) :
    r.owner = owner := by
  induction files generalizing index with
  | nil => cases h
  | cons file rest ih =>
    rw [newRecords] at h
    rcases List.mem_cons.mp h with rfl | h
    · rfl
    · exact ih h

theorem nodup_newRecords (hinjective : ∀ i j, server.newKey i = server.newKey j → i = j)
    (owner : String) (files : List AttachedFileInput) (index : Nat) :
    ((newRecords lower locate defaults owner server index files).map Record.refKey).Nodup := by
  induction files generalizing index with
  | nil => exact List.nodup_nil
  | cons file rest ih =>
    rw [newRecords, List.map_cons, List.nodup_cons]
    refine ⟨?_, ih (index + 1)⟩
    intro h
    obtain ⟨r, hr, hkey⟩ := List.mem_map.mp h
    obtain ⟨i, hle, -, hi⟩ := refKey_newRecords lower locate defaults server hr
    have hindex : i = index := hinjective _ _ (hi.symm.trans hkey)
    omega

variable {lower locate defaults documentRefKey files server verifyOwnerExists w} in
theorem firstFailure_unique {front front' back back' : List AttachedFileInput}
    {file file' : AttachedFileInput} {left left' : Bool}
    (hsplit : front ++ file :: back = front' ++ file' :: back')
    (hattached : AllAttached lower locate defaults documentRefKey server verifyOwnerExists index front)
    (hfailed : fileOutcome lower locate defaults documentRefKey server verifyOwnerExists
      (index + front.length) file = .failed left)
    (hattached' : AllAttached lower locate defaults documentRefKey server verifyOwnerExists index
      front')
    (hfailed' : fileOutcome lower locate defaults documentRefKey server verifyOwnerExists
      (index + front'.length) file' = .failed left') : front = front' ∧ file = file' := by
  induction front generalizing index front' with
  | nil =>
    cases front' with
    | nil => exact ⟨rfl, (List.cons.inj hsplit).1⟩
    | cons first rest =>
      rw [List.nil_append, List.cons_append] at hsplit
      obtain ⟨rfl, -⟩ := List.cons.inj hsplit
      have hfirst : fileOutcome lower locate defaults documentRefKey server verifyOwnerExists index
          file = .failed left := hfailed
      rw [hattached'.1] at hfirst
      cases hfirst
  | cons first rest ih =>
    cases front' with
    | nil =>
      rw [List.nil_append, List.cons_append] at hsplit
      obtain ⟨rfl, -⟩ := List.cons.inj hsplit
      have hfirst : fileOutcome lower locate defaults documentRefKey server verifyOwnerExists index
          first = .failed left' := hfailed'
      rw [hattached.1] at hfirst
      cases hfirst
    | cons first' rest' =>
      rw [List.cons_append, List.cons_append] at hsplit
      obtain ⟨rfl, hrest⟩ := List.cons.inj hsplit
      have hindex : ∀ rest : List AttachedFileInput,
          index + (first :: rest).length = index + 1 + rest.length := by
        intro rest
        rw [List.length_cons]
        omega
      rw [hindex] at hfailed hfailed'
      obtain ⟨rfl, hfile⟩ := ih hrest hattached.2 hfailed hattached'.2 hfailed'
      exact ⟨rfl, hfile⟩

variable {lower locate defaults documentRefKey files server verifyOwnerExists w} in
theorem attached_of_all {front back : List AttachedFileInput} {file : AttachedFileInput}
    (h : AllAttached lower locate defaults documentRefKey server verifyOwnerExists index
      (front ++ file :: back)) :
    fileOutcome lower locate defaults documentRefKey server verifyOwnerExists (index + front.length)
      file = .attached := by
  induction front generalizing index with
  | nil => exact h.1
  | cons first rest ih =>
    have hrest := ih h.2
    rw [List.length_cons]
    rw [show index + (rest.length + 1) = index + 1 + rest.length by omega]
    exact hrest

theorem replaceSafe_of_untouched {e : ReplaceError}
    (h : replacement lower locate defaults documentRefKey files server verifyOwnerExists w =
      ({ w with moments := [] }, .error e)) :
    ReplaceSafe lower locate defaults documentRefKey files server verifyOwnerExists w := by
  constructor
  · intro owner _ m hm
    rw [h] at hm
    rw [List.mem_singleton.mp hm]
    exact .inl fun r hr => List.mem_of_mem_filter hr
  · intro e' _ _
    rw [h]
    exact ⟨fun r hr => hr, fun r hr hnot => absurd hr hnot⟩
  · intro owner _ refs hrefs
    rw [h] at hrefs
    cases hrefs

section

variable (hdocument : normalizeDocumentRefKey documentRefKey = .ok owner) (hfresh : server.Fresh w)
include hdocument hfresh

/-- When every file is attached, only old records are deleted. -/
theorem replaceSafe_of_attached {new : List (List Record)}
    (hrecords : w₁.records = w.records ++ newRecords lower locate defaults owner server 0 files)
    (hmoments : w₁.moments = new) (hkept : ∀ m ∈ new, ∀ r ∈ w.records, r ∈ m)
    (hrefs : refs = (newRecords lower locate defaults owner server 0 files).map Record.refKey)
    (hdelete : DeleteLaw server.deletion
      (((listAttachedFilesForDocument owner w).map Record.refKey).filter fun ref => ref ∉ refs)
      w₁ w₂ result)
    (hrun : replacement lower locate defaults documentRefKey files server verifyOwnerExists w =
      match result with
      | .error e => (w₂, .error (.deletingOld e))
      | .ok deleted => (w₂, .ok (refs, deleted))) :
    ReplaceSafe lower locate defaults documentRefKey files server verifyOwnerExists w := by
  obtain ⟨hafter, hok, new', hmoments', hkept'⟩ := hdelete
  have hfirst : (replacement lower locate defaults documentRefKey files server verifyOwnerExists
      w).1 = w₂ := by
    rw [hrun]
    cases result <;> rfl
  have hnew : ∀ r ∈ newRecords lower locate defaults owner server 0 files,
      r ∈ w₁.records ∧ r.refKey ∉
        ((listAttachedFilesForDocument owner w).map Record.refKey).filter fun ref => ref ∉ refs := by
    intro r hr
    constructor
    · rw [hrecords]
      exact List.mem_append_right _ hr
    · intro hmem
      have hnot := (List.mem_filter.mp hmem).2
      rw [decide_eq_true_eq, hrefs] at hnot
      exact hnot (List.mem_map_of_mem hr)
  have hsame : ∀ owner', normalizeDocumentRefKey documentRefKey = .ok owner' → owner' = owner := by
    intro owner' h
    rw [hdocument] at h
    exact (Except.ok.inj h).symm
  constructor
  · intro owner' howner m hm
    rw [hsame owner' howner]
    rw [hfirst, hmoments', hmoments, List.mem_cons, List.mem_append] at hm
    rcases hm with rfl | hm | hm
    · right
      intro r hr
      rw [hafter, List.mem_filter]
      refine ⟨(hnew r hr).1, decide_eq_true fun hmem => (hnew r hr).2 (removed_subset _ _ hmem)⟩
    · left
      intro r hr
      exact hkept m hm r (List.mem_of_mem_filter hr)
    · right
      intro r hr
      exact hkept' m hm r (hnew r hr).1 (hnew r hr).2
  · intro e he hnot
    rw [hrun] at he
    cases result with
    | error e' =>
      cases he
      exact absurd rfl (hnot e')
    | ok deleted => cases he
  · intro owner' howner keys hkeys r
    rw [hsame owner' howner, hfirst]
    have hall : removed server.deletion (((listAttachedFilesForDocument owner w).map
        Record.refKey).filter fun ref => ref ∉ refs) =
          ((listAttachedFilesForDocument owner w).map Record.refKey).filter fun ref => ref ∉ refs := by
      rw [hrun] at hkeys
      cases result with
      | error e => cases hkeys
      | ok deleted => exact hok deleted rfl
    rw [hall] at hafter
    unfold listAttachedFilesForDocument
    constructor
    · intro hr
      obtain ⟨hmem, howner'⟩ := List.mem_filter.mp hr
      rw [hafter, List.mem_filter, hrecords, List.mem_append] at hmem
      obtain ⟨hold | hr, hnot⟩ := hmem
      · -- an old record of the document is among the keys to delete
        rw [decide_eq_true_eq] at hnot
        have hlisted : r ∈ listAttachedFilesForDocument owner w :=
          List.mem_filter.mpr ⟨hold, howner'⟩
        have hother : r.refKey ∉ refs := by
          rw [hrefs]
          exact refKey_not_mem_newRecords lower locate defaults server w hfresh hold
        have hkey : r.refKey ∈ (listAttachedFilesForDocument owner w).map Record.refKey :=
          List.mem_map_of_mem hlisted
        exact absurd (List.mem_filter.mpr ⟨hkey, decide_eq_true hother⟩) hnot
      · exact hr
    · intro hr
      refine List.mem_filter.mpr ⟨?_, ?_⟩
      · rw [hafter]
        exact List.mem_filter.mpr ⟨(hnew r hr).1, decide_eq_true (hnew r hr).2⟩
      · rw [owner_newRecords lower locate defaults server hr]
        exact decide_eq_true rfl

/-- What is left of a replacement whose loop stopped: the old records, and the new ones that the
roll-back did not delete. -/
theorem replaceSafe_of_stopped {front : List AttachedFileInput} {file : AttachedFileInput}
    {left : Bool} {new : List (List Record)}
    (hrecords : w₁.records = w.records ++ newRecords lower locate defaults owner server 0 front ++
      if left then [newRecord lower locate defaults owner server front.length file] else [])
    (hmoments : w₁.moments = new) (hkept : ∀ m ∈ new, ∀ r ∈ w.records, r ∈ m)
    (hrefs : refs = (newRecords lower locate defaults owner server 0 front).map Record.refKey)
    (hdelete : DeleteLaw server.deletion refs w₁ w₂ result) {e : ReplaceError}
    (he : ∀ e', e ≠ .deletingOld e')
    (hrun : replacement lower locate defaults documentRefKey files server verifyOwnerExists w =
      (w₂, .error e)) :
    ReplaceSafe lower locate defaults documentRefKey files server verifyOwnerExists w ↔
      (left = true → server.deletion (server.newKey front.length) = .refused) ∧
      refs.Pairwise fun key later =>
        server.deletion key ≠ .deleted → server.deletion later = .refused := by
  obtain ⟨hafter, -, new', hmoments', hkept'⟩ := hdelete
  have hold : ∀ r ∈ w.records, r ∈ w₁.records ∧ r.refKey ∉ refs := by
    intro r hr
    constructor
    · rw [hrecords]
      exact List.mem_append_left _ (List.mem_append_left _ hr)
    · rw [hrefs]
      exact refKey_not_mem_newRecords lower locate defaults server w hfresh hr
  have hstay : ∀ r ∈ w.records, r ∈ w₂.records := by
    intro r hr
    rw [hafter, List.mem_filter]
    exact ⟨(hold r hr).1, decide_eq_true fun hmem => (hold r hr).2 (removed_subset _ _ hmem)⟩
  have hnodup : refs.Nodup := by
    rw [hrefs]
    exact nodup_newRecords lower locate defaults server hfresh.injective owner front 0
  have hnotkey : server.newKey front.length ∉ refs := by
    rw [hrefs]
    intro hkey
    obtain ⟨r', hr', heq⟩ := List.mem_map.mp hkey
    obtain ⟨i, -, hlt, hi⟩ := refKey_newRecords lower locate defaults server hr'
    have hindex := hfresh.injective i front.length (hi.symm.trans heq)
    omega
  rw [← removed_complete_iff hnodup]
  constructor
  · intro h
    have hleft := (h.failed e (by rw [hrun]) he).2
    rw [hrun] at hleft
    constructor
    · intro hyes
      apply hleft (newRecord lower locate defaults owner server front.length file)
      · rw [hafter, List.mem_filter, hrecords, if_pos hyes]
        refine ⟨List.mem_append_right _ (.head _), decide_eq_true ?_⟩
        exact fun hmem => hnotkey (removed_subset _ _ hmem)
      · intro hmem
        exact hfresh.unused front.length _ hmem rfl
    · intro key hkey hnot
      rw [hrefs] at hkey
      obtain ⟨r, hr, rfl⟩ := List.mem_map.mp hkey
      apply hleft r
      · rw [hafter, List.mem_filter, hrecords]
        exact ⟨List.mem_append_left _ (List.mem_append_right _ hr), decide_eq_true hnot⟩
      · intro hmem
        exact (hold r hmem).2 (hrefs ▸ hkey)
  · intro h
    constructor
    · intro owner' howner m hm
      rw [hdocument] at howner
      cases howner
      left
      intro r hr
      have hr' : r ∈ w.records := List.mem_of_mem_filter hr
      rw [hrun, List.mem_cons, hmoments', hmoments, List.mem_append] at hm
      rcases hm with rfl | hm | hm
      · exact hstay r hr'
      · exact hkept m hm r hr'
      · exact hkept' m hm r (hold r hr').1 (hold r hr').2
    · intro e' _ _
      rw [hrun]
      refine ⟨hstay, ?_⟩
      intro r hr hnot
      rw [hafter, List.mem_filter, hrecords, List.mem_append, List.mem_append] at hr
      obtain ⟨(hr | hr) | hr, hremoved⟩ := hr
      · exact absurd hr hnot
      · apply h.2 r.refKey
        · rw [hrefs]
          exact List.mem_map_of_mem hr
        · simpa using hremoved
      · cases left with
        | false => cases hr
        | true =>
          rw [if_pos rfl, List.mem_singleton] at hr
          rw [hr]
          exact h.1 rfl
    · intro owner' _ keys hkeys
      rw [hrun] at hkeys
      cases hkeys

end

section

variable (hfiles : files ≠ []) (hdocument : normalizeDocumentRefKey documentRefKey = .ok owner)
  (hlists : server.lists = true)
include hfiles hdocument hlists

/-- The end of a replacement whose loop attached every file. -/
theorem replacement_of_attached
    (hattach : attachLoop lower locate defaults documentRefKey server verifyOwnerExists 0 files []
      { w with moments := [] } = (w₁, refs, none)) :
    deleteAttachedFileRefs server.deletion (((listAttachedFilesForDocument owner w).map
      Record.refKey).filter fun ref => ref ∉ refs) w₁ = (w₂, result) →
    replacement lower locate defaults documentRefKey files server verifyOwnerExists w =
      match result with
      | .error e => (w₂, .error (.deletingOld e))
      | .ok deleted => (w₂, .ok (refs, deleted)) := by
  have hlisted : listAttachedFilesForDocument owner { w with moments := [] } =
      listAttachedFilesForDocument owner w := rfl
  intro hgone
  unfold replacement replaceAttachedFilesForDocument
  rw [if_neg hfiles, hdocument]
  simp only
  rw [if_pos hlists, hattach]
  simp only
  rw [hlisted, hgone]
  cases result with
  | error e => rfl
  | ok deleted => rfl

theorem replacement_of_stopped {e : AttachedFileError}
    (hattach : attachLoop lower locate defaults documentRefKey server verifyOwnerExists 0 files []
      { w with moments := [] } = (w₁, refs, some e))
    (hgone : deleteAttachedFileRefs server.deletion refs w₁ = (w₂, result)) :
    ∃ e', (∀ e'', e' ≠ .deletingOld e'') ∧ replacement lower locate defaults documentRefKey files
      server verifyOwnerExists w = (w₂, .error e') := by
  unfold replacement replaceAttachedFilesForDocument
  rw [if_neg hfiles, hdocument]
  simp only
  rw [if_pos hlists, hattach]
  simp only
  rw [hgone]
  cases result with
  | error e' =>
    refine ⟨.rollback e', ?_, rfl⟩
    intro e'' h
    cases h
  | ok deleted =>
    refine ⟨.attaching e, ?_, rfl⟩
    intro e'' h
    cases h

end

/-- A replacement never loses the letter exactly when its roll-back is clean. -/
theorem replaceSafe_iff (hfresh : server.Fresh w) :
    ReplaceSafe lower locate defaults documentRefKey files server verifyOwnerExists w ↔
      CleanRollback lower locate defaults documentRefKey files server verifyOwnerExists := by
  by_cases hfiles : files = []
  · have hrun : replacement lower locate defaults documentRefKey files server verifyOwnerExists w =
        ({ w with moments := [] }, .error .noFiles) := by
      unfold replacement replaceAttachedFilesForDocument
      rw [if_pos hfiles]
    constructor
    · intro _ _ owner _ front file back left hsplit
      rw [hfiles] at hsplit
      exact absurd hsplit.symm (List.append_ne_nil_of_right_ne_nil _ (List.cons_ne_nil _ _))
    · intro _
      exact replaceSafe_of_untouched lower locate defaults documentRefKey files server
        verifyOwnerExists w hrun
  cases hdocument : normalizeDocumentRefKey documentRefKey with
  | error e =>
    have hrun : replacement lower locate defaults documentRefKey files server verifyOwnerExists w =
        ({ w with moments := [] }, .error (.listing e)) := by
      unfold replacement replaceAttachedFilesForDocument
      rw [if_neg hfiles, hdocument]
    constructor
    · intro _ _ owner howner
      rw [hdocument] at howner
      cases howner
    · intro _
      exact replaceSafe_of_untouched lower locate defaults documentRefKey files server
        verifyOwnerExists w hrun
  | ok owner =>
    by_cases hlists : server.lists = true
    · obtain ⟨hloop, new, hmoments, hkept⟩ := attachLoop_law lower locate defaults documentRefKey
        owner server verifyOwnerExists hdocument hfresh.injective files 0 [] { w with moments := [] }
        (fun i _ => hfresh.unused i)
      generalize hattach : attachLoop lower locate defaults documentRefKey server verifyOwnerExists 0
        files [] { w with moments := [] } = run at hloop hmoments
      cases hloop with
      | @all w₁ refs attached records keys =>
        rw [List.nil_append] at keys
        have hdelete := delete_law server.deletion
          (((listAttachedFilesForDocument owner w).map Record.refKey).filter fun ref => ref ∉ refs) w₁
        generalize hgone : deleteAttachedFileRefs server.deletion (((listAttachedFilesForDocument owner
          w).map Record.refKey).filter fun ref => ref ∉ refs) w₁ = deletion at hdelete
        obtain ⟨w₂, result⟩ := deletion
        constructor
        · intro _ _ owner' _ front file back left hsplit _ hfailed
          rw [hsplit] at attached
          have hattached := attached_of_all attached
          rw [Nat.zero_add, hfailed] at hattached
          cases hattached
        · intro _
          apply replaceSafe_of_attached lower locate defaults documentRefKey files server
            verifyOwnerExists w hdocument hfresh records hmoments hkept keys hdelete
          rw [replacement_of_attached lower locate defaults documentRefKey files server
            verifyOwnerExists w hfiles hdocument hlists hattach hgone]
          cases result with
          | error e => rfl
          | ok deleted => rfl
      | @stopped w₁ refs e front file back left split attached failed records keys =>
        rw [List.nil_append] at keys
        have hdelete := delete_law server.deletion refs w₁
        generalize hgone : deleteAttachedFileRefs server.deletion refs w₁ = deletion at hdelete
        obtain ⟨w₂, result⟩ := deletion
        rw [Nat.zero_add] at records
        have hend := replacement_of_stopped lower locate defaults documentRefKey files server
          verifyOwnerExists w hfiles hdocument hlists hattach hgone
        obtain ⟨e', he', hrun'⟩ := hend
        rw [replaceSafe_of_stopped lower locate defaults documentRefKey files server
          verifyOwnerExists w hdocument hfresh records hmoments hkept keys hdelete he' hrun']
        constructor
        · intro h _ owner' howner front' file' back' left' hsplit' hattached' hfailed'
          rw [hdocument] at howner
          cases howner
          have hfailed'' : fileOutcome lower locate defaults documentRefKey server verifyOwnerExists
              (0 + front'.length) file' = .failed left' := by
            rw [Nat.zero_add]
            exact hfailed'
          obtain ⟨rfl, rfl⟩ := firstFailure_unique (split.symm.trans hsplit') attached failed
            hattached' hfailed''
          rw [Nat.zero_add, hfailed'] at failed
          cases failed
          exact ⟨h.1, keys ▸ h.2⟩
        · intro h
          rw [Nat.zero_add] at failed
          obtain ⟨hleft, hpairs⟩ := h hlists owner hdocument front file back left split attached failed
          exact ⟨hleft, keys ▸ hpairs⟩
    · have hrun : replacement lower locate defaults documentRefKey files server verifyOwnerExists w =
          ({ w with moments := [] }, .error (.listing .failed)) := by
        unfold replacement replaceAttachedFilesForDocument
        rw [if_neg hfiles, hdocument]
        simp only
        rw [if_neg hlists]
      constructor
      · intro _ hyes
        exact absurd hyes hlists
      · intro _
        exact replaceSafe_of_untouched lower locate defaults documentRefKey files server
          verifyOwnerExists w hrun

end

/-! ## A roll-back that stops -/

/-- Answers of the ERP when everything goes well, but for the creation. -/
def smooth (create : CreateAnswer) : AttachAnswers where
  owner := some true
  staging := true
  write := .written
  create := create
  passes := fun _ => true
  unlinks := true

/-- The third creation is refused, and then the deletions that are named. -/
def flaky (refused : List RefKey) : Server where
  lists := true
  attach := fun index => smooth (if index = 2 then .refused else .created)
  newKey := fun index => 10 + index
  deletion := fun key => if key ∈ refused then .refused else .deleted

def databaseDefaults : Defaults where
  volumeMode := false
  uploadBinaryViaStream := false
  volumePreupload := false
  stagingEnabled := false

def letterFile (filename : String) : AttachedFileInput where
  filename := filename
  content := [1]
  processedDay := (2026, 3, 2)

def orderKey : String := "11111111-2222-3333-4444-555555555555"

def orderWorld : World where
  records := [⟨1, orderKey, none⟩]
  volume := fun _ => none
  moments := []

theorem fresh_flaky (refused : List RefKey) : (flaky refused).Fresh orderWorld where
  injective i j h := by
    have hkeys : 10 + i = 10 + j := h
    omega
  unused i r hr := by
    rw [List.mem_singleton.mp hr]
    show 1 ≠ 10 + i
    omega

/-- The deletion of the first new record is refused; the second could be deleted and stays. -/
theorem replaceSafe_refused_fails :
    ¬ ReplaceSafe id id databaseDefaults orderKey
      [letterFile "a.pdf", letterFile "b.pdf", letterFile "c.pdf"] (flaky [10]) true orderWorld := by
  intro h
  have hleft := (h.failed (.rollback (.notDeleted 10)) (by rfl) nofun).2 ⟨11, orderKey, none⟩
    (by decide +kernel) (by decide +kernel)
  revert hleft
  decide

/-- When the deletion of the second is refused, the first is gone and nothing else could be. -/
theorem replaceSafe_iff_last_refused :
    ReplaceSafe id id databaseDefaults orderKey
      [letterFile "a.pdf", letterFile "b.pdf", letterFile "c.pdf"] (flaky [11]) true orderWorld := by
  apply (replaceSafe_iff id id databaseDefaults orderKey
    [letterFile "a.pdf", letterFile "b.pdf", letterFile "c.pdf"] (flaky [11]) true orderWorld
    (fresh_flaky [11])).mpr
  intro _ owner _ front file back left hsplit _ hfailed
  have hdeleted : (flaky [11]).deletion 10 = .deleted := rfl
  rcases front with _ | ⟨first, _ | ⟨second, _ | ⟨third, rest⟩⟩⟩
  · obtain ⟨rfl, -⟩ := List.cons.inj hsplit
    have hattached : fileOutcome id id databaseDefaults orderKey (flaky [11]) true 0
        (letterFile "a.pdf") = .attached := by rfl
    cases hattached.symm.trans hfailed
  · obtain ⟨rfl, hrest⟩ := List.cons.inj hsplit
    obtain ⟨rfl, -⟩ := List.cons.inj hrest
    have hattached : fileOutcome id id databaseDefaults orderKey (flaky [11]) true 1
        (letterFile "b.pdf") = .attached := by rfl
    cases hattached.symm.trans hfailed
  · obtain ⟨rfl, hrest⟩ := List.cons.inj hsplit
    obtain ⟨rfl, hlast⟩ := List.cons.inj hrest
    obtain ⟨rfl, -⟩ := List.cons.inj hlast
    have hrefused : fileOutcome id id databaseDefaults orderKey (flaky [11]) true 2
        (letterFile "c.pdf") = .failed false := by rfl
    cases hrefused.symm.trans hfailed
    refine ⟨nofun, ?_⟩
    show List.Pairwise _ [10, 11]
    simp [hdeleted]
  · have hlength := congrArg List.length hsplit
    simp only [List.length_cons, List.length_nil, List.length_append] at hlength
    omega

end AgentBack.Mail.Attachments
