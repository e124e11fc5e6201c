import AgentBack.Base.Guarded
import AgentBack.Base.Trim
import AgentBack.Laws.Mail.Attachments
import AgentBack.Mail.Sync

/-!
# A truthful record of the letter

A letter that is in the document and was recorded once is to stay in the list of the payload, so
that no run attaches it again. An ordinary run only adds to the list. A run that attaches again
empties it before the upload and persists what the upload leaves; so it keeps the record truthful
exactly when the upload succeeds and every recorded file of another name is deleted after it
(`sync_truthful_iff`).
-/

namespace AgentBack.Mail

open Attachments
open Text (strip)

def namesOf (entries : List ErpAttachment) : List String :=
  (entries.map fun entry => strip entry.filename).filter (· ≠ "")

/-- **The record is truthful.** A file of the document that was recorded once is still named. -/
def Truthful (s : SyncState) : Prop :=
  ∀ record ∈ s.world.records, ∀ name, (record.refKey, name) ∈ s.recorded →
    strip name ∈ namesOf s.row.erpAttachments

/-- 1C gives a new record a key that it never gave. -/
structure SyncRun.Fresh (run : SyncRun) (s : SyncState) : Prop where
  unused : ∀ record ∈ s.world.records, record.refKey ≠ run.newKey
  unrecorded : ∀ entry ∈ s.recorded, entry.1 ≠ run.newKey

theorem mem_namesOf {entries : List ErpAttachment} {name : String} :
    name ∈ namesOf entries ↔ name ≠ "" ∧ ∃ entry ∈ entries, strip entry.filename = name := by
  unfold namesOf
  rw [List.mem_filter, List.mem_map, decide_eq_true_eq]
  exact and_comm

theorem mem_namesOf_merge {existing new : List ErpAttachment} {name : String} :
    name ∈ namesOf (mergeErpAttachments existing new) ↔
      name ∈ namesOf existing ∨ name ∈ namesOf new := by
  have hpairs (key : String) (entry : ErpAttachment) :
      (key, entry) ∈ ((existing ++ new).map fun item => (strip item.filename, item)).filter
        (fun item => item.1 ≠ "") ↔
      entry ∈ existing ++ new ∧ strip entry.filename = key ∧ key ≠ "" := by
    rw [List.mem_filter, List.mem_map, decide_eq_true_eq]
    constructor
    · rintro ⟨⟨item, hitem, heq⟩, hne⟩
      cases heq
      exact ⟨hitem, rfl, hne⟩
    · rintro ⟨hentry, rfl, hne⟩
      exact ⟨⟨entry, hentry, rfl⟩, hne⟩
  have hboth : name ∈ namesOf existing ∨ name ∈ namesOf new ↔
      name ≠ "" ∧ ∃ entry ∈ existing ++ new, strip entry.filename = name := by
    simp only [mem_namesOf, List.mem_append, or_and_right, exists_or, and_or_left]
  rw [hboth, mem_namesOf]
  refine and_congr_right fun hne => ?_
  unfold mergeErpAttachments
  constructor
  · rintro ⟨entry, hentry, rfl⟩
    obtain ⟨key, hkey⟩ := Dict.mem_values_iff.mp hentry
    obtain ⟨hmem, -, -⟩ := (hpairs key entry).mp (Dict.mem_of_get?_ofList hkey)
    exact ⟨entry, hmem, rfl⟩
  · rintro ⟨entry, hentry, hname⟩
    have hkey : name ∈ (((existing ++ new).map fun item => (strip item.filename, item)).filter
        (fun item => item.1 ≠ "")).map Prod.fst :=
      List.mem_map.mpr ⟨(name, entry), (hpairs name entry).mpr ⟨hentry, hname, hne⟩, rfl⟩
    obtain ⟨last, hlast⟩ := Option.isSome_iff_exists.mp (Dict.isSome_get?_ofList hkey)
    obtain ⟨-, hsame, -⟩ := (hpairs name last).mp (Dict.mem_of_get?_ofList hlast)
    exact ⟨last, Dict.mem_values_iff.mpr ⟨name, hlast⟩, hsame⟩

theorem namesOf_subset_uploadedNames {entries : List ErpAttachment} {name : String}
    (h : name ∈ namesOf entries) : name ∈ uploadedNames entries := by
  obtain ⟨hne, entry, hentry, rfl⟩ := mem_namesOf.mp h
  unfold uploadedNames
  refine List.mem_flatMap.mpr ⟨entry, hentry, ?_⟩
  dsimp only
  rw [if_neg hne]
  split
  · exact .head _
  · exact .head _

theorem strip_ne_of_mem {text : String} {c : Char} (hmem : c ∈ text.toList)
    (hspace : Text.isSpace c = false) : strip text ≠ "" := by
  intro hblank
  have hchars : Text.stripChars text.toList = [] := by
    have h := congrArg String.toList hblank
    unfold strip at h
    rw [String.toList_ofList] at h
    exact h
  obtain ⟨left, right, htext, hleft, hright⟩ := Text.exists_tight text.toList
  rw [htext, hchars, List.nil_append] at hmem
  rcases List.mem_append.mp hmem with hmem | hmem
  · rw [hleft c hmem] at hspace
    cases hspace
  · rw [hright c hmem] at hspace
    cases hspace

theorem last_slashed {filename : String} {c : Char}
    (h : ((strip filename).toList.map fun c => if c = '\\' then '/' else c).getLast? = some c) :
    Text.isSpace c = false := by
  rw [List.getLast?_map, Option.map_eq_some_iff] at h
  obtain ⟨d, hd, rfl⟩ := h
  unfold strip at hd
  rw [String.toList_ofList] at hd
  split
  · decide
  · exact (Text.tight_stripChars _).last d hd

/-- What `splitFilename` makes of the last part of a path. -/
theorem strip_attachedEntry_of_name {lower : String → String} {filename : String}
    {name : List Char} {parts : String × String}
    (hlast : ∀ c, name.getLast? = some c → Text.isSpace c = false) (hne : name ≠ [])
    (h : (match splitLast '.' name with
      | none => Except.ok (String.ofList name, "")
      | some (base, ext) =>
        if strip (String.ofList base) = "" then Except.error (AttachedFileError.badFilename filename)
        else if lower (strip (String.ofList ext)) = "" then
          Except.error (AttachedFileError.missingExtension filename)
        else .ok (strip (String.ofList base), lower (strip (String.ofList ext)))) = .ok parts) :
    strip (attachedEntry parts).filename ≠ "" := by
  cases hdot : splitLast '.' name with
  | none =>
    rw [hdot] at h
    cases h
    unfold attachedEntry
    dsimp only
    rw [if_neg (not_not.mpr rfl)]
    exact strip_ne_of_mem (String.toList_ofList ▸ List.getLast_mem hne)
      (hlast _ (List.getLast?_eq_some_getLast hne))
  | some split =>
    obtain ⟨base, ext⟩ := split
    rw [hdot] at h
    dsimp only at h
    split_ifs at h with hbase hext
    cases h
    unfold attachedEntry
    dsimp only
    rw [if_pos hext]
    exact @strip_ne_of_mem _ '.' (by simp) (by decide)

/-- The name of a split file is not blank. -/
theorem strip_attachedEntry {lower : String → String} {filename : String} {parts : String × String}
    (h : splitFilename lower filename = .ok parts) :
    strip (attachedEntry parts).filename ≠ "" := by
  have hlast := @last_slashed filename
  unfold splitFilename at h
  dsimp only at h
  generalize ((strip filename).toList.map fun c => if c = '\\' then '/' else c) = slashed
    at h hlast
  cases hsplit : splitLast '/' slashed with
  | none =>
    rw [hsplit] at h
    dsimp only at h
    split_ifs at h with hblank
    exact strip_attachedEntry_of_name (fun c => hlast) (fun hnil => hblank (.inl hnil)) h
  | some split =>
    obtain ⟨front, back⟩ := split
    rw [hsplit] at h
    dsimp only at h
    split_ifs at h with hblank
    refine strip_attachedEntry_of_name (fun c hc => hlast ?_) (fun hnil => hblank (.inl hnil)) h
    rw [(splitLast_eq_some.mp hsplit).1, List.getLast?_append, List.getLast?_cons, hc]
    rfl

section
variable {lower locate : String → String} {defaults : Defaults} {run : SyncRun}

def fileEntry (lower locate : String → String) (defaults : Defaults) (run : SyncRun)
    (documentRefKey : String) (file : AttachedFileInput) : Option ErpAttachment :=
  if outcome lower locate defaults documentRefKey file run.attach (run.deletion run.newKey) true =
      .attached then
    match splitFilename lower file.filename with
    | .ok parts => some (attachedEntry parts)
    | .error _ => none
  else none

def letterEntry (lower locate : String → String) (defaults : Defaults) (run : SyncRun)
    (documentRefKey : String) (erpDocumentNumber : Option String) (skipFilenames : List String) :
    Option ErpAttachment :=
  if run.attachEnabled then
    match collectErpUploadFiles lower run erpDocumentNumber skipFilenames with
    | some (file :: _) =>
      if run.prepares then fileEntry lower locate defaults run documentRefKey file else none
    | _ => none
  else none

/-- What an attachment leaves: the old records and perhaps the new one, and its key when it was
attached. -/
theorem attachFile_spec (documentRefKey : String) (file : AttachedFileInput)
    (answers : AttachAnswers) (key : RefKey) (deletion : DeleteAnswer) {w : World}
    (hfresh : ∀ record ∈ w.records, record.refKey ≠ key) :
    ∃ added, (attachFileToIncomingDocument lower locate defaults documentRefKey file answers key
        deletion true w).1.records = w.records ++ added ∧ (∀ record ∈ added, record.refKey = key) ∧
      if outcome lower locate defaults documentRefKey file answers deletion true = .attached then
        (attachFileToIncomingDocument lower locate defaults documentRefKey file answers key
          deletion true w).2 = .ok key
      else ∃ e, (attachFileToIncomingDocument lower locate defaults documentRefKey file answers key
          deletion true w).2 = .error e := by
  cases hdocument : normalizeDocumentRefKey documentRefKey with
  | ok owner =>
    have hlaw := attach_law lower locate defaults hdocument file answers deletion true hfresh
    refine ⟨_, hlaw.records, ?_, ?_⟩
    · cases outcome lower locate defaults documentRefKey file answers deletion true with
      | attached => simp [Outcome.added]
      | failed left => cases left <;> simp [Outcome.added]
    · cases hend : outcome lower locate defaults documentRefKey file answers deletion true with
      | attached =>
        rw [if_pos rfl]
        exact hlaw.ok hend
      | failed left =>
        rw [if_neg nofun]
        exact hlaw.error left hend
  | error e =>
    have hprepare : prepareAttachment lower locate defaults documentRefKey file answers true =
        .error e := by
      unfold prepareAttachment
      rw [hdocument]
      rfl
    unfold attachFileToIncomingDocument outcome
    rw [hprepare]
    exact ⟨[], (List.append_nil _).symm, nofun, by rw [if_neg nofun]; exact ⟨e, rfl⟩⟩

theorem attachLetter_spec (documentRefKey : String) (file : AttachedFileInput) {w : World}
    (hfresh : ∀ record ∈ w.records, record.refKey ≠ run.newKey) :
    (∃ added, (attachLetter lower locate defaults run documentRefKey file w).1.records =
        w.records ++ added ∧ ∀ record ∈ added, record.refKey = run.newKey) ∧
    (attachLetter lower locate defaults run documentRefKey file w).2 =
      (fileEntry lower locate defaults run documentRefKey file).map fun entry =>
        (run.newKey, entry) := by
  obtain ⟨added, hrecords, hadded, hresult⟩ := @attachFile_spec lower locate defaults documentRefKey
    file run.attach run.newKey (run.deletion run.newKey) w hfresh
  unfold attachLetter fileEntry
  generalize attachFileToIncomingDocument lower locate defaults documentRefKey file run.attach
    run.newKey (run.deletion run.newKey) true w = done at hrecords hresult
  obtain ⟨w', result⟩ := done
  dsimp only at hrecords hresult
  split at hresult
  · next hattached =>
    subst hresult
    rw [if_pos hattached]
    cases splitFilename lower file.filename with
    | ok parts | error e => exact ⟨⟨added, hrecords, hadded⟩, rfl⟩
  · next hfailed =>
    obtain ⟨e, rfl⟩ := hresult
    rw [if_neg hfailed]
    exact ⟨⟨added, hrecords, hadded⟩, rfl⟩

/-- A run attaches the letter under one name, or nothing. -/
theorem attachMissing_spec (documentRefKey : String) (erpDocumentNumber : Option String)
    (skipFilenames : List String) {w : World}
    (hfresh : ∀ record ∈ w.records, record.refKey ≠ run.newKey) :
    (∃ added, (attachMissingEmailFiles lower locate defaults run documentRefKey erpDocumentNumber
        skipFilenames w).1.records = w.records ++ added ∧
      ∀ record ∈ added, record.refKey = run.newKey) ∧
    (attachMissingEmailFiles lower locate defaults run documentRefKey erpDocumentNumber
        skipFilenames w).2.getD [] =
      (letterEntry lower locate defaults run documentRefKey erpDocumentNumber
        skipFilenames).toList.map fun entry => (run.newKey, entry) := by
  have hsame : ∃ added, w.records = w.records ++ added ∧
      ∀ record ∈ added, record.refKey = run.newKey :=
    ⟨[], (List.append_nil _).symm, nofun⟩
  unfold attachMissingEmailFiles letterEntry
  cases run.attachEnabled with
  | false => exact ⟨hsame, rfl⟩
  | true =>
    rw [if_neg (by decide), if_pos rfl]
    cases collectErpUploadFiles lower run erpDocumentNumber skipFilenames with
    | none => exact ⟨hsame, rfl⟩
    | some files =>
      cases files with
      | nil => exact ⟨hsame, rfl⟩
      | cons file rest =>
        dsimp only
        cases run.prepares with
        | false => exact ⟨hsame, by simp⟩
        | true =>
          obtain ⟨hrecords, hresult⟩ :=
            @attachLetter_spec lower locate defaults run documentRefKey file w hfresh
          generalize attachLetter lower locate defaults run documentRefKey file w = done
            at hrecords hresult
          obtain ⟨w', attached⟩ := done
          dsimp only at hrecords hresult
          subst hresult
          rw [if_neg (by decide), if_pos rfl]
          cases fileEntry lower locate defaults run documentRefKey file with
          | some entry | none => exact ⟨hrecords, rfl⟩

theorem letterEntry_ne {documentRefKey : String} {erpDocumentNumber : Option String}
    {skipFilenames : List String} {entry : ErpAttachment}
    (h : letterEntry lower locate defaults run documentRefKey erpDocumentNumber skipFilenames =
      some entry) : strip entry.filename ≠ "" := by
  unfold letterEntry at h
  split at h
  · split at h
    · split at h
      · unfold fileEntry at h
        split at h
        · split at h
          · next parts hparts =>
            cases h
            exact strip_attachedEntry hparts
          · cases h
        · cases h
      · cases h
    · cases h
  · cases h

theorem payload_mergeAttachmentMeta {payload : Option ErpPayload} {attached : List ErpAttachment}
    {row : ErpRow} (hrow : row.payload = mergeAttachmentMeta payload attached) :
    row.payload.isSome = payload.isSome ∧
      ∀ name, name ∈ namesOf row.erpAttachments ↔
        name ∈ namesOf ((payload.map (·.erpAttachments)).getD []) ∨
          (payload.isSome ∧ name ∈ namesOf attached) := by
  unfold ErpRow.erpAttachments
  rw [hrow]
  unfold mergeAttachmentMeta
  split
  · next hnone =>
    rw [hnone]
    simp [namesOf]
  · cases payload with
    | none => simp [namesOf]
    | some payload => simp [mem_namesOf_merge]

/-- The entries after a synchronisation: those before it, unless it attaches again, and the attached
ones. -/
theorem syncExisting_entries (force : Bool) {row : ErpRow} {calls : SyncCalls}
    {oldFiles : List String} (h : calls.oldFiles = .ok oldFiles) :
    ∃ attempt, syncExisting force row calls = some attempt ∧
      attempt.row.payload.isSome = row.payload.isSome ∧
      ∀ name, name ∈ namesOf attempt.row.erpAttachments ↔
        (force = false ∧ name ∈ namesOf row.erpAttachments) ∨
          (row.payload.isSome ∧ name ∈ namesOf (calls.attach.toOption.getD [])) := by
  have hattached (attached : List ErpAttachment) (again : Prop) [Decidable again]
      (errors : List String) :
      (if again then (errors, attached) else ([], attached)).2 = attached := by
    split
    · rfl
    · rfl
  have hpayload : ∃ attempt, syncExisting force row calls = some attempt ∧
      attempt.row.payload = mergeAttachmentMeta
        (if force then row.payload.map fun payload => { payload with erpAttachments := [] }
          else row.payload) (calls.attach.toOption.getD []) := by
    unfold syncExisting
    dsimp only
    rw [h]
    cases force with
    | true | false =>
      refine ⟨_, rfl, ?_⟩
      cases calls.attach with
      | error text => rfl
      | ok attached =>
        dsimp only
        rw [hattached]
        rfl
  obtain ⟨attempt, hattempt, hrow⟩ := hpayload
  obtain ⟨hsome, hnames⟩ := payload_mergeAttachmentMeta hrow
  refine ⟨attempt, hattempt, ?_, ?_⟩
  · rw [hsome]
    cases force with
    | true => simp
    | false => rfl
  · intro name
    rw [hnames]
    cases force with
    | true => cases row.payload <;> simp [namesOf]
    | false => simp [ErpRow.erpAttachments]

/-- What a run that comes to its upload does. -/
structure SyncLaw (run : SyncRun) (s s' : SyncState) (entry : Option ErpAttachment)
    (gone : List RefKey) : Prop where
  records : ∃ added, s'.world.records =
      (s.world.records ++ added).filter (fun record => record.refKey ∉ gone) ∧
    ∀ record ∈ added, record.refKey = run.newKey
  recorded : s'.recorded = s.recorded ++
    if s.row.payload.isSome then entry.toList.map fun entry => (run.newKey, entry.filename) else []
  names : ∀ name, name ∈ namesOf s'.row.erpAttachments ↔
    (run.force = false ∧ name ∈ namesOf s.row.erpAttachments) ∨
      (s.row.payload.isSome ∧ name ∈ namesOf entry.toList)

/-- The keys that the clean-up of a run deletes. -/
def SyncRun.gone (run : SyncRun) (oldRefs : List RefKey) (entry : Option ErpAttachment) :
    List RefKey :=
  if run.force ∧ oldRefs ≠ [] ∧ entry.isSome then removed run.deletion oldRefs else []

theorem cleanUp_records {oldRefs : List RefKey}
    {attached : Option (List (RefKey × ErpAttachment))} {entry : Option ErpAttachment} {w : World}
    (h : attached.getD [] = entry.toList.map fun entry => (run.newKey, entry)) :
    (run.cleanUp oldRefs attached w).1.records =
      w.records.filter fun record => record.refKey ∉ run.gone oldRefs entry := by
  have hsome : attached.getD [] ≠ [] ↔ entry.isSome := by
    rw [h]
    cases entry with
    | none => simp
    | some entry => simp
  unfold SyncRun.cleanUp SyncRun.gone
  by_cases hdo : run.force ∧ oldRefs ≠ [] ∧ entry.isSome
  · rw [if_pos hdo, if_pos ⟨hdo.1, hdo.2.1, hsome.mpr hdo.2.2⟩]
    have hlaw := (delete_law run.deletion oldRefs w).records
    generalize deleteAttachedFileRefs run.deletion oldRefs w = done at hlaw
    obtain ⟨w', result⟩ := done
    cases result with
    | ok keys => exact hlaw
    | error e => exact hlaw
  · rw [if_neg hdo, if_neg fun h => hdo ⟨h.1, h.2.1, hsome.mp h.2.2⟩]
    simp

theorem syncRun_law {s : SyncState} (hfresh : run.Fresh s) {docRef : String} {oldRefs : List RefKey}
    (hdocument : existingErpDocumentRefKey s.row = some docRef)
    (hold : run.oldRefs docRef s.world = some oldRefs) :
    let entry := letterEntry lower locate defaults run docRef s.row.erpDocumentNumber
      (run.skip s.row)
    SyncLaw run s (syncRun lower locate defaults run s) entry (run.gone oldRefs entry) := by
  intro entry
  obtain ⟨⟨added, hrecords, hadded⟩, hattached⟩ := @attachMissing_spec lower locate defaults run
    docRef s.row.erpDocumentNumber (run.skip s.row) s.world hfresh.unused
  unfold syncRun
  rw [hdocument]
  dsimp only
  rw [hold]
  dsimp only
  generalize attachMissingEmailFiles lower locate defaults run docRef s.row.erpDocumentNumber
    (run.skip s.row) s.world = done at hrecords hattached
  obtain ⟨w, attached⟩ := done
  dsimp only at hrecords hattached ⊢
  have hclean := @cleanUp_records run oldRefs attached entry w (by rw [hattached])
  generalize run.cleanUp oldRefs attached w = cleaned at hclean
  obtain ⟨w', cleanupError⟩ := cleaned
  dsimp only at hclean ⊢
  have hentries : ((attached.map fun attached => attached.map Prod.snd).getD []) =
      entry.toList := by
    have h := congrArg (List.map Prod.snd) hattached
    rw [List.map_map] at h
    cases attached with
    | none | some attached => simpa using h
  have runs (calls : SyncCalls) (hfiles : calls.oldFiles = .ok (oldRefs.map toString)) :
      syncExisting run.force s.row calls ≠ none := by
    obtain ⟨attempt, hattempt, -⟩ := @syncExisting_entries run.force s.row calls _ hfiles
    rw [hattempt]
    exact Option.some_ne_none attempt
  have finish (calls : SyncCalls) (hfiles : calls.oldFiles = .ok (oldRefs.map toString))
      (hcalls : calls.attach.toOption.getD [] = entry.toList) (attempt : Attempt)
      (hattempt : syncExisting run.force s.row calls = some attempt) :
      SyncLaw run s
        { row := attempt.row
          world := w'
          recorded := s.recorded ++
            if attempt.row.payload.isSome then
              (attached.getD []).map fun entry => (entry.1, entry.2.filename)
            else [] } entry (run.gone oldRefs entry) := by
    obtain ⟨attempt', hattempt', hsome, hnames⟩ := @syncExisting_entries run.force s.row calls _ hfiles
    rw [hattempt] at hattempt'
    cases hattempt'
    constructor
    · exact ⟨added, by rw [hclean, hrecords], hadded⟩
    · dsimp only
      rw [hsome, hattached, List.map_map]
      rfl
    · intro name
      rw [hnames, hcalls]
  cases attached with
  | none | some attached =>
    split
    · next hnone => exact absurd hnone (runs _ rfl)
    · next attempt hattempt => exact finish _ rfl (by exact hentries) attempt hattempt

/-! ## What keeps the record truthful -/

/-- The run attaches nothing again, or it does not come to its upload, or the letter is attached,
and every recorded file of another name is deleted after it. -/
def SyncRun.Keeps (lower locate : String → String) (defaults : Defaults) (run : SyncRun)
    (s : SyncState) : Prop :=
  run.force = true → ∀ docRef oldRefs, existingErpDocumentRefKey s.row = some docRef →
    run.oldRefs docRef s.world = some oldRefs →
      ∀ record ∈ s.world.records, ∀ name, (record.refKey, name) ∈ s.recorded →
        ∃ entry, letterEntry lower locate defaults run docRef s.row.erpDocumentNumber [] =
          some entry ∧ (strip name = strip entry.filename ∨
            record.refKey ∈ removed run.deletion oldRefs)

theorem syncRun_untouched {s : SyncState}
    (h : ∀ docRef oldRefs, existingErpDocumentRefKey s.row = some docRef →
      run.oldRefs docRef s.world ≠ some oldRefs) : syncRun lower locate defaults run s = s := by
  unfold syncRun
  cases hdocument : existingErpDocumentRefKey s.row with
  | none => rfl
  | some docRef =>
    dsimp only
    cases hold : run.oldRefs docRef s.world with
    | none => rfl
    | some oldRefs => exact absurd hold (h docRef oldRefs hdocument)

section

variable {s s' : SyncState} {entry : Option ErpAttachment} {gone : List RefKey}
  (h : SyncLaw run s s' entry gone)
include h

/-- After a run that comes to its upload, a file of the document is an old one that was not deleted,
or a new one. -/
theorem SyncLaw.mem_records {record : Record} (hmem : record ∈ s'.world.records) :
    record.refKey ∉ gone ∧ (record ∈ s.world.records ∨ record.refKey = run.newKey) := by
  obtain ⟨added, hrecords, hadded⟩ := h.records
  rw [hrecords] at hmem
  obtain ⟨hmem, hgone⟩ := List.mem_filter.mp hmem
  refine ⟨of_decide_eq_true hgone, ?_⟩
  rcases List.mem_append.mp hmem with hmem | hmem
  · exact .inl hmem
  · exact .inr (hadded record hmem)

/-- A name of the new key is the letter's, and a name of another key is an old one. -/
theorem SyncLaw.mem_recorded {key : RefKey} {name : String} (hmem : (key, name) ∈ s'.recorded) :
    (key, name) ∈ s.recorded ∨
      s.row.payload.isSome = true ∧ key = run.newKey ∧
        ∃ letter, entry = some letter ∧ name = letter.filename := by
  rw [h.recorded] at hmem
  rcases List.mem_append.mp hmem with hmem | hmem
  · exact .inl hmem
  · split at hmem
    · next hsome =>
      obtain ⟨letter, hletter, heq⟩ := List.mem_map.mp hmem
      cases heq
      exact .inr ⟨hsome, rfl, letter, Option.mem_toList.mp hletter, rfl⟩
    · cases hmem

end

theorem SyncLaw.names_letter {s s' : SyncState} {letter : ErpAttachment} {gone : List RefKey}
    (h : SyncLaw run s s' (some letter) gone) (hne : strip letter.filename ≠ "")
    (hsome : s.row.payload.isSome = true) :
    strip letter.filename ∈ namesOf s'.row.erpAttachments :=
  (h.names _).mpr (.inr ⟨hsome, mem_namesOf.mpr ⟨hne, letter, List.mem_singleton.mpr rfl, rfl⟩⟩)

theorem SyncRun.mem_gone {oldRefs : List RefKey} {entry : Option ErpAttachment} {key : RefKey}
    (hforce : run.force = true) :
    key ∈ run.gone oldRefs entry ↔ entry.isSome = true ∧ key ∈ removed run.deletion oldRefs := by
  unfold SyncRun.gone
  split
  · next hdo => exact (and_iff_right hdo.2.2).symm
  · next hdo =>
    refine iff_of_false List.not_mem_nil fun ⟨hsome, hkey⟩ => hdo ⟨hforce, ?_, hsome⟩
    exact List.ne_nil_of_mem (removed_subset _ _ hkey)

theorem isSome_payload_of_names {row : ErpRow} {name : String}
    (h : name ∈ namesOf row.erpAttachments) : row.payload.isSome = true := by
  unfold ErpRow.erpAttachments at h
  cases hpayload : row.payload with
  | none =>
    rw [hpayload] at h
    cases h
  | some payload => rfl

/-- After a run that attaches again the old files that are left must be named as the letter is. -/
theorem truthful_forced_iff {s s' : SyncState} (hs : Truthful s) (hfresh : run.Fresh s)
    (hforce : run.force = true) {docRef : String} {oldRefs : List RefKey}
    (hdocument : existingErpDocumentRefKey s.row = some docRef)
    (hold : run.oldRefs docRef s.world = some oldRefs)
    (hlaw : SyncLaw run s s'
      (letterEntry lower locate defaults run docRef s.row.erpDocumentNumber [])
      (run.gone oldRefs (letterEntry lower locate defaults run docRef s.row.erpDocumentNumber [])))
    (hletter : ∀ letter, letterEntry lower locate defaults run docRef s.row.erpDocumentNumber [] =
      some letter → strip letter.filename ≠ "") :
    Truthful s' ↔ run.Keeps lower locate defaults s := by
  have hnames (name : String) : name ∈ namesOf s'.row.erpAttachments ↔ s.row.payload.isSome = true ∧
      name ∈ namesOf
        (letterEntry lower locate defaults run docRef s.row.erpDocumentNumber []).toList := by
    rw [hlaw.names, hforce]
    simp
  constructor
  · intro hs' _ docRef' oldRefs' hdocument' hold' record hrecord name hname
    cases hdocument.symm.trans hdocument'
    cases hold.symm.trans hold'
    have hkept (hgone : record.refKey ∉ run.gone oldRefs (letterEntry lower locate defaults run
        docRef s.row.erpDocumentNumber [])) : strip name ∈ namesOf
          (letterEntry lower locate defaults run docRef s.row.erpDocumentNumber []).toList := by
      obtain ⟨added, hrecords, -⟩ := hlaw.records
      have hin : record ∈ s'.world.records := by
        rw [hrecords]
        exact List.mem_filter.mpr ⟨List.mem_append_left _ hrecord, decide_eq_true hgone⟩
      refine ((hnames _).mp (hs' record hin name ?_)).2
      rw [hlaw.recorded]
      exact List.mem_append_left _ hname
    rw [SyncRun.mem_gone hforce] at hkept
    cases hentry : letterEntry lower locate defaults run docRef s.row.erpDocumentNumber [] with
    | none =>
      rw [hentry] at hkept
      cases hkept fun hgone => Bool.false_ne_true hgone.1
    | some letter =>
      rw [hentry] at hkept
      refine ⟨letter, rfl, ?_⟩
      by_cases hremoved : record.refKey ∈ removed run.deletion oldRefs
      · exact .inr hremoved
      · obtain ⟨-, entry, hmem, hsame⟩ := mem_namesOf.mp (hkept fun hgone => hremoved hgone.2)
        rw [List.mem_singleton.mp hmem] at hsame
        exact .inl hsame.symm
  · intro hkeeps record hrecord name hname
    obtain ⟨hgone, hrecord⟩ := hlaw.mem_records hrecord
    rcases hlaw.mem_recorded hname with hname | ⟨hsome, -, letter, hentry, rfl⟩
    · rcases hrecord with hrecord | hnew
      · have hsome := isSome_payload_of_names (hs record hrecord name hname)
        obtain ⟨letter, hentry, hsame | hremoved⟩ :=
          hkeeps hforce docRef oldRefs hdocument hold record hrecord name hname
        · rw [hentry] at hlaw
          rw [hsame]
          exact hlaw.names_letter (hletter letter hentry) hsome
        · refine absurd ((SyncRun.mem_gone hforce).mpr ⟨?_, hremoved⟩) hgone
          rw [hentry]
          rfl
      · exact absurd hnew (hfresh.unrecorded _ hname)
    · rw [hentry] at hlaw
      exact hlaw.names_letter (hletter letter hentry) hsome

/-- A run keeps a truthful record truthful exactly when it meets the condition. -/
theorem truthful_syncRun_iff {s : SyncState} (hs : Truthful s) (hfresh : run.Fresh s) :
    Truthful (syncRun lower locate defaults run s) ↔ run.Keeps lower locate defaults s := by
  by_cases hreach : ∃ docRef oldRefs, existingErpDocumentRefKey s.row = some docRef ∧
      run.oldRefs docRef s.world = some oldRefs
  · obtain ⟨docRef, oldRefs, hdocument, hold⟩ := hreach
    have hlaw := @syncRun_law lower locate defaults run s hfresh docRef oldRefs hdocument hold
    dsimp only at hlaw
    generalize hs' : syncRun lower locate defaults run s = s' at hlaw
    have hletter : ∀ letter, letterEntry lower locate defaults run docRef s.row.erpDocumentNumber
        (run.skip s.row) = some letter → strip letter.filename ≠ "" := fun _ => letterEntry_ne
    cases hforce : run.force with
    | false =>
      refine iff_of_true ?_ fun h => by rw [hforce] at h; cases h
      intro record hrecord name hname
      obtain ⟨-, hrecord⟩ := hlaw.mem_records hrecord
      rcases hlaw.mem_recorded hname with hname | ⟨hsome, -, letter, hentry, rfl⟩
      · rcases hrecord with hrecord | hnew
        · exact (hlaw.names _).mpr (.inl ⟨hforce, hs record hrecord name hname⟩)
        · exact absurd hnew (hfresh.unrecorded _ hname)
      · rw [hentry] at hlaw
        exact hlaw.names_letter (hletter letter hentry) hsome
    | true =>
      have hskip : run.skip s.row = [] := if_pos hforce
      rw [hskip] at hlaw hletter
      exact truthful_forced_iff hs hfresh hforce hdocument hold hlaw hletter
  · have hsame : syncRun lower locate defaults run s = s :=
      syncRun_untouched fun docRef oldRefs hdocument hold =>
        hreach ⟨docRef, oldRefs, hdocument, hold⟩
    rw [hsame]
    refine iff_of_true hs fun _ docRef oldRefs hdocument hold => ?_
    exact absurd ⟨docRef, oldRefs, hdocument, hold⟩ hreach

/-- A recorded file of the document is the letter for the code. -/
def HoldsLetter (lower : String → String) (s : SyncState) : Prop :=
  ∃ record ∈ s.world.records, ∃ name, (record.refKey, name) ∈ s.recorded ∧
    erpEmailAlreadyUploaded lower s.row.erpDocumentNumber [name] = true

theorem erpEmailAlreadyUploaded_of_mem {erpDocumentNumber : Option String} {name : String}
    {skipFilenames : List String}
    (h : erpEmailAlreadyUploaded lower erpDocumentNumber [name] = true)
    (hmem : strip name ∈ skipFilenames) :
    erpEmailAlreadyUploaded lower erpDocumentNumber skipFilenames = true := by
  unfold erpEmailAlreadyUploaded at h ⊢
  obtain ⟨letter, hletter, htest⟩ := List.any_eq_true.mp h
  obtain ⟨hletter, hne⟩ := List.mem_filter.mp hletter
  obtain rfl : letter = strip name := List.mem_singleton.mp hletter
  refine List.any_eq_true.mpr ⟨strip name, List.mem_filter.mpr ⟨?_, hne⟩, htest⟩
  exact List.mem_map.mpr ⟨strip name, hmem, Text.strip_strip name⟩

theorem syncRun_ordinary {s : SyncState} (hs : Truthful s) (hforce : run.force = false)
    (hletter : HoldsLetter lower s) :
    (syncRun lower locate defaults run s).world = s.world := by
  obtain ⟨record, hrecord, name, hname, huploaded⟩ := hletter
  have hskip : erpEmailAlreadyUploaded lower s.row.erpDocumentNumber (run.skip s.row) = true := by
    have hnot : ¬ run.force = true := by
      rw [hforce]
      decide
    rw [show run.skip s.row = uploadedNames s.row.erpAttachments from if_neg hnot]
    exact erpEmailAlreadyUploaded_of_mem huploaded
      (namesOf_subset_uploadedNames (hs record hrecord name hname))
  have hattach (docRef : String) : (attachMissingEmailFiles lower locate defaults run docRef
      s.row.erpDocumentNumber (run.skip s.row) s.world).1 = s.world := by
    have hcollect : collectErpUploadFiles lower run s.row.erpDocumentNumber (run.skip s.row) = none ∨
        collectErpUploadFiles lower run s.row.erpDocumentNumber (run.skip s.row) = some [] := by
      unfold collectErpUploadFiles
      dsimp only
      split
      · exact .inr rfl
      · split
        · exact .inl rfl
        · exact .inr rfl
    unfold attachMissingEmailFiles
    split
    · rfl
    · rcases hcollect with hcollect | hcollect
      · rw [hcollect]
      · rw [hcollect]
  have hclean (oldRefs : List RefKey) (attached : Option (List (RefKey × ErpAttachment)))
      (w : World) : run.cleanUp oldRefs attached w = (w, none) := by
    unfold SyncRun.cleanUp
    rw [if_neg]
    rw [hforce]
    exact fun h => Bool.false_ne_true h.1
  unfold syncRun
  cases existingErpDocumentRefKey s.row with
  | none => rfl
  | some docRef =>
    dsimp only
    cases run.oldRefs docRef s.world with
    | none => rfl
    | some oldRefs =>
      have hworld := hattach docRef
      generalize attachMissingEmailFiles lower locate defaults run docRef s.row.erpDocumentNumber
        (run.skip s.row) s.world = done at hworld
      obtain ⟨w, attached⟩ := done
      dsimp only at hworld ⊢
      rw [hclean, hworld]
      dsimp only
      split
      · rfl
      · rfl

/-- **The record of the letter.** Over a run of synchronisations from a truthful record it stays
truthful in every state exactly when each of them meets the condition; and then no ordinary one
attaches a letter that is there. -/
theorem sync_truthful_iff (lower locate : String → String) (defaults : Defaults)
    (runs : List SyncRun) (s : SyncState) (hs : Truthful s)
    (hfresh : Guarded (fun s run => syncRun lower locate defaults run s) SyncRun.Fresh runs s) :
    ((∀ front, front <+: runs →
        Truthful (front.foldl (fun s run => syncRun lower locate defaults run s) s)) ↔
      Guarded (fun s run => syncRun lower locate defaults run s)
        (SyncRun.Keeps lower locate defaults) runs s) ∧
    (Guarded (fun s run => syncRun lower locate defaults run s)
        (SyncRun.Keeps lower locate defaults) runs s →
      ∀ front run, front ++ [run] <+: runs → run.force = false →
        HoldsLetter lower (front.foldl (fun s run => syncRun lower locate defaults run s) s) →
          (syncRun lower locate defaults run
            (front.foldl (fun s run => syncRun lower locate defaults run s) s)).world =
          (front.foldl (fun s run => syncRun lower locate defaults run s) s).world) := by
  have hiff := @Guarded.throughout_iff _ _ (fun s run => syncRun lower locate defaults run s)
    (SyncRun.Keeps lower locate defaults) Truthful SyncRun.Fresh
    (fun run s hs hfresh => truthful_syncRun_iff hs hfresh) runs s hs hfresh
  refine ⟨hiff, fun hkeeps front run hfront hforce hletter => ?_⟩
  exact syncRun_ordinary (hiff.mpr hkeeps front ((List.prefix_append _ _).trans hfront)) hforce
    hletter

end

/-! ## A letter that is attached twice -/

/-- A row whose document has no letter yet. -/
def newDocument : SyncState where
  row :=
    { status := .done, humanReview := false, mailbox := "info@turbo-don.ru"
      departmentId := some "00-000044", summaryRu := some "Договор"
      erpDocumentNumber := some "АЛ00-000762"
      erpTaskId := some "6f9619ff-8b86-d011-b42d-00c04fc964ff", erpRetryCount := 0
      payload := some
        { recipients := ⟨.missing, .missing, .missing, false⟩, xmlDocument := none, erpAttachments := [] } }
  world := { records := [], volume := fun _ => none, moments := [] }
  recorded := []

theorem truthful_newDocument : Truthful newDocument := by
  intro record hrecord
  cases hrecord

def upload (force : Bool) (newKey : RefKey) (create : CreateAnswer) : SyncRun where
  force
  update := none
  attachEnabled := true
  lists := true
  fullEmailBytes := [1]
  msgBytes := some [1]
  processedDay := (2025, 3, 4)
  prepares := true
  attach :=
    { owner := some true, staging := true, write := .written, create, passes := fun _ => true
      unlinks := true }
  newKey
  deletion := fun _ => .deleted
  raised := "timeout"

/-- The settings of a data base that stores the files itself. -/
def databaseStorage : Defaults where
  volumeMode := false
  uploadBinaryViaStream := true
  volumePreupload := false
  stagingEnabled := false

/-- The document after the first upload. -/
def withLetter : SyncState := syncRun id id databaseStorage (upload false 1 .created) newDocument

theorem withLetter_facts :
    withLetter.world.records = [⟨1, "6f9619ff-8b86-d011-b42d-00c04fc964ff", none⟩] ∧
      withLetter.recorded = [(1, "АЛ00-000762.msg")] ∧
      existingErpDocumentRefKey withLetter.row = some "6f9619ff-8b86-d011-b42d-00c04fc964ff" ∧
      withLetter.row.erpDocumentNumber = some "АЛ00-000762" := by
  decide +kernel

theorem fresh_withLetter (force : Bool) (create : CreateAnswer) :
    (upload force 2 create).Fresh withLetter := by
  obtain ⟨hrecords, hrecorded, -⟩ := withLetter_facts
  constructor
  · rw [hrecords]
    exact List.forall_mem_singleton.mpr (by decide : (1 : RefKey) ≠ 2)
  · rw [hrecorded]
    exact List.forall_mem_singleton.mpr (by decide : (1 : RefKey) ≠ 2)

/-- Two ordinary runs keep the record truthful. -/
theorem sync_truthful_twice :
    Truthful ([upload false 1 .created, upload false 2 .created].foldl
      (fun s run => syncRun id id databaseStorage run s) newDocument) := by
  have hfresh : Guarded (fun s run => syncRun id id databaseStorage run s) SyncRun.Fresh
      [upload false 1 .created, upload false 2 .created] newDocument :=
    ⟨⟨by decide, by decide⟩, fresh_withLetter false .created, trivial⟩
  refine ((sync_truthful_iff id id databaseStorage _ newDocument
    truthful_newDocument hfresh).1.mpr ?_) _ (List.prefix_refl _)
  exact ⟨nofun, nofun, trivial⟩

/-- A run that attaches again while files are not attached. -/
def switchedOff : SyncRun := { upload true 2 .created with attachEnabled := false }

/-- A run that attaches again and whose upload fails forgets the letter; after one that attaches
nothing the next ordinary run attaches the letter a second time. -/
theorem sync_attaches_twice :
    ¬ Truthful ([upload false 1 .created, upload true 2 .refused].foldl
      (fun s run => syncRun id id databaseStorage run s) newDocument) ∧
    ([upload false 1 .created, switchedOff, upload false 3 .created].foldl
      (fun s run => syncRun id id databaseStorage run s) newDocument).recorded =
        [(1, "АЛ00-000762.msg"), (3, "АЛ00-000762.msg")] := by
  refine ⟨fun h => ?_, by decide +kernel⟩
  rw [List.foldl_cons, List.foldl_cons, List.foldl_nil] at h
  have hfirst : (upload false 1 .created).Fresh newDocument := ⟨by decide, by decide⟩
  have hattached : Truthful withLetter :=
    (truthful_syncRun_iff truthful_newDocument hfirst).mpr nofun
  have hkeeps := (@truthful_syncRun_iff id id databaseStorage _ _ hattached
    (fresh_withLetter true .refused)).mp h
  obtain ⟨hrecords, hrecorded, hdocument, hnumber⟩ := withLetter_facts
  have hlisted : ((upload true 2 .refused).oldRefs "6f9619ff-8b86-d011-b42d-00c04fc964ff"
      withLetter.world).isSome := by
    decide
  obtain ⟨oldRefs, hold⟩ := Option.isSome_iff_exists.mp hlisted
  obtain ⟨entry, hentry, -⟩ := hkeeps rfl _ oldRefs hdocument hold
    ⟨1, "6f9619ff-8b86-d011-b42d-00c04fc964ff", none⟩ (hrecords ▸ List.mem_singleton.mpr rfl)
    "АЛ00-000762.msg" (hrecorded ▸ List.mem_singleton.mpr rfl)
  have hnone : letterEntry id id databaseStorage (upload true 2 .refused)
      "6f9619ff-8b86-d011-b42d-00c04fc964ff" (some "АЛ00-000762") [] = none := by
    decide +kernel
  rw [hnumber, hnone] at hentry
  cases hentry

end AgentBack.Mail
