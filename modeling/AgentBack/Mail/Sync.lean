import AgentBack.Mail.Attachments
import AgentBack.Mail.Erp

/-!
# The letter of a document (`services/erp_attachments.py`, `services/erp_sync.py`)

A run of `sync_existing_erp_document` attaches the letter to its document of 1C unless the payload
names it, and the files that it attached are persisted in the payload. With names to attach again
the payload forgets its files first, and the old files are deleted after the upload. The integration
is that of OData, or one that attaches no files.
-/

namespace AgentBack.Mail

open Attachments (AttachAnswers AttachedFileInput Content Defaults DeleteAnswer RefKey World
  attachFileToIncomingDocument deleteAttachedFileRefs listAttachedFilesForDocument
  normalizeDocumentRefKey splitFilename)
open Text (strip)

/-- The number of the document when it names the letter. -/
def givenNumber (erpDocumentNumber : Option String) : Option String :=
  let number := strip (erpDocumentNumber.getD "")
  if number ≠ "" ∧ number ∉ skipErpDocumentNumbers then some number else none

def erpFullEmailFilename (erpDocumentNumber : Option String) : String :=
  match givenNumber erpDocumentNumber with
  | some number => number ++ ".msg"
  | none => "Входящее_письмо.msg"

def erpEmailUploadMarkerNames (erpDocumentNumber : Option String) : List String :=
  ["Входящее_письмо.eml", "Входящее_письмо", "Входящее_письмо.msg"] ++
    match givenNumber erpDocumentNumber with
    | some number => [number, number ++ ".msg", number ++ ".eml"]
    | none => []

/-- `name.lower().endswith(".msg")`. -/
def endsWithMsg (lower : String → String) (name : String) : Bool :=
  ".msg".toList.isSuffixOf (lower name).toList

def erpEmailAlreadyUploaded (lower : String → String) (erpDocumentNumber : Option String)
    (skipFilenames : List String) : Bool :=
  ((skipFilenames.map strip).filter (· ≠ "")).any fun name =>
    decide (name ∈ erpEmailUploadMarkerNames erpDocumentNumber) || endsWithMsg lower name

/-! ## A run -/

structure SyncRun where
  /-- `force_reattach_filenames` holds a name. -/
  force : Bool
  /-- `update_incoming_correspondence`, when the integration has it. -/
  update : Option (Except String Bool)
  attachEnabled : Bool
  /-- `fetch_filtered` does not raise. -/
  lists : Bool
  /-- `ensure_full_email_bytes_for_erp(…)`. -/
  fullEmailBytes : Content
  /-- `eml_bytes_to_msg_bytes(…)`, when it does not raise. -/
  msgBytes : Option Content
  processedDay : Nat × Nat × Nat
  /-- `_prepare_attached_file_inputs` finds an author. -/
  prepares : Bool
  attach : AttachAnswers
  newKey : RefKey
  deletion : RefKey → DeleteAnswer
  raised : String

/-- A row with the records of 1C, and the files that its payload has ever named. -/
structure SyncState where
  row : ErpRow
  world : World
  recorded : List (RefKey × String)

def ErpRow.erpAttachments (row : ErpRow) : List ErpAttachment :=
  (row.payload.map (·.erpAttachments)).getD []

def attachedEntry (parts : String × String) : ErpAttachment where
  filename := if parts.2 ≠ "" then parts.1 ++ "." ++ parts.2 else parts.1
  extension := parts.2

section
variable (lower locate : String → String) (defaults : Defaults)

variable (run : SyncRun)

/-- `_collect_erp_upload_files`; there is no value when the conversion raises. -/
def collectErpUploadFiles (erpDocumentNumber : Option String) (skipFilenames : List String) :
    Option (List AttachedFileInput) :=
  let msgName := erpFullEmailFilename erpDocumentNumber
  if run.fullEmailBytes = [] then some []
  else if !endsWithMsg lower msgName then none
  else if erpEmailAlreadyUploaded lower erpDocumentNumber skipFilenames then some []
  else run.msgBytes.map fun content => [⟨msgName, content, run.processedDay⟩]

/-- `attach_files_to_incoming_document`, of one file. -/
def attachLetter (documentRefKey : String) (file : AttachedFileInput) (w : World) :
    World × Option (RefKey × ErpAttachment) :=
  match attachFileToIncomingDocument lower locate defaults documentRefKey file run.attach
      run.newKey (run.deletion run.newKey) true w, splitFilename lower file.filename with
  | (w, .ok refKey), .ok parts => (w, some (refKey, attachedEntry parts))
  | (w, _), _ => (w, none)

/-- `attach_missing_email_files_to_document`: the attached files, or no value when it raises. -/
def attachMissingEmailFiles (documentRefKey : String) (erpDocumentNumber : Option String)
    (skipFilenames : List String) (w : World) :
    World × Option (List (RefKey × ErpAttachment)) :=
  if !run.attachEnabled then (w, some [])
  else
    match collectErpUploadFiles lower run erpDocumentNumber skipFilenames with
    | none => (w, none)
    | some [] => (w, some [])
    | some (file :: _) =>
      if !run.prepares then (w, none)
      else
        match attachLetter lower locate defaults run documentRefKey file w with
        | (w, some attached) => (w, some [attached])
        | (w, none) => (w, none)

/-- `list_attached_file_refs_for_document`, in a run that attaches again. -/
def SyncRun.oldRefs (documentRefKey : String) (w : World) : Option (List RefKey) :=
  if run.force && run.attachEnabled then
    match normalizeDocumentRefKey documentRefKey with
    | .error _ => none
    | .ok owner =>
      if run.lists then some ((listAttachedFilesForDocument owner w).map (·.refKey)) else none
  else some []

/-- `resolve_skip_filenames_for_erp_sync`, and the payload that forgets its files. -/
def SyncRun.skip (row : ErpRow) : List String :=
  if run.force then [] else uploadedNames row.erpAttachments

def SyncRun.cleanUp (oldRefs : List RefKey) (attached : Option (List (RefKey × ErpAttachment)))
    (w : World) : World × Option String :=
  if run.force ∧ oldRefs ≠ [] ∧ attached.getD [] ≠ [] then
    match deleteAttachedFileRefs run.deletion oldRefs w with
    | (w, .ok _) => (w, none)
    | (w, .error _) => (w, some run.raised)
  else (w, none)

/-- `sync_existing_erp_document` and `_persist_erp_sync_result`. -/
def syncRun (s : SyncState) : SyncState :=
  match existingErpDocumentRefKey s.row with
  | none => s
  | some docRef =>
    match run.oldRefs docRef s.world with
    -- nothing catches this exception, and nothing is persisted
    | none => s
    | some oldRefs =>
      let (w, attached) := attachMissingEmailFiles lower locate defaults run docRef
        s.row.erpDocumentNumber (run.skip s.row) s.world
      let (w, cleanupError) := run.cleanUp oldRefs attached w
      let calls : SyncCalls :=
        { update := run.update
          oldFiles := .ok (oldRefs.map toString)
          attach := match attached with
            | some attached => .ok (attached.map Prod.snd)
            | none => .error run.raised
          cleanupError }
      match syncExisting run.force s.row calls with
      | none => { s with world := w }
      | some attempt =>
        { row := attempt.row
          world := w
          recorded := s.recorded ++
            if attempt.row.payload.isSome then
              (attached.getD []).map fun entry => (entry.1, entry.2.filename)
            else [] }

end

end AgentBack.Mail
