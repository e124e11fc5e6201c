import AgentBack.Base.IsoFormat
import AgentBack.Base.Split
import AgentBack.Base.Text

/-!
# Files of a document (`agent_pochta/services/odata_attached_file.py`)

Files are attached to a document of the ERP by several calls, each of which can fail. The answers of
the ERP and of the file system are given with a call; what the code looks at in the answers of one
stage after the creation (lengths, keys, marks) is one verdict. `lower` is `str.lower`; `locate` is
the file that the volume keeps under a path.
-/

namespace AgentBack.Mail.Attachments

open Text (strip)

/-- The `Ref_Key` of a record: a GUID that the ERP gives. -/
abbrev RefKey := Nat

abbrev Content := List UInt8

/-! ## Names and paths -/

/-- `AttachedFileError`, and the exceptions of the calls. -/
inductive AttachedFileError where
  /-- `Имя файла не задано` -/
  | missingFilename
  /-- `Некорректное имя файла` -/
  | badFilename (filename : String)
  /-- `Не удалось определить расширение` -/
  | missingExtension (filename : String)
  /-- `Имя файла на томе не задано` -/
  | missingVolumeFilename
  /-- `Некорректное имя файла на томе` -/
  | badVolumeFilename (filename : String)
  /-- `Ссылка на документ ТД_ВходящаяКорреспонденция не заполнена` -/
  | missingDocument
  /-- `Некорректный Ref_Key документа` -/
  | badDocument (key : String)
  /-- `Документ {doc_entity} с Ref_Key={owner_key} не найден — файл не создан` -/
  | documentNotFound (key : String)
  /-- `Пустой файл: двоичные данные отсутствуют` -/
  | emptyContent
  /-- `OData создал запись {entity}, но Ref_Key отсутствует в ответе` -/
  | noRefKey
  /-- `Не удалось удалить присоединённый файл Ref_Key={key}` -/
  | notDeleted (key : RefKey)
  /-- A call raises, or a stage finds its answers wrong. -/
  | failed
  deriving DecidableEq

def splitFilename (lower : String → String) (filename : String) :
    Except AttachedFileError (String × String) :=
  let slashed := (strip filename).toList.map fun c => if c = '\\' then '/' else c
  let name := match splitLast '/' slashed with
    | some (_, back) => back
    | none => slashed
  if name = [] ∨ name = ['.'] ∨ name = ['.', '.'] then .error .missingFilename
  else
    match splitLast '.' name with
    | none => .ok (String.ofList name, "")
    | some (base, ext) =>
      let base := strip (String.ofList base)
      let ext := lower (strip (String.ofList ext))
      if base = "" then .error (.badFilename filename)
      else if ext = "" then .error (.missingExtension filename)
      else .ok (base, ext)

def buildVolumeStorageFilename (baseName extension : String) : Except AttachedFileError String :=
  let base := strip baseName
  let ext := String.ofList ((strip extension).toList.dropWhile (· = '.'))
  if base = "" then .error .missingVolumeFilename
  else if ext ≠ "" then .ok (base ++ "." ++ ext)
  else .ok base

/-- `ts.strftime("%Y%m%d")`, of the day in Moscow. -/
def dayText (day : Nat × Nat × Nat) : String :=
  toString day.1 ++ String.ofList (padded 2 day.2.1) ++ String.ofList (padded 2 day.2.2)

def formatVolumeFilePath (processedDay : Nat × Nat × Nat) (storageFilename : String) :
    Except AttachedFileError String :=
  let filename := (strip storageFilename).toList.map fun c => if c = '/' then '\\' else c
  if filename = [] ∨ '\\' ∈ filename then .error (.badVolumeFilename storageFilename)
  else .ok (dayText processedDay ++ "\\" ++ String.ofList filename)

/-- `_GUID_RE.match`. -/
def isGuid (key : String) : Bool :=
  let isHex := fun c : Char => c.isDigit || decide ('a' ≤ c ∧ c ≤ 'f') || decide ('A' ≤ c ∧ c ≤ 'F')
  let groups := key.toList.splitOn '-'
  decide (groups.map List.length = [8, 4, 4, 4, 12]) && groups.all fun group => group.all isHex

def normalizeDocumentRefKey (documentRefKey : String) : Except AttachedFileError String :=
  let value := strip documentRefKey
  if value = "" ∨ value = "00000000-0000-0000-0000-000000000000" then .error .missingDocument
  else if isGuid value then .ok value
  else .error (.badDocument value)

/-- The settings that a plan is made of: the storage mode is `volume`, `upload_binary_via_stream`,
`volume_preupload` and `odata_attach_staging_enabled`. -/
structure Defaults where
  volumeMode : Bool
  uploadBinaryViaStream : Bool
  volumePreupload : Bool
  stagingEnabled : Bool
  deriving DecidableEq

/-- `resolve_attached_file_upload_plan`. -/
structure UploadPlan where
  volume : Bool
  uploadViaStream : Bool
  volumePreupload : Bool
  deriving DecidableEq

def resolveAttachedFileUploadPlan (defaults : Defaults) : UploadPlan :=
  let preupload := defaults.volumeMode && defaults.volumePreupload
  { volume := defaults.volumeMode
    uploadViaStream := if defaults.volumeMode then !preupload else defaults.uploadBinaryViaStream
    volumePreupload := preupload }

inductive Stage where
  | volumePath
  | stream
  | releaseLock
  | verifyStorage
  | volumeFile
  | referenceFields
  | roundTrip
  deriving DecidableEq

def stages (defaults : Defaults) : List Stage :=
  let plan := resolveAttachedFileUploadPlan defaults
  (if plan.volume then [.volumePath] else []) ++
    (if plan.uploadViaStream then [.stream] else []) ++
    [.releaseLock, .verifyStorage] ++
    (if plan.volumePreupload then [.volumeFile] else []) ++
    [.referenceFields] ++
    (if defaults.stagingEnabled then [.roundTrip] else [])

/-! ## The world -/

/-- A record of an attached file: its key, the document, and the place of its file on the volume. -/
structure Record where
  refKey : RefKey
  owner : String
  place : Option String
  deriving DecidableEq

/-- The records of the ERP and the files of the volume; `moments` are the records after every call
so far. -/
structure World where
  records : List Record
  volume : String → Option Content
  moments : List (List Record)

/-- The answer of a creation: refused, made although the call raised, made without a key in the
answer, or made. -/
inductive CreateAnswer where
  | refused
  | lost
  | keyless
  | created
  deriving DecidableEq

/-- The answer of a deletion: refused, made although the call raised, or made. -/
inductive DeleteAnswer where
  | refused
  | lost
  | deleted
  deriving DecidableEq

/-- The answer of writing a file: an error before the first byte, an error that leaves other bytes,
or the file. -/
inductive WriteAnswer where
  | refused
  | broken (bytes : Content)
  | written
  deriving DecidableEq

/-- The answers of one attachment: the document (no answer, when the call raises), the staging, the
volume, the creation, the stages and the removal from the volume. -/
structure AttachAnswers where
  owner : Option Bool
  staging : Bool
  write : WriteAnswer
  create : CreateAnswer
  passes : Stage → Bool
  unlinks : Bool

namespace World

/-- A call that leaves these records. -/
def after (w : World) (records : List Record) : World :=
  { w with records := records, moments := w.moments ++ [records] }

/-- `create_entity`. -/
def create (w : World) (record : Record) : World := w.after (w.records ++ [record])

/-- `delete_entity`. -/
def delete (w : World) (key : RefKey) : DeleteAnswer → World
  | .refused => w.after w.records
  | _ => w.after (w.records.filter fun record => record.refKey ≠ key)

def write (w : World) (place : String) (bytes : Content) : World :=
  { w with volume := Function.update w.volume place (some bytes) }

def unlink (w : World) (place : String) : World :=
  { w with volume := Function.update w.volume place none }

end World

/-- `AttachedFileInput`; the day in Moscow when it is processed. -/
structure AttachedFileInput where
  filename : String
  content : Content
  processedDay : Nat × Nat × Nat
  deriving DecidableEq

section
variable (lower locate : String → String) (defaults : Defaults)

/-- The path of the file in the payload (`build_attached_file_payload`). -/
def volumePath (file : AttachedFileInput) : Except AttachedFileError (Option String) := do
  let (baseName, extension) ← splitFilename lower file.filename
  if (resolveAttachedFileUploadPlan defaults).volume then
    let storageFilename ← buildVolumeStorageFilename baseName extension
    let path ← formatVolumeFilePath file.processedDay storageFilename
    return some path
  else return none

/-- The check of the document, when it is asked for. -/
def verifyOwner (ownerKey : String) (answer : Option Bool) (verifyOwnerExists : Bool) :
    Except AttachedFileError Unit :=
  if verifyOwnerExists then
    match answer with
    | none => .error .failed
    | some false => .error (.documentNotFound ownerKey)
    | some true => .ok ()
  else .ok ()

def validateFileContent (content : Content) : Except AttachedFileError Unit :=
  if content = [] then .error .emptyContent else .ok ()

/-- `stage_attachment_bytes`, when staging is enabled. -/
def stageAttachmentBytes (staged : Bool) : Except AttachedFileError Unit :=
  if defaults.stagingEnabled && !staged then .error .failed else .ok ()

/-- The part of `attach_file_to_incoming_document` before its `try`: the key of the document and the
place of the file. -/
def prepareAttachment (documentRefKey : String) (file : AttachedFileInput)
    (answers : AttachAnswers) (verifyOwnerExists : Bool) :
    Except AttachedFileError (String × Option String) := do
  let ownerKey ← normalizeDocumentRefKey documentRefKey
  verifyOwner ownerKey answers.owner verifyOwnerExists
  validateFileContent file.content
  stageAttachmentBytes defaults answers.staging
  let path ← volumePath lower defaults file
  return (ownerKey, path.map locate)

/-- `preupload_volume_file`, when the plan has it: the file to clean up later. A file that could not
be written is not cleaned up. -/
def preuploadVolumeFile (place : Option String) (content : Content) (answer : WriteAnswer)
    (w : World) : World × Except AttachedFileError (Option String) :=
  if (resolveAttachedFileUploadPlan defaults).volumePreupload then
    match place, answer with
    | none, _ => (w, .error .failed)
    | some _, .refused => (w, .error .failed)
    | some place, .broken bytes => (w.write place bytes, .error .failed)
    | some place, .written => (w.write place content, .ok (some place))
  else (w, .ok none)

def cleanupPreuploadedVolumeFile (preuploaded : Option String) (unlinks : Bool) (w : World) :
    World :=
  match preuploaded with
  | none => w
  | some place => if unlinks then w.unlink place else w

/-- `client.create_entity` and the key of its answer. -/
def createRecord (record : Record) (answer : CreateAnswer) (w : World) :
    World × Except AttachedFileError RefKey :=
  match answer with
  | .refused => (w.after w.records, .error .failed)
  | .lost => (w.create record, .error .failed)
  | .keyless => (w.create record, .error .noRefKey)
  | .created => (w.create record, .ok record.refKey)

/-- `attach_file_to_incoming_document`; `key` is the key that the ERP gives to the record, and
`deletion` its answer when the record is deleted. -/
def attachFileToIncomingDocument (documentRefKey : String) (file : AttachedFileInput)
    (answers : AttachAnswers) (key : RefKey) (deletion : DeleteAnswer) (verifyOwnerExists : Bool)
    (w : World) : World × Except AttachedFileError RefKey :=
  match prepareAttachment lower locate defaults documentRefKey file answers verifyOwnerExists with
  | .error e => (w, .error e)
  | .ok (owner, place) =>
    match preuploadVolumeFile defaults place file.content answers.write w with
    | (w, .error e) => (w, .error e)
    | (w, .ok preuploaded) =>
      match createRecord ⟨key, owner, place⟩ answers.create w with
      | (w, .error e) => (cleanupPreuploadedVolumeFile preuploaded answers.unlinks w, .error e)
      | (w, .ok refKey) =>
        if (stages defaults).all answers.passes then (w, .ok refKey)
        else
          (cleanupPreuploadedVolumeFile preuploaded answers.unlinks (w.delete refKey deletion),
            .error .failed)

/-- `delete_attached_file_refs`: the deleted keys. -/
def deleteAttachedFileRefs (deletion : RefKey → DeleteAnswer) :
    List RefKey → World → World × Except AttachedFileError (List RefKey)
  | [], w => (w, .ok [])
  | key :: rest, w =>
    if deletion key = .deleted then
      let (w, deleted) := deleteAttachedFileRefs deletion rest (w.delete key .deleted)
      (w, deleted.map (key :: ·))
    else (w.delete key (deletion key), .error (.notDeleted key))

/-- The answers of a replacement: whether the listing succeeds, the answers for the file at each
index and the key of its record, and how a deletion ends. -/
structure Server where
  lists : Bool
  attach : Nat → AttachAnswers
  newKey : Nat → RefKey
  deletion : RefKey → DeleteAnswer

/-- How a replacement fails: before anything is attached, while the files are attached, in the
roll-back after that, or when the old records are deleted. -/
inductive ReplaceError where
  | noFiles
  | listing (e : AttachedFileError)
  | attaching (e : AttachedFileError)
  | rollback (e : AttachedFileError)
  | deletingOld (e : AttachedFileError)
  deriving DecidableEq

/-- The loop over the files: the records attached so far, and the error that ended it. -/
def attachLoop (documentRefKey : String) (server : Server) (verifyOwnerExists : Bool) :
    Nat → List AttachedFileInput → List RefKey → World →
      World × List RefKey × Option AttachedFileError
  | _, [], newRefs, w => (w, newRefs, none)
  | index, file :: rest, newRefs, w =>
    let key := server.newKey index
    match attachFileToIncomingDocument lower locate defaults documentRefKey file
        (server.attach index) key (server.deletion key) (verifyOwnerExists && index == 0) w with
    | (w, .error e) => (w, newRefs, some e)
    | (w, .ok ref) =>
      attachLoop documentRefKey server verifyOwnerExists (index + 1) rest (newRefs ++ [ref]) w

def listAttachedFilesForDocument (owner : String) (w : World) : List Record :=
  w.records.filter fun record => record.owner.toLower = owner.toLower

/-- `replace_attached_files_for_document`: the attached keys and the deleted ones. -/
def replaceAttachedFilesForDocument (documentRefKey : String) (files : List AttachedFileInput)
    (server : Server) (verifyOwnerExists : Bool) (w : World) :
    World × Except ReplaceError (List RefKey × List RefKey) :=
  if files = [] then (w, .error .noFiles)
  else
    match normalizeDocumentRefKey documentRefKey with
    | .error e => (w, .error (.listing e))
    | .ok owner =>
      if server.lists then
        let oldRefs := (listAttachedFilesForDocument owner w).map Record.refKey
        match attachLoop lower locate defaults documentRefKey server verifyOwnerExists 0 files [] w with
        | (w, newRefs, some e) =>
          match deleteAttachedFileRefs server.deletion newRefs w with
          | (w, .error e) => (w, .error (.rollback e))
          | (w, .ok _) => (w, .error (.attaching e))
        | (w, newRefs, none) =>
          let refsToDelete := oldRefs.filter fun ref => ref ∉ newRefs
          match deleteAttachedFileRefs server.deletion refsToDelete w with
          | (w, .error e) => (w, .error (.deletingOld e))
          | (w, .ok deleted) => (w, .ok (newRefs, deleted))
      else (w, .error (.listing .failed))

end

end AgentBack.Mail.Attachments
