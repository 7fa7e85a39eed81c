import SwiftChat.Base.Interleave
import SwiftChat.File.Upload

/-! The calls on an upload as programs of single actions on the database and the disk. -/
namespace SwiftChat.File
open Base

/-- An atomic action of the file service. -/
inductive FileAct where
  | getSession (uploadId : Bytes)
  | listSessions
  | fileExists (path : Bytes)
  | append (path chunk : Bytes)
  | putSession (s : UploadSessionData)
  | rename (path newPath : Bytes)
  | saveMeta (data : FileMetaData)
  | deleteSession (uploadId : Bytes)
  | removeFile (path : Bytes)

abbrev FileReply : FileAct → Type
  | .getSession _ => Option UploadSessionData
  | .listSessions => List UploadSessionData
  | .fileExists _ => Bool
  | .append _ _ => Unit
  | .putSession _ => Bool
  | .rename _ _ => Bool
  | .saveMeta _ => Bool
  | .deleteSession _ => Bool
  | .removeFile _ => Unit

/-- A file that is not there cannot be renamed. -/
def renameFile (disk : Disk) (path newPath : Bytes) : Disk × Bool :=
  match disk.get path with
  | none => (disk, false)
  | some content => ((disk.delete path).put newPath content, true)

def fileExec : (o : FileAct) → FileState → FileState × FileReply o
  | .getSession uploadId, st => (st, FileStore.getUploadSession st.db uploadId)
  | .listSessions, st => (st, FileStore.listAllUploadSessions st.db)
  | .fileExists path, st => (st, (st.disk.get path).isSome)
  | .append path chunk, st => ({ st with disk := appendFile st.disk path chunk }, ())
  | .putSession s, st =>
    ({ st with db := (FileStore.saveUploadSession st.db s).1 },
      (FileStore.saveUploadSession st.db s).2)
  | .rename path newPath, st =>
    ({ st with disk := (renameFile st.disk path newPath).1 }, (renameFile st.disk path newPath).2)
  | .saveMeta data, st =>
    ({ st with db := (FileStore.save st.db data).1 }, (FileStore.save st.db data).2)
  | .deleteSession uploadId, st =>
    ({ st with db := (FileStore.deleteUploadSession st.db uploadId).1 },
      (FileStore.deleteUploadSession st.db uploadId).2)
  | .removeFile path, st => ({ st with disk := st.disk.delete path }, ())

inductive UploadAnswer where
  | appended (r : AppendChunkResult)
  | completed (r : UploadResult)
  | cleaned
deriving DecidableEq

abbrev FileProg := Prog FileAct FileReply UploadAnswer

namespace FileProg

def appendFailed (e : ErrorCode) : FileProg := .ret (.appended (.fail e))

def completeFailed (e : ErrorCode) : FileProg := .ret (.completed (.fail e))

/-- `UpdateUploadSessionBytes` reads the session again. -/
def updateUploadSessionBytes (uploadId : Bytes) (bytesWritten : Int) (next : Bool → FileProg) :
    FileProg :=
  .act (.getSession uploadId) fun
    | none => next false
    | some s => .act (.putSession { s with bytesWritten := bytesWritten }) next

def afterAppend (newOffset : Int) (updated : Bool) : FileProg :=
  if ¬ updated then appendFailed .uploadFailed
  else .ret (.appended { success := true, newOffset := newOffset })

def appendChunk (uploadId chunk : Bytes) : FileProg :=
  .act (.getSession uploadId) fun
    | none => appendFailed .fileExpired
    | some s =>
      if s.bytesWritten + chunk.length > s.fileSize then appendFailed .invalidParam
      else .act (.append s.tempPath chunk) fun _ =>
        updateUploadSessionBytes uploadId (s.bytesWritten + chunk.length)
          (afterAppend (s.bytesWritten + chunk.length))

def afterSave (config : FileConfig) (uploadId fileId finalPath : Bytes) (saved : Bool) : FileProg :=
  if ¬ saved then .act (.removeFile finalPath) fun _ => completeFailed .uploadFailed
  else .act (.deleteSession uploadId) fun _ =>
    .ret (.completed { success := true, fileId := fileId, fileUrl := buildFileUrl config fileId })

def afterRename (config : FileConfig) (uploadId fileId finalPath : Bytes) (data : FileMetaData)
    (renamed : Bool) : FileProg :=
  if ¬ renamed then completeFailed .uploadFailed
  else .act (.saveMeta data) (afterSave config uploadId fileId finalPath)

def completeUpload (config : FileConfig) (uploadId : Bytes) (seed : FileIdSeed) (now : Int) :
    FileProg :=
  .act (.getSession uploadId) fun
    | none => completeFailed .fileExpired
    | some s =>
      if s.bytesWritten ≠ s.fileSize then completeFailed .uploadIncomplete
      else
        let fileId := generateFileId seed
        let finalPath := buildStoragePath config fileId
        .act (.rename s.tempPath finalPath)
          (afterRename config uploadId fileId finalPath (s.toMeta fileId finalPath now))

def removeIfExists (path : Bytes) (next : FileProg) (found : Bool) : FileProg :=
  if found then .act (.removeFile path) fun _ => next else next

/-- The loop over the sessions. -/
def cleanupLoop (now : Int) : List UploadSessionData → FileProg
  | [] => .ret .cleaned
  | s :: sessions =>
    if s.expireAt > now then cleanupLoop now sessions
    else .act (.fileExists s.tempPath) (removeIfExists s.tempPath
      (.act (.deleteSession s.uploadId) fun _ => cleanupLoop now sessions))

def cleanupExpiredSessions (now : Int) : FileProg := .act .listSessions (cleanupLoop now)

end FileProg

/-- A call that runs beside others on one upload. -/
inductive UploadTask where
  | appendChunk (chunk : Bytes)
  | completeUpload (seed : FileIdSeed) (now : Int)
  | cleanupExpiredSessions (now : Int)

namespace UploadTask

def prog (config : FileConfig) (uploadId : Bytes) : UploadTask → FileProg
  | .appendChunk chunk => FileProg.appendChunk uploadId chunk
  | .completeUpload seed now => FileProg.completeUpload config uploadId seed now
  | .cleanupExpiredSessions now => FileProg.cleanupExpiredSessions now

/-- The call on its own. -/
def call (config : FileConfig) (uploadId : Bytes) (st : FileState) :
    UploadTask → FileState × UploadAnswer
  | .appendChunk chunk =>
    let (st, r) := FileService.appendChunk st uploadId chunk
    (st, .appended r)
  | .completeUpload seed now =>
    let (st, r) := FileService.completeUpload config st uploadId seed now
    (st, .completed r)
  | .cleanupExpiredSessions now => (FileService.cleanupExpiredSessions st now, .cleaned)

end UploadTask

/-! Without interruption, the programs are the calls. -/

section
variable {st : FileState} {config : FileConfig} {uploadId : Bytes}

theorem run_cleanupLoop (now : Int) (sessions : List UploadSessionData) :
    (FileProg.cleanupLoop now sessions).run fileExec st =
      (sessions.foldl (FileService.cleanupSession now) st, .cleaned) := by
  induction sessions generalizing st with
  | nil => rfl
  | cons s sessions ih =>
    rw [FileProg.cleanupLoop, List.foldl_cons, FileService.cleanupSession]
    by_cases hkeep : s.expireAt > now
    · rw [if_pos hkeep, if_pos hkeep, ih]
    · rw [if_neg hkeep, if_neg hkeep, Prog.run_act, ← ih]
      cases hfile : st.disk.get s.tempPath with
      | none =>
        simp [fileExec, hfile, FileProg.removeIfExists, OrderedMap.delete_absent hfile]
      | some content => simp [fileExec, hfile, FileProg.removeIfExists]

/-- Run on its own, the program of a call does what the call does. -/
theorem UploadTask.run_prog (t : UploadTask) :
    (t.prog config uploadId).run fileExec st = t.call config uploadId st := by
  cases t with
  | appendChunk chunk =>
    simp only [prog, call, FileProg.appendChunk, FileService.appendChunk, Prog.run_act, fileExec]
    cases hs : FileStore.getUploadSession st.db uploadId with
    | none => rfl
    | some s =>
      simp only
      by_cases hfit : s.bytesWritten + chunk.length > s.fileSize
      · rw [if_pos hfit, if_pos hfit]
        rfl
      · rw [if_neg hfit, if_neg hfit]
        simp only [FileProg.updateUploadSessionBytes, FileStore.updateUploadSessionBytes,
          Prog.run_act, fileExec, hs, FileProg.afterAppend, FileStore.saveUploadSession]
        by_cases hid : s.uploadId = []
        · simp [hid, FileProg.appendFailed]
        · simp [hid]
  | completeUpload seed now =>
    simp only [prog, call, FileProg.completeUpload, FileService.completeUpload, Prog.run_act,
      fileExec]
    cases hs : FileStore.getUploadSession st.db uploadId with
    | none => rfl
    | some s =>
      simp only
      by_cases hfull : s.bytesWritten = s.fileSize
      · simp only [hfull, ne_eq, not_true_eq_false, if_false, Prog.run_act, fileExec]
        rcases Option.eq_none_or_eq_some (st.disk.get s.tempPath) with hfile | ⟨content, hfile⟩
        · simp [hfile, renameFile, FileProg.afterRename, FileProg.completeFailed]
        · simp only [hfile, renameFile, FileProg.afterRename, not_true_eq_false, if_false,
            Prog.run_act, fileExec, FileProg.afterSave, FileStore.save]
          by_cases hid : (s.toMeta (generateFileId seed)
              (buildStoragePath config (generateFileId seed)) now).fileId = []
          · simp [hid, FileProg.completeFailed, fileExec]
          · simp [hid, fileExec]
      · simp only [hfull, ne_eq, not_false_eq_true, if_true]
        rfl
  | cleanupExpiredSessions now =>
    simp only [prog, call, FileProg.cleanupExpiredSessions, Prog.run_act, fileExec, run_cleanupLoop]
    rfl

end
end SwiftChat.File
