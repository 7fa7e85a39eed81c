import SwiftChat.Base.Faults
import SwiftChat.File.Contents

/-! Appending a chunk and completing an upload when their steps on the disk and the database may
fail. -/
namespace SwiftChat.File
open Base

/-- A step that may fail. -/
inductive IoAct where
  | getSession (uploadId : Bytes)
  | createDirectories
  | openFile (path : Bytes)
  | write (path chunk : Bytes)
  | flush (path chunk : Bytes)
  | putSession (s : UploadSessionData)
  | rename (path newPath : Bytes)
  | saveMeta (data : FileMetaData)
  | deleteSession (uploadId : Bytes)
  | removeFile (path : Bytes)

abbrev IoReply : IoAct → Type
  | .getSession _ => Option UploadSessionData
  | _ => Bool

/-- A file opened for appending is there afterwards; what is written to it waits for the flush. -/
def ioExec : (o : IoAct) → FileState → FileState × IoReply o
  | .getSession uploadId, st => (st, FileStore.getUploadSession st.db uploadId)
  | .createDirectories, st => (st, true)
  | .openFile path, st => ({ st with disk := appendFile st.disk path [] }, true)
  | .write _ _, st => (st, true)
  | .flush path chunk, st => ({ st with disk := appendFile st.disk path chunk }, true)
  | .putSession s, st =>
    ({ st with db := (FileStore.saveUploadSession st.db s).1 },
      (FileStore.saveUploadSession st.db s).2)
  | .rename path newPath, st =>
    match st.disk.get path with
    | none => (st, false)
    | some content => ({ st with disk := (st.disk.delete path).put newPath content }, true)
  | .saveMeta data, st =>
    ({ st with db := (FileStore.save st.db data).1 }, (FileStore.save st.db data).2)
  | .deleteSession uploadId, st =>
    ({ st with db := (FileStore.deleteUploadSession st.db uploadId).1 },
      (FileStore.deleteUploadSession st.db uploadId).2)
  | .removeFile path, st => ({ st with disk := st.disk.delete path }, true)

/-- A failed read finds nothing; of a failed write or flush some first bytes may have landed; every
other failed step changes nothing. -/
def ioFail : (o : IoAct) → Nat → FileState → FileState × IoReply o
  | .getSession _, _, st => (st, none)
  | .write path chunk, landed, st =>
    ({ st with disk := appendFile st.disk path (chunk.take landed) }, false)
  | .flush path chunk, landed, st =>
    ({ st with disk := appendFile st.disk path (chunk.take landed) }, false)
  | .createDirectories, _, st => (st, false)
  | .openFile _, _, st => (st, false)
  | .putSession _, _, st => (st, false)
  | .rename _ _, _, st => (st, false)
  | .saveMeta _, _, st => (st, false)
  | .deleteSession _, _, st => (st, false)
  | .removeFile _, _, st => (st, false)

abbrev IoProg (α : Type) := Prog IoAct IoReply α

/-- One entry of the tape for each step, in order. -/
abbrev Tape := List (Option Nat)

def runIo {α : Type} (p : IoProg α) (tape : Tape) (st : FileState) : FileState × α :=
  p.runFaulty ioExec (fun o => some (ioFail o)) tape st

namespace IoProg

def answerChunk (newOffset : Int) (updated : Bool) : IoProg AppendChunkResult :=
  if ¬ updated then .ret (.fail .uploadFailed)
  else .ret { success := true, newOffset := newOffset }

/-- The steps of `UpdateUploadSessionBytes`, and the answer to the chunk. -/
def updateUploadSessionBytes (uploadId : Bytes) (newOffset : Int) : IoProg AppendChunkResult :=
  .act (.getSession uploadId) fun
    | none => answerChunk newOffset false
    | some s => .act (.putSession { s with bytesWritten := newOffset }) (answerChunk newOffset)

def writeChunk (uploadId : Bytes) (s : UploadSessionData) (chunk : Bytes) :
    IoProg AppendChunkResult :=
  .act (.openFile s.tempPath) fun opened =>
    if ¬ opened then .ret (.fail .uploadFailed)
    else .act (.write s.tempPath chunk) fun written =>
      if ¬ written then .ret (.fail .uploadFailed)
      else .act (.flush s.tempPath chunk) fun flushed =>
        if ¬ flushed then .ret (.fail .uploadFailed)
        else updateUploadSessionBytes uploadId (s.bytesWritten + chunk.length)

def appendChunk (uploadId chunk : Bytes) : IoProg AppendChunkResult :=
  .act (.getSession uploadId) fun
    | none => .ret (.fail .fileExpired)
    | some s =>
      if s.bytesWritten + chunk.length > s.fileSize then .ret (.fail .invalidParam)
      -- whether the directory could be created is not looked at
      else .act .createDirectories fun _ => writeChunk uploadId s chunk

def saveFile (config : FileConfig) (uploadId fileId finalPath : Bytes) (data : FileMetaData) :
    IoProg UploadResult :=
  .act (.saveMeta data) fun saved =>
    if ¬ saved then .act (.removeFile finalPath) fun _ => .ret (.fail .uploadFailed)
    -- whether the session could be deleted is not looked at
    else .act (.deleteSession uploadId) fun _ =>
      .ret { success := true, fileId := fileId, fileUrl := buildFileUrl config fileId }

def moveFile (config : FileConfig) (uploadId : Bytes) (s : UploadSessionData) (fileId : Bytes)
    (now : Int) : IoProg UploadResult :=
  let finalPath := buildStoragePath config fileId
  .act .createDirectories fun created =>
    if ¬ created then .ret (.fail .internalError)
    else .act (.rename s.tempPath finalPath) fun renamed =>
      if ¬ renamed then .ret (.fail .uploadFailed)
      else saveFile config uploadId fileId finalPath (s.toMeta fileId finalPath now)

def completeUpload (config : FileConfig) (uploadId : Bytes) (seed : FileIdSeed) (now : Int) :
    IoProg UploadResult :=
  .act (.getSession uploadId) fun
    | none => .ret (.fail .fileExpired)
    | some s =>
      if s.bytesWritten ≠ s.fileSize then .ret (.fail .uploadIncomplete)
      else moveFile config uploadId s (generateFileId seed) now

end IoProg

variable {config : FileConfig} {st st' : FileState} {u chunk : Bytes} {seed : FileIdSeed} {now : Int}
  {s : UploadSessionData} {tape : Tape} {disk : Disk} {path : Bytes}

theorem appendFile_nil_appendFile :
    appendFile (appendFile disk path []) path chunk = appendFile disk path chunk := by
  simp [appendFile, OrderedMap.put_put]

theorem runIo_none {α : Type} {p : IoProg α} (h : ∀ x ∈ tape, x = none) :
    runIo p tape st = runIo p [] st :=
  (Prog.runFaulty_none p h).trans (Prog.runFaulty_nil p st).symm

/-- Without faults the chunk is appended as by the service. -/
theorem runIo_appendChunk :
    runIo (IoProg.appendChunk u chunk) [] st = FileService.appendChunk st u chunk := by
  simp only [runIo, IoProg.appendChunk, FileService.appendChunk, Prog.runFaulty_end, ioExec]
  cases hs : FileStore.getUploadSession st.db u with
  | none => rfl
  | some s =>
    by_cases hfit : s.bytesWritten + chunk.length > s.fileSize
    · simp [hfit]
    · by_cases hid : s.uploadId = []
      · simp [hfit, IoProg.writeChunk, IoProg.updateUploadSessionBytes, IoProg.answerChunk, ioExec, hs,
          appendFile_nil_appendFile, FileStore.updateUploadSessionBytes, FileStore.saveUploadSession,
          hid]
      · simp [hfit, IoProg.writeChunk, IoProg.updateUploadSessionBytes, IoProg.answerChunk, ioExec, hs,
          appendFile_nil_appendFile, FileStore.updateUploadSessionBytes, FileStore.saveUploadSession,
          hid]

/-- Without faults the upload is completed as by the service. -/
theorem runIo_completeUpload :
    runIo (IoProg.completeUpload config u seed now) [] st =
      FileService.completeUpload config st u seed now := by
  simp only [runIo, IoProg.completeUpload, FileService.completeUpload, Prog.runFaulty_end, ioExec]
  cases hs : FileStore.getUploadSession st.db u with
  | none => rfl
  | some s =>
    by_cases hfull : s.bytesWritten = s.fileSize
    · cases hfile : st.disk.get s.tempPath with
      | none => simp [hfull, IoProg.moveFile, ioExec, hfile]
      | some content =>
        simp [hfull, IoProg.moveFile, ioExec, hfile, IoProg.saveFile, FileStore.save,
          UploadSessionData.toMeta, FileService.generateFileId_ne_nil]
        rfl
    · simp [hfull]

/-- What a failed update of the count leaves of the chunk in the temporary file. -/
def failedUpdate (chunk : Bytes) : Tape → Option Bytes
  | some _ :: _ => some chunk
  | none :: some _ :: _ => some chunk
  | _ => none

/-- What a failed write, or what comes after it, leaves of the chunk. -/
def failedWrite (chunk : Bytes) : Tape → Option Bytes
  | some _ :: _ => some []
  | none :: some landed :: _ => some (chunk.take landed)
  | none :: none :: some landed :: _ => some (chunk.take landed)
  | none :: none :: none :: tape => failedUpdate chunk tape
  | _ => none

/-- The bytes a failed `AppendChunk` leaves in the temporary file, for a session the chunk fits;
nothing when the chunk is acknowledged. -/
def failedAppend (chunk : Bytes) : Tape → Option Bytes
  | some _ :: _ => some []
  | none :: _ :: tape => failedWrite chunk tape
  | _ => none

/-- The bytes of a file; one that is not there counts as empty. -/
def bytesAt (disk : Disk) (path : Bytes) : Bytes := (disk.get path).getD []

@[simp] theorem bytesAt_appendFile {path' : Bytes} :
    bytesAt (appendFile disk path chunk) path' =
      if path' = path then bytesAt disk path' ++ chunk else bytesAt disk path' := by
  unfold bytesAt appendFile
  rw [OrderedMap.get_put]
  split
  · rename_i he
    rw [he]
    rfl
  · rfl

/-- A chunk that does not fit, or is for no session, is refused whatever else may fail. -/
theorem runIo_appendChunk_refused (h : ∀ s, FileStore.getUploadSession st.db u = some s →
    s.fileSize < s.bytesWritten + chunk.length) (tape : Tape) :
    (runIo (IoProg.appendChunk u chunk) tape st).1 = st ∧
      (runIo (IoProg.appendChunk u chunk) tape st).2.success = false := by
  cases hs : FileStore.getUploadSession st.db u with
  | none =>
    rcases tape with _ | ⟨_ | f, tape⟩ <;>
      simp [runIo, IoProg.appendChunk, Prog.runFaulty, ioExec, ioFail, hs, AppendChunkResult.fail]
  | some s =>
    have hfit := h s hs
    rcases tape with _ | ⟨_ | f, tape⟩ <;>
      simp [runIo, IoProg.appendChunk, Prog.runFaulty, ioExec, ioFail, hs, AppendChunkResult.fail,
        hfit]

/-- The files are as before, but for some more bytes in one of them. -/
structure Landed (st : FileState) (path extra : Bytes) (st' : FileState) : Prop where
  db : st'.db = st.db
  bytes : ∀ p, bytesAt st'.disk p = if p = path then bytesAt st.disk p ++ extra else bytesAt st.disk p

theorem runIo_answerChunk (newOffset : Int) (updated : Bool) (tape : Tape) :
    runIo (IoProg.answerChunk newOffset updated) tape st =
      runIo (IoProg.answerChunk newOffset updated) [] st := by
  cases updated <;> rfl

theorem runIo_update (newOffset : Int) (hs : FileStore.getUploadSession st.db u = some s) :
    ∀ tape, match failedUpdate chunk tape with
      | some extra => extra = chunk ∧
          runIo (IoProg.updateUploadSessionBytes u newOffset) tape st = (st, .fail .uploadFailed)
      | none => runIo (IoProg.updateUploadSessionBytes u newOffset) tape st =
          runIo (IoProg.updateUploadSessionBytes u newOffset) [] st
  | [] => rfl
  | [none] => rfl
  | some _ :: _ => ⟨rfl, rfl⟩
  | none :: some _ :: _ => by
    refine ⟨rfl, ?_⟩
    simp only [runIo, IoProg.updateUploadSessionBytes, Prog.runFaulty, ioExec, ioFail, hs]
    rfl
  | none :: none :: tape => by
    simp only [failedUpdate, runIo, IoProg.updateUploadSessionBytes, Prog.runFaulty, ioExec, hs]
    exact runIo_answerChunk _ _ tape

/-- The tape may end before any of the steps. -/
theorem runIo_writeChunk (hs : FileStore.getUploadSession st.db u = some s) :
    ∀ tape, match failedWrite chunk tape with
      | some extra => Landed st s.tempPath extra (runIo (IoProg.writeChunk u s chunk) tape st).1 ∧
          (runIo (IoProg.writeChunk u s chunk) tape st).2.success = false
      | none => runIo (IoProg.writeChunk u s chunk) tape st =
          runIo (IoProg.writeChunk u s chunk) [] st
  | [] => rfl
  | [none] => rfl
  | [none, none] => rfl
  | some _ :: _ => ⟨⟨rfl, by simp [runIo, IoProg.writeChunk, Prog.runFaulty, ioFail]⟩, rfl⟩
  | none :: some landed :: _ => by
    refine ⟨⟨rfl, ?_⟩, rfl⟩
    simp [runIo, IoProg.writeChunk, Prog.runFaulty, ioExec, ioFail, appendFile_nil_appendFile]
  | none :: none :: some landed :: _ => by
    refine ⟨⟨rfl, ?_⟩, rfl⟩
    simp [runIo, IoProg.writeChunk, Prog.runFaulty, ioExec, ioFail, appendFile_nil_appendFile]
  | none :: none :: none :: tape => by
    -- opened, written and flushed
    have hrun : ∀ tape, runIo (IoProg.writeChunk u s chunk) (none :: none :: none :: tape) st =
        runIo (IoProg.updateUploadSessionBytes u (s.bytesWritten + chunk.length)) tape
          { st with disk := appendFile st.disk s.tempPath chunk } := by
      intro tape
      simp [runIo, IoProg.writeChunk, Prog.runFaulty, ioExec, appendFile_nil_appendFile]
    have hupdate := @runIo_update { st with disk := appendFile st.disk s.tempPath chunk } u chunk s
      (s.bytesWritten + chunk.length) hs tape
    simp only [failedWrite]
    cases hfail : failedUpdate chunk tape with
    | none =>
      rw [hfail] at hupdate
      exact (hrun tape).trans (hupdate.trans (hrun []).symm)
    | some extra =>
      rw [hfail] at hupdate
      obtain ⟨rfl, hupdate⟩ := hupdate
      rw [hrun, hupdate]
      refine ⟨⟨rfl, ?_⟩, rfl⟩
      simp

/-- A chunk that fits its session is acknowledged, or fails and leaves some of its bytes. -/
theorem runIo_appendChunk_fits (hs : FileStore.getUploadSession st.db u = some s)
    (hfit : s.bytesWritten + chunk.length ≤ s.fileSize) :
    ∀ tape, match failedAppend chunk tape with
      | some extra => Landed st s.tempPath extra (runIo (IoProg.appendChunk u chunk) tape st).1 ∧
          (runIo (IoProg.appendChunk u chunk) tape st).2.success = false
      | none => runIo (IoProg.appendChunk u chunk) tape st = FileService.appendChunk st u chunk
  | [] => runIo_appendChunk
  | [none] => runIo_appendChunk
  | some _ :: _ => ⟨⟨rfl, by simp [runIo, IoProg.appendChunk, Prog.runFaulty, ioFail]⟩, rfl⟩
  | none :: dirs :: tape => by
    have hfit' : ¬ s.bytesWritten + chunk.length > s.fileSize := by omega
    have hrun : ∀ dirs tape, runIo (IoProg.appendChunk u chunk) (none :: dirs :: tape) st =
        runIo (IoProg.writeChunk u s chunk) tape st := by
      intro dirs tape
      cases dirs <;>
        simp only [runIo, IoProg.appendChunk, Prog.runFaulty, ioExec, ioFail, hs, hfit', if_false]
    have hwrite := @runIo_writeChunk st u chunk s hs tape
    simp only [failedAppend]
    cases hfail : failedWrite chunk tape with
    | none =>
      rw [hfail] at hwrite
      calc runIo (IoProg.appendChunk u chunk) (none :: dirs :: tape) st
          = runIo (IoProg.writeChunk u s chunk) [] st := (hrun dirs tape).trans hwrite
        _ = runIo (IoProg.appendChunk u chunk) [none, none] st := (hrun none []).symm
        _ = runIo (IoProg.appendChunk u chunk) [] st := runIo_none (by simp)
        _ = FileService.appendChunk st u chunk := runIo_appendChunk
    | some extra =>
      rw [hfail] at hwrite
      simp only [hrun]
      exact hwrite

/-- The record cannot be saved after the file was moved. -/
def LosesFile : Tape → Prop
  | none :: none :: none :: some _ :: _ => True
  | _ => False

/-- The session cannot be deleted after the record was saved. -/
def LeavesSession : Tape → Prop
  | none :: none :: none :: none :: some _ :: _ => True
  | _ => False

theorem runIo_completeUpload_refused (config : FileConfig) (seed : FileIdSeed) (now : Int)
    (h : ∀ s, FileStore.getUploadSession st.db u = some s →
      s.bytesWritten ≠ s.fileSize) (tape : Tape) :
    (runIo (IoProg.completeUpload config u seed now) tape st).1 = st ∧
      (runIo (IoProg.completeUpload config u seed now) tape st).2.success = false := by
  cases hs : FileStore.getUploadSession st.db u with
  | none =>
    rcases tape with _ | ⟨_ | f, tape⟩ <;>
      simp [runIo, IoProg.completeUpload, Prog.runFaulty, ioExec, ioFail, hs, UploadResult.fail]
  | some s =>
    have hfull := h s hs
    rcases tape with _ | ⟨_ | f, tape⟩ <;>
      simp [runIo, IoProg.completeUpload, Prog.runFaulty, ioExec, ioFail, hs, UploadResult.fail, hfull]

theorem runIo_completeUpload_full {content : Bytes} (now : Int)
    (hs : FileStore.getUploadSession st.db u = some s) (hfull : s.bytesWritten = s.fileSize)
    (hfile : st.disk.get s.tempPath = some content)
    (hpath : s.tempPath ≠ buildStoragePath config (generateFileId seed)) :
    ∀ tape, let r := runIo (IoProg.completeUpload config u seed now) tape st
      (¬ LosesFile tape ∧ ¬ LeavesSession tape ∧ (r = FileService.completeUpload config st u seed now ∨
        (r.1 = st ∧ r.2.success = false))) ∨
      (LosesFile tape ∧ ¬ LeavesSession tape ∧ r.1.db = st.db ∧ bytesAt r.1.disk s.tempPath = [] ∧
        r.2.success = false) ∨
      (¬ LosesFile tape ∧ LeavesSession tape ∧ r.2.success = true)
  | [] => Or.inl ⟨id, id, Or.inl runIo_completeUpload⟩
  | [none] => Or.inl ⟨id, id, Or.inl runIo_completeUpload⟩
  | [none, none] => Or.inl ⟨id, id, Or.inl ((runIo_none (by simp)).trans runIo_completeUpload)⟩
  | [none, none, none] =>
    Or.inl ⟨id, id, Or.inl ((runIo_none (by simp)).trans runIo_completeUpload)⟩
  | [none, none, none, none] =>
    Or.inl ⟨id, id, Or.inl ((runIo_none (by simp)).trans runIo_completeUpload)⟩
  | some _ :: _ => Or.inl ⟨id, id, Or.inr ⟨rfl, rfl⟩⟩
  | none :: some _ :: _ => by
    refine Or.inl ⟨id, id, Or.inr ?_⟩
    simp [runIo, IoProg.completeUpload, IoProg.moveFile, Prog.runFaulty, ioExec, ioFail, hs, hfull,
      UploadResult.fail]
  | none :: none :: some _ :: _ => by
    refine Or.inl ⟨id, id, Or.inr ?_⟩
    simp [runIo, IoProg.completeUpload, IoProg.moveFile, Prog.runFaulty, ioExec, ioFail, hs, hfull,
      UploadResult.fail]
  | none :: none :: none :: some _ :: tape => by
    refine Or.inr (Or.inl ⟨trivial, id, ?_⟩)
    rcases tape with _ | ⟨_ | f, tape⟩ <;>
      simp [runIo, IoProg.completeUpload, IoProg.moveFile, IoProg.saveFile, Prog.runFaulty, ioExec,
        ioFail, hs, hfull, hfile, UploadResult.fail, bytesAt, OrderedMap.get_put_ne hpath,
        OrderedMap.get_delete_ne hpath]
  | none :: none :: none :: none :: some _ :: tape => by
    refine Or.inr (Or.inr ⟨id, trivial, ?_⟩)
    simp [runIo, IoProg.completeUpload, IoProg.moveFile, IoProg.saveFile, Prog.runFaulty, ioExec,
      ioFail, hs, hfull, hfile, FileStore.save, UploadSessionData.toMeta,
      FileService.generateFileId_ne_nil]
  | none :: none :: none :: none :: none :: tape => by
    refine Or.inl ⟨id, id, Or.inl ?_⟩
    rw [← runIo_completeUpload]
    simp [runIo, IoProg.completeUpload, IoProg.moveFile, IoProg.saveFile, Prog.runFaulty, ioExec,
      hs, hfull, hfile, FileStore.save, UploadSessionData.toMeta, FileService.generateFileId_ne_nil]

end SwiftChat.File
