import SwiftChat.File.FileService

/-! Uploading in chunks and in one call, reading, and the cleanup of expired sessions. -/
namespace SwiftChat.File
open Base

abbrev Disk := OrderedMap Bytes Bytes

/-- Appending creates a file that is not there. -/
def appendFile (disk : Disk) (path chunk : Bytes) : Disk :=
  disk.put path ((disk.get path).getD [] ++ chunk)

structure AppendChunkResult where
  success : Bool := false
  errorCode : Int := 0
  error : Bytes := []
  newOffset : Int := 0
deriving DecidableEq

def AppendChunkResult.fail (e : ErrorCode) : AppendChunkResult :=
  { errorCode := errorCodeToInt e, error := errorCodeToString e }

/-- The answer to `CompleteUpload` and to `Upload`. -/
structure UploadResult where
  success : Bool := false
  errorCode : Int := 0
  error : Bytes := []
  fileId : Bytes := []
  fileUrl : Bytes := []
  thumbnailUrl : Bytes := []
deriving DecidableEq, Inhabited

def UploadResult.fail (e : ErrorCode) : UploadResult :=
  { errorCode := errorCodeToInt e, error := errorCodeToString e }

structure UploadStateResult where
  found : Bool := false
  errorCode : Int := 0
  error : Bytes := []
  offset : Int := 0
  fileSize : Int := 0
  completed : Bool := false
  fileId : Bytes := []
  expireAt : Int := 0

/-- The record of a completed session. -/
def UploadSessionData.toMeta (s : UploadSessionData) (fileId path : Bytes) (now : Int) :
    FileMetaData where
  fileId := fileId
  fileName := s.fileName
  contentType := s.contentType
  fileSize := s.fileSize
  md5 := s.md5
  uploaderId := s.userId
  storagePath := path
  uploadedAt := now

namespace FileService

def getUploadState (st : FileState) (uploadId : Bytes) : UploadStateResult :=
  match FileStore.getUploadSession st.db uploadId with
  | none => { errorCode := errorCodeToInt .fileExpired, error := errorCodeToString .fileExpired }
  | some s =>
    { found := true, offset := s.bytesWritten, fileSize := s.fileSize, expireAt := s.expireAt }

def appendChunk (st : FileState) (uploadId chunk : Bytes) : FileState × AppendChunkResult :=
  match FileStore.getUploadSession st.db uploadId with
  | none => (st, .fail .fileExpired)
  | some s =>
    if s.bytesWritten + chunk.length > s.fileSize then (st, .fail .invalidParam)
    else
      let disk := appendFile st.disk s.tempPath chunk
      let newOffset := s.bytesWritten + chunk.length
      let (db, updated) := FileStore.updateUploadSessionBytes st.db uploadId newOffset
      if ¬ updated then ({ st with disk := disk }, .fail .uploadFailed)
      else ({ db := db, disk := disk }, { success := true, newOffset := newOffset })

/-- Renaming fails when there is no temporary file. -/
def completeUpload (config : FileConfig) (st : FileState) (uploadId : Bytes) (seed : FileIdSeed)
    (now : Int) : FileState × UploadResult :=
  match FileStore.getUploadSession st.db uploadId with
  | none => (st, .fail .fileExpired)
  | some s =>
    if s.bytesWritten ≠ s.fileSize then (st, .fail .uploadIncomplete)
    else
      let fileId := generateFileId seed
      let finalPath := buildStoragePath config fileId
      match st.disk.get s.tempPath with
      | none => (st, .fail .uploadFailed)
      | some content =>
        let disk := (st.disk.delete s.tempPath).put finalPath content
        let (db, saved) := FileStore.save st.db (s.toMeta fileId finalPath now)
        if ¬ saved then ({ st with disk := disk.delete finalPath }, .fail .uploadFailed)
        else
          ({ db := (FileStore.deleteUploadSession db uploadId).1, disk := disk },
            { success := true, fileId := fileId, fileUrl := buildFileUrl config fileId })

def upload (config : FileConfig) (st : FileState) (userId fileName contentType content : Bytes)
    (seed : FileIdSeed) (now : Int) : FileState × UploadResult :=
  if (content.length : Int) > config.maxFileSize then (st, .fail .fileTooLarge)
  else
    let fileId := generateFileId seed
    let path := buildStoragePath config fileId
    let disk := st.disk.put path content
    let data : FileMetaData :=
      { fileId := fileId
        fileName := fileName
        contentType := contentType
        fileSize := content.length
        uploaderId := userId
        storagePath := path
        uploadedAt := now }
    let (db, saved) := FileStore.save st.db data
    if ¬ saved then ({ st with disk := disk.delete path }, .fail .uploadFailed)
    else
      ({ db := db, disk := disk },
        { success := true, fileId := fileId, fileUrl := buildFileUrl config fileId })

/-- The content, the content type and the name of the file. -/
def readFile (st : FileState) (fileId : Bytes) : Option (Bytes × Bytes × Bytes) :=
  match FileStore.getById st.db fileId with
  | none => none
  | some data =>
    match st.disk.get data.storagePath with
    | none => none
    | some content => some (content, data.contentType, data.fileName)

/-- One turn of the loop over the sessions. -/
def cleanupSession (now : Int) (st : FileState) (s : UploadSessionData) : FileState :=
  if s.expireAt > now then st
  else
    { db := (FileStore.deleteUploadSession st.db s.uploadId).1
      disk := st.disk.delete s.tempPath }

def cleanupExpiredSessions (st : FileState) (now : Int) : FileState :=
  (FileStore.listAllUploadSessions st.db).foldl (cleanupSession now) st

end FileService

/-- A call of the file service that may change its state. -/
inductive FileOp where
  | initUpload (req : UploadRequest) (seed : FileIdSeed) (now : Int)
  | getUploadToken (userId fileName : Bytes) (fileSize : Int) (seed : FileIdSeed) (now : Int)
  | appendChunk (uploadId chunk : Bytes)
  | completeUpload (uploadId : Bytes) (seed : FileIdSeed) (now : Int)
  | upload (userId fileName contentType content : Bytes) (seed : FileIdSeed) (now : Int)
  | cleanupExpiredSessions (now : Int)
  | deleteFile (fileId userId : Bytes)

def fileStep (config : FileConfig) (st : FileState) : FileOp → FileState
  | .initUpload req seed now => (FileService.initUpload config st req seed now).1
  | .getUploadToken userId fileName fileSize seed now =>
    (FileService.getUploadToken config st userId fileName fileSize seed now).1
  | .appendChunk uploadId chunk => (FileService.appendChunk st uploadId chunk).1
  | .completeUpload uploadId seed now => (FileService.completeUpload config st uploadId seed now).1
  | .upload userId fileName contentType content seed now =>
    (FileService.upload config st userId fileName contentType content seed now).1
  | .cleanupExpiredSessions now => FileService.cleanupExpiredSessions st now
  | .deleteFile fileId userId => (FileService.deleteFile st fileId userId).1

def FileOp.seed : FileOp → Option FileIdSeed
  | .initUpload _ seed _ => some seed
  | .getUploadToken _ _ _ seed _ => some seed
  | .completeUpload _ seed _ => some seed
  | .upload _ _ _ _ seed _ => some seed
  | _ => none

end SwiftChat.File
