import SwiftChat.Common
import SwiftChat.File.FileStore

/-! Upload sessions and files, as far as single calls reach them. -/
namespace SwiftChat.File
open Base

structure FileConfig where
  host : Bytes := str "0.0.0.0"
  httpPort : Int := 8080
  storagePath : Bytes := str "/data/files"
  maxFileSize : Int := 1024 * 1024 * 1024
  uploadSessionExpireSeconds : Int := 24 * 3600

/-- The database and the files on disk, by path. -/
structure FileState where
  db : FileDb := OrderedMap.empty
  disk : OrderedMap Bytes Bytes := OrderedMap.empty

/-- The sixteen bytes a file id is made of: the clock and a random number. -/
structure FileIdSeed where
  bytes : Bytes
  length_eq : bytes.length = 16

def hexDigit (n : UInt8) : UInt8 := if n < 10 then 48 + n else 87 + n

def hexEncode (bytes : Bytes) : Bytes :=
  bytes.flatMap fun (b : UInt8) => [hexDigit (b >>> 4 &&& 15), hexDigit (b &&& 15)]

def generateFileId (seed : FileIdSeed) : Bytes := hexEncode seed.bytes

def buildStoragePath (config : FileConfig) (fileId : Bytes) : Bytes :=
  if fileId.length < 2 then config.storagePath ++ str "/" ++ fileId
  else config.storagePath ++ str "/" ++ fileId.take 2 ++ str "/" ++ fileId

def buildFileUrl (config : FileConfig) (fileId : Bytes) : Bytes :=
  let host := if config.host = str "0.0.0.0" then str "127.0.0.1" else config.host
  str "http://" ++ host ++ str ":" ++ str (toString config.httpPort) ++ str "/files/" ++ fileId

def getTempPath (config : FileConfig) (uploadId : Bytes) : Bytes :=
  config.storagePath ++ str "/.tmp/" ++ uploadId

structure InitUploadResult where
  success : Bool := false
  errorCode : Int := 0
  error : Bytes := []
  uploadId : Bytes := []
  expireAt : Int := 0
  existingFileId : Bytes := []

structure UploadTokenResult where
  success : Bool := false
  errorCode : Int := 0
  error : Bytes := []
  uploadToken : Bytes := []
  uploadUrl : Bytes := []
  expireAt : Int := 0
deriving Inhabited

structure FileUrlResult where
  success : Bool := false
  errorCode : Int := 0
  error : Bytes := []
  fileUrl : Bytes := []
  fileName : Bytes := []
  fileSize : Int := 0
  contentType : Bytes := []
  expireAt : Int := 0
deriving Inhabited

/-- What a request to upload a file says about it. -/
structure UploadRequest where
  userId : Bytes := []
  fileName : Bytes := []
  contentType : Bytes := []
  fileSize : Int := 0
  md5 : Bytes := []
  msgId : Bytes := []

/-- The session a new upload starts with. -/
def newUploadSession (config : FileConfig) (req : UploadRequest) (uploadId : Bytes) (now : Int) :
    UploadSessionData where
  uploadId := uploadId
  userId := req.userId
  fileName := req.fileName
  contentType := req.contentType
  fileSize := req.fileSize
  md5 := req.md5
  msgId := req.msgId
  tempPath := getTempPath config uploadId
  bytesWritten := 0
  expireAt := now + config.uploadSessionExpireSeconds

/-- `fileSize` within the limits of the configuration. -/
def SizeAllowed (config : FileConfig) (fileSize : Int) : Prop :=
  0 < fileSize ∧ fileSize ≤ config.maxFileSize

instance (config : FileConfig) (fileSize : Int) : Decidable (SizeAllowed config fileSize) :=
  inferInstanceAs (Decidable (_ ∧ _))

namespace FileService

/-- `now` is in seconds. -/
def initUpload (config : FileConfig) (st : FileState) (req : UploadRequest) (seed : FileIdSeed)
    (now : Int) : FileState × InitUploadResult :=
  if ¬ SizeAllowed config req.fileSize then
    (st, { errorCode := errorCodeToInt .fileTooLarge, error := errorCodeToString .fileTooLarge })
  else
    match FileStore.getByMd5 st.db req.md5 with
    | some existing =>
      (st, { success := true
             uploadId := existing.fileId
             existingFileId := existing.fileId
             expireAt := now + config.uploadSessionExpireSeconds })
    | none =>
      let uploadId := generateFileId seed
      let session := newUploadSession config req uploadId now
      let (db, saved) := FileStore.saveUploadSession st.db session
      if ¬ saved then
        (st, { errorCode := errorCodeToInt .uploadFailed, error := errorCodeToString .uploadFailed })
      else
        ({ st with db := db },
          { success := true, uploadId := uploadId, expireAt := session.expireAt })

def getUploadToken (config : FileConfig) (st : FileState) (userId fileName : Bytes)
    (fileSize : Int) (seed : FileIdSeed) (now : Int) : FileState × UploadTokenResult :=
  if ¬ SizeAllowed config fileSize then
    (st, { errorCode := errorCodeToInt .fileTooLarge, error := errorCodeToString .fileTooLarge })
  else
    let (st, init) := initUpload config st
      { userId := userId, fileName := fileName, fileSize := fileSize } seed now
    if ¬ init.success then (st, { errorCode := init.errorCode, error := init.error })
    else
      let url := buildFileUrl config []
      let url := if url.getLast? = some 47 then url else url ++ str "/"
      (st, { success := true
             uploadToken := init.uploadId
             uploadUrl := url ++ str "upload"
             expireAt := init.expireAt })

/-- The user is not looked at. -/
def getFileUrl (config : FileConfig) (st : FileState) (fileId _userId : Bytes) : FileUrlResult :=
  match FileStore.getById st.db fileId with
  | none => { errorCode := errorCodeToInt .fileNotFound, error := errorCodeToString .fileNotFound }
  | some data =>
    { success := true
      fileUrl := buildFileUrl config fileId
      fileName := data.fileName
      fileSize := data.fileSize
      contentType := data.contentType }

def getFileInfo (st : FileState) (fileId : Bytes) : Option FileMetaData :=
  FileStore.getById st.db fileId

def deleteFile (st : FileState) (fileId userId : Bytes) : FileState × Bool :=
  match FileStore.getById st.db fileId with
  | none => (st, false)
  | some data =>
    if data.uploaderId ≠ userId then (st, false)
    else
      let (db, deleted) := FileStore.delete st.db fileId
      if ¬ deleted then (st, false)
      else ({ db := db, disk := st.disk.delete data.storagePath }, true)

variable {config : FileConfig} {st : FileState} {req : UploadRequest} {seed : FileIdSeed} {now : Int}
  {fileId userId : Bytes} {data : FileMetaData}

theorem generateFileId_ne_nil : generateFileId seed ≠ [] := by
  obtain ⟨bytes, hlen⟩ := seed
  cases bytes with
  | nil => cases hlen
  | cons b bytes => simp [generateFileId, hexEncode]

/-- A new session is stored exactly when the size is allowed and no file has the checksum. -/
theorem initUpload_state :
    (initUpload config st req seed now).1 =
      if SizeAllowed config req.fileSize ∧ FileStore.getByMd5 st.db req.md5 = none then
        { st with db := (FileStore.saveUploadSession st.db
            (newUploadSession config req (generateFileId seed) now)).1 }
      else st := by
  unfold initUpload
  by_cases hsize : SizeAllowed config req.fileSize
  · cases hmd5 : FileStore.getByMd5 st.db req.md5 with
    | none => simp [hsize, FileStore.saveUploadSession, newUploadSession, generateFileId_ne_nil]
    | some existing => simp [hsize]
  · simp [hsize]

/-- Asking for an upload token starts an upload without a checksum. -/
theorem getUploadToken_state {fileName : Bytes} {fileSize : Int} :
    (getUploadToken config st userId fileName fileSize seed now).1 =
      (initUpload config st { userId := userId, fileName := fileName, fileSize := fileSize } seed
        now).1 := by
  by_cases hsize : SizeAllowed config fileSize
  · simp only [getUploadToken, hsize, not_true_eq_false, if_false]
    split <;> rfl
  · simp [getUploadToken, initUpload_state, hsize]

/-- A file is deleted exactly for its uploader. -/
theorem deleteFile_owner (h : FileStore.getById st.db fileId = some data)
    (hown : data.uploaderId = userId) :
    (deleteFile st fileId userId).1 =
      { db := (FileStore.delete st.db fileId).1, disk := st.disk.delete data.storagePath } := by
  simp [deleteFile, h, hown, FileStore.delete]

theorem deleteFile_refused (h : ∀ data, FileStore.getById st.db fileId = some data →
    data.uploaderId ≠ userId) : (deleteFile st fileId userId).1 = st := by
  unfold deleteFile
  cases hget : FileStore.getById st.db fileId with
  | none => rfl
  | some data => simp [h data hget]

end FileService
end SwiftChat.File
