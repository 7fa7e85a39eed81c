import SwiftChat.File.Upload
import SwiftChat.Grpc

/-! The remote calls of the file service, and the user each of them acts for. -/
namespace SwiftChat.File
open Base

/-- Success with the text that goes with it. -/
def responseOk {α : Type} (body : α) : RpcResponse α := .ok (errorCodeToString .ok) body

/-- A message of an upload stream. -/
inductive UploadChunk where
  | unset
  | uploadMeta (uploadId : Bytes)
  | chunk (data : Bytes)
  | resumeMeta (uploadId : Bytes) (offset : Int)

/-- The variables of the loop over an upload stream. -/
structure UploadVars where
  uploadId : Bytes := []
  writeOffset : Int := 0
  first : Bool := true

instance : Inhabited UploadStateResult := ⟨{}⟩

namespace FileHandler

/-- Without a secret, and without a token that verifies, the request names the user itself. -/
def getUserId (jwt : Option Jwt) (metadata : Metadata) (requestUserId : Bytes) (now : Int) : Bytes :=
  match jwt with
  | none => requestUserId
  | some jwt =>
    let uid := getAuthenticatedUserId jwt metadata now
    if uid ≠ [] then uid else requestUserId

section
variable (jwt : Option Jwt) (config : FileConfig) (metadata : Metadata) (st : FileState)
  (seed : FileIdSeed) (now : Int)

/-- The body holds the upload id and its expiry. -/
def initUpload (req : UploadRequest) : FileState × RpcResponse (Bytes × Int) :=
  let userId := getUserId jwt metadata req.userId now
  if userId = [] then (st, .tokenMissing)
  else if req.fileName = [] then (st, RpcResponse.error .invalidParam)
  else
    let (st, r) := FileService.initUpload config st { req with userId := userId } seed now
    if r.success then
      (st, responseOk (if r.uploadId = [] then r.existingFileId else r.uploadId, r.expireAt))
    else (st, RpcResponse.fail r.errorCode r.error)

/-- Anyone may ask. -/
def getUploadState (uploadId : Bytes) : RpcResponse UploadStateResult :=
  if uploadId = [] then RpcResponse.error .invalidParam
  else
    let r := FileService.getUploadState st uploadId
    if ¬ r.found then
      RpcResponse.fail (if r.errorCode ≠ 0 then r.errorCode else errorCodeToInt .notFound)
        (if r.error = [] then errorCodeToString .notFound else r.error)
    else responseOk { r with fileId := if r.completed ∧ r.fileId ≠ [] then r.fileId else [] }

def getUploadToken (requestUserId fileName : Bytes) (fileSize : Int) :
    FileState × RpcResponse UploadTokenResult :=
  let userId := getUserId jwt metadata requestUserId now
  if userId = [] then (st, .tokenMissing)
  else if fileName = [] then (st, RpcResponse.error .invalidParam)
  else
    let (st, r) := FileService.getUploadToken config st userId fileName fileSize seed now
    if r.success then (st, responseOk r) else (st, RpcResponse.fail r.errorCode r.error)

def getFileUrl (fileId requestUserId : Bytes) : RpcResponse FileUrlResult :=
  let userId := getUserId jwt metadata requestUserId now
  if userId = [] then .tokenMissing
  else if fileId = [] then RpcResponse.error .invalidParam
  else
    let r := FileService.getFileUrl config st fileId userId
    if r.success then responseOk r else RpcResponse.fail r.errorCode r.error

/-- The loop ends with the stream, or early with an answer. -/
def uploadLoop (st : FileState) (v : UploadVars) :
    List UploadChunk → FileState × Except (RpcResponse UploadResult) UploadVars
  | [] => (st, .ok v)
  | .uploadMeta uploadId :: rest =>
    if uploadId = [] then
      (st, .error (RpcResponse.fail (errorCodeToInt .invalidParam) (str "upload_id required")))
    else uploadLoop st { uploadId := uploadId, writeOffset := 0, first := false } rest
  | .resumeMeta uploadId offset :: rest =>
    if uploadId = [] then
      (st, .error (RpcResponse.fail (errorCodeToInt .invalidParam) (str "upload_id required")))
    else uploadLoop st { uploadId := uploadId, writeOffset := offset, first := false } rest
  | .chunk data :: rest =>
    if data = [] then uploadLoop st v rest
    else if v.uploadId = [] then
      (st, .error (RpcResponse.fail (errorCodeToInt .invalidParam)
        (str "first message must be meta or resume_meta")))
    else
      let (st, r) := FileService.appendChunk st v.uploadId data
      if ¬ r.success then (st, .error (RpcResponse.fail r.errorCode r.error))
      else uploadLoop st { v with writeOffset := r.newOffset } rest
  | .unset :: rest => uploadLoop st v rest

def uploadFile (messages : List UploadChunk) : FileState × RpcResponse UploadResult :=
  match uploadLoop st {} messages with
  | (st, .error r) => (st, r)
  | (st, .ok v) =>
    if v.first ∨ v.uploadId = [] then
      (st, RpcResponse.fail (errorCodeToInt .invalidParam)
        (str "stream must start with meta or resume_meta"))
    else
      let (st, r) := FileService.completeUpload config st v.uploadId seed now
      if r.success then (st, responseOk r) else (st, RpcResponse.fail r.errorCode r.error)

/-- Anyone may ask. -/
def getFileInfo (fileId : Bytes) : RpcResponse FileMetaData :=
  if fileId = [] then RpcResponse.error .invalidParam
  else match FileService.getFileInfo st fileId with
    | none => RpcResponse.error .fileNotFound
    | some data => responseOk data

def deleteFile (fileId requestUserId : Bytes) : FileState × RpcResponse Unit :=
  let userId := getUserId jwt metadata requestUserId now
  if userId = [] then (st, .tokenMissing)
  else if fileId = [] then (st, RpcResponse.error .invalidParam)
  else
    let (st, ok) := FileService.deleteFile st fileId userId
    if ok then (st, responseOk ()) else (st, RpcResponse.error .fileNotFound)

end

/-- A call without a token acts for whoever the request names. -/
theorem getUserId_without_token (jwt : Option Jwt) (requestUserId : Bytes) (now : Int) :
    getUserId jwt (createContext []) requestUserId now = requestUserId := by
  cases jwt with
  | none => rfl
  | some jwt => simp [getUserId]

end FileHandler
end SwiftChat.File
