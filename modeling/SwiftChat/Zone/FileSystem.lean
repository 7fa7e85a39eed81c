import SwiftChat.File.FileHandler
import SwiftChat.Zone.ZoneService

/-! The `file.*` commands: the zone's calls down to the file service. -/
namespace SwiftChat.Zone
open Base File

section
variable (jwt : Option Jwt) (config : FileConfig) (codec : FileCodec) (st : FileState)
  (seed : FileIdSeed) (now : Int)

/-! Each call of the client leaves the token of its context empty. -/
namespace FileRpcClient

def initUpload (req : UploadRequest) : FileState × Except Bytes (Bytes × Int) :=
  let (st, r) := FileHandler.initUpload jwt config (createContext []) st seed now req
  (st, r.result (str "init upload failed"))

def getUploadToken (req : FileGetUploadTokenPayload) :
    FileState × Except Bytes UploadTokenResult :=
  let (st, r) := FileHandler.getUploadToken jwt config (createContext []) st seed now req.userId
    req.fileName req.fileSize
  (st, r.result (str "get upload token failed"))

def getFileUrl (req : FileGetFileUrlPayload) : Except Bytes FileUrlResult :=
  (FileHandler.getFileUrl jwt config (createContext []) st now req.fileId req.userId).result
    (str "get file url failed")

def getFileInfo (fileId : Bytes) : Except Bytes FileMetaData :=
  (FileHandler.getFileInfo st fileId).result (str "get file info failed")

def deleteFile (req : FileDeletePayload) : FileState × Except Bytes Unit :=
  let (st, r) := FileHandler.deleteFile jwt (createContext []) st now req.fileId req.userId
  (st, r.result (str "delete file failed"))

end FileRpcClient

end

def fileCalls (jwt : Option Jwt) (config : FileConfig) (seed : FileIdSeed) (now : Int) :
    FileCalls FileState where
  getUploadToken st req :=
    let (st, result) := FileRpcClient.getUploadToken jwt config st seed now req
    (st, match result with
      | .error _ => default
      | .ok tok => tok)
  initUpload st req := FileRpcClient.initUpload jwt config st seed now req
  getFileInfo st fileId := (st, FileRpcClient.getFileInfo st fileId)
  getFileUrl st req :=
    (st, match FileRpcClient.getFileUrl jwt config st now req with
      | .error _ => default
      | .ok url => url)
  deleteFile st req := succeeded (FileRpcClient.deleteFile jwt st now req)

def handleFile (jwt : Option Jwt) (config : FileConfig) (codec : FileCodec) (st : FileState)
    (seed : FileIdSeed) (now : Int) (r : ClientRequest) : FileState × HandleClientRequestResult :=
  (fileCalls jwt config seed now).handle codec st r

/-- The change a request asks for. -/
inductive FileCommand where
  | startUpload (req : UploadRequest)
  | delete (req : FileDeletePayload)
  | nothing

def fileCommand (codec : FileCodec) (r : ClientRequest) : FileCommand :=
  if r.cmd = str "file.get_upload_token" then
    match codec.parseGetUploadToken r.payload with
    | none => .nothing
    | some req =>
      .startUpload { userId := req.userId, fileName := req.fileName, fileSize := req.fileSize }
  else if r.cmd = str "file.init_upload" then
    match codec.parseInitUpload r.payload with
    | none => .nothing
    | some req => .startUpload req
  else if r.cmd = str "file.delete" then
    match codec.parseDelete r.payload with
    | none => .nothing
    | some req => .delete req
  else .nothing

/-- What is done for a command, for the user its payload names. -/
def applyFileCommand (config : FileConfig) (st : FileState) (seed : FileIdSeed) (now : Int) :
    FileCommand → FileState
  | .startUpload req =>
    if req.userId = [] ∨ req.fileName = [] then st
    else (FileService.initUpload config st req seed now).1
  | .delete req =>
    if req.userId = [] then st else (FileService.deleteFile st req.fileId req.userId).1
  | .nothing => st

section
variable {jwt : Option Jwt} {config : FileConfig} {codec : FileCodec} {st : FileState}
  {seed : FileIdSeed} {now : Int} {r : ClientRequest}

theorem initUpload_acts (req : UploadRequest) :
    (FileRpcClient.initUpload jwt config st seed now req).1 =
      applyFileCommand config st seed now (.startUpload req) := by
  simp only [FileRpcClient.initUpload, FileHandler.initUpload, FileHandler.getUserId_without_token,
    applyFileCommand]
  by_cases hu : req.userId = []
  · simp [hu]
  · by_cases hn : req.fileName = []
    · simp [hu, hn]
    · simp only [hu, hn, if_false, or_self]
      split <;> rfl

theorem getUploadToken_acts (req : FileGetUploadTokenPayload) :
    (FileRpcClient.getUploadToken jwt config st seed now req).1 =
      applyFileCommand config st seed now (.startUpload
        { userId := req.userId, fileName := req.fileName, fileSize := req.fileSize }) := by
  simp only [FileRpcClient.getUploadToken, FileHandler.getUploadToken,
    FileHandler.getUserId_without_token, applyFileCommand]
  by_cases hu : req.userId = []
  · simp [hu]
  · by_cases hn : req.fileName = []
    · simp [hu, hn]
    · simp only [hu, hn, if_false, or_self]
      rw [← FileService.getUploadToken_state]
      split <;> rfl

theorem deleteFile_acts (req : FileDeletePayload) :
    (FileRpcClient.deleteFile jwt st now req).1 =
      applyFileCommand config st seed now (.delete req) := by
  simp only [FileRpcClient.deleteFile, FileHandler.deleteFile, FileHandler.getUserId_without_token,
    applyFileCommand]
  by_cases hu : req.userId = []
  · simp [hu]
  · by_cases hf : req.fileId = []
    · simp [hu, hf, FileService.deleteFile, FileStore.getById]
    · simp only [hu, hf, if_false]
      split <;> rfl

/-- A request changes what the command in its payload changes, whoever it comes from. -/
theorem handleFile_state :
    (handleFile jwt config codec st seed now r).1 =
      applyFileCommand config st seed now (fileCommand codec r) := by
  unfold handleFile FileCalls.handle fileCommand
  by_cases htoken : r.cmd = str "file.get_upload_token"
  · simp only [if_pos htoken, parsed]
    cases codec.parseGetUploadToken r.payload with
    | none => rfl
    | some req => exact getUploadToken_acts req
  · simp only [if_neg htoken]
    by_cases hinit : r.cmd = str "file.init_upload"
    · simp only [if_pos hinit, parsed]
      cases codec.parseInitUpload r.payload with
      | none => rfl
      | some req =>
        simp only [fileCalls]
        rw [← initUpload_acts req]
        split <;> rename_i h <;> rw [h]
    · simp only [if_neg hinit]
      by_cases hdelete : r.cmd = str "file.delete"
      · have hinfo : r.cmd ≠ str "file.get_file_info" := by rw [hdelete]; decide
        have hurl : r.cmd ≠ str "file.get_file_url" := by rw [hdelete]; decide
        simp only [if_neg hinfo, if_neg hurl, if_pos hdelete, parsed]
        cases codec.parseDelete r.payload with
        | none => rfl
        | some req => exact deleteFile_acts req
      · -- what is left only reads
        simp only [if_neg hdelete]
        by_cases hinfo : r.cmd = str "file.get_file_info"
        · simp only [if_pos hinfo, parsed]
          cases codec.parseGetFileInfo r.payload with
          | none => rfl
          | some fileId =>
            simp only [fileCalls]
            cases FileRpcClient.getFileInfo st fileId <;> rfl
        · simp only [if_neg hinfo, parsed]
          repeat' split
          all_goals rfl

end
end SwiftChat.Zone
