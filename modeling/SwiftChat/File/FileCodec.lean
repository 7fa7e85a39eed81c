import SwiftChat.Base.Codec
import SwiftChat.Base.Json
import SwiftChat.File.FileStore

/-! The JSON records of files and upload sessions. -/
namespace SwiftChat.File
open Base

def serializeMeta (m : FileMetaData) : JsonObject := [
  ("file_id", .string m.fileId),
  ("file_name", .string m.fileName),
  ("content_type", .string m.contentType),
  ("file_size", .number m.fileSize),
  ("md5", .string m.md5),
  ("uploader_id", .string m.uploaderId),
  ("storage_path", .string m.storagePath),
  ("uploaded_at", .number m.uploadedAt)]

def deserializeMeta (j : JsonObject) : Option FileMetaData := do
  let fileId ← j.stringValue "file_id" []
  let fileName ← j.stringValue "file_name" []
  let contentType ← j.stringValue "content_type" []
  let fileSize ← j.intValue 64 "file_size" 0
  let md5 ← j.stringValue "md5" []
  let uploaderId ← j.stringValue "uploader_id" []
  let storagePath ← j.stringValue "storage_path" []
  let uploadedAt ← j.intValue 64 "uploaded_at" 0
  return {
    fileId := fileId
    fileName := fileName
    contentType := contentType
    fileSize := fileSize
    md5 := md5
    uploaderId := uploaderId
    storagePath := storagePath
    uploadedAt := uploadedAt }

def serializeSession (s : UploadSessionData) : JsonObject := [
  ("upload_id", .string s.uploadId),
  ("user_id", .string s.userId),
  ("file_name", .string s.fileName),
  ("content_type", .string s.contentType),
  ("file_size", .number s.fileSize),
  ("md5", .string s.md5),
  ("msg_id", .string s.msgId),
  ("temp_path", .string s.tempPath),
  ("bytes_written", .number s.bytesWritten),
  ("expire_at", .number s.expireAt)]

def deserializeSession (j : JsonObject) : Option UploadSessionData := do
  let uploadId ← j.stringValue "upload_id" []
  let userId ← j.stringValue "user_id" []
  let fileName ← j.stringValue "file_name" []
  let contentType ← j.stringValue "content_type" []
  let fileSize ← j.intValue 64 "file_size" 0
  let md5 ← j.stringValue "md5" []
  let msgId ← j.stringValue "msg_id" []
  let tempPath ← j.stringValue "temp_path" []
  let bytesWritten ← j.intValue 64 "bytes_written" 0
  let expireAt ← j.intValue 64 "expire_at" 0
  return {
    uploadId := uploadId
    userId := userId
    fileName := fileName
    contentType := contentType
    fileSize := fileSize
    md5 := md5
    msgId := msgId
    tempPath := tempPath
    bytesWritten := bytesWritten
    expireAt := expireAt }

def FileMetaData.stored (m : FileMetaData) : FileMetaData :=
  { m with fileSize := wrap 64 m.fileSize, uploadedAt := wrap 64 m.uploadedAt }

def UploadSessionData.stored (s : UploadSessionData) : UploadSessionData :=
  { s with
    fileSize := wrap 64 s.fileSize
    bytesWritten := wrap 64 s.bytesWritten
    expireAt := wrap 64 s.expireAt }

theorem deserialize_serializeMeta (m : FileMetaData) :
    deserializeMeta (serializeMeta m) = some m.stored := by
  simp [deserializeMeta, serializeMeta, JsonObject.stringValue, JsonObject.intValue,
    JsonObject.field, FileMetaData.stored]

theorem deserialize_serializeSession (s : UploadSessionData) :
    deserializeSession (serializeSession s) = some s.stored := by
  simp [deserializeSession, serializeSession, JsonObject.stringValue, JsonObject.intValue,
    JsonObject.field, UploadSessionData.stored]

def metaCodec : Codec FileMetaData JsonObject where
  encode := serializeMeta
  decode := deserializeMeta
  kept := FileMetaData.stored
  decode_encode := deserialize_serializeMeta

def sessionCodec : Codec UploadSessionData JsonObject where
  encode := serializeSession
  decode := deserializeSession
  kept := UploadSessionData.stored
  decode_encode := deserialize_serializeSession

end SwiftChat.File
