import SwiftChat.Base.OrderedMap

/-! The store of file records and upload sessions. -/
namespace SwiftChat.File
open Base

structure FileMetaData where
  fileId : Bytes := []
  fileName : Bytes := []
  contentType : Bytes := []
  fileSize : Int := 0
  md5 : Bytes := []
  uploaderId : Bytes := []
  storagePath : Bytes := []
  uploadedAt : Int := 0
deriving DecidableEq, Inhabited

structure UploadSessionData where
  uploadId : Bytes := []
  userId : Bytes := []
  fileName : Bytes := []
  contentType : Bytes := []
  fileSize : Int := 0
  md5 : Bytes := []
  msgId : Bytes := []
  tempPath : Bytes := []
  bytesWritten : Int := 0
  expireAt : Int := 0
deriving DecidableEq

/-- A value of the file database: a file record, the file id of a checksum, or a session. -/
inductive FileValue where
  | file (data : FileMetaData)
  | ref (fileId : Bytes)
  | session (session : UploadSessionData)
deriving DecidableEq

abbrev FileDb := OrderedMap Bytes FileValue

def keyFile (fileId : Bytes) : Bytes := str "file:" ++ fileId
def keyFileMd5 (md5 : Bytes) : Bytes := str "file_md5:" ++ md5
def keyUpload (uploadId : Bytes) : Bytes := str "upload:" ++ uploadId

namespace FileStore

def save (db : FileDb) (data : FileMetaData) : FileDb × Bool :=
  if data.fileId = [] then (db, false)
  else
    (db.write (.put (keyFile data.fileId) (.file data) ::
      if data.md5 = [] then [] else [.put (keyFileMd5 data.md5) (.ref data.fileId)]), true)

def getById (db : FileDb) (fileId : Bytes) : Option FileMetaData :=
  if fileId = [] then none
  else match db.get (keyFile fileId) with
    | some (.file data) => some data
    | _ => none

def getByMd5 (db : FileDb) (md5 : Bytes) : Option FileMetaData :=
  if md5 = [] then none
  else match db.get (keyFileMd5 md5) with
    | some (.ref fileId) => getById db fileId
    | _ => none

def delete (db : FileDb) (fileId : Bytes) : FileDb × Bool :=
  match getById db fileId with
  | none => (db, false)
  | some data =>
    (db.write (.delete (keyFile fileId) ::
      if data.md5 = [] then [] else [.delete (keyFileMd5 data.md5)]), true)

def saveUploadSession (db : FileDb) (session : UploadSessionData) : FileDb × Bool :=
  if session.uploadId = [] then (db, false)
  else (db.put (keyUpload session.uploadId) (.session session), true)

def getUploadSession (db : FileDb) (uploadId : Bytes) : Option UploadSessionData :=
  if uploadId = [] then none
  else match db.get (keyUpload uploadId) with
    | some (.session session) => some session
    | _ => none

def updateUploadSessionBytes (db : FileDb) (uploadId : Bytes) (bytesWritten : Int) :
    FileDb × Bool :=
  match getUploadSession db uploadId with
  | none => (db, false)
  | some session => saveUploadSession db { session with bytesWritten := bytesWritten }

def deleteUploadSession (db : FileDb) (uploadId : Bytes) : FileDb × Bool :=
  if uploadId = [] then (db, false) else (db.delete (keyUpload uploadId), true)

/-- Values that are no sessions are skipped. -/
def listAllUploadSessions (db : FileDb) : List UploadSessionData :=
  (db.scan (keyUpload [])).filterMap fun e =>
    match e.2 with
    | .session session => some session
    | _ => none

end FileStore

variable {db : FileDb} {i j u : Bytes} {data : FileMetaData} {session s : UploadSessionData}

theorem keyFile_inj (h : keyFile i = keyFile j) : i = j := List.append_cancel_left h

theorem keyUpload_inj (h : keyUpload i = keyUpload j) : i = j := List.append_cancel_left h

/-- The fifth byte tells a record from a checksum. -/
theorem keyFile_ne_keyFileMd5 : keyFile i ≠ keyFileMd5 j := by
  intro h
  have hf : (keyFile i)[4]? = some 58 := by
    rw [keyFile, List.getElem?_append_left (by decide)]
    decide
  have hm : (keyFileMd5 j)[4]? = some 95 := by
    rw [keyFileMd5, List.getElem?_append_left (by decide)]
    decide
  rw [h, hm] at hf
  cases hf

/-- The first byte tells a session from the rest. -/
theorem head_keyUpload : (keyUpload i).head? = some 117 := by
  rw [keyUpload, List.head?_append]
  rfl

theorem keyFile_ne_keyUpload : keyFile i ≠ keyUpload j := by
  intro h
  have hf : (keyFile i).head? = some 102 := by
    rw [keyFile, List.head?_append]
    rfl
  rw [h, head_keyUpload] at hf
  cases hf

theorem keyUpload_ne_keyFileMd5 : keyUpload i ≠ keyFileMd5 j := by
  intro h
  have hm : (keyFileMd5 j).head? = some 102 := by
    rw [keyFileMd5, List.head?_append]
    rfl
  rw [← h, head_keyUpload] at hm
  cases hm

namespace FileStore

theorem getById_congr {db' : FileDb} (h : db'.get (keyFile i) = db.get (keyFile i)) :
    getById db' i = getById db i := by
  unfold getById
  rw [h]

theorem getUploadSession_congr {db' : FileDb} (h : db'.get (keyUpload i) = db.get (keyUpload i)) :
    getUploadSession db' i = getUploadSession db i := by
  unfold getUploadSession
  rw [h]

/-- A deletion clears the key of the record and, if the record has a checksum, the key of that. -/
theorem get_delete_known (h : getById db i = some data) (k : Bytes) :
    (delete db i).1.get k =
      if k = keyFile i ∨ (data.md5 ≠ [] ∧ k = keyFileMd5 data.md5) then none else db.get k := by
  simp only [delete, h, OrderedMap.write_cons, OrderedMap.apply_delete]
  by_cases hm : data.md5 = []
  · simp [hm, OrderedMap.get_delete]
  · simp only [hm, if_false, OrderedMap.write_cons, OrderedMap.apply_delete, OrderedMap.write_nil,
      OrderedMap.get_delete, ne_eq, not_false_eq_true, true_and]
    by_cases hk : k = keyFile i
    · simp [hk]
    · simp [hk]

/-- No other record is removed. -/
theorem getById_delete (h : getById db i = some data) (j : Bytes) :
    getById (delete db i).1 j = if j = i then none else getById db j := by
  have hget := get_delete_known h (keyFile j)
  simp only [keyFile_ne_keyFileMd5, and_false, or_false] at hget
  by_cases hj : j = i
  · rw [if_pos hj]
    rw [hj, if_pos rfl] at hget
    simp [getById, hj, hget]
  · rw [if_neg hj]
    apply getById_congr
    rw [hget, if_neg (fun he => hj (keyFile_inj he))]

theorem getUploadSession_delete (h : getById db i = some data) :
    getUploadSession (delete db i).1 j = getUploadSession db j := by
  apply getUploadSession_congr
  rw [get_delete_known h, if_neg]
  rintro (he | ⟨_, he⟩)
  · exact keyFile_ne_keyUpload he.symm
  · exact keyUpload_ne_keyFileMd5 he

theorem getById_saveUploadSession : getById (saveUploadSession db session).1 i = getById db i := by
  apply getById_congr
  unfold saveUploadSession
  split
  · rfl
  · simp [OrderedMap.get_put_ne keyFile_ne_keyUpload]

theorem getUploadSession_save (h : session.uploadId ≠ []) :
    getUploadSession (saveUploadSession db session).1 i =
      if i = session.uploadId then some session else getUploadSession db i := by
  simp only [saveUploadSession, h, if_false]
  by_cases hi : i = session.uploadId
  · simp [getUploadSession, hi, h]
  · rw [if_neg hi]
    apply getUploadSession_congr
    rw [OrderedMap.get_put_ne (fun he => hi (keyUpload_inj he))]

theorem get_save_upload : (save db data).1.get (keyUpload j) = db.get (keyUpload j) := by
  unfold save
  split
  · rfl
  · rw [OrderedMap.write_cons, OrderedMap.apply_put]
    split
    · simp [OrderedMap.get_put_ne keyFile_ne_keyUpload.symm]
    · simp [OrderedMap.get_put_ne keyFile_ne_keyUpload.symm,
        OrderedMap.get_put_ne keyUpload_ne_keyFileMd5]

theorem getById_save (h : data.fileId ≠ []) :
    getById (save db data).1 j = if j = data.fileId then some data else getById db j := by
  have hget : (save db data).1.get (keyFile j) =
      if j = data.fileId then some (.file data) else db.get (keyFile j) := by
    simp only [save, h, if_false, OrderedMap.write_cons, OrderedMap.apply_put]
    have hrec : (db.put (keyFile data.fileId) (.file data)).get (keyFile j) =
        if j = data.fileId then some (.file data) else db.get (keyFile j) := by
      by_cases hj : j = data.fileId
      · simp [hj]
      · rw [if_neg hj, OrderedMap.get_put_ne (fun he => hj (keyFile_inj he))]
    split
    · simpa using hrec
    · simpa [OrderedMap.get_put_ne keyFile_ne_keyFileMd5] using hrec
  by_cases hj : j = data.fileId
  · subst hj
    rw [if_pos rfl] at hget ⊢
    simp [getById, hget, h]
  · rw [if_neg hj] at hget ⊢
    exact getById_congr hget

theorem get_deleteUploadSession (h : u ≠ []) :
    (deleteUploadSession db u).1.get (keyUpload j) =
      if j = u then none else db.get (keyUpload j) := by
  simp only [deleteUploadSession, h, if_false]
  by_cases hj : j = u
  · simp [hj]
  · rw [if_neg hj, OrderedMap.get_delete_ne (fun he => hj (keyUpload_inj he))]

theorem getById_deleteUploadSession :
    getById (deleteUploadSession db u).1 j = getById db j := by
  apply getById_congr
  unfold deleteUploadSession
  split
  · rfl
  · rw [OrderedMap.get_delete_ne keyFile_ne_keyUpload]

/-- A record can be stored before or after a session is deleted. -/
theorem deleteUploadSession_save :
    (deleteUploadSession (save db data).1 u).1 = (save (deleteUploadSession db u).1 data).1 := by
  unfold deleteUploadSession save
  by_cases hu : u = []
  · simp [hu]
  by_cases hf : data.fileId = []
  · simp [hf]
  simp only [hu, hf, if_false]
  by_cases hm : data.md5 = []
  · simp only [hm, if_true, OrderedMap.write_cons, OrderedMap.apply_put, OrderedMap.write_nil]
    rw [OrderedMap.delete_put keyFile_ne_keyUpload]
  · simp only [hm, if_false, OrderedMap.write_cons, OrderedMap.apply_put, OrderedMap.write_nil]
    rw [OrderedMap.delete_put keyUpload_ne_keyFileMd5.symm,
      OrderedMap.delete_put keyFile_ne_keyUpload]

theorem mem_listAllUploadSessions (h : s ∈ listAllUploadSessions db) :
    ∃ u, db.get (keyUpload u) = some (.session s) := by
  obtain ⟨⟨k, v⟩, hmem, hv⟩ := List.mem_filterMap.mp h
  obtain ⟨hget, u, rfl⟩ := OrderedMap.mem_scan.mp hmem
  cases v with
  | session s' =>
    obtain rfl := Option.some.inj hv
    exact ⟨u, by simpa [keyUpload] using hget⟩
  | file _ => cases hv
  | ref _ => cases hv

theorem get_of_getUploadSession (h : getUploadSession db u = some s) :
    u ≠ [] ∧ db.get (keyUpload u) = some (.session s) := by
  unfold getUploadSession at h
  split at h
  · cases h
  · rename_i hu
    split at h
    · rename_i hget
      obtain rfl := Option.some.inj h
      exact ⟨hu, hget⟩
    · cases h

end FileStore
end SwiftChat.File
