import SwiftChat.Base.Run
import SwiftChat.File.Upload

/-! The uploads in progress: sessions and temporary files, and what each call does to them. -/
namespace SwiftChat.File
open Base
variable {config : FileConfig} {st : FileState} {db : FileDb} {u f j : Bytes} {seed : FileIdSeed}
  {s : UploadSessionData} {data : FileMetaData} {content chunk : Bytes}

theorem hexDigit_ne_dot (b : UInt8) : hexDigit (b >>> 4 &&& 15) ≠ 46 := by
  have hall : ∀ n : Fin 256, hexDigit (UInt8.ofFin n >>> 4 &&& 15) ≠ 46 := by decide +kernel
  exact hall b.toFin

/-- An id starts with a digit, and has one more. -/
theorem generateFileId_eq (seed : FileIdSeed) :
    ∃ (b : UInt8) (rest : Bytes), generateFileId seed =
      hexDigit (b >>> 4 &&& 15) :: hexDigit (b &&& 15) :: rest := by
  obtain ⟨bytes, hlen⟩ := seed
  cases bytes with
  | nil => cases hlen
  | cons b bytes => exact ⟨b, hexEncode bytes, rfl⟩

theorem getTempPath_inj (h : getTempPath config u = getTempPath config j) : u = j :=
  List.append_cancel_left h

theorem buildStoragePath_inj (h : buildStoragePath config f = buildStoragePath config j) :
    f = j := by
  have hlen := congrArg List.length h
  unfold buildStoragePath at h hlen
  split at h <;> rename_i hf
  · split at h <;> rename_i hj
    · exact List.append_cancel_left h
    · simp [hf, hj] at hlen
      omega
  · split at h <;> rename_i hj
    · simp [hf, hj] at hlen
      omega
    · simp only [hf, hj, if_false, List.length_append] at hlen
      exact List.append_inj_right' h (by simp at hlen; omega)

/-- Temporary files are kept apart from stored ones by the dot. -/
theorem getTempPath_ne_buildStoragePath :
    getTempPath config u ≠ buildStoragePath config (generateFileId seed) := by
  obtain ⟨b, rest, hid⟩ := generateFileId_eq seed
  intro h
  unfold getTempPath buildStoragePath at h
  rw [hid, if_neg (by simp)] at h
  simp only [List.append_assoc, List.take_succ_cons] at h
  have htail := List.append_cancel_left h
  have hslash : str "/" = [47] := by decide
  have hdot : str "/.tmp/" = 47 :: 46 :: str "tmp/" := by decide
  rw [hslash, hdot] at htail
  simp only [List.cons_append, List.nil_append, List.cons.injEq, true_and] at htail
  exact hexDigit_ne_dot b htail.1.symm

/-- Ending a session: its record and its temporary file go. -/
def endSession (config : FileConfig) (st : FileState) (u : Bytes) : FileState where
  db := (FileStore.deleteUploadSession st.db u).1
  disk := st.disk.delete (getTempPath config u)

/-- Storing a file: its record and its content. -/
def addFile (st : FileState) (data : FileMetaData) (content : Bytes) : FileState where
  db := (FileStore.save st.db data).1
  disk := st.disk.put data.storagePath content

def IsFileId (i : Bytes) : Prop := ∃ seed, i = generateFileId seed

theorem IsFileId.ne_nil (h : IsFileId u) : u ≠ [] := by
  obtain ⟨seed, rfl⟩ := h
  exact FileService.generateFileId_ne_nil

theorem IsFileId.storagePath_ne (h : IsFileId f) :
    buildStoragePath config f ≠ getTempPath config u := by
  obtain ⟨seed, rfl⟩ := h
  exact getTempPath_ne_buildStoragePath.symm

/-- Sessions and records are stored under their own ids, and name their own paths. -/
structure Filed (config : FileConfig) (db : FileDb) : Prop where
  session : ∀ u s, db.get (keyUpload u) = some (.session s) →
    s.uploadId = u ∧ IsFileId u ∧ s.tempPath = getTempPath config u
  file : ∀ f data, FileStore.getById db f = some data →
    IsFileId f ∧ data.storagePath = buildStoragePath config f

namespace Filed

theorem held (h : Filed config db) (hs : FileStore.getUploadSession db u = some s) :
    s.uploadId = u ∧ IsFileId u ∧ s.tempPath = getTempPath config u :=
  h.session u s (FileStore.get_of_getUploadSession hs).2

theorem saveUploadSession (h : Filed config db) (hid : IsFileId s.uploadId)
    (hpath : s.tempPath = getTempPath config s.uploadId) :
    Filed config (FileStore.saveUploadSession db s).1 where
  session j s' hj := by
    simp only [FileStore.saveUploadSession, hid.ne_nil, if_false] at hj
    by_cases he : j = s.uploadId
    · subst he
      rw [OrderedMap.get_put_self] at hj
      obtain rfl := FileValue.session.inj (Option.some.inj hj)
      exact ⟨rfl, hid, hpath⟩
    · rw [OrderedMap.get_put_ne (fun hk => he (keyUpload_inj hk))] at hj
      exact h.session j s' hj
  file f data hf := by
    rw [FileStore.getById_saveUploadSession] at hf
    exact h.file f data hf

theorem deleteUploadSession (h : Filed config db) :
    Filed config (FileStore.deleteUploadSession db u).1 where
  session j s hj := by
    by_cases hu : u = []
    · simp only [FileStore.deleteUploadSession, hu, if_true] at hj
      exact h.session j s hj
    · rw [FileStore.get_deleteUploadSession hu] at hj
      split at hj
      · cases hj
      · exact h.session j s hj
  file f data hf := by
    rw [FileStore.getById_deleteUploadSession] at hf
    exact h.file f data hf

theorem save (h : Filed config db) (hid : IsFileId data.fileId)
    (hpath : data.storagePath = buildStoragePath config data.fileId) :
    Filed config (FileStore.save db data).1 where
  session j s hj := by
    rw [FileStore.get_save_upload] at hj
    exact h.session j s hj
  file f data' hf := by
    rw [FileStore.getById_save hid.ne_nil] at hf
    split at hf
    · rename_i he
      obtain rfl := Option.some.inj hf
      rw [he]
      exact ⟨hid, hpath⟩
    · exact h.file f data' hf

theorem delete (h : Filed config db) (hf : FileStore.getById db f = some data) :
    Filed config (FileStore.delete db f).1 where
  session j s hj := by
    rw [FileStore.get_delete_known hf, if_neg] at hj
    · exact h.session j s hj
    · rintro (he | ⟨_, he⟩)
      · exact keyFile_ne_keyUpload he.symm
      · exact keyUpload_ne_keyFileMd5 he
  file g data' hg := by
    rw [FileStore.getById_delete hf] at hg
    split at hg
    · cases hg
    · exact h.file g data' hg

end Filed

/-- The uploads in progress: their sessions, and the bytes of their temporary files. A file that
was never written to counts as empty. -/
@[ext] structure Uploads where
  session : Bytes → Option UploadSessionData
  temp : Bytes → Bytes

def uploads (config : FileConfig) (st : FileState) : Uploads where
  session := FileStore.getUploadSession st.db
  temp u := (st.disk.get (getTempPath config u)).getD []

namespace Uploads
variable {A : Uploads}

def start (A : Uploads) (s : UploadSessionData) : Uploads :=
  { A with session := Function.update A.session s.uploadId (some s) }

def push (A : Uploads) (u chunk : Bytes) : Uploads where
  session := Function.update A.session u ((A.session u).map fun s =>
    { s with bytesWritten := s.bytesWritten + chunk.length })
  temp := Function.update A.temp u (A.temp u ++ chunk)

def finish (A : Uploads) (u : Bytes) : Uploads where
  session := Function.update A.session u none
  temp := Function.update A.temp u []

/-- What was counted is on disk, and not more than the size the upload announced. -/
def Sane (config : FileConfig) (A : Uploads) : Prop :=
  ∀ u s, A.session u = some s → s.bytesWritten ≤ (A.temp u).length ∧
    s.bytesWritten ≤ s.fileSize ∧ SizeAllowed config s.fileSize

theorem Sane.start (h : A.Sane config) (hzero : s.bytesWritten = 0)
    (hsize : SizeAllowed config s.fileSize) : (A.start s).Sane config := by
  intro u s' hs
  by_cases hu : u = s.uploadId
  · subst hu
    simp only [Uploads.start, Function.update_self] at hs
    obtain rfl := Option.some.inj hs
    have hpos := hsize.1
    exact ⟨by omega, by omega, hsize⟩
  · simp only [Uploads.start, Function.update_of_ne hu] at hs
    exact h u s' hs

theorem Sane.push (h : A.Sane config) (hs : A.session u = some s)
    (hfit : s.bytesWritten + chunk.length ≤ s.fileSize) : (A.push u chunk).Sane config := by
  intro j s' hj
  by_cases he : j = u
  · subst he
    simp only [Uploads.push, Function.update_self, hs, Option.map_some] at hj
    obtain rfl := Option.some.inj hj
    obtain ⟨hwritten, _, hsize⟩ := h j s hs
    refine ⟨?_, hfit, hsize⟩
    simp only [Uploads.push, Function.update_self, List.length_append]
    omega
  · simp only [Uploads.push, Function.update_of_ne he] at hj ⊢
    exact h j s' hj

theorem Sane.finish (h : A.Sane config) : (A.finish u).Sane config := by
  intro j s hj
  by_cases he : j = u
  · subst he
    simp only [Uploads.finish, Function.update_self] at hj
    cases hj
  · simp only [Uploads.finish, Function.update_of_ne he] at hj ⊢
    exact h j s hj

end Uploads

theorem uploads_start (hid : s.uploadId ≠ []) :
    uploads config { st with db := (FileStore.saveUploadSession st.db s).1 } =
      (uploads config st).start s := by
  ext1
  · funext j
    simp only [uploads, Uploads.start, FileStore.getUploadSession_save hid, Function.update_apply]
  · rfl

theorem uploads_push (hs : FileStore.getUploadSession st.db u = some s)
    (hfiled : s.uploadId = u ∧ IsFileId u ∧ s.tempPath = getTempPath config u) :
    uploads config
        { db := (FileStore.saveUploadSession st.db
            { s with bytesWritten := s.bytesWritten + chunk.length }).1
          disk := appendFile st.disk s.tempPath chunk } =
      (uploads config st).push u chunk := by
  obtain ⟨rfl, hid, hpath⟩ := hfiled
  ext1
  · funext j
    simp only [uploads, Uploads.push, hs, Option.map_some, Function.update_apply]
    exact FileStore.getUploadSession_save hid.ne_nil
  · funext j
    simp only [uploads, Uploads.push, appendFile, hpath, Function.update_apply]
    by_cases hj : j = s.uploadId
    · subst hj
      simp
    · rw [if_neg hj, OrderedMap.get_put_ne (fun he => hj (getTempPath_inj he))]

theorem uploads_endSession (hu : u ≠ []) :
    uploads config (endSession config st u) = (uploads config st).finish u := by
  ext1
  · funext j
    simp only [uploads, Uploads.finish, Function.update_apply, endSession]
    by_cases hj : j = u
    · subst hj
      simp [FileStore.getUploadSession, FileStore.get_deleteUploadSession hu]
    · rw [if_neg hj]
      apply FileStore.getUploadSession_congr
      rw [FileStore.get_deleteUploadSession hu, if_neg hj]
  · funext j
    simp only [uploads, Uploads.finish, Function.update_apply, endSession]
    by_cases hj : j = u
    · subst hj
      simp
    · rw [if_neg hj, OrderedMap.get_delete_ne (fun he => hj (getTempPath_inj he))]

/-- Stored files are no part of it. -/
theorem uploads_addFile (hid : IsFileId data.fileId)
    (hpath : data.storagePath = buildStoragePath config data.fileId) :
    uploads config (addFile st data content) = uploads config st := by
  ext1
  · funext j
    exact FileStore.getUploadSession_congr FileStore.get_save_upload
  · funext j
    simp only [uploads, addFile]
    rw [OrderedMap.get_put_ne]
    rw [hpath]
    exact hid.storagePath_ne.symm

theorem uploads_deleteFile (h : Filed config st.db) (hf : FileStore.getById st.db f = some data) :
    uploads config { db := (FileStore.delete st.db f).1, disk := st.disk.delete data.storagePath } =
      uploads config st := by
  obtain ⟨hid, hpath⟩ := h.file f data hf
  ext1
  · funext j
    exact FileStore.getUploadSession_delete hf
  · funext j
    simp only [uploads]
    rw [OrderedMap.get_delete_ne]
    rw [hpath]
    exact hid.storagePath_ne.symm

/-- The invariant of every run. -/
structure UploadsOk (config : FileConfig) (st : FileState) : Prop where
  filed : Filed config st.db
  sane : (uploads config st).Sane config

theorem uploadsOk_empty : UploadsOk config {} where
  filed := ⟨fun u s h => by simp at h, fun f data h => by simp [FileStore.getById] at h⟩
  sane u s h := by simp [uploads, FileStore.getUploadSession] at h

/-- A file of an allowed size is stored under the new id. -/
theorem FileService.upload_cases (config : FileConfig) (st : FileState)
    (userId fileName contentType content : Bytes) (seed : FileIdSeed) (now : Int) :
    (∃ data, data.fileId = generateFileId seed ∧
      data.storagePath = buildStoragePath config data.fileId ∧
      (upload config st userId fileName contentType content seed now).1 =
        addFile st data content) ∨
    (upload config st userId fileName contentType content seed now).1 = st := by
  unfold upload
  split
  · exact Or.inr rfl
  · refine Or.inl ⟨{ fileId := generateFileId seed
                     fileName := fileName
                     contentType := contentType
                     fileSize := content.length
                     uploaderId := userId
                     storagePath := buildStoragePath config (generateFileId seed)
                     uploadedAt := now }, rfl, rfl, ?_⟩
    simp [FileStore.save, generateFileId_ne_nil, addFile]

namespace UploadsOk

theorem startSession (h : UploadsOk config st) {req : UploadRequest} {now : Int}
    (hsize : SizeAllowed config req.fileSize) :
    UploadsOk config { st with db := (FileStore.saveUploadSession st.db
      (newUploadSession config req (generateFileId seed) now)).1 } := by
  refine ⟨h.filed.saveUploadSession ⟨seed, rfl⟩ rfl, ?_⟩
  rw [uploads_start FileService.generateFileId_ne_nil]
  exact h.sane.start rfl hsize

theorem initUpload (h : UploadsOk config st) {req : UploadRequest} {now : Int} :
    UploadsOk config (FileService.initUpload config st req seed now).1 := by
  rw [FileService.initUpload_state]
  split
  · rename_i hgo
    exact h.startSession hgo.1
  · exact h

/-- A chunk that fits its session is appended and acknowledged; otherwise nothing happens. -/
theorem appendChunk_cases (h : UploadsOk config st) (u chunk : Bytes) :
    (∃ s, FileStore.getUploadSession st.db u = some s ∧
      s.bytesWritten + chunk.length ≤ s.fileSize ∧
      FileService.appendChunk st u chunk =
        ({ db := (FileStore.saveUploadSession st.db
            { s with bytesWritten := s.bytesWritten + chunk.length }).1
           disk := appendFile st.disk s.tempPath chunk },
          { success := true, newOffset := s.bytesWritten + chunk.length }) ∧
      uploads config (FileService.appendChunk st u chunk).1 = (uploads config st).push u chunk) ∨
    ((∀ s, FileStore.getUploadSession st.db u = some s →
        s.fileSize < s.bytesWritten + chunk.length) ∧
      (FileService.appendChunk st u chunk).1 = st ∧
      (FileService.appendChunk st u chunk).2.success = false) := by
  cases hs : FileStore.getUploadSession st.db u with
  | none =>
    right
    simp [FileService.appendChunk, hs, AppendChunkResult.fail]
  | some s =>
    by_cases hfit : s.bytesWritten + chunk.length > s.fileSize
    · right
      simp [FileService.appendChunk, hs, hfit, AppendChunkResult.fail]
    · have hfiled := h.filed.held hs
      have happend : FileService.appendChunk st u chunk =
          ({ db := (FileStore.saveUploadSession st.db
              { s with bytesWritten := s.bytesWritten + chunk.length }).1
             disk := appendFile st.disk s.tempPath chunk },
            { success := true, newOffset := s.bytesWritten + chunk.length }) := by
        simp [FileService.appendChunk, hs, hfit, FileStore.updateUploadSessionBytes,
          FileStore.saveUploadSession, hfiled.1, hfiled.2.1.ne_nil]
      refine Or.inl ⟨s, rfl, by omega, happend, ?_⟩
      rw [happend]
      exact uploads_push hs hfiled

theorem appendChunk (h : UploadsOk config st) (u chunk : Bytes) :
    UploadsOk config (FileService.appendChunk st u chunk).1 := by
  rcases h.appendChunk_cases u chunk with ⟨s, hs, hfit, happend, hview⟩ | ⟨_, hsame, _⟩
  · obtain ⟨rfl, hid, hpath⟩ := h.filed.held hs
    refine ⟨?_, ?_⟩
    · rw [happend]
      exact h.filed.saveUploadSession hid hpath
    · rw [hview]
      exact h.sane.push hs hfit
  · rw [hsame]
    exact h

/-- A full session is turned into a stored file; otherwise nothing happens. -/
theorem completeUpload_cases (h : UploadsOk config st) (u : Bytes) (seed : FileIdSeed)
    (now : Int) :
    (∃ s, FileStore.getUploadSession st.db u = some s ∧ s.bytesWritten = s.fileSize ∧
      (FileService.completeUpload config st u seed now).1 =
        addFile (endSession config st u)
          (s.toMeta (generateFileId seed) (buildStoragePath config (generateFileId seed)) now)
          ((uploads config st).temp u) ∧
      (FileService.completeUpload config st u seed now).2.success = true ∧
      (FileService.completeUpload config st u seed now).2.fileId = generateFileId seed) ∨
    ((∀ s, FileStore.getUploadSession st.db u = some s → s.bytesWritten ≠ s.fileSize) ∧
      (FileService.completeUpload config st u seed now).1 = st ∧
      (FileService.completeUpload config st u seed now).2.success = false) := by
  unfold FileService.completeUpload
  cases hs : FileStore.getUploadSession st.db u with
  | none => exact Or.inr ⟨fun s hs => (by cases hs), rfl, rfl⟩
  | some s =>
    by_cases hfull : s.bytesWritten = s.fileSize
    · obtain ⟨hwritten, _, hsize⟩ := h.sane u s hs
      have hpath := (h.filed.held hs).2.2
      -- a full session has at least one byte on disk, so its file exists
      have hcontent : st.disk.get s.tempPath = some ((uploads config st).temp u) := by
        have hpos := hsize.1
        simp only [uploads, ← hpath] at hwritten ⊢
        cases hget : st.disk.get s.tempPath with
        | none =>
          rw [hget] at hwritten
          simp at hwritten
          omega
        | some content => rfl
      refine Or.inl ⟨s, rfl, hfull, ?_⟩
      have hsaved : (FileStore.save st.db (s.toMeta (generateFileId seed)
          (buildStoragePath config (generateFileId seed)) now)).2 = true := by
        simp [FileStore.save, UploadSessionData.toMeta, FileService.generateFileId_ne_nil]
      simp only [hfull, ne_eq, not_true_eq_false, if_false, hcontent, hsaved]
      refine ⟨?_, trivial, trivial⟩
      unfold addFile endSession
      rw [FileStore.deleteUploadSession_save, hpath]
      rfl
    · right
      simp [hfull, UploadResult.fail]

theorem endSession (h : UploadsOk config st) (hu : u ≠ []) :
    UploadsOk config (endSession config st u) := by
  refine ⟨h.filed.deleteUploadSession, ?_⟩
  rw [uploads_endSession hu]
  exact h.sane.finish

theorem addFile (h : UploadsOk config st) (hid : IsFileId data.fileId)
    (hpath : data.storagePath = buildStoragePath config data.fileId) :
    UploadsOk config (addFile st data content) := by
  refine ⟨h.filed.save hid hpath, ?_⟩
  rw [uploads_addFile hid hpath]
  exact h.sane

/-- The cleanup ends some sessions. -/
theorem cleanup_cases (h : UploadsOk config st) (now : Int) :
    ∃ us : List Bytes, (∀ u ∈ us, u ≠ []) ∧
      FileService.cleanupExpiredSessions st now = us.foldl (File.endSession config) st := by
  have hlist : ∀ s ∈ FileStore.listAllUploadSessions st.db,
      s.uploadId ≠ [] ∧ s.tempPath = getTempPath config s.uploadId := by
    intro s hs
    obtain ⟨u, hu⟩ := FileStore.mem_listAllUploadSessions hs
    obtain ⟨rfl, hid, hpath⟩ := h.filed.session u s hu
    exact ⟨hid.ne_nil, hpath⟩
  unfold FileService.cleanupExpiredSessions
  generalize FileStore.listAllUploadSessions st.db = sessions at hlist
  clear h
  induction sessions generalizing st with
  | nil => exact ⟨[], by simp, rfl⟩
  | cons s sessions ih =>
    obtain ⟨hne, hpath⟩ := hlist s List.mem_cons_self
    obtain ⟨us, hus, hrest⟩ := @ih (FileService.cleanupSession now st s)
      (fun s' hs' => hlist s' (List.mem_cons_of_mem _ hs'))
    by_cases hkeep : s.expireAt > now
    · refine ⟨us, hus, ?_⟩
      rw [List.foldl_cons, hrest, FileService.cleanupSession, if_pos hkeep]
    · refine ⟨s.uploadId :: us, ?_, ?_⟩
      · rintro u (_ | ⟨_, hu⟩)
        · exact hne
        · exact hus u hu
      · rw [List.foldl_cons, hrest, FileService.cleanupSession, if_neg hkeep, hpath]
        rfl

/-- One call. -/
theorem step (h : UploadsOk config st) (op : FileOp) : UploadsOk config (fileStep config st op) := by
  cases op with
  | initUpload req seed now => exact h.initUpload
  | getUploadToken userId fileName fileSize seed now =>
    simp only [fileStep, FileService.getUploadToken_state]
    exact h.initUpload
  | appendChunk u chunk => exact h.appendChunk u chunk
  | completeUpload u seed now =>
    simp only [fileStep]
    rcases h.completeUpload_cases u seed now with ⟨s, hs, _, hstate, _⟩ | ⟨_, hsame, _⟩
    · rw [hstate]
      exact (h.endSession (h.filed.held hs).2.1.ne_nil).addFile ⟨seed, rfl⟩ rfl
    · rw [hsame]
      exact h
  | upload userId fileName contentType content seed now =>
    simp only [fileStep]
    rcases FileService.upload_cases config st userId fileName contentType content seed now with
      ⟨data, hid, hpath, hstate⟩ | hsame
    · rw [hstate]
      exact h.addFile ⟨seed, hid⟩ hpath
    · rw [hsame]
      exact h
  | cleanupExpiredSessions now =>
    obtain ⟨us, hus, hstate⟩ := h.cleanup_cases now
    simp only [fileStep, hstate]
    have hrun : UploadsOk config (run (File.endSession config) st us) :=
      run_invariant (fun _ _ h hu => h.endSession hu) h hus
    exact hrun
  | deleteFile f userId =>
    simp only [fileStep]
    by_cases hown : ∃ data, FileStore.getById st.db f = some data ∧ data.uploaderId = userId
    · obtain ⟨data, hf, hown⟩ := hown
      rw [FileService.deleteFile_owner hf hown]
      refine ⟨h.filed.delete hf, ?_⟩
      rw [uploads_deleteFile h.filed hf]
      exact h.sane
    · rw [FileService.deleteFile_refused (fun data hf hd => hown ⟨data, hf, hd⟩)]
      exact h

end UploadsOk

def fileAfter (config : FileConfig) (ops : List FileOp) : FileState :=
  run (fileStep config) {} ops

theorem fileAfter_uploads (config : FileConfig) (ops : List FileOp) :
    UploadsOk config (fileAfter config ops) :=
  run_invariant (Q := fun _ => True) (fun _ op h _ => h.step op) uploadsOk_empty (fun _ _ => trivial)

end SwiftChat.File
