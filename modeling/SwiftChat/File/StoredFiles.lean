import SwiftChat.File.Contents
import SwiftChat.File.Md5Index

/-! The stored files: what one call does to them, and what holds of them in every run. -/
namespace SwiftChat.File
open Base
variable {config : FileConfig} {st st' : FileState} {u f j : Bytes} {seed : FileIdSeed}
  {s : UploadSessionData} {data : FileMetaData} {ids ids' : List Bytes} {op : FileOp} {ops : List FileOp}
  {content : Bytes} {log : Bytes → List Bytes}

/-- The record of a file and its bytes on disk. -/
def StoredAs (st : FileState) (f : Bytes) (data : FileMetaData) (content : Bytes) : Prop :=
  FileStore.getById st.db f = some data ∧ st.disk.get data.storagePath = some content

/-- The records, the checksums and the bytes of the stored files are the same. -/
structure SameFiles (st st' : FileState) : Prop where
  record : ∀ f, FileStore.getById st'.db f = FileStore.getById st.db f
  entry : ∀ m, st'.db.get (keyFileMd5 m) = st.db.get (keyFileMd5 m)
  bytes : ∀ f data, FileStore.getById st.db f = some data →
    st'.disk.get data.storagePath = st.disk.get data.storagePath

namespace SameFiles

theorem refl (st : FileState) : SameFiles st st := ⟨fun _ => rfl, fun _ => rfl, fun _ _ _ => rfl⟩

theorem trans {st'' : FileState} (h : SameFiles st st') (h' : SameFiles st' st'') :
    SameFiles st st'' where
  record f := (h'.record f).trans (h.record f)
  entry m := (h'.entry m).trans (h.entry m)
  bytes f data hf :=
    (h'.bytes f data ((h.record f).trans hf)).trans (h.bytes f data hf)

theorem storedAs (h : SameFiles st st') : StoredAs st' f data content ↔ StoredAs st f data content := by
  unfold StoredAs
  rw [h.record]
  constructor
  · rintro ⟨hf, hd⟩
    exact ⟨hf, (h.bytes f data hf).symm.trans hd⟩
  · rintro ⟨hf, hd⟩
    exact ⟨hf, (h.bytes f data hf).trans hd⟩

theorem hasMd5 (h : SameFiles st st') {m : Bytes} : HasMd5 st'.db m f ↔ HasMd5 st.db m f := by
  unfold HasMd5
  rw [h.record]

theorem indexed (h : SameFiles st st') (hi : Indexed st.db) : Indexed st'.db where
  own f data hf := hi.own f data ((h.record f).symm.trans hf)
  entry m v hv := by
    rw [h.entry] at hv
    obtain ⟨hm, f, rfl, hf⟩ := hi.entry m v hv
    exact ⟨hm, f, rfl, h.hasMd5.mpr hf⟩

/-- Sessions are kept apart from files. -/
theorem saveUploadSession : SameFiles st { st with db := (FileStore.saveUploadSession st.db s).1 } where
  record f := FileStore.getById_saveUploadSession
  entry m := by
    simp only [FileStore.saveUploadSession]
    split
    · rfl
    · rw [OrderedMap.get_put_ne keyUpload_ne_keyFileMd5.symm]
  bytes _ _ _ := rfl

theorem endSession (h : Filed config st.db) : SameFiles st (endSession config st u) where
  record f := FileStore.getById_deleteUploadSession
  entry m := by
    simp only [File.endSession, FileStore.deleteUploadSession]
    split
    · rfl
    · rw [OrderedMap.get_delete_ne keyUpload_ne_keyFileMd5.symm]
  bytes f data hf := by
    obtain ⟨hid, hpath⟩ := h.file f data hf
    apply OrderedMap.get_delete_ne
    rw [hpath]
    exact hid.storagePath_ne

theorem initUpload (req : UploadRequest) (seed : FileIdSeed) (now : Int) :
    SameFiles st (FileService.initUpload config st req seed now).1 := by
  rw [FileService.initUpload_state]
  split
  · exact saveUploadSession
  · exact refl st

theorem appendChunk (h : UploadsOk config st) (u chunk : Bytes) :
    SameFiles st (FileService.appendChunk st u chunk).1 := by
  rcases h.appendChunk_cases u chunk with ⟨s, hs, _, happend, _⟩ | ⟨_, hsame, _⟩
  · rw [happend]
    refine saveUploadSession.trans ⟨fun _ => rfl, fun _ => rfl, ?_⟩
    intro f data hf
    rw [FileStore.getById_saveUploadSession] at hf
    obtain ⟨hid, hpath⟩ := h.filed.file f data hf
    apply OrderedMap.get_put_ne
    rw [hpath, (h.filed.held hs).2.2]
    exact hid.storagePath_ne
  · rw [hsame]
    exact refl st

theorem cleanup (h : UploadsOk config st) (now : Int) :
    SameFiles st (FileService.cleanupExpiredSessions st now) := by
  obtain ⟨us, hus, hstate⟩ := h.cleanup_cases now
  have hrun : Filed config (run (File.endSession config) st us).db ∧
      SameFiles st (run (File.endSession config) st us) := by
    refine run_invariant (I := fun st' => Filed config st'.db ∧ SameFiles st st') ?_
      ⟨h.filed, refl st⟩ hus
    rintro st' u ⟨hfiled, hsame⟩ _
    exact ⟨hfiled.deleteUploadSession, hsame.trans (endSession hfiled)⟩
  rw [hstate]
  exact hrun.2

end SameFiles

/-- The record a file uploaded in one call gets. -/
def uploadedMeta (config : FileConfig) (userId fileName contentType content : Bytes)
    (seed : FileIdSeed) (now : Int) : FileMetaData where
  fileId := generateFileId seed
  fileName := fileName
  contentType := contentType
  fileSize := content.length
  uploaderId := userId
  storagePath := buildStoragePath config (generateFileId seed)
  uploadedAt := now

/-- What a call stores: the bytes of a full session, or the bytes it was given. -/
inductive Stores (config : FileConfig) (st : FileState) : FileOp → FileMetaData → Bytes → Prop where
  | session {u s seed now} (hs : FileStore.getUploadSession st.db u = some s)
      (hfull : s.bytesWritten = s.fileSize) :
      Stores config st (.completeUpload u seed now)
        (s.toMeta (generateFileId seed) (buildStoragePath config (generateFileId seed)) now)
        (tempFile st.disk s)
  | given {userId fileName contentType content seed now} :
      Stores config st (.upload userId fileName contentType content seed now)
        (uploadedMeta config userId fileName contentType content seed now) content

theorem Stores.drawn (h : Stores config st op data content) :
    ∃ seed, op.seed = some seed ∧ data.fileId = generateFileId seed ∧
      data.storagePath = buildStoragePath config (generateFileId seed) := by
  cases h with
  | session hs hfull => exact ⟨_, rfl, rfl, rfl⟩
  | given => exact ⟨_, rfl, rfl, rfl⟩

/-- A call leaves the stored files alone, stores one, or deletes one. -/
theorem fileStep_files (h : UploadsOk config st) (op : FileOp) :
    SameFiles st (fileStep config st op) ∨
    (∃ st₀ data content, SameFiles st st₀ ∧ Filed config st₀.db ∧ Stores config st op data content ∧
      fileStep config st op = addFile st₀ data content) ∨
    (∃ f data, FileStore.getById st.db f = some data ∧ fileStep config st op =
      { db := (FileStore.delete st.db f).1, disk := st.disk.delete data.storagePath }) := by
  cases op with
  | initUpload req seed now => exact Or.inl (SameFiles.initUpload req seed now)
  | getUploadToken userId fileName fileSize seed now =>
    left
    simp only [fileStep, FileService.getUploadToken_state]
    exact SameFiles.initUpload _ seed now
  | appendChunk u chunk => exact Or.inl (SameFiles.appendChunk h u chunk)
  | completeUpload u seed now =>
    simp only [fileStep]
    rcases h.completeUpload_cases u seed now with ⟨s, hs, hfull, hstate, _⟩ | ⟨_, hsame, _⟩
    · right; left
      refine ⟨endSession config st u, _, _, SameFiles.endSession h.filed,
        h.filed.deleteUploadSession, .session hs hfull, ?_⟩
      rw [hstate, tempFile, (h.filed.held hs).2.2]
      rfl
    · rw [hsame]
      exact Or.inl (SameFiles.refl st)
  | upload userId fileName contentType content seed now =>
    simp only [fileStep, FileService.upload]
    split
    · exact Or.inl (SameFiles.refl st)
    · right; left
      refine ⟨st, _, _, SameFiles.refl st, h.filed, .given, ?_⟩
      simp [FileStore.save, FileService.generateFileId_ne_nil, addFile, uploadedMeta]
  | cleanupExpiredSessions now => exact Or.inl (SameFiles.cleanup h now)
  | deleteFile f userId =>
    simp only [fileStep]
    by_cases hown : ∃ data, FileStore.getById st.db f = some data ∧ data.uploaderId = userId
    · obtain ⟨data, hf, hown⟩ := hown
      rw [FileService.deleteFile_owner hf hown]
      exact Or.inr (Or.inr ⟨f, data, hf, rfl⟩)
    · rw [FileService.deleteFile_refused (fun data hf hd => hown ⟨data, hf, hd⟩)]
      exact Or.inl (SameFiles.refl st)

/-- The file that was just stored, and every other one. -/
theorem storedAs_addFile (h : Filed config st.db) (hid : IsFileId data.fileId)
    (hpath : data.storagePath = buildStoragePath config data.fileId) {data' : FileMetaData}
    {content' : Bytes} :
    StoredAs (addFile st data content) f data' content' ↔
      if f = data.fileId then data' = data ∧ content' = content else StoredAs st f data' content' := by
  unfold StoredAs addFile
  simp only [FileStore.getById_save hid.ne_nil]
  by_cases hf : f = data.fileId
  · simp only [if_pos hf, Option.some.injEq]
    constructor
    · rintro ⟨rfl, hd⟩
      rw [OrderedMap.get_put_self] at hd
      exact ⟨rfl, (Option.some.inj hd).symm⟩
    · rintro ⟨rfl, rfl⟩
      exact ⟨rfl, OrderedMap.get_put_self⟩
  · simp only [if_neg hf]
    apply and_congr_right
    intro hdata
    rw [OrderedMap.get_put_ne]
    rw [hpath, (h.file f data' hdata).2]
    exact fun he => hf (buildStoragePath_inj he)

theorem storedAs_deleteFile (h : Filed config st.db) (hf : FileStore.getById st.db f = some data)
    {data' : FileMetaData} {content' : Bytes} :
    StoredAs { db := (FileStore.delete st.db f).1, disk := st.disk.delete data.storagePath } j data'
      content' ↔ j ≠ f ∧ StoredAs st j data' content' := by
  unfold StoredAs
  simp only [FileStore.getById_delete hf]
  by_cases hj : j = f
  · simp [hj]
  · simp only [ne_eq, hj, not_false_eq_true, true_and, if_false]
    apply and_congr_right
    intro hdata
    rw [OrderedMap.get_delete_ne]
    rw [(h.file f data hf).2, (h.file j data' hdata).2]
    exact fun he => hj (buildStoragePath_inj he)

theorem drawnIds_eq (ops : List FileOp) :
    drawnIds ops = ops.flatMap fun op => drawnIds [op] := by
  induction ops with
  | nil => rfl
  | cons op ops ih => rw [drawnIds_cons, ih, List.flatMap_cons]

/-- Ids that are generated once only are new when they are. -/
theorem drawnIds_new (hfresh : (drawnIds ops).Nodup) :
    AllSteps (fun ids op => ids ++ drawnIds [op]) (fun ids op => ∀ i ∈ drawnIds [op], i ∉ ids)
      [] ops := by
  apply allSteps_new
  rw [← drawnIds_eq]
  exact hfresh

/-- What holds of the stored files after a run that has drawn the given ids, all of them new. -/
structure Stocked (config : FileConfig) (ids : List Bytes) (st : FileState) : Prop where
  ok : UploadsOk config st
  recorded : ∃ log, (uploads config st).Recorded ids log
  indexed : Indexed st.db
  drawn : ∀ f data, FileStore.getById st.db f = some data → f ∈ ids
  bytes : ∀ f data, FileStore.getById st.db f = some data →
    ∃ content, StoredAs st f data content ∧ (content.length : Int) = data.fileSize

namespace Stocked

theorem empty : Stocked config [] {} where
  ok := uploadsOk_empty
  recorded := ⟨fun _ => [], fun u s h => by simp [uploads, FileStore.getUploadSession] at h,
    fun _ _ => ⟨rfl, rfl⟩⟩
  indexed := Indexed.empty
  drawn f data h := by simp [FileStore.getById] at h
  bytes f data h := by simp [FileStore.getById] at h

/-- A session's temporary file is as long as its count. -/
theorem temp_length (h : Stocked config ids st) (hs : FileStore.getUploadSession st.db u = some s) :
    ((tempFile st.disk s).length : Int) = s.bytesWritten := by
  obtain ⟨log, hlog⟩ := h.recorded
  obtain ⟨_, htemp, hwritten⟩ := hlog.session u s hs
  rw [← hwritten, ← htemp, tempFile, (h.ok.filed.held hs).2.2]
  rfl

theorem stores_length (h : Stocked config ids st) (hnew : Stores config st op data content) :
    (content.length : Int) = data.fileSize := by
  cases hnew with
  | session hs hfull => exact (h.temp_length hs).trans hfull
  | given => rfl

theorem same (h : Stocked config ids st) (hsame : SameFiles st st') (hok : UploadsOk config st')
    (hrec : ∃ log, (uploads config st').Recorded ids log) : Stocked config ids st' where
  ok := hok
  recorded := hrec
  indexed := hsame.indexed h.indexed
  drawn f data hf := h.drawn f data ((hsame.record f).symm.trans hf)
  bytes f data hf := by
    obtain ⟨content, hstored, hlen⟩ := h.bytes f data ((hsame.record f).symm.trans hf)
    exact ⟨content, hsame.storedAs.mpr hstored, hlen⟩

theorem draw (h : Stocked config ids st) (more : List Bytes) : Stocked config (ids ++ more) st where
  ok := h.ok
  recorded := by
    obtain ⟨log, hlog⟩ := h.recorded
    exact ⟨log, hlog.draw more⟩
  indexed := h.indexed
  drawn f data hf := List.mem_append_left _ (h.drawn f data hf)
  bytes := h.bytes

/-- A file under a new id is stored. -/
theorem added {st₀ : FileState} (h : Stocked config ids st) (hsame : SameFiles st st₀)
    (hfiled : Filed config st₀.db) (hid : IsFileId data.fileId)
    (hpath : data.storagePath = buildStoragePath config data.fileId)
    (hlen : (content.length : Int) = data.fileSize) (hnew : data.fileId ∉ ids)
    (hin : data.fileId ∈ ids') (hsub : ids ⊆ ids') (hok : UploadsOk config (addFile st₀ data content))
    (hrec : ∃ log, (uploads config (addFile st₀ data content)).Recorded ids' log) :
    Stocked config ids' (addFile st₀ data content) where
  ok := hok
  recorded := hrec
  indexed := by
    refine (hsame.indexed h.indexed).save ?_
    rw [hsame.record]
    cases hget : FileStore.getById st.db data.fileId with
    | none => rfl
    | some old => exact absurd (h.drawn _ old hget) hnew
  drawn f data' hf := by
    rw [addFile, FileStore.getById_save hid.ne_nil] at hf
    split at hf
    · rename_i he
      exact he ▸ hin
    · exact hsub (h.drawn f data' ((hsame.record f).symm.trans hf))
  bytes f data' hf := by
    rw [addFile, FileStore.getById_save hid.ne_nil] at hf
    simp only [storedAs_addFile hfiled hid hpath]
    split at hf
    · rename_i he
      obtain rfl := Option.some.inj hf
      exact ⟨content, by simp [he], hlen⟩
    · rename_i he
      obtain ⟨old, hstored, hlen⟩ := h.bytes f data' ((hsame.record f).symm.trans hf)
      exact ⟨old, by simpa [he] using hsame.storedAs.mpr hstored, hlen⟩

/-- A file is deleted. -/
theorem deleted (h : Stocked config ids st) {f : Bytes} (hf : FileStore.getById st.db f = some data)
    (hstate : st' = { db := (FileStore.delete st.db f).1, disk := st.disk.delete data.storagePath })
    (hsub : ids ⊆ ids') (hok : UploadsOk config st')
    (hrec : ∃ log, (uploads config st').Recorded ids' log) : Stocked config ids' st' := by
  subst hstate
  refine ⟨hok, hrec, h.indexed.delete f, ?_, ?_⟩
  · intro j data' hj
    rw [FileStore.getById_delete hf] at hj
    split at hj
    · cases hj
    · exact hsub (h.drawn j data' hj)
  · intro j data' hj
    rw [FileStore.getById_delete hf] at hj
    split at hj
    · cases hj
    · rename_i hne
      obtain ⟨content, hstored, hlen⟩ := h.bytes j data' hj
      exact ⟨content, (storedAs_deleteFile h.ok.filed hf).mpr ⟨hne, hstored⟩, hlen⟩

/-- A call draws new ids and keeps the rest. -/
theorem step (h : Stocked config ids st) (op : FileOp) (hfresh : ∀ i ∈ drawnIds [op], i ∉ ids) :
    Stocked config (ids ++ drawnIds [op]) (fileStep config st op) := by
  obtain ⟨log, hlog⟩ := h.recorded
  have hok := h.ok.step op
  have hrec : ∃ log, (uploads config (fileStep config st op)).Recorded (ids ++ drawnIds [op]) log :=
    ⟨_, recorded_step h.ok hlog op hfresh⟩
  have hsub : ids ⊆ ids ++ drawnIds [op] := List.subset_append_left _ _
  rcases fileStep_files h.ok op with hsame | ⟨st₀, data, content, hsame, hfiled, hnew, hstate⟩ |
      ⟨f, data, hf, hstate⟩
  · exact (h.draw _).same hsame hok hrec
  · obtain ⟨seed, hseed, hid, hpath⟩ := hnew.drawn
    have hdrawn : data.fileId ∈ drawnIds [op] := by simp [drawnIds, hseed, hid]
    rw [hstate] at hok hrec ⊢
    exact h.added hsame hfiled ⟨seed, hid⟩ (hid ▸ hpath) (h.stores_length hnew) (hfresh _ hdrawn)
      (List.mem_append_right _ hdrawn) hsub hok hrec
  · exact h.deleted hf hstate hsub hok hrec

end Stocked

end SwiftChat.File
