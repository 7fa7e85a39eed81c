import SwiftChat.File.UploadInvariant

/-! What a run has acknowledged of an upload, and what is read of the stored file, from the end of
the upload until the deletion. -/
namespace SwiftChat.File
open Base
variable {config : FileConfig} {st : FileState} {u f : Bytes} {seed : FileIdSeed}
  {s : UploadSessionData} {data : FileMetaData} {ids : List Bytes} {op : FileOp} {ops : List FileOp}
  {log : Bytes → List Bytes} {content chunk : Bytes} {A : Uploads}

/-- The ids the calls of a run generate. -/
def drawnIds (ops : List FileOp) : List Bytes := ops.filterMap fun op => op.seed.map generateFileId

theorem drawnIds_append (ops ops' : List FileOp) :
    drawnIds (ops ++ ops') = drawnIds ops ++ drawnIds ops' := List.filterMap_append

theorem drawnIds_cons (op : FileOp) (ops : List FileOp) :
    drawnIds (op :: ops) = drawnIds [op] ++ drawnIds ops := drawnIds_append [op] ops

/-- The first call of a run draws new ids, and so does the rest. -/
theorem fresh_cons (h : (ids ++ drawnIds (op :: ops)).Nodup) :
    (∀ i ∈ drawnIds [op], i ∉ ids) ∧ ((ids ++ drawnIds [op]) ++ drawnIds ops).Nodup := by
  rw [drawnIds_cons, ← List.append_assoc] at h
  refine ⟨?_, h⟩
  intro i hi hmem
  exact List.disjoint_of_nodup_append (List.nodup_append.mp h).1 hmem hi

/-- The chunk a call has acknowledged for an upload. -/
def ackedBy (u : Bytes) (st : FileState) : FileOp → List Bytes
  | .appendChunk j chunk =>
    if j = u ∧ (FileService.appendChunk st j chunk).2.success then [chunk] else []
  | _ => []

/-- The chunks a run has acknowledged for an upload, in order. -/
def acked (config : FileConfig) (u : Bytes) : FileState → List FileOp → List Bytes
  | _, [] => []
  | st, op :: ops => ackedBy u st op ++ acked config u (fileStep config st op) ops

namespace Uploads

/-- The uploads after the given ids were drawn and the given chunks acknowledged. -/
structure Recorded (ids : List Bytes) (log : Bytes → List Bytes) (A : Uploads) : Prop where
  session : ∀ u s, A.session u = some s →
    u ∈ ids ∧ A.temp u = (log u).flatten ∧ ((log u).flatten.length : Int) = s.bytesWritten
  unused : ∀ i, i ∉ ids → log i = [] ∧ A.temp i = []

namespace Recorded

theorem draw (h : A.Recorded ids log) (more : List Bytes) : A.Recorded (ids ++ more) log where
  session u s hs := by
    obtain ⟨hu, hrest⟩ := h.session u s hs
    exact ⟨List.mem_append_left _ hu, hrest⟩
  unused i hi := h.unused i (fun hmem => hi (List.mem_append_left _ hmem))

/-- A new session must not find anything under its id. -/
theorem start (h : A.Recorded ids log) (hfresh : s.uploadId ∉ ids) (hzero : s.bytesWritten = 0) :
    (A.start s).Recorded (ids ++ [s.uploadId]) log where
  session u s' hs := by
    by_cases hu : u = s.uploadId
    · subst hu
      simp only [Uploads.start, Function.update_self] at hs
      obtain rfl := Option.some.inj hs
      obtain ⟨hlog, htemp⟩ := h.unused _ hfresh
      refine ⟨List.mem_append_right _ (List.mem_singleton.mpr rfl), ?_, ?_⟩
      · simpa [Uploads.start, hlog] using htemp
      · simp [hlog, hzero]
    · simp only [Uploads.start, Function.update_of_ne hu] at hs
      exact (h.draw _).session u s' hs
  unused := (h.draw _).unused

theorem push (h : A.Recorded ids log) (hs : A.session u = some s) :
    (A.push u chunk).Recorded ids (Function.update log u (log u ++ [chunk])) := by
  obtain ⟨hu, htemp, hwritten⟩ := h.session u s hs
  constructor
  · intro j s' hj
    by_cases he : j = u
    · subst he
      simp only [Uploads.push, Function.update_self, hs, Option.map_some] at hj
      obtain rfl := Option.some.inj hj
      refine ⟨hu, ?_, ?_⟩
      · simp [Uploads.push, htemp]
      · rw [Function.update_self, List.flatten_append, List.length_append, Int.natCast_add, hwritten]
        simp
    · simp only [Uploads.push, Function.update_of_ne he] at hj ⊢
      exact h.session j s' hj
  · intro i hi
    have he : i ≠ u := fun he => hi (he ▸ hu)
    simp only [Uploads.push, Function.update_of_ne he]
    exact h.unused i hi

theorem finish (h : A.Recorded ids log) : (A.finish u).Recorded ids log where
  session j s hj := by
    by_cases he : j = u
    · subst he
      simp only [Uploads.finish, Function.update_self] at hj
      cases hj
    · simp only [Uploads.finish, Function.update_of_ne he] at hj ⊢
      exact h.session j s hj
  unused i hi := by
    obtain ⟨hlog, htemp⟩ := h.unused i hi
    refine ⟨hlog, ?_⟩
    by_cases he : i = u
    · simp [Uploads.finish, he]
    · simpa [Uploads.finish, Function.update_of_ne he] using htemp

end Recorded

end Uploads

/-! The calls one by one. -/

theorem recorded_initUpload (h : (uploads config st).Recorded ids log) (req : UploadRequest)
    (seed : FileIdSeed) (now : Int) (hseed : generateFileId seed ∉ ids) :
    (uploads config (FileService.initUpload config st req seed now).1).Recorded
      (ids ++ [generateFileId seed]) log := by
  rw [FileService.initUpload_state]
  split
  · rw [uploads_start FileService.generateFileId_ne_nil]
    exact h.start (s := newUploadSession config req (generateFileId seed) now) hseed rfl
  · exact h.draw _

theorem recorded_appendChunk (hok : UploadsOk config st) (h : (uploads config st).Recorded ids log)
    (u chunk : Bytes) :
    (uploads config (FileService.appendChunk st u chunk).1).Recorded ids
      (fun j => log j ++ ackedBy j st (.appendChunk u chunk)) := by
  rcases hok.appendChunk_cases u chunk with ⟨s, hs, _, happend, hview⟩ | ⟨_, hstate, hfail⟩
  · have hlog : (fun j => log j ++ ackedBy j st (.appendChunk u chunk)) =
        Function.update log u (log u ++ [chunk]) := by
      funext j
      by_cases hj : u = j
      · subst hj
        simp [ackedBy, happend]
      · simp [ackedBy, hj, Function.update_of_ne (Ne.symm hj)]
    rw [hlog, hview]
    exact h.push hs
  · simpa [ackedBy, hfail, hstate] using h

theorem recorded_completeUpload (hok : UploadsOk config st)
    (h : (uploads config st).Recorded ids log) (u : Bytes) (seed : FileIdSeed) (now : Int) :
    (uploads config (FileService.completeUpload config st u seed now).1).Recorded ids log := by
  rcases hok.completeUpload_cases u seed now with ⟨s, hs, _, hstate, _⟩ | ⟨_, hstate, _⟩
  · rw [hstate, uploads_addFile ⟨seed, rfl⟩ rfl, uploads_endSession (hok.filed.held hs).2.1.ne_nil]
    exact h.finish
  · rw [hstate]
    exact h

theorem recorded_upload (h : (uploads config st).Recorded ids log)
    (userId fileName contentType content : Bytes) (seed : FileIdSeed) (now : Int) :
    (uploads config
      (FileService.upload config st userId fileName contentType content seed now).1).Recorded
        ids log := by
  rcases FileService.upload_cases config st userId fileName contentType content seed now with
    ⟨data, hid, hpath, hstate⟩ | hstate
  · rw [hstate, uploads_addFile ⟨seed, hid⟩ hpath]
    exact h
  · rw [hstate]
    exact h

theorem recorded_cleanup (hok : UploadsOk config st) (h : (uploads config st).Recorded ids log)
    (now : Int) :
    (uploads config (FileService.cleanupExpiredSessions st now)).Recorded ids log := by
  obtain ⟨us, hus, hstate⟩ := hok.cleanup_cases now
  rw [hstate]
  refine run_invariant (I := fun st => (uploads config st).Recorded ids log) ?_ h hus
  intro st u h hu
  rw [uploads_endSession hu]
  exact h.finish

theorem recorded_deleteFile (hok : UploadsOk config st) (h : (uploads config st).Recorded ids log)
    (f userId : Bytes) :
    (uploads config (FileService.deleteFile st f userId).1).Recorded ids log := by
  by_cases hown : ∃ data, FileStore.getById st.db f = some data ∧ data.uploaderId = userId
  · obtain ⟨data, hf, hown⟩ := hown
    rw [FileService.deleteFile_owner hf hown, uploads_deleteFile hok.filed hf]
    exact h
  · rw [FileService.deleteFile_refused (fun data hf hd => hown ⟨data, hf, hd⟩)]
    exact h

theorem recorded_step (hok : UploadsOk config st) (h : (uploads config st).Recorded ids log)
    (op : FileOp) (hfresh : ∀ i ∈ drawnIds [op], i ∉ ids) :
    (uploads config (fileStep config st op)).Recorded (ids ++ drawnIds [op])
      (fun u => log u ++ ackedBy u st op) := by
  have hsame := h.draw (drawnIds [op])
  cases op with
  | initUpload req seed now =>
    have hseed := hfresh (generateFileId seed) (by simp [drawnIds, FileOp.seed])
    simpa [drawnIds, FileOp.seed, ackedBy, fileStep] using recorded_initUpload h req seed now hseed
  | getUploadToken userId fileName fileSize seed now =>
    have hseed := hfresh (generateFileId seed) (by simp [drawnIds, FileOp.seed])
    simp only [fileStep, FileService.getUploadToken_state]
    simpa [drawnIds, FileOp.seed, ackedBy] using recorded_initUpload h
      { userId := userId, fileName := fileName, fileSize := fileSize } seed now hseed
  | appendChunk u chunk => exact recorded_appendChunk hok hsame u chunk
  | completeUpload u seed now =>
    simpa only [ackedBy, List.append_nil, fileStep] using recorded_completeUpload hok hsame u seed now
  | upload userId fileName contentType content seed now =>
    simpa only [ackedBy, List.append_nil, fileStep] using
      recorded_upload hsame userId fileName contentType content seed now
  | cleanupExpiredSessions now =>
    simpa only [ackedBy, List.append_nil, fileStep] using recorded_cleanup hok hsame now
  | deleteFile f userId =>
    simpa only [ackedBy, List.append_nil, fileStep] using recorded_deleteFile hok hsame f userId

/-- A run whose ids are all new. -/
theorem recorded_run (hok : UploadsOk config st) (h : (uploads config st).Recorded ids log)
    (hfresh : (ids ++ drawnIds ops).Nodup) :
    (uploads config (run (fileStep config) st ops)).Recorded (ids ++ drawnIds ops)
      (fun u => log u ++ acked config u st ops) := by
  induction ops generalizing ids log st with
  | nil => simpa [drawnIds, acked, run] using h
  | cons op ops ih =>
    obtain ⟨hop, hops⟩ := fresh_cons hfresh
    have htail := ih (hok.step op) (recorded_step hok h op hop) hops
    rw [drawnIds_cons]
    simp only [List.append_assoc] at htail ⊢
    exact htail

theorem fileAfter_recorded (config : FileConfig) (hfresh : (drawnIds ops).Nodup) :
    (uploads config (fileAfter config ops)).Recorded (drawnIds ops)
      (fun u => acked config u {} ops) := by
  have hempty : (uploads config {}).Recorded [] (fun _ => []) :=
    ⟨fun u s h => by simp [uploads, FileStore.getUploadSession] at h, fun i _ => ⟨rfl, rfl⟩⟩
  have h := recorded_run uploadsOk_empty hempty (by simpa using hfresh)
  simp only [List.nil_append] at h
  exact h

/-- The call is no deletion of the file that succeeds. -/
def KeepsFile (f : Bytes) (st : FileState) : FileOp → Prop
  | .deleteFile f' userId => f' = f → (FileService.deleteFile st f' userId).2 = false
  | _ => True

/-- A stored file whose record and content are left alone. -/
theorem readFile_congr {st' : FileState}
    (hf : FileStore.getById st'.db f = FileStore.getById st.db f)
    (hd : ∀ data, FileStore.getById st.db f = some data →
      st'.disk.get data.storagePath = st.disk.get data.storagePath) :
    FileService.readFile st' f = FileService.readFile st f := by
  unfold FileService.readFile
  rw [hf]
  cases hget : FileStore.getById st.db f with
  | none => rfl
  | some data =>
    simp only
    rw [hd data hget]

theorem readFile_endSession (h : Filed config st.db) :
    FileService.readFile (endSession config st u) f = FileService.readFile st f := by
  refine readFile_congr FileStore.getById_deleteUploadSession ?_
  intro data hf
  obtain ⟨hid, hpath⟩ := h.file f data hf
  apply OrderedMap.get_delete_ne
  rw [hpath]
  exact hid.storagePath_ne

theorem readFile_addFile (h : Filed config st.db) (hid : IsFileId data.fileId)
    (hpath : data.storagePath = buildStoragePath config data.fileId) (hf : f ≠ data.fileId) :
    FileService.readFile (addFile st data content) f = FileService.readFile st f := by
  refine readFile_congr ?_ ?_
  · rw [addFile, FileStore.getById_save hid.ne_nil, if_neg hf]
  · intro data' hdata
    apply OrderedMap.get_put_ne
    rw [hpath, (h.file f data' hdata).2]
    exact fun he => hf (buildStoragePath_inj he)

/-- Reading what was just stored. -/
theorem readFile_added (hid : data.fileId ≠ []) :
    FileService.readFile (addFile st data content) data.fileId =
      some (content, data.contentType, data.fileName) := by
  unfold FileService.readFile
  simp only [addFile, FileStore.getById_save hid, if_true]
  rw [OrderedMap.get_put_self]

theorem readFile_initUpload (req : UploadRequest) (seed : FileIdSeed) (now : Int) :
    FileService.readFile (FileService.initUpload config st req seed now).1 f =
      FileService.readFile st f := by
  rw [FileService.initUpload_state]
  split
  · exact readFile_congr FileStore.getById_saveUploadSession (fun _ _ => rfl)
  · rfl

theorem readFile_appendChunk (hok : UploadsOk config st) (u chunk : Bytes) :
    FileService.readFile (FileService.appendChunk st u chunk).1 f = FileService.readFile st f := by
  rcases hok.appendChunk_cases u chunk with ⟨s, hs, _, happend, _⟩ | ⟨_, hsame, _⟩
  · rw [happend]
    refine readFile_congr FileStore.getById_saveUploadSession ?_
    intro data hdata
    obtain ⟨hid, hpath⟩ := hok.filed.file f data hdata
    apply OrderedMap.get_put_ne
    rw [hpath, (hok.filed.held hs).2.2]
    exact hid.storagePath_ne
  · rw [hsame]

theorem readFile_completeUpload (hok : UploadsOk config st) (u : Bytes) (seed : FileIdSeed) (now : Int)
    (hother : f ≠ generateFileId seed) :
    FileService.readFile (FileService.completeUpload config st u seed now).1 f =
      FileService.readFile st f := by
  rcases hok.completeUpload_cases u seed now with ⟨s, hs, _, hstate, _⟩ | ⟨_, hsame, _⟩
  · have hended := hok.endSession (hok.filed.held hs).2.1.ne_nil
    rw [hstate, readFile_addFile hended.filed ⟨seed, rfl⟩ rfl hother]
    exact readFile_endSession hok.filed
  · rw [hsame]

theorem readFile_cleanup (hok : UploadsOk config st) (now : Int) :
    FileService.readFile (FileService.cleanupExpiredSessions st now) f = FileService.readFile st f := by
  obtain ⟨us, hus, hstate⟩ := hok.cleanup_cases now
  have hrun : Filed config (run (endSession config) st us).db ∧
      FileService.readFile (run (endSession config) st us) f = FileService.readFile st f := by
    refine run_invariant (I := fun st' => Filed config st'.db ∧
      FileService.readFile st' f = FileService.readFile st f) ?_ ⟨hok.filed, rfl⟩ hus
    rintro st' u ⟨hfiled, hread⟩ _
    exact ⟨hfiled.deleteUploadSession, (readFile_endSession hfiled).trans hread⟩
  rw [hstate]
  exact hrun.2

theorem readFile_deleteFile {f' userId : Bytes} (hok : UploadsOk config st)
    (hkeep : KeepsFile f st (.deleteFile f' userId)) :
    FileService.readFile (FileService.deleteFile st f' userId).1 f = FileService.readFile st f := by
  by_cases hown : ∃ data, FileStore.getById st.db f' = some data ∧ data.uploaderId = userId
  · obtain ⟨data, hdata, hown⟩ := hown
    have hne : f ≠ f' := by
      rintro rfl
      have hrefused := hkeep rfl
      simp [FileService.deleteFile, hdata, hown, FileStore.delete] at hrefused
    rw [FileService.deleteFile_owner hdata hown]
    refine readFile_congr ?_ ?_
    · rw [FileStore.getById_delete hdata, if_neg hne]
    · intro data' hdata'
      apply OrderedMap.get_delete_ne
      rw [(hok.filed.file f data' hdata').2, (hok.filed.file f' data hdata).2]
      exact fun he => hne (buildStoragePath_inj he)
  · rw [FileService.deleteFile_refused (fun data hf hd => hown ⟨data, hf, hd⟩)]

/-- Only a deletion changes what is read of a stored file. -/
theorem readFile_step (hok : UploadsOk config st) (op : FileOp) (hfresh : f ∉ drawnIds [op])
    (hkeep : KeepsFile f st op) :
    FileService.readFile (fileStep config st op) f = FileService.readFile st f := by
  have hother : ∀ seed, op.seed = some seed → f ≠ generateFileId seed := by
    intro seed hseed he
    exact hfresh (by simp [drawnIds, hseed, he])
  cases op with
  | initUpload req seed now => exact readFile_initUpload req seed now
  | getUploadToken userId fileName fileSize seed now =>
    simp only [fileStep, FileService.getUploadToken_state]
    exact readFile_initUpload _ seed now
  | appendChunk u chunk => exact readFile_appendChunk hok u chunk
  | completeUpload u seed now => exact readFile_completeUpload hok u seed now (hother seed rfl)
  | upload userId fileName contentType content seed now =>
    simp only [fileStep]
    rcases FileService.upload_cases config st userId fileName contentType content seed now with
      ⟨data, hid, hpath, hstate⟩ | hsame
    · rw [hstate]
      refine readFile_addFile hok.filed ⟨seed, hid⟩ hpath ?_
      rw [hid]
      exact hother seed rfl
    · rw [hsame]
  | cleanupExpiredSessions now => exact readFile_cleanup hok now
  | deleteFile f' userId => exact readFile_deleteFile hok hkeep

theorem readFile_run (hok : UploadsOk config st) (hfresh : f ∉ drawnIds ops)
    (hkeep : AllSteps (fileStep config) (KeepsFile f) st ops) :
    FileService.readFile (run (fileStep config) st ops) f = FileService.readFile st f := by
  induction ops generalizing st with
  | nil => rfl
  | cons op ops ih =>
    rw [drawnIds_cons, List.mem_append, not_or] at hfresh
    obtain ⟨hfirst, hrest⟩ := hkeep
    exact (ih (hok.step op) hfresh.2 hrest).trans (readFile_step hok op hfresh.1 hfirst)

/-- The bytes on disk for a session; a file that was never written to counts as empty. -/
def tempFile (disk : Disk) (s : UploadSessionData) : Bytes := (disk.get s.tempPath).getD []

/-- After a completed upload, its file holds the chunks acknowledged for it until it is deleted. -/
theorem completed_read {before later : List FileOp} {now : Int}
    (hfresh : (drawnIds (before ++ .completeUpload u seed now :: later)).Nodup)
    (hok : (FileService.completeUpload config (fileAfter config before) u seed now).2.success = true)
    (hkeep : AllSteps (fileStep config)
      (KeepsFile (FileService.completeUpload config (fileAfter config before) u seed now).2.fileId)
      (fileStep config (fileAfter config before) (.completeUpload u seed now)) later) :
    ∃ s, FileStore.getUploadSession (fileAfter config before).db u = some s ∧
      FileService.readFile (fileAfter config (before ++ .completeUpload u seed now :: later))
          (FileService.completeUpload config (fileAfter config before) u seed now).2.fileId =
        some ((acked config u {} before).flatten, s.contentType, s.fileName) ∧
      ((acked config u {} before).flatten.length : Int) = s.fileSize := by
  rw [drawnIds_append] at hfresh
  have hok' := fileAfter_uploads config before
  obtain ⟨_, hops⟩ := fresh_cons hfresh
  have hnew : generateFileId seed ∉ drawnIds later := by
    rw [List.append_assoc] at hops
    intro hmem
    have hnodup := (List.nodup_append.mp hops).2.1
    exact List.disjoint_of_nodup_append hnodup (by simp [drawnIds, FileOp.seed]) hmem
  rcases hok'.completeUpload_cases u seed now with
    ⟨s, hs, hfull, hstate, _, hid⟩ | ⟨_, _, hfail⟩
  · obtain ⟨_, htemp, hwritten⟩ :=
      (fileAfter_recorded config (List.nodup_append.mp hfresh).1).session u s hs
    refine ⟨s, hs, ?_, ?_⟩
    · rw [hid] at hkeep ⊢
      have hlater := readFile_run (hok'.step (.completeUpload u seed now)) hnew hkeep
      have hread : FileService.readFile
          (fileStep config (fileAfter config before) (.completeUpload u seed now))
          (generateFileId seed) =
            some ((acked config u {} before).flatten, s.contentType, s.fileName) := by
        simp only [fileStep, hstate, htemp]
        exact readFile_added FileService.generateFileId_ne_nil
      rw [← hread, ← hlater, fileAfter, run, List.foldl_append]
      rfl
    · rw [← hfull]
      exact hwritten
  · rw [hfail] at hok
    cases hok

/-- In every run whose generated ids are new, every session's temporary file is what was
acknowledged for it, and every completed upload is read back as that until it is deleted. -/
theorem upload_contents (config : FileConfig) (ops : List FileOp)
    (hfresh : (drawnIds ops).Nodup) :
    (∀ u s, FileStore.getUploadSession (fileAfter config ops).db u = some s →
      tempFile (fileAfter config ops).disk s = (acked config u {} ops).flatten ∧
      ((tempFile (fileAfter config ops).disk s).length : Int) = s.bytesWritten ∧
      s.bytesWritten ≤ s.fileSize ∧ s.fileSize ≤ config.maxFileSize) ∧
    ∀ before u seed now later, ops = before ++ .completeUpload u seed now :: later →
      (FileService.completeUpload config (fileAfter config before) u seed now).2.success = true →
      AllSteps (fileStep config)
        (KeepsFile (FileService.completeUpload config (fileAfter config before) u seed now).2.fileId)
        (fileStep config (fileAfter config before) (.completeUpload u seed now)) later →
      ∃ s, FileStore.getUploadSession (fileAfter config before).db u = some s ∧
        FileService.readFile (fileAfter config ops)
            (FileService.completeUpload config (fileAfter config before) u seed now).2.fileId =
          some ((acked config u {} before).flatten, s.contentType, s.fileName) ∧
        ((acked config u {} before).flatten.length : Int) = s.fileSize := by
  refine ⟨?_, ?_⟩
  · intro u s hs
    obtain ⟨_, htemp, hwritten⟩ := (fileAfter_recorded config hfresh).session u s hs
    obtain ⟨_, hbound, hsize⟩ := (fileAfter_uploads config ops).sane u s hs
    have hfile : tempFile (fileAfter config ops).disk s = (acked config u {} ops).flatten := by
      rw [tempFile, ((fileAfter_uploads config ops).filed.held hs).2.2]
      exact htemp
    exact ⟨hfile, by rw [hfile, hwritten], hbound, hsize.2⟩
  · rintro before u seed now later rfl hok hkeep
    exact completed_read hfresh hok hkeep

/-- Sixteen equal bytes. -/
def seedOf (b : UInt8) : FileIdSeed := ⟨List.replicate 16 b, by simp⟩

/-- Two uploads in turn; a chunk of the first does not fit, and the second is never completed. -/
def twoUploads : List FileOp :=
  [.initUpload { userId := str "a", fileName := str "n", fileSize := 4 } (seedOf 1) 10,
   .initUpload { userId := str "b", fileName := str "m", fileSize := 9 } (seedOf 2) 11,
   .appendChunk (generateFileId (seedOf 1)) (str "ab"),
   .appendChunk (generateFileId (seedOf 2)) (str "xyz"),
   .appendChunk (generateFileId (seedOf 1)) (str "too long"),
   .appendChunk (generateFileId (seedOf 1)) (str "cd")]

/-- What comes after the first upload is completed. -/
def afterwards : List FileOp :=
  [.cleanupExpiredSessions 1000000, .upload (str "a") (str "k") [] (str "other") (seedOf 4) 1000001,
   .deleteFile (generateFileId (seedOf 3)) (str "b")]

/-- The first upload is read back as the two chunks that were acknowledged. -/
theorem upload_contents_two : ∃ s : UploadSessionData, FileService.readFile
    (fileAfter {} (twoUploads ++ .completeUpload (generateFileId (seedOf 1)) (seedOf 3) 12 ::
      afterwards)) (generateFileId (seedOf 3)) = some (str "abcd", s.contentType, s.fileName) := by
  obtain ⟨s, _, hread, _⟩ := (upload_contents {} _ (by decide +kernel)).2 twoUploads
    (generateFileId (seedOf 1)) (seedOf 3) 12 afterwards rfl (by decide +kernel)
    ⟨trivial, trivial, fun _ => by decide +kernel, trivial⟩
  have hid : (FileService.completeUpload {} (fileAfter {} twoUploads) (generateFileId (seedOf 1))
      (seedOf 3) 12).2.fileId = generateFileId (seedOf 3) := by decide +kernel
  have hacked : (acked {} (generateFileId (seedOf 1)) {} twoUploads).flatten = str "abcd" := by
    decide +kernel
  rw [hid, hacked] at hread
  exact ⟨s, hread⟩

end SwiftChat.File
