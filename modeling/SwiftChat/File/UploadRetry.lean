import SwiftChat.File.StoredFiles
import SwiftChat.File.UploadFaults

/-! What a failed call on an upload leaves for the next attempt. -/
namespace SwiftChat.File
open Base

/-- A call of the file service; the steps of the calls on an upload may fail. -/
inductive FaultyOp where
  | appendChunk (uploadId chunk : Bytes) (tape : Tape)
  | completeUpload (uploadId : Bytes) (seed : FileIdSeed) (now : Int) (tape : Tape)
  | call (op : FileOp)

def faultyStep (config : FileConfig) (st : FileState) : FaultyOp → FileState
  | .appendChunk uploadId chunk tape => (runIo (IoProg.appendChunk uploadId chunk) tape st).1
  | .completeUpload uploadId seed now tape =>
    (runIo (IoProg.completeUpload config uploadId seed now) tape st).1
  | .call op => fileStep config st op

/-- The ids a call generates. -/
def FaultyOp.drawn : FaultyOp → List Bytes
  | .appendChunk _ _ _ => []
  | .completeUpload _ seed _ _ => [generateFileId seed]
  | .call op => drawnIds [op]

/-- The session and the bytes of its temporary file are as before, and agree. The next attempt at a
chunk or at the completion goes as it would have gone before. -/
structure Kept (config : FileConfig) (u : Bytes) (st st' : FileState) : Prop where
  session : FileStore.getUploadSession st'.db u = FileStore.getUploadSession st.db u
  bytes : ∀ s, FileStore.getUploadSession st.db u = some s →
    tempFile st'.disk s = tempFile st.disk s ∧ ((tempFile st'.disk s).length : Int) = s.bytesWritten
  chunk : ∀ chunk, (FileService.appendChunk st' u chunk).2 = (FileService.appendChunk st u chunk).2 ∧
    ∀ s, FileStore.getUploadSession st.db u = some s →
      tempFile (FileService.appendChunk st' u chunk).1.disk s =
        tempFile (FileService.appendChunk st u chunk).1.disk s
  completion : ∀ seed now, (FileService.completeUpload config st' u seed now).2 =
      (FileService.completeUpload config st u seed now).2 ∧
    ((FileService.completeUpload config st u seed now).2.success = true →
      FileService.readFile (FileService.completeUpload config st' u seed now).1 (generateFileId seed) =
        FileService.readFile (FileService.completeUpload config st u seed now).1 (generateFileId seed))

/-- A call on an upload that answers an error leaves the upload as it was. -/
def LeavesUpload (config : FileConfig) (st : FileState) : FaultyOp → Prop
  | .appendChunk u chunk tape =>
    let r := runIo (IoProg.appendChunk u chunk) tape st
    r.2.success = false → Kept config u st r.1
  | .completeUpload u seed now tape =>
    let r := runIo (IoProg.completeUpload config u seed now) tape st
    r.2.success = false → Kept config u st r.1
  | .call _ => True

/-- Of a chunk that fits, nothing is on disk when the call fails; a file that was moved can be
recorded. -/
def Harmless (st : FileState) : FaultyOp → Prop
  | .appendChunk u chunk tape => ∀ s, FileStore.getUploadSession st.db u = some s →
      s.bytesWritten + chunk.length ≤ s.fileSize → ∀ extra, failedAppend chunk tape = some extra →
        extra = []
  | .completeUpload u _ _ tape => ∀ s, FileStore.getUploadSession st.db u = some s →
      s.bytesWritten = s.fileSize → ¬ LosesFile tape
  | .call _ => True

/-- The session of a completed upload can be deleted. -/
def EndsSession (st : FileState) : FaultyOp → Prop
  | .completeUpload u _ _ tape => ∀ s, FileStore.getUploadSession st.db u = some s →
      s.bytesWritten = s.fileSize → ¬ LeavesSession tape
  | _ => True

variable {config : FileConfig} {st st' : FileState} {u chunk content : Bytes} {seed : FileIdSeed}
  {now : Int} {s : UploadSessionData} {tape : Tape} {ids : List Bytes} {op : FaultyOp}
  {log : Bytes → List Bytes}

theorem completeUpload_content (config : FileConfig) (seed : FileIdSeed) (now : Int)
    (hs : FileStore.getUploadSession st.db u = some s)
    (hfull : s.bytesWritten = s.fileSize) (hfile : st.disk.get s.tempPath = some content) :
    (FileService.completeUpload config st u seed now).2 =
      { success := true, fileId := generateFileId seed
        fileUrl := buildFileUrl config (generateFileId seed) } ∧
    FileService.readFile (FileService.completeUpload config st u seed now).1 (generateFileId seed) =
      some (content, s.contentType, s.fileName) := by
  generalize hdata : s.toMeta (generateFileId seed)
    (buildStoragePath config (generateFileId seed)) now = data
  have hid : data.fileId = generateFileId seed := by
    rw [← hdata]
    rfl
  have hsaved : (FileStore.save st.db data).2 = true := by
    simp [FileStore.save, hid, FileService.generateFileId_ne_nil]
  have hnew : data.fileId ≠ [] := by
    rw [hid]
    exact FileService.generateFileId_ne_nil
  simp only [FileService.completeUpload, hs, hfull, ne_eq, not_true_eq_false, if_false, hfile, hdata,
    hsaved]
  refine ⟨trivial, ?_⟩
  simp only [FileService.readFile, FileStore.getById_deleteUploadSession, ← hid,
    FileStore.getById_save hnew, if_true]
  rw [← hdata]
  simp only [UploadSessionData.toMeta, OrderedMap.get_put_self]

/-- A temporary file with bytes in it is there. -/
theorem get_tempFile {disk : Disk} (h : tempFile disk s ≠ []) :
    disk.get s.tempPath = some (tempFile disk s) := by
  unfold tempFile at h ⊢
  cases hget : disk.get s.tempPath with
  | none => simp [hget] at h
  | some content => rfl

/-- A full session has at least one byte on disk. -/
theorem tempFile_ne_nil (hok : UploadsOk config st)
    (hs : FileStore.getUploadSession st.db u = some s) (hfull : s.bytesWritten = s.fileSize) :
    tempFile st.disk s ≠ [] := by
  obtain ⟨hwritten, _, hsize⟩ := hok.sane u s hs
  have hpos := hsize.1
  intro hnil
  rw [tempFile, (hok.filed.held hs).2.2] at hnil
  simp only [uploads, hnil, List.length_nil] at hwritten
  omega

/-- The same session and the same bytes make the same attempts. -/
theorem Kept.of_same (hok : UploadsOk config st)
    (hsession : FileStore.getUploadSession st'.db u = FileStore.getUploadSession st.db u)
    (hbytes : ∀ s, FileStore.getUploadSession st.db u = some s →
      tempFile st'.disk s = tempFile st.disk s)
    (hagree : ∀ s, FileStore.getUploadSession st.db u = some s →
      ((tempFile st.disk s).length : Int) = s.bytesWritten) : Kept config u st st' where
  session := hsession
  bytes s hs := by
    rw [hbytes s hs]
    exact ⟨rfl, hagree s hs⟩
  chunk chunk := by
    simp only [FileService.appendChunk, FileStore.updateUploadSessionBytes,
      FileStore.saveUploadSession, hsession]
    cases hs : FileStore.getUploadSession st.db u with
    | none => exact ⟨rfl, fun s h => (by cases h)⟩
    | some s =>
      obtain ⟨rfl, hid, _⟩ := hok.filed.held hs
      have hsame := hbytes s hs
      by_cases hfit : s.bytesWritten + chunk.length > s.fileSize
      · simp only [hfit, if_true]
        refine ⟨trivial, ?_⟩
        rintro _ ⟨⟩
        exact hsame
      · simp only [hfit, if_false, hid.ne_nil, not_true_eq_false]
        refine ⟨trivial, ?_⟩
        rintro _ ⟨⟩
        simp only [tempFile, appendFile, OrderedMap.get_put_self, Option.getD_some] at hsame ⊢
        rw [hsame]
  completion seed now := by
    cases hs : FileStore.getUploadSession st.db u with
    | none =>
      simp only [FileService.completeUpload, hsession, hs]
      exact ⟨trivial, fun h => (by cases h)⟩
    | some s =>
      by_cases hfull : s.bytesWritten = s.fileSize
      · have hsame := hbytes s hs
        have hne := tempFile_ne_nil hok hs hfull
        have hfile := get_tempFile hne
        have hfile' : st'.disk.get s.tempPath = some (tempFile st.disk s) := by
          rw [← hsame] at hne ⊢
          exact get_tempFile hne
        obtain ⟨hanswer, hread⟩ := completeUpload_content config seed now hs hfull hfile
        obtain ⟨hanswer', hread'⟩ := completeUpload_content config seed now (hsession.trans hs) hfull
          hfile'
        exact ⟨hanswer'.trans hanswer.symm, fun _ => hread'.trans hread.symm⟩
      · simp only [FileService.completeUpload, hsession, hs, ne_eq, hfull, not_false_eq_true, if_true]
        exact ⟨trivial, fun h => (by cases h)⟩

/-- What holds after a run that has drawn the given ids, all of them new, and whose faults were
harmless. -/
structure Accounted (config : FileConfig) (ids : List Bytes) (st : FileState) : Prop where
  ok : UploadsOk config st
  recorded : ∃ log, (uploads config st).Recorded ids log

namespace Accounted

theorem agree (h : Accounted config ids st) : ∀ s, FileStore.getUploadSession st.db u = some s →
    ((tempFile st.disk s).length : Int) = s.bytesWritten := by
  intro s hs
  obtain ⟨log, hlog⟩ := h.recorded
  obtain ⟨_, htemp, hwritten⟩ := hlog.session u s hs
  rw [← hwritten, ← htemp, tempFile, (h.ok.filed.held hs).2.2]
  rfl

theorem draw (h : Accounted config ids st) (more : List Bytes) : Accounted config (ids ++ more) st := by
  obtain ⟨log, hlog⟩ := h.recorded
  exact ⟨h.ok, log, hlog.draw more⟩

/-- Only the database and the bytes matter. -/
theorem congr (h : Accounted config ids st) (hdb : st'.db = st.db)
    (hbytes : ∀ p, bytesAt st'.disk p = bytesAt st.disk p) : Accounted config ids st' := by
  have hview : uploads config st' = uploads config st := by
    unfold uploads
    rw [hdb]
    congr 1
    funext u
    exact hbytes (getTempPath config u)
  obtain ⟨log, hlog⟩ := h.recorded
  refine ⟨⟨?_, ?_⟩, log, ?_⟩
  · rw [hdb]
    exact h.ok.filed
  · rw [hview]
    exact h.ok.sane
  · rw [hview]
    exact hlog

theorem kept_refl (h : Accounted config ids st) : Kept config u st st :=
  Kept.of_same h.ok rfl (fun _ _ => rfl) h.agree

theorem fileStep (h : Accounted config ids st) (op : FileOp) (hnew : ∀ i ∈ drawnIds [op], i ∉ ids) :
    Accounted config (ids ++ drawnIds [op]) (fileStep config st op) := by
  obtain ⟨log, hlog⟩ := h.recorded
  exact ⟨h.ok.step op, _, recorded_step h.ok hlog op hnew⟩

/-- What a failed append leaves on disk keeps the upload only when it is nothing. -/
theorem landed_kept (h : Accounted config ids st) (hs : FileStore.getUploadSession st.db u = some s)
    {extra : Bytes} (hlanded : Landed st s.tempPath extra st') :
    (Kept config u st st' ↔ extra = []) ∧ (extra = [] → Accounted config ids st') := by
  have hsame : extra = [] → ∀ p, bytesAt st'.disk p = bytesAt st.disk p := by
    intro he p
    rw [hlanded.bytes, he, List.append_nil, ite_self]
  refine ⟨⟨?_, ?_⟩, ?_⟩
  · intro hkept
    have hbytes : bytesAt st'.disk s.tempPath = bytesAt st.disk s.tempPath := (hkept.bytes s hs).1
    rw [hlanded.bytes, if_pos rfl] at hbytes
    exact List.append_right_eq_self.mp hbytes
  · intro he
    refine Kept.of_same h.ok ?_ (fun s' _ => hsame he s'.tempPath) h.agree
    rw [hlanded.db]
  · intro he
    exact h.congr hlanded.db (hsame he)

/-- An append that works answers so. -/
theorem appendChunk_works (h : Accounted config ids st)
    (hs : FileStore.getUploadSession st.db u = some s)
    (hfit : s.bytesWritten + chunk.length ≤ s.fileSize) :
    (FileService.appendChunk st u chunk).2.success = true ∧
      Accounted config ids (FileService.appendChunk st u chunk).1 := by
  obtain ⟨log, hlog⟩ := h.recorded
  refine ⟨?_, h.ok.appendChunk u chunk, _, recorded_appendChunk h.ok hlog u chunk⟩
  rcases h.ok.appendChunk_cases u chunk with ⟨_, _, _, happend, _⟩ | ⟨hnot, _⟩
  · rw [happend]
  · have hmore := hnot s hs
    omega

/-- A chunk: the law of its failure, and what the upload is left like. -/
theorem appendChunk (h : Accounted config ids st) (u chunk : Bytes) (tape : Tape) :
    (LeavesUpload config st (.appendChunk u chunk tape) ↔ Harmless st (.appendChunk u chunk tape)) ∧
    (Harmless st (.appendChunk u chunk tape) →
      Accounted config ids (faultyStep config st (.appendChunk u chunk tape))) := by
  by_cases hfits : ∃ s, FileStore.getUploadSession st.db u = some s ∧
      s.bytesWritten + chunk.length ≤ s.fileSize
  · obtain ⟨s, hs, hfit⟩ := hfits
    have hrun := runIo_appendChunk_fits hs hfit tape
    simp only [LeavesUpload, Harmless, faultyStep]
    cases hfail : failedAppend chunk tape with
    | none =>
      rw [hfail] at hrun
      obtain ⟨hworks, haccounted⟩ := h.appendChunk_works hs hfit
      rw [hrun, hworks]
      exact ⟨iff_of_true (fun hfailed => by cases hfailed) (fun _ _ _ _ he => by cases he),
        fun _ => haccounted⟩
    | some extra =>
      rw [hfail] at hrun
      obtain ⟨hlanded, hfailed⟩ := hrun
      obtain ⟨hkept, haccounted⟩ := h.landed_kept hs hlanded
      have hharmless : (∀ s, FileStore.getUploadSession st.db u = some s →
          s.bytesWritten + chunk.length ≤ s.fileSize → ∀ extra', some extra = some extra' →
            extra' = []) ↔ extra = [] := by
        constructor
        · intro hall
          exact hall s hs hfit extra rfl
        · rintro he _ _ _ _ ⟨⟩
          exact he
      rw [hharmless, hfailed, forall_prop_of_true rfl]
      exact ⟨hkept, haccounted⟩
  · have hrefused : ∀ s, FileStore.getUploadSession st.db u = some s →
        s.fileSize < s.bytesWritten + chunk.length := by
      intro s hs
      by_contra hle
      exact hfits ⟨s, hs, by omega⟩
    obtain ⟨hstate, _⟩ := runIo_appendChunk_refused hrefused tape
    simp only [LeavesUpload, Harmless, faultyStep, hstate]
    refine ⟨⟨fun _ s hs hfit => absurd ⟨s, hs, hfit⟩ hfits, fun _ _ => h.kept_refl⟩, fun _ => h⟩

/-- A completion, when its session can be deleted at the end. -/
theorem completeUpload (h : Accounted config ids st) (u : Bytes) (seed : FileIdSeed) (now : Int)
    (tape : Tape) (hends : EndsSession st (.completeUpload u seed now tape)) :
    (LeavesUpload config st (.completeUpload u seed now tape) ↔
      Harmless st (.completeUpload u seed now tape)) ∧
    (Harmless st (.completeUpload u seed now tape) →
      Accounted config ids (faultyStep config st (.completeUpload u seed now tape))) := by
  by_cases hfull : ∃ s, FileStore.getUploadSession st.db u = some s ∧ s.bytesWritten = s.fileSize
  · obtain ⟨s, hs, hfull⟩ := hfull
    have hne := tempFile_ne_nil h.ok hs hfull
    have hpath : s.tempPath ≠ buildStoragePath config (generateFileId seed) := by
      rw [(h.ok.filed.held hs).2.2]
      exact getTempPath_ne_buildStoragePath
    have hrun := runIo_completeUpload_full now hs hfull (get_tempFile hne) hpath tape
    have hsession := hends s hs hfull
    simp only [LeavesUpload, Harmless, faultyStep]
    generalize hr : runIo (IoProg.completeUpload config u seed now) tape st = r at hrun
    rcases hrun with ⟨hkeeps, _, hdone | ⟨hstate, hfailed⟩⟩ | ⟨hloses, _, hdb, hgone, hfailed⟩ |
        ⟨_, hleaves, _⟩
    · refine ⟨⟨fun _ _ _ _ => hkeeps, ?_⟩, ?_⟩
      · intro _ hfailed
        rcases h.ok.completeUpload_cases u seed now with ⟨_, _, _, _, hsuccess, _⟩ | ⟨hnot, _⟩
        · rw [hdone, hsuccess] at hfailed
          cases hfailed
        · exact absurd hfull (hnot s hs)
      · intro _
        obtain ⟨log, hlog⟩ := h.recorded
        rw [hdone]
        exact ⟨h.ok.step (.completeUpload u seed now), log,
          recorded_completeUpload h.ok hlog u seed now⟩
    · rw [hstate]
      exact ⟨⟨fun _ _ _ _ => hkeeps, fun _ _ => h.kept_refl⟩, fun _ => h⟩
    · refine ⟨⟨?_, ?_⟩, ?_⟩
      · intro hkept _ _ _ _
        have hsame : bytesAt r.1.disk s.tempPath = tempFile st.disk s :=
          ((hkept hfailed).bytes s hs).1
        rw [hgone] at hsame
        exact hne hsame.symm
      · intro hharmless
        exact absurd hloses (hharmless s hs hfull)
      · intro hharmless
        exact absurd hloses (hharmless s hs hfull)
    · exact absurd hleaves hsession
  · have hrefused : ∀ s, FileStore.getUploadSession st.db u = some s → s.bytesWritten ≠ s.fileSize :=
      fun s hs he => hfull ⟨s, hs, he⟩
    obtain ⟨hstate, _⟩ := runIo_completeUpload_refused config seed now hrefused tape
    simp only [LeavesUpload, Harmless, faultyStep, hstate]
    exact ⟨⟨fun _ s hs he => absurd he (hrefused s hs), fun _ _ => h.kept_refl⟩, fun _ => h⟩

theorem leavesUpload_iff (h : Accounted config ids st) (op : FaultyOp) (hends : EndsSession st op) :
    LeavesUpload config st op ↔ Harmless st op := by
  cases op with
  | appendChunk u chunk tape => exact (h.appendChunk u chunk tape).1
  | completeUpload u seed now tape => exact (h.completeUpload u seed now tape hends).1
  | call op => exact Iff.rfl

/-- A call with harmless faults. -/
theorem step (h : Accounted config ids st) (op : FaultyOp) (hnew : ∀ i ∈ op.drawn, i ∉ ids)
    (hends : EndsSession st op) (hharmless : Harmless st op) :
    Accounted config (ids ++ op.drawn) (faultyStep config st op) := by
  cases op with
  | appendChunk u chunk tape => exact ((h.appendChunk u chunk tape).2 hharmless).draw _
  | completeUpload u seed now tape =>
    exact ((h.completeUpload u seed now tape hends).2 hharmless).draw _
  | call op => exact h.fileStep op hnew

end Accounted

/-- In every run whose generated ids are new, in which the sessions of completed uploads can be
deleted: every call on an upload that answers an error leaves the session and the same bytes for the
next attempt exactly when no failed chunk has bytes on disk and no file is moved without being
recorded. -/
theorem failedUpload_kept_iff (config : FileConfig) (ops : List FaultyOp)
    (hfresh : (ops.flatMap FaultyOp.drawn).Nodup) :
    AllSteps (faultyStep config) (fun st op => EndsSession st op ∧ LeavesUpload config st op) {} ops ↔
      AllSteps (faultyStep config) (fun st op => EndsSession st op ∧ Harmless st op) {} ops := by
  refine allSteps_iff_account (J := fun ids st => Accounted config ids st)
    (fun ids st op h hnew hop => h.step op hnew hop.1 hop.2) ?_
    ⟨uploadsOk_empty, Stocked.empty.recorded⟩ (allSteps_new (by simpa using hfresh))
  intro ids st op h _
  exact and_congr_right (fun hends => h.leavesUpload_iff op hends)

/-- A request for two bytes, and the id of its upload. -/
def retriedUpload : FaultyOp :=
  .call (.initUpload { userId := str "a", fileName := str "n", fileSize := 2 } (seedOf 1) 10)

def retriedId : Bytes := generateFileId (seedOf 1)

/-- The file cannot be opened at first, and not be moved at first. -/
theorem failedUpload_kept_iff_retried :
    AllSteps (faultyStep {}) (fun st op => EndsSession st op ∧ LeavesUpload {} st op) {}
      [retriedUpload, .appendChunk retriedId (str "xy") [none, none, some 0],
        .appendChunk retriedId (str "xy") [],
        .completeUpload retriedId (seedOf 2) 11 [none, none, some 0],
        .completeUpload retriedId (seedOf 3) 12 []] := by
  refine (failedUpload_kept_iff {} _ (by decide +kernel)).mpr
    ⟨⟨trivial, trivial⟩, ⟨trivial, ?_⟩, ⟨trivial, ?_⟩, ⟨fun _ _ _ => id, fun _ _ _ => id⟩,
      ⟨fun _ _ _ => id, fun _ _ _ => id⟩, trivial⟩
  · intro s _ _ extra he
    exact (Option.some.inj he).symm
  · intro s _ _ extra he
    cases he

/-- A chunk of which one byte was written before the disk was full. -/
theorem failedUpload_keeps_bytes : ¬ ∀ (config : FileConfig) (ops : List FaultyOp),
    (ops.flatMap FaultyOp.drawn).Nodup →
    AllSteps (faultyStep config) (LeavesUpload config) {} ops := by
  intro h
  obtain ⟨_, hlaw, _⟩ := h {}
    [retriedUpload, .appendChunk retriedId (str "xy") [none, none, none, some 1]] (by decide +kernel)
  have hkept := hlaw (by decide +kernel)
  generalize hst : faultyStep {} {} retriedUpload = st at hkept
  have hempty : (FileStore.getUploadSession st.db retriedId).map (tempFile st.disk) = some [] := by
    rw [← hst]
    decide +kernel
  have hlanded : (FileStore.getUploadSession st.db retriedId).map (tempFile
      (runIo (IoProg.appendChunk retriedId (str "xy")) [none, none, none, some 1] st).1.disk) =
        some (str "x") := by
    rw [← hst]
    decide +kernel
  cases hs : FileStore.getUploadSession st.db retriedId with
  | none =>
    rw [hs] at hempty
    cases hempty
  | some s =>
    rw [hs] at hempty hlanded
    have hsame := (hkept.bytes s hs).1
    rw [Option.some.inj hempty, Option.some.inj hlanded] at hsame
    cases hsame

end SwiftChat.File
