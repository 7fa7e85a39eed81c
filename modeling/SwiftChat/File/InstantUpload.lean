import SwiftChat.File.StoredFiles

/-! Uploads that find their file already stored, by the checksum the client announces. -/
namespace SwiftChat.File
open Base
variable {config : FileConfig} {st : FileState} {u f m : Bytes} {data : FileMetaData}
  {ids : List Bytes} {op : FileOp} {ops : List FileOp} {content : Bytes} {req : UploadRequest}
  {seed : FileIdSeed} {now : Int} {digest : Bytes → Bytes}

/-- A file handed out without an upload has the announced size and checksum. -/
def InstantRight (config : FileConfig) (digest : Bytes → Bytes) (st : FileState)
    (req : UploadRequest) (seed : FileIdSeed) (now : Int) : Prop :=
  let f := (FileService.initUpload config st req seed now).2.existingFileId
  f ≠ [] → ∃ content contentType fileName,
    FileService.readFile st f = some (content, contentType, fileName) ∧
    (content.length : Int) = req.fileSize ∧ digest content = req.md5

/-- The file with the announced checksum has the announced size too. -/
def SizeAnnounced (config : FileConfig) (st : FileState) (req : UploadRequest) : Prop :=
  SizeAllowed config req.fileSize →
    ∀ data, FileStore.getByMd5 st.db req.md5 = some data → data.fileSize = req.fileSize

/-- An upload is completed with the bytes whose checksum was announced, if one was. -/
def Honest (digest : Bytes → Bytes) (st : FileState) : FileOp → Prop
  | .completeUpload u _ _ => ∀ s, FileStore.getUploadSession st.db u = some s →
      s.bytesWritten = s.fileSize → s.md5 ≠ [] → digest (tempFile st.disk s) = s.md5
  | _ => True

/-- Files with a checksum have the bytes it is of. -/
def Genuine (digest : Bytes → Bytes) (st : FileState) : Prop :=
  ∀ f data content, StoredAs st f data content → data.md5 ≠ [] → digest content = data.md5

/-- Requests are answered with the right file exactly when they announce its size. -/
def RightBySize (config : FileConfig) (digest : Bytes → Bytes) (st : FileState) : Prop :=
  ∀ req seed now, InstantRight config digest st req seed now ↔ SizeAnnounced config st req

theorem Indexed.getByMd5_some {db : FileDb} (h : Indexed db)
    (hget : FileStore.getByMd5 db m = some data) :
    m ≠ [] ∧ data.md5 = m ∧ FileStore.getById db data.fileId = some data := by
  unfold FileStore.getByMd5 at hget
  split at hget
  · cases hget
  · rename_i hm
    split at hget
    · rename_i f hv
      obtain ⟨_, f', he, data', hf, hmd5⟩ := h.entry m _ hv
      obtain rfl := FileValue.ref.inj he
      rw [hf] at hget
      obtain rfl := Option.some.inj hget
      refine ⟨hm, hmd5, ?_⟩
      rw [h.own f data' hf]
      exact hf
    · cases hget

/-- A file handed out without an upload is the one found by the checksum. -/
theorem initUpload_existing :
    (FileService.initUpload config st req seed now).2.existingFileId =
      if SizeAllowed config req.fileSize then
        ((FileStore.getByMd5 st.db req.md5).map (·.fileId)).getD []
      else [] := by
  unfold FileService.initUpload
  by_cases hsize : SizeAllowed config req.fileSize
  · cases hmd5 : FileStore.getByMd5 st.db req.md5 with
    | none => simp [hsize, FileStore.saveUploadSession, newUploadSession,
        FileService.generateFileId_ne_nil]
    | some existing => simp [hsize]
  · simp [hsize]

theorem StoredAs.readFile (h : StoredAs st f data content) :
    FileService.readFile st f = some (content, data.contentType, data.fileName) := by
  simp [FileService.readFile, h.1, h.2]

namespace Stocked

/-- The answer is right exactly when the bytes of the file found have the announced size and
checksum. -/
theorem instantRight_iff (h : Stocked config ids st) :
    InstantRight config digest st req seed now ↔
      (SizeAllowed config req.fileSize → ∀ data, FileStore.getByMd5 st.db req.md5 = some data →
        ∃ content, StoredAs st data.fileId data content ∧
          (content.length : Int) = req.fileSize ∧ digest content = req.md5) := by
  simp only [InstantRight, initUpload_existing]
  by_cases hsize : SizeAllowed config req.fileSize
  · cases hget : FileStore.getByMd5 st.db req.md5 with
    | none => simp [hsize]
    | some data =>
      obtain ⟨_, _, hf⟩ := h.indexed.getByMd5_some hget
      have hid : data.fileId ≠ [] := (h.ok.filed.file _ data hf).1.ne_nil
      obtain ⟨content, hstored, _⟩ := h.bytes _ data hf
      simp only [hsize, if_true, Option.map_some, Option.getD_some, hstored.readFile]
      constructor
      · intro hright _ data' hdata
        obtain rfl := Option.some.inj hdata
        obtain ⟨_, _, _, he, hlen, hdigest⟩ := hright hid
        obtain ⟨rfl, _⟩ := Prod.mk.inj (Option.some.inj he)
        exact ⟨content, hstored, hlen, hdigest⟩
      · intro hright _
        obtain ⟨content', hstored', hlen, hdigest⟩ := hright trivial data rfl
        obtain rfl := Option.some.inj (hstored.2.symm.trans hstored'.2)
        exact ⟨content, _, _, rfl, hlen, hdigest⟩
  · simp [hsize]

/-- The bytes of a stored file are as many as its record says. -/
theorem stored_length (h : Stocked config ids st) (hstored : StoredAs st f data content) :
    (content.length : Int) = data.fileSize := by
  obtain ⟨content', hstored', hlen⟩ := h.bytes f data hstored.1
  obtain rfl := Option.some.inj (hstored.2.symm.trans hstored'.2)
  exact hlen

theorem rightBySize (h : Stocked config ids st) (hgenuine : Genuine digest st) :
    RightBySize config digest st := by
  intro req seed now
  rw [h.instantRight_iff]
  apply forall_congr'
  intro _
  apply forall₂_congr
  intro data hget
  obtain ⟨hm, hmd5, hf⟩ := h.indexed.getByMd5_some hget
  constructor
  · rintro ⟨content, hstored, hlen, _⟩
    exact (h.stored_length hstored).symm.trans hlen
  · intro hsize
    obtain ⟨content, hstored, hlen⟩ := h.bytes _ data hf
    refine ⟨content, hstored, hlen.trans hsize, ?_⟩
    rw [← hmd5] at hm ⊢
    exact hgenuine _ data content hstored hm

/-- An honest call leaves only files that are what their checksums say. -/
theorem genuine_step (h : Stocked config ids st) (hgenuine : Genuine digest st)
    (hop : Honest digest st op) : Genuine digest (fileStep config st op) := by
  intro f data' content' hstored hmd5
  rcases fileStep_files h.ok op with hsame | ⟨st₀, data, content, hsame, hfiled, hnew, hstate⟩ |
      ⟨g, data, hg, hstate⟩
  · exact hgenuine f data' content' (hsame.storedAs.mp hstored) hmd5
  · obtain ⟨seed, _, hid, hpath⟩ := hnew.drawn
    rw [hstate, storedAs_addFile hfiled ⟨seed, hid⟩ (hid ▸ hpath)] at hstored
    split at hstored
    · obtain ⟨rfl, rfl⟩ := hstored
      cases hnew with
      | session hs hfull => exact hop _ hs hfull hmd5
      | given => exact absurd rfl hmd5
    · exact hgenuine f data' content' (hsame.storedAs.mp hstored) hmd5
  · rw [hstate, storedAs_deleteFile h.ok.filed hg] at hstored
    exact hgenuine f data' content' hstored.2 hmd5

/-- After a dishonest completion the next request with its checksum is served the wrong bytes. -/
theorem honest_of_right (h : Stocked config ids st) (hfresh : ∀ i ∈ drawnIds [op], i ∉ ids)
    (hright : RightBySize config digest (fileStep config st op)) : Honest digest st op := by
  have hnext := h.step op hfresh
  cases op with
  | completeUpload u seed now =>
    intro s hs hfull hmd5
    obtain ⟨_, _, hsize⟩ := h.ok.sane u s hs
    rcases h.ok.completeUpload_cases u seed now with ⟨s', hs', _, hstate, _⟩ | ⟨hnot, _⟩
    · obtain rfl := Option.some.inj (hs.symm.trans hs')
      have hid : IsFileId (generateFileId seed) := ⟨seed, rfl⟩
      simp only [fileStep] at hnext hright
      rw [hstate] at hnext hright
      generalize hd : s.toMeta (generateFileId seed)
        (buildStoragePath config (generateFileId seed)) now = data at hnext hright
      have hdata : data.fileId = generateFileId seed ∧ data.md5 = s.md5 ∧
          data.fileSize = s.fileSize ∧
          data.storagePath = buildStoragePath config data.fileId := by
        rw [← hd]
        exact ⟨rfl, rfl, rfl, rfl⟩
      obtain ⟨hfileId, hm, hlen, hpath⟩ := hdata
      rw [← hfileId] at hid
      -- the request that the first uploader could have made
      have hfound : FileStore.getByMd5 (addFile (endSession config st u) data
          ((uploads config st).temp u)).db s.md5 = some data := by
        rw [← hm] at hmd5 ⊢
        simp only [FileStore.getByMd5, hmd5, if_false, addFile, get_save_md5 hid.ne_nil hmd5,
          if_true, FileStore.getById_save hid.ne_nil]
      have hannounced : SizeAnnounced config (addFile (endSession config st u) data
          ((uploads config st).temp u)) { fileSize := s.fileSize, md5 := s.md5 } := by
        intro _ data' hdata'
        obtain rfl := Option.some.inj (hfound.symm.trans hdata')
        exact hlen
      obtain ⟨content, hstored, _, hdigest⟩ :=
        hnext.instantRight_iff.mp ((hright _ seed now).mpr hannounced) hsize data hfound
      rw [storedAs_addFile h.ok.filed.deleteUploadSession hid hpath, if_pos rfl] at hstored
      obtain ⟨_, rfl⟩ := hstored
      rw [tempFile, (h.ok.filed.held hs).2.2]
      exact hdigest
    · exact absurd hfull (hnot s hs)
  | initUpload _ _ _ => exact trivial
  | getUploadToken _ _ _ _ _ => exact trivial
  | appendChunk _ _ => exact trivial
  | upload _ _ _ _ _ _ => exact trivial
  | cleanupExpiredSessions _ => exact trivial
  | deleteFile _ _ => exact trivial

end Stocked

/-- In every run whose generated ids are new, and in every state of it, a request is answered
without an upload rightly exactly when it announces the size of the file found; that is so exactly
when every upload is completed with the bytes whose checksum it announced. -/
theorem instantUpload_right_iff (config : FileConfig) (digest : Bytes → Bytes)
    (ops : List FileOp) (hfresh : (drawnIds ops).Nodup) :
    Always (fileStep config) (RightBySize config digest) {} ops ↔
      AllSteps (fileStep config) (Honest digest) {} ops := by
  have hgenuine : Genuine digest {} := by
    intro f data content hstored
    simp [StoredAs, FileStore.getById] at hstored
  refine always_iff_allSteps_account (J := fun ids st => Stocked config ids st ∧ Genuine digest st)
    (fun ids st op h hnew hop => ⟨h.1.step op hnew, h.1.genuine_step h.2 hop⟩) ?_
    ⟨Stocked.empty, hgenuine⟩ (Stocked.empty.rightBySize hgenuine) (drawnIds_new hfresh)
  intro ids st op h hnew _
  constructor
  · exact h.1.honest_of_right hnew
  · intro hop
    exact (h.1.step op hnew).rightBySize (h.1.genuine_step h.2 hop)

/-- The MD5 of two texts. -/
def knownMd5 (content : Bytes) : Bytes :=
  if content = str "good" then str "755f85c2723bb39381c7379a604160d8"
  else if content = str "evil" then str "4034a346ccee15292d823416f7510a2f"
  else []

/-- An upload of four bytes under an announced checksum. -/
def fourBytes (md5 content : Bytes) : List FileOp :=
  [.initUpload { userId := str "a", fileName := str "n", fileSize := 4, md5 := md5 } (seedOf 1) 10,
   .appendChunk (generateFileId (seedOf 1)) content,
   .completeUpload (generateFileId (seedOf 1)) (seedOf 2) 11]

theorem instantUpload_right_iff_honest :
    Always (fileStep {}) (RightBySize {} knownMd5) {}
      (fourBytes (knownMd5 (str "good")) (str "good")) := by
  refine (instantUpload_right_iff {} knownMd5 _ (by decide +kernel)).mpr
    ⟨trivial, trivial, ?_, trivial⟩
  intro s hs _ _
  generalize hst : fileStep {} _ (FileOp.appendChunk _ _) = st at hs ⊢
  have hmd5 : (FileStore.getUploadSession st.db (generateFileId (seedOf 1))).map (·.md5) =
      some (knownMd5 (str "good")) := by
    rw [← hst]
    decide +kernel
  have htemp : (FileStore.getUploadSession st.db (generateFileId (seedOf 1))).map
      (tempFile st.disk) = some (str "good") := by
    rw [← hst]
    decide +kernel
  rw [hs] at hmd5 htemp
  have hs5 : s.md5 = knownMd5 (str "good") := Option.some.inj hmd5
  rw [hs5, Option.some.inj htemp]

/-- A file handed out with other bytes than it was asked for. -/
theorem not_instantRight (f content contentType fileName : Bytes) (hne : f ≠ [])
    (hid : (FileService.initUpload config st req seed now).2.existingFileId = f)
    (hread : FileService.readFile st f = some (content, contentType, fileName))
    (hwrong : (content.length : Int) = req.fileSize → digest content ≠ req.md5) :
    ¬ InstantRight config digest st req seed now := by
  intro h
  simp only [InstantRight, hid, hread] at h
  obtain ⟨_, _, _, he, hlen, hdigest⟩ := h hne
  obtain ⟨rfl, _⟩ := Prod.mk.inj (Option.some.inj he)
  exact hwrong hlen hdigest

/-- A file is handed out under the checksum of another text, and to a request for more bytes than
it has. -/
theorem instantUpload_serves_other :
    ¬ InstantRight {} knownMd5 (fileAfter {} (fourBytes (knownMd5 (str "good")) (str "evil")))
      { userId := str "b", fileSize := 4, md5 := knownMd5 (str "good") } (seedOf 3) 12 ∧
    ¬ InstantRight {} knownMd5 (fileAfter {} (fourBytes (knownMd5 (str "good")) (str "good")))
      { userId := str "b", fileSize := 5, md5 := knownMd5 (str "good") } (seedOf 3) 12 := by
  constructor
  · apply not_instantRight (generateFileId (seedOf 2)) (str "evil") [] (str "n") <;> decide +kernel
  · apply not_instantRight (generateFileId (seedOf 2)) (str "good") [] (str "n") <;> decide +kernel

end SwiftChat.File
