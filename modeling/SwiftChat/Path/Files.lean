import SwiftChat.Base.Run
import SwiftChat.Path.Backend

/-! For whom a file request acts. -/
namespace SwiftChat.Path
open Base File Zone

/-- A change of the files that is made for the user `P` stands for: files are deleted by their
uploader, sessions are created in the user's name, and without a user nothing changes. -/
structure ActsFor (P : Bytes → Prop) (st st' : FileState) : Prop where
  deleted : ∀ id data, FileStore.getById st.db id = some data →
    FileStore.getById st'.db id = none → P data.uploaderId
  created : ∀ id session, FileStore.getUploadSession st'.db id = some session →
    FileStore.getUploadSession st.db id = some session ∨ P session.userId
  unchanged : (∀ v, ¬ P v) → st' = st

/-- The command names the user `P` stands for, or is one that has no effect. -/
def NamesSelf (P : Bytes → Prop) (config : FileConfig) (st : FileState) (seed : FileIdSeed)
    (now : Int) : FileCommand → Prop
  | .startUpload req =>
    P req.userId ∨ req.userId = [] ∨ req.fileName = [] ∨ ¬ SizeAllowed config req.fileSize ∨
      (FileStore.getByMd5 st.db req.md5).isSome ∨
      FileStore.getUploadSession st.db (generateFileId seed) =
        some (newUploadSession config req (generateFileId seed) now)
  | .delete req =>
    P req.userId ∨ req.userId = [] ∨
      ∀ data, FileStore.getById st.db req.fileId = some data → data.uploaderId ≠ req.userId
  | .nothing => True

section
variable {P : Bytes → Prop} {config : FileConfig} {st : FileState} {seed : FileIdSeed} {now : Int}
  {req : UploadRequest} {del : FileDeletePayload}

theorem ActsFor.same : ActsFor P st st where
  deleted id data h hgone := by
    rw [h] at hgone
    cases hgone
  created id session h := Or.inl h
  unchanged _ := rfl

/-- Storing a session again changes nothing. -/
theorem saveUploadSession_same {db : FileDb} {session : UploadSessionData}
    (hid : session.uploadId ≠ [])
    (h : FileStore.getUploadSession db session.uploadId = some session) :
    (FileStore.saveUploadSession db session).1 = db := by
  have hget : db.get (keyUpload session.uploadId) = some (.session session) := by
    unfold FileStore.getUploadSession at h
    simp only [hid, if_false] at h
    split at h
    · rename_i hs
      rw [hs, Option.some.inj h]
    · cases h
  simp only [FileStore.saveUploadSession, hid, if_false]
  apply OrderedMap.ext_get
  intro k
  by_cases hk : k = keyUpload session.uploadId
  · rw [hk, OrderedMap.get_put_self, hget]
  · exact OrderedMap.get_put_ne hk

/-- The new session is the only change an upload makes. -/
theorem startUpload_new (hu : req.userId ≠ []) (hn : req.fileName ≠ [])
    (hsize : SizeAllowed config req.fileSize) (hmd5 : FileStore.getByMd5 st.db req.md5 = none) :
    applyFileCommand config st seed now (.startUpload req) =
      { st with db := (FileStore.saveUploadSession st.db
          (newUploadSession config req (generateFileId seed) now)).1 } := by
  simp only [applyFileCommand, hu, hn, or_self, if_false]
  rw [FileService.initUpload_state, if_pos ⟨hsize, hmd5⟩]

theorem startUpload_none (h : req.userId = [] ∨ req.fileName = [] ∨
    ¬ SizeAllowed config req.fileSize ∨ (FileStore.getByMd5 st.db req.md5).isSome) :
    applyFileCommand config st seed now (.startUpload req) = st := by
  simp only [applyFileCommand]
  split
  · rfl
  · rename_i hgiven
    rw [FileService.initUpload_state, if_neg]
    rintro ⟨hsize, hmd5⟩
    rcases h with h | h | h | h
    · exact hgiven (Or.inl h)
    · exact hgiven (Or.inr h)
    · exact h hsize
    · rw [hmd5] at h
      cases h

theorem startUpload_acts_iff :
    ActsFor P st (applyFileCommand config st seed now (.startUpload req)) ↔
      NamesSelf P config st seed now (.startUpload req) := by
  simp only [NamesSelf]
  by_cases hnone : req.userId = [] ∨ req.fileName = [] ∨ ¬ SizeAllowed config req.fileSize ∨
      (FileStore.getByMd5 st.db req.md5).isSome
  · rw [startUpload_none hnone]
    refine iff_of_true ActsFor.same (Or.inr ?_)
    rcases hnone with h | h | h | h
    · exact Or.inl h
    · exact Or.inr (Or.inl h)
    · exact Or.inr (Or.inr (Or.inl h))
    · exact Or.inr (Or.inr (Or.inr (Or.inl h)))
  · push Not at hnone
    obtain ⟨hu, hn, hsize, hmd5⟩ := hnone
    have hmd5' : FileStore.getByMd5 st.db req.md5 = none := by simpa using hmd5
    have hid : (newUploadSession config req (generateFileId seed) now).uploadId ≠ [] :=
      FileService.generateFileId_ne_nil
    rw [startUpload_new hu hn hsize hmd5']
    constructor
    · intro h
      rcases h.created (generateFileId seed) _ ((FileStore.getUploadSession_save hid).trans
        (if_pos rfl)) with hold | hself
      · exact Or.inr (Or.inr (Or.inr (Or.inr (Or.inr hold))))
      · exact Or.inl hself
    · rintro (hself | h | h | h | h | hold)
      · refine ⟨?_, ?_, fun hnobody => absurd hself (hnobody _)⟩
        · intro id data h hgone
          rw [FileStore.getById_saveUploadSession, h] at hgone
          cases hgone
        · intro id session h
          rw [FileStore.getUploadSession_save hid] at h
          split at h
          · obtain rfl := Option.some.inj h
            exact Or.inr hself
          · exact Or.inl h
      · exact absurd h hu
      · exact absurd h hn
      · exact absurd hsize h
      · exact absurd h hmd5
      · rw [saveUploadSession_same hid hold]
        exact ActsFor.same

theorem delete_acts_iff :
    ActsFor P st (applyFileCommand config st seed now (.delete del)) ↔
      NamesSelf P config st seed now (.delete del) := by
  simp only [NamesSelf, applyFileCommand]
  by_cases hu : del.userId = []
  · rw [if_pos hu]
    exact iff_of_true ActsFor.same (Or.inr (Or.inl hu))
  · rw [if_neg hu]
    by_cases hrefused : ∀ data, FileStore.getById st.db del.fileId = some data →
        data.uploaderId ≠ del.userId
    · rw [FileService.deleteFile_refused hrefused]
      exact iff_of_true ActsFor.same (Or.inr (Or.inr hrefused))
    · push Not at hrefused
      obtain ⟨data, hdata, hown⟩ := hrefused
      rw [FileService.deleteFile_owner hdata hown]
      constructor
      · intro h
        have hgone := h.deleted del.fileId data hdata
          ((FileStore.getById_delete hdata del.fileId).trans (if_pos rfl))
        rw [hown] at hgone
        exact Or.inl hgone
      · rintro (hself | h | h)
        · refine ⟨?_, ?_, fun hnobody => absurd hself (hnobody _)⟩
          · intro id data' h hgone
            rw [FileStore.getById_delete hdata] at hgone
            split at hgone
            · rename_i hid
              rw [hid, hdata] at h
              rw [← Option.some.inj h, hown]
              exact hself
            · rw [h] at hgone
              cases hgone
          · intro id session h
            rw [FileStore.getUploadSession_delete hdata] at h
            exact Or.inl h
        · exact absurd h hu
        · exact absurd hown (h data hdata)

theorem command_acts_iff (c : FileCommand) :
    ActsFor P st (applyFileCommand config st seed now c) ↔ NamesSelf P config st seed now c := by
  cases c with
  | startUpload req => exact startUpload_acts_iff
  | delete del => exact delete_acts_iff
  | nothing => exact iff_of_true ActsFor.same trivial

end

section
variable {A : Type} (svc : Services A)

/-- A file request acts for the user its connection is authenticated as. -/
def FileRequestsRight (s : State A) : Event → Prop
  | .message connId cmd payload requestId env =>
    str "file." <+: cmd →
      ActsFor (s.gate.AuthenticatedAs connId) s.backend.files
        (clientMessage svc env s connId cmd payload requestId).zone.files
  | _ => True

/-- The payload of a file request names the user of the connection, or asks for something that
has no effect. -/
def FileRequestsNameSelf (s : State A) : Event → Prop
  | .message connId cmd payload requestId env =>
    str "file." <+: cmd →
      NamesSelf (s.gate.AuthenticatedAs connId) svc.fileConfig s.backend.files env.fileSeed
        (Online.seconds env.clock.now)
        (fileCommand svc.fileCodec (s.gate.requestOf connId cmd payload requestId))
  | _ => True

/-- Along every run, from every state: all file requests act for the user of their connection,
exactly when each payload names that user or has no effect. -/
theorem file_requests_right_iff (s : State A) (events : List Event) :
    AllSteps (step svc) (FileRequestsRight svc) s events ↔
      AllSteps (step svc) (FileRequestsNameSelf svc) s events := by
  apply allSteps_congr
  intro s event
  cases event with
  | connect connId now => exact Iff.rfl
  | disconnect connId => exact Iff.rfl
  | message connId cmd payload requestId env =>
    refine imp_congr_right fun hcmd => ?_
    rw [clientMessage_file hcmd, handleFile_state]
    exact command_acts_iff _

end

/-- A client that never logged in starts an upload in the name of `v`. -/
def strangerUpload : List Event :=
  [.connect (str "c") 1000,
   .message (str "c") (str "file.init_upload")
     (Zone.stringField 1 (str "v") ++ Zone.stringField 2 (str "f") ++ [32, 5]) (str "r")
     oneSecond]

theorem stranger_uploads :
    ¬ AllSteps (step oneAccount) (FileRequestsRight oneAccount) emptyInstallation
      strangerUpload := by
  intro h
  obtain ⟨_, hupload, _⟩ := h
  have hnobody : ∀ v, ¬ (run (step oneAccount) emptyInstallation
      [.connect (str "c") 1000]).gate.AuthenticatedAs (str "c") v := by
    rintro v ⟨c, hc, hauth, _⟩
    have hplain : (run (step oneAccount) emptyInstallation
        [.connect (str "c") 1000]).gate.getConnection (str "c") =
        some { connId := str "c", connectedAt := 1000, lastHeartbeat := 1000 } := by
      decide
    rw [hplain] at hc
    obtain rfl := Option.some.inj hc
    cases hauth
  have hstored : FileStore.getUploadSession (run (step oneAccount) emptyInstallation
      strangerUpload).backend.files.db (generateFileId oneSecond.fileSeed) ≠ none := by
    decide +kernel
  have hsame := (hupload (by decide)).unchanged hnobody
  apply hstored
  change FileStore.getUploadSession (clientMessage oneAccount oneSecond _ _ _ _ _).zone.files.db _ =
    none
  rw [hsame]
  decide

end SwiftChat.Path
