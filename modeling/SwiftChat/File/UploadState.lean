import SwiftChat.File.FileHandler
import SwiftChat.File.StoredFiles

/-! What the file server says about the ids it has handed out for uploads. -/
namespace SwiftChat.File
open Base

/-- What has become of an id that was handed out. -/
inductive Phase where
  | receiving
  | stored (fileId : Bytes)
  | gone
deriving DecidableEq

/-- The file server, the phases of the ids it has handed out, and the chunks it has acknowledged
for them. -/
structure Handout where
  st : FileState := {}
  phase : Bytes → Option Phase := fun _ => none
  log : Bytes → List Bytes := fun _ => []

/-- A call; only the remote `InitUpload` hands out an id. -/
inductive ServerCall where
  | initUpload (metadata : Metadata) (req : UploadRequest) (seed : FileIdSeed) (now : Int)
  | call (op : FileOp)

/-- A request whose checksum is stored already is handed the id of the file. -/
def firstPhase (st : FileState) (req : UploadRequest) : Phase :=
  match FileStore.getByMd5 st.db req.md5 with
  | some existing => .stored existing.fileId
  | none => .receiving

def isExpired (st : FileState) (u : Bytes) (now : Int) : Prop :=
  ∀ s, FileStore.getUploadSession st.db u = some s → s.expireAt ≤ now

instance (st : FileState) (u : Bytes) (now : Int) : Decidable (isExpired st u now) :=
  inferInstanceAs (Decidable (∀ s, _ = some s → _))

/-- An upload ends with its completion or its expiry, a file with its deletion. -/
def nextPhase (config : FileConfig) (st : FileState) (u : Bytes) (op : FileOp) : Phase → Phase
  | .receiving =>
    match op with
    | .completeUpload u' seed now =>
      let r := (FileService.completeUpload config st u' seed now).2
      if u' = u ∧ r.success then .stored r.fileId else .receiving
    | .cleanupExpiredSessions now => if isExpired st u now then .gone else .receiving
    | _ => .receiving
  | .stored f =>
    match op with
    | .deleteFile f' userId =>
      if f' = f ∧ (FileService.deleteFile st f' userId).2 then .gone else .stored f
    | _ => .stored f
  | .gone => .gone

def serverStep (jwt : Option Jwt) (config : FileConfig) (h : Handout) : ServerCall → Handout
  | .initUpload metadata req seed now =>
    let (st, r) := FileHandler.initUpload jwt config metadata h.st seed now req
    { h with
      st := st
      phase := if r.code = errorCodeToInt .ok then
          Function.update h.phase r.body.1 (some (firstPhase h.st req))
        else h.phase }
  | .call op =>
    { st := fileStep config h.st op
      phase := fun u => (h.phase u).map (nextPhase config h.st u op)
      log := fun u => h.log u ++ ackedBy u h.st op }

/-- The ids a call generates. -/
def ServerCall.drawn : ServerCall → List Bytes
  | .initUpload _ _ seed _ => [generateFileId seed]
  | .call op => drawnIds [op]

/-- What a query must say about an id in this phase. -/
def Phase.Told (st : FileState) (u : Bytes) (received : List Bytes) : Phase → Prop
  | .receiving => ∃ body, FileHandler.getUploadState st u = responseOk body ∧
      body.offset = received.flatten.length ∧ body.completed = false
  | .stored f => ∃ body, FileHandler.getUploadState st u = responseOk body ∧
      body.completed = true ∧ body.fileId = f
  | .gone => True

/-- Every id that was handed out is reported with its offset or its file. -/
def AllTold (h : Handout) : Prop := ∀ u p, h.phase u = some p → p.Told h.st u (h.log u)

/-- A request the server takes up. -/
def Accepted (jwt : Option Jwt) (config : FileConfig) (metadata : Metadata) (req : UploadRequest)
    (now : Int) : Prop :=
  FileHandler.getUserId jwt metadata req.userId now ≠ [] ∧ req.fileName ≠ [] ∧
    SizeAllowed config req.fileSize

/-- No stored file is handed out, and no upload that was handed out is completed. -/
def LeavesOpen (jwt : Option Jwt) (config : FileConfig) (h : Handout) : ServerCall → Prop
  | .initUpload metadata req _ now => Accepted jwt config metadata req now →
      FileStore.getByMd5 h.st.db req.md5 = none
  | .call (.completeUpload u _ _) => h.phase u = some .receiving →
      ∀ s, FileStore.getUploadSession h.st.db u = some s → s.bytesWritten ≠ s.fileSize
  | .call _ => True

variable {jwt : Option Jwt} {config : FileConfig} {metadata : Metadata} {st : FileState}
  {req : UploadRequest} {seed : FileIdSeed} {now : Int} {u f : Bytes} {s : UploadSessionData}
  {op : FileOp} {c : ServerCall} {h : Handout} {ids : List Bytes}

theorem FileHandler.initUpload_cases (jwt : Option Jwt) (config : FileConfig) (metadata : Metadata)
    (st : FileState) (seed : FileIdSeed) (now : Int) (req : UploadRequest) :
    let r := FileHandler.initUpload jwt config metadata st seed now req
    (¬ Accepted jwt config metadata req now ∧ r.1 = st ∧ r.2.code ≠ errorCodeToInt .ok) ∨
    (∃ existing, Accepted jwt config metadata req now ∧
      FileStore.getByMd5 st.db req.md5 = some existing ∧ r.1 = st ∧
      r.2.code = errorCodeToInt .ok ∧ r.2.body.1 = existing.fileId) ∨
    (Accepted jwt config metadata req now ∧ FileStore.getByMd5 st.db req.md5 = none ∧
      r.1 = fileStep config st (.initUpload
        { req with userId := FileHandler.getUserId jwt metadata req.userId now } seed now) ∧
      FileStore.getUploadSession r.1.db (generateFileId seed) ≠ none ∧
      r.2.code = errorCodeToInt .ok ∧ r.2.body.1 = generateFileId seed) := by
  by_cases hok : Accepted jwt config metadata req now
  · obtain ⟨huser, hname, hsize⟩ := hok
    right
    cases hmd5 : FileStore.getByMd5 st.db req.md5 with
    | some existing =>
      refine Or.inl ⟨existing, ⟨huser, hname, hsize⟩, rfl, ?_⟩
      simp [FileHandler.initUpload, FileService.initUpload, huser, hname, hsize, hmd5, responseOk,
        RpcResponse.ok]
    | none =>
      refine Or.inr ⟨⟨huser, hname, hsize⟩, rfl, ?_⟩
      simp [FileHandler.initUpload, FileService.initUpload, fileStep, huser, hname, hsize, hmd5,
        responseOk, RpcResponse.ok, FileStore.saveUploadSession, newUploadSession,
        FileService.generateFileId_ne_nil, FileStore.getUploadSession]
  · refine Or.inl ⟨hok, ?_⟩
    have hfail : errorCodeToInt .tokenInvalid ≠ errorCodeToInt .ok ∧
        errorCodeToInt .invalidParam ≠ errorCodeToInt .ok ∧
        errorCodeToInt .fileTooLarge ≠ errorCodeToInt .ok := by decide
    obtain ⟨htoken, hparam, hlarge⟩ := hfail
    by_cases huser : FileHandler.getUserId jwt metadata req.userId now = []
    · simp [FileHandler.initUpload, huser, RpcResponse.tokenMissing, RpcResponse.fail, htoken]
    by_cases hname : req.fileName = []
    · simp [FileHandler.initUpload, huser, hname, RpcResponse.error, RpcResponse.fail, hparam]
    have hsize : ¬ SizeAllowed config req.fileSize := fun hsize => hok ⟨huser, hname, hsize⟩
    simp [FileHandler.initUpload, FileService.initUpload, huser, hname, hsize, RpcResponse.fail,
      hlarge]

/-- A session is reported with its count. -/
theorem getUploadState_session (hs : FileStore.getUploadSession st.db u = some s) :
    FileHandler.getUploadState st u = responseOk
      { found := true, offset := s.bytesWritten, fileSize := s.fileSize, expireAt := s.expireAt } := by
  have hu := (FileStore.get_of_getUploadSession hs).1
  simp [FileHandler.getUploadState, FileService.getUploadState, hu, hs]

/-- Everything else is reported as expired. -/
theorem getUploadState_none (hs : FileStore.getUploadSession st.db u = none) :
    (FileHandler.getUploadState st u).code ≠ errorCodeToInt .ok := by
  unfold FileHandler.getUploadState
  split
  · decide
  · simp [FileService.getUploadState, hs, RpcResponse.fail, errorCodeToInt]

/-- Nothing is ever reported as completed. -/
theorem getUploadState_not_completed {body : UploadStateResult}
    (hbody : FileHandler.getUploadState st u = responseOk body) : body.completed = false := by
  cases hs : FileStore.getUploadSession st.db u with
  | none => exact absurd (congrArg RpcResponse.code hbody) (getUploadState_none hs)
  | some s =>
    rw [getUploadState_session hs] at hbody
    obtain rfl : _ = body := congrArg RpcResponse.body hbody
    rfl

theorem session_saved {x : UploadSessionData} (hid : x.uploadId ≠ [])
    (hs : FileStore.getUploadSession st.db u = some s) :
    ∃ s', FileStore.getUploadSession (FileStore.saveUploadSession st.db x).1 u = some s' := by
  rw [FileStore.getUploadSession_save hid]
  split
  · exact ⟨x, rfl⟩
  · exact ⟨s, hs⟩

theorem session_initUpload (hs : FileStore.getUploadSession st.db u = some s) :
    ∃ s', FileStore.getUploadSession (FileService.initUpload config st req seed now).1.db u =
      some s' := by
  rw [FileService.initUpload_state]
  split
  · exact session_saved FileService.generateFileId_ne_nil hs
  · exact ⟨s, hs⟩

/-- The cleanup keeps the sessions that have not expired. -/
theorem session_cleanup (hok : UploadsOk config st)
    (hs : FileStore.getUploadSession st.db u = some s) (hlive : now < s.expireAt) :
    FileStore.getUploadSession (FileService.cleanupExpiredSessions st now).db u = some s := by
  have hlisted : ∀ x ∈ FileStore.listAllUploadSessions st.db,
      x.uploadId ≠ [] ∧ (x.uploadId = u → now < x.expireAt) := by
    intro x hx
    obtain ⟨v, hv⟩ := FileStore.mem_listAllUploadSessions hx
    obtain ⟨rfl, hid, _⟩ := hok.filed.session v x hv
    refine ⟨hid.ne_nil, ?_⟩
    rintro rfl
    rw [(FileStore.get_of_getUploadSession hs).2] at hv
    obtain rfl := FileValue.session.inj (Option.some.inj hv)
    exact hlive
  have hrun : FileStore.getUploadSession (run (FileService.cleanupSession now) st
      (FileStore.listAllUploadSessions st.db)).db u = some s := by
    refine run_invariant (I := fun st : FileState =>
      FileStore.getUploadSession st.db u = some s) ?_ hs hlisted
    rintro st x hs ⟨hx, hkeep⟩
    unfold FileService.cleanupSession
    split
    · exact hs
    · rename_i hexpired
      have hne : u ≠ x.uploadId := fun he => hexpired (hkeep he.symm)
      rw [← hs]
      apply FileStore.getUploadSession_congr
      rw [FileStore.get_deleteUploadSession hx, if_neg hne]
  exact hrun

/-- A completion ends its own session when it works, and no other. -/
theorem session_completeUpload (hok : UploadsOk config st)
    (hs : FileStore.getUploadSession st.db u = some s) (u' : Bytes) (seed : FileIdSeed) (now : Int) :
    FileStore.getUploadSession (FileService.completeUpload config st u' seed now).1.db u = some s ∨
      u' = u ∧ (FileService.completeUpload config st u' seed now).2.success = true := by
  rcases hok.completeUpload_cases u' seed now with ⟨s', hs', _, hstate, hdone, _⟩ | ⟨_, hsame, _⟩
  · by_cases hu : u' = u
    · exact Or.inr ⟨hu, hdone⟩
    · left
      rw [hstate, ← hs]
      apply FileStore.getUploadSession_congr
      rw [addFile, FileStore.get_save_upload, endSession,
        FileStore.get_deleteUploadSession (hok.filed.held hs').2.1.ne_nil, if_neg (Ne.symm hu)]
  · rw [hsame]
    exact Or.inl hs

theorem session_deleteFile (hs : FileStore.getUploadSession st.db u = some s) (f userId : Bytes) :
    FileStore.getUploadSession (FileService.deleteFile st f userId).1.db u = some s := by
  by_cases hown : ∃ data, FileStore.getById st.db f = some data ∧ data.uploaderId = userId
  · obtain ⟨data, hf, hown⟩ := hown
    rw [FileService.deleteFile_owner hf hown]
    exact (FileStore.getUploadSession_delete hf).trans hs
  · rw [FileService.deleteFile_refused (fun data hf hd => hown ⟨data, hf, hd⟩)]
    exact hs

/-- A session stays until it is completed or has expired. -/
theorem session_step (hok : UploadsOk config st) (op : FileOp)
    (hs : FileStore.getUploadSession st.db u = some s) :
    (∃ s', FileStore.getUploadSession (fileStep config st op).db u = some s') ∨
    (∃ seed now, op = .completeUpload u seed now ∧
      (FileService.completeUpload config st u seed now).2.success = true) ∨
    (∃ now, op = .cleanupExpiredSessions now ∧ isExpired st u now) := by
  cases op with
  | initUpload req seed now => exact Or.inl (session_initUpload hs)
  | getUploadToken userId fileName fileSize seed now =>
    left
    simp only [fileStep, FileService.getUploadToken_state]
    exact session_initUpload hs
  | appendChunk u' chunk =>
    left
    simp only [fileStep]
    rcases hok.appendChunk_cases u' chunk with ⟨s', hs', _, happend, _⟩ | ⟨_, hsame, _⟩
    · obtain ⟨rfl, hid, _⟩ := hok.filed.held hs'
      rw [happend]
      exact session_saved hid.ne_nil hs
    · rw [hsame]
      exact ⟨s, hs⟩
  | completeUpload u' seed now =>
    rcases session_completeUpload hok hs u' seed now with hs | ⟨rfl, hdone⟩
    · exact Or.inl ⟨s, hs⟩
    · exact Or.inr (Or.inl ⟨seed, now, rfl, hdone⟩)
  | upload userId fileName contentType content seed now =>
    left
    simp only [fileStep]
    rcases FileService.upload_cases config st userId fileName contentType content seed now with
      ⟨data, _, _, hstate⟩ | hsame
    · refine ⟨s, ?_⟩
      rw [hstate, ← hs]
      exact FileStore.getUploadSession_congr FileStore.get_save_upload
    · rw [hsame]
      exact ⟨s, hs⟩
  | cleanupExpiredSessions now =>
    by_cases hlive : now < s.expireAt
    · exact Or.inl ⟨s, session_cleanup hok hs hlive⟩
    · refine Or.inr (Or.inr ⟨now, rfl, ?_⟩)
      intro s' hs'
      obtain rfl := Option.some.inj (hs.symm.trans hs')
      omega
  | deleteFile f userId =>
    exact Or.inl ⟨s, session_deleteFile hs f userId⟩

/-- An upload is still receiving when no call has ended it. -/
theorem nextPhase_receiving {p : Phase} (hp : nextPhase config st u op p = .receiving) :
    p = .receiving ∧
    (∀ seed now, op = .completeUpload u seed now →
      (FileService.completeUpload config st u seed now).2.success = false) ∧
    (∀ now, op = .cleanupExpiredSessions now → ¬ isExpired st u now) := by
  cases p with
  | receiving =>
    refine ⟨rfl, ?_, ?_⟩
    · rintro seed now rfl
      by_contra hdone
      simp [nextPhase, hdone] at hp
    · rintro now rfl hexpired
      simp [nextPhase, hexpired] at hp
  | stored f =>
    cases op <;> simp only [nextPhase] at hp <;> try cases hp
    split at hp <;> cases hp
  | gone => cases hp

/-- Only a completion makes a file of an upload. -/
theorem nextPhase_stored {p : Phase} (hp : nextPhase config st u op p = .stored f) :
    p = .stored f ∨ (p = .receiving ∧ ∃ seed now, op = .completeUpload u seed now ∧
      (FileService.completeUpload config st u seed now).2.success = true) := by
  cases p with
  | receiving =>
    cases op <;> simp only [nextPhase] at hp <;> try cases hp
    · split at hp
      · rename_i hdone
        obtain ⟨rfl, hdone⟩ := hdone
        exact Or.inr ⟨rfl, _, _, rfl, hdone⟩
      · cases hp
    · split at hp <;> cases hp
  | stored f' =>
    cases op <;> simp only [nextPhase] at hp <;> try exact Or.inl hp
    split at hp
    · cases hp
    · exact Or.inl hp
  | gone => cases hp

/-- What holds after a run that has drawn the given ids, all of them new. -/
structure Tracked (config : FileConfig) (ids : List Bytes) (h : Handout) : Prop where
  stocked : Stocked config ids h.st
  recorded : (uploads config h.st).Recorded ids h.log
  receiving : ∀ u, h.phase u = some .receiving →
    ∃ s, FileStore.getUploadSession h.st.db u = some s

namespace Tracked

theorem empty : Tracked config [] {} where
  stocked := Stocked.empty
  recorded := ⟨fun u s h => by simp [uploads, FileStore.getUploadSession] at h, fun _ _ => ⟨rfl, rfl⟩⟩
  receiving u h := by cases h

/-- The answers are right as long as no id stands for a stored file. -/
theorem allTold_iff (ht : Tracked config ids h) :
    AllTold h ↔ ∀ u f, h.phase u ≠ some (.stored f) := by
  constructor
  · intro htold u f hp
    obtain ⟨body, hbody, hdone, _⟩ := htold u _ hp
    rw [getUploadState_not_completed hbody] at hdone
    cases hdone
  · intro hnone u p hp
    cases p with
    | receiving =>
      obtain ⟨s, hs⟩ := ht.receiving u hp
      obtain ⟨_, _, hcount⟩ := ht.recorded.session u s hs
      exact ⟨_, getUploadState_session hs, hcount.symm, rfl⟩
    | stored f => exact absurd hp (hnone u f)
    | gone => exact trivial

theorem call (ht : Tracked config ids h) (op : FileOp) (hnew : ∀ i ∈ drawnIds [op], i ∉ ids) :
    Tracked config (ids ++ drawnIds [op]) (serverStep jwt config h (.call op)) where
  stocked := ht.stocked.step op hnew
  recorded := recorded_step ht.stocked.ok ht.recorded op hnew
  receiving u hp := by
    obtain ⟨p, hp, hnext⟩ := Option.map_eq_some_iff.mp hp
    obtain ⟨rfl, hopen, hlive⟩ := nextPhase_receiving hnext
    obtain ⟨s, hs⟩ := ht.receiving u hp
    rcases session_step ht.stocked.ok op hs with hkept | ⟨seed, now, hop, hdone⟩ |
        ⟨now, hop, hexpired⟩
    · exact hkept
    · rw [hopen seed now hop] at hdone
      cases hdone
    · exact absurd hexpired (hlive now hop)

theorem initUpload (ht : Tracked config ids h) (hnew : generateFileId seed ∉ ids) :
    Tracked config (ids ++ [generateFileId seed])
      (serverStep jwt config h (.initUpload metadata req seed now)) := by
  rcases FileHandler.initUpload_cases jwt config metadata h.st seed now req with
    ⟨_, hst, hcode⟩ | ⟨existing, _, hmd5, hst, hcode, hid⟩ |
    ⟨_, hmd5, hst, hsession, hcode, hid⟩
  · constructor
    · simpa only [serverStep, hst] using ht.stocked.draw _
    · simpa only [serverStep, hst] using ht.recorded.draw _
    · simpa only [serverStep, hst, hcode, if_false] using ht.receiving
  · constructor
    · simpa only [serverStep, hst] using ht.stocked.draw _
    · simpa only [serverStep, hst] using ht.recorded.draw _
    · intro u hp
      simp only [serverStep, hst, hcode, if_true, hid, firstPhase, hmd5, Function.update_apply] at hp ⊢
      split at hp
      · cases hp
      · exact ht.receiving u hp
  · generalize hreq : UploadRequest.mk _ _ _ _ _ _ = req' at hst
    have hfresh : ∀ i ∈ drawnIds [.initUpload req' seed now], i ∉ ids := by
      intro i hi
      obtain rfl : i = generateFileId seed := by simpa [drawnIds, FileOp.seed] using hi
      exact hnew
    have hstocked := ht.stocked.step _ hfresh
    have hrecorded := recorded_step ht.stocked.ok ht.recorded _ hfresh
    have hdrawn : drawnIds [.initUpload req' seed now] = [generateFileId seed] := rfl
    rw [hdrawn] at hstocked hrecorded
    simp only [ackedBy, List.append_nil] at hrecorded
    constructor
    · simpa only [serverStep, hst] using hstocked
    · simpa only [serverStep, hst] using hrecorded
    · intro u hp
      simp only [serverStep, hcode, if_true, hid, Function.update_apply] at hp ⊢
      split at hp
      · rename_i hu
        subst hu
        exact Option.ne_none_iff_exists'.mp hsession
      · obtain ⟨s, hs⟩ := ht.receiving u hp
        rw [hst]
        exact session_initUpload hs

theorem step (ht : Tracked config ids h) (c : ServerCall) (hnew : ∀ i ∈ c.drawn, i ∉ ids) :
    Tracked config (ids ++ c.drawn) (serverStep jwt config h c) := by
  cases c with
  | initUpload metadata req seed now =>
    exact ht.initUpload (hnew _ (List.mem_singleton.mpr rfl))
  | call op => exact ht.call op hnew

/-- No id stands for a stored file, in the account of the calls. -/
def NoneStored (h : Handout) : Prop := ∀ u f, h.phase u ≠ some (.stored f)

/-- A request brings a stored file exactly when its checksum finds one. -/
theorem noneStored_init (hnone : NoneStored h) :
    NoneStored (serverStep jwt config h (.initUpload metadata req seed now)) ↔
      LeavesOpen jwt config h (.initUpload metadata req seed now) := by
  unfold NoneStored
  rcases FileHandler.initUpload_cases jwt config metadata h.st seed now req with
    ⟨hrefused, hst, hcode⟩ | ⟨existing, hok, hmd5, hst, hcode, hid⟩ |
    ⟨hok, hmd5, _, _, hcode, hid⟩
  · simp only [serverStep, hcode, if_false, LeavesOpen]
    exact ⟨fun _ hok => absurd hok hrefused, fun _ => hnone⟩
  · simp only [serverStep, hcode, if_true, hid, firstPhase, hmd5, LeavesOpen]
    constructor
    · intro hnone
      exact absurd (Function.update_self ..) (hnone existing.fileId existing.fileId)
    · intro hopen
      cases hopen hok
  · simp only [serverStep, hcode, if_true, hid, firstPhase, hmd5, LeavesOpen]
    refine ⟨fun _ _ => trivial, ?_⟩
    intro _ u f
    rw [Function.update_apply]
    split
    · intro hp
      cases hp
    · exact hnone u f

/-- A call brings a stored file exactly when it completes an upload. -/
theorem noneStored_call (ht : Tracked config ids h) (hnone : NoneStored h) :
    NoneStored (serverStep jwt config h (.call op)) ↔ LeavesOpen jwt config h (.call op) := by
  constructor
  · intro hnone
    cases op with
    | completeUpload u seed now =>
      intro hp s hs hfull
      rcases ht.stocked.ok.completeUpload_cases u seed now with ⟨_, _, _, _, hdone, _⟩ | ⟨hnot, _⟩
      · apply hnone u
        simp only [serverStep, hp, Option.map_some, nextPhase, hdone, true_and, if_true]
        rfl
      · exact hnot s hs hfull
    | initUpload _ _ _ => exact trivial
    | getUploadToken _ _ _ _ _ => exact trivial
    | appendChunk _ _ => exact trivial
    | upload _ _ _ _ _ _ => exact trivial
    | cleanupExpiredSessions _ => exact trivial
    | deleteFile _ _ => exact trivial
  · intro hopen u f hstored
    obtain ⟨p, hp, hnext⟩ := Option.map_eq_some_iff.mp hstored
    rcases nextPhase_stored hnext with rfl | ⟨rfl, seed, now, rfl, hdone⟩
    · exact hnone u f hp
    · rcases ht.stocked.ok.completeUpload_cases u seed now with ⟨s, hs, hfull, _⟩ | ⟨_, _, hfail⟩
      · exact hopen hp s hs hfull
      · rw [hfail] at hdone
        cases hdone

/-- The answers stay right exactly when no stored file comes of the call. -/
theorem allTold_step (ht : Tracked config ids h) (hnew : ∀ i ∈ c.drawn, i ∉ ids)
    (htold : AllTold h) : AllTold (serverStep jwt config h c) ↔ LeavesOpen jwt config h c := by
  rw [(ht.step c hnew).allTold_iff]
  rw [ht.allTold_iff] at htold
  cases c with
  | initUpload metadata req seed now => exact noneStored_init htold
  | call op => exact noneStored_call ht htold

end Tracked

/-- In every run whose generated ids are new, each id that was handed out is reported with its
offset, or with its file when it stands for one, exactly as long as no id stands for a file: no
stored file is handed out by its checksum, and no upload that was handed out is completed. -/
theorem uploadState_told_iff (jwt : Option Jwt) (config : FileConfig) (calls : List ServerCall)
    (hfresh : (calls.flatMap ServerCall.drawn).Nodup) :
    Always (serverStep jwt config) AllTold {} calls ↔
      AllSteps (serverStep jwt config) (LeavesOpen jwt config) {} calls := by
  refine always_iff_allSteps_account (J := fun ids h => Tracked config ids h)
    (fun ids h c ht hnew _ => ht.step c hnew) (fun ids h c ht hnew htold => ht.allTold_step hnew htold)
    Tracked.empty ?_ (allSteps_new (by simpa using hfresh))
  rw [(Tracked.empty : Tracked config [] {}).allTold_iff]
  intro u f hp
  cases hp

/-- A request for two bytes, and the first of them. -/
def openUpload : List ServerCall :=
  [.initUpload {} { userId := str "a", fileName := str "n", fileSize := 2 } (seedOf 1) 10,
   .call (.appendChunk (generateFileId (seedOf 1)) (str "x"))]

/-- The rest of it. -/
def closeUpload : List ServerCall :=
  [.call (.appendChunk (generateFileId (seedOf 1)) (str "y")),
   .call (.completeUpload (generateFileId (seedOf 1)) (seedOf 2) 11)]

theorem uploadState_told_iff_open : Always (serverStep none {}) AllTold {} openUpload :=
  (uploadState_told_iff none {} openUpload (by decide +kernel)).mpr
    ⟨fun _ => by decide +kernel, trivial, trivial⟩

/-- A completed upload is reported as expired. -/
theorem uploadState_forgets_completed : ¬ ∀ (jwt : Option Jwt) (config : FileConfig)
    (calls : List ServerCall), (calls.flatMap ServerCall.drawn).Nodup →
    Always (serverStep jwt config) AllTold {} calls := by
  intro h
  have hlast := (h none {} (openUpload ++ closeUpload) (by decide +kernel)).last
  have hphase : (run (serverStep none {}) {} (openUpload ++ closeUpload)).phase
      (generateFileId (seedOf 1)) = some (.stored (generateFileId (seedOf 2))) := by decide +kernel
  obtain ⟨body, hbody, hdone, _⟩ := hlast _ _ hphase
  rw [getUploadState_not_completed hbody] at hdone
  cases hdone

end SwiftChat.File
