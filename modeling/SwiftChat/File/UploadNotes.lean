import SwiftChat.File.UploadActions
import SwiftChat.File.UploadInvariant

/-! What a call on an upload knows from its own actions, and what it does with that. -/
namespace SwiftChat.File
open Base
variable {config : FileConfig} {u : Bytes} {t : UploadTask} {M : CallNotes}

/-- What a call keeps of its own actions: the session of `u` as it first read it, and the bytes it
appended; then its last read of the session, the sessions it listed, where it moved the file to,
the record it saved, and whether it has deleted the session of `u`. -/
structure CallNotes where
  session : Option UploadSessionData := none
  extra : Bytes := []
  last : Option UploadSessionData := none
  listed : List UploadSessionData := []
  moved : Option Bytes := none
  saved : Option FileMetaData := none
  saveFailed : Bool := false
  closed : Bool := false

def CallNotes.note (u : Bytes) (M : CallNotes) : (Σ o, FileReply o) → CallNotes
  | ⟨.getSession _, s⟩ => { M with session := M.session.or s, last := s }
  | ⟨.listSessions, l⟩ => { M with session := l.find? (·.uploadId = u), listed := l }
  | ⟨.append _ chunk, _⟩ => { M with extra := M.extra ++ chunk }
  | ⟨.rename _ newPath, renamed⟩ => if renamed then { M with moved := some newPath } else M
  | ⟨.saveMeta data, saved⟩ =>
    if saved then { M with saved := some data } else { M with saveFailed := true }
  | ⟨.deleteSession uploadId, _⟩ => if uploadId = u then { M with closed := true } else M
  | _ => M

/-- The session is still what the call first read, and its file holds the bytes that the session
counts and those the call has added, and no others. -/
def UpToDate (config : FileConfig) (u : Bytes) (M : CallNotes) (st : FileState) : Prop :=
  FileStore.getUploadSession st.db u = M.session ∧ ∃ s ∈ M.session,
    (((uploads config st).temp u).length : Int) = s.bytesWritten + M.extra.length

instance {st : FileState} : Decidable (UpToDate config u M st) :=
  inferInstanceAs (Decidable (_ ∧ _))

/-- A program is up to date when it next changes the count or the file of `u`. -/
def UpToDateNext (config : FileConfig) (u : Bytes) (M : CallNotes) (st : FileState) :
    FileProg → Prop
  | .act (.append _ _) _ => UpToDate config u M st
  | .act (.putSession _) _ => UpToDate config u M st
  | .act (.rename path _) _ => (st.disk.get path).isSome = true → UpToDate config u M st
  | .act (.removeFile path) _ =>
    path = getTempPath config u → (st.disk.get path).isSome = true → UpToDate config u M st
  | _ => True

instance {st : FileState} : DecidablePred (UpToDateNext config u M st)
  | .ret _ => .isTrue trivial
  | .act (.getSession _) _ => .isTrue trivial
  | .act .listSessions _ => .isTrue trivial
  | .act (.fileExists _) _ => .isTrue trivial
  | .act (.saveMeta _) _ => .isTrue trivial
  | .act (.deleteSession _) _ => .isTrue trivial
  | .act (.append _ _) _ => inferInstanceAs (Decidable (UpToDate config u M st))
  | .act (.putSession _) _ => inferInstanceAs (Decidable (UpToDate config u M st))
  | .act (.rename _ _) _ => inferInstanceAs (Decidable (_ → UpToDate config u M st))
  | .act (.removeFile _) _ => inferInstanceAs (Decidable (_ → _ → UpToDate config u M st))

/-- The chunk that an answer acknowledges. -/
def UploadTask.ackedChunk (t : UploadTask) (a : UploadAnswer) : Option Bytes :=
  match t, a with
  | .appendChunk chunk, .appended r => if r.success then some chunk else none
  | _, _ => none

/-- Nothing is acknowledged. -/
def UploadTask.Quiet (t : UploadTask) (done : Option UploadAnswer) : Prop :=
  done.bind t.ackedChunk = none

/-- What a call may do, by what it knows. -/
def UploadTask.MayDo (t : UploadTask) (config : FileConfig) (u : Bytes) (M : CallNotes) :
    (o : FileAct) → (FileReply o → FileProg) → Prop
  | .getSession j, next =>
    j = u ∧ (M.session = none → M.extra = []) ∧ ∀ r, t.Quiet (next r).answer
  | .listSessions, next => M.extra = [] ∧ ∀ r, t.Quiet (next r).answer
  | .append path _, next =>
    (∃ s ∈ M.session, path = s.tempPath) ∧ M.extra = [] ∧ ∀ r, t.Quiet (next r).answer
  | .putSession s', next =>
    (∃ s ∈ M.session, ∃ l ∈ M.last,
      s' = { l with bytesWritten := s.bytesWritten + M.extra.length }) ∧
      (next true).answer.bind t.ackedChunk = some M.extra
  | .rename path newPath, next =>
    (∃ s ∈ M.session, path = s.tempPath ∧ s.bytesWritten = s.fileSize) ∧ M.extra = [] ∧
      (∃ f, IsFileId f ∧ newPath = buildStoragePath config f) ∧ ∀ r, t.Quiet (next r).answer
  | .saveMeta data, next =>
    (∃ s ∈ M.session, data.fileSize = s.fileSize) ∧ M.moved = some data.storagePath ∧
      IsFileId data.fileId ∧ data.storagePath = buildStoragePath config data.fileId ∧
      ∀ r, t.Quiet (next r).answer
  | .removeFile path, next =>
    ((∃ s ∈ M.listed, path = s.tempPath) ∨ M.saveFailed = true) ∧ M.extra = [] ∧
      ∀ r, t.Quiet (next r).answer
  | _, next => ∀ r, t.Quiet (next r).answer

/-- A completed upload is reported after its record was saved and its session deleted. -/
def MayAnswer (M : CallNotes) (a : UploadAnswer) : Prop :=
  ∀ r, a = .completed r → r.success = true →
    (∃ data ∈ M.saved, data.fileId = r.fileId) ∧ M.closed = true

abbrev UploadTask.Keeps (t : UploadTask) (config : FileConfig) (u : Bytes) (p : FileProg)
    (M : CallNotes) : Prop :=
  p.Follows (CallNotes.note u) (t.MayDo config u) MayAnswer M

theorem quiet_act {o : FileAct} {next : FileReply o → FileProg} :
    t.Quiet (Prog.act o next : FileProg).answer := rfl

theorem quiet_appendFailed {e : ErrorCode} : t.Quiet (FileProg.appendFailed e).answer := by
  cases t <;> rfl

theorem quiet_completed {r : UploadResult} :
    t.Quiet (Prog.ret (.completed r) : FileProg).answer := by
  cases t <;> rfl

theorem quiet_cleanup {now : Int} {done : Option UploadAnswer} :
    (UploadTask.cleanupExpiredSessions now).Quiet done := by
  cases done <;> rfl

theorem keeps_appended {r : AppendChunkResult} : t.Keeps config u (.ret (.appended r)) M := by
  intro _ h
  cases h

theorem keeps_completeFailed {e : ErrorCode} :
    t.Keeps config u (FileProg.completeFailed e) M := by
  intro r h hs
  cases h
  cases hs

theorem keeps_appendChunk (chunk : Bytes) :
    (UploadTask.appendChunk chunk).Keeps config u (FileProg.appendChunk u chunk) {} := by
  refine ⟨⟨rfl, fun _ => rfl, fun r => ?_⟩, fun r => ?_⟩
  · cases r with
    | none => exact quiet_appendFailed
    | some s =>
      simp only
      split
      · exact quiet_appendFailed
      · exact quiet_act
  · cases r with
    | none => exact keeps_appended
    | some s =>
      simp only
      split
      · exact keeps_appended
      · refine ⟨⟨⟨s, rfl, rfl⟩, rfl, fun _ => quiet_act⟩, fun _ => ?_⟩
        refine ⟨⟨rfl, nofun, fun r => ?_⟩, fun r => ?_⟩
        · cases r with
          | none => exact quiet_appendFailed
          | some l => exact quiet_act
        · cases r with
          | none => exact keeps_appended
          | some l =>
            refine ⟨⟨⟨s, rfl, l, rfl, rfl⟩, rfl⟩, fun r => ?_⟩
            cases r with
            | false => exact keeps_appended
            | true => exact keeps_appended

theorem keeps_completeUpload (seed : FileIdSeed) (now : Int) :
    (UploadTask.completeUpload seed now).Keeps config u
      (FileProg.completeUpload config u seed now) {} := by
  refine ⟨⟨rfl, fun _ => rfl, fun r => ?_⟩, fun r => ?_⟩
  · cases r with
    | none => exact quiet_completed
    | some s =>
      simp only
      split
      · exact quiet_completed
      · exact quiet_act
  · cases r with
    | none => exact keeps_completeFailed
    | some s =>
      simp only
      split
      · exact keeps_completeFailed
      · rename_i hfull
        have hid : IsFileId (generateFileId seed) := ⟨seed, rfl⟩
        refine ⟨⟨⟨s, rfl, rfl, not_not.mp hfull⟩, rfl, ⟨_, hid, rfl⟩, fun r => ?_⟩, fun r => ?_⟩
        · cases r with
          | false => exact quiet_completed
          | true => exact quiet_act
        · cases r with
          | false => exact keeps_completeFailed
          | true =>
            refine ⟨⟨⟨s, rfl, rfl⟩, rfl, hid, rfl, fun r => ?_⟩, fun r => ?_⟩
            · cases r with
              | false => exact quiet_act
              | true => exact quiet_act
            · cases r with
              | false =>
                exact ⟨⟨Or.inr rfl, rfl, fun _ => quiet_completed⟩, fun _ => keeps_completeFailed⟩
              | true =>
                refine ⟨fun _ => quiet_completed, fun _ => ?_⟩
                rintro r hr _
                cases hr
                simp [CallNotes.note, UploadSessionData.toMeta]

theorem keeps_cleanupLoop {now : Int} {sessions : List UploadSessionData} (hextra : M.extra = [])
    (h : ∀ s ∈ sessions, s ∈ M.listed) :
    (UploadTask.cleanupExpiredSessions now).Keeps config u (FileProg.cleanupLoop now sessions) M := by
  induction sessions generalizing M with
  | nil =>
    intro r hr
    cases hr
  | cons s sessions ih =>
    have hsessions : ∀ s' ∈ sessions, s' ∈ M.listed := fun s' hs' => h s' (List.mem_cons_of_mem _ hs')
    have hrest : (UploadTask.cleanupExpiredSessions now).Keeps config u
        (.act (.deleteSession s.uploadId) fun _ => FileProg.cleanupLoop now sessions) M := by
      refine ⟨fun _ => quiet_cleanup, fun r => ?_⟩
      simp only [CallNotes.note]
      split
      · exact ih hextra hsessions
      · exact ih hextra hsessions
    unfold FileProg.cleanupLoop
    split
    · exact ih hextra hsessions
    · refine ⟨fun _ => quiet_cleanup, fun r => ?_⟩
      cases r with
      | false => exact hrest
      | true =>
        exact ⟨⟨Or.inl ⟨s, h s List.mem_cons_self, rfl⟩, hextra, fun _ => quiet_cleanup⟩,
          fun _ => hrest⟩

/-- Every call keeps to its rule from the start. -/
theorem UploadTask.keeps_prog (t : UploadTask) (config : FileConfig) (u : Bytes) :
    t.Keeps config u (t.prog config u) {} := by
  cases t with
  | appendChunk chunk => exact keeps_appendChunk chunk
  | completeUpload seed now => exact keeps_completeUpload seed now
  | cleanupExpiredSessions now =>
    exact ⟨⟨rfl, fun _ => quiet_cleanup⟩, fun _ => keeps_cleanupLoop rfl fun _ hs => hs⟩

end SwiftChat.File
