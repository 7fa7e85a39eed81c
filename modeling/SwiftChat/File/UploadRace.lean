import SwiftChat.File.Contents
import SwiftChat.File.UploadTurns

/-! Calls that take turns on one upload, and when the stored file is what they acknowledged. -/
namespace SwiftChat.File
open Base
variable {config : FileConfig} {u : Bytes} {start : FileState} {log : List Bytes} {ι : Type}
  [DecidableEq ι] {tasks : ι → UploadTask} {i : ι}

abbrev UploadRun (ι : Type) := Config FileAct FileReply FileState UploadAnswer ι

/-- Calls on one upload, none of which has begun. -/
def beginUploads (config : FileConfig) (u : Bytes) (tasks : ι → UploadTask) (st : FileState) :
    UploadRun ι where
  state := st
  calls i := (tasks i).prog config u

def notesOf (u : Bytes) (c : UploadRun ι) (i : ι) : CallNotes :=
  Config.noted (CallNotes.note u) {} i c.log

/-- When the call next changes the count or the file, it is up to date. -/
def Careful (config : FileConfig) (u : Bytes) (c : UploadRun ι) (i : ι) : Prop :=
  UpToDateNext config u (notesOf u c i) c.state (c.calls i)

instance (c : UploadRun ι) (i : ι) : Decidable (Careful config u c i) :=
  inferInstanceAs (Decidable (UpToDateNext config u (notesOf u c i) c.state (c.calls i)))

/-- The chunks acknowledged so far, in order. -/
def ackedChunks (tasks : ι → UploadTask) (c : UploadRun ι) : List Bytes :=
  (c.answers fun i => (tasks i).ackedChunk).reverse

/-- An upload that was reported complete is stored as the acknowledged chunks, `log` before the
calls and the rest by them, in the announced size; its session is gone. -/
def CompletedRight (tasks : ι → UploadTask) (u : Bytes) (start : FileState) (log : List Bytes)
    (c : UploadRun ι) : Prop :=
  ∀ i r, c.answer i = some (.completed r) → r.success = true →
    (∃ info, FileService.readFile c.state r.fileId =
      some ((log ++ ackedChunks tasks c).flatten, info)) ∧
    (∃ s ∈ FileStore.getUploadSession start.db u,
      ((log ++ ackedChunks tasks c).flatten.length : Int) = s.fileSize) ∧
    FileStore.getUploadSession c.state.db u = none

/-- What holds between the turns. -/
structure Running (config : FileConfig) (u : Bytes) (start : FileState) (log : List Bytes)
    (tasks : ι → UploadTask) (c : UploadRun ι) : Prop where
  keeps : ∀ i, (tasks i).Keeps config u (c.calls i) (notesOf u c i)
  finished : c.FinishedOk
  uploading : Uploading config u start c.state (notesOf u c) (log ++ ackedChunks tasks c).flatten

section
variable {c : UploadRun ι} {o : FileAct} {next : FileReply o → FileProg}

theorem notesOf_perform :
    notesOf u (c.perform fileExec i o next) = Function.update (notesOf u c) i
      ((notesOf u c i).note u ⟨o, (fileExec o c.state).2⟩) := by
  funext j
  by_cases hj : j = i
  · subst hj
    rw [Function.update_self]
    exact Config.noted_perform_self
  · rw [Function.update_of_ne hj]
    exact Config.noted_perform_ne hj

theorem acked_perform (h : c.FinishedOk) (hcall : c.calls i = .act o next) :
    (log ++ ackedChunks tasks (c.perform fileExec i o next)).flatten =
      (log ++ ackedChunks tasks c).flatten ++
        ((next (fileExec o c.state).2).answer.bind (tasks i).ackedChunk).getD [] := by
  unfold ackedChunks
  rw [Config.answers_perform h hcall, List.reverse_append, ← List.append_assoc, List.flatten_append]
  cases (next (fileExec o c.state).2).answer.bind (tasks i).ackedChunk with
  | none => rfl
  | some chunk => simp

/-- The rest is the same for all actions. -/
theorem Running.of_uploading (h : Running config u start log tasks c)
    (hcall : c.calls i = .act o next)
    (hup : Uploading config u start (fileExec o c.state).1
      (Function.update (notesOf u c) i ((notesOf u c i).note u ⟨o, (fileExec o c.state).2⟩))
      ((log ++ ackedChunks tasks c).flatten ++
        ((next (fileExec o c.state).2).answer.bind (tasks i).ackedChunk).getD [])) :
    Running config u start log tasks (c.perform fileExec i o next) := by
  refine ⟨Config.follows_perform h.keeps hcall, h.finished.perform hcall, ?_⟩
  rw [notesOf_perform, acked_perform h.finished hcall]
  exact hup

theorem Running.of_quiet (h : Running config u start log tasks c) (hcall : c.calls i = .act o next)
    (hquiet : (tasks i).Quiet (next (fileExec o c.state).2).answer)
    (hup : Uploading config u start (fileExec o c.state).1
      (Function.update (notesOf u c) i ((notesOf u c i).note u ⟨o, (fileExec o c.state).2⟩))
      (log ++ ackedChunks tasks c).flatten) :
    Running config u start log tasks (c.perform fileExec i o next) := by
  refine h.of_uploading hcall ?_
  rw [show _ = none from hquiet]
  simpa using hup

theorem Running.perform (h : Running config u start log tasks c) (hstart : UploadsOk config start)
    (hcall : c.calls i = .act o next) (hcareful : Careful config u c i) :
    Running config u start log tasks (c.perform fileExec i o next) := by
  have hmay := (h.keeps i)
  rw [hcall] at hmay
  replace hmay := hmay.1
  unfold Careful at hcareful
  rw [hcall] at hcareful
  have hup := h.uploading
  cases o with
  | getSession j =>
    obtain ⟨rfl, hfirst, hquiet⟩ := hmay
    exact h.of_quiet hcall (hquiet _) (hup.getSession hfirst)
  | listSessions =>
    obtain ⟨hextra, hquiet⟩ := hmay
    exact h.of_quiet hcall (hquiet _) (hup.listSessions hextra)
  | fileExists path =>
    refine h.of_quiet hcall (hmay _) ?_
    simpa [CallNotes.note, fileExec] using hup
  | append path chunk =>
    obtain ⟨hpath, hextra, hquiet⟩ := hmay
    exact h.of_quiet hcall (hquiet _) (hup.append hstart hpath hextra hcareful)
  | putSession s' =>
    obtain ⟨hs', hacked⟩ := hmay
    obtain ⟨hdone, hput⟩ := hup.put hstart hs' hcareful
    refine h.of_uploading hcall ?_
    rw [show (fileExec (.putSession s') c.state).2 = true from hdone, hacked]
    simpa [CallNotes.note, fileExec] using hput
  | rename path newPath =>
    obtain ⟨hpath, hextra, hnew, hquiet⟩ := hmay
    refine h.of_quiet hcall (hquiet _) ?_
    simp only [fileExec, renameFile]
    cases hfile : c.state.disk.get path with
    | none => simpa [CallNotes.note] using hup
    | some content =>
      have hcareful := hcareful (by rw [hfile]; rfl)
      simpa [CallNotes.note] using hup.rename hstart hpath hextra hnew hcareful hfile
  | saveMeta data =>
    obtain ⟨_, hmoved, hid, hpath, hquiet⟩ := hmay
    obtain ⟨hdone, hsave⟩ := hup.save hmoved hid hpath
    refine h.of_quiet hcall (hquiet _) ?_
    rw [show (fileExec (.saveMeta data) c.state).2 = true from hdone]
    simpa [CallNotes.note, fileExec] using hsave
  | deleteSession j => exact h.of_quiet hcall (hmay _) (hup.deleteSession j)
  | removeFile path =>
    obtain ⟨hpath, hextra, hquiet⟩ := hmay
    refine h.of_quiet hcall (hquiet _) ?_
    simpa [CallNotes.note, fileExec] using hup.removeFile hstart hpath hextra hcareful

theorem Running.completedRight (h : Running config u start log tasks c) :
    CompletedRight tasks u start log c := by
  intro i r hr hsuccess
  have hkeeps := h.keeps i
  have hcall := h.uploading.calls i
  cases hdone : c.calls i with
  | act o next =>
    rw [Config.answer, hdone] at hr
    cases hr
  | ret a =>
    rw [Config.answer, hdone] at hr
    rw [hdone] at hkeeps
    obtain ⟨⟨data, hdata, hid⟩, hclosed⟩ := hkeeps r (Option.some.inj hr) hsuccess
    obtain ⟨hget, hmoved⟩ := hcall.saved data hdata
    have hplace := hcall.moved _ hmoved
    refine ⟨⟨(data.contentType, data.fileName), ?_⟩, hplace.full, hcall.closed hclosed⟩
    rw [← hid]
    simp [FileService.readFile, hget, hplace.content]

end

theorem running_begin {ops : List FileOp} (u : Bytes) (tasks : ι → UploadTask)
    (hfresh : (drawnIds ops).Nodup) :
    Running config u (fileAfter config ops) (acked config u {} ops) tasks
      (beginUploads config u tasks (fileAfter config ops)) := by
  have hrecorded := fileAfter_recorded config hfresh
  refine ⟨fun i => (tasks i).keeps_prog config u, ?_,
    ⟨(fileAfter_uploads config ops).filed, ?_, ?_⟩, fun i => callOk_none, ?_⟩
  · intro j hj
    cases hj
  · intro s hs
    obtain ⟨_, _, hlen⟩ := hrecorded.session u s hs
    refine ⟨s, hs, ?_⟩
    simp only [ackedChunks, Config.answers, beginUploads, List.filterMap_nil, List.reverse_nil,
      List.append_nil, hlen]
  · intro s hs _
    obtain ⟨_, htemp, _⟩ := hrecorded.session u s hs
    simpa [ackedChunks, Config.answers, beginUploads] using htemp
  · intro i j p q hp
    cases hp

/-- Whatever calls take turns on an upload: while each of them is up to date whenever it changes the
count or the file, every upload reported complete is stored as what was acknowledged for it, in the
announced size, and its session is gone for good. -/
theorem completed_upload_right (config : FileConfig) (ops : List FileOp)
    (hfresh : (drawnIds ops).Nodup) (u : Bytes) (tasks : ι → UploadTask) (schedule : List ι)
    (hcareful : AllSteps (Config.tick fileExec) (Careful config u)
      (beginUploads config u tasks (fileAfter config ops)) schedule) :
    Always (Config.tick fileExec)
      (CompletedRight tasks u (fileAfter config ops) (acked config u {} ops))
      (beginUploads config u tasks (fileAfter config ops)) schedule := by
  intro pre hpre
  have hstart := fileAfter_uploads config ops
  have hrunning := Config.always_of_perform
    (fun c i o next (h : Running config u (fileAfter config ops) (acked config u {} ops) tasks c) =>
      h.perform hstart) (running_begin u tasks hfresh) hcareful pre hpre
  exact hrunning.completedRight

/-- A file of two bytes is announced. -/
def twoBytes : List FileOp :=
  [.initUpload { userId := str "a", fileName := str "n", fileSize := 2 } (seedOf 1) 10]

/-- Three chunks of one byte, and the completion. -/
def threeChunks : Fin 4 → UploadTask
  | 0 => .appendChunk (str "a")
  | 1 => .appendChunk (str "b")
  | 2 => .appendChunk (str "c")
  | 3 => .completeUpload (seedOf 3) 12

/-- The third chunk is looked at while the file is being completed, and does not fit. -/
def oneByOne : List (Fin 4) := [0, 0, 0, 0, 1, 1, 1, 1, 3, 2, 3, 3, 3]

theorem oneByOne_right : CompletedRight threeChunks (generateFileId (seedOf 1))
    (fileAfter {} twoBytes) (acked {} (generateFileId (seedOf 1)) {} twoBytes)
    (run (Config.tick fileExec)
      (beginUploads {} (generateFileId (seedOf 1)) threeChunks (fileAfter {} twoBytes)) oneByOne) :=
  (completed_upload_right {} twoBytes (by decide +kernel) (generateFileId (seedOf 1)) threeChunks
    oneByOne (by decide +kernel)).last

/-- The first two chunks are both counted from an empty file. -/
def bothAtOnce : List (Fin 4) := [0, 1, 0, 1, 0, 0, 1, 1, 2, 2, 2, 2, 3, 3, 3, 3]

/-- The state they leave behind. -/
def collided : UploadRun (Fin 4) := run (Config.tick fileExec)
  (beginUploads {} (generateFileId (seedOf 1)) threeChunks (fileAfter {} twoBytes)) bothAtOnce

/-- Three bytes are stored. -/
theorem bothAtOnce_wrong : collided.Returned ∧
    ¬ CompletedRight threeChunks (generateFileId (seedOf 1)) (fileAfter {} twoBytes)
      (acked {} (generateFileId (seedOf 1)) {} twoBytes) collided := by
  constructor
  · unfold Config.Returned
    decide +kernel
  · intro h
    have hdone : collided.answer 3 = some (.completed
        { success := true
          fileId := generateFileId (seedOf 3)
          fileUrl := buildFileUrl {} (generateFileId (seedOf 3)) }) := by decide +kernel
    obtain ⟨_, ⟨s, hs, hlen⟩, _⟩ := h 3 _ hdone rfl
    have hthree : (acked {} (generateFileId (seedOf 1)) {} twoBytes ++
        ackedChunks threeChunks collided).flatten.length = 3 := by decide +kernel
    have htwo : (FileStore.getUploadSession (fileAfter {} twoBytes).db
        (generateFileId (seedOf 1))).map (·.fileSize) = some 2 := by decide +kernel
    rw [Option.mem_def.mp hs, Option.map_some] at htwo
    rw [hthree, Option.some.inj htwo] at hlen
    cases hlen

end SwiftChat.File
