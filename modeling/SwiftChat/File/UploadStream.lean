import SwiftChat.File.Contents
import SwiftChat.File.FileHandler

/-! Resuming an upload from an offset that the client names. -/
namespace SwiftChat.File
open Base
variable {config : FileConfig} {st : FileState} {u : Bytes} {o p : Int} {seed : FileIdSeed} {now : Int}
  {cs chunks done rest : List Bytes} {A : Uploads} {s : UploadSessionData} {v : UploadVars}

/-- A stream that resumes an upload. -/
def resumeStream (u : Bytes) (offset : Int) (chunks : List Bytes) : List UploadChunk :=
  .resumeMeta u offset :: chunks.map .chunk

/-- Where consecutive chunks belong, from a position on. Empty ones belong nowhere. -/
def placements (p : Int) : List Bytes → List (Int × Bytes)
  | [] => []
  | c :: cs => if c = [] then placements p cs else (p, c) :: placements (p + c.length) cs

/-- Where the chunks of a stream are written: an append writes at the end of the file. -/
def writes (config : FileConfig) (u : Bytes) : FileState → List Bytes → List (Int × Bytes)
  | _, [] => []
  | st, c :: cs =>
    if c = [] then writes config u st cs
    else if (FileService.appendChunk st u c).2.success then
      (((uploads config st).temp u).length, c) ::
        writes config u (FileService.appendChunk st u c).1 cs
    else []

/-- The chunks that are not empty. -/
def solid (chunks : List Bytes) : List Bytes := chunks.filter (· ≠ [])

theorem placements_solid : placements p chunks = placements p (solid chunks) := by
  induction chunks generalizing p with
  | nil => rfl
  | cons c cs ih =>
    by_cases hc : c = []
    · simp [placements, solid, hc, ih]
    · simp [placements, solid, hc, ih]

theorem flatten_solid : (solid chunks).flatten = chunks.flatten := by
  induction chunks with
  | nil => rfl
  | cons c cs ih =>
    by_cases hc : c = []
    · simpa [solid, hc] using ih
    · simpa [solid, hc] using ih

theorem placements_append :
    placements p (done ++ rest) = placements p done ++ placements (p + done.flatten.length) rest := by
  induction done generalizing p with
  | nil => simp [placements]
  | cons c cs ih =>
    by_cases hc : c = []
    · simp [placements, hc, ih]
    · simp only [List.cons_append, placements, hc, if_false, ih, List.flatten_cons,
        List.length_append, Int.natCast_add, Int.add_assoc]

/-- Chunks laid out from one position are in place for another one only if there are none. -/
theorem placements_prefix_iff (hne : ∀ c ∈ done, c ≠ []) :
    placements p done <+: placements o (done ++ rest) ↔ done = [] ∨ p = o := by
  constructor
  · intro h
    cases done with
    | nil => exact Or.inl rfl
    | cons c cs =>
      right
      have hc := hne c List.mem_cons_self
      simp only [List.cons_append, placements, hc, if_false] at h
      exact congrArg Prod.fst (List.cons_prefix_cons.mp h).1
  · rintro (rfl | rfl)
    · exact List.nil_prefix
    · rw [placements_append]
      exact List.prefix_append _ _

theorem placements_eq_nil_iff (hne : ∀ c ∈ done, c ≠ []) : placements p done = [] ↔ done = [] := by
  cases done with
  | nil => simp [placements]
  | cons c cs => simp [placements, hne c List.mem_cons_self]

namespace Uploads

theorem push_nil : A.push u [] = A := by
  ext1
  · simp [push]
  · simp [push]

theorem push_append (a b : Bytes) : (A.push u a).push u b = A.push u (a ++ b) := by
  ext1
  · funext j
    by_cases hj : j = u
    · subst hj
      simp [push, Function.comp_def, Int.add_assoc]
    · simp [push, Function.update_of_ne hj]
  · funext j
    by_cases hj : j = u
    · subst hj
      simp [push]
    · simp [push, Function.update_of_ne hj]

end Uploads

namespace FileService

/-- A call that fails says why. -/
theorem appendChunk_code {chunk : Bytes} (h : (appendChunk st u chunk).2.success = false) :
    (appendChunk st u chunk).2.errorCode ≠ 0 := by
  unfold appendChunk at h ⊢
  cases hs : FileStore.getUploadSession st.db u with
  | none => simp [AppendChunkResult.fail, errorCodeToInt]
  | some s =>
    simp only [hs] at h ⊢
    by_cases hfit : s.bytesWritten + chunk.length > s.fileSize
    · simp [hfit, AppendChunkResult.fail, errorCodeToInt]
    · by_cases hdone : (FileStore.updateUploadSessionBytes st.db u
          (s.bytesWritten + chunk.length)).2 = true
      · simp [hfit, hdone] at h
      · simp [hfit, hdone, AppendChunkResult.fail, errorCodeToInt]

theorem completeUpload_code (h : (completeUpload config st u seed now).2.success = false) :
    (completeUpload config st u seed now).2.errorCode ≠ 0 := by
  unfold completeUpload at h ⊢
  cases hs : FileStore.getUploadSession st.db u with
  | none => simp [UploadResult.fail, errorCodeToInt]
  | some s =>
    simp only [hs] at h ⊢
    by_cases hfull : s.bytesWritten = s.fileSize
    · cases hcontent : st.disk.get s.tempPath with
      | none => simp [hfull, UploadResult.fail, errorCodeToInt]
      | some content =>
        by_cases hsaved : (FileStore.save st.db (s.toMeta (generateFileId seed)
            (buildStoragePath config (generateFileId seed)) now)).2 = true
        · simp [hfull, hcontent, hsaved] at h
        · simp [hfull, hsaved, UploadResult.fail, errorCodeToInt]
    · simp [hfull, UploadResult.fail, errorCodeToInt]

end FileService

/-- What becomes of the chunks of a stream: some are appended, and the loop goes through or stops
at the first chunk that does not fit. -/
structure Consumed (config : FileConfig) (u : Bytes) (chunks : List Bytes) (st : FileState)
    (first : Bool) (r : FileState × Except (RpcResponse UploadResult) UploadVars)
    (done rest : List Bytes) : Prop where
  split : done ++ rest = solid chunks
  writes : writes config u st chunks = placements ((uploads config st).temp u).length done
  ok : UploadsOk config r.1
  view : uploads config r.1 = (uploads config st).push u done.flatten
  begun : done = [] ∨ ((uploads config st).session u).isSome = true
  end_ : (rest = [] ∧ ∃ w, r.2 = .ok w ∧ w.uploadId = u ∧ w.first = first) ∨
    ∃ c cs e, rest = c :: cs ∧ r.2 = .error e ∧ e.code ≠ 0 ∧
      ∀ s, (uploads config r.1).session u = some s → s.fileSize < s.bytesWritten + c.length

theorem uploadLoop_chunks (h : UploadsOk config st) (hu : v.uploadId ≠ []) (chunks : List Bytes) :
    ∃ done rest, Consumed config v.uploadId chunks st v.first
      (FileHandler.uploadLoop st v (chunks.map .chunk)) done rest := by
  induction chunks generalizing st v with
  | nil =>
    refine ⟨[], [], rfl, rfl, h, ?_, Or.inl rfl, Or.inl ⟨rfl, v, rfl, rfl, rfl⟩⟩
    exact Uploads.push_nil.symm
  | cons c cs ih =>
    by_cases hc : c = []
    · obtain ⟨done, rest, hcon⟩ := ih h hu
      refine ⟨done, rest, ?_, ?_, ?_, ?_, hcon.begun, ?_⟩
      · simpa [solid, hc] using hcon.split
      · simpa [writes, hc] using hcon.writes
      all_goals simp only [List.map_cons, FileHandler.uploadLoop, hc, if_true]
      · exact hcon.ok
      · exact hcon.view
      · exact hcon.end_
    · rcases h.appendChunk_cases v.uploadId c with ⟨s, hs, hfit, happend, hview⟩ | ⟨hfull, hsame, hfail⟩
      · have hnext : UploadsOk config (FileService.appendChunk st v.uploadId c).1 :=
          h.appendChunk v.uploadId c
        obtain ⟨done, rest, hcon⟩ := ih (v := { v with writeOffset := s.bytesWritten + c.length })
          hnext hu
        have hloop : FileHandler.uploadLoop st v ((c :: cs).map .chunk) =
            FileHandler.uploadLoop (FileService.appendChunk st v.uploadId c).1
              { v with writeOffset := s.bytesWritten + c.length } (cs.map .chunk) := by
          simp [FileHandler.uploadLoop, hc, hu, happend]
        rw [hloop]
        refine ⟨c :: done, rest, ?_, ?_, hcon.ok, ?_, ?_, hcon.end_⟩
        · simpa [solid, hc] using hcon.split
        · have htemp : ((uploads config (FileService.appendChunk st v.uploadId c).1).temp
              v.uploadId).length = ((uploads config st).temp v.uploadId).length + c.length := by
            rw [hview]
            simp [Uploads.push]
          have hok : (FileService.appendChunk st v.uploadId c).2.success = true := by rw [happend]
          have hrest := hcon.writes
          rw [htemp] at hrest
          simp only [writes, hc, if_false, hok, if_true, placements, hrest]
          rfl
        · rw [hcon.view, hview, Uploads.push_append, List.flatten_cons]
        · right
          simp [uploads, hs]
      · have hloop : ∃ e, FileHandler.uploadLoop st v ((c :: cs).map .chunk) = (st, .error e) ∧
            e.code ≠ 0 := by
          refine ⟨RpcResponse.fail (FileService.appendChunk st v.uploadId c).2.errorCode
            (FileService.appendChunk st v.uploadId c).2.error, ?_, ?_⟩
          · simp [FileHandler.uploadLoop, hc, hu, hfail, hsame]
          · exact FileService.appendChunk_code hfail
        obtain ⟨e, hloop, hcode⟩ := hloop
        rw [hloop]
        refine ⟨[], solid (c :: cs), rfl, ?_, h, ?_, Or.inl rfl,
          Or.inr ⟨c, solid cs, e, ?_, rfl, hcode, hfull⟩⟩
        · simp [writes, hc, hfail, placements]
        · exact Uploads.push_nil.symm
        · simp [solid, hc]

/-- No chunk of the stream gets written: there is no session, no chunk that is not empty, or the
first one does not fit. -/
def NothingWritten (A : Uploads) (u : Bytes) (chunks : List Bytes) : Prop :=
  ∀ s, A.session u = some s → ∀ c ∈ (solid chunks).head?, s.fileSize < s.bytesWritten + c.length

/-- The chunks together fit what is left of the session. -/
def AllFit (A : Uploads) (u : Bytes) (chunks : List Bytes) : Prop :=
  ∀ s, A.session u = some s → s.bytesWritten + chunks.flatten.length ≤ s.fileSize

section
variable (config : FileConfig) (st : FileState) (u : Bytes) (o : Int) (chunks : List Bytes)
  (seed : FileIdSeed) (now : Int)

def resumeUpload : FileState × RpcResponse UploadResult :=
  FileHandler.uploadFile config st seed now (resumeStream u o chunks)

/-- The stream is refused and changes nothing. -/
def Refused : Prop :=
  (resumeUpload config st u o chunks seed now).2.code ≠ 0 ∧
    (uploads config (resumeUpload config st u o chunks seed now).1).temp u = (uploads config st).temp u

/-- Every chunk that is written is written where the offset puts it, and all of them are when the
stream is accepted. -/
def ChunksPlaced : Prop :=
  Refused config st u o chunks seed now ∨
    (writes config u st chunks <+: placements o chunks ∧
      ((resumeUpload config st u o chunks seed now).2.code = 0 →
        writes config u st chunks = placements o chunks))

/-- Every chunk is written, where the offset puts it. -/
def EveryChunkPlaced : Prop :=
  Refused config st u o chunks seed now ∨ writes config u st chunks = placements o chunks

/-- Whoever resumes the upload of a file, part of which is on disk, from a position in the file,
gets that file when the stream is accepted. -/
def SourceServed : Prop :=
  ∀ s source, (uploads config st).session u = some s → (source.length : Int) = s.fileSize →
    (uploads config st).temp u <+: source → chunks.flatten <+: source.drop o.toNat →
    (resumeUpload config st u o chunks seed now).2.code = 0 →
    ∃ info, FileService.readFile (resumeUpload config st u o chunks seed now).1
      (resumeUpload config st u o chunks seed now).2.body.fileId = some (source, info)

end

/-- What a whole stream comes to. -/
structure Outcome (config : FileConfig) (u : Bytes) (chunks : List Bytes) (st : FileState)
    (r : FileState × RpcResponse UploadResult) (done rest : List Bytes) : Prop where
  split : done ++ rest = solid chunks
  writes : writes config u st chunks = placements ((uploads config st).temp u).length done
  fits : done = [] ∨ ∃ s, (uploads config st).session u = some s ∧
    s.bytesWritten + done.flatten.length ≤ s.fileSize
  stopped : ∀ c ∈ rest.head?, ∀ s, (uploads config st).session u = some s →
    s.fileSize < s.bytesWritten + done.flatten.length + c.length
  answer : (r.2.code ≠ 0 ∧
      (uploads config r.1).temp u = (uploads config st).temp u ++ done.flatten) ∨
    (r.2.code = 0 ∧ rest = [] ∧ ∃ s, (uploads config st).session u = some s ∧
      s.bytesWritten + done.flatten.length = s.fileSize ∧
      ∃ info, FileService.readFile r.1 r.2.body.fileId =
        some ((uploads config st).temp u ++ done.flatten, info))

/-- Without an upload id nothing is written. -/
theorem resumeUpload_unnamed (o : Int) (chunks : List Bytes) (seed : FileIdSeed) (now : Int) :
    Outcome config [] chunks st (resumeUpload config st [] o chunks seed now) [] (solid chunks) where
  split := rfl
  writes := by
    induction chunks with
    | nil => rfl
    | cons c cs ih =>
      have hfail : (FileService.appendChunk st [] c).2.success = false := rfl
      have hrest : writes config [] st cs = [] := ih
      simp [writes, hfail, hrest, placements]
  fits := Or.inl rfl
  stopped c _ s hs := by
    rw [show (uploads config st).session [] = none from rfl] at hs
    cases hs
  answer := by
    refine Or.inl ⟨?_, ?_⟩
    · simp [resumeUpload, FileHandler.uploadFile, resumeStream, FileHandler.uploadLoop,
        RpcResponse.fail, errorCodeToInt]
    · simp [resumeUpload, FileHandler.uploadFile, resumeStream, FileHandler.uploadLoop]

/-- A stream whose loop ends early is answered by the loop. -/
theorem resumeUpload_stopped {u : Bytes} {o : Int} {chunks : List Bytes} {seed : FileIdSeed}
    {now : Int} {st' : FileState} {e : RpcResponse UploadResult}
    (hloop : FileHandler.uploadLoop st {} (resumeStream u o chunks) = (st', .error e)) :
    resumeUpload config st u o chunks seed now = (st', e) := by
  unfold resumeUpload FileHandler.uploadFile
  rw [hloop]

/-- A stream that is read to its end is completed. -/
theorem resumeUpload_completed {u : Bytes} {o : Int} {chunks : List Bytes} {seed : FileIdSeed}
    {now : Int} {st' : FileState} {w : UploadVars} (hu : u ≠ [])
    (hid : w.uploadId = u) (hfirst : w.first = false)
    (hloop : FileHandler.uploadLoop st {} (resumeStream u o chunks) = (st', .ok w)) :
    resumeUpload config st u o chunks seed now =
      if (FileService.completeUpload config st' u seed now).2.success then
        ((FileService.completeUpload config st' u seed now).1,
          responseOk (FileService.completeUpload config st' u seed now).2)
      else
        ((FileService.completeUpload config st' u seed now).1,
          RpcResponse.fail (FileService.completeUpload config st' u seed now).2.errorCode
            (FileService.completeUpload config st' u seed now).2.error) := by
  unfold resumeUpload FileHandler.uploadFile
  rw [hloop]
  simp [hid, hfirst, hu]

theorem Consumed.session {first : Bool} {r : FileState × Except (RpcResponse UploadResult) UploadVars}
    {done rest : List Bytes} (h : Consumed config u chunks st first r done rest) :
    (uploads config r.1).session u = ((uploads config st).session u).map fun s =>
      { s with bytesWritten := s.bytesWritten + done.flatten.length } := by
  rw [h.view]
  simp [Uploads.push]

theorem Consumed.temp {first : Bool} {r : FileState × Except (RpcResponse UploadResult) UploadVars}
    {done rest : List Bytes} (h : Consumed config u chunks st first r done rest) :
    (uploads config r.1).temp u = (uploads config st).temp u ++ done.flatten := by
  rw [h.view]
  simp [Uploads.push]

theorem resumeUpload_outcome (h : UploadsOk config st) (u : Bytes) (o : Int) (chunks : List Bytes)
    (seed : FileIdSeed) (now : Int) :
    ∃ done rest, Outcome config u chunks st (resumeUpload config st u o chunks seed now)
      done rest := by
  by_cases hu : u = []
  · subst hu
    exact ⟨[], solid chunks, resumeUpload_unnamed o chunks seed now⟩
  obtain ⟨done, rest, hcon⟩ := uploadLoop_chunks (v := { uploadId := u, writeOffset := o, first := false })
    h hu chunks
  generalize hr : FileHandler.uploadLoop st { uploadId := u, writeOffset := o, first := false }
    (chunks.map .chunk) = r at hcon
  have hloop : FileHandler.uploadLoop st {} (resumeStream u o chunks) = r := by
    simp [resumeStream, FileHandler.uploadLoop, hu, hr]
  have hsession : ∀ s, (uploads config st).session u = some s →
      (uploads config r.1).session u =
        some { s with bytesWritten := s.bytesWritten + done.flatten.length } := by
    intro s hs
    rw [hcon.session, hs]
    rfl
  refine ⟨done, rest, hcon.split, hcon.writes, ?_, ?_, ?_⟩
  · refine hcon.begun.imp_right ?_
    intro hsome
    obtain ⟨s, hs⟩ := Option.isSome_iff_exists.mp hsome
    exact ⟨s, hs, (hcon.ok.sane u _ (hsession s hs)).2.1⟩
  · intro c hc s hs
    rcases hcon.end_ with ⟨hrest, _⟩ | ⟨c', cs, e, hrest, _, _, hfull⟩
    · rw [hrest] at hc
      cases hc
    · rw [hrest] at hc
      obtain rfl : c' = c := by simpa using hc
      exact hfull _ (hsession s hs)
  · rcases hcon.end_ with ⟨hrest, w, hw, hid, hfirst⟩ | ⟨c, cs, e, _, he, hcode, _⟩
    · have hres : resumeUpload config st u o chunks seed now = _ :=
        resumeUpload_completed hu hid hfirst (hloop.trans (Prod.ext rfl hw))
      rcases hcon.ok.completeUpload_cases u seed now with
        ⟨s', hs', hfull, hstate, hok, hfile⟩ | ⟨_, hsame, hfail⟩
      · right
        rw [hres, if_pos hok]
        obtain ⟨s, hs, rfl⟩ := Option.map_eq_some_iff.mp (hcon.session.symm.trans hs')
        refine ⟨rfl, hrest, s, hs, hfull, ?_⟩
        rw [hstate, hcon.temp, responseOk, RpcResponse.ok, hfile]
        exact ⟨_, readFile_added FileService.generateFileId_ne_nil⟩
      · left
        rw [hres, hfail, hsame]
        exact ⟨FileService.completeUpload_code hfail, hcon.temp⟩
    · left
      rw [resumeUpload_stopped (hloop.trans (Prod.ext rfl he))]
      exact ⟨hcode, hcon.temp⟩

namespace Outcome
variable {r : FileState × RpcResponse UploadResult}

theorem solid_all (h : Outcome config u chunks st r done rest) :
    ∀ c ∈ done ++ rest, c ≠ [] := by
  intro c hc
  rw [h.split] at hc
  simpa [solid] using (List.mem_filter.mp hc).2

theorem solid_done (h : Outcome config u chunks st r done rest) : ∀ c ∈ done, c ≠ [] :=
  fun c hc => h.solid_all c (List.mem_append_left _ hc)

theorem solid_rest (h : Outcome config u chunks st r done rest) : ∀ c ∈ rest, c ≠ [] :=
  fun c hc => h.solid_all c (List.mem_append_right _ hc)

theorem done_eq_nil_iff (h : Outcome config u chunks st r done rest) :
    done = [] ↔ NothingWritten (uploads config st) u chunks := by
  constructor
  · rintro rfl s hs c hc
    rw [← h.split] at hc
    simpa using h.stopped c hc s hs
  · intro hnothing
    rcases h.fits with hnil | ⟨s, hs, hfit⟩
    · exact hnil
    · cases hdone : done with
      | nil => rfl
      | cons c cs =>
        have hhead : c ∈ (solid chunks).head? := by
          rw [← h.split, hdone]
          rfl
        have hfull := hnothing s hs c hhead
        rw [hdone, List.flatten_cons, List.length_append] at hfit
        omega

/-- The stream goes through exactly when all its chunks fit. -/
theorem rest_eq_nil_iff (h : Outcome config u chunks st r done rest) (hdone : done ≠ []) :
    rest = [] ↔ AllFit (uploads config st) u chunks := by
  obtain ⟨s, hs, hfit⟩ := h.fits.resolve_left hdone
  constructor
  · rintro rfl s' hs'
    obtain rfl := Option.some.inj (hs.symm.trans hs')
    rwa [← flatten_solid, ← h.split, List.append_nil]
  · intro hall
    cases hrest : rest with
    | nil => rfl
    | cons c cs =>
      have hstop := h.stopped c (by rw [hrest]; rfl) s hs
      have htotal := hall s hs
      rw [← flatten_solid, ← h.split, hrest, List.flatten_append, List.flatten_cons,
        List.length_append, List.length_append] at htotal
      omega

theorem refused_iff (h : Outcome config u chunks st (resumeUpload config st u o chunks seed now) done rest) :
    Refused config st u o chunks seed now ↔
      done = [] ∧ (resumeUpload config st u o chunks seed now).2.code ≠ 0 := by
  constructor
  · rintro ⟨hcode, hsame⟩
    rcases h.answer with ⟨_, htemp⟩ | ⟨hzero, _⟩
    · refine ⟨?_, hcode⟩
      rw [htemp] at hsame
      have hflat : done.flatten = [] := by simpa using hsame
      by_contra hne
      obtain ⟨c, cs, rfl⟩ := List.exists_cons_of_ne_nil hne
      have hc := h.solid_done c List.mem_cons_self
      simp [hc] at hflat
    · exact absurd hzero hcode
  · rintro ⟨rfl, hcode⟩
    rcases h.answer with ⟨_, htemp⟩ | ⟨hzero, _⟩
    · exact ⟨hcode, by simpa using htemp⟩
    · exact absurd hzero hcode

theorem chunksPlaced_iff
    (h : Outcome config u chunks st (resumeUpload config st u o chunks seed now) done rest) :
    ChunksPlaced config st u o chunks seed now ↔
      done = [] ∨ o = ((uploads config st).temp u).length := by
  unfold ChunksPlaced
  rw [h.refused_iff, h.writes, placements_solid (p := o), ← h.split,
    placements_prefix_iff h.solid_done]
  constructor
  · rintro (⟨hnil, _⟩ | ⟨hnil | hpos, _⟩)
    · exact Or.inl hnil
    · exact Or.inl hnil
    · exact Or.inr hpos.symm
  · intro hcond
    right
    refine ⟨hcond.imp_right Eq.symm, ?_⟩
    intro hcode
    rcases h.answer with ⟨hne, _⟩ | ⟨_, hrest, _⟩
    · exact absurd hcode hne
    · rw [hrest, List.append_nil]
      rcases hcond with hnil | hpos
      · rw [hnil]
        rfl
      · rw [hpos]

theorem everyChunkPlaced_iff
    (h : Outcome config u chunks st (resumeUpload config st u o chunks seed now) done rest) :
    EveryChunkPlaced config st u o chunks seed now ↔
      done = [] ∨ (o = ((uploads config st).temp u).length ∧ rest = []) := by
  unfold EveryChunkPlaced
  rw [h.refused_iff, h.writes, placements_solid (p := o), ← h.split]
  constructor
  · rintro (⟨hnil, _⟩ | heq)
    · exact Or.inl hnil
    · have hpre := (placements_prefix_iff h.solid_done).mp ⟨[], by rw [List.append_nil, heq]⟩
      refine hpre.imp_right ?_
      intro hpos
      rw [← hpos, placements_append] at heq
      have hrest : placements (((uploads config st).temp u).length + done.flatten.length) rest = [] := by
        simpa using heq
      exact ⟨hpos.symm, (placements_eq_nil_iff h.solid_rest).mp hrest⟩
  · rintro (hnil | ⟨hpos, hrest⟩)
    · rcases h.answer with ⟨hcode, _⟩ | ⟨_, hrest, _⟩
      · exact Or.inl ⟨hnil, hcode⟩
      · right
        rw [hnil, hrest]
        rfl
    · right
      rw [hpos, hrest, List.append_nil]

/-- The accepted bytes are those of the file when the position was the right one. -/
theorem sourceServed
    (h : Outcome config u chunks st (resumeUpload config st u o chunks seed now) done rest)
    (hok : UploadsOk config st) (hcond : done = [] ∨ o = ((uploads config st).temp u).length) :
    SourceServed config st u o chunks seed now := by
  intro s source hs hlen htemp hchunks hcode
  rcases h.answer with ⟨hne, _⟩ | ⟨_, hrest, s', hs', hfull, info, hread⟩
  · exact absurd hcode hne
  obtain rfl := Option.some.inj (hs.symm.trans hs')
  refine ⟨info, ?_⟩
  rw [hread]
  have hsplit := h.split
  rw [hrest, List.append_nil] at hsplit
  have hflat : done.flatten = chunks.flatten := by rw [hsplit, flatten_solid]
  have hpre : (uploads config st).temp u ++ done.flatten <+: source := by
    rcases hcond with hnil | hpos
    · simpa [hnil] using htemp
    · rw [hpos, Int.toNat_natCast, ← hflat] at hchunks
      obtain ⟨tail, rfl⟩ := htemp
      rw [List.drop_left] at hchunks
      exact (List.prefix_append_right_inj _).mpr hchunks
  have hwritten := (hok.sane u s hs).1
  have heq := hpre.eq_of_length_le (by rw [List.length_append]; omega)
  rw [heq]

end Outcome

/-- For every reachable state, upload id, offset and chunks: every chunk goes to its place or the
refused stream leaves the file as it was, and the client is served its own file, exactly when
nothing is written at all, or the offset is the length of the temporary file and all chunks fit.
That the chunks which do get written are in place takes the offset alone. -/
theorem resumeUpload_placed_iff (config : FileConfig) (ops : List FileOp) (u : Bytes) (o : Int)
    (chunks : List Bytes) (seed : FileIdSeed) (now : Int) :
    (EveryChunkPlaced config (fileAfter config ops) u o chunks seed now ∧
        SourceServed config (fileAfter config ops) u o chunks seed now ↔
      NothingWritten (uploads config (fileAfter config ops)) u chunks ∨
        (o = ((uploads config (fileAfter config ops)).temp u).length ∧
          AllFit (uploads config (fileAfter config ops)) u chunks)) ∧
    (ChunksPlaced config (fileAfter config ops) u o chunks seed now ∧
        SourceServed config (fileAfter config ops) u o chunks seed now ↔
      NothingWritten (uploads config (fileAfter config ops)) u chunks ∨
        o = ((uploads config (fileAfter config ops)).temp u).length) := by
  have hok := fileAfter_uploads config ops
  obtain ⟨done, rest, h⟩ := resumeUpload_outcome hok u o chunks seed now
  refine ⟨?_, ?_⟩
  · have hevery : EveryChunkPlaced config (fileAfter config ops) u o chunks seed now ↔
        NothingWritten (uploads config (fileAfter config ops)) u chunks ∨
          (o = ((uploads config (fileAfter config ops)).temp u).length ∧
            AllFit (uploads config (fileAfter config ops)) u chunks) := by
      rw [h.everyChunkPlaced_iff, ← h.done_eq_nil_iff]
      by_cases hdone : done = []
      · simp [hdone]
      · rw [h.rest_eq_nil_iff hdone]
    constructor
    · rintro ⟨hplaced, _⟩
      exact hevery.mp hplaced
    · intro hcond
      refine ⟨hevery.mpr hcond, h.sourceServed hok ?_⟩
      rw [h.done_eq_nil_iff]
      exact hcond.imp_right And.left
  · rw [← h.done_eq_nil_iff]
    constructor
    · rintro ⟨hplaced, _⟩
      exact h.chunksPlaced_iff.mp hplaced
    · intro hcond
      exact ⟨h.chunksPlaced_iff.mpr hcond, h.sourceServed hok hcond⟩

/-- Two bytes of an upload of four are there. -/
def halfUploaded : List FileOp :=
  [.initUpload { userId := str "a", fileName := str "n", fileSize := 4 } (seedOf 1) 10,
   .appendChunk (generateFileId (seedOf 1)) (str "ab")]

/-- A client that resumes one byte too early is answered with success, for a file that is not
its own. -/
theorem resumeUpload_misplaces :
    ¬ ChunksPlaced {} (fileAfter {} halfUploaded) (generateFileId (seedOf 1)) 1 [str "bc"] (seedOf 2)
        11 ∧
    ¬ EveryChunkPlaced {} (fileAfter {} halfUploaded) (generateFileId (seedOf 1)) 1 [str "bc"]
        (seedOf 2) 11 ∧
    ¬ SourceServed {} (fileAfter {} halfUploaded) (generateFileId (seedOf 1)) 1 [str "bc"] (seedOf 2)
        11 := by
  have hcode : (resumeUpload {} (fileAfter {} halfUploaded) (generateFileId (seedOf 1)) 1 [str "bc"]
      (seedOf 2) 11).2.code = 0 := by decide +kernel
  have hwrites : writes {} (generateFileId (seedOf 1)) (fileAfter {} halfUploaded) [str "bc"] ≠
      placements 1 [str "bc"] := by decide +kernel
  refine ⟨?_, ?_, ?_⟩
  · rintro (⟨hrefused, _⟩ | ⟨_, hall⟩)
    · exact hrefused hcode
    · exact hwrites (hall hcode)
  · rintro (⟨hrefused, _⟩ | hall)
    · exact hrefused hcode
    · exact hwrites hall
  · intro hserved
    have hsize : ((uploads {} (fileAfter {} halfUploaded)).session
        (generateFileId (seedOf 1))).map (·.fileSize) = some 4 := by decide +kernel
    obtain ⟨s, hs, hfour⟩ := Option.map_eq_some_iff.mp hsize
    obtain ⟨info, hread⟩ := hserved s (str "abcd") hs (by rw [hfour]; decide) (by decide +kernel)
      (by decide +kernel) hcode
    have hcontent : (FileService.readFile (resumeUpload {} (fileAfter {} halfUploaded)
        (generateFileId (seedOf 1)) 1 [str "bc"] (seedOf 2) 11).1 (generateFileId (seedOf 2))).map
          Prod.fst = some (str "abbc") := by decide +kernel
    have hid : (resumeUpload {} (fileAfter {} halfUploaded) (generateFileId (seedOf 1)) 1 [str "bc"]
        (seedOf 2) 11).2.body.fileId = generateFileId (seedOf 2) := by decide +kernel
    rw [hid] at hread
    rw [hread, Option.map_some] at hcontent
    have hsame : str "abcd" = str "abbc" := Option.some.inj hcontent
    exact absurd hsame (by decide)

end SwiftChat.File
