import SwiftChat.File.UploadNotes

/-! What each action of a call does to an upload on which other calls work too. -/
namespace SwiftChat.File
open Base
variable {config : FileConfig} {u : Bytes} {start st st' : FileState} {M : CallNotes}
  {F F' : Bytes} {n : Nat} {s : UploadSessionData}

/-- The session the upload had at the start, with another count. -/
def CopyAt (start : FileState) (u : Bytes) (n : Nat) (s : UploadSessionData) : Prop :=
  ∃ s₀, FileStore.getUploadSession start.db u = some s₀ ∧ s = { s₀ with bytesWritten := n }

theorem CopyAt.held (h : CopyAt start u n s) (hstart : UploadsOk config start) :
    IsFileId u ∧ s.uploadId = u ∧ s.tempPath = getTempPath config u := by
  obtain ⟨s₀, h₀, rfl⟩ := h
  obtain ⟨hid, hfile, hpath⟩ := hstart.filed.held h₀
  exact ⟨hfile, hid, hpath⟩

/-- What was acknowledged is all of the file. -/
def Full (start : FileState) (u F : Bytes) : Prop :=
  ∃ s₀, FileStore.getUploadSession start.db u = some s₀ ∧ (F.length : Int) = s₀.fileSize

theorem Full.length_pos (h : Full start u F) (hstart : UploadsOk config start) : 0 < F.length := by
  obtain ⟨s₀, h₀, hfull⟩ := h
  have hpos := (hstart.sane u s₀ h₀).2.2.1
  omega

/-- The file has been moved to its place, and nothing is left to append to. -/
structure MovedTo (config : FileConfig) (u : Bytes) (start st : FileState) (F p : Bytes) : Prop where
  content : st.disk.get p = some F
  full : Full start u F
  stored : ∃ f, IsFileId f ∧ p = buildStoragePath config f
  gone : ∀ s, FileStore.getUploadSession st.db u = some s → (uploads config st).temp u = []

/-- What a call knows is right; `F` is what has been acknowledged for the upload. -/
structure CallOk (config : FileConfig) (u : Bytes) (start st : FileState) (F : Bytes)
    (M : CallNotes) : Prop where
  read : ∀ s, M.session = some s ∨ M.last = some s → ∃ n ≤ F.length, CopyAt start u n s
  listed : ∀ s ∈ M.listed, s.tempPath = getTempPath config s.uploadId
  extra : ∀ s, M.session = some s → M.extra ≠ [] →
    FileStore.getUploadSession st.db u = some s → (uploads config st).temp u = F ++ M.extra
  moved : ∀ p, M.moved = some p → MovedTo config u start st F p
  saved : ∀ data, M.saved = some data →
    FileStore.getById st.db data.fileId = some data ∧ M.moved = some data.storagePath
  reported : M.saveFailed = false
  closed : M.closed = true → FileStore.getUploadSession st.db u = none

/-- A call that has done nothing knows nothing. -/
theorem callOk_none : CallOk config u start st F {} where
  read s hs := by
    rcases hs with hs | hs
    · cases hs
    · cases hs
  listed s hs := by cases hs
  extra s hs := by cases hs
  moved p hp := by cases hp
  saved data hdata := by cases hdata
  reported := rfl
  closed h := by cases h

/-- The upload between two turns. -/
structure Aligned (config : FileConfig) (u : Bytes) (start st : FileState) (F : Bytes) : Prop where
  filed : Filed config st.db
  session : ∀ s, FileStore.getUploadSession st.db u = some s → CopyAt start u F.length s
  count : ∀ s, FileStore.getUploadSession st.db u = some s →
    ((uploads config st).temp u).length = F.length → (uploads config st).temp u = F

/-- What a call that is up to date may conclude. -/
theorem Aligned.upToDate (h : Aligned config u start st F) (hup : UpToDate config u M st) :
    ∃ s, M.session = some s ∧ FileStore.getUploadSession st.db u = some s ∧
      CopyAt start u F.length s ∧
      ((uploads config st).temp u).length = F.length + M.extra.length := by
  obtain ⟨hsame, s, hs, hlen⟩ := hup
  have hs' : FileStore.getUploadSession st.db u = some s := hsame.trans hs
  obtain ⟨s₀, h₀, hcopy⟩ := h.session s hs'
  refine ⟨s, hs, hs', ⟨s₀, h₀, hcopy⟩, ?_⟩
  rw [hcopy] at hlen
  simp only at hlen
  omega

/-- Then the file has not been moved, nor the session deleted, by anyone. -/
theorem CallOk.untouched {M' : CallNotes} (h : CallOk config u start st F M')
    (hstart : UploadsOk config start) (hal : Aligned config u start st F)
    (hup : UpToDate config u M st) :
    M'.moved = none ∧ M'.saved = none ∧ M'.closed = false := by
  obtain ⟨s, _, hs, _, hlen⟩ := hal.upToDate hup
  have hmoved : M'.moved = none := by
    by_contra hne
    obtain ⟨p, hp⟩ := Option.ne_none_iff_exists'.mp hne
    have hpos := (h.moved p hp).full.length_pos hstart
    rw [(h.moved p hp).gone s hs] at hlen
    simp only [List.length_nil] at hlen
    omega
  refine ⟨hmoved, ?_, ?_⟩
  · by_contra hne
    obtain ⟨data, hdata⟩ := Option.ne_none_iff_exists'.mp hne
    have hm := (h.saved data hdata).2
    rw [hmoved] at hm
    cases hm
  · by_contra hne
    have hnone := h.closed (by simpa using hne)
    rw [hs] at hnone
    cases hnone

/-- A call that has touched nothing yet only has to find its own bytes again. -/
theorem CallOk.of_untouched (h : CallOk config u start st F M)
    (hfree : M.moved = none ∧ M.saved = none ∧ M.closed = false) (hF : F.length ≤ F'.length)
    (hextra : ∀ s, M.session = some s → M.extra ≠ [] →
      FileStore.getUploadSession st'.db u = some s → (uploads config st').temp u = F' ++ M.extra) :
    CallOk config u start st' F' M where
  read s hs := by
    obtain ⟨n, hn, hcopy⟩ := h.read s hs
    exact ⟨n, hn.trans hF, hcopy⟩
  listed := h.listed
  extra := hextra
  moved p hp := by
    rw [hfree.1] at hp
    cases hp
  saved data hdata := by
    rw [hfree.2.1] at hdata
    cases hdata
  reported := h.reported
  closed hc := by
    rw [hfree.2.2] at hc
    cases hc

/-- A change that leaves the upload and the stored files alone, or ends the session. -/
theorem CallOk.frame (h : CallOk config u start st F M)
    (hsession : ∀ s, FileStore.getUploadSession st'.db u = some s →
      FileStore.getUploadSession st.db u = some s ∧
        (uploads config st').temp u = (uploads config st).temp u)
    (hdisk : ∀ f, IsFileId f →
      st'.disk.get (buildStoragePath config f) = st.disk.get (buildStoragePath config f))
    (hdb : ∀ data, M.saved = some data → FileStore.getById st'.db data.fileId = some data) :
    CallOk config u start st' F M where
  read := h.read
  listed := h.listed
  extra s hs hne hs' := by
    obtain ⟨hold, htemp⟩ := hsession s hs'
    rw [htemp]
    exact h.extra s hs hne hold
  moved p hp := by
    obtain ⟨hcontent, hfull, ⟨f, hf, rfl⟩, hgone⟩ := h.moved p hp
    refine ⟨?_, hfull, ⟨f, hf, rfl⟩, ?_⟩
    · rw [hdisk f hf]
      exact hcontent
    · intro s hs
      obtain ⟨hold, htemp⟩ := hsession s hs
      rw [htemp]
      exact hgone s hold
  saved data hdata := ⟨hdb data hdata, (h.saved data hdata).2⟩
  reported := h.reported
  closed hc := by
    cases hs : FileStore.getUploadSession st'.db u with
    | none => rfl
    | some s =>
      have hnone := h.closed hc
      rw [(hsession s hs).1] at hnone
      cases hnone

/-- The file is as long as what was acknowledged, so the call has not added to it. -/
theorem CallOk.no_extra (h : CallOk config u start st F M)
    (hlen : ((uploads config st).temp u).length = F.length) (hM : M.session = some s)
    (hs : FileStore.getUploadSession st.db u = some s) : M.extra = [] := by
  by_contra hne
  have hlong := congrArg List.length (h.extra s hM hne hs)
  rw [List.length_append] at hlong
  have := List.length_pos_iff.mpr hne
  omega

/-! The turns. -/

section
variable {ι : Type} {N : ι → CallNotes} {i : ι} {path newPath chunk : Bytes} {data : FileMetaData}

/-- The upload and the calls on it; `N` is what the calls know. -/
structure Uploading (config : FileConfig) (u : Bytes) (start st : FileState) (N : ι → CallNotes)
    (F : Bytes) : Prop where
  aligned : Aligned config u start st F
  calls : ∀ i, CallOk config u start st F (N i)
  alone : ∀ i j p q, (N i).moved = some p → (N j).moved = some q → i = j

theorem Uploading.untouched (h : Uploading config u start st N F) (hstart : UploadsOk config start)
    (hup : UpToDate config u (N i) st) (j : ι) :
    (N j).moved = none ∧ (N j).saved = none ∧ (N j).closed = false :=
  (h.calls j).untouched hstart h.aligned hup

/-- The count is written: the chunk is acknowledged. -/
theorem Uploading.put {s' : UploadSessionData} (h : Uploading config u start st N F)
    (hstart : UploadsOk config start)
    (hs' : ∃ s ∈ (N i).session, ∃ l ∈ (N i).last,
      s' = { l with bytesWritten := s.bytesWritten + (N i).extra.length })
    (hup : UpToDate config u (N i) st) :
    (FileStore.saveUploadSession st.db s').2 = true ∧
    Uploading config u start { st with db := (FileStore.saveUploadSession st.db s').1 } N
      (F ++ (N i).extra) := by
  obtain ⟨s, hsession, hs, ⟨s₀, h₀, rfl⟩, hlen⟩ := h.aligned.upToDate hup
  have hnew : s' = { s₀ with bytesWritten := (F ++ (N i).extra).length } := by
    obtain ⟨s₁, hs₁, l, hl, rfl⟩ := hs'
    obtain rfl := Option.some.inj (hsession.symm.trans hs₁)
    obtain ⟨n, _, s₂, h₂, rfl⟩ := (h.calls i).read l (Or.inr hl)
    obtain rfl := Option.some.inj (h₀.symm.trans h₂)
    simp
  obtain ⟨hid, huid, hpath⟩ := CopyAt.held ⟨s₀, h₀, hnew⟩ hstart
  have hne : s'.uploadId ≠ [] := by
    rw [huid]
    exact hid.ne_nil
  have hget : FileStore.getUploadSession (FileStore.saveUploadSession st.db s').1 u = some s' := by
    rw [FileStore.getUploadSession_save hne, if_pos huid.symm]
  have htemp : (uploads config st).temp u = F ++ (N i).extra := by
    by_cases hnil : (N i).extra = []
    · rw [hnil, List.append_nil]
      rw [hnil, List.length_nil, Nat.add_zero] at hlen
      exact h.aligned.count _ hs hlen
    · exact (h.calls i).extra _ hsession hnil hs
  refine ⟨by simp [FileStore.saveUploadSession, hne], ⟨?_, ?_, ?_⟩, ?_, ?_⟩
  · refine h.aligned.filed.saveUploadSession ?_ ?_
    · rw [huid]
      exact hid
    · rw [huid]
      exact hpath
  · intro s₁ hs₁
    obtain rfl := Option.some.inj (hget.symm.trans hs₁)
    exact ⟨s₀, h₀, hnew⟩
  · intro s₁ _ _
    exact htemp
  · intro j
    refine (h.calls j).of_untouched (h.untouched hstart hup j) (by simp) ?_
    intro s₁ hj hne₁ hs₁
    obtain rfl := Option.some.inj (hget.symm.trans hs₁)
    -- a call that has read the new count read the old one, so nothing was added
    obtain ⟨n, hn, s₂, h₂, hcopy⟩ := (h.calls j).read s' (Or.inl hj)
    have hsame : ((F ++ (N i).extra).length : Int) = n := by
      have := congrArg UploadSessionData.bytesWritten (hnew.symm.trans hcopy)
      simpa using this
    have hnil : (N i).extra = [] := by
      rw [List.length_append] at hsame
      exact List.length_eq_zero_iff.mp (by omega)
    rw [hnil, List.append_nil] at hnew ⊢
    exact (h.calls j).extra s' hj hne₁ (hnew ▸ hs)
  · intro j k p q hp
    rw [(h.untouched hstart hup j).1] at hp
    cases hp

theorem Uploading.removeFile (h : Uploading config u start st N F) (hstart : UploadsOk config start)
    (hpath : (∃ s ∈ (N i).listed, path = s.tempPath) ∨ (N i).saveFailed = true)
    (hextra : (N i).extra = [])
    (hup : path = getTempPath config u → (st.disk.get path).isSome = true →
      UpToDate config u (N i) st) :
    Uploading config u start { st with disk := st.disk.delete path } N F := by
  obtain ⟨j, rfl⟩ : ∃ j, path = getTempPath config j := by
    rcases hpath with ⟨s, hs, rfl⟩ | hfail
    · exact ⟨s.uploadId, (h.calls i).listed s hs⟩
    · rw [(h.calls i).reported] at hfail
      cases hfail
  by_cases hchange : j = u ∧ (st.disk.get (getTempPath config j)).isSome = true
  · obtain ⟨rfl, hfile⟩ := hchange
    have hup := hup rfl hfile
    obtain ⟨s, _, _, _, hlen⟩ := h.aligned.upToDate hup
    rw [hextra, List.length_nil, Nat.add_zero] at hlen
    have hgone : (uploads config
        { st with disk := st.disk.delete (getTempPath config j) }).temp j = [] := by
      simp [uploads]
    refine ⟨⟨h.aligned.filed, h.aligned.session, ?_⟩, ?_, h.alone⟩
    · intro s₁ _ hlong
      rw [hgone, List.length_nil] at hlong
      rw [hgone, List.length_eq_zero_iff.mp hlong.symm]
    · intro k
      refine (h.calls k).of_untouched (h.untouched hstart hup k) le_rfl ?_
      intro s₁ hk hne hs₁
      exact absurd ((h.calls k).no_extra hlen hk hs₁) hne
  · have hsame : (uploads config
        { st with disk := st.disk.delete (getTempPath config j) }).temp u =
          (uploads config st).temp u := by
      simp only [uploads]
      by_cases hj : j = u
      · have habsent : st.disk.get (getTempPath config j) = none := by
          simpa [hj] using hchange
        rw [OrderedMap.delete_absent habsent]
      · rw [OrderedMap.get_delete_ne (fun he => hj (getTempPath_inj he).symm)]
    refine ⟨⟨h.aligned.filed, h.aligned.session, ?_⟩, ?_, h.alone⟩
    · intro s₁ hs₁
      rw [hsame]
      exact h.aligned.count s₁ hs₁
    · intro k
      refine (h.calls k).frame (fun s₁ hs₁ => ⟨hs₁, hsame⟩) ?_ ?_
      · intro f hf
        exact OrderedMap.get_delete_ne hf.storagePath_ne
      · intro data hdata
        exact ((h.calls k).saved data hdata).1

variable [DecidableEq ι]

theorem Uploading.turn (h : Uploading config u start st N F)
    (haligned : Aligned config u start st' F') (hself : CallOk config u start st' F' M)
    (hothers : ∀ j, j ≠ i → CallOk config u start st' F' (N j))
    (hmoved : M.moved = (N i).moved ∨ ∀ j, (N j).moved = none) :
    Uploading config u start st' (Function.update N i M) F' := by
  refine ⟨haligned, ?_, ?_⟩
  · intro j
    by_cases hj : j = i
    · rw [hj, Function.update_self]
      exact hself
    · rw [Function.update_of_ne hj]
      exact hothers j hj
  · intro j k p q hp hq
    by_cases hj : j = i
    · by_cases hk : k = i
      · rw [hj, hk]
      · subst hj
        rw [Function.update_self] at hp
        rw [Function.update_of_ne hk] at hq
        rcases hmoved with hsame | hnone
        · exact h.alone j k p q (hsame ▸ hp) hq
        · rw [hnone k] at hq
          cases hq
    · rw [Function.update_of_ne hj] at hp
      by_cases hk : k = i
      · subst hk
        rw [Function.update_self] at hq
        rcases hmoved with hsame | hnone
        · exact h.alone j k p q hp (hsame ▸ hq)
        · rw [hnone j] at hp
          cases hp
      · rw [Function.update_of_ne hk] at hq
        exact h.alone j k p q hp hq

/-- A call that only looks. -/
theorem Uploading.look (h : Uploading config u start st N F)
    (hself : CallOk config u start st F M) (hmoved : M.moved = (N i).moved) :
    Uploading config u start st (Function.update N i M) F :=
  h.turn h.aligned hself (fun j _ => h.calls j) (Or.inl hmoved)

/-- A session that was listed is the one a read finds. -/
theorem Filed.getUploadSession_of_listed {db : FileDb} {s : UploadSessionData} (h : Filed config db)
    (hs : s ∈ FileStore.listAllUploadSessions db) :
    FileStore.getUploadSession db s.uploadId = some s ∧
      s.tempPath = getTempPath config s.uploadId := by
  obtain ⟨j, hj⟩ := FileStore.mem_listAllUploadSessions hs
  obtain ⟨rfl, hid, hpath⟩ := h.session j s hj
  refine ⟨?_, hpath⟩
  simp [FileStore.getUploadSession, hid.ne_nil, hj]

/-- The session is read: the call knows it from now on. -/
theorem Uploading.getSession (h : Uploading config u start st N F)
    (hfirst : (N i).session = none → (N i).extra = []) :
    Uploading config u start st (Function.update N i
      ((N i).note u ⟨.getSession u, FileStore.getUploadSession st.db u⟩)) F := by
  have hold := h.calls i
  refine h.look { hold with read := ?_, extra := ?_ } rfl
  · intro s hs
    have hnow : FileStore.getUploadSession st.db u = some s →
        ∃ n ≤ F.length, CopyAt start u n s :=
      fun hs => ⟨_, le_rfl, h.aligned.session s hs⟩
    rcases hs with hs | hs
    · rcases Option.or_eq_some_iff.mp hs with hs | ⟨_, hs⟩
      · exact hold.read s (Or.inl hs)
      · exact hnow hs
    · exact hnow hs
  · intro s hs hne
    cases hsession : (N i).session with
    | none => exact absurd (hfirst hsession) hne
    | some s' =>
      simp only [CallNotes.note, hsession, Option.some_or] at hs
      exact hold.extra s (hsession.trans hs) hne

/-- All sessions are listed: the call knows them from now on. -/
theorem Uploading.listSessions (h : Uploading config u start st N F) (hextra : (N i).extra = []) :
    Uploading config u start st (Function.update N i
      ((N i).note u ⟨.listSessions, FileStore.listAllUploadSessions st.db⟩)) F := by
  have hold := h.calls i
  refine h.look { hold with read := ?_, listed := ?_, extra := ?_ } rfl
  · intro s hs
    rcases hs with hs | hs
    · have hmem := List.mem_of_find?_eq_some hs
      have hid := List.find?_some hs
      simp only [decide_eq_true_eq] at hid
      have hget := (h.aligned.filed.getUploadSession_of_listed hmem).1
      rw [hid] at hget
      exact ⟨_, le_rfl, h.aligned.session s hget⟩
    · exact hold.read s (Or.inr hs)
  · intro s hs
    exact (h.aligned.filed.getUploadSession_of_listed hs).2
  · intro s _ hne
    exact absurd hextra hne

theorem temp_appendFile :
    (uploads config { st with disk := appendFile st.disk (getTempPath config u) chunk }).temp u =
      (uploads config st).temp u ++ chunk := by
  simp [uploads, appendFile]

theorem Uploading.append (h : Uploading config u start st N F) (hstart : UploadsOk config start)
    (hpath : ∃ s ∈ (N i).session, path = s.tempPath) (hextra : (N i).extra = [])
    (hup : UpToDate config u (N i) st) :
    Uploading config u start { st with disk := appendFile st.disk path chunk }
      (Function.update N i { N i with extra := (N i).extra ++ chunk }) F := by
  obtain ⟨s, hsession, hs, hcopy, hlen⟩ := h.aligned.upToDate hup
  obtain ⟨s', hs', rfl⟩ := hpath
  obtain rfl := Option.some.inj (hsession.symm.trans hs')
  rw [hextra, List.length_nil, Nat.add_zero] at hlen
  have htemp := h.aligned.count s hs hlen
  have hafter : (uploads config { st with disk := appendFile st.disk s.tempPath chunk }).temp u =
      F ++ chunk := by
    rw [(hcopy.held hstart).2.2, temp_appendFile, htemp]
  have hkeep : ∀ j, CallOk config u start { st with disk := appendFile st.disk s.tempPath chunk } F
      (N j) := by
    intro j
    refine (h.calls j).of_untouched (h.untouched hstart hup j) le_rfl ?_
    intro s₁ hj hne hs₁
    exact absurd ((h.calls j).no_extra hlen hj hs₁) hne
  refine h.turn ⟨h.aligned.filed, h.aligned.session, ?_⟩ ?_ (fun j _ => hkeep j) (Or.inl rfl)
  · intro s₁ hs₁ hlong
    rw [hafter] at hlong ⊢
    have hnil : chunk = [] := by
      rw [List.length_append] at hlong
      exact List.length_eq_zero_iff.mp (by omega)
    rw [hnil, List.append_nil]
  · refine { hkeep i with extra := ?_ }
    intro s₁ _ _ _
    rw [hafter, hextra, List.nil_append]

theorem Uploading.rename (h : Uploading config u start st N F) (hstart : UploadsOk config start)
    (hpath : ∃ s ∈ (N i).session, path = s.tempPath ∧ s.bytesWritten = s.fileSize)
    (hextra : (N i).extra = []) (hnew : ∃ f, IsFileId f ∧ newPath = buildStoragePath config f)
    (hup : UpToDate config u (N i) st) {content : Bytes} (hfile : st.disk.get path = some content) :
    Uploading config u start { st with disk := (st.disk.delete path).put newPath content }
      (Function.update N i { N i with moved := some newPath }) F := by
  obtain ⟨s, hsession, hs, hcopy, hlen⟩ := h.aligned.upToDate hup
  obtain ⟨s', hs', rfl, hfull⟩ := hpath
  obtain rfl := Option.some.inj (hsession.symm.trans hs')
  have htmp := (hcopy.held hstart).2.2
  rw [hextra, List.length_nil, Nat.add_zero] at hlen
  obtain rfl : content = F := by
    have htemp := h.aligned.count s hs hlen
    rw [htmp] at hfile
    simpa [uploads, hfile] using htemp
  obtain ⟨f, hf, rfl⟩ := hnew
  have hgone : (uploads config { st with
      disk := (st.disk.delete s.tempPath).put (buildStoragePath config f) content }).temp u = [] := by
    simp only [uploads, htmp]
    rw [OrderedMap.get_put_ne hf.storagePath_ne.symm, OrderedMap.get_delete_self]
    rfl
  have hkeep : ∀ j, CallOk config u start { st with
      disk := (st.disk.delete s.tempPath).put (buildStoragePath config f) content } content (N j) := by
    intro j
    refine (h.calls j).of_untouched (h.untouched hstart hup j) le_rfl ?_
    intro s₁ hj hne hs₁
    exact absurd ((h.calls j).no_extra hlen hj hs₁) hne
  refine h.turn ⟨h.aligned.filed, h.aligned.session, ?_⟩ ?_ (fun j _ => hkeep j)
    (Or.inr fun j => (h.untouched hstart hup j).1)
  · intro s₁ _ hlong
    rw [hgone, List.length_nil] at hlong
    rw [hgone, List.length_eq_zero_iff.mp hlong.symm]
  · refine { hkeep i with moved := ?_, saved := ?_ }
    · intro p hp
      obtain rfl := Option.some.inj hp
      refine ⟨OrderedMap.get_put_self, ?_, ⟨f, hf, rfl⟩, fun _ _ => hgone⟩
      obtain ⟨s₀, h₀, rfl⟩ := hcopy
      exact ⟨s₀, h₀, hfull⟩
    · intro data hdata
      rw [(h.untouched hstart hup i).2.1] at hdata
      cases hdata

theorem Uploading.save (h : Uploading config u start st N F)
    (hmoved : (N i).moved = some data.storagePath) (hid : IsFileId data.fileId)
    (hpath : data.storagePath = buildStoragePath config data.fileId) :
    (FileStore.save st.db data).2 = true ∧
    Uploading config u start { st with db := (FileStore.save st.db data).1 }
      (Function.update N i { N i with saved := some data }) F := by
  have hsession : FileStore.getUploadSession (FileStore.save st.db data).1 u =
      FileStore.getUploadSession st.db u := FileStore.getUploadSession_congr FileStore.get_save_upload
  have hframe : ∀ j, (∀ data', (N j).saved = some data' →
      FileStore.getById (FileStore.save st.db data).1 data'.fileId = some data') →
      CallOk config u start { st with db := (FileStore.save st.db data).1 } F (N j) := by
    intro j hj
    refine (h.calls j).frame ?_ (fun _ _ => rfl) hj
    intro s hs
    exact ⟨hsession.symm.trans hs, rfl⟩
  refine ⟨by simp [FileStore.save, hid.ne_nil], ?_⟩
  refine h.turn ⟨h.aligned.filed.save hid hpath, ?_, ?_⟩ ?_ (fun j hj => hframe j ?_) (Or.inl rfl)
  · intro s hs
    exact h.aligned.session s (hsession.symm.trans hs)
  · intro s hs
    exact h.aligned.count s (hsession.symm.trans hs)
  · have hold := h.calls i
    refine ⟨hold.read, hold.listed, ?_, ?_, ?_, hold.reported, ?_⟩
    · intro s hs hne hs'
      exact hold.extra s hs hne (hsession.symm.trans hs')
    · intro p hp
      have hmv := hold.moved p hp
      exact ⟨hmv.content, hmv.full, hmv.stored, fun s hs => hmv.gone s (hsession.symm.trans hs)⟩
    · intro data' hdata'
      obtain rfl := Option.some.inj hdata'
      refine ⟨?_, hmoved⟩
      rw [FileStore.getById_save hid.ne_nil, if_pos rfl]
    · intro hc
      exact hsession.trans (hold.closed hc)
  · intro data' hdata'
    exact absurd (h.alone j i _ _ ((h.calls j).saved data' hdata').2 hmoved) hj

theorem getUploadSession_deleted {db : FileDb} {j : Bytes} :
    FileStore.getUploadSession (FileStore.deleteUploadSession db j).1 u =
      if j = u then none else FileStore.getUploadSession db u := by
  by_cases hj : j = []
  · subst hj
    simp only [FileStore.deleteUploadSession, if_true]
    split
    · rename_i hu
      subst hu
      rfl
    · rfl
  · by_cases hju : j = u
    · subst hju
      simp [FileStore.getUploadSession, FileStore.get_deleteUploadSession hj]
    · rw [if_neg hju]
      apply FileStore.getUploadSession_congr
      rw [FileStore.get_deleteUploadSession hj, if_neg (Ne.symm hju)]

theorem Uploading.deleteSession (h : Uploading config u start st N F) (j : Bytes) :
    Uploading config u start { st with db := (FileStore.deleteUploadSession st.db j).1 }
      (Function.update N i (if j = u then { N i with closed := true } else N i)) F := by
  have hsession : ∀ s, FileStore.getUploadSession (FileStore.deleteUploadSession st.db j).1 u =
      some s → FileStore.getUploadSession st.db u = some s := by
    intro s hs
    rw [getUploadSession_deleted] at hs
    split at hs
    · cases hs
    · exact hs
  have hkeep : ∀ k, CallOk config u start
      { st with db := (FileStore.deleteUploadSession st.db j).1 } F (N k) := by
    intro k
    refine (h.calls k).frame (fun s hs => ⟨hsession s hs, rfl⟩) (fun _ _ => rfl) ?_
    intro data hdata
    rw [FileStore.getById_deleteUploadSession]
    exact ((h.calls k).saved data hdata).1
  refine h.turn ⟨h.aligned.filed.deleteUploadSession, fun s hs => h.aligned.session s (hsession s hs),
    fun s hs => h.aligned.count s (hsession s hs)⟩ ?_ (fun k _ => hkeep k) ?_
  · split
    · rename_i hj
      refine { hkeep i with closed := ?_ }
      intro _
      rw [getUploadSession_deleted, if_pos hj]
    · exact hkeep i
  · split <;> exact Or.inl rfl

end

end SwiftChat.File
