import SwiftChat.Base.Run
import SwiftChat.File.FileStore

/-! Finding a file by its checksum, over runs that save and delete records. -/
namespace SwiftChat.File
open Base

/-- A change of the stored records. -/
inductive StoreOp where
  | save (data : FileMetaData)
  | delete (fileId : Bytes)

def storeStep (db : FileDb) : StoreOp → FileDb
  | .save data => (FileStore.save db data).1
  | .delete fileId => (FileStore.delete db fileId).1

/-- The ids a run saves records under, in order. -/
def savedIds (ops : List StoreOp) : List Bytes :=
  ops.filterMap fun
    | .save data => some data.fileId
    | .delete _ => none

theorem savedIds_append (ops ops' : List StoreOp) :
    savedIds (ops ++ ops') = savedIds ops ++ savedIds ops' := List.filterMap_append

variable {db : FileDb} {m f j : Bytes} {data : FileMetaData} {op : StoreOp} {ops : List StoreOp}
  {ids : List Bytes}

/-- A file with the checksum is stored under the id. -/
def HasMd5 (db : FileDb) (m f : Bytes) : Prop :=
  ∃ data, FileStore.getById db f = some data ∧ data.md5 = m

/-- Looking for a checksum gives a stored file with it, or there is none. -/
def FoundByMd5 (m : Bytes) (db : FileDb) : Prop :=
  match FileStore.getByMd5 db m with
  | some data => FileStore.getById db data.fileId = some data ∧ data.md5 = m
  | none => ∀ f, ¬ HasMd5 db m f

/-- No file is stored without a checksum when files without one are looked for, and no file is
deleted while another one has its checksum. -/
def KeepsFound (m : Bytes) (db : FileDb) : StoreOp → Prop
  | .save data => data.fileId ≠ [] → data.md5 = m → m ≠ []
  | .delete f => HasMd5 db m f → ∀ j, j ≠ f → ¬ HasMd5 db m j

/-- Records are stored under their own ids, and a checksum leads to a record that has it. -/
structure Indexed (db : FileDb) : Prop where
  own : ∀ f data, FileStore.getById db f = some data → data.fileId = f
  entry : ∀ m v, db.get (keyFileMd5 m) = some v → m ≠ [] ∧ ∃ f, v = .ref f ∧ HasMd5 db m f

/-- A record is saved under an id that has none. -/
def SavesNew (db : FileDb) : StoreOp → Prop
  | .save data => FileStore.getById db data.fileId = none
  | .delete _ => True

theorem keyFileMd5_inj (h : keyFileMd5 f = keyFileMd5 j) : f = j := List.append_cancel_left h

theorem get_save_md5 (h : data.fileId ≠ []) (hm : data.md5 ≠ []) :
    (FileStore.save db data).1.get (keyFileMd5 m) =
      if m = data.md5 then some (.ref data.fileId) else db.get (keyFileMd5 m) := by
  simp only [FileStore.save, h, hm, if_false, OrderedMap.write_cons, OrderedMap.apply_put,
    OrderedMap.write_nil]
  by_cases he : m = data.md5
  · simp [he]
  · rw [if_neg he, OrderedMap.get_put_ne (fun hk => he (keyFileMd5_inj hk)),
      OrderedMap.get_put_ne keyFile_ne_keyFileMd5.symm]

theorem get_save_no_md5 (hm : data.md5 = []) :
    (FileStore.save db data).1.get (keyFileMd5 m) = db.get (keyFileMd5 m) := by
  unfold FileStore.save
  split
  · rfl
  · simp [OrderedMap.get_put_ne keyFile_ne_keyFileMd5.symm]

theorem get_delete_md5 (h : FileStore.getById db f = some data) :
    (FileStore.delete db f).1.get (keyFileMd5 m) =
      if data.md5 ≠ [] ∧ m = data.md5 then none else db.get (keyFileMd5 m) := by
  rw [FileStore.get_delete_known h]
  apply if_congr _ rfl rfl
  constructor
  · rintro (hk | ⟨hne, hk⟩)
    · exact absurd hk.symm keyFile_ne_keyFileMd5
    · exact ⟨hne, keyFileMd5_inj hk⟩
  · rintro ⟨hne, rfl⟩
    exact Or.inr ⟨hne, rfl⟩

theorem save_no_id (h : data.fileId = []) : (FileStore.save db data).1 = db := by
  simp [FileStore.save, h]

theorem delete_unknown (h : FileStore.getById db f = none) : (FileStore.delete db f).1 = db := by
  simp [FileStore.delete, h]

/-- Saving adds its own record. -/
theorem hasMd5_save (h : data.fileId ≠ []) (hnew : FileStore.getById db data.fileId = none) :
    HasMd5 (FileStore.save db data).1 m f ↔
      (f = data.fileId ∧ data.md5 = m) ∨ HasMd5 db m f := by
  unfold HasMd5
  rw [FileStore.getById_save h]
  by_cases hf : f = data.fileId
  · subst hf
    simp [hnew]
  · simp [hf]

/-- Deleting takes one record away. -/
theorem hasMd5_delete (h : FileStore.getById db f = some data) :
    HasMd5 (FileStore.delete db f).1 m j ↔ j ≠ f ∧ HasMd5 db m j := by
  unfold HasMd5
  rw [FileStore.getById_delete h]
  by_cases hj : j = f
  · simp [hj]
  · simp [hj]

namespace Indexed

theorem empty : Indexed OrderedMap.empty where
  own f data h := by simp [FileStore.getById] at h
  entry m v h := by simp at h

theorem save (h : Indexed db) (hnew : FileStore.getById db data.fileId = none) :
    Indexed (FileStore.save db data).1 := by
  by_cases hid : data.fileId = []
  · rw [save_no_id hid]
    exact h
  constructor
  · intro f data' hf
    rw [FileStore.getById_save hid] at hf
    split at hf
    · rename_i he
      obtain rfl := Option.some.inj hf
      exact he.symm
    · exact h.own f data' hf
  · intro m v hv
    have hold : db.get (keyFileMd5 m) = some v → m ≠ [] ∧ ∃ f, v = .ref f ∧
        HasMd5 (FileStore.save db data).1 m f := by
      intro hv
      obtain ⟨hne, f, rfl, hf⟩ := h.entry m v hv
      exact ⟨hne, f, rfl, (hasMd5_save hid hnew).mpr (Or.inr hf)⟩
    by_cases hm : data.md5 = []
    · rw [get_save_no_md5 hm] at hv
      exact hold hv
    · rw [get_save_md5 hid hm] at hv
      split at hv
      · rename_i he
        obtain rfl := Option.some.inj hv
        subst he
        exact ⟨hm, data.fileId, rfl, (hasMd5_save hid hnew).mpr (Or.inl ⟨rfl, rfl⟩)⟩
      · exact hold hv

theorem delete (h : Indexed db) (f : Bytes) : Indexed (FileStore.delete db f).1 := by
  cases hf : FileStore.getById db f with
  | none =>
    rw [delete_unknown hf]
    exact h
  | some data =>
    constructor
    · intro j data' hj
      rw [FileStore.getById_delete hf] at hj
      split at hj
      · cases hj
      · exact h.own j data' hj
    · intro m v hv
      rw [get_delete_md5 hf] at hv
      split at hv
      · cases hv
      · rename_i hkept
        obtain ⟨hne, j, rfl, hj⟩ := h.entry m v hv
        refine ⟨hne, j, rfl, (hasMd5_delete hf).mpr ⟨?_, hj⟩⟩
        -- an entry for the deleted record is cleared with it
        rintro rfl
        obtain ⟨data', hdata, rfl⟩ := hj
        rw [hf] at hdata
        obtain rfl := Option.some.inj hdata
        exact hkept ⟨hne, rfl⟩

theorem step (h : Indexed db) (op : StoreOp) (hnew : SavesNew db op) :
    Indexed (storeStep db op) := by
  cases op with
  | save data => exact h.save hnew
  | delete f => exact h.delete f

/-- The checksum is found exactly when it is not empty and has an entry. -/
theorem found_iff (h : Indexed db) (m : Bytes) :
    FoundByMd5 m db ↔ ((∃ f, HasMd5 db m f) → m ≠ [] ∧ (db.get (keyFileMd5 m)).isSome) := by
  unfold FoundByMd5 FileStore.getByMd5
  by_cases hm : m = []
  · simp [hm]
  rw [if_neg hm]
  cases hv : db.get (keyFileMd5 m) with
  | none => simp
  | some v =>
    obtain ⟨_, f, rfl, data, hf, hmd5⟩ := h.entry m v hv
    have hown : data.fileId = f := h.own f data hf
    simp [hf, hown, hmd5, hm]

theorem found_save_iff (h : Indexed db) (hnew : FileStore.getById db data.fileId = none)
    (hfound : FoundByMd5 m db) :
    FoundByMd5 m (FileStore.save db data).1 ↔ KeepsFound m db (.save data) := by
  by_cases hid : data.fileId = []
  · rw [save_no_id hid]
    exact ⟨fun _ hne => absurd hid hne, fun _ => hfound⟩
  rw [(h.save hnew).found_iff]
  rw [h.found_iff] at hfound
  by_cases hmd5 : data.md5 = m
  · subst hmd5
    have hhas : ∃ f, HasMd5 (FileStore.save db data).1 data.md5 f :=
      ⟨data.fileId, (hasMd5_save hid hnew).mpr (Or.inl ⟨rfl, rfl⟩)⟩
    constructor
    · intro hnow _ _
      exact (hnow hhas).1
    · intro hkeep _
      have hm : data.md5 ≠ [] := hkeep hid rfl
      exact ⟨hm, by simp [get_save_md5 hid hm]⟩
  · constructor
    · intro _ _ he
      exact absurd he hmd5
    · rintro _ ⟨f, hf⟩
      rcases (hasMd5_save hid hnew).mp hf with ⟨_, he⟩ | hf
      · exact absurd he hmd5
      obtain ⟨hm, hentry⟩ := hfound ⟨f, hf⟩
      refine ⟨hm, ?_⟩
      by_cases hnone : data.md5 = []
      · rwa [get_save_no_md5 hnone]
      · rwa [get_save_md5 hid hnone, if_neg (Ne.symm hmd5)]

theorem found_delete_iff (h : Indexed db) (hfound : FoundByMd5 m db) :
    FoundByMd5 m (FileStore.delete db f).1 ↔ KeepsFound m db (.delete f) := by
  cases hf : FileStore.getById db f with
  | none =>
    rw [delete_unknown hf]
    refine ⟨?_, fun _ => hfound⟩
    rintro _ ⟨data, hdata, _⟩
    rw [hf] at hdata
    cases hdata
  | some data =>
    rw [(h.delete f).found_iff]
    rw [h.found_iff] at hfound
    by_cases hmd5 : data.md5 = m
    · have hhas : HasMd5 db m f := ⟨data, hf, hmd5⟩
      have hm : m ≠ [] := (hfound ⟨f, hhas⟩).1
      subst hmd5
      -- the entry goes, whichever record it was for
      have hgone : (FileStore.delete db f).1.get (keyFileMd5 data.md5) = none := by
        rw [get_delete_md5 hf, if_pos ⟨hm, rfl⟩]
      constructor
      · intro hnow _ j hj hother
        have hentry := (hnow ⟨j, (hasMd5_delete hf).mpr ⟨hj, hother⟩⟩).2
        rw [hgone] at hentry
        cases hentry
      · rintro hkeep ⟨j, hj⟩
        obtain ⟨hne, hother⟩ := (hasMd5_delete hf).mp hj
        exact absurd hother (hkeep hhas j hne)
    · constructor
      · rintro _ ⟨data', hdata, he⟩
        rw [hf] at hdata
        obtain rfl := Option.some.inj hdata
        exact absurd he hmd5
      · rintro _ ⟨j, hj⟩
        obtain ⟨hm, hentry⟩ := hfound ⟨j, ((hasMd5_delete hf).mp hj).2⟩
        exact ⟨hm, by rwa [get_delete_md5 hf, if_neg (fun hd => hmd5 hd.2.symm)]⟩

/-- What a single change does to the search for a checksum. -/
theorem found_step_iff (h : Indexed db) (hnew : SavesNew db op) (hfound : FoundByMd5 m db) :
    FoundByMd5 m (storeStep db op) ↔ KeepsFound m db op := by
  cases op with
  | save data => exact h.found_save_iff hnew hfound
  | delete f => exact h.found_delete_iff hfound

end Indexed

/-- A stored id was saved. -/
theorem stored_step (h : ∀ f data, FileStore.getById db f = some data → f ∈ ids) (op : StoreOp) :
    ∀ f data, FileStore.getById (storeStep db op) f = some data → f ∈ ids ++ savedIds [op] := by
  intro f data' hf
  cases op with
  | save data =>
    by_cases hid : data.fileId = []
    · rw [storeStep, save_no_id hid] at hf
      exact List.mem_append_left _ (h f data' hf)
    · rw [storeStep, FileStore.getById_save hid] at hf
      split at hf
      · rename_i he
        exact List.mem_append_right _ (by simp [savedIds, he])
      · exact List.mem_append_left _ (h f data' hf)
  | delete g =>
    apply List.mem_append_left
    cases hg : FileStore.getById db g with
    | none =>
      rw [storeStep, delete_unknown hg] at hf
      exact h f data' hf
    | some data =>
      rw [storeStep, FileStore.getById_delete hg] at hf
      split at hf
      · cases hf
      · exact h f data' hf

theorem savesNew_of_stored (h : ∀ f data, FileStore.getById db f = some data → f ∈ ids)
    (hnew : ∀ i ∈ savedIds [op], i ∉ ids) : SavesNew db op := by
  cases op with
  | save data =>
    cases hget : FileStore.getById db data.fileId with
    | none => exact hget
    | some old => exact absurd (h _ old hget) (hnew _ (by simp [savedIds]))
  | delete f => exact trivial

theorem savedIds_eq (ops : List StoreOp) : savedIds ops = ops.flatMap fun op => savedIds [op] := by
  induction ops with
  | nil => rfl
  | cons op ops ih => rw [List.flatMap_cons, ← ih, ← savedIds_append, List.singleton_append]

/-- In every run that saves under distinct ids, a checksum is found as long as files with it are
stored exactly when it is not the empty one, should there be files without a checksum, and no file
is deleted while another one has the checksum. -/
theorem getByMd5_finds_iff (m : Bytes) (ops : List StoreOp) (hdistinct : (savedIds ops).Nodup) :
    Always storeStep (FoundByMd5 m) OrderedMap.empty ops ↔
      AllSteps storeStep (KeepsFound m) OrderedMap.empty ops := by
  rw [savedIds_eq] at hdistinct
  have hstored : ∀ f data, FileStore.getById OrderedMap.empty f = some data → f ∈ ([] : List Bytes) := by
    intro f data h
    simp [FileStore.getById] at h
  have hfound : FoundByMd5 m OrderedMap.empty := by
    rw [Indexed.empty.found_iff]
    rintro ⟨f, data, hf, _⟩
    exact absurd (hstored f data hf) (by simp)
  -- the account holds the ids that were saved so far
  refine always_iff_allSteps_account (J := fun ids db => Indexed db ∧
      ∀ f data, FileStore.getById db f = some data → f ∈ ids) ?_ ?_ ⟨Indexed.empty, hstored⟩ hfound
    (allSteps_new hdistinct)
  · rintro ids db op ⟨h, hids⟩ hnew _
    exact ⟨h.step op (savesNew_of_stored hids hnew), stored_step hids op⟩
  · rintro ids db op ⟨h, hids⟩ hnew hright
    exact h.found_step_iff (savesNew_of_stored hids hnew) hright

/-- The record of a picture. -/
def picture (fileId : Bytes) : FileMetaData :=
  { fileId := fileId, fileName := str "cat.png", fileSize := 3, md5 := str "d41d" }

/-- A picture is found again after its first copy was deleted and a second one saved. -/
theorem getByMd5_finds_iff_again : Always storeStep (FoundByMd5 (str "d41d")) OrderedMap.empty
    [.save (picture (str "1")), .delete (str "1"), .save (picture (str "2"))] := by
  refine (getByMd5_finds_iff (str "d41d") _ (by decide)).mpr ⟨?_, ?_, ?_, trivial⟩
  · exact fun _ _ => by decide
  · rintro _ j hj ⟨data, hdata, _⟩
    simp only [storeStep] at hdata
    have hother : j ≠ (picture (str "1")).fileId := hj
    rw [FileStore.getById_save (by decide), if_neg hother] at hdata
    simp [FileStore.getById] at hdata
  · exact fun _ _ => by decide

/-- Of two copies the deletion of the first hides the second. -/
theorem getByMd5_misses_copy : ¬ ∀ (m : Bytes) (ops : List StoreOp), (savedIds ops).Nodup →
    Always storeStep (FoundByMd5 m) OrderedMap.empty ops := by
  intro h
  have hlast := (h (str "d41d")
    [.save (picture (str "1")), .save (picture (str "2")), .delete (str "1")] (by decide)).last
  generalize hdb : run storeStep OrderedMap.empty
    [.save (picture (str "1")), .save (picture (str "2")), .delete (str "1")] = db at hlast
  have hmissed : FileStore.getByMd5 db (str "d41d") = none := by
    rw [← hdb]
    decide +kernel
  have hstored : FileStore.getById db (str "2") = some (picture (str "2")) := by
    rw [← hdb]
    decide +kernel
  rw [FoundByMd5, hmissed] at hlast
  exact hlast (str "2") ⟨_, hstored, rfl⟩

end SwiftChat.File
