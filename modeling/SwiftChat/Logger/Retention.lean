import SwiftChat.Logger.Rotation

/-! How much of a log rotation leaves, and in how many files. -/
namespace SwiftChat.Logger
open Base

namespace FileSinkState
variable {s s' : FileSinkState} {clock : LocalTime} {file : LogStream} {o : Opening}
  {e : Surroundings} {name text : Bytes} {listable : Bool}

/-- How many own files there are. -/
def ownCount (s : FileSinkState) : Nat := (s.directory.files.pieces s.config.Own).length

/-- What the files hold that rotation leaves beside the open one. -/
def window (s : FileSinkState) : Nat := (s.config.maxFileCount - 1).toNat * s.maxFileSize

/-- Nobody else has files that pass the test of the clean-up, and only the open file may be smaller
than the limit. -/
structure Full (s : FileSinkState) : Prop where
  exclusive : ∀ name, (s.directory.files.get name).isSome → s.config.matchesLog name →
    s.config.Own name
  full : ∀ name content, s.directory.files.get name = some content → s.config.Own name →
    (∀ file, s.file = some file → file.name ≠ name) → s.maxFileSize ≤ content.length
  size : ∀ file, s.file = some file → s.currentFileSize ≤
    ((s.directory.files.get file.name).getD []).length + file.buffered.length

theorem Full.spill (h : s.Full) (hordered : s.Ordered clock) (n : Nat) : (s.spill n).Full := by
  unfold FileSinkState.spill
  split
  · exact h
  · rename_i file hfile
    have hpresent := hordered.present file hfile
    refine ⟨?_, ?_, ?_⟩
    · intro name hname
      rw [isSome_append hpresent] at hname
      exact h.exclusive name hname
    · intro name content hget hown hne
      have hname : name ≠ file.name := (hne _ rfl).symm
      rw [Directory.files_append hpresent, OrderedMap.get_put_ne hname] at hget
      refine h.full name content hget hown ?_
      intro other hother
      rw [hfile] at hother
      obtain rfl := Option.some.inj hother
      exact hname.symm
    · rintro _ ⟨⟩
      have hsize := h.size file hfile
      simp only [Directory.files_append hpresent, OrderedMap.get_put_self, Option.getD_some,
        List.length_append, List.length_take, List.length_drop]
      omega

theorem ownCount_spill (hordered : s.Ordered clock) (n : Nat) : (s.spill n).ownCount = s.ownCount := by
  unfold FileSinkState.spill
  split
  · rfl
  · rename_i file hfile
    exact OrderedMap.length_pieces_congr fun _ _ => isSome_append (hordered.present file hfile)

@[simp] theorem maxFileSize_spill {n : Nat} : (s.spill n).maxFileSize = s.maxFileSize := by
  unfold FileSinkState.spill
  split <;> rfl

@[simp] theorem maxFileSize_openNewFile : (s.openNewFile o).1.maxFileSize = s.maxFileSize := by
  unfold openNewFile
  dsimp only
  split <;> rfl

@[simp] theorem maxFileSize_foreign {content : Option Bytes} :
    (s.foreign name content).maxFileSize = s.maxFileSize := by
  unfold foreign
  split
  · cases content <;> rfl
  · rfl

@[simp] theorem currentFileSize_foreign {content : Option Bytes} :
    (s.foreign name content).currentFileSize = s.currentFileSize := by
  unfold foreign
  split
  · cases content <;> rfl
  · rfl

/-- A file that has reached its size is closed. -/
theorem Full.close (h : s.Full) (hordered : s.Ordered clock)
    (hsize : s.maxFileSize ≤ s.currentFileSize) : s.close.Full := by
  have hflush : s.flush.Full := flush_eq_spill ▸ h.spill hordered _
  refine ⟨hflush.exclusive, ?_, fun file hfile => by cases hfile⟩
  intro name content hget hown _
  by_cases hopen : ∃ file, s.flush.file = some file ∧ file.name = name
  · obtain ⟨file, hfile, rfl⟩ := hopen
    have hempty : file.buffered = [] := by
      have hbuffered := flush_buffered (s := s)
      rwa [buffered, hfile, Option.elim_some] at hbuffered
    have hlength := hflush.size file hfile
    have hgetClose : s.flush.directory.files.get file.name = some content := hget
    have hcur : s.flush.currentFileSize = s.currentFileSize := by
      unfold flush
      split <;> rfl
    have hmax : s.close.maxFileSize = s.maxFileSize :=
      (flush_eq_spill (s := s) ▸ maxFileSize_spill : s.flush.maxFileSize = s.maxFileSize)
    rw [hgetClose, Option.getD_some, hempty, List.length_nil, hcur] at hlength
    rw [hmax]
    omega
  · exact hflush.full name content hget hown fun file hfile hname => hopen ⟨file, hfile, hname⟩

theorem Full.openNewFile (h : s.Full) (hnone : s.file = none) : (s.openNewFile o).1.Full := by
  unfold FileSinkState.openNewFile
  dsimp only
  split
  · refine ⟨?_, ?_, ?_⟩
    · intro name hname hmatch
      simp only [Directory.put, OrderedMap.get_put] at hname
      split at hname
      · rename_i hnew
        exact ⟨o.now, hnew⟩
      · exact h.exclusive name hname hmatch
    · intro name content hget hown hne
      simp only [Directory.put, OrderedMap.get_put_ne (hne _ rfl).symm] at hget
      refine h.full name content hget hown ?_
      rw [hnone]
      intro file hfile
      cases hfile
    · rintro _ ⟨⟩
      simp only [Directory.put, OrderedMap.get_put_self, Option.getD_some, List.length_nil]
      exact Nat.mod_le _ _
  · exact h

theorem ownCount_openNewFile : (s.openNewFile o).1.ownCount ≤ s.ownCount + 1 := by
  unfold FileSinkState.openNewFile
  dsimp only
  split
  · exact OrderedMap.length_pieces_put _ _
  · exact Nat.le_succ _

theorem currentFileSize_foldl_put (logs : List Bytes) :
    (logs.foldl put s).currentFileSize ≤ s.currentFileSize + logs.flatten.length := by
  induction logs generalizing s with
  | nil => simp
  | cons log logs ih =>
    have hput : (s.put log).currentFileSize ≤ s.currentFileSize + log.length := Nat.mod_le _ _
    have hrest := ih (s := s.put log)
    rw [List.foldl_cons, List.flatten_cons, List.length_append]
    omega

theorem maxFileSize_foldl_put (logs : List Bytes) :
    (logs.foldl put s).maxFileSize = s.maxFileSize := by
  induction logs generalizing s with
  | nil => rfl
  | cons log logs ih => exact ih

theorem Full.foldl_put (h : s.Full) (hfile : s.file = some file) (logs : List Bytes) :
    (logs.foldl put s).Full := by
  obtain ⟨hdir, hconfig, hput⟩ := FileSinkState.foldl_put logs hfile
  have hsize := currentFileSize_foldl_put (s := s) logs
  constructor
  · rw [hdir, hconfig]
    exact h.exclusive
  · rw [hdir, hconfig, hput, maxFileSize_foldl_put]
    intro name content hget hown hne
    refine h.full name content hget hown ?_
    intro other hother
    rw [hfile] at hother
    obtain rfl := Option.some.inj hother
    exact hne { file with buffered := file.buffered ++ logs.flatten } rfl
  · rw [hdir, hput]
    rintro _ ⟨⟩
    have hopen := h.size file hfile
    dsimp only
    rw [List.length_append]
    omega

/-! A rotation. -/

/-- Only own files pass the test, so they are the ones that the clean-up lists. -/
theorem Full.matched_eq (h : s.Full) :
    s.config.matched s.directory.listing =
      (s.directory.files.pieces s.config.Own).map Prod.fst := by
  refine @OrderedMap.eq_of_mem_iff _ _ _ id _ _ FileSink.matched_sorted ?_ ?_
  · exact List.pairwise_map.mpr OrderedMap.pieces_sorted
  · intro name
    rw [FileSink.mem_matched]
    constructor
    · rintro ⟨hname, hmatch⟩
      have hsome := Directory.isSome_of_mem_names hname
      obtain ⟨content, hcontent⟩ := Option.isSome_iff_exists.mp hsome
      exact List.mem_map.mpr
        ⟨_, OrderedMap.mem_pieces.mpr ⟨hcontent, h.exclusive name hsome hmatch⟩, rfl⟩
    · intro hname
      obtain ⟨⟨_, content⟩, hpiece, rfl⟩ := List.mem_map.mp hname
      obtain ⟨hcontent, hown⟩ := OrderedMap.mem_pieces.mp hpiece
      have hsome := Option.isSome_of_eq_some hcontent
      exact ⟨List.mem_map.mpr ⟨_, OrderedMap.mem_entries.mpr hcontent, rfl⟩,
        FileSink.own_matchesLog hown (s.directory.short _ hsome)⟩

/-- While no file is open, files may go. -/
theorem Full.delete (h : s.Full) (hnone : s.file = none) (names : List Bytes) :
    ({ s with directory := s.directory.delete names } : FileSinkState).Full := by
  have hget : ∀ {name content}, (s.directory.delete names).files.get name = some content →
      s.directory.files.get name = some content := by
    intro name content hget
    simp only [Directory.delete, OrderedMap.get_write_deletes] at hget
    split at hget
    · cases hget
    · exact hget
  refine ⟨?_, ?_, ?_⟩
  · intro name hname
    obtain ⟨content, hcontent⟩ := Option.isSome_iff_exists.mp hname
    exact h.exclusive name (Option.isSome_of_eq_some (hget hcontent))
  · intro name content hcontent
    exact h.full name content (hget hcontent)
  · intro file hfile
    cases hnone.symm.trans hfile

/-- While no file is open, each of the own files has its size. -/
theorem Full.length_onDisk (h : s.Full) (hnone : s.file = none) :
    (s.directory.files.pieces s.config.Own).length * s.maxFileSize ≤ s.onDisk.length := by
  apply OrderedMap.length_text_ge
  rintro ⟨name, content⟩ hpiece
  obtain ⟨hcontent, hown⟩ := OrderedMap.mem_pieces.mp hpiece
  refine h.full name content hcontent hown ?_
  intro file hfile
  cases hnone.symm.trans hfile

theorem Full.cleanupOldFiles (h : s.Full) (hmax : 1 ≤ s.config.maxFileCount) (hnone : s.file = none)
    (hs : s.cleanupOldFiles listable = some s') :
    s'.Full ∧ s'.config = s.config ∧ s'.maxFileSize = s.maxFileSize ∧
      (s'.log = s.log ∨ s.window ≤ s'.log.length) ∧
      (listable = true → s.ownCount ≤ s.config.maxFileCount →
        s'.ownCount + 1 ≤ s.config.maxFileCount) := by
  obtain ⟨names, heq, hnames⟩ := cleanupOldFiles_eq hmax listable
  rw [heq] at hs
  obtain rfl := Option.some.inj hs
  have hpieces : (s.directory.delete names).files.pieces s.config.Own =
      (s.directory.files.pieces s.config.Own).drop (s.removes listable) := by
    apply OrderedMap.pieces_delete_take
    intro name _
    rw [hnames, h.matched_eq]
  have hfull := h.delete hnone names
  have hlength : (s.config.matched s.directory.listing).length = s.ownCount := by
    rw [h.matched_eq, List.length_map, ownCount]
  have hcast := wrap_natCast_le s.ownCount
  refine ⟨hfull, rfl, rfl, ?_, ?_⟩
  · by_cases hzero : s.removes listable = 0
    · left
      rw [hzero, List.drop_zero] at hpieces
      simp only [log, onDisk, OrderedMap.text, buffered, hpieces]
    · right
      -- something is removed, so the files that may stay are there, and none of them is open
      have hkept : (s.config.maxFileCount - 1).toNat ≤
          ((s.directory.delete names).files.pieces s.config.Own).length := by
        have hremoves : s.removes listable ≤ s.ownCount - (s.config.maxFileCount - 1).toNat := by
          unfold removes FileSink.excess
          rw [hlength]
          split <;> omega
        rw [hpieces, List.length_drop, ← ownCount]
        omega
      have htext := hfull.length_onDisk hnone
      have hwindow := Nat.mul_le_mul_right s.maxFileSize hkept
      rw [log, List.length_append]
      exact (hwindow.trans htext).trans (Nat.le_add_right _ _)
  · intro hlistable hcount
    have hmaxfits := s.config.fits.2
    have hwrap : wrap 32 (s.ownCount : Int) = s.ownCount := wrap_of_fits ⟨by omega, by omega⟩
    have hremoves : s.removes listable = (s.ownCount - (s.config.maxFileCount - 1)).toNat := by
      rw [removes, if_pos hlistable, FileSink.excess, hlength, hwrap]
    have hafter : ({ s with directory := s.directory.delete names } : FileSinkState).ownCount =
        s.ownCount - s.removes listable := by
      rw [ownCount, ownCount, hpieces, List.length_drop]
    rw [hafter]
    omega

/-- A sink without an open file has room for one. -/
def Room (s : FileSinkState) : Prop :=
  s.ownCount + (if s.file.isNone then 1 else 0) ≤ s.config.maxFileCount

/-- What a call leaves: the log as it was or the window, and no file too many. -/
structure Leaves (lists : Prop) (s : FileSinkState) (added : Bytes) (s' : FileSinkState) : Prop where
  full : s'.Full
  config : s'.config = s.config
  size : s'.maxFileSize = s.maxFileSize
  log : s'.log = s.log ++ added ∨ s.window ≤ s'.log.length
  room : lists → s.Room → s'.Room

theorem Leaves.trans {lists : Prop} {t : FileSinkState} {more : Bytes} (h : Leaves lists s text s')
    (h' : Leaves lists s' more t) : Leaves lists s (text ++ more) t := by
  refine ⟨h'.full, h'.config.trans h.config, h'.size.trans h.size, ?_, ?_⟩
  · have hwindow : s'.window = s.window := by rw [window, window, h.config, h.size]
    rcases h'.log with hsame | hlarge
    · rw [hsame]
      rcases h.log with hbefore | hbefore
      · left
        rw [hbefore, List.append_assoc]
      · right
        rw [List.length_append]
        omega
    · exact Or.inr (hwindow ▸ hlarge)
  · exact fun hlists hroom => h'.room hlists (h.room hlists hroom)

theorem room_openNewFile (hcount : s.ownCount + 1 ≤ s.config.maxFileCount) :
    (s.openNewFile o).1.Room := by
  have hopened := ownCount_openNewFile (s := s) (o := o)
  have hfailed : (s.openNewFile o).1.file = none → (s.openNewFile o).1.ownCount = s.ownCount := by
    unfold openNewFile
    dsimp only
    split
    · intro hnone
      cases hnone
    · exact fun _ => rfl
  rw [Room, config_openNewFile]
  split
  · rename_i hnone
    have hsame := hfailed (Option.isNone_iff_eq_none.mp hnone)
    omega
  · omega

theorem ensureOpen_leaves (h : s.Full) (hordered : s.Ordered clock) (hle : ¬ o.now < clock) :
    Leaves True s [] (s.ensureOpen o) := by
  have hlog := ensureOpen_log hordered hle
  rw [← List.append_nil s.log] at hlog
  unfold ensureOpen at hlog ⊢
  split
  · rename_i hnone
    rw [if_pos hnone] at hlog
    refine ⟨h.openNewFile (Option.isNone_iff_eq_none.mp hnone), config_openNewFile,
      maxFileSize_openNewFile, Or.inl hlog, ?_⟩
    intro _ hroom
    rw [Room, if_pos hnone] at hroom
    exact room_openNewFile hroom
  · exact ⟨h, rfl, rfl, Or.inl (List.append_nil _).symm, fun _ hroom => hroom⟩

theorem foldl_put_leaves (h : s.Full) (hfile : s.file = some file) (logs : List Bytes) :
    Leaves True s logs.flatten (logs.foldl put s) := by
  obtain ⟨hdir, hconfig, hput⟩ := foldl_put logs hfile
  refine ⟨h.foldl_put hfile logs, hconfig, maxFileSize_foldl_put logs,
    Or.inl (foldl_put_log hfile logs), ?_⟩
  intro _ hroom
  rw [Room, hfile] at hroom
  rw [Room, ownCount, hdir, hconfig, hput]
  exact hroom

theorem rotateFile_leaves (hmax : 1 ≤ s.config.maxFileCount) (h : s.Full) (hordered : s.Ordered clock)
    (hle : ¬ e.second.now < clock) (hsize : s.maxFileSize ≤ s.currentFileSize)
    (hs : s.rotateFile e = some s') : Leaves (e.listable = true) s [] s' := by
  unfold rotateFile at hs
  obtain ⟨t, ht, rfl⟩ := Option.map_eq_some_iff.mp hs
  have hconfig : s.close.config = s.config := config_flush
  have hmaxSize : s.close.maxFileSize = s.maxFileSize :=
    (flush_eq_spill (s := s) ▸ maxFileSize_spill : s.flush.maxFileSize = s.maxFileSize)
  have hcount : s.close.ownCount = s.ownCount :=
    (flush_eq_spill (s := s) ▸ ownCount_spill hordered _ : s.flush.ownCount = s.ownCount)
  obtain ⟨t', _, ht', _, htnone, htordered, _⟩ :=
    cleanupOldFiles_log (hconfig ▸ hmax) (close_ordered hordered) rfl e.listable
  obtain rfl := Option.some.inj (ht.symm.trans ht')
  obtain ⟨hfull, htconfig, htsize, htlog, htroom⟩ :=
    (h.close hordered hsize).cleanupOldFiles (hconfig ▸ hmax) rfl ht
  refine ⟨hfull.openNewFile htnone, ?_, ?_, ?_, ?_⟩
  · rw [config_openNewFile, htconfig, hconfig]
  · rw [maxFileSize_openNewFile, htsize, hmaxSize]
  · rw [openNewFile_log htordered hle htnone, List.append_nil, ← close_log hordered]
    have hwindow : s.close.window = s.window := by rw [window, window, hconfig, hmaxSize]
    rwa [hwindow] at htlog
  · intro hlistable hroom
    refine room_openNewFile ?_
    rw [htconfig]
    refine htroom hlistable ?_
    rw [hcount, hconfig]
    rw [Room] at hroom
    split at hroom <;> omega

theorem Leaves.weaken {lists : Prop} (h : Leaves True s text s') : Leaves lists s text s' :=
  ⟨h.full, h.config, h.size, h.log, fun _ => h.room trivial⟩

theorem writeBatch_leaves (hmax : 1 ≤ s.config.maxFileCount) (h : s.Full) (hordered : s.Ordered clock)
    (hfirst : ¬ e.first.now < clock) (hsecond : ¬ e.second.now < e.first.now) {logs : List Bytes}
    (hs : s.writeBatch e logs = some s') :
    Leaves (e.listable = true) s
      (if (s.ensureOpen e.first).file.isNone then [] else logs.flatten) s' := by
  have hopened := ensureOpen_leaves h hordered hfirst
  have hready := ensureOpen_ordered hordered hfirst
  unfold writeBatch at hs
  dsimp only at hs
  split at hs
  · rename_i hnone
    obtain rfl := Option.some.inj hs
    rw [if_pos hnone]
    exact hopened.weaken
  · rename_i hsome
    rw [if_neg hsome]
    obtain ⟨file, hfile⟩ := Option.ne_none_iff_exists'.mp (mt Option.isNone_iff_eq_none.mpr hsome)
    have hadded := hopened.trans (foldl_put_leaves hopened.full hfile logs)
    rw [List.nil_append] at hadded
    unfold checkRotate at hs
    split at hs
    · rename_i hsize
      have hrotated := rotateFile_leaves (hadded.config ▸ hmax) hadded.full
        (foldl_put_ordered hready hfile logs) hsecond hsize hs
      have hall := hadded.weaken.trans hrotated
      rwa [List.append_nil] at hall
    · obtain rfl := Option.some.inj hs
      exact hadded.weaken

theorem spill_leaves (h : s.Full) (hordered : s.Ordered clock) (n : Nat) :
    Leaves True s [] (s.spill n) := by
  refine ⟨h.spill hordered n, config_spill, maxFileSize_spill, Or.inl ?_, ?_⟩
  · rw [spill_log hordered, List.append_nil]
  · intro _ hroom
    have hfile : (s.spill n).file.isNone = s.file.isNone := by
      unfold spill
      split <;> simp_all
    rw [Room, ownCount_spill hordered, config_spill, hfile]
    exact hroom

theorem foreign_leaves {content : Option Bytes} (h : s.Full) (hordered : s.Ordered clock)
    (hother : ¬ s.config.matchesLog name) : Leaves True s [] (s.foreign name content) := by
  refine ⟨⟨?_, ?_, ?_⟩, config_foreign, ?_, Or.inl ?_, ?_⟩
  · intro other hsome hmatch
    rw [config_foreign] at hmatch ⊢
    have hne : other ≠ name := fun heq => hother (heq ▸ hmatch)
    refine h.exclusive other ?_ hmatch
    unfold foreign at hsome
    split at hsome
    · cases content with
      | none =>
        simp only [Directory.delete, List.map_cons, List.map_nil, OrderedMap.write_cons,
          OrderedMap.apply_delete, OrderedMap.write_nil, OrderedMap.get_delete_ne hne] at hsome
        exact hsome
      | some content =>
        simp only [Directory.put, OrderedMap.get_put_ne hne] at hsome
        exact hsome
    · exact hsome
  · intro other text hget hown hne
    rw [config_foreign] at hown
    rw [foreign_get hown] at hget
    rw [file_foreign] at hne
    rw [maxFileSize_foreign]
    exact h.full other text hget hown hne
  · intro file hfile
    rw [file_foreign] at hfile
    rw [foreign_get (hordered.own file hfile), currentFileSize_foreign]
    exact h.size file hfile
  · exact maxFileSize_foreign
  · rw [foreign_log, List.append_nil]
  · intro _ hroom
    have hcount : (s.foreign name content).ownCount = s.ownCount := by
      rw [ownCount, config_foreign]
      exact OrderedMap.length_pieces_congr fun _ hown => congrArg Option.isSome (foreign_get hown)
    rw [Room, hcount, config_foreign, file_foreign]
    exact hroom

end FileSinkState

/-- Another program stays away from the names that the clean-up looks for, and nobody closes the
sink. -/
def FileAct.Undisturbed (config : FileSink) : FileAct → Prop
  | .write _ _ => True
  | .writeBatch _ _ => True
  | .flush => True
  | .close => False
  | .spill _ => True
  | .foreign name _ => ¬ config.matchesLog name

/-- The directory can be listed when the call rotates. -/
def FileAct.Lists : FileAct → Prop
  | .write e _ => e.listable = true
  | .writeBatch e _ => e.listable = true
  | .flush => True
  | .close => True
  | .spill _ => True
  | .foreign _ _ => True

namespace FileRun
variable {r r' : FileRun} {clock : LocalTime} {config : FileSink} {before : Bytes} {a : FileAct}
  {maxFileSize : Nat} {lists : Prop}

/-- Nothing is dropped, or the window is there. -/
structure Windowed (before : Bytes) (config : FileSink) (maxFileSize : Nat) (lists : Prop)
    (r : FileRun) : Prop where
  full : r.sink.Full
  config : r.sink.config = config
  size : r.sink.maxFileSize = maxFileSize
  log : before ++ r.accepted = r.sink.log ∨ r.sink.window ≤ r.sink.log.length
  room : lists → r.sink.Room

theorem Windowed.leaves {s : FileSinkState} {text : Bytes} {accepted : Bytes}
    (h : r.Windowed before config maxFileSize lists)
    (hs : FileSinkState.Leaves lists r.sink text s) (haccepted : accepted = r.accepted ++ text) :
    Windowed before config maxFileSize lists ⟨s, accepted⟩ := by
  refine ⟨hs.full, hs.config.trans h.config, hs.size.trans h.size, ?_,
    fun hlists => hs.room hlists (h.room hlists)⟩
  have hwindow : s.window = r.sink.window := by
    rw [FileSinkState.window, FileSinkState.window, hs.config, hs.size]
  rcases hs.log with hsame | hlarge
  · rw [haccepted, hsame, hwindow]
    rcases h.log with hall | hlarge
    · left
      rw [← List.append_assoc, hall]
    · right
      rw [List.length_append]
      omega
  · right
    rw [hwindow]
    exact hlarge

theorem Windowed.writeBatch {e : Surroundings} {logs : List Bytes} {s : FileSinkState}
    (h : r.Windowed before config maxFileSize lists) (hmax : 1 ≤ config.maxFileCount)
    (hordered : r.sink.Ordered clock) (hfirst : ¬ e.first.now < clock)
    (hsecond : ¬ e.second.now < e.first.now) (hlists : lists → e.listable = true)
    (hs : r.sink.writeBatch e logs = some s) :
    Windowed before config maxFileSize lists ⟨s, r.accept e logs.flatten⟩ := by
  have hleaves := FileSinkState.writeBatch_leaves (h.config ▸ hmax) h.full hordered hfirst hsecond hs
  have hlisted : FileSinkState.Leaves lists r.sink
      (if (r.sink.ensureOpen e.first).file.isNone then [] else logs.flatten) s :=
    ⟨hleaves.full, hleaves.config, hleaves.size, hleaves.log, fun hl => hleaves.room (hlists hl)⟩
  refine h.leaves hlisted ?_
  unfold accept
  split <;> simp

theorem Windowed.step (h : r.Windowed before config maxFileSize lists)
    (hmax : 1 ≤ config.maxFileCount) (hordered : r.sink.Ordered clock)
    (hclock : (clock :: a.times).Pairwise (fun t u => ¬ u < t)) (ha : a.Undisturbed config)
    (hlists : lists → a.Lists) (hr : r.step a = some r') :
    r'.Windowed before config maxFileSize lists := by
  cases a with
  | write e log =>
    simp only [FileAct.times, List.pairwise_cons, List.mem_cons, forall_eq_or_imp] at hclock
    obtain ⟨s, hs, rfl⟩ := Option.map_eq_some_iff.mp hr
    have hsingle : r.sink.writeBatch e [log] = some s := hs
    have hbatch := h.writeBatch hmax hordered hclock.1.1 hclock.2.1.1 hlists hsingle
    rwa [List.flatten_singleton] at hbatch
  | writeBatch e logs =>
    simp only [FileAct.times, List.pairwise_cons, List.mem_cons, forall_eq_or_imp] at hclock
    obtain ⟨s, hs, rfl⟩ := Option.map_eq_some_iff.mp hr
    exact h.writeBatch hmax hordered hclock.1.1 hclock.2.1.1 hlists hs
  | flush =>
    obtain rfl := Option.some.inj hr
    rw [FileSinkState.flush_eq_spill]
    exact h.leaves (FileSinkState.spill_leaves h.full hordered _).weaken (List.append_nil _).symm
  | close => exact ha.elim
  | spill n =>
    obtain rfl := Option.some.inj hr
    exact h.leaves (FileSinkState.spill_leaves h.full hordered n).weaken (List.append_nil _).symm
  | foreign name content =>
    obtain rfl := Option.some.inj hr
    exact h.leaves (FileSinkState.foreign_leaves h.full hordered (h.config ▸ ha)).weaken
      (List.append_nil _).symm

section
variable {directory : Directory} {o : Opening}

theorem not_present_of_clean
    (hclean : ∀ name, (directory.files.get name).isSome → ¬ config.matchesLog name) {name : Bytes}
    (hown : config.Own name) : directory.files.get name = none := by
  rw [← Option.not_isSome_iff_eq_none]
  intro hsome
  exact hclean name hsome (FileSink.own_matchesLog hown (directory.short name hsome))

theorem pieces_of_clean
    (hclean : ∀ name, (directory.files.get name).isSome → ¬ config.matchesLog name) :
    directory.files.pieces config.Own = [] := by
  apply OrderedMap.pieces_eq List.Pairwise.nil
  intro name content
  refine iff_of_false List.not_mem_nil ?_
  rintro ⟨hget, hown⟩
  rw [not_present_of_clean hclean hown] at hget
  cases hget

theorem before_of_clean
    (hclean : ∀ name, (directory.files.get name).isSome → ¬ config.matchesLog name) (t : LocalTime)
    (ht : (directory.files.get (config.fileName t)).isSome) : ¬ o.now < t := by
  rw [not_present_of_clean hclean ⟨t, rfl⟩] at ht
  cases ht

theorem windowed_create (hmax : 1 ≤ config.maxFileCount)
    (hclean : ∀ name, (directory.files.get name).isSome → ¬ config.matchesLog name) :
    Windowed [] config maxFileSize lists ⟨.create config maxFileSize directory o, []⟩ := by
  have hstart : FileSinkState.Full
      { config := config, maxFileSize := maxFileSize, directory := directory } := by
    refine ⟨fun name hsome hmatch => absurd hmatch (hclean name hsome), ?_,
      fun file hfile => by cases hfile⟩
    intro name content hget hown _
    rw [not_present_of_clean hclean hown] at hget
    cases hget
  refine ⟨hstart.openNewFile rfl, FileSinkState.config_openNewFile,
    FileSinkState.maxFileSize_openNewFile, Or.inl ?_, ?_⟩
  · rw [FileSinkState.create_log (before_of_clean hclean), OrderedMap.text, pieces_of_clean hclean]
    rfl
  · intro _
    apply FileSinkState.room_openNewFile
    rw [FileSinkState.ownCount, pieces_of_clean hclean, List.length_nil]
    exact_mod_cast hmax

end

/-- What an undisturbed sink keeps. -/
theorem undisturbed_step (hmax : 1 ≤ config.maxFileCount)
    (h : r.Kept before config clock ∧ r.Windowed before config maxFileSize lists)
    (ha : a.Undisturbed config ∧ (lists → a.Lists))
    (hclock : (clock :: a.times).Pairwise (fun t u => ¬ u < t)) :
    ∃ r', r.step a = some r' ∧ r'.Kept before config (a.clock clock) ∧
      r'.Windowed before config maxFileSize lists := by
  obtain ⟨r', hr', hkept⟩ := h.1.step hmax hclock
  exact ⟨r', hr', hkept, h.2.step hmax h.1.ordered hclock ha.1 ha.2 hr'⟩

/-- A sink that is created in a directory of its own. -/
theorem clean_create (maxFileSize : Nat) (lists : Prop) {directory : Directory} {o : Opening} (hmax : 1 ≤ config.maxFileCount)
    (hclean : ∀ name, (directory.files.get name).isSome → ¬ config.matchesLog name) :
    Kept [] config o.now ⟨.create config maxFileSize directory o, []⟩ ∧
      Windowed [] config maxFileSize lists ⟨.create config maxFileSize directory o, []⟩ := by
  have hkept := kept_create maxFileSize (before_of_clean (o := o) hclean)
  rw [OrderedMap.text, pieces_of_clean hclean] at hkept
  exact ⟨hkept, windowed_create hmax hclean⟩

/-- Dropped is nothing, or the window is there. -/
theorem Windowed.dropped {dropped : Bytes} (h : r.Windowed before config maxFileSize lists)
    (hlog : before ++ r.accepted = dropped ++ r.sink.log) :
    dropped = [] ∨ (config.maxFileCount - 1).toNat * maxFileSize ≤ r.sink.log.length := by
  rcases h.log with hall | hlarge
  · left
    have hlength := congrArg List.length (hlog.symm.trans hall)
    rw [List.length_append] at hlength
    exact List.length_eq_zero_iff.mp (by omega)
  · right
    rw [FileSinkState.window, h.config, h.size] at hlarge
    exact hlarge

end FileRun

/-- In a directory of its own, with room for `max_file_count` files, a sink that stays open drops
nothing before the files that rotation leaves are full, and never has more files than that. -/
theorem log_window (config : FileSink) (maxFileSize : Nat) (directory : Directory) (o : Opening)
    (acts : List FileAct) (hmax : 1 ≤ config.maxFileCount)
    (hclean : ∀ name, (directory.files.get name).isSome → ¬ config.matchesLog name)
    (hclock : (o.now :: acts.flatMap FileAct.times).Pairwise (fun t u => ¬ u < t))
    (hacts : ∀ a ∈ acts, a.Undisturbed config) :
    ∃ r dropped, FileRun.steps ⟨.create config maxFileSize directory o, []⟩ acts = some r ∧
      r.accepted = dropped ++ (r.sink.onDisk ++ r.sink.buffered) ∧
      (dropped = [] ∨ (config.maxFileCount - 1).toNat * maxFileSize ≤
        (r.sink.onDisk ++ r.sink.buffered).length) ∧
      ((∀ a ∈ acts, a.Lists) → r.sink.ownCount ≤ config.maxFileCount) := by
  obtain ⟨r, last, hsteps, hend, hwindow⟩ := FileRun.steps_invariant
    (fun _ _ _ h ha hclock => FileRun.undisturbed_step hmax h ha hclock)
    (FileRun.clean_create maxFileSize (∀ a ∈ acts, a.Lists) hmax hclean)
    (fun a ha => ⟨hacts a ha, fun hall => hall a ha⟩) hclock
  obtain ⟨dropped, hlog⟩ := hend.log
  refine ⟨r, dropped, hsteps, hlog, hwindow.dropped hlog, ?_⟩
  intro hall
  have hroom := hwindow.room hall
  rw [FileSinkState.Room, hwindow.config] at hroom
  split at hroom <;> omega

/-- Three lines, of which each fills a file. -/
def fillingActs : List FileAct :=
  [.write ⟨⟨noon, true⟩, true, ⟨noon, true⟩⟩ [97, 98, 99, 100],
    .write ⟨⟨noon, true⟩, true, ⟨afterNoon, true⟩⟩ [101, 102, 103, 104],
    .write ⟨⟨afterNoon, true⟩, true, ⟨afterNoon, true⟩⟩ [105, 106, 107, 108], .flush]

theorem log_window_filling :
    ∃ r dropped, FileRun.steps ⟨.create smallSink 4 emptyDirectory ⟨noon, true⟩, []⟩ fillingActs =
        some r ∧
      r.accepted = dropped ++ (r.sink.onDisk ++ r.sink.buffered) ∧
      (dropped = [] ∨ (smallSink.maxFileCount - 1).toNat * 4 ≤
        (r.sink.onDisk ++ r.sink.buffered).length) ∧
      ((∀ a ∈ fillingActs, a.Lists) → r.sink.ownCount ≤ smallSink.maxFileCount) := by
  refine log_window smallSink 4 emptyDirectory ⟨noon, true⟩ fillingActs (by decide)
    (fun _ h => by cases h) (by decide +kernel) ?_
  simp [fillingActs, FileAct.Undisturbed]

end SwiftChat.Logger
