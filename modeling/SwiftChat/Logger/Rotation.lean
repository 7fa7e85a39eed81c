import SwiftChat.Logger.FileSinkState

/-! What rotation leaves of a log: its end, in order and with nothing missing between. -/
namespace SwiftChat.Logger
open Base

instance (t u : LocalTime) : Decidable (t < u) := inferInstanceAs (Decidable (t.key < u.key))

namespace FileSinkState
variable {s s' : FileSinkState} {clock now : LocalTime} {file : LogStream} {o : Opening}
  {e : Surroundings} {name text : Bytes} {listable : Bool}

/-- The sink's own files as one text, in the order of their names. -/
def onDisk (s : FileSinkState) : Bytes := s.directory.files.text s.config.Own

def buffered (s : FileSinkState) : Bytes := s.file.elim [] LogStream.buffered

/-- All that can be read back once the stream is flushed. -/
def log (s : FileSinkState) : Bytes := s.onDisk ++ s.buffered

/-- The own files are not later than the clock, and the open one is the last of them. -/
structure Ordered (clock : LocalTime) (s : FileSinkState) : Prop where
  past : ∀ t, (s.directory.files.get (s.config.fileName t)).isSome → ¬ clock < t
  own : ∀ file, s.file = some file → s.config.Own file.name
  present : ∀ file, s.file = some file → (s.directory.files.get file.name).isSome
  last : ∀ file, s.file = some file → s.directory.files.Last s.config.Own file.name

theorem Ordered.mono (h : s.Ordered clock) (hle : ¬ now < clock) : s.Ordered now := by
  refine ⟨?_, h.own, h.present, h.last⟩
  intro t ht hlt
  exact h.past t ht (lt_of_le_of_lt (not_lt.mp hle : clock.key ≤ now.key) hlt)

/-! No call changes the configuration. -/

@[simp] theorem config_spill {n : Nat} : (s.spill n).config = s.config := by
  unfold spill
  split <;> rfl

@[simp] theorem config_flush : s.flush.config = s.config := by
  unfold flush
  split <;> rfl

@[simp] theorem config_openNewFile : (s.openNewFile o).1.config = s.config := by
  unfold openNewFile
  dsimp only
  split <;> rfl

@[simp] theorem config_ensureOpen : (s.ensureOpen o).config = s.config := by
  unfold ensureOpen
  split
  · exact config_openNewFile
  · rfl

@[simp] theorem config_foreign {content : Option Bytes} :
    (s.foreign name content).config = s.config := by
  unfold foreign
  split
  · cases content <;> rfl
  · rfl

@[simp] theorem file_foreign {content : Option Bytes} : (s.foreign name content).file = s.file := by
  unfold foreign
  split
  · cases content <;> rfl
  · rfl

/-! The stream. -/

theorem isSome_append {d : Directory} {text other : Bytes} (h : (d.files.get name).isSome) :
    ((d.append name text).files.get other).isSome = (d.files.get other).isSome := by
  rw [Directory.files_append h, OrderedMap.get_put]
  split
  · rename_i hother
    rw [hother, h]
    rfl
  · rfl

theorem flush_eq_spill : s.flush = s.spill s.buffered.length := by
  unfold flush spill buffered
  cases s.file with
  | none => rfl
  | some file => simp

theorem spill_ordered (h : s.Ordered clock) (n : Nat) : (s.spill n).Ordered clock := by
  unfold spill
  split
  · exact h
  · rename_i file hfile
    have hsome : ∀ other, ((s.directory.append file.name (file.buffered.take n)).files.get
        other).isSome = (s.directory.files.get other).isSome :=
      fun other => isSome_append (h.present file hfile)
    refine ⟨?_, ?_, ?_, ?_⟩
    · intro t ht
      rw [hsome] at ht
      exact h.past t ht
    · rintro _ ⟨⟩
      exact h.own file hfile
    · rintro _ ⟨⟩
      rw [hsome]
      exact h.present file hfile
    · rintro _ ⟨⟩ other hown hother
      rw [hsome] at hother
      exact h.last file hfile other hown hother

theorem spill_log (h : s.Ordered clock) (n : Nat) : (s.spill n).log = s.log := by
  unfold spill
  split
  · rfl
  · rename_i file hfile
    have htext := OrderedMap.text_put_last (h.own file hfile) (h.last file hfile)
      (file.buffered.take n)
    simp only [log, onDisk, buffered, hfile, Option.elim_some,
      Directory.files_append (h.present file hfile), htext, List.append_assoc,
      List.take_append_drop]

theorem close_ordered (h : s.Ordered clock) : s.close.Ordered clock := by
  have hflush : s.flush.Ordered clock := flush_eq_spill ▸ spill_ordered h _
  refine ⟨hflush.past, ?_, ?_, ?_⟩ <;> (intro file hfile; cases hfile)

theorem flush_buffered : s.flush.buffered = [] := by
  unfold flush buffered
  cases hfile : s.file with
  | none => simp [hfile]
  | some file => rfl

theorem flush_log (h : s.Ordered clock) : s.flush.log = s.log :=
  flush_eq_spill ▸ spill_log h _

theorem close_log (h : s.Ordered clock) : s.close.log = s.log := by
  rw [← flush_log h, log, log, flush_buffered]
  rfl

/-! A new file. -/

theorem openNewFile_ordered (h : s.Ordered clock) (hle : ¬ o.now < clock) :
    (s.openNewFile o).1.Ordered o.now := by
  have hlater := h.mono hle
  unfold openNewFile
  dsimp only
  split
  · refine ⟨?_, ?_, ?_, ?_⟩
    · intro t ht
      simp only [Directory.put, OrderedMap.get_put] at ht
      split at ht
      · rename_i hname
        intro hlt
        exact absurd hname (FileSink.fileName_lt_iff.mpr hlt).ne'
      · exact hlater.past t ht
    · rintro _ ⟨⟩
      exact ⟨o.now, rfl⟩
    · rintro _ ⟨⟩
      simp [Directory.put]
    · rintro _ ⟨⟩ other ⟨t, rfl⟩ hother
      simp only [Directory.put, OrderedMap.get_put] at hother
      split at hother
      · exact le_of_eq ‹_›
      · exact not_lt.mp (fun hlt => hlater.past t hother (FileSink.fileName_lt_iff.mp hlt))
  · exact hlater

theorem openNewFile_log (h : s.Ordered clock) (hle : ¬ o.now < clock) (hnone : s.file = none) :
    (s.openNewFile o).1.log = s.log := by
  unfold openNewFile
  dsimp only
  split
  · have hlast : s.directory.files.Last s.config.Own (s.config.fileName o.now) := by
      rintro other ⟨t, rfl⟩ hother
      exact not_lt.mp fun hlt =>
        (h.mono hle).past t hother (FileSink.fileName_lt_iff.mp hlt)
    have hown : s.config.Own (s.config.fileName o.now) := ⟨o.now, rfl⟩
    have htext := OrderedMap.text_put_last hown hlast []
    rw [List.append_nil, List.append_nil] at htext
    simp [log, onDisk, buffered, hnone, Directory.put, htext]
  · rfl

theorem ensureOpen_ordered (h : s.Ordered clock) (hle : ¬ o.now < clock) :
    (s.ensureOpen o).Ordered o.now := by
  unfold ensureOpen
  split
  · exact openNewFile_ordered h hle
  · exact h.mono hle

theorem ensureOpen_log (h : s.Ordered clock) (hle : ¬ o.now < clock) :
    (s.ensureOpen o).log = s.log := by
  unfold ensureOpen
  split
  · rename_i hnone
    exact openNewFile_log h hle (Option.isNone_iff_eq_none.mp hnone)
  · rfl

/-! Text is put into the stream. -/

theorem foldl_put (logs : List Bytes) (hfile : s.file = some file) :
    (logs.foldl put s).directory = s.directory ∧ (logs.foldl put s).config = s.config ∧
      (logs.foldl put s).file = some { file with buffered := file.buffered ++ logs.flatten } := by
  induction logs generalizing s file with
  | nil =>
    refine ⟨rfl, rfl, ?_⟩
    rw [List.foldl_nil, List.flatten_nil, List.append_nil]
    exact hfile
  | cons log logs ih =>
    have hput : (s.put log).file = some { file with buffered := file.buffered ++ log } := by
      simp [put, hfile]
    obtain ⟨hdir, hconfig, hlast⟩ := ih hput
    refine ⟨hdir, hconfig, ?_⟩
    rw [List.foldl_cons, hlast]
    simp

theorem foldl_put_ordered (h : s.Ordered clock) (hfile : s.file = some file) (logs : List Bytes) :
    (logs.foldl put s).Ordered clock := by
  obtain ⟨hdir, hconfig, hput⟩ := foldl_put logs hfile
  constructor
  · rw [hdir, hconfig]
    exact h.past
  · rw [hconfig, hput]
    rintro _ ⟨⟩
    exact h.own file hfile
  · rw [hdir, hput]
    rintro _ ⟨⟩
    exact h.present file hfile
  · rw [hdir, hconfig, hput]
    rintro _ ⟨⟩
    exact h.last file hfile

theorem foldl_put_log (hfile : s.file = some file) (logs : List Bytes) :
    (logs.foldl put s).log = s.log ++ logs.flatten := by
  obtain ⟨hdir, hconfig, hput⟩ := foldl_put logs hfile
  simp [log, onDisk, buffered, hdir, hconfig, hput, hfile]

/-! Old files are removed. -/

/-- What the loop removes: the first files, as many as are too many. -/
theorem cleanup_eq (hmax : 1 ≤ s.config.maxFileCount) (listing : Listing) :
    s.config.cleanupOldFiles listing = some ((s.config.logFiles listing).take
      (FileSink.excess (s.config.maxFileCount - 1) (s.config.logFiles listing).length)) := by
  have hfits := s.config.fits
  have hlimit : Fits 32 (s.config.maxFileCount - 1) := by
    obtain ⟨hlo, hhi⟩ := hfits
    exact ⟨by omega, by omega⟩
  have hwrap := wrap_natCast_le (s.config.logFiles listing).length
  have hle : FileSink.excess (s.config.maxFileCount - 1) (s.config.logFiles listing).length ≤
      (s.config.logFiles listing).length := by
    unfold FileSink.excess
    omega
  rw [FileSink.cleanupOldFiles, checked_of_fits hlimit, Option.bind_some,
    FileSink.removeOldest_eq hlimit, if_pos hle]

/-- How many of the files that pass the test the clean-up removes. -/
def removes (s : FileSinkState) (listable : Bool) : Nat :=
  if listable then FileSink.excess (s.config.maxFileCount - 1)
    (s.config.matched s.directory.listing).length
  else 0

theorem cleanupOldFiles_eq (hmax : 1 ≤ s.config.maxFileCount) (listable : Bool) :
    ∃ names, s.cleanupOldFiles listable = some { s with directory := s.directory.delete names } ∧
      ∀ name, name ∈ names ↔
        name ∈ (s.config.matched s.directory.listing).take (s.removes listable) := by
  cases listable with
  | false =>
    refine ⟨[], ?_, ?_⟩
    · simp [cleanupOldFiles, cleanup_eq hmax, FileSink.logFiles, Directory.remove]
    · simp [removes]
  | true =>
    refine ⟨s.directory.listing.names.filter (fun name => s.config.path name ∈
      (s.config.logFiles s.directory.listing).take (FileSink.excess (s.config.maxFileCount - 1)
        (s.config.logFiles s.directory.listing).length)), ?_, ?_⟩
    · rw [cleanupOldFiles, if_pos rfl, cleanup_eq hmax]
      rfl
    · intro name
      have hpath : s.config.path name ∈ (s.config.logFiles s.directory.listing).take
          (s.removes true) ↔ name ∈ (s.config.matched s.directory.listing).take (s.removes true) := by
        rw [FileSink.logFiles_eq, ← List.map_take]
        exact List.mem_map_of_injective (fun _ _ => FileSink.path_inj.mp)
      have hcount : s.removes true = FileSink.excess (s.config.maxFileCount - 1)
          (s.config.logFiles s.directory.listing).length := by
        rw [removes, if_pos rfl, FileSink.length_logFiles]
      rw [List.mem_filter, decide_eq_true_eq, ← hcount]
      constructor
      · exact fun h => hpath.mp h.2
      · intro h
        exact ⟨(FileSink.mem_matched.mp (List.mem_of_mem_take h)).1, hpath.mpr h⟩

/-- Whatever else lies in the directory, what is removed of the log is its beginning. -/
theorem cleanupOldFiles_log (hmax : 1 ≤ s.config.maxFileCount) (h : s.Ordered clock)
    (hnone : s.file = none) (listable : Bool) :
    ∃ s' dropped, s.cleanupOldFiles listable = some s' ∧ s'.config = s.config ∧ s'.file = none ∧
      s'.Ordered clock ∧ s.log = dropped ++ s'.log := by
  obtain ⟨names, heq, hnames⟩ := cleanupOldFiles_eq hmax listable
  have hfirst : ∀ name other, s.config.Own name → s.config.Own other →
      (s.directory.files.get name).isSome → (s.directory.files.get other).isSome →
      name ∈ names → other ∉ names → name < other := by
    intro name other _ hown _ hother hgone hstays
    have hin : other ∈ s.config.matched s.directory.listing := by
      obtain ⟨content, hcontent⟩ := Option.isSome_iff_exists.mp hother
      exact FileSink.mem_matched.mpr
        ⟨List.mem_map.mpr ⟨_, OrderedMap.mem_entries.mpr hcontent, rfl⟩,
          FileSink.own_matchesLog hown (s.directory.short other hother)⟩
    rw [hnames] at hgone hstays
    rw [← List.take_append_drop (s.removes listable) (s.config.matched s.directory.listing)] at hin
    have hlate := (List.mem_append.mp hin).resolve_left hstays
    have hsorted : ((s.config.matched s.directory.listing).take (s.removes listable) ++
        (s.config.matched s.directory.listing).drop (s.removes listable)).Pairwise (· < ·) := by
      rw [List.take_append_drop]
      exact FileSink.matched_sorted
    exact (List.pairwise_append.mp hsorted).2.2 _ hgone _ hlate
  obtain ⟨gone, hpieces, _⟩ := OrderedMap.text_delete_first hfirst
  refine ⟨_, (gone.map Prod.snd).flatten, heq, rfl, hnone, ⟨?_, ?_, ?_, ?_⟩, ?_⟩
  · intro t ht
    simp only [Directory.delete, OrderedMap.get_write_deletes] at ht
    split at ht
    · cases ht
    · exact h.past t ht
  · intro file hfile
    rw [hnone] at hfile
    cases hfile
  · intro file hfile
    rw [hnone] at hfile
    cases hfile
  · intro file hfile
    rw [hnone] at hfile
    cases hfile
  · simp [log, onDisk, buffered, hnone, OrderedMap.text, hpieces, Directory.delete]

/-! The calls. -/

theorem rotateFile_log (hmax : 1 ≤ s.config.maxFileCount) (h : s.Ordered clock)
    (hle : ¬ e.second.now < clock) :
    ∃ s' dropped, s.rotateFile e = some s' ∧ s'.config = s.config ∧ s'.Ordered e.second.now ∧
      s.log = dropped ++ s'.log := by
  have hconfig : s.close.config = s.config := config_flush
  obtain ⟨t, dropped, ht, htconfig, htnone, htordered, htlog⟩ :=
    cleanupOldFiles_log (hconfig ▸ hmax) (close_ordered h) rfl e.listable
  refine ⟨(t.openNewFile e.second).1, dropped, ?_, ?_, ?_, ?_⟩
  · rw [rotateFile, ht]
    rfl
  · rw [config_openNewFile, htconfig, hconfig]
  · exact openNewFile_ordered htordered hle
  · rw [openNewFile_log htordered hle htnone, ← htlog, close_log h]

theorem checkRotate_log (hmax : 1 ≤ s.config.maxFileCount) (h : s.Ordered clock)
    (hle : ¬ e.second.now < clock) :
    ∃ s' dropped, s.checkRotate e = some s' ∧ s'.config = s.config ∧ s'.Ordered e.second.now ∧
      s.log = dropped ++ s'.log := by
  unfold checkRotate
  split
  · exact rotateFile_log hmax h hle
  · exact ⟨s, [], rfl, rfl, h.mono hle, rfl⟩

theorem write_eq_writeBatch : s.write e text = s.writeBatch e [text] := rfl

theorem writeBatch_log (hmax : 1 ≤ s.config.maxFileCount) (h : s.Ordered clock)
    (hfirst : ¬ e.first.now < clock) (hsecond : ¬ e.second.now < e.first.now) (logs : List Bytes) :
    ∃ s' dropped, s.writeBatch e logs = some s' ∧ s'.config = s.config ∧
      s'.Ordered e.second.now ∧
      s.log ++ (if (s.ensureOpen e.first).file.isNone then [] else logs.flatten) =
        dropped ++ s'.log := by
  have hopened := ensureOpen_ordered h hfirst
  have hlog := ensureOpen_log h hfirst
  have hconfig : (s.ensureOpen e.first).config = s.config := config_ensureOpen
  unfold writeBatch
  dsimp only
  cases hfile : (s.ensureOpen e.first).file with
  | none =>
    refine ⟨s.ensureOpen e.first, [], by simp, hconfig, hopened.mono hsecond, ?_⟩
    simp [hlog]
  | some file =>
    have hputConfig := (foldl_put logs hfile).2.1.trans hconfig
    obtain ⟨s', dropped, hs', hc, ho, hl⟩ := checkRotate_log (hputConfig ▸ hmax)
      (foldl_put_ordered hopened hfile logs) hsecond
    refine ⟨s', dropped, by simpa using hs', hc.trans hputConfig, ho, ?_⟩
    rw [← hl, foldl_put_log hfile, hlog]
    simp

theorem foreign_get {content : Option Bytes} {other : Bytes} (hown : s.config.Own other) :
    (s.foreign name content).directory.files.get other = s.directory.files.get other := by
  unfold foreign
  split
  · rename_i h
    have hne : other ≠ name := fun heq => h.1 (heq ▸ hown)
    cases content with
    | none => simp [Directory.delete, OrderedMap.get_delete_ne hne]
    | some content => exact OrderedMap.get_put_ne hne
  · rfl

theorem foreign_log {content : Option Bytes} : (s.foreign name content).log = s.log := by
  have htext : (s.foreign name content).directory.files.text s.config.Own = s.onDisk :=
    OrderedMap.text_congr fun _ hown => foreign_get hown
  rw [log, onDisk, buffered, config_foreign, file_foreign, htext]
  rfl

theorem foreign_ordered {content : Option Bytes} (h : s.Ordered clock) :
    (s.foreign name content).Ordered clock := by
  constructor
  · intro t ht
    rw [config_foreign] at ht
    rw [foreign_get ⟨t, rfl⟩] at ht
    exact h.past t ht
  · intro file hfile
    rw [file_foreign] at hfile
    rw [config_foreign]
    exact h.own file hfile
  · intro file hfile
    rw [file_foreign] at hfile
    rw [foreign_get (h.own file hfile)]
    exact h.present file hfile
  · intro file hfile other hown hother
    rw [file_foreign] at hfile
    rw [config_foreign] at hown
    rw [foreign_get hown] at hother
    exact h.last file hfile other hown hother

/-! The sink as it is created. -/

section
variable {config : FileSink} {maxFileSize : Nat} {directory : Directory}

theorem start_ordered
    (hbefore : ∀ t, (directory.files.get (config.fileName t)).isSome → ¬ o.now < t) :
    Ordered o.now { config := config, maxFileSize := maxFileSize, directory := directory } := by
  refine ⟨hbefore, ?_, ?_, ?_⟩ <;> (intro file hfile; cases hfile)

theorem create_ordered
    (hbefore : ∀ t, (directory.files.get (config.fileName t)).isSome → ¬ o.now < t) :
    (create config maxFileSize directory o).Ordered o.now :=
  openNewFile_ordered (start_ordered hbefore) fun hlt => lt_irrefl o.now.key hlt

theorem create_log
    (hbefore : ∀ t, (directory.files.get (config.fileName t)).isSome → ¬ o.now < t) :
    (create config maxFileSize directory o).log = directory.files.text config.Own := by
  rw [create, openNewFile_log (start_ordered hbefore) (fun hlt => lt_irrefl o.now.key hlt) rfl]
  simp [log, onDisk, buffered]

end

end FileSinkState

/-- The clock after the call. -/
def FileAct.clock (t : LocalTime) (a : FileAct) : LocalTime := a.times.getLastD t

namespace FileRun
variable {r r' : FileRun} {clock : LocalTime} {config : FileSink} {before : Bytes} {a : FileAct}

/-- What is on disk and in the stream is the end of the text before and the accepted text. -/
structure Kept (before : Bytes) (config : FileSink) (clock : LocalTime) (r : FileRun) : Prop where
  config : r.sink.config = config
  ordered : r.sink.Ordered clock
  log : ∃ dropped, before ++ r.accepted = dropped ++ r.sink.log

/-- A step that accepts nothing and leaves the log as it is. -/
theorem Kept.same {s : FileSinkState} (h : r.Kept before config clock)
    (hconfig : s.config = r.sink.config) (hordered : s.Ordered clock) (hlog : s.log = r.sink.log) :
    Kept before config clock { r with sink := s } := by
  refine ⟨hconfig.trans h.config, hordered, ?_⟩
  rw [hlog]
  exact h.log

theorem Kept.writeBatch (hmax : 1 ≤ config.maxFileCount) (h : r.Kept before config clock)
    {e : Surroundings} (hfirst : ¬ e.first.now < clock) (hsecond : ¬ e.second.now < e.first.now)
    (logs : List Bytes) :
    ∃ r', (r.sink.writeBatch e logs).map (fun s => (⟨s, r.accept e logs.flatten⟩ : FileRun)) =
      some r' ∧ r'.Kept before config e.second.now := by
  obtain ⟨s', dropped, hs', hconfig, hordered, hlog⟩ :=
    FileSinkState.writeBatch_log (h.config ▸ hmax) h.ordered hfirst hsecond logs
  obtain ⟨earlier, htext⟩ := h.log
  refine ⟨⟨s', r.accept e logs.flatten⟩, by rw [hs']; rfl, hconfig.trans h.config, hordered,
    earlier ++ dropped, ?_⟩
  have haccept : r.accept e logs.flatten = r.accepted ++
      (if (r.sink.ensureOpen e.first).file.isNone then [] else logs.flatten) := by
    unfold accept
    split <;> simp
  calc before ++ r.accept e logs.flatten
      = earlier ++ (r.sink.log ++
          (if (r.sink.ensureOpen e.first).file.isNone then [] else logs.flatten)) := by
        rw [haccept, ← List.append_assoc, htext, List.append_assoc]
    _ = earlier ++ dropped ++ s'.log := by rw [hlog, List.append_assoc]

theorem Kept.step (hmax : 1 ≤ config.maxFileCount) (h : r.Kept before config clock)
    (hclock : (clock :: a.times).Pairwise (fun t u => ¬ u < t)) :
    ∃ r', r.step a = some r' ∧ r'.Kept before config (a.clock clock) := by
  cases a with
  | write e log =>
    simp only [FileAct.times, List.pairwise_cons, List.mem_cons, forall_eq_or_imp] at hclock
    have hbatch := h.writeBatch hmax hclock.1.1 hclock.2.1.1 [log]
    rw [List.flatten_singleton] at hbatch
    exact hbatch
  | writeBatch e logs =>
    simp only [FileAct.times, List.pairwise_cons, List.mem_cons, forall_eq_or_imp] at hclock
    exact h.writeBatch hmax hclock.1.1 hclock.2.1.1 logs
  | flush =>
    exact ⟨_, rfl, h.same FileSinkState.config_flush
      (FileSinkState.flush_eq_spill ▸ FileSinkState.spill_ordered h.ordered _)
      (FileSinkState.flush_log h.ordered)⟩
  | close =>
    exact ⟨_, rfl, h.same FileSinkState.config_flush (FileSinkState.close_ordered h.ordered)
      (FileSinkState.close_log h.ordered)⟩
  | spill n =>
    exact ⟨_, rfl, h.same FileSinkState.config_spill (FileSinkState.spill_ordered h.ordered n)
      (FileSinkState.spill_log h.ordered n)⟩
  | foreign name content =>
    exact ⟨_, rfl, h.same FileSinkState.config_foreign (FileSinkState.foreign_ordered h.ordered)
      FileSinkState.foreign_log⟩

/-- The times after the call are not before its last one. -/
theorem pairwise_clock {times : List LocalTime}
    (h : (clock :: (a.times ++ times)).Pairwise (fun t u => ¬ u < t)) :
    (a.clock clock :: times).Pairwise (fun t u => ¬ u < t) := by
  have hsub : (a.clock clock :: times).Sublist (clock :: (a.times ++ times)) := by
    cases a with
    | write e log => exact .cons _ (.cons _ (List.Sublist.refl _))
    | writeBatch e logs => exact .cons _ (.cons _ (List.Sublist.refl _))
    | flush => exact List.Sublist.refl _
    | close => exact List.Sublist.refl _
    | spill n => exact List.Sublist.refl _
    | foreign name content => exact List.Sublist.refl _
  exact h.sublist hsub

/-- What every call keeps, at the time it is over, holds after any calls on a clock that does not go
back. -/
theorem steps_invariant_before {I : LocalTime → FileRun → Prop} {Q : FileAct → Prop}
    {acts : List FileAct} {later : List LocalTime}
    (hstep : ∀ clock r a, I clock r → Q a → (clock :: a.times).Pairwise (fun t u => ¬ u < t) →
      ∃ r', r.step a = some r' ∧ I (a.clock clock) r')
    (h : I clock r) (hacts : ∀ a ∈ acts, Q a)
    (hclock : (clock :: (acts.flatMap FileAct.times ++ later)).Pairwise (fun t u => ¬ u < t)) :
    ∃ r' last, r.steps acts = some r' ∧ I last r' ∧
      (last :: later).Pairwise (fun t u => ¬ u < t) := by
  induction acts generalizing r clock with
  | nil => exact ⟨r, clock, rfl, h, hclock⟩
  | cons a acts ih =>
    rw [List.flatMap_cons, List.append_assoc] at hclock
    have hfirst : (clock :: a.times).Pairwise (fun t u => ¬ u < t) :=
      hclock.sublist ((List.sublist_append_left _ _).cons_cons _)
    obtain ⟨r₁, hr₁, h₁⟩ := hstep clock r a h (hacts a List.mem_cons_self) hfirst
    obtain ⟨r₂, last, hsteps, hlast⟩ :=
      ih h₁ (fun b hb => hacts b (List.mem_cons_of_mem _ hb)) (pairwise_clock hclock)
    refine ⟨r₂, last, ?_, hlast⟩
    rw [FileRun.steps, List.foldlM_cons, hr₁]
    exact hsteps

theorem steps_invariant {I : LocalTime → FileRun → Prop} {Q : FileAct → Prop} {acts : List FileAct}
    (hstep : ∀ clock r a, I clock r → Q a → (clock :: a.times).Pairwise (fun t u => ¬ u < t) →
      ∃ r', r.step a = some r' ∧ I (a.clock clock) r')
    (h : I clock r) (hacts : ∀ a ∈ acts, Q a)
    (hclock : (clock :: acts.flatMap FileAct.times).Pairwise (fun t u => ¬ u < t)) :
    ∃ r' last, r.steps acts = some r' ∧ I last r' := by
  rw [← List.append_nil (acts.flatMap FileAct.times)] at hclock
  obtain ⟨r', last, hsteps, hlast, _⟩ := steps_invariant_before hstep h hacts hclock
  exact ⟨r', last, hsteps, hlast⟩

theorem kept_create (maxFileSize : Nat) {directory : Directory} {o : Opening}
    (hbefore : ∀ t, (directory.files.get (config.fileName t)).isSome → ¬ o.now < t) :
    Kept (directory.files.text config.Own) config o.now
      ⟨.create config maxFileSize directory o, []⟩ :=
  ⟨FileSinkState.config_openNewFile, FileSinkState.create_ordered hbefore, [], by
    rw [FileSinkState.create_log hbefore, List.append_nil, List.nil_append]⟩

end FileRun

/-- However a sink is used, and whatever else is written to its directory: when the clock does not
go back, its files hold the end of what was in them and of what was written since, with nothing
missing, doubled or out of order. -/
theorem log_kept (config : FileSink) (maxFileSize : Nat) (directory : Directory) (o : Opening)
    (acts : List FileAct) (hmax : 1 ≤ config.maxFileCount)
    (hbefore : ∀ t, (directory.files.get (config.fileName t)).isSome → ¬ o.now < t)
    (hclock : (o.now :: acts.flatMap FileAct.times).Pairwise (fun t u => ¬ u < t)) :
    ∃ r dropped, FileRun.steps ⟨.create config maxFileSize directory o, []⟩ acts = some r ∧
      directory.files.text config.Own ++ r.accepted = dropped ++ (r.sink.onDisk ++ r.sink.buffered) := by
  obtain ⟨r, last, hsteps, hkept⟩ := FileRun.steps_invariant (Q := fun _ => True)
    (fun _ _ _ h _ hclock => h.step hmax hclock) (FileRun.kept_create maxFileSize hbefore)
    (fun _ _ => trivial) hclock
  obtain ⟨dropped, htext⟩ := hkept.log
  exact ⟨r, dropped, hsteps, htext⟩

def noon : LocalTime where
  year := 2026
  month := 5
  day := 1
  hour := 12
  minute := 0
  second := 0
  millis := 0
  inYear := by decide
  inMonth := by decide
  inDay := by decide
  inHour := by decide
  inMinute := by decide
  inSecond := by decide
  inMillis := by decide

/-- Five milliseconds later. -/
def afterNoon : LocalTime := { noon with millis := 5, inMillis := by decide }

/-- Two files may stay. -/
def smallSink : FileSink where
  logDir := str "logs"
  filePrefix := str "app"
  maxFileCount := 2
  fits := by decide

def emptyDirectory : Directory := ⟨OrderedMap.empty, fun _ h => nomatch h⟩

/-- A directory with a file of an earlier run. -/
def usedDirectory : Directory :=
  emptyDirectory.put (smallSink.fileName noon) [111, 108, 100] (by decide +kernel)

/-- The old file is dropped. -/
def rotatingActs : List FileAct :=
  [.write ⟨⟨afterNoon, true⟩, true, ⟨afterNoon, true⟩⟩ [97, 98, 99, 100],
    .foreign (str "app_notes.log") (some [33]), .spill 2, .flush]

theorem log_kept_rotating :
    ∃ r dropped, FileRun.steps ⟨.create smallSink 4 usedDirectory ⟨afterNoon, true⟩, []⟩
        rotatingActs = some r ∧
      usedDirectory.files.text smallSink.Own ++ r.accepted =
        dropped ++ (r.sink.onDisk ++ r.sink.buffered) := by
  refine log_kept smallSink 4 usedDirectory ⟨afterNoon, true⟩ rotatingActs (by decide) ?_
    (by decide +kernel)
  intro t ht hlt
  have hname : smallSink.fileName t = smallSink.fileName noon := by
    obtain ⟨content, hcontent⟩ := Option.isSome_iff_exists.mp ht
    rcases OrderedMap.get_put_some hcontent with ⟨hname, _⟩ | ⟨_, hempty⟩
    · exact hname
    · cases hempty
  have hearly : noon < t := lt_trans (b := afterNoon.key) (by decide) hlt
  exact absurd hname (FileSink.fileName_lt_iff.mpr hearly).ne'

end SwiftChat.Logger
