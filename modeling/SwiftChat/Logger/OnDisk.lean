import SwiftChat.Logger.Drained
import SwiftChat.Logger.Retention

/-! From the call that logs to the file: what is on disk once the logger has stopped. -/
namespace SwiftChat.Logger
open Base

def SinkCall.text : SinkCall → Bytes
  | .write formatted => formatted
  | .writeWithLevel _ formatted => formatted
  | .flush => []
  | .close => []

namespace FileAct

def text : FileAct → Bytes
  | .write _ log => log
  | .writeBatch _ logs => logs.flatten
  | .flush => []
  | .close => []
  | .spill _ => []
  | .foreign _ _ => []

/-- The call of the logger that this is. -/
def does : FileAct → Option SinkCall
  | .write _ log => some (.write log)
  | .writeBatch _ _ => none
  | .flush => some .flush
  | .close => some .close
  | .spill _ => none
  | .foreign _ _ => none

/-- What goes on beside the calls of the logger's own threads: the stream writes, other programs
write, and `AsyncLogger::Flush` flushes. -/
def Beside : FileAct → Prop
  | .write _ _ => False
  | .writeBatch _ _ => False
  | .flush => True
  | .close => False
  | .spill _ => True
  | .foreign _ _ => True

/-- The system lets the call open its file. -/
def Opens : FileAct → Prop
  | .write e _ => e.first.opens = true
  | .writeBatch e _ => e.first.opens = true
  | .flush => True
  | .close => True
  | .spill _ => True
  | .foreign _ _ => True

end FileAct

/-- The sink does what it is told, in this order. -/
inductive Performs : List SinkCall → List FileAct → Prop where
  | nil : Performs [] []
  | told {call calls a acts} (h : FileAct.does a = some call) (hrest : Performs calls acts) :
    Performs (call :: calls) (a :: acts)
  | beside {calls a acts} (h : FileAct.Beside a) (hrest : Performs calls acts) :
    Performs calls (a :: acts)

namespace Performs
variable {calls more : List SinkCall} {acts : List FileAct} {call : SinkCall}

theorem split (h : Performs (calls ++ more) acts) :
    ∃ first rest, acts = first ++ rest ∧ Performs calls first ∧ Performs more rest := by
  generalize hall : calls ++ more = all at h
  induction h generalizing calls with
  | nil =>
    obtain ⟨rfl, rfl⟩ := List.append_eq_nil_iff.mp hall
    exact ⟨[], [], rfl, .nil, .nil⟩
  | told hdoes hrest ih =>
    cases calls with
    | nil =>
      rw [List.nil_append] at hall
      exact ⟨[], _, rfl, .nil, hall ▸ .told hdoes hrest⟩
    | cons call calls =>
      obtain ⟨rfl, htail⟩ := List.cons.inj hall
      obtain ⟨first, last, rfl, hfirst, hlast⟩ := ih htail
      exact ⟨_, last, rfl, .told hdoes hfirst, hlast⟩
  | beside hbeside _ ih =>
    obtain ⟨first, last, rfl, hfirst, hlast⟩ := ih hall
    exact ⟨_, last, rfl, .beside hbeside hfirst, hlast⟩

/-- Where a single call is done. -/
theorem split_single (h : Performs [call] acts) :
    ∃ first a rest, acts = first ++ a :: rest ∧ a.does = some call ∧ Performs [] first ∧
      Performs [] rest := by
  generalize hall : [call] = all at h
  induction h with
  | nil => cases hall
  | @told _ _ a acts hdoes hrest _ =>
    obtain ⟨rfl, rfl⟩ := List.cons.inj hall
    exact ⟨[], a, acts, rfl, hdoes, .nil, hrest⟩
  | beside hbeside _ ih =>
    obtain ⟨first, a, rest, rfl, hdoes, hfirst, hlast⟩ := ih hall
    exact ⟨_, a, rest, rfl, hdoes, .beside hbeside hfirst, hlast⟩

theorem all_beside (h : Performs [] acts) : ∀ a ∈ acts, a.Beside := by
  generalize hall : ([] : List SinkCall) = all at h
  induction h with
  | nil => exact fun _ ha => (List.not_mem_nil ha).elim
  | told _ _ _ => cases hall
  | beside hbeside _ ih => exact List.forall_mem_cons.mpr ⟨hbeside, ih hall⟩

theorem text_eq (h : Performs calls acts) :
    acts.flatMap FileAct.text = calls.flatMap SinkCall.text := by
  induction h with
  | nil => rfl
  | @told call _ a _ hdoes _ ih =>
    have htext : a.text = call.text := by
      cases a <;> cases hdoes <;> rfl
    rw [List.flatMap_cons, List.flatMap_cons, htext, ih]
  | @beside _ a _ hbeside _ ih =>
    have htext : a.text = [] := by
      cases a <;> first | rfl | exact hbeside.elim
    rw [List.flatMap_cons, htext, ih, List.nil_append]

theorem close_not_mem (h : Performs calls acts) (hno : SinkCall.close ∉ calls) :
    FileAct.close ∉ acts := by
  induction h with
  | nil => exact List.not_mem_nil
  | told hdoes _ ih =>
    rw [List.mem_cons, not_or] at hno ⊢
    refine ⟨?_, ih hno.2⟩
    rintro rfl
    exact hno.1 (Option.some.inj hdoes)
  | beside hbeside _ ih =>
    rw [List.mem_cons, not_or]
    refine ⟨?_, ih hno⟩
    rintro rfl
    exact hbeside

end Performs

/-! What the logger tells a sink: nothing is closed before the end. -/

section
variable {c : LogConfig} {s : AsyncLogger} {a : Act} {sink : Sink}

/-- The sink is told to flush and to close when `Stop` returns, and not to close before. -/
def ToldToClose (s : AsyncLogger) (sink : Sink) : Prop :=
  if s.stopping = .returned then
    ∃ calls, sink.calls = calls ++ [.flush, .close] ∧ SinkCall.close ∉ calls
  else SinkCall.close ∉ sink.calls

theorem lineOf_ne_close {w : Writer} {kind : SinkKind} {entry : LogEntry} :
    lineOf c w kind entry ≠ .close := by
  unfold lineOf
  split <;> (intro heq; cases heq)

theorem toldToClose_tell {s' : AsyncLogger} {calls : List SinkCall} (h : ToldToClose s sink)
    (hs : s.stopping ≠ .returned) (hs' : s'.stopping ≠ .returned) (hcalls : SinkCall.close ∉ calls) :
    ToldToClose s' (sink.tell calls) := by
  rw [ToldToClose, if_neg hs] at h
  rw [ToldToClose, if_neg hs', Sink.tell, List.mem_append, not_or]
  exact ⟨h, hcalls⟩

theorem toldToClose_same {s' : AsyncLogger} (h : ToldToClose s sink)
    (hs : s.stopping = .returned ↔ s'.stopping = .returned) : ToldToClose s' sink := by
  rw [ToldToClose] at h ⊢
  by_cases hr : s.stopping = .returned
  · rw [if_pos hr] at h
    rw [if_pos (hs.mp hr)]
    exact h
  · rw [if_neg hr] at h
    rw [if_neg (mt hs.mpr hr)]
    exact h

theorem toldToClose_backend (hkept : Kept c s) (h : ∀ sink ∈ s.sinks, ToldToClose s sink) :
    ∀ sink ∈ (s.backendTick c).sinks, ToldToClose (s.backendTick c) sink := by
  have hstopping : (s.backendTick c).stopping = s.stopping := backendTick_stopping
  by_cases hdone : s.backend = .done
  · rw [backendTick_done hdone]
    exact h
  have hs : s.stopping ≠ .returned := fun hr => hdone (hkept.joined (hr ▸ trivial))
  have htold : (s.backendTick c).sinks = s.sinks ∨ ∃ call : SinkKind → SinkCall,
      (∀ kind, call kind ≠ .close) ∧
        (s.backendTick c).sinks = s.sinks.map (fun sink => sink.tell [call sink.kind]) := by
    unfold AsyncLogger.backendTick
    split
    case h_3 => split <;> exact Or.inl rfl
    case h_6 _ entry rest _ =>
      exact Or.inr ⟨fun kind => lineOf c .backend kind entry, fun _ => lineOf_ne_close, rfl⟩
    case h_7 => exact Or.inr ⟨fun _ => .flush, fun _ heq => (by cases heq), rfl⟩
    all_goals exact Or.inl rfl
  rcases htold with hsame | ⟨call, hcall, hmap⟩
  · rw [hsame]
    exact fun sink hsink => toldToClose_same (h sink hsink) (by rw [hstopping])
  · rw [hmap]
    intro sink hsink
    obtain ⟨old, hold, rfl⟩ := List.mem_map.mp hsink
    refine toldToClose_tell (h old hold) hs (hstopping ▸ hs) ?_
    exact fun hmem => hcall old.kind (List.mem_singleton.mp hmem).symm

theorem toldToClose_stop (hkept : Kept c s) (h : ∀ sink ∈ s.sinks, ToldToClose s sink) :
    ∀ sink ∈ (s.stopTick c).sinks, ToldToClose (s.stopTick c) sink := by
  unfold AsyncLogger.stopTick
  split
  · rename_i hs
    rw [hkept.running hs, if_pos rfl]
    exact fun sink hsink => toldToClose_same (h sink hsink) (by simp [hs])
  · rename_i hs
    exact fun sink hsink => toldToClose_same (h sink hsink) (by simp [hs])
  · rename_i hs
    exact fun sink hsink => toldToClose_same (h sink hsink) (by simp [hs])
  · rename_i hs
    split
    · exact fun sink hsink => toldToClose_same (h sink hsink) (by simp [hs])
    · exact h
  · rename_i hs
    exact fun sink hsink => toldToClose_same (h sink hsink) (by simp [hs])
  · rename_i hs
    exact fun sink hsink => toldToClose_same (h sink hsink) (by simp [hs])
  · rename_i entry rest hs
    intro sink hsink
    obtain ⟨old, hold, rfl⟩ := List.mem_map.mp hsink
    refine toldToClose_tell (h old hold) (by simp [hs]) (fun heq => by cases heq) ?_
    exact fun hmem => lineOf_ne_close (List.mem_singleton.mp hmem).symm
  · -- the last calls are a flush and a close
    rename_i hs
    intro sink hsink
    obtain ⟨old, hold, rfl⟩ := List.mem_map.mp hsink
    have hopen := h old hold
    rw [ToldToClose, if_neg (by simp [hs])] at hopen
    rw [ToldToClose, if_pos rfl]
    exact ⟨old.calls, rfl, hopen⟩
  · exact h

theorem toldToClose_step (hkept : Kept c s) (h : ∀ sink ∈ s.sinks, ToldToClose s sink) (a : Act) :
    ∀ sink ∈ (step c s a).sinks, ToldToClose (step c s a) sink := by
  cases a with
  | check t entry =>
    simp only [step, AsyncLogger.check]
    split <;> exact h
  | insert t =>
    simp only [step, AsyncLogger.insert]
    split <;> exact h
  | backend => exact toldToClose_backend hkept h
  | stop => exact toldToClose_stop hkept h

end

/-! What the sink is told is accepted, and after the close it is on disk. -/

section
variable {r r' : FileRun} {a : FileAct} {acts : List FileAct} {config : FileSink} {o : Opening}

theorem ensureOpen_isSome {s : FileSinkState} (hopens : o.opens = true)
    (hshort : s.config.filePrefix.length ≤ 231) : (s.ensureOpen o).file.isNone = false := by
  unfold FileSinkState.ensureOpen
  split
  · have hname : (s.config.fileName o.now).length ≤ 255 := by
      have hlog : (str ".log").length = 4 := by decide +kernel
      have hbar : (str "_").length = 1 := by decide +kernel
      simp only [FileSink.fileName, List.length_append, LocalTime.length_stamp, hlog, hbar]
      omega
    unfold FileSinkState.openNewFile
    dsimp only
    rw [dif_pos ⟨hopens, hname⟩]
    rfl
  · rename_i hsome
    exact Bool.not_eq_true _ ▸ hsome

theorem accepted_step (hopens : a.Opens) (hshort : r.sink.config.filePrefix.length ≤ 231)
    (hr : r.step a = some r') : r'.accepted = r.accepted ++ a.text := by
  cases a with
  | write e log =>
    obtain ⟨s, _, rfl⟩ := Option.map_eq_some_iff.mp hr
    simp [FileRun.accept, ensureOpen_isSome hopens hshort, FileAct.text]
  | writeBatch e logs =>
    obtain ⟨s, _, rfl⟩ := Option.map_eq_some_iff.mp hr
    simp [FileRun.accept, ensureOpen_isSome hopens hshort, FileAct.text]
  | flush =>
    obtain rfl := Option.some.inj hr
    exact (List.append_nil _).symm
  | close =>
    obtain rfl := Option.some.inj hr
    exact (List.append_nil _).symm
  | spill n =>
    obtain rfl := Option.some.inj hr
    exact (List.append_nil _).symm
  | foreign name content =>
    obtain rfl := Option.some.inj hr
    exact (List.append_nil _).symm

variable {clock : LocalTime} {before : Bytes}

theorem accepted_steps (hmax : 1 ≤ config.maxFileCount) (hkept : r.Kept before config clock)
    (hclock : (clock :: acts.flatMap FileAct.times).Pairwise (fun t u => ¬ u < t))
    (hopens : ∀ a ∈ acts, a.Opens) (hshort : config.filePrefix.length ≤ 231)
    (hr : r.steps acts = some r') : r'.accepted = r.accepted ++ acts.flatMap FileAct.text := by
  induction acts generalizing r clock with
  | nil =>
    obtain rfl := Option.some.inj hr
    exact (List.append_nil _).symm
  | cons a acts ih =>
    rw [List.flatMap_cons] at hclock
    have hfirst : (clock :: a.times).Pairwise (fun t u => ¬ u < t) :=
      hclock.sublist ((List.sublist_append_left _ _).cons_cons _)
    obtain ⟨r₁, hr₁, hkept₁⟩ := hkept.step hmax hfirst
    rw [FileRun.steps, List.foldlM_cons, hr₁] at hr
    have hrest := ih hkept₁ (FileRun.pairwise_clock hclock)
      (fun b hb => hopens b (List.mem_cons_of_mem _ hb)) hr
    have hstep := accepted_step (hopens a List.mem_cons_self) (hkept.config.symm ▸ hshort) hr₁
    rw [hrest, hstep, List.flatMap_cons, List.append_assoc]

/-- What goes on beside the calls leaves the log as it is, and a closed sink closed. -/
theorem beside_step (hordered : r.sink.Ordered clock) (ha : a.Beside) :
    ∃ r', r.step a = some r' ∧ r'.sink.log = r.sink.log ∧
      (r.sink.file = none → r'.sink.file = none) := by
  have hspill : ∀ n, r.sink.file = none → (r.sink.spill n).file = none := by
    intro n hnone
    unfold FileSinkState.spill
    split
    · exact hnone
    · rename_i file hfile
      cases hnone.symm.trans hfile
  cases a with
  | write e log => exact ha.elim
  | writeBatch e logs => exact ha.elim
  | flush =>
    refine ⟨_, rfl, FileSinkState.flush_log hordered, ?_⟩
    rw [FileSinkState.flush_eq_spill]
    exact hspill _
  | close => exact ha.elim
  | spill n => exact ⟨_, rfl, FileSinkState.spill_log hordered n, hspill n⟩
  | foreign name content =>
    refine ⟨_, rfl, FileSinkState.foreign_log, ?_⟩
    rw [FileSinkState.file_foreign]
    exact id

/-- A sink that is closed and then left alone. -/
theorem close_steps (hmax : 1 ≤ config.maxFileCount) (hkept : r.Kept before config clock)
    (hclock : (clock :: acts.flatMap FileAct.times).Pairwise (fun t u => ¬ u < t))
    (hbeside : ∀ a ∈ acts, a.Beside) :
    ∃ r' last, r.steps (.close :: acts) = some r' ∧ r'.Kept before config last ∧
      r'.sink.log = r.sink.log ∧ r'.sink.file = none := by
  obtain ⟨r₁, hr₁, hkept₁⟩ := hkept.step (a := .close) hmax (List.pairwise_singleton _ _)
  obtain rfl := Option.some.inj hr₁
  obtain ⟨r', last, hsteps, hend, hlog, hnone⟩ := FileRun.steps_invariant
    (I := fun clock t => t.Kept before config clock ∧ t.sink.log = r.sink.log ∧ t.sink.file = none)
    (Q := FileAct.Beside)
    (fun clock t a h ha hclock => by
      obtain ⟨t', ht', hkept'⟩ := h.1.step hmax hclock
      obtain ⟨t'', ht'', hlog, hnone⟩ := beside_step h.1.ordered ha
      obtain rfl := Option.some.inj (ht'.symm.trans ht'')
      exact ⟨t', ht', hkept', hlog.trans h.2.1, hnone h.2.2⟩)
    ⟨hkept₁, FileSinkState.close_log hkept.ordered, rfl⟩ hbeside hclock
  exact ⟨r', last, by rw [FileRun.steps, List.foldlM_cons, hr₁]; exact hsteps, hend, hlog, hnone⟩

end

/-! Both together. -/

instance : DecidablePred StopAt.Drained
  | .processing _ => inferInstanceAs (Decidable True)
  | .closing => inferInstanceAs (Decidable True)
  | .returned => inferInstanceAs (Decidable True)
  | .uncalled => inferInstanceAs (Decidable False)
  | .checked => inferInstanceAs (Decidable False)
  | .halted => inferInstanceAs (Decidable False)
  | .joining => inferInstanceAs (Decidable False)
  | .draining => inferInstanceAs (Decidable False)

instance (s : AsyncLogger) : DecidablePred (InTime s)
  | .insert thread => inferInstanceAs (Decidable ((s.pushing.get thread).isSome →
      s.buffer.front.length < s.buffer.capacity → ¬ s.stopping.Drained))
  | .check _ _ => inferInstanceAs (Decidable True)
  | .backend => inferInstanceAs (Decidable True)
  | .stop => inferInstanceAs (Decidable True)

section
variable {c : LogConfig} {capacity : Nat} {kinds : List SinkKind} {acts : List Act} {sink : Sink}

theorem run_toldToClose :
    Kept c (run (step c) (.start capacity kinds) acts) ∧
      ∀ sink ∈ (run (step c) (.start capacity kinds) acts).sinks,
        ToldToClose (run (step c) (.start capacity kinds) acts) sink := by
  refine run_invariant (I := fun s => Kept c s ∧ ∀ sink ∈ s.sinks, ToldToClose s sink)
    (Q := fun _ => True) (fun s a h _ => ⟨step_kept h.1 a, toldToClose_step h.1 h.2 a⟩)
    ⟨start_kept capacity kinds, ?_⟩ (fun _ _ => trivial)
  intro sink hsink
  obtain ⟨kind, _, rfl⟩ := List.mem_map.mp hsink
  exact List.not_mem_nil

/-- No entry came late, so every sink has all that were accepted. -/
theorem run_allWritten (hret : (run (step c) (.start capacity kinds) acts).stopping = .returned)
    (htime : AllSteps (step c) InTime (.start capacity kinds) acts) :
    AllWritten c (run (step c) (.start capacity kinds) acts) := by
  have hnone : NoneLeft (run (step c) (.start capacity kinds) acts) :=
    (run_iff_allSteps (I := Kept c) (fun s a h _ => step_kept h a)
      (fun s a h _ hs => noneLeft_step h hs) (fun s a h _ hs => noneLeft_of_step h hs)
      (start_kept capacity kinds) (fun hd => hd.elim)
      (allSteps_of_forall (C := fun _ _ => True) fun _ _ => trivial)).mpr htime
  exact (allWritten_iff_noneLeft run_toldToClose.1 hret).mpr (Or.inr hnone)

/-- The lines that a file sink was told to write. -/
theorem lines_of_wrote {entries : List LogEntry} (hfile : sink.kind = .file)
    (h : sink.Wrote c entries) :
    ∃ lines : List Bytes, sink.calls.flatMap SinkCall.text = lines.flatten ∧
      List.Forall₂ (fun entry line => ∃ w, line = c.formatter.format w entry) entries lines := by
  refine ⟨sink.writes.map SinkCall.text, ?_, ?_⟩
  · unfold Sink.writes
    induction sink.calls with
    | nil => rfl
    | cons call calls ih =>
      cases call <;> simp [List.filter_cons, SinkCall.isWrite, SinkCall.text, ih]
  · rw [List.forall₂_map_right_iff]
    refine h.imp ?_
    rintro entry call ⟨w, rfl⟩
    refine ⟨w, ?_⟩
    rw [lineOf, hfile, if_neg (fun hconsole => by cases hconsole.1)]
    rfl

end

/-- When the logger has stopped and no entry came late, a file sink in a directory of its own is
closed, and its files end the text of all accepted entries: only where more than the window is on
disk has anything been rotated out. -/
theorem logged_on_disk (c : LogConfig) (capacity : Nat) (kinds : List SinkKind) (acts : List Act)
    (sink : Sink) (config : FileSink) (maxFileSize : Nat) (directory : Directory) (o : Opening)
    (calls : List FileAct)
    (hret : (run (step c) (.start capacity kinds) acts).stopping = .returned)
    (htime : AllSteps (step c) InTime (.start capacity kinds) acts)
    (hsink : sink ∈ (run (step c) (.start capacity kinds) acts).sinks) (hfile : sink.kind = .file)
    (hcalls : Performs sink.calls calls) (hmax : 1 ≤ config.maxFileCount)
    (hshort : config.filePrefix.length ≤ 231)
    (hclean : ∀ name, (directory.files.get name).isSome → ¬ config.matchesLog name)
    (hothers : ∀ name content, FileAct.foreign name content ∈ calls → ¬ config.matchesLog name)
    (hopens : ∀ a ∈ calls, a.Opens)
    (hclock : (o.now :: calls.flatMap FileAct.times).Pairwise (fun t u => ¬ u < t)) :
    ∃ r lines dropped,
      FileRun.steps ⟨.create config maxFileSize directory o, []⟩ calls = some r ∧
      r.sink.file = none ∧
      List.Forall₂ (fun entry line => ∃ w, line = c.formatter.format w entry)
        (run (step c) (.start capacity kinds) acts).accepted lines ∧
      lines.flatten = dropped ++ r.sink.onDisk ∧
      (dropped = [] ∨ (config.maxFileCount - 1).toNat * maxFileSize ≤ r.sink.onDisk.length) := by
  obtain ⟨lines, hlines, hforall⟩ := lines_of_wrote hfile (run_allWritten hret htime sink hsink)
  have htold := run_toldToClose.2 sink hsink
  rw [ToldToClose, if_pos hret] at htold
  obtain ⟨pre, hpre, hno⟩ := htold
  have hall : sink.calls = (pre ++ [.flush]) ++ [.close] := by rw [hpre, List.append_assoc]; rfl
  have hopen : SinkCall.close ∉ pre ++ [.flush] := by simpa using hno
  have hperf := hcalls
  rw [hall] at hperf
  obtain ⟨first, rest, rfl, hfirst, hrest⟩ := hperf.split
  obtain ⟨mid, a, tail, rfl, ha, hmid, htail⟩ := hrest.split_single
  obtain rfl : a = .close := by
    cases a <;> cases ha
    rfl
  have hwhole : first ++ (mid ++ FileAct.close :: tail) = (first ++ mid) ++ FileAct.close :: tail :=
    (List.append_assoc _ _ _).symm
  rw [hwhole] at hclock hopens hcalls hothers ⊢
  have hacts : ∀ a ∈ first ++ mid, a.Undisturbed config ∧ (False → a.Lists) := by
    intro a ha
    refine ⟨?_, False.elim⟩
    cases a with
    | close =>
      rcases List.mem_append.mp ha with hin | hin
      · exact hfirst.close_not_mem hopen hin
      · exact hmid.all_beside _ hin
    | foreign name content => exact hothers name content (List.mem_append_left _ ha)
    | _ => trivial
  have hstart := FileRun.clean_create maxFileSize False (o := o) hmax hclean
  have htimes : ((first ++ mid) ++ .close :: tail).flatMap FileAct.times =
      (first ++ mid).flatMap FileAct.times ++ tail.flatMap FileAct.times := List.flatMap_append
  rw [htimes] at hclock
  obtain ⟨r₁, t₁, hr₁, ⟨hkept₁, hwindow₁⟩, hlater⟩ := FileRun.steps_invariant_before
    (fun _ _ _ h ha hclock => FileRun.undisturbed_step hmax h ha hclock) hstart hacts hclock
  obtain ⟨r, last, hr, -, hlog, hnone⟩ := close_steps hmax hkept₁ hlater htail.all_beside
  have hsteps : FileRun.steps ⟨.create config maxFileSize directory o, []⟩
      ((first ++ mid) ++ .close :: tail) = some r := by
    rw [FileRun.steps, List.foldlM_append]
    exact (congrArg (· >>= fun r => FileRun.steps r (.close :: tail)) hr₁).trans hr
  have hdisk : r.sink.onDisk = r₁.sink.log := by
    rw [← hlog, FileSinkState.log, FileSinkState.buffered, hnone]
    exact (List.append_nil _).symm
  have haccepted : r₁.accepted = lines.flatten := by
    have hbefore : ∀ a ∈ first ++ mid, a.Opens := fun a ha => hopens a (List.mem_append_left _ ha)
    have htext := accepted_steps hmax hstart.1
      (hclock.sublist ((List.sublist_append_left _ _).cons_cons _)) hbefore hshort hr₁
    have hclose : Performs [.close] (.close :: tail) := .told rfl htail
    have hnothing : (FileAct.close :: tail).flatMap FileAct.text = [] := hclose.text_eq
    rw [← hlines, ← hcalls.text_eq, List.flatMap_append, hnothing, List.append_nil, htext]
    rfl
  obtain ⟨dropped, htext⟩ := hkept₁.log
  refine ⟨r, lines, dropped, hsteps, hnone, hforall, ?_, ?_⟩
  · rw [← haccepted, hdisk]
    exact htext
  · rw [hdisk]
    exact hwindow₁.dropped htext

def firstLine : Bytes := plainConfig.formatter.format .backend { message := [97] }

def secondLine : Bytes := plainConfig.formatter.format .backend { message := [98] }

def calm : Surroundings := ⟨⟨noon, true⟩, true, ⟨noon, true⟩⟩

/-- The calls that the orderly run leaves in its file sink. -/
def orderlySink : Sink :=
  { kind := .file,
    calls := [.write firstLine, .flush, .write secondLine, .flush, .flush, .close] }

def orderlyCalls : List FileAct :=
  [.write calm firstLine, .spill 3, .flush, .write calm secondLine, .flush, .flush, .close]

theorem logged_on_disk_orderly :
    ∃ r lines dropped,
      FileRun.steps ⟨.create smallSink 1000 emptyDirectory ⟨noon, true⟩, []⟩ orderlyCalls = some r ∧
      r.sink.file = none ∧
      List.Forall₂ (fun entry line => ∃ w, line = plainConfig.formatter.format w entry)
        (run (step plainConfig) (.start 1024 [.file]) orderlyActs).accepted lines ∧
      lines.flatten = dropped ++ r.sink.onDisk ∧
      (dropped = [] ∨ (smallSink.maxFileCount - 1).toNat * 1000 ≤ r.sink.onDisk.length) := by
  refine logged_on_disk plainConfig 1024 [.file] orderlyActs orderlySink smallSink 1000 emptyDirectory
    ⟨noon, true⟩ orderlyCalls (by decide +kernel) (by decide +kernel) (by decide +kernel) rfl ?_
    (by decide) (by decide +kernel) (fun _ h => by cases h) ?_ ?_ (by decide +kernel)
  · exact .told rfl (.beside trivial (.told rfl (.told rfl (.told rfl (.told rfl (.told rfl .nil))))))
  · intro name content hmem
    simp [orderlyCalls] at hmem
  · simp [orderlyCalls, FileAct.Opens, calm]

end SwiftChat.Logger
