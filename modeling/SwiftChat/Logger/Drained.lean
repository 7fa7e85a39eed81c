import SwiftChat.Logger.AsyncLogger
import Mathlib.Data.List.Forall2

/-! What of the accepted entries reaches the sinks by the time the logger has stopped. -/
namespace SwiftChat.Logger
open Base
variable {c : LogConfig} {s : AsyncLogger} {a : Act} {sink : Sink} {entry : LogEntry}
  {written : List LogEntry} {w : Writer} {t : Nat}

def SinkCall.isWrite : SinkCall → Bool
  | .write _ => true
  | .writeWithLevel _ _ => true
  | .flush => false
  | .close => false

def Sink.writes (sink : Sink) : List SinkCall := sink.calls.filter SinkCall.isWrite

/-- The sink was passed these entries, each once and in this order. -/
def Sink.Wrote (c : LogConfig) (sink : Sink) (entries : List LogEntry) : Prop :=
  List.Forall₂ (fun entry call => ∃ w, call = lineOf c w sink.kind entry) entries sink.writes

/-- Every entry for which `Push` returned true is in every sink, once and in order. -/
def AllWritten (c : LogConfig) (s : AsyncLogger) : Prop := ∀ sink ∈ s.sinks, sink.Wrote c s.accepted

/-- The backend thread has been joined. -/
def StopAt.Joined : StopAt → Prop
  | .draining => True
  | .processing _ => True
  | .closing => True
  | .returned => True
  | _ => False

/-- `Stop` has taken the last entries out of the buffer. -/
def StopAt.Drained : StopAt → Prop
  | .processing _ => True
  | .closing => True
  | .returned => True
  | _ => False

instance : DecidablePred StopAt.Drained
  | .processing _ => .isTrue trivial
  | .closing => .isTrue trivial
  | .returned => .isTrue trivial
  | .uncalled => .isFalse id
  | .checked => .isFalse id
  | .halted => .isFalse id
  | .joining => .isFalse id
  | .draining => .isFalse id

/-- No entry is inserted after `Stop` has taken the last ones out. -/
def InTime (s : AsyncLogger) : Act → Prop
  | .insert thread => (s.pushing.get thread).isSome → s.buffer.front.length < s.buffer.capacity →
    ¬ s.stopping.Drained
  | _ => True

instance (s : AsyncLogger) : DecidablePred (InTime s)
  | .insert _ => inferInstanceAs (Decidable (_ → _ → ¬ s.stopping.Drained))
  | .check .. => .isTrue trivial
  | .backend => .isTrue trivial
  | .stop => .isTrue trivial

def BackendAt.batch : BackendAt → List LogEntry
  | .processing entries => entries
  | _ => []

def StopAt.batch : StopAt → List LogEntry
  | .processing entries => entries
  | _ => []

/-- Every sink has been passed these entries, and the other accepted ones are on their way. -/
structure Account (c : LogConfig) (written : List LogEntry) (s : AsyncLogger) : Prop where
  wrote : ∀ sink ∈ s.sinks, sink.Wrote c written
  accepted : s.accepted = written ++ s.backend.batch ++ s.stopping.batch ++ s.buffer.front

structure Kept (c : LogConfig) (s : AsyncLogger) : Prop where
  account : ∃ written, Account c written s
  joined : s.stopping.Joined → s.backend = .done
  running : s.stopping = .uncalled → s.running = true

theorem writes_tell {calls : List SinkCall} :
    (sink.tell calls).writes = sink.writes ++ calls.filter SinkCall.isWrite :=
  List.filter_append _ _

theorem isWrite_lineOf (w : Writer) (kind : SinkKind) (entry : LogEntry) :
    (lineOf c w kind entry).isWrite = true := by
  unfold lineOf
  split <;> rfl

theorem processEntry_wrote (h : ∀ sink ∈ s.sinks, sink.Wrote c written) :
    ∀ sink ∈ processEntry c w s.sinks entry, sink.Wrote c (written ++ [entry]) := by
  intro sink hsink
  obtain ⟨old, hold, rfl⟩ := List.mem_map.mp hsink
  unfold Sink.Wrote
  rw [writes_tell, List.filter_cons, if_pos (isWrite_lineOf w old.kind entry)]
  exact List.rel_append (h old hold) (.cons ⟨w, rfl⟩ .nil)

/-- A flush or a close writes nothing. -/
theorem tell_wrote {calls : List SinkCall} (hno : calls.filter SinkCall.isWrite = [])
    (h : ∀ sink ∈ s.sinks, sink.Wrote c written) :
    ∀ sink ∈ s.sinks.map (fun sink => sink.tell calls), sink.Wrote c written := by
  intro sink hsink
  obtain ⟨old, hold, rfl⟩ := List.mem_map.mp hsink
  unfold Sink.Wrote
  rw [writes_tell, hno, List.append_nil]
  exact h old hold

/-! Each thread keeps the account. -/

theorem check_kept (h : Kept c s) : Kept c (s.check t entry) := by
  unfold AsyncLogger.check
  split
  · exact h
  · obtain ⟨⟨written, hwrote, haccepted⟩, hjoined, hrunning⟩ := h
    exact ⟨⟨written, hwrote, haccepted⟩, hjoined, hrunning⟩

theorem insert_kept (h : Kept c s) : Kept c (s.insert t) := by
  obtain ⟨⟨written, hwrote, haccepted⟩, hjoined, hrunning⟩ := h
  unfold AsyncLogger.insert
  split
  · exact ⟨⟨written, hwrote, haccepted⟩, hjoined, hrunning⟩
  · refine ⟨⟨written, hwrote, ?_⟩, hjoined, hrunning⟩
    simp only [RingBuffer.insert]
    split
    · exact haccepted
    · simp only [if_true, haccepted, List.append_assoc]

/-- The backend thread is not done, so nobody has joined it. -/
theorem Kept.not_joined (h : Kept c s) (hb : s.backend ≠ .done) : ¬ s.stopping.Joined :=
  fun hj => hb (h.joined hj)

theorem batch_of_not_joined {p : StopAt} (h : ¬ p.Joined) : p.batch = [] := by
  cases p with
  | processing entries => exact absurd trivial h
  | _ => rfl

theorem batch_take : s.take.backend.batch = s.buffer.front := by
  by_cases hnil : s.buffer.swap.2 = []
  · have hflush : s.take.backend = .flush := if_pos hnil
    rw [hflush]
    exact hnil.symm
  · have hbatch : s.take.backend = .processing s.buffer.swap.2 := if_neg hnil
    rw [hbatch]
    rfl

theorem take_kept (h : Kept c s) (hb : s.backend.batch = []) (hd : s.backend ≠ .done) :
    Kept c s.take := by
  have hstop := batch_of_not_joined (h.not_joined hd)
  obtain ⟨⟨written, hwrote, haccepted⟩, hjoined, hrunning⟩ := h
  refine ⟨⟨written, hwrote, ?_⟩, fun hj => absurd (hjoined hj) hd, hrunning⟩
  rw [hb, hstop] at haccepted
  rw [batch_take]
  change s.accepted = written ++ s.buffer.front ++ s.stopping.batch ++ []
  rw [haccepted, hstop]
  simp only [List.append_nil]

/-- The backend thread goes on with what it holds. -/
theorem Kept.backend (h : Kept c s) (hd : s.backend ≠ .done) {b : BackendAt}
    (hb : b.batch = s.backend.batch) : Kept c { s with backend := b } := by
  obtain ⟨⟨written, hwrote, haccepted⟩, hjoined, hrunning⟩ := h
  refine ⟨⟨written, hwrote, ?_⟩, fun hj => absurd (hjoined hj) hd, hrunning⟩
  simp only [hb]
  exact haccepted

theorem backendTick_kept (h : Kept c s) : Kept c (s.backendTick c) := by
  unfold AsyncLogger.backendTick
  split
  · rename_i hb
    refine h.backend (by simp [hb]) ?_
    rw [hb]
    split <;> rfl
  · rename_i hb
    refine h.backend (by simp [hb]) ?_
    rw [hb]
    split <;> rfl
  · rename_i hb
    split
    · exact h.backend (by simp [hb]) (by rw [hb]; rfl)
    · exact take_kept h (by rw [hb]; rfl) (by simp [hb])
  · rename_i hb
    exact take_kept h (by rw [hb]; rfl) (by simp [hb])
  · rename_i hb
    exact h.backend (by simp [hb]) (by rw [hb]; rfl)
  · -- the first entry of the batch is now written
    rename_i entry rest hb
    obtain ⟨⟨written, hwrote, haccepted⟩, hjoined, hrunning⟩ := h
    rw [hb] at hjoined haccepted
    refine ⟨⟨written ++ [entry], processEntry_wrote hwrote, ?_⟩, fun hj => (by cases hjoined hj),
      hrunning⟩
    simpa [BackendAt.batch] using haccepted
  · rename_i hb
    obtain ⟨⟨written, hwrote, haccepted⟩, hjoined, hrunning⟩ := h
    rw [hb] at hjoined haccepted
    exact ⟨⟨written, tell_wrote rfl hwrote, haccepted⟩, fun hj => (by cases hjoined hj), hrunning⟩
  · exact h

theorem stopTick_kept (h : Kept c s) : Kept c (s.stopTick c) := by
  obtain ⟨⟨written, hwrote, haccepted⟩, hjoined, hrunning⟩ := h
  unfold AsyncLogger.stopTick
  split
  · rename_i hs
    rw [hs] at haccepted
    rw [hrunning hs, if_pos rfl]
    exact ⟨⟨written, hwrote, haccepted⟩, fun hj => hj.elim, fun hs => by cases hs⟩
  · rename_i hs
    rw [hs] at haccepted
    exact ⟨⟨written, hwrote, haccepted⟩, fun hj => hj.elim, fun hs => by cases hs⟩
  · rename_i hs
    rw [hs] at haccepted
    exact ⟨⟨written, hwrote, haccepted⟩, fun hj => hj.elim, fun hs => by cases hs⟩
  · rename_i hs
    split
    · rename_i hdone
      rw [hs] at haccepted
      exact ⟨⟨written, hwrote, haccepted⟩, fun _ => hdone, fun hs => by cases hs⟩
    · exact ⟨⟨written, hwrote, haccepted⟩, hjoined, hrunning⟩
  · -- what is left in the buffer becomes the batch of the call
    rename_i hs
    rw [hs] at hjoined haccepted
    refine ⟨⟨written, hwrote, ?_⟩, fun _ => hjoined trivial, fun hs => by cases hs⟩
    rw [haccepted]
    simp [StopAt.batch, RingBuffer.swap]
  · rename_i hs
    rw [hs] at hjoined haccepted
    exact ⟨⟨written, hwrote, haccepted⟩, fun _ => hjoined trivial, fun hs => by cases hs⟩
  · rename_i entry rest hs
    rw [hs] at hjoined haccepted
    have hdone := hjoined trivial
    refine ⟨⟨written ++ [entry], processEntry_wrote hwrote, ?_⟩, fun _ => hdone, fun hs => by cases hs⟩
    rw [hdone] at haccepted
    simpa [BackendAt.batch, StopAt.batch, hdone] using haccepted
  · rename_i hs
    rw [hs] at hjoined haccepted
    exact ⟨⟨written, tell_wrote rfl hwrote, haccepted⟩, fun _ => hjoined trivial,
      fun hs => by cases hs⟩
  · exact ⟨⟨written, hwrote, haccepted⟩, hjoined, hrunning⟩

theorem step_kept (h : Kept c s) (a : Act) : Kept c (step c s a) := by
  cases a with
  | check t entry => exact check_kept h
  | insert t => exact insert_kept h
  | backend => exact backendTick_kept h
  | stop => exact stopTick_kept h

theorem start_kept (capacity : Nat) (kinds : List SinkKind) :
    Kept c (AsyncLogger.start capacity kinds) := by
  refine ⟨⟨[], ?_, rfl⟩, fun hj => hj.elim, fun _ => rfl⟩
  intro sink hsink
  obtain ⟨kind, _, rfl⟩ := List.mem_map.mp hsink
  exact .nil

/-! After the last swap the buffer stays empty as long as every entry comes in time. -/

/-- Once `Stop` has taken the last entries, none is left behind. -/
def NoneLeft (s : AsyncLogger) : Prop := s.stopping.Drained → s.buffer.front = []

theorem joined_of_drained {p : StopAt} (h : p.Drained) : p.Joined := by
  cases p <;> first | exact h | exact trivial

theorem backendTick_done (hb : s.backend = .done) : s.backendTick c = s := by
  unfold AsyncLogger.backendTick
  rw [hb]

theorem insert_front (b : RingBuffer) (entry : LogEntry) :
    (b.insert entry).1.front = [] ↔ b.front = [] ∧ ¬ b.front.length < b.capacity := by
  unfold RingBuffer.insert
  split
  · rename_i hfull
    simp [Nat.not_lt.mpr hfull]
  · rename_i hroom
    simp [Nat.not_le.mp hroom]

/-- Once `Stop` has taken the last entries, an entry that is late is left for ever. -/
theorem drained_step (h : Kept c s) (hd : s.stopping.Drained) (a : Act) :
    (step c s a).stopping.Drained ∧
      ((step c s a).buffer.front = [] ↔ s.buffer.front = [] ∧ InTime s a) := by
  cases a with
  | check t entry =>
    simp only [step, AsyncLogger.check]
    split <;> exact ⟨hd, by simp [InTime]⟩
  | insert t =>
    simp only [step, AsyncLogger.insert, InTime]
    cases ht : s.pushing.get t with
    | none => exact ⟨hd, by simp⟩
    | some entry =>
      refine ⟨hd, ?_⟩
      simp only [insert_front, hd, Option.isSome_some, not_true_eq_false, imp_false, forall_const]
  | backend =>
    rw [step, backendTick_done (h.joined (joined_of_drained hd))]
    exact ⟨hd, by simp [InTime]⟩
  | stop =>
    simp only [step, AsyncLogger.stopTick]
    split
    case h_6 => exact ⟨trivial, by simp [InTime]⟩
    case h_7 => exact ⟨trivial, by simp [InTime]⟩
    case h_8 => exact ⟨trivial, by simp [InTime]⟩
    case h_9 => exact ⟨hd, by simp [InTime]⟩
    all_goals
      rename_i hs
      rw [hs] at hd
      exact hd.elim

theorem backendTick_stopping : (s.backendTick c).stopping = s.stopping := by
  unfold AsyncLogger.backendTick
  split
  case h_3 => split <;> rfl
  all_goals rfl

/-- Until then nothing is late. -/
theorem not_drained_step (h : Kept c s) (hd : ¬ s.stopping.Drained) (a : Act) :
    NoneLeft (step c s a) ∧ InTime s a := by
  cases a with
  | check t entry =>
    refine ⟨?_, trivial⟩
    simp only [step, AsyncLogger.check]
    split <;> exact fun hdr => absurd hdr hd
  | insert t =>
    refine ⟨?_, fun _ _ => hd⟩
    simp only [step, AsyncLogger.insert]
    split <;> exact fun hdr => absurd hdr hd
  | backend =>
    refine ⟨fun hdr => absurd ?_ hd, trivial⟩
    rw [step, backendTick_stopping] at hdr
    exact hdr
  | stop =>
    refine ⟨?_, trivial⟩
    simp only [step, AsyncLogger.stopTick]
    split
    case h_1 hs =>
      rw [h.running hs, if_pos rfl]
      exact fun hdr => hdr.elim
    case h_2 => exact fun hdr => hdr.elim
    case h_3 => exact fun hdr => hdr.elim
    case h_4 =>
      split
      · exact fun hdr => hdr.elim
      · exact fun hdr => absurd hdr hd
    case h_5 => exact fun _ => rfl
    all_goals
      rename_i hs
      rw [hs] at hd
      exact absurd trivial hd

theorem noneLeft_step (h : Kept c s) (hs : NoneLeft s) : NoneLeft (step c s a) ↔ InTime s a := by
  by_cases hd : s.stopping.Drained
  · obtain ⟨hd', hfront⟩ := drained_step h hd a
    constructor
    · intro hn
      exact (hfront.mp (hn hd')).2
    · intro hin _
      exact hfront.mpr ⟨hs hd, hin⟩
  · exact iff_of_true (not_drained_step h hd a).1 (not_drained_step h hd a).2

theorem noneLeft_of_step (h : Kept c s) (hs : NoneLeft (step c s a)) : NoneLeft s := by
  intro hd
  obtain ⟨hd', hfront⟩ := drained_step h hd a
  exact (hfront.mp (hs hd')).1

/-- When `Stop` has returned, the sinks have every accepted entry unless one is left behind. -/
theorem allWritten_iff_noneLeft (h : Kept c s) (hret : s.stopping = .returned) :
    AllWritten c s ↔ s.sinks = [] ∨ NoneLeft s := by
  obtain ⟨⟨written, hwrote, haccepted⟩, hjoined, _⟩ := h
  rw [hret] at haccepted hjoined
  rw [hjoined trivial] at haccepted
  have haccepted : s.accepted = written ++ s.buffer.front := by
    simpa [BackendAt.batch, StopAt.batch] using haccepted
  constructor
  · intro hall
    cases hsinks : s.sinks with
    | nil => exact Or.inl rfl
    | cons sink sinks =>
      refine Or.inr fun _ => ?_
      have hsink : sink ∈ s.sinks := by rw [hsinks]; exact List.mem_cons_self
      have hlength := (hall sink hsink).length_eq.trans (hwrote sink hsink).length_eq.symm
      rw [haccepted, List.length_append] at hlength
      exact List.length_eq_zero_iff.mp (by omega)
  · rintro (hnil | hnone)
    · intro sink hsink
      rw [hnil] at hsink
      cases hsink
    · have hfront := hnone (by rw [hret]; trivial)
      rw [hfront, List.append_nil] at haccepted
      intro sink hsink
      rw [haccepted]
      exact hwrote sink hsink

theorem sinks_step : (step c s a).sinks = [] ↔ s.sinks = [] := by
  cases a with
  | check t entry =>
    simp only [step, AsyncLogger.check]
    split <;> rfl
  | insert t =>
    simp only [step, AsyncLogger.insert]
    split <;> rfl
  | backend =>
    simp only [step, AsyncLogger.backendTick]
    split
    case h_3 => split <;> rfl
    all_goals simp [processEntry, flushSinks, AsyncLogger.take]
  | stop =>
    simp only [step, AsyncLogger.stopTick]
    split
    case h_4 => split <;> rfl
    all_goals simp [processEntry, closeSinks]

theorem sinks_run (acts : List Act) : (run (step c) s acts).sinks = [] ↔ s.sinks = [] := by
  induction acts generalizing s with
  | nil => exact Iff.rfl
  | cons a acts ih => exact ih.trans sinks_step

/-- When `Stop` has returned, every entry for which `Push` returned true has been written to the
sinks once and in the order of the insertions, exactly when none was inserted after `Stop` took the
last ones out of the buffer. -/
theorem allWritten_iff (c : LogConfig) (capacity : Nat) (kinds : List SinkKind) (acts : List Act)
    (hret : (run (step c) (.start capacity kinds) acts).stopping = .returned) :
    AllWritten c (run (step c) (.start capacity kinds) acts) ↔
      kinds = [] ∨ AllSteps (step c) InTime (.start capacity kinds) acts := by
  have hkept : Kept c (run (step c) (.start capacity kinds) acts) :=
    run_invariant (Q := fun _ => True) (fun s a h _ => step_kept h a) (start_kept capacity kinds)
      (fun _ _ => trivial)
  rw [allWritten_iff_noneLeft hkept hret, sinks_run]
  refine or_congr (by simp [AsyncLogger.start]) ?_
  exact run_iff_allSteps (I := Kept c) (fun s a h _ => step_kept h a)
    (fun s a h _ hs => noneLeft_step h hs) (fun s a h _ hs => noneLeft_of_step h hs)
    (start_kept capacity kinds) (fun hd => hd.elim)
    (allSteps_of_forall (C := fun _ _ => True) fun _ _ => trivial)

/-- The clock and the thread ids of the runs below. -/
def plainConfig : LogConfig where
  formatter := { formatTimestamp := formatInt, threadId := fun w => if w = .backend then [49] else [50] }

/-- One thread logs while the backend thread waits, another after `Stop` was called. -/
def orderlyActs : List Act :=
  [.backend, .backend, .check 0 { message := [97] }, .insert 0, .check 1 { message := [98] },
    .stop, .stop, .stop, .backend, .backend, .backend, .backend, .insert 1,
    .backend, .backend, .backend, .backend, .backend, .backend, .backend, .backend,
    .stop, .stop, .stop, .stop, .stop, .stop]

theorem allWritten_orderly :
    (run (step plainConfig) (.start 1024 [.console, .file]) orderlyActs).accepted.length = 2 ∧
      AllSteps (step plainConfig) InTime (.start 1024 [.console, .file]) orderlyActs ∧
      AllWritten plainConfig (run (step plainConfig) (.start 1024 [.console, .file]) orderlyActs) := by
  have hret : (run (step plainConfig) (.start 1024 [.console, .file]) orderlyActs).stopping =
      .returned := by decide +kernel
  have hintime : AllSteps (step plainConfig) InTime (.start 1024 [.console, .file]) orderlyActs := by
    decide +kernel
  exact ⟨by decide +kernel, hintime, (allWritten_iff _ _ _ _ hret).mpr (Or.inr hintime)⟩

/-- A thread has passed the check of `Push` when `Stop` is called, and gets the lock after the last
swap. -/
def lateActs : List Act :=
  [.check 0 { message := [97] }, .stop, .stop, .stop, .backend, .backend, .stop, .stop, .insert 0,
    .stop, .stop]

theorem late_entry_lost :
    ¬ ∀ acts, (run (step plainConfig) (.start 1024 [.file]) acts).stopping = .returned →
      AllWritten plainConfig (run (step plainConfig) (.start 1024 [.file]) acts) := by
  intro hall
  have hwrote := hall lateActs (by decide +kernel) { kind := .file, calls := [.flush, .close] }
    (by decide +kernel)
  have hlength := List.Forall₂.length_eq hwrote
  revert hlength
  decide +kernel

end SwiftChat.Logger
