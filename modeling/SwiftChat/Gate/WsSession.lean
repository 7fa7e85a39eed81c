import SwiftChat.Base.Bytes
import SwiftChat.Base.Run

/-! A websocket session: the chain of its writes, and its end. -/
namespace SwiftChat.Gate
open Base

structure WsSession where
  connId : Bytes
  writeQueue : List Bytes := []
  writeBuffer : Bytes := []
  writing : Bool := false
  closed : Bool := false
deriving DecidableEq

/-- What a session asks of its socket, of the gate service and of the websocket handler. -/
inductive SessionCall where
  | asyncWrite (frame : Bytes)
  | removeCloseCallback (connId : Bytes)
  | removeSendCallback (connId : Bytes)
  | onDisconnect (connId : Bytes)
  | removeConnection (connId : Bytes)
  | closeSocket
deriving DecidableEq

def SessionCall.frame : SessionCall → Option Bytes
  | .asyncWrite frame => some frame
  | _ => none

/-- The frames handed to the socket. -/
def framesOf (calls : List SessionCall) : List Bytes := calls.filterMap SessionCall.frame

namespace WsSession

/-- A step of the session with the calls that it makes. -/
abbrev Result := WsSession × List SessionCall

def doWrite (s : WsSession) : Result :=
  match s.closed, s.writeQueue with
  | false, frame :: rest =>
    ({ s with writing := true, writeBuffer := frame, writeQueue := rest }, [.asyncWrite frame])
  | _, _ => (s, [])

def queueSend (s : WsSession) (data : Bytes) : Result :=
  if s.closed then (s, [])
  else
    let s := { s with writeQueue := s.writeQueue ++ [data] }
    if s.writing then (s, []) else s.doWrite

/-- The calls of `Close`, in their order. -/
def closeCalls (connId : Bytes) : List SessionCall :=
  [.removeCloseCallback connId, .removeSendCallback connId, .onDisconnect connId,
    .removeConnection connId, .closeSocket]

def close (s : WsSession) : Result :=
  if s.closed then (s, []) else ({ s with closed := true }, closeCalls s.connId)

/-- `ec` says that the write failed. -/
def onWrite (s : WsSession) (ec : Bool) : Result :=
  let s := { s with writing := false }
  if ec then
    if s.closed then (s, []) else s.close
  else if s.writeQueue ≠ [] then s.doWrite
  else (s, [])

end WsSession

/-- What runs on the strand of the session. `Close` has several callers. -/
inductive SessionEvent where
  | queueSend (data : Bytes)
  | written (ec : Bool)
  | close

/-- A session with the calls it has made, the frames that entered its queue, and the number of writes
that are started and not completed. -/
structure SessionRun where
  session : WsSession
  calls : List SessionCall := []
  queued : List Bytes := []
  outstanding : Nat := 0

namespace SessionRun

def start (connId : Bytes) : SessionRun := { session := { connId := connId } }

def after (r : SessionRun) (result : WsSession.Result) : SessionRun :=
  { r with
    session := result.1
    calls := r.calls ++ result.2
    outstanding := r.outstanding + (framesOf result.2).length }

/-- Only a write that is outstanding completes. -/
def step (r : SessionRun) : SessionEvent → SessionRun
  | .queueSend data =>
    { r.after (r.session.queueSend data) with
      queued := if r.session.closed then r.queued else r.queued ++ [data] }
  | .written ec =>
    if r.outstanding = 0 then r
    else { r with outstanding := r.outstanding - 1 }.after (r.session.onWrite ec)
  | .close => r.after r.session.close

/-- The frames handed over and those that wait are the frames queued, a write is outstanding when the
session is `writing`, and the calls of `Close` are the last that were made. -/
structure Sound (r : SessionRun) : Prop where
  outstanding : r.outstanding = if r.session.writing then 1 else 0
  frames : framesOf r.calls ++ r.session.writeQueue = r.queued
  calls : r.calls = (framesOf r.calls).map .asyncWrite ++
    if r.session.closed then WsSession.closeCalls r.session.connId else []
  buffer : r.session.writing → (framesOf r.calls).getLast? = some r.session.writeBuffer

/-- No frame waits while nothing is being written. -/
def Idle (r : SessionRun) : Prop :=
  r.session.closed = false → r.session.writing = false → r.session.writeQueue = []

variable {r : SessionRun}

theorem framesOf_closeCalls (connId : Bytes) : framesOf (WsSession.closeCalls connId) = [] := by
  simp [framesOf, WsSession.closeCalls, SessionCall.frame]

theorem framesOf_append (a b : List SessionCall) : framesOf (a ++ b) = framesOf a ++ framesOf b :=
  List.filterMap_append

@[simp] theorem after_nothing : r.after (r.session, []) = r := by
  simp [after, framesOf]

theorem Sound.doWrite (h : r.Sound) (hw : r.session.writing = false) :
    (r.after r.session.doWrite).Sound ∧ (r.after r.session.doWrite).Idle := by
  have hout := h.outstanding
  have hframes := h.frames
  have hcalls := h.calls
  unfold WsSession.doWrite
  cases hc : r.session.closed with
  | true =>
    simp only [after_nothing]
    exact ⟨h, fun hopen => absurd (hc.symm.trans hopen) (by simp)⟩
  | false =>
    cases hq : r.session.writeQueue with
    | nil =>
      simp only [after_nothing]
      exact ⟨h, fun _ _ => hq⟩
    | cons frame rest =>
      rw [hc] at hcalls
      rw [hq] at hframes
      refine ⟨⟨?_, ?_, ?_, ?_⟩, fun _ hidle => absurd hidle (by simp [after])⟩
      · simp [after, framesOf, SessionCall.frame, hout, hw]
      · simp [after, framesOf, SessionCall.frame, ← hframes]
      · simp only [after, framesOf_append, List.map_append]
        rw [hcalls]
        simp [framesOf, SessionCall.frame, Function.comp_def]
      · simp [after, framesOf, SessionCall.frame]

theorem Sound.close (h : r.Sound) :
    (r.after r.session.close).Sound ∧ (r.after r.session.close).Idle := by
  unfold WsSession.close
  cases hc : r.session.closed with
  | true =>
    simp only [if_pos, after_nothing]
    exact ⟨h, fun hopen => absurd (hc.symm.trans hopen) (by simp)⟩
  | false =>
    have hcalls := h.calls
    rw [hc] at hcalls
    simp only [Bool.false_eq_true, if_false, List.append_nil] at hcalls
    refine ⟨⟨?_, ?_, ?_, ?_⟩, fun hopen => absurd hopen (by simp [after])⟩
    · simp [after, framesOf_closeCalls, h.outstanding]
    · simp [after, framesOf_append, framesOf_closeCalls, h.frames]
    · simp [after, framesOf_append, framesOf_closeCalls, ← hcalls]
    · simpa [after, framesOf_append, framesOf_closeCalls] using h.buffer

theorem Sound.queueSend (h : r.Sound) (hidle : r.Idle) (data : Bytes) :
    (r.step (.queueSend data)).Sound ∧ (r.step (.queueSend data)).Idle := by
  cases hc : r.session.closed with
  | true =>
    have hr : r.step (.queueSend data) = r := by
      simp [step, WsSession.queueSend, hc]
    rw [hr]
    exact ⟨h, hidle⟩
  | false =>
    let queued : SessionRun :=
      { r with
        session := { r.session with writeQueue := r.session.writeQueue ++ [data] }
        queued := r.queued ++ [data] }
    have hqueued : queued.Sound :=
      ⟨h.outstanding, by simp [queued, ← h.frames], h.calls, h.buffer⟩
    cases hw : r.session.writing with
    | true =>
      have hr : r.step (.queueSend data) = queued := by
        simp [step, WsSession.queueSend, hc, hw, after, framesOf, queued]
      rw [hr]
      exact ⟨hqueued, fun _ hnot => absurd (hw.symm.trans hnot) (by simp)⟩
    | false =>
      have hr : r.step (.queueSend data) = queued.after queued.session.doWrite := by
        simp [step, WsSession.queueSend, hc, hw, after, queued]
      rw [hr]
      exact hqueued.doWrite hw

theorem Sound.written (h : r.Sound) (hidle : r.Idle) (ec : Bool) :
    (r.step (.written ec)).Sound ∧ (r.step (.written ec)).Idle := by
  have hout := h.outstanding
  cases hw : r.session.writing with
  | false =>
    have hr : r.step (.written ec) = r := by simp [step, hout, hw]
    rw [hr]
    exact ⟨h, hidle⟩
  | true =>
    let written : SessionRun :=
      { r with session := { r.session with writing := false }, outstanding := 0 }
    have hwritten : written.Sound := ⟨rfl, h.frames, h.calls, fun hnot => absurd hnot (by simp [written])⟩
    have hr : r.step (.written ec) = written.after (r.session.onWrite ec) := by
      simp [step, hout, hw, written, after]
    rw [hr]
    cases ec with
    | true =>
      cases hc : r.session.closed with
      | true =>
        have he : r.session.onWrite true = (written.session, []) := by
          simp [WsSession.onWrite, hc, written]
        rw [he, after_nothing]
        exact ⟨hwritten, fun hopen => absurd (hc.symm.trans hopen) (by simp)⟩
      | false =>
        have he : r.session.onWrite true = written.session.close := by
          simp [WsSession.onWrite, hc, written]
        rw [he]
        exact hwritten.close
    | false =>
      by_cases hq : r.session.writeQueue = []
      · have he : r.session.onWrite false = (written.session, []) := by
          simp [WsSession.onWrite, hq, written]
        rw [he, after_nothing]
        exact ⟨hwritten, fun _ _ => hq⟩
      · have he : r.session.onWrite false = written.session.doWrite := by
          simp [WsSession.onWrite, hq, written]
        rw [he]
        exact hwritten.doWrite rfl

/-- What holds of a session between two tasks of its strand. -/
def Settled (r : SessionRun) : Prop := r.Sound ∧ r.Idle

theorem Settled.step (h : r.Settled) (event : SessionEvent) : (r.step event).Settled := by
  cases event with
  | queueSend data => exact h.1.queueSend h.2 data
  | written ec => exact h.1.written h.2 ec
  | close => exact h.1.close

theorem run_settled (h : r.Settled) (events : List SessionEvent) :
    (run SessionRun.step r events).Settled :=
  run_invariant (Q := fun _ => True) (fun _ event h _ => h.step event) h (fun _ _ => trivial)

theorem start_settled (connId : Bytes) : (start connId).Settled :=
  ⟨⟨rfl, rfl, rfl, fun hnot => absurd hnot (by simp [start])⟩, fun _ _ => rfl⟩

/-- A closed session hands over nothing more. -/
theorem framesOf_step_of_closed (hc : r.session.closed) (event : SessionEvent) :
    (r.step event).session.closed ∧ framesOf (r.step event).calls = framesOf r.calls := by
  cases event with
  | queueSend data => simp [step, WsSession.queueSend, hc, after, framesOf]
  | close => simp [step, WsSession.close, hc, after, framesOf]
  | written ec =>
    simp only [step]
    split
    · exact ⟨hc, rfl⟩
    · cases ec with
      | true => simp [WsSession.onWrite, hc, after, framesOf]
      | false =>
        by_cases hq : r.session.writeQueue = []
        · simp [WsSession.onWrite, hq, hc, after, framesOf]
        · simp [WsSession.onWrite, hq, WsSession.doWrite, hc, after, framesOf]

theorem framesOf_run_of_closed (hc : r.session.closed) (events : List SessionEvent) :
    framesOf (run SessionRun.step r events).calls = framesOf r.calls := by
  let Same (t : SessionRun) : Prop := t.session.closed ∧ framesOf t.calls = framesOf r.calls
  have hstep : ∀ t event, Same t → True → Same (t.step event) := by
    intro t event ht _
    obtain ⟨hclosed, hsame⟩ := framesOf_step_of_closed ht.1 event
    exact ⟨hclosed, hsame.trans ht.2⟩
  have hrun : Same (run SessionRun.step r events) :=
    run_invariant (Q := fun _ => True) hstep ⟨hc, rfl⟩ (fun _ _ => trivial)
  exact hrun.2

theorem Sound.count_le_one (h : r.Sound) {call : SessionCall} (hcall : call.frame = none) :
    r.calls.count call ≤ 1 := by
  have hwrites : ((framesOf r.calls).map SessionCall.asyncWrite).count call = 0 := by
    apply List.count_eq_zero.mpr
    intro hmem
    obtain ⟨frame, _, rfl⟩ := List.mem_map.mp hmem
    simp [SessionCall.frame] at hcall
  have hclose : (WsSession.closeCalls r.session.connId).Nodup := by
    simp [WsSession.closeCalls]
  rw [h.calls, List.count_append, hwrites, Nat.zero_add]
  split
  · exact List.nodup_iff_count.mp hclose call
  · simp

end SessionRun

/-- Whatever the order of the tasks, one write at most is outstanding, the frames handed over are the
first of those queued, none is handed over once the session is closed, and what `Close` does is done
once at most. -/
theorem session_right (connId : Bytes) (events : List SessionEvent) :
    let r := run SessionRun.step (SessionRun.start connId) events
    r.outstanding ≤ 1 ∧ framesOf r.calls <+: r.queued ∧
      (r.session.closed → ∀ later, framesOf (run SessionRun.step r later).calls = framesOf r.calls) ∧
      ∀ call : SessionCall, call.frame = none → r.calls.count call ≤ 1 := by
  intro r
  have h : r.Settled := SessionRun.run_settled (SessionRun.start_settled connId) events
  refine ⟨?_, ?_, ?_, ?_⟩
  · rw [h.1.outstanding]
    split <;> omega
  · rw [← h.1.frames]
    exact List.prefix_append _ _
  · intro hc later
    exact SessionRun.framesOf_run_of_closed hc later
  · intro call hcall
    exact h.1.count_le_one hcall

end SwiftChat.Gate
