import SwiftChat.Logger.AsyncLogger

/-! The ring buffer with its two buffers: no entry is lost, repeated or out of order. -/
namespace SwiftChat.Logger
open Base

/-- The class `RingBuffer` with all its fields. -/
structure DoubleBuffer where
  capacity : Nat
  frontBuffer : List LogEntry := []
  backBuffer : List LogEntry := []
  stopped : Bool := false
deriving DecidableEq

namespace DoubleBuffer
variable {b : DoubleBuffer} {seen : Bool} {entry : LogEntry} {left : List LogEntry}

/-- `stopped_` is read before the lock is taken; `seen` is what the read gave. -/
def push (b : DoubleBuffer) (seen : Bool) (entry : LogEntry) : DoubleBuffer × Bool :=
  if seen then (b, false)
  else if b.capacity ≤ b.frontBuffer.length then (b, false)
  else ({ b with frontBuffer := b.frontBuffer ++ [entry] }, true)

/-- `SwapAndGet` once it holds the lock for good. `left` is what the move leaves in the back buffer. -/
def swapAndGet (b : DoubleBuffer) (left : List LogEntry) : DoubleBuffer × List LogEntry :=
  if b.frontBuffer ≠ [] then
    let b := { b with backBuffer := [] }
    let b := { b with frontBuffer := b.backBuffer, backBuffer := b.frontBuffer }
    let entries := b.backBuffer
    let b := { b with backBuffer := left }
    ({ b with backBuffer := [] }, entries)
  else (b, [])

def stop (b : DoubleBuffer) : DoubleBuffer := { b with stopped := true }

theorem push_cases (b : DoubleBuffer) (seen : Bool) (entry : LogEntry) :
    b.push seen entry = (b, false) ∨
      b.frontBuffer.length < b.capacity ∧
        b.push seen entry = ({ b with frontBuffer := b.frontBuffer ++ [entry] }, true) := by
  unfold push
  split
  · exact .inl rfl
  · split
    · exact .inl rfl
    · rename_i hroom
      exact .inr ⟨Nat.lt_of_not_le hroom, rfl⟩

theorem swapAndGet_entries : (b.swapAndGet left).2 = b.frontBuffer := by
  unfold swapAndGet
  split
  · rfl
  · rename_i h
    exact (not_not.mp h).symm

theorem swapAndGet_frontBuffer : (b.swapAndGet left).1.frontBuffer = [] := by
  unfold swapAndGet
  split
  · rfl
  · rename_i h
    exact not_not.mp h

theorem swapAndGet_capacity : (b.swapAndGet left).1.capacity = b.capacity := by
  unfold swapAndGet
  split <;> rfl

theorem swapAndGet_backBuffer (h : b.backBuffer = []) : (b.swapAndGet left).1.backBuffer = [] := by
  unfold swapAndGet
  split
  · rfl
  · exact h

/-- What is left of the buffer when its back buffer is not looked at. -/
def front (b : DoubleBuffer) : RingBuffer :=
  { capacity := b.capacity, front := b.frontBuffer, stopped := b.stopped }

theorem front_push (b : DoubleBuffer) (entry : LogEntry) :
    ((b.push false entry).1.front, (b.push false entry).2) = b.front.insert entry := by
  by_cases h : b.capacity ≤ b.frontBuffer.length
  · simp [push, RingBuffer.insert, front, h]
  · simp [push, RingBuffer.insert, front, h]

theorem front_swapAndGet (b : DoubleBuffer) (left : List LogEntry) :
    ((b.swapAndGet left).1.front, (b.swapAndGet left).2) = b.front.swap := by
  by_cases h : b.frontBuffer = []
  · simp [swapAndGet, RingBuffer.swap, front, h]
  · simp [swapAndGet, RingBuffer.swap, front, h]

end DoubleBuffer

/-- A call, from its taking the lock to its release. -/
inductive BufferCall where
  | push (seen : Bool) (entry : LogEntry)
  | swapAndGet (left : List LogEntry)
  | stop

/-- The buffer with the answers that its callers got. -/
structure BufferRun where
  buffer : DoubleBuffer
  accepted : List LogEntry := []
  batches : List (List LogEntry) := []

namespace BufferRun

def start (capacity : Nat) : BufferRun := { buffer := { capacity := capacity } }

def call (r : BufferRun) : BufferCall → BufferRun
  | .push seen entry =>
    { r with
      buffer := (r.buffer.push seen entry).1
      accepted := if (r.buffer.push seen entry).2 then r.accepted ++ [entry] else r.accepted }
  | .swapAndGet left =>
    { r with
      buffer := (r.buffer.swapAndGet left).1
      batches := r.batches ++ [(r.buffer.swapAndGet left).2] }
  | .stop => { r with buffer := r.buffer.stop }

/-- Each accepted entry has been given out or waits in the front buffer, in the order of the calls.
The back buffer holds something only while the lock is held. -/
structure Sound (capacity : Nat) (r : BufferRun) : Prop where
  bound : r.buffer.capacity = capacity
  room : r.buffer.frontBuffer.length ≤ capacity
  back : r.buffer.backBuffer = []
  accepted : r.batches.flatten ++ r.buffer.frontBuffer = r.accepted

variable {capacity : Nat} {r : BufferRun}

theorem Sound.push (h : r.Sound capacity) (seen : Bool) (entry : LogEntry) :
    (r.call (.push seen entry)).Sound capacity := by
  rcases r.buffer.push_cases seen entry with he | ⟨hroom, he⟩
  · have hr : r.call (.push seen entry) = r := by simp [call, he]
    rw [hr]
    exact h
  · refine ⟨?_, ?_, ?_, ?_⟩
    · simp [call, he, h.bound]
    · have hlt : r.buffer.frontBuffer.length < capacity := h.bound ▸ hroom
      simp only [call, he, List.length_append, List.length_singleton]
      omega
    · simp [call, he, h.back]
    · simp [call, he, ← h.accepted]

theorem Sound.swapAndGet (h : r.Sound capacity) (left : List LogEntry) :
    (r.call (.swapAndGet left)).Sound capacity := by
  constructor
  · exact DoubleBuffer.swapAndGet_capacity.trans h.bound
  · simp [call, DoubleBuffer.swapAndGet_frontBuffer]
  · exact DoubleBuffer.swapAndGet_backBuffer h.back
  · simp [call, DoubleBuffer.swapAndGet_frontBuffer, DoubleBuffer.swapAndGet_entries, ← h.accepted]

theorem Sound.call (h : r.Sound capacity) (c : BufferCall) : (r.call c).Sound capacity := by
  cases c with
  | push seen entry => exact h.push seen entry
  | swapAndGet left => exact h.swapAndGet left
  | stop => exact ⟨h.bound, h.room, h.back, h.accepted⟩

theorem run_sound (capacity : Nat) (calls : List BufferCall) :
    (run BufferRun.call (start capacity) calls).Sound capacity :=
  run_invariant (Q := fun _ => True) (fun _ c h _ => h.call c)
    ⟨rfl, Nat.zero_le _, rfl, rfl⟩ (fun _ _ => trivial)

end BufferRun

/-- Whatever the order of the calls, the batches given out and the front buffer together are the
accepted entries, and the front buffer is within its capacity. -/
theorem batches_right (capacity : Nat) (calls : List BufferCall) :
    let r := run BufferRun.call (BufferRun.start capacity) calls
    r.batches.flatten ++ r.buffer.frontBuffer = r.accepted ∧ r.buffer.frontBuffer.length ≤ capacity :=
  ⟨(BufferRun.run_sound capacity calls).accepted, (BufferRun.run_sound capacity calls).room⟩

end SwiftChat.Logger
