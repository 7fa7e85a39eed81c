import SwiftChat.Base.Decimal
import SwiftChat.Base.Json
import SwiftChat.Base.OrderedMap
import SwiftChat.Base.Run

/-! The asynchronous logger: threads that log, the thread that writes, and the call that stops it. -/
namespace SwiftChat.Logger
open Base

structure LogEntry where
  timestamp : Int := 0
  level : Int := 0
  line : Int := 0
  file : Bytes := []
  message : Bytes := []
  tags : Bytes := []
deriving DecidableEq

/-- The threads that run `ProcessEntries`. -/
inductive Writer where
  | backend
  | stopper
deriving DecidableEq

/-- The local time and the thread ids come from the system. -/
structure LogFormatter where
  showFileLine : Bool := true
  showThreadId : Bool := false
  formatTimestamp : Int → Bytes
  threadId : Writer → Bytes

def logLevelToString (level : Int) : Bytes :=
  match level with
  | 0 => str "TRACE"
  | 1 => str "DEBUG"
  | 2 => str "INFO"
  | 3 => str "WARN"
  | 4 => str "ERROR"
  | 5 => str "FATAL"
  | 6 => str "OFF"
  | _ => str "UNKNOWN"

def LogFormatter.format (f : LogFormatter) (w : Writer) (entry : LogEntry) : Bytes :=
  str "[" ++ f.formatTimestamp entry.timestamp ++ str "] " ++
  str "[" ++ logLevelToString entry.level ++ str "] " ++
  (if f.showThreadId then str "[tid:" ++ f.threadId w ++ str "] " else []) ++
  (if entry.tags = [] then [] else str "[" ++ entry.tags ++ str "] ") ++
  (if f.showFileLine ∧ entry.file ≠ [] then
    str "[" ++ entry.file ++ str ":" ++ formatInt entry.line ++ str "] " else []) ++
  entry.message ++ str "\n"

structure LogConfig where
  flushIntervalMs : Nat := 100
  consoleColor : Bool := true
  formatter : LogFormatter

/-- What a sink is told. -/
inductive SinkCall where
  | write (formatted : Bytes)
  | writeWithLevel (level : Int) (formatted : Bytes)
  | flush
  | close
deriving DecidableEq

inductive SinkKind where
  | console
  | file
deriving DecidableEq

structure Sink where
  kind : SinkKind
  calls : List SinkCall := []
deriving DecidableEq

def Sink.tell (sink : Sink) (calls : List SinkCall) : Sink :=
  { sink with calls := sink.calls ++ calls }

def flushSinks (sinks : List Sink) : List Sink := sinks.map (fun sink => sink.tell [.flush])

def closeSinks (sinks : List Sink) : List Sink := sinks.map (fun sink => sink.tell [.flush, .close])

/-- How `ProcessEntries` passes an entry to a sink. -/
def lineOf (c : LogConfig) (w : Writer) (kind : SinkKind) (entry : LogEntry) : SinkCall :=
  if kind = .console ∧ c.consoleColor then
    .writeWithLevel entry.level (c.formatter.format w entry)
  else .write (c.formatter.format w entry)

def processEntry (c : LogConfig) (w : Writer) (sinks : List Sink) (entry : LogEntry) : List Sink :=
  sinks.map (fun sink => sink.tell [lineOf c w sink.kind entry])

/-- The back buffer is empty whenever the lock is free. -/
structure RingBuffer where
  capacity : Nat
  front : List LogEntry := []
  stopped : Bool := false

namespace RingBuffer

/-- The part of `Push` under the lock. -/
def insert (b : RingBuffer) (entry : LogEntry) : RingBuffer × Bool :=
  if b.capacity ≤ b.front.length then (b, false)
  else ({ b with front := b.front ++ [entry] }, true)

/-- `SwapAndGet` waits on its condition variable first. -/
def Waits (b : RingBuffer) (timeoutMs : Int) : Prop := b.front = [] ∧ b.stopped = false ∧ 0 < timeoutMs

instance (b : RingBuffer) (timeoutMs : Int) : Decidable (b.Waits timeoutMs) :=
  inferInstanceAs (Decidable (_ ∧ _))

/-- The rest of `SwapAndGet`. -/
def swap (b : RingBuffer) : RingBuffer × List LogEntry := ({ b with front := [] }, b.front)

end RingBuffer

/-- Where the backend thread is in `Run`. -/
inductive BackendAt where
  | loop
  | empty
  | swapAndGet
  | waiting
  | processing (entries : List LogEntry)
  | flush
  | done
deriving DecidableEq

/-- Where the call of `Stop` is. -/
inductive StopAt where
  | uncalled
  | checked
  | halted
  | joining
  | draining
  | processing (entries : List LogEntry)
  | closing
  | returned
deriving DecidableEq

/-- The logger once it is started, with the logging threads that have passed the check of `Push` and
not yet its lock. `accepted` lists the entries for which `Push` answered true, as they were
inserted. -/
structure AsyncLogger where
  buffer : RingBuffer
  sinks : List Sink
  pushing : OrderedMap Nat LogEntry := OrderedMap.empty
  accepted : List LogEntry := []
  running : Bool := true
  backend : BackendAt := .loop
  stopping : StopAt := .uncalled

namespace AsyncLogger

def start (capacity : Nat) (kinds : List SinkKind) : AsyncLogger :=
  { buffer := { capacity := capacity }, sinks := kinds.map (fun kind => { kind := kind }) }

/-- A thread reads `stopped_`. A thread that is in `Push` does not call it. -/
def check (s : AsyncLogger) (thread : Nat) (entry : LogEntry) : AsyncLogger :=
  if (s.pushing.get thread).isSome ∨ s.buffer.stopped then s
  else { s with pushing := s.pushing.put thread entry }

/-- A thread that has passed the check takes the lock. -/
def insert (s : AsyncLogger) (thread : Nat) : AsyncLogger :=
  match s.pushing.get thread with
  | none => s
  | some entry =>
    { s with
      pushing := s.pushing.delete thread
      buffer := (s.buffer.insert entry).1
      accepted := if (s.buffer.insert entry).2 then s.accepted ++ [entry] else s.accepted }

/-- The backend thread gets the entries. -/
def take (s : AsyncLogger) : AsyncLogger :=
  { s with
    buffer := s.buffer.swap.1
    backend := if s.buffer.swap.2 = [] then .flush else .processing s.buffer.swap.2 }

/-- The backend thread does one thing. A wait may end at any time, by its timeout. -/
def backendTick (c : LogConfig) (s : AsyncLogger) : AsyncLogger :=
  match s.backend with
  | .loop => { s with backend := if s.running then .swapAndGet else .empty }
  | .empty => { s with backend := if s.buffer.front = [] then .done else .swapAndGet }
  | .swapAndGet =>
    if s.buffer.Waits (wrap 32 c.flushIntervalMs) then { s with backend := .waiting } else s.take
  | .waiting => s.take
  | .processing [] => { s with backend := .flush }
  | .processing (entry :: rest) =>
    { s with sinks := processEntry c .backend s.sinks entry, backend := .processing rest }
  | .flush => { s with sinks := flushSinks s.sinks, backend := .loop }
  | .done => s

/-- The call of `Stop` does one thing. -/
def stopTick (c : LogConfig) (s : AsyncLogger) : AsyncLogger :=
  match s.stopping with
  | .uncalled => { s with stopping := if s.running then .checked else .returned }
  | .checked => { s with running := false, stopping := .halted }
  | .halted => { s with buffer := { s.buffer with stopped := true }, stopping := .joining }
  | .joining => if s.backend = .done then { s with stopping := .draining } else s
  | .draining => { s with buffer := s.buffer.swap.1, stopping := .processing s.buffer.swap.2 }
  | .processing [] => { s with stopping := .closing }
  | .processing (entry :: rest) =>
    { s with sinks := processEntry c .stopper s.sinks entry, stopping := .processing rest }
  | .closing => { s with sinks := closeSinks s.sinks, stopping := .returned }
  | .returned => s

end AsyncLogger

/-- One step of one of the threads. -/
inductive Act where
  | check (thread : Nat) (entry : LogEntry)
  | insert (thread : Nat)
  | backend
  | stop
deriving DecidableEq

def step (c : LogConfig) (s : AsyncLogger) : Act → AsyncLogger
  | .check thread entry => s.check thread entry
  | .insert thread => s.insert thread
  | .backend => s.backendTick c
  | .stop => s.stopTick c

end SwiftChat.Logger
