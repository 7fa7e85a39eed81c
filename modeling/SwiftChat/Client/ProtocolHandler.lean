import SwiftChat.Base.Decimal
import SwiftChat.Base.OrderedMap
import SwiftChat.Base.Run

/-! The client's protocol handler: requests, their callbacks, and what completes them. -/
namespace SwiftChat.Client
open Base

/-- The two forms of a callback; the second also gets the message text. -/
inductive Callback where
  | plain
  | withMessage
deriving DecidableEq

structure ServerMessage where
  cmd : Bytes := []
  requestId : Bytes := []
  code : Int := 0
  payload : Bytes := []
  message : Bytes := []
deriving DecidableEq

structure ClientMessage where
  cmd : Bytes
  payload : Bytes
  requestId : Bytes
deriving DecidableEq

/-- A call of the callback of a request, with what it got. -/
structure Invocation where
  requestId : Bytes
  code : Int
  payload : Bytes
  message : Option Bytes
deriving DecidableEq

/-- The notifications of the server. -/
inductive Signal where
  | newMessageNotify (payload : Bytes)
  | recallNotify (payload : Bytes)
  | readReceiptNotify (payload : Bytes)
  | friendRequestNotify (payload : Bytes)
  | friendAcceptedNotify (payload : Bytes)
  | userStatusChangeNotify (payload : Bytes)
  | kickedNotify (reason : Bytes)
deriving DecidableEq

/-- A call of the handler that waits for a callback or a slot to return. Only the loop of
`clearPendingRequests` has more to do then. -/
inductive Frame where
  | running
  | clearing (rest : List (Bytes × Callback))
deriving DecidableEq

/-- The handler, the calls it is in, and what it has passed on, oldest first. -/
structure ProtocolHandler where
  pending : OrderedMap Bytes Callback := OrderedMap.empty
  counter : Nat := 0
  stack : List Frame := []
  invoked : List Invocation := []
  sent : List ClientMessage := []
  signals : List Signal := []

def networkErrorCode : Int := -1
def requestTimeoutCode : Int := -2

def requestIdOf (n : Nat) : Bytes := str "req_" ++ formatInt n

namespace ProtocolHandler

/-- Calls a callback; `frame` waits for it. -/
def invoke (h : ProtocolHandler) (frame : Frame) (requestId : Bytes) (callback : Callback)
    (code : Int) (payload message : Bytes) : ProtocolHandler :=
  { h with
    stack := frame :: h.stack
    invoked := h.invoked ++ [⟨requestId, code, payload,
      if callback = .withMessage then some message else none⟩] }

def emitSignal (h : ProtocolHandler) (signal : Signal) : ProtocolHandler :=
  { h with stack := .running :: h.stack, signals := h.signals ++ [signal] }

def dataToSend (h : ProtocolHandler) (msg : ClientMessage) : ProtocolHandler :=
  { h with stack := .running :: h.stack, sent := h.sent ++ [msg] }

/-- `sendRequestImpl`. Whether the message can be serialized is not up to the handler. -/
def sendRequest (h : ProtocolHandler) (cmd payload : Bytes) (callback : Option Callback)
    (serializes : Bool) : ProtocolHandler :=
  let requestId := requestIdOf (h.counter + 1)
  let h := { h with counter := h.counter + 1 }
  if ¬ serializes then
    match callback with
    | none => h
    | some callback => h.invoke .running requestId callback networkErrorCode [] []
  else
    let h := match callback with
      | none => h
      | some callback => { h with pending := h.pending.put requestId callback }
    h.dataToSend ⟨cmd, payload, requestId⟩

/-- The signal of a push, if its command has one. -/
def signalOf (kicked : Bytes → Option Bytes) (msg : ServerMessage) : Option Signal :=
  if msg.cmd = str "chat.new_message" ∨ msg.cmd = str "chat.message" then
    some (.newMessageNotify msg.payload)
  else if msg.cmd = str "chat.recall" then some (.recallNotify msg.payload)
  else if msg.cmd = str "chat.read_receipt" then some (.readReceiptNotify msg.payload)
  else if msg.cmd = str "friend.request" then some (.friendRequestNotify msg.payload)
  else if msg.cmd = str "friend.accepted" then some (.friendAcceptedNotify msg.payload)
  else if msg.cmd = str "user.status_change" then some (.userStatusChangeNotify msg.payload)
  else if msg.cmd = str "system.kicked" then
    some (.kickedNotify (if msg.payload = [] then [] else (kicked msg.payload).getD []))
  else none

/-- The request with this id is taken out of the pending ones, and its callback called. -/
def complete (h : ProtocolHandler) (requestId : Bytes) (callback : Callback) (code : Int)
    (payload message : Bytes) : ProtocolHandler :=
  ({ h with pending := h.pending.delete requestId }).invoke .running requestId callback code payload
    message

/-- `none` is data that does not parse; `kicked` parses a `KickedNotify`. -/
def handleMessage (kicked : Bytes → Option Bytes) (h : ProtocolHandler) :
    Option ServerMessage → ProtocolHandler
  | none => h
  | some msg =>
    match (if msg.requestId = [] then none else h.pending.get msg.requestId) with
    | some callback => h.complete msg.requestId callback msg.code msg.payload msg.message
    | none =>
      match signalOf kicked msg with
      | none => h
      | some signal => h.emitSignal signal

/-- The timer of a request fires. -/
def timeout (h : ProtocolHandler) (requestId : Bytes) : ProtocolHandler :=
  match h.pending.get requestId with
  | none => h
  | some callback => h.complete requestId callback requestTimeoutCode [] []

/-- The loop of `clearPendingRequests`, up to the next callback. -/
def clearNext (h : ProtocolHandler) : List (Bytes × Callback) → ProtocolHandler
  | [] => h
  | (requestId, callback) :: rest =>
    h.invoke (.clearing rest) requestId callback networkErrorCode [] []

def clearPendingRequests (h : ProtocolHandler) : ProtocolHandler :=
  ({ h with pending := OrderedMap.empty }).clearNext h.pending.entries

/-- The callback or slot that was called last returns. -/
def callReturns (h : ProtocolHandler) : ProtocolHandler :=
  match h.stack with
  | [] => h
  | .running :: stack => { h with stack := stack }
  | .clearing rest :: stack => ({ h with stack := stack }).clearNext rest

end ProtocolHandler

/-- What can happen to the handler, at rest or while a callback or slot runs. -/
inductive Act where
  | sendRequest (cmd payload : Bytes) (callback : Option Callback) (serializes : Bool)
  | handleMessage (msg : Option ServerMessage)
  | timeout (requestId : Bytes)
  | clearPendingRequests
  | callReturns
deriving DecidableEq

def step (kicked : Bytes → Option Bytes) (h : ProtocolHandler) : Act → ProtocolHandler
  | .sendRequest cmd payload callback serializes => h.sendRequest cmd payload callback serializes
  | .handleMessage msg => h.handleMessage kicked msg
  | .timeout requestId => h.timeout requestId
  | .clearPendingRequests => h.clearPendingRequests
  | .callReturns => h.callReturns

end SwiftChat.Client
