import SwiftChat.Gate.MessageTurns
import SwiftChat.Path.Served
import SwiftChat.Zone.Presence

/-! The whole system: any number of gates with their connections, the zone and its services, and the
calls, reports and pushes between them, which may be late, overtake each other or get lost. The zone
and its services execute requests one after the other: no other request takes a step in a database
while one is served. -/
namespace SwiftChat.Path
open Base Gate Zone

/-- A call of the zone that a gate waits for, with what has come back. -/
structure Call where
  addr : Bytes
  request : ClientRequest
  answer : Option (Except Bytes HandleClientRequestResult) := none

/-- A request whose gate has given up, and which the zone may still serve. -/
structure Abandoned where
  addr : Bytes
  request : ClientRequest

/-- A user who is bound at a gate and whom the gate is about to announce; the response waits for
that. -/
structure Arriving where
  addr : Bytes
  connId : Bytes
  arrival : Arrival
  response : ServerMessage

/-- A push that a gate is about to write on the connection it has found. -/
structure Sending where
  connId : Bytes
  push : Push

/-- A message of a client, as far as its response has to match it. -/
structure Received where
  addr : Bytes
  connId : Bytes
  cmd : Bytes
  requestId : Bytes
deriving DecidableEq

/-- A response, and the connection it is for. -/
structure Response where
  addr : Bytes
  connId : Bytes
  message : ServerMessage

structure Fabric where
  gates : Bytes → GateService := fun _ => {}
  zone : Deployment := {}
  calls : List Call := []
  abandoned : List Abandoned := []
  arriving : List Arriving := []
  departed : List (Bytes × Bytes) := []
  sending : List Sending := []
  opened : List (Bytes × Bytes) := []
  received : List Received := []
  responses : List Response := []
  undelivered : List Response := []
  pushed : List Sending := []
  history : List Served := []

inductive FabricEvent where
  /-- a connection is accepted, under an id that was not used before -/
  | connect (addr connId : Bytes) (now : Int)
  | receive (addr connId cmd payload requestId : Bytes) (now : Int)
  /-- the zone serves a call, before it begins with another -/
  | serve (i : Nat) (draws : Draws)
  /-- a call fails for its gate, whether the zone has served it or not -/
  | lose (i : Nat) (status : Bytes)
  /-- the zone serves a call that its gate has given up -/
  | serveLate (i : Nat) (draws : Draws)
  /-- the gate goes on with what has come back -/
  | finish (i : Nat)
  /-- the zone is told of an arrival, if that call gets through -/
  | announce (i : Nat) (arrives : Bool) (now : Int)
  | disconnect (addr connId : Bytes)
  /-- the zone is told of a departure, if that call gets through -/
  | report (i : Nat) (arrives : Bool)
  | registerGate (node : GateNode)
  /-- a push comes to its gate, if it does, and its connection is looked up -/
  | route (i : Nat) (arrives : Bool)
  | write (i : Nat)

namespace Fabric

def setGate (t : Fabric) (addr : Bytes) (g : GateService) : Fabric :=
  { t with gates := Function.update t.gates addr g }

def isOpen (t : Fabric) (addr connId : Bytes) : Bool :=
  ((t.gates addr).getConnection connId).isSome

/-- A response to a connection that is gone is dropped. -/
def deliver (t : Fabric) (r : Response) : Fabric :=
  if t.isOpen r.addr r.connId then { t with responses := t.responses ++ [r] }
  else { t with undelivered := t.undelivered ++ [r] }

def connect (t : Fabric) (addr connId : Bytes) (now : Int) : Fabric :=
  if (addr, connId) ∈ t.opened then t
  else
    { t.setGate addr ((t.gates addr).addConnection connId now) with
      opened := t.opened ++ [(addr, connId)] }

def receive (cfg : Setup) (t : Fabric) (addr connId cmd payload requestId : Bytes) (now : Int) :
    Fabric :=
  if t.isOpen addr connId then
    let t : Fabric := { t with received := t.received ++ [⟨addr, connId, cmd, requestId⟩] }
    match (t.gates addr).beginMessage cfg.codecs.auth connId cmd payload requestId now with
    | .answered g m => (t.setGate addr g).deliver ⟨addr, connId, m⟩
    | .asks req => { t with calls := t.calls ++ [{ addr := addr, request := req }] }
  else t

/-- The zone serves a request as a whole, for the gate at an address. The services do not lock their
databases, so this leaves out that the steps of two requests in a database alternate. -/
def served (cfg : Setup) (t : Fabric) (addr : Bytes) (r : ClientRequest) (draws : Draws) : Fabric :=
  { t with
    zone := (cfg.serve draws t.zone r).1
    history := t.history ++ [⟨addr, draws, r, (cfg.serve draws t.zone r).2⟩] }

def serve (cfg : Setup) (t : Fabric) (i : Nat) (draws : Draws) : Fabric :=
  match t.calls[i]? with
  | some { addr := addr, request := r, answer := none } =>
    { t.served cfg addr r draws with
      calls := t.calls.set i
        { addr := addr, request := r, answer := some (.ok (cfg.serve draws t.zone r).2) } }
  | _ => t

def lose (t : Fabric) (i : Nat) (status : Bytes) : Fabric :=
  match t.calls[i]? with
  | none => t
  | some call =>
    { t with
      calls := t.calls.set i { call with answer := some (.error status) }
      abandoned :=
        if call.answer.isNone then t.abandoned ++ [⟨call.addr, call.request⟩] else t.abandoned }

def serveLate (cfg : Setup) (t : Fabric) (i : Nat) (draws : Draws) : Fabric :=
  match t.abandoned[i]? with
  | none => t
  | some { addr := addr, request := r } =>
    { t.served cfg addr r draws with abandoned := t.abandoned.eraseIdx i }

def finish (cfg : Setup) (t : Fabric) (i : Nat) : Fabric :=
  match t.calls[i]? with
  | some { addr := addr, request := r, answer := some answer } =>
    let f := (t.gates addr).finishMessage cfg.codecs.auth r answer
    let t : Fabric := { t.setGate addr f.gate with calls := t.calls.eraseIdx i }
    match f.arrival with
    | none => t.deliver ⟨addr, r.connId, f.sent⟩
    | some arrival => { t with arriving := t.arriving ++ [⟨addr, r.connId, arrival, f.sent⟩] }
  | _ => t

def announce (gateIds : Bytes → Bytes) (t : Fabric) (i : Nat) (arrives : Bool) (now : Int) : Fabric :=
  match t.arriving[i]? with
  | none => t
  | some a =>
    let presence :=
      if arrives then
        (userOnline t.zone.presence a.arrival.userId (gateIds a.addr) a.arrival.deviceType
          a.arrival.deviceId now).1
      else t.zone.presence
    { t with zone := { t.zone with presence := presence }, arriving := t.arriving.eraseIdx i }.deliver
      ⟨a.addr, a.connId, a.response⟩

def disconnect (t : Fabric) (addr connId : Bytes) : Fabric :=
  let (g, user) := (t.gates addr).removeConnection connId
  { t.setGate addr g with
    departed := if user = [] then t.departed else t.departed ++ [(addr, user)] }

def report (gateIds : Bytes → Bytes) (t : Fabric) (i : Nat) (arrives : Bool) : Fabric :=
  match t.departed[i]? with
  | none => t
  | some (addr, user) =>
    let presence :=
      if arrives then (userOffline t.zone.presence user (gateIds addr)).1 else t.zone.presence
    { t with zone := { t.zone with presence := presence }, departed := t.departed.eraseIdx i }

def registerGate (t : Fabric) (node : GateNode) : Fabric :=
  { t with zone := { t.zone with presence := (t.zone.presence.registerGate node).1 } }

def route (t : Fabric) (i : Nat) (arrives : Bool) : Fabric :=
  match t.zone.pushes[i]? with
  | none => t
  | some push =>
    let connId := (t.gates push.gateAddr).getConnIdByUser push.userId
    { t with
      zone := { t.zone with pushes := t.zone.pushes.eraseIdx i }
      sending :=
        if arrives ∧ connId ≠ [] then t.sending ++ [⟨connId, push⟩] else t.sending }

def write (t : Fabric) (i : Nat) : Fabric :=
  match t.sending[i]? with
  | none => t
  | some s =>
    { t with
      sending := t.sending.eraseIdx i
      pushed := if t.isOpen s.push.gateAddr s.connId then t.pushed ++ [s] else t.pushed }

end Fabric

/-- `gateIds` gives the id of the gate at an address. -/
def fabricStep (cfg : Setup) (gateIds : Bytes → Bytes) (t : Fabric) : FabricEvent → Fabric
  | .connect addr connId now => t.connect addr connId now
  | .receive addr connId cmd payload requestId now =>
    t.receive cfg addr connId cmd payload requestId now
  | .serve i draws => t.serve cfg i draws
  | .lose i status => t.lose i status
  | .serveLate i draws => t.serveLate cfg i draws
  | .finish i => t.finish cfg i
  | .announce i arrives now => t.announce gateIds i arrives now
  | .disconnect addr connId => t.disconnect addr connId
  | .report i arrives => t.report gateIds i arrives
  | .registerGate node => t.registerGate node
  | .route i arrives => t.route i arrives
  | .write i => t.write i

def fabricAfter (cfg : Setup) (gateIds : Bytes → Bytes) (evs : List FabricEvent) : Fabric :=
  run (fabricStep cfg gateIds) {} evs

end SwiftChat.Path
