import SwiftChat.Base.OrderedMap

/-! The connection table of a gate and the index from users to connections. -/
namespace SwiftChat.Gate
open Base

structure Connection where
  connId : Bytes := []
  userId : Bytes := []
  token : Bytes := []
  deviceId : Bytes := []
  deviceType : Bytes := []
  connectedAt : Int := 0
  lastHeartbeat : Int := 0
  authenticated : Bool := false
deriving DecidableEq

/-- The record `BindUser` writes for a connection. -/
def Connection.bound (c : Connection) (userId token deviceId deviceType : Bytes) : Connection :=
  { c with
    userId := userId
    token := token
    deviceId := deviceId
    deviceType := deviceType
    authenticated := true }

/-- The record `UnbindUser` leaves of a connection; the token stays. -/
def Connection.unbound (c : Connection) : Connection :=
  { c with userId := [], deviceId := [], deviceType := [], authenticated := false }

structure GateService where
  connections : OrderedMap Bytes Connection := OrderedMap.empty
  userToConn : OrderedMap Bytes Bytes := OrderedMap.empty

namespace GateService

def addConnection (g : GateService) (connId : Bytes) (now : Int) : GateService :=
  { g with
    connections := g.connections.put connId
      { connId := connId, connectedAt := now, lastHeartbeat := now } }

/-- The second component is the user whose going offline is reported to the zone. -/
def removeConnection (g : GateService) (connId : Bytes) : GateService × Bytes :=
  match g.connections.get connId with
  | none => (g, [])
  | some c =>
    ({ g with
      userToConn := if c.userId ≠ [] then g.userToConn.delete c.userId else g.userToConn
      connections := g.connections.delete connId }, c.userId)

def getConnection (g : GateService) (connId : Bytes) : Option Connection :=
  g.connections.get connId

def bindUser (g : GateService) (connId userId token deviceId deviceType : Bytes) :
    GateService × Bool :=
  match g.connections.get connId with
  | none => (g, false)
  | some c =>
    let index := if c.userId ≠ [] then g.userToConn.delete c.userId else g.userToConn
    ({ g with
      connections := g.connections.put connId (c.bound userId token deviceId deviceType)
      userToConn := index.put userId connId }, true)

/-- The connection at which the loop of `UnbindUser` stops; `order` is the order in which the hash
map is traversed. -/
def firstConnectionOf (g : GateService) (userId : Bytes) (order : List Bytes) : Option Bytes :=
  order.find? fun cid => (g.connections.get cid).any fun c => c.userId = userId

/-- Only the first connection of the user is cleared. -/
def unbindUser (g : GateService) (userId : Bytes) (order : List Bytes) : GateService :=
  { g with
    userToConn := g.userToConn.delete userId
    connections := match g.firstConnectionOf userId order with
      | none => g.connections
      | some cid =>
        match g.connections.get cid with
        | none => g.connections
        | some c => g.connections.put cid c.unbound }

def getConnIdByUser (g : GateService) (userId : Bytes) : Bytes :=
  (g.userToConn.get userId).getD []

def getConnectionByUserId (g : GateService) (userId : Bytes) : Option Connection :=
  (g.userToConn.get userId).bind g.connections.get

/-- `sendToConn` stands for the send callback of a connection. -/
def pushToUser (g : GateService) (sendToConn : Bytes → Bool) (userId : Bytes) : Bool :=
  let connId := g.getConnIdByUser userId
  if connId = [] then false else sendToConn connId

end GateService
end SwiftChat.Gate
