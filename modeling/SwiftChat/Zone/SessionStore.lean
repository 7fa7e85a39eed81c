import SwiftChat.Base.OrderedMap

/-! The in-memory store of user sessions and gates. -/
namespace SwiftChat.Zone
open Base

structure UserSession where
  userId : Bytes := []
  gateId : Bytes := []
  gateAddr : Bytes := []
  deviceType : Bytes := []
  deviceId : Bytes := []
  onlineAt : Int := 0
  lastActiveAt : Int := 0
deriving DecidableEq

structure GateNode where
  gateId : Bytes := []
  address : Bytes := []
  currentConnections : Int := 0
  registeredAt : Int := 0
  lastHeartbeat : Int := 0
deriving DecidableEq

structure SessionStore where
  sessions : OrderedMap Bytes UserSession := OrderedMap.empty
  gates : OrderedMap Bytes GateNode := OrderedMap.empty

namespace SessionStore

def setOnline (s : SessionStore) (session : UserSession) : SessionStore × Bool :=
  ({ s with sessions := s.sessions.put session.userId session }, true)

def setOffline (s : SessionStore) (userId : Bytes) : SessionStore × Bool :=
  ({ s with sessions := s.sessions.delete userId }, true)

def getSession (s : SessionStore) (userId : Bytes) : Option UserSession := s.sessions.get userId

def getSessions (s : SessionStore) (userIds : List Bytes) : List UserSession :=
  userIds.filterMap s.sessions.get

def isOnline (s : SessionStore) (userId : Bytes) : Bool := (s.sessions.get userId).isSome

def updateLastActive (s : SessionStore) (userId : Bytes) (timestamp : Int) :
    SessionStore × Bool :=
  match s.sessions.get userId with
  | none => (s, false)
  | some u =>
    ({ s with sessions := s.sessions.put userId { u with lastActiveAt := timestamp } }, true)

def registerGate (s : SessionStore) (node : GateNode) : SessionStore × Bool :=
  ({ s with gates := s.gates.put node.gateId node }, true)

def unregisterGate (s : SessionStore) (gateId : Bytes) : SessionStore × Bool :=
  ({ s with gates := s.gates.delete gateId }, true)

def updateGateHeartbeat (s : SessionStore) (gateId : Bytes) (connections nowSeconds : Int) :
    SessionStore × Bool :=
  match s.gates.get gateId with
  | none => (s, false)
  | some node =>
    ({ s with
      gates := s.gates.put gateId
        { node with currentConnections := connections, lastHeartbeat := nowSeconds } }, true)

def getGate (s : SessionStore) (gateId : Bytes) : Option GateNode := s.gates.get gateId

/-- The order of the result is that of a hash table, and nothing depends on it. -/
def getAllGates (s : SessionStore) : List GateNode := s.gates.entries.map Prod.snd

theorem mem_getAllGates {s : SessionStore} {node : GateNode} :
    node ∈ s.getAllGates ↔ ∃ g, s.gates.get g = some node := by
  simp only [getAllGates, List.mem_map]
  constructor
  · rintro ⟨⟨g, _⟩, hg, rfl⟩
    exact ⟨g, OrderedMap.mem_entries.mp hg⟩
  · rintro ⟨g, hg⟩
    exact ⟨(g, node), OrderedMap.mem_entries.mpr hg, rfl⟩

end SessionStore
end SwiftChat.Zone
