import Mathlib.Data.List.TakeWhile
import SwiftChat.Base.Decimal
import SwiftChat.Base.Redis
import SwiftChat.Zone.SessionStore

/-! The store of user sessions and gates kept in Redis, with a connection that answers every
command. -/
namespace SwiftChat.Zone
open Base

namespace RedisSessionStore
open Redis

def kSessionExpireSeconds : Int := 3600
def kGateExpireSeconds : Int := 60
def kSessionPrefix : Bytes := str "session:"
def kGatePrefix : Bytes := str "gate:"
def kGateListKey : Bytes := str "gate:list"

/-- `r->type == REDIS_REPLY_INTEGER && r->integer == 1` -/
def isOne : Reply → Bool
  | .integer n => n = 1
  | _ => false

def isStatus : Reply → Bool
  | .status _ => true
  | .string _ => true
  | _ => false

def isInteger : Reply → Bool
  | .integer _ => true
  | _ => false

/-- The arguments of the HMSET of a session. -/
def sessionFields (session : UserSession) : List (Bytes × Bytes) :=
  [(str "user_id", cString session.userId), (str "gate_id", cString session.gateId),
    (str "gate_addr", cString session.gateAddr), (str "device_type", cString session.deviceType),
    (str "device_id", cString session.deviceId), (str "online_at", formatInt session.onlineAt),
    (str "last_active_at", formatInt session.lastActiveAt)]

def setOnline (db : Store) (session : UserSession) : Store × Bool :=
  let key := cString (kSessionPrefix ++ session.userId)
  let (db, r) := hmset db key (sessionFields session)
  if !isStatus r then (db, false)
  else
    let (db, r) := expire db key kSessionExpireSeconds
    (db, isOne r)

def setOffline (db : Store) (userId : Bytes) : Store × Bool :=
  ((del db (cString (kSessionPrefix ++ userId))).1, true)

/-- One field of a session's hash; a number that cannot be read leaves the old one. -/
def readSessionField (s : UserSession) (e : Bytes × Bytes) : UserSession :=
  if e.1 = str "gate_id" then { s with gateId := e.2 }
  else if e.1 = str "gate_addr" then { s with gateAddr := e.2 }
  else if e.1 = str "device_type" then { s with deviceType := e.2 }
  else if e.1 = str "device_id" then { s with deviceId := e.2 }
  else if e.1 = str "online_at" then { s with onlineAt := (stoll e.2).getD s.onlineAt }
  else if e.1 = str "last_active_at" then { s with lastActiveAt := (stoll e.2).getD s.lastActiveAt }
  else s

/-- The loop over the elements of a reply, two at a time. -/
def readPairs {σ : Type} (visit : σ → Bytes × Bytes → σ) : σ → List Reply → σ
  | s, .string field :: .string val :: rest => readPairs visit (visit s (field, val)) rest
  | s, _ :: _ :: rest => readPairs visit s rest
  | s, _ => s

def parseUserSessionHash (r : Reply) (userId : Bytes) : Option UserSession :=
  match r with
  | .array (e :: es) => some (readPairs readSessionField { userId := userId } (e :: es))
  | _ => none

def getSession (db : Store) (userId : Bytes) : Option UserSession :=
  parseUserSessionHash (hgetall db (cString (kSessionPrefix ++ userId))) userId

def isOnline (db : Store) (userId : Bytes) : Bool :=
  isOne (existsKey db (cString (kSessionPrefix ++ userId)))

/-- The reply to the HSET is not looked at. -/
def updateLastActive (db : Store) (userId : Bytes) (timestamp : Int) : Store × Bool :=
  let key := cString (kSessionPrefix ++ userId)
  let (db, _) := hset db key [(str "last_active_at", formatInt timestamp)]
  let (db, r) := expire db key kSessionExpireSeconds
  (db, isOne r)

/-- The arguments of the HMSET of a gate. -/
def gateFields (node : GateNode) : List (Bytes × Bytes) :=
  [(str "gate_id", cString node.gateId), (str "address", cString node.address),
    (str "current_connections", formatInt node.currentConnections),
    (str "registered_at", formatInt node.registeredAt),
    (str "last_heartbeat", formatInt node.lastHeartbeat)]

def registerGate (db : Store) (node : GateNode) : Store × Bool :=
  let key := cString (kGatePrefix ++ node.gateId)
  let (db, r) := hmset db key (gateFields node)
  if !isStatus r then (db, false)
  else
    let (db, r) := expire db key kGateExpireSeconds
    if !isOne r then (db, false)
    else
      let (db, r) := sadd db kGateListKey (cString node.gateId)
      (db, isInteger r)

/-- The replies are not looked at. -/
def unregisterGate (db : Store) (gateId : Bytes) : Store × Bool :=
  let (db, _) := del db (cString (kGatePrefix ++ gateId))
  let (db, _) := srem db kGateListKey (cString gateId)
  (db, true)

def updateGateHeartbeat (db : Store) (gateId : Bytes) (connections nowSeconds : Int) :
    Store × Bool :=
  let key := cString (kGatePrefix ++ gateId)
  let (db, _) := hset db key [(str "current_connections", formatInt connections),
    (str "last_heartbeat", formatInt nowSeconds)]
  let (db, r) := expire db key kGateExpireSeconds
  (db, isOne r)

def readGateField (node : GateNode) (e : Bytes × Bytes) : GateNode :=
  if e.1 = str "address" then { node with address := e.2 }
  else if e.1 = str "current_connections" then
    { node with currentConnections := (stoi e.2).getD node.currentConnections }
  else if e.1 = str "registered_at" then
    { node with registeredAt := (stoll e.2).getD node.registeredAt }
  else if e.1 = str "last_heartbeat" then
    { node with lastHeartbeat := (stoll e.2).getD node.lastHeartbeat }
  else node

def parseGateNodeHash (r : Reply) (gateId : Bytes) : Option GateNode :=
  match r with
  | .array (e :: es) => some (readPairs readGateField { gateId := gateId } (e :: es))
  | _ => none

def getGate (db : Store) (gateId : Bytes) : Option GateNode :=
  parseGateNodeHash (hgetall db (cString (kGatePrefix ++ gateId))) gateId

def getAllGates (db : Store) : List GateNode :=
  match smembers db kGateListKey with
  | .array es =>
    es.filterMap fun e =>
      match e with
      | .string gid => getGate db gid
      | _ => none
  | _ => []

end RedisSessionStore

/-- A number of a signed type with `w` value bits. -/
def InRange (w : Nat) (z : Int) : Prop := -(2 ^ w) ≤ z ∧ z < 2 ^ w

instance (w : Nat) (z : Int) : Decidable (InRange w z) := inferInstanceAs (Decidable (_ ∧ _))

/-- Texts that a C string carries whole, and numbers of the declared widths. -/
def UserSession.Fits (s : UserSession) : Prop :=
  (0 ∉ s.userId ∧ 0 ∉ s.gateId ∧ 0 ∉ s.gateAddr ∧ 0 ∉ s.deviceType ∧ 0 ∉ s.deviceId) ∧
    InRange 63 s.onlineAt ∧ InRange 63 s.lastActiveAt

instance (s : UserSession) : Decidable s.Fits := inferInstanceAs (Decidable (_ ∧ _))

def GateNode.Fits (n : GateNode) : Prop :=
  (0 ∉ n.gateId ∧ 0 ∉ n.address) ∧
    InRange 31 n.currentConnections ∧ InRange 63 n.registeredAt ∧ InRange 63 n.lastHeartbeat

instance (n : GateNode) : Decidable n.Fits := inferInstanceAs (Decidable (_ ∧ _))

namespace RedisSessionStore
open Redis

def sessionHash (s : UserSession) : OrderedMap Bytes Bytes := setFields .empty (sessionFields s)

def gateHash (n : GateNode) : OrderedMap Bytes Bytes := setFields .empty (gateFields n)

section Keys
variable {u g : Bytes}

theorem sessionKey_eq (hu : 0 ∉ u) : cString (kSessionPrefix ++ u) = kSessionPrefix ++ u := by
  apply cString_eq_self
  rw [List.mem_append, not_or]
  exact ⟨by decide, hu⟩

theorem gateKey_eq (hg : 0 ∉ g) : cString (kGatePrefix ++ g) = kGatePrefix ++ g := by
  apply cString_eq_self
  rw [List.mem_append, not_or]
  exact ⟨by decide, hg⟩

theorem gateListKey_eq : kGateListKey = kGatePrefix ++ str "list" := by decide

theorem sessionKey_ne_gateKey : kSessionPrefix ++ u ≠ kGatePrefix ++ g := by
  intro h
  have h5 : (kSessionPrefix ++ u).take 5 = (kGatePrefix ++ g).take 5 := congrArg (List.take 5) h
  rw [List.take_append_of_le_length (by decide),
    List.take_append_of_le_length (by decide)] at h5
  exact absurd h5 (by decide)

theorem sessionKey_ne_list : kSessionPrefix ++ u ≠ kGateListKey := by
  rw [gateListKey_eq]
  exact sessionKey_ne_gateKey

theorem gateKey_ne_list (hg : g ≠ str "list") : kGatePrefix ++ g ≠ kGateListKey := by
  rw [gateListKey_eq]
  intro h
  exact hg (List.append_cancel_left h)

end Keys

section Read
variable {db : Store} {h : OrderedMap Bytes Bytes} {s : UserSession} {n : GateNode}

theorem readPairs_entries {σ : Type} (visit : σ → Bytes × Bytes → σ) (x : σ)
    (es : List (Bytes × Bytes)) :
    readPairs visit x (es.flatMap fun e => [.string e.1, .string e.2]) = es.foldl visit x := by
  induction es generalizing x with
  | nil => rfl
  | cons e es ih => exact ih (visit x e)

theorem parseUserSessionHash_entries (hne : h.entries ≠ []) (u : Bytes) :
    parseUserSessionHash (.array (h.entries.flatMap fun e => [.string e.1, .string e.2])) u =
      some (h.entries.foldl readSessionField { userId := u }) := by
  rw [← readPairs_entries]
  obtain ⟨e, es, he⟩ := List.exists_cons_of_ne_nil hne
  rw [he]
  rfl

theorem parseGateNodeHash_entries (hne : h.entries ≠ []) (g : Bytes) :
    parseGateNodeHash (.array (h.entries.flatMap fun e => [.string e.1, .string e.2])) g =
      some (h.entries.foldl readGateField { gateId := g }) := by
  rw [← readPairs_entries]
  obtain ⟨e, es, he⟩ := List.exists_cons_of_ne_nil hne
  rw [he]
  rfl

theorem sessionFields_nodup (s : UserSession) : ((sessionFields s).map Prod.fst).Nodup := by
  change ((sessionFields {}).map Prod.fst).Nodup
  decide

theorem gateFields_nodup (n : GateNode) : ((gateFields n).map Prod.fst).Nodup := by
  change ((gateFields {}).map Prod.fst).Nodup
  decide

theorem get_sessionHash {k v : Bytes} (hv : (k, v) ∈ sessionFields s) :
    (sessionHash s).get k = some v :=
  get_setFields (sessionFields_nodup s) hv

theorem get_gateHash {k v : Bytes} (hv : (k, v) ∈ gateFields n) : (gateHash n).get k = some v :=
  get_setFields (gateFields_nodup n) hv

/-- Writing a session again replaces it. -/
theorem sessionHash_set (old s : UserSession) :
    setFields (sessionHash old) (sessionFields s) = sessionHash s :=
  setFields_setFields rfl

theorem gateHash_set (old n : GateNode) : setFields (gateHash old) (gateFields n) = gateHash n :=
  setFields_setFields rfl

theorem sessionHash_touch (s : UserSession) (timestamp : Int) :
    setFields (sessionHash s) [(str "last_active_at", formatInt timestamp)] =
      sessionHash { s with lastActiveAt := timestamp } := by
  have hnames : (sessionFields s).map Prod.fst =
      (sessionFields { s with lastActiveAt := timestamp }).map Prod.fst := rfl
  apply setFields_some hnames
  · exact sessionFields_nodup s
  · exact List.nodup_singleton _
  · simp [sessionFields]
  · simp [sessionFields]

theorem gateHash_beat (n : GateNode) (connections nowSeconds : Int) :
    setFields (gateHash n) [(str "current_connections", formatInt connections),
        (str "last_heartbeat", formatInt nowSeconds)] =
      gateHash { n with currentConnections := connections, lastHeartbeat := nowSeconds } := by
  have hnames : (gateFields n).map Prod.fst = (gateFields
      { n with currentConnections := connections, lastHeartbeat := nowSeconds }).map Prod.fst := rfl
  apply setFields_some hnames
  · exact gateFields_nodup n
  · exact (by decide : [str "current_connections", str "last_heartbeat"].Nodup)
  · simp [gateFields]
  · simp [gateFields]

/-- Each part of the session is decided by its own field. -/
theorem readSessionField_eq (x : UserSession) (e : Bytes × Bytes) :
    readSessionField x e =
      { userId := x.userId
        gateId := if e.1 = str "gate_id" then e.2 else x.gateId
        gateAddr := if e.1 = str "gate_addr" then e.2 else x.gateAddr
        deviceType := if e.1 = str "device_type" then e.2 else x.deviceType
        deviceId := if e.1 = str "device_id" then e.2 else x.deviceId
        onlineAt := if e.1 = str "online_at" then (stoll e.2).getD x.onlineAt else x.onlineAt
        lastActiveAt :=
          if e.1 = str "last_active_at" then (stoll e.2).getD x.lastActiveAt
          else x.lastActiveAt } := by
  have hnames : [str "last_active_at", str "online_at", str "device_id", str "device_type",
      str "gate_addr", str "gate_id"].Nodup := by decide
  simp only [List.nodup_cons, List.mem_cons, List.not_mem_nil, or_false, not_or] at hnames
  simp only [readSessionField]
  split_ifs <;> simp_all

theorem readGateField_eq (x : GateNode) (e : Bytes × Bytes) :
    readGateField x e =
      { gateId := x.gateId
        address := if e.1 = str "address" then e.2 else x.address
        currentConnections :=
          if e.1 = str "current_connections" then (stoi e.2).getD x.currentConnections
          else x.currentConnections
        registeredAt :=
          if e.1 = str "registered_at" then (stoll e.2).getD x.registeredAt else x.registeredAt
        lastHeartbeat :=
          if e.1 = str "last_heartbeat" then (stoll e.2).getD x.lastHeartbeat
          else x.lastHeartbeat } := by
  have hnames : [str "last_heartbeat", str "registered_at", str "current_connections",
      str "address"].Nodup := by decide
  simp only [List.nodup_cons, List.mem_cons, List.not_mem_nil, or_false, not_or] at hnames
  simp only [readGateField]
  split_ifs <;> simp_all

/-- The loop over a stored session gives the session back. -/
theorem read_sessionHash (hs : s.Fits) :
    (sessionHash s).entries.foldl readSessionField { userId := s.userId } = s := by
  obtain ⟨⟨_, hg, ha, ht, hd⟩, ho, hl⟩ := hs
  have hread : ∀ {α : Type} (part : UserSession → α) (f : α → Bytes → α) {k v : Bytes},
      (k, v) ∈ sessionFields s →
      (∀ x e, part (readSessionField x e) = if e.1 = k then f (part x) e.2 else part x) →
      part ((sessionHash s).entries.foldl readSessionField { userId := s.userId }) =
        f (part { userId := s.userId }) v :=
    fun part f _ _ hv hpart => foldl_setFields part f (sessionFields_nodup s) hv hpart _
  have huser := hread UserSession.userId (fun p _ => p)
    (by simp [sessionFields] : (str "user_id", cString s.userId) ∈ _)
    (by simp [readSessionField_eq])
  have hgate := hread UserSession.gateId (fun _ w => w)
    (by simp [sessionFields] : (str "gate_id", cString s.gateId) ∈ _)
    (by simp [readSessionField_eq])
  have haddr := hread UserSession.gateAddr (fun _ w => w)
    (by simp [sessionFields] : (str "gate_addr", cString s.gateAddr) ∈ _)
    (by simp [readSessionField_eq])
  have htype := hread UserSession.deviceType (fun _ w => w)
    (by simp [sessionFields] : (str "device_type", cString s.deviceType) ∈ _)
    (by simp [readSessionField_eq])
  have hdev := hread UserSession.deviceId (fun _ w => w)
    (by simp [sessionFields] : (str "device_id", cString s.deviceId) ∈ _)
    (by simp [readSessionField_eq])
  have hon := hread UserSession.onlineAt (fun o w => (stoll w).getD o)
    (by simp [sessionFields] : (str "online_at", formatInt s.onlineAt) ∈ _)
    (by simp [readSessionField_eq])
  have hlast := hread UserSession.lastActiveAt (fun o w => (stoll w).getD o)
    (by simp [sessionFields] : (str "last_active_at", formatInt s.lastActiveAt) ∈ _)
    (by simp [readSessionField_eq])
  rw [cString_eq_self hg] at hgate
  rw [cString_eq_self ha] at haddr
  rw [cString_eq_self ht] at htype
  rw [cString_eq_self hd] at hdev
  rw [stoll_formatInt ho, Option.getD_some] at hon
  rw [stoll_formatInt hl, Option.getD_some] at hlast
  generalize (sessionHash s).entries.foldl readSessionField { userId := s.userId } = t at *
  cases t
  cases s
  simp_all

/-- The loop over a stored gate gives the gate back. -/
theorem read_gateHash (hn : n.Fits) :
    (gateHash n).entries.foldl readGateField { gateId := n.gateId } = n := by
  obtain ⟨⟨_, ha⟩, hc, hr, hh⟩ := hn
  have hread : ∀ {α : Type} (part : GateNode → α) (f : α → Bytes → α) {k v : Bytes},
      (k, v) ∈ gateFields n →
      (∀ x e, part (readGateField x e) = if e.1 = k then f (part x) e.2 else part x) →
      part ((gateHash n).entries.foldl readGateField { gateId := n.gateId }) =
        f (part { gateId := n.gateId }) v :=
    fun part f _ _ hv hpart => foldl_setFields part f (gateFields_nodup n) hv hpart _
  have hgate := hread GateNode.gateId (fun p _ => p)
    (by simp [gateFields] : (str "gate_id", cString n.gateId) ∈ _)
    (by simp [readGateField_eq])
  have haddr := hread GateNode.address (fun _ w => w)
    (by simp [gateFields] : (str "address", cString n.address) ∈ _)
    (by simp [readGateField_eq])
  have hcon := hread GateNode.currentConnections (fun o w => (stoi w).getD o)
    (by simp [gateFields] : (str "current_connections", formatInt n.currentConnections) ∈ _)
    (by simp [readGateField_eq])
  have hreg := hread GateNode.registeredAt (fun o w => (stoll w).getD o)
    (by simp [gateFields] : (str "registered_at", formatInt n.registeredAt) ∈ _)
    (by simp [readGateField_eq])
  have hbeat := hread GateNode.lastHeartbeat (fun o w => (stoll w).getD o)
    (by simp [gateFields] : (str "last_heartbeat", formatInt n.lastHeartbeat) ∈ _)
    (by simp [readGateField_eq])
  rw [cString_eq_self ha] at haddr
  rw [stoi_formatInt hc, Option.getD_some] at hcon
  rw [stoll_formatInt hr, Option.getD_some] at hreg
  rw [stoll_formatInt hh, Option.getD_some] at hbeat
  generalize (gateHash n).entries.foldl readGateField { gateId := n.gateId } = t at *
  cases t
  cases n
  simp_all

theorem entries_ne_nil {k v : Bytes} (hv : h.get k = some v) : h.entries ≠ [] := by
  intro hnil
  simp [OrderedMap.get, hnil] at hv

theorem getSession_hash {u : Bytes} (hu : 0 ∉ u) (hs : s.Fits) (hid : s.userId = u)
    (hk : db.get (kSessionPrefix ++ u) = some (.hash (sessionHash s))) :
    getSession db u = some s := by
  have hne := entries_ne_nil (get_sessionHash (s := s) List.mem_cons_self)
  simp only [getSession, sessionKey_eq hu, hgetall, hashAt, hk]
  rw [parseUserSessionHash_entries hne, ← hid, read_sessionHash hs]

theorem getSession_absent {u : Bytes} (hu : 0 ∉ u) (hk : db.get (kSessionPrefix ++ u) = none) :
    getSession db u = none := by
  simp only [getSession, sessionKey_eq hu, hgetall, hashAt, hk]
  rfl

theorem getGate_hash {g : Bytes} (hg : 0 ∉ g) (hn : n.Fits) (hid : n.gateId = g)
    (hk : db.get (kGatePrefix ++ g) = some (.hash (gateHash n))) : getGate db g = some n := by
  have hne := entries_ne_nil (get_gateHash (n := n) List.mem_cons_self)
  simp only [getGate, gateKey_eq hg, hgetall, hashAt, hk]
  rw [parseGateNodeHash_entries hne, ← hid, read_gateHash hn]

/-- Neither an absent key nor one that holds a set is read as a gate. -/
theorem getGate_absent {g : Bytes} (hg : 0 ∉ g)
    (hk : ∀ h, db.get (kGatePrefix ++ g) ≠ some (.hash h)) : getGate db g = none := by
  simp only [getGate, gateKey_eq hg, hgetall, hashAt]
  cases hv : db.get (kGatePrefix ++ g) with
  | none => rfl
  | some v =>
    cases v with
    | set m => rfl
    | hash h => exact absurd hv (hk h)

end Read

section Calls
variable {db : Store} {h : OrderedMap Bytes Bytes} {m : OrderedMap Bytes Unit}
  {session : UserSession} {node : GateNode} {u g : Bytes}

theorem setOnline_eq (hu : 0 ∉ session.userId)
    (hh : hashAt db (kSessionPrefix ++ session.userId) = some h) :
    setOnline db session =
      (db.put (kSessionPrefix ++ session.userId) (.hash (setFields h (sessionFields session))),
        true) := by
  simp only [setOnline, sessionKey_eq hu, hmset_eq hh]
  rw [expire_eq (by simp) (by decide)]
  rfl

theorem updateLastActive_eq (hu : 0 ∉ u) (timestamp : Int) :
    updateLastActive db u timestamp =
      ((hset db (kSessionPrefix ++ u) [(str "last_active_at", formatInt timestamp)]).1, true) := by
  simp only [updateLastActive, sessionKey_eq hu]
  rw [expire_eq hset_isSome (by decide)]
  rfl

theorem registerGate_eq (hn : 0 ∉ node.gateId) (hlist : node.gateId ≠ str "list")
    (hh : hashAt db (kGatePrefix ++ node.gateId) = some h) (hm : setAt db kGateListKey = some m) :
    registerGate db node =
      ((db.put (kGatePrefix ++ node.gateId) (.hash (setFields h (gateFields node)))).put
        kGateListKey (.set (m.put node.gateId ())), true) := by
  have hm' : setAt (db.put (kGatePrefix ++ node.gateId)
      (.hash (setFields h (gateFields node)))) kGateListKey = some m := by
    rw [setAt_congr (OrderedMap.get_put_ne (gateKey_ne_list hlist).symm), hm]
  simp only [registerGate, gateKey_eq hn, hmset_eq hh, cString_eq_self hn]
  rw [expire_eq (by simp) (by decide), sadd_eq hm']
  rfl

/-- The key of the gate named "list" is that of the list of gates. -/
theorem registerGate_list (hlist : node.gateId = str "list") (hm : setAt db kGateListKey = some m) :
    (registerGate db node).2 = false := by
  have hn : (0 : UInt8) ∉ node.gateId := by
    rw [hlist]
    decide
  have hkey : cString (kGatePrefix ++ node.gateId) = kGateListKey := by
    rw [gateKey_eq hn, hlist, gateListKey_eq]
  simp only [registerGate, hkey, hmset, hashAt]
  simp only [setAt] at hm
  cases hk : db.get kGateListKey with
  | none =>
    dsimp only
    rw [expire_eq (by simp) (by decide)]
    simp [isStatus, isOne, sadd, setAt, wrongType, isInteger]
  | some v =>
    cases v with
    | set m => rfl
    | hash h =>
      rw [hk] at hm
      cases hm

theorem unregisterGate_eq (hg : 0 ∉ g) :
    unregisterGate db g = ((srem (db.delete (kGatePrefix ++ g)) kGateListKey g).1, true) := by
  simp only [unregisterGate, gateKey_eq hg, cString_eq_self hg, del]

theorem updateGateHeartbeat_eq (hg : 0 ∉ g) (connections nowSeconds : Int) :
    updateGateHeartbeat db g connections nowSeconds =
      ((hset db (kGatePrefix ++ g) [(str "current_connections", formatInt connections),
        (str "last_heartbeat", formatInt nowSeconds)]).1, true) := by
  simp only [updateGateHeartbeat, gateKey_eq hg]
  rw [expire_eq hset_isSome (by decide)]
  rfl

theorem isOnline_eq (hu : 0 ∉ u) : isOnline db u = (db.get (kSessionPrefix ++ u)).isSome := by
  simp only [isOnline, existsKey, sessionKey_eq hu]
  cases (db.get (kSessionPrefix ++ u)).isSome <;> rfl

theorem mem_getAllGates (hm : setAt db kGateListKey = some m) :
    node ∈ getAllGates db ↔ ∃ g, m.get g = some () ∧ getGate db g = some node := by
  simp only [getAllGates, smembers, hm, List.mem_filterMap, List.mem_map]
  constructor
  · rintro ⟨_, ⟨⟨g, _⟩, hg, rfl⟩, hnode⟩
    exact ⟨g, OrderedMap.mem_entries.mp hg, hnode⟩
  · rintro ⟨g, hg, hnode⟩
    exact ⟨.string g, ⟨(g, ()), OrderedMap.mem_entries.mpr hg, rfl⟩, hnode⟩

end Calls

end RedisSessionStore
end SwiftChat.Zone
