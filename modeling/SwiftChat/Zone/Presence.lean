import SwiftChat.Base.Run
import SwiftChat.Zone.SessionStore

/-! Which gate a user is reached through, against the stream of online and offline calls. -/
namespace SwiftChat.Zone
open Base

def userOnline (s : SessionStore) (userId gateId deviceType deviceId : Bytes) (now : Int) :
    SessionStore × Bool :=
  match s.getGate gateId with
  | none => (s, false)
  | some gate =>
    s.setOnline {
      userId := userId
      gateId := gateId
      gateAddr := gate.address
      deviceType := deviceType
      deviceId := deviceId
      onlineAt := now
      lastActiveAt := now }

/-- The gate is only logged. -/
def userOffline (s : SessionStore) (userId _gateId : Bytes) : SessionStore × Bool :=
  s.setOffline userId

/-- A call a gate makes; the calls of all gates arrive in one order. -/
inductive PresenceCall where
  | online (userId gateId deviceType deviceId : Bytes) (now : Int)
  | offline (userId gateId : Bytes)

/-- The store with the calls it has processed, the latest first. -/
structure Presence where
  store : SessionStore
  history : List PresenceCall := []

def presenceStep (t : Presence) (call : PresenceCall) : Presence :=
  { store := match call with
      | .online userId gateId deviceType deviceId now =>
        (userOnline t.store userId gateId deviceType deviceId now).1
      | .offline userId gateId => (userOffline t.store userId gateId).1
    history := call :: t.history }

/-- The session a call to come online asks for. -/
def sessionFor (gates : OrderedMap Bytes GateNode) (userId gateId deviceType deviceId : Bytes)
    (now : Int) : UserSession := {
  userId := userId
  gateId := gateId
  gateAddr := ((gates.get gateId).map GateNode.address).getD []
  deviceType := deviceType
  deviceId := deviceId
  onlineAt := now
  lastActiveAt := now }

/-- The session of `u` by the history: the one of the last online call, unless the same gate
reported `u` offline after it. -/
def currentSession (gates : OrderedMap Bytes GateNode) (u : Bytes) :
    List PresenceCall → Option UserSession
  | [] => none
  | .online userId gateId deviceType deviceId now :: past =>
    if userId = u then some (sessionFor gates userId gateId deviceType deviceId now)
    else currentSession gates u past
  | .offline userId gateId :: past =>
    if userId = u ∧ (currentSession gates u past).any (fun s => s.gateId = gateId) then none
    else currentSession gates u past

/-- Every user's session is the current one. -/
def SessionsCurrent (t : Presence) : Prop :=
  ∀ u, t.store.getSession u = currentSession t.store.gates u t.history

/-- Only registered gates call. -/
def FromRegistered (t : Presence) : PresenceCall → Prop
  | .online _ gateId _ _ _ => (t.store.getGate gateId).isSome
  | .offline _ gateId => (t.store.getGate gateId).isSome

/-- An offline call finds no session of its user, or one on the gate that calls. -/
def OwnGate (t : Presence) : PresenceCall → Prop
  | .online .. => True
  | .offline userId gateId => ∀ s, t.store.getSession userId = some s → s.gateId = gateId

variable {t : Presence} {u w g dt di : Bytes} {now : Int}

theorem userOnline_registered (h : (t.store.getGate g).isSome) :
    (userOnline t.store u g dt di now).1 =
      { t.store with
        sessions := t.store.sessions.put u (sessionFor t.store.gates u g dt di now) } := by
  obtain ⟨gate, hg⟩ := Option.isSome_iff_exists.mp h
  have hg' : t.store.gates.get g = some gate := hg
  simp [userOnline, hg, SessionStore.setOnline, sessionFor, hg']

theorem online_current (hreg : (t.store.getGate g).isSome) (h : SessionsCurrent t) :
    SessionsCurrent (presenceStep t (.online u g dt di now)) := by
  intro w
  simp only [presenceStep, userOnline_registered hreg, currentSession, SessionStore.getSession]
  by_cases hw : u = w
  · rw [if_pos hw, ← hw, OrderedMap.get_put_self]
  · rw [if_neg hw, OrderedMap.get_put_ne (Ne.symm hw)]
    exact h w

theorem offline_current_iff (h : SessionsCurrent t) :
    SessionsCurrent (presenceStep t (.offline u g)) ↔ OwnGate t (.offline u g) := by
  have hown := h u
  constructor
  · intro hnext s hs
    have hnow : none = _ := (OrderedMap.get_delete_self (m := t.store.sessions)).symm.trans (hnext u)
    by_contra hgate
    rw [hs] at hown
    simp [presenceStep, userOffline, SessionStore.setOffline, currentSession, ← hown, hgate] at hnow
  · intro hgate w
    simp only [presenceStep, userOffline, SessionStore.setOffline, currentSession,
      SessionStore.getSession]
    by_cases hw : u = w
    · subst hw
      rw [OrderedMap.get_delete_self]
      cases hs : t.store.getSession u with
      | none => simp [← hown, hs]
      | some s => simp [← hown, hs, hgate s hs]
    · rw [if_neg (fun h => hw h.1), OrderedMap.get_delete_ne (Ne.symm hw)]
      exact h w

/-- For every interleaving of the calls of registered gates, sessions are the current ones in every
state exactly when no gate reports a user offline who is in session on another gate. -/
theorem sessions_current_iff (gates : OrderedMap Bytes GateNode) (calls : List PresenceCall)
    (hreg : AllSteps presenceStep FromRegistered { store := { gates := gates } } calls) :
    Always presenceStep SessionsCurrent { store := { gates := gates } } calls ↔
      AllSteps presenceStep OwnGate { store := { gates := gates } } calls := by
  refine always_iff_allSteps (I := fun _ => True) (fun _ _ _ _ => trivial) ?_ trivial
    (fun _ => rfl) hreg
  intro t call _ hok h
  cases call with
  | online u g dt di now => exact iff_of_true (online_current hok h) trivial
  | offline u g => exact offline_current_iff h

/-- Two registered gates. -/
def twoGates : OrderedMap Bytes GateNode :=
  (OrderedMap.empty.put (str "g1") { gateId := str "g1", address := str "a1" }).put (str "g2")
    { gateId := str "g2", address := str "a2" }

/-- A user moves from the first gate, which reports the departure, to the second. -/
def moveGate : List PresenceCall :=
  [.online (str "u") (str "g1") [] [] 1, .offline (str "u") (str "g1"),
    .online (str "u") (str "g2") [] [] 2]

theorem sessions_current_move :
    Always presenceStep SessionsCurrent { store := { gates := twoGates } } moveGate := by
  have hfirst : (twoGates.get (str "g1")).isSome := by decide
  have hsecond : (twoGates.get (str "g2")).isSome := by decide
  refine (sessions_current_iff twoGates moveGate ⟨hfirst, hfirst, hsecond, trivial⟩).mpr
    ⟨trivial, ?_, trivial, trivial⟩
  intro s hs
  obtain rfl := Option.some.inj hs
  rfl

/-- A user moves to the second gate, and the first reports the departure late. -/
def reportLate : List PresenceCall :=
  [.online (str "u") (str "g1") [] [] 1, .online (str "u") (str "g2") [] [] 2,
    .offline (str "u") (str "g1")]

/-- The late report ends the session on the second gate. -/
theorem session_lost_after_move :
    AllSteps presenceStep FromRegistered { store := { gates := twoGates } } reportLate ∧
    ¬ Always presenceStep SessionsCurrent { store := { gates := twoGates } } reportLate := by
  have hfirst : (twoGates.get (str "g1")).isSome := by decide
  have hsecond : (twoGates.get (str "g2")).isSome := by decide
  refine ⟨⟨hfirst, hsecond, hfirst, trivial⟩, ?_⟩
  intro h
  exact absurd (h.last (str "u")) (by decide)

end SwiftChat.Zone
