import SwiftChat.Path.Backend

/-! What a client that is told of a successful login can rely on. -/
namespace SwiftChat.Path
open Base

/-- How the gate's call of `UserOnline` fares: whether it arrives at the zone, whether the store
there answers the look-up of the gate, and whether it takes the write. -/
structure Announcement where
  arrives : Bool
  reads : Bool
  writes : Bool
  now : Int

/-- The store after the call. A zone without the gate, or with a store that fails, writes
nothing. -/
def Announcement.userOnline (call : Announcement) (store : Zone.SessionStore)
    (userId gateId deviceType deviceId : Bytes) : Zone.SessionStore :=
  if call.arrives ∧ call.reads ∧ call.writes then
    (Zone.userOnline store userId gateId deviceType deviceId call.now).1
  else store

/-- The zone: the services that answer the clients, and the store of sessions and gates. -/
structure LoginZone (S : Type) where
  services : S
  presence : Zone.SessionStore

section
variable {S : Type}

/-- Any way of answering clients' requests, with a call of `UserOnline` that fares in any way. -/
def loginZone (handle : S → Zone.ClientRequest → S × Except Bytes Zone.HandleClientRequestResult)
    (call : Announcement) : Gate.ZoneClient (LoginZone S) where
  handleClientRequest s r := ({ s with services := (handle s.services r).1 }, (handle s.services r).2)
  userOnline s userId gateId deviceType deviceId :=
    { s with presence := call.userOnline s.presence userId gateId deviceType deviceId }

/-- The zone holds a session of the user that names the gate. -/
def HoldsSession (store : Zone.SessionStore) (u gateId : Bytes) : Prop :=
  ∃ session, store.getSession u = some session ∧ session.gateId = gateId

/-- The client gets one response. If it says OK, the zone holds a session of the user it names at
this gate; if not, nothing was bound. -/
def LoginHonest (gateId : Bytes) (g : Gate.GateService) (out : Gate.GateOutcome (LoginZone S)) :
    Prop :=
  ∃ m, out.sent = [m] ∧
    (m.code = errorCodeToInt .ok → ∃ success u token expireAt error,
      m.payload = .zone (.login success u token expireAt error) ∧
        HoldsSession out.zone.presence u gateId) ∧
    (m.code ≠ errorCodeToInt .ok → out.gate = g)

/-- A user whose login the zone accepts can be announced, or is in session at this gate
already. -/
def Announced (call : Announcement) (store : Zone.SessionStore) (gateId u : Bytes) : Prop :=
  (call.arrives ∧ call.reads ∧ call.writes ∧ (store.getGate gateId).isSome) ∨
    HoldsSession store u gateId

variable {call : Announcement} {store : Zone.SessionStore} {u gateId deviceType deviceId : Bytes}

theorem userOnline_holds :
    HoldsSession (call.userOnline store u gateId deviceType deviceId) u gateId ↔
      Announced call store gateId u := by
  unfold Announced Announcement.userOnline
  by_cases hcall : call.arrives ∧ call.reads ∧ call.writes
  · rw [if_pos hcall]
    cases hgate : store.getGate gateId with
    | none =>
      -- the zone does not know the gate and leaves the store as it is
      simp only [Zone.userOnline, hgate, Option.isSome_none, Bool.false_eq_true, and_false,
        false_or]
    | some gate =>
      refine iff_of_true ?_ (Or.inl ⟨hcall.1, hcall.2.1, hcall.2.2, rfl⟩)
      simp only [Zone.userOnline, hgate, Zone.SessionStore.setOnline]
      exact ⟨_, OrderedMap.get_put_self, rfl⟩
  · rw [if_neg hcall]
    constructor
    · exact Or.inr
    · rintro (⟨harrives, hreads, hwrites, _⟩ | hholds)
      · exact absurd ⟨harrives, hreads, hwrites⟩ hcall
      · exact hholds

/-- A login is answered truthfully exactly when each user whose login the zone accepts can be
announced or is in session at this gate already. -/
theorem login_honest_iff
    (handle : S → Zone.ClientRequest → S × Except Bytes Zone.HandleClientRequestResult)
    (call : Announcement) (codec : Zone.AuthCodec) (gateId : Bytes) (g : Gate.GateService)
    (s : LoginZone S) (connId payload requestId : Bytes) :
    LoginHonest gateId g
        (g.handleLogin (loginZone handle call) codec gateId s connId payload requestId) ↔
      ∀ login r u token,
        Gate.GateService.LoginAccepted (loginZone handle call) codec g s connId payload requestId
          login r u token →
        Announced call s.presence gateId u := by
  have hlogin := @Gate.GateService.handleLogin_outcome _ (loginZone handle call) codec gateId g s
    connId payload requestId
  rcases hlogin with ⟨login, r, u, token, h, he⟩ | ⟨hno, s', m, _, hcode, he⟩
  · obtain ⟨success, expireAt, error, hpay⟩ := h.named
    rw [he]
    constructor
    · rintro ⟨m, hm, hok, _⟩ login' r' u' token' h'
      obtain rfl : Gate.zoneMessage _ r = m := List.singleton_inj.mp hm
      obtain ⟨_, _, _, _, _, hnames, hholds⟩ := hok h.ok
      -- the answer names one user only
      obtain rfl : r = r' := Except.ok.inj (h.answered.symm.trans h'.answered)
      obtain ⟨_, _, _, hpay'⟩ := h'.named
      obtain ⟨-, rfl, rfl, -⟩ := Zone.ResponsePayload.login.inj (Option.some.inj (hpay.symm.trans hpay'))
      simp only [Gate.zoneMessage, hpay] at hnames
      obtain ⟨-, rfl, -⟩ :=
        Zone.ResponsePayload.login.inj (Gate.ServerPayload.zone.inj hnames)
      exact userOnline_holds.mp hholds
    · intro hann
      refine ⟨_, rfl, ?_, fun hne => absurd h.ok hne⟩
      intro _
      refine ⟨success, u, token, expireAt, error, ?_, ?_⟩
      · simp only [Gate.zoneMessage, hpay]
      · exact userOnline_holds.mpr (hann login r u token h)
  · rw [he]
    refine iff_of_true ⟨m, rfl, fun hok => absurd hok hcode, fun _ => rfl⟩ ?_
    intro login r u token h
    exact absurd h (hno login r u token)

end

/-- The zone answers as the installation with one account does. -/
def oneAccountZone (call : Announcement) : Gate.ZoneClient (LoginZone (Backend Unit)) :=
  loginZone (zoneClient oneAccount oneSecond).handleClientRequest call

/-- One connection at the gate. -/
def oneConnection : Gate.GateService := ({} : Gate.GateService).addConnection (str "c1") 1000

def veraLogin : Bytes := Zone.stringField 1 (str "vera") ++ Zone.stringField 2 (str "pw")

/-- Vera's login at the gate `g1`, with this store of sessions and gates at the zone. -/
def veraLogsIn (presence : Zone.SessionStore) (call : Announcement) :
    Gate.GateOutcome (LoginZone (Backend Unit)) :=
  oneConnection.handleLogin (oneAccountZone call) Zone.wireAuthCodec (str "g1")
    ⟨emptyInstallation.backend, presence⟩ (str "c1") veraLogin (str "r1")

theorem login_honest_registered :
    LoginHonest (str "g1") oneConnection
        (veraLogsIn { gates := Zone.twoGates } ⟨true, true, true, 1000⟩) ∧
      (veraLogsIn { gates := Zone.twoGates } ⟨true, true, true, 1000⟩).sent.map
        Gate.ServerMessage.code = [errorCodeToInt .ok] := by
  refine ⟨(login_honest_iff _ _ _ _ _ _ _ _ _).mpr ?_, by decide +kernel⟩
  intro login r u token h
  exact Or.inl ⟨rfl, rfl, rfl, by decide⟩

/-- A zone that was restarted has lost the gate: the client is told OK and is bound, and no session
of it is held. -/
theorem login_dishonest_restarted :
    ¬ LoginHonest (str "g1") oneConnection (veraLogsIn {} ⟨true, true, true, 1000⟩) := by
  rintro ⟨m, hm, hok, _⟩
  have hcode : (veraLogsIn {} ⟨true, true, true, 1000⟩).sent.map Gate.ServerMessage.code =
    [errorCodeToInt .ok] := by decide +kernel
  have hnone : (veraLogsIn {} ⟨true, true, true, 1000⟩).zone.presence.sessions.entries = [] := by
    decide +kernel
  rw [hm] at hcode
  obtain ⟨_, u, _, _, _, _, session, hsession, _⟩ := hok (List.singleton_inj.mp hcode)
  unfold Zone.SessionStore.getSession OrderedMap.get at hsession
  rw [hnone] at hsession
  cases hsession

end SwiftChat.Path
