import SwiftChat.Gate.GateService
import SwiftChat.Zone.AuthSystem

/-! What the gate does with a client's message. -/
namespace SwiftChat.Gate
open Base

/-- The payload of a message to a client. -/
inductive ServerPayload where
  | empty
  | heartbeat (serverTime : Int)
  | zone (payload : Zone.ResponsePayload)
deriving DecidableEq

structure ServerMessage where
  cmd : Bytes := []
  requestId : Bytes := []
  code : Int := 0
  message : Bytes := []
  payload : ServerPayload := .empty
deriving DecidableEq

/-- The zone as its client at the gate shows it; a failed call gives the status text. -/
structure ZoneClient (S : Type) where
  handleClientRequest : S → Zone.ClientRequest → S × Except Bytes Zone.HandleClientRequestResult
  userOnline : S → (userId gateId deviceType deviceId : Bytes) → S

/-- The gate, the zone behind it, and the responses sent on the connection. -/
structure GateOutcome (S : Type) where
  gate : GateService
  zone : S
  sent : List ServerMessage := []

def errorMessage (cmd requestId : Bytes) (ec : ErrorCode) : ServerMessage :=
  { cmd := cmd, requestId := requestId, code := errorCodeToInt ec, message := errorCodeToString ec }

/-- The response to a call of the zone that failed. -/
def rpcFailure (cmd requestId status : Bytes) : ServerMessage where
  cmd := cmd
  requestId := requestId
  code := errorCodeToInt .rpcFailed
  message := if status = [] then errorCodeToString .rpcFailed else status

def zoneMessage (cmd : Bytes) (r : Zone.HandleClientRequestResult) : ServerMessage where
  cmd := cmd
  requestId := r.requestId
  code := r.code
  message := r.message
  payload := match r.payload with
    | none => .empty
    | some p => .zone p

namespace GateService

def updateHeartbeat (g : GateService) (connId : Bytes) (now : Int) : GateService :=
  match g.connections.get connId with
  | none => g
  | some c => { g with connections := g.connections.put connId { c with lastHeartbeat := now } }

section
variable {S : Type} (zone : ZoneClient S) (codec : Zone.AuthCodec) (gateId : Bytes)

def handleLogin (g : GateService) (s : S) (connId payload requestId : Bytes) : GateOutcome S :=
  let cmd := str "auth.login"
  match codec.parseLogin payload with
  | none => { gate := g, zone := s, sent := [errorMessage cmd requestId .invalidParam] }
  | some req =>
    match zone.handleClientRequest s
        { connId := connId, cmd := cmd, payload := payload, requestId := requestId } with
    | (s, .error status) => { gate := g, zone := s, sent := [rpcFailure cmd requestId status] }
    | (s, .ok r) =>
      if r.code ≠ errorCodeToInt .ok then { gate := g, zone := s, sent := [zoneMessage cmd r] }
      else
        match r.payload with
        | some (.login _ userId token _ _) =>
          if userId = [] ∨ token = [] then
            { gate := g, zone := s, sent := [errorMessage cmd requestId .internalError] }
          else
            let (g, bound) := g.bindUser connId userId token req.deviceId req.deviceType
            if ¬ bound then
              { gate := g, zone := s, sent := [errorMessage cmd requestId .internalError] }
            else
              { gate := g
                zone := zone.userOnline s userId gateId req.deviceType req.deviceId
                sent := [zoneMessage cmd r] }
        | _ => { gate := g, zone := s, sent := [errorMessage cmd requestId .internalError] }

/-- The request the gate makes of a message: the user and the token come from the connection. -/
def requestOf (g : GateService) (connId cmd payload requestId : Bytes) : Zone.ClientRequest where
  connId := connId
  userId := ((g.getConnection connId).map Connection.userId).getD []
  cmd := cmd
  payload := payload
  requestId := requestId
  token := ((g.getConnection connId).map Connection.token).getD []

/-- After a token was found valid, its connection is bound to the token's user. -/
def bindValidated (g : GateService) (s : S) (connId payload : Bytes)
    (r : Zone.HandleClientRequestResult) : GateService × S :=
  let token := (codec.parseValidateToken payload).getD []
  match r.payload with
  | some (.validateToken userId) =>
    if userId ≠ [] ∧ token ≠ [] then
      let deviceId := ((g.getConnection connId).map Connection.deviceId).getD []
      let deviceType := ((g.getConnection connId).map Connection.deviceType).getD []
      ((g.bindUser connId userId token deviceId deviceType).1,
        zone.userOnline s userId gateId deviceType deviceId)
    else (g, s)
  | _ => (g, s)

def forwardToZone (g : GateService) (s : S) (connId cmd payload requestId : Bytes) :
    GateOutcome S :=
  match zone.handleClientRequest s (g.requestOf connId cmd payload requestId) with
  | (s, .error status) => { gate := g, zone := s, sent := [rpcFailure cmd requestId status] }
  | (s, .ok r) =>
    let (g, s) :=
      if cmd = str "auth.validate_token" ∧ r.code = errorCodeToInt .ok then
        bindValidated zone codec gateId g s connId payload r
      else (g, s)
    { gate := g, zone := s, sent := [zoneMessage cmd r] }

def handleHeartbeat (g : GateService) (s : S) (connId requestId : Bytes) (now : Int) :
    GateOutcome S where
  gate := g.updateHeartbeat connId now
  zone := s
  sent := [{ cmd := str "heartbeat", requestId := requestId, code := errorCodeToInt .ok,
             message := errorCodeToString .ok, payload := .heartbeat now }]

def handleClientMessage (g : GateService) (s : S) (connId cmd payload requestId : Bytes)
    (now : Int) : GateOutcome S :=
  if cmd = str "auth.login" then handleLogin zone codec gateId g s connId payload requestId
  else if cmd = str "auth.register" then
    forwardToZone zone codec gateId g s connId cmd payload requestId
  else if cmd = str "heartbeat" then handleHeartbeat g s connId requestId now
  else if cmd = str "auth.logout" ∨ cmd = str "auth.validate_token" then
    forwardToZone zone codec gateId g s connId cmd payload requestId
  else if str "chat." <+: cmd ∨ str "friend." <+: cmd ∨ str "group." <+: cmd ∨
      str "file." <+: cmd then
    forwardToZone zone codec gateId g s connId cmd payload requestId
  else { gate := g, zone := s, sent := [errorMessage cmd requestId .unsupported] }

end

/-- The connection is known and its record says it is authenticated as `v`. -/
def AuthenticatedAs (g : GateService) (connId v : Bytes) : Prop :=
  ∃ c, g.getConnection connId = some c ∧ c.authenticated = true ∧ c.userId = v

instance (g : GateService) (connId v : Bytes) : Decidable (g.AuthenticatedAs connId v) :=
  decidable_of_iff ((g.getConnection connId).any fun c => c.authenticated ∧ c.userId = v) (by
    simp [AuthenticatedAs, Option.any_eq_true])

section
variable {S : Type} {zone : ZoneClient S} {codec : Zone.AuthCodec} {gateId : Bytes}
  {g : GateService} {s : S} {connId cmd payload requestId : Bytes} {now : Int}

theorem bindUser_connected {u token deviceId deviceType : Bytes} :
    (g.bindUser connId u token deviceId deviceType).2 = (g.getConnection connId).isSome := by
  unfold bindUser getConnection
  cases g.connections.get connId with
  | none => rfl
  | some c => rfl

theorem bindUser_absent_eq {u token deviceId deviceType : Bytes}
    (h : (g.getConnection connId).isSome = false) :
    (g.bindUser connId u token deviceId deviceType).1 = g := by
  unfold bindUser
  unfold getConnection at h
  cases hget : g.connections.get connId with
  | none => rfl
  | some c =>
    rw [hget] at h
    cases h

/-- The request of a login leaves the user and the token out. -/
def loginRequest (connId payload requestId : Bytes) : Zone.ClientRequest where
  connId := connId
  cmd := str "auth.login"
  payload := payload
  requestId := requestId

/-- The zone accepts the login of a user, on a connection that is there. -/
structure LoginAccepted (zone : ZoneClient S) (codec : Zone.AuthCodec) (g : GateService) (s : S)
    (connId payload requestId : Bytes) (login : Zone.AuthLoginPayload)
    (r : Zone.HandleClientRequestResult) (u token : Bytes) : Prop where
  parsed : codec.parseLogin payload = some login
  answered : (zone.handleClientRequest s (loginRequest connId payload requestId)).2 = .ok r
  ok : r.code = errorCodeToInt .ok
  named : ∃ success expireAt error, r.payload = some (.login success u token expireAt error)
  user : u ≠ []
  token : token ≠ []
  connected : (g.getConnection connId).isSome = true

theorem handleLogin_accepted {login : Zone.AuthLoginPayload} {r : Zone.HandleClientRequestResult}
    {u token : Bytes} (h : LoginAccepted zone codec g s connId payload requestId login r u token) :
    handleLogin zone codec gateId g s connId payload requestId =
      { gate := (g.bindUser connId u token login.deviceId login.deviceType).1
        zone := zone.userOnline
          (zone.handleClientRequest s (loginRequest connId payload requestId)).1 u gateId
          login.deviceType login.deviceId
        sent := [zoneMessage (str "auth.login") r] } := by
  obtain ⟨success, expireAt, error, hpay⟩ := h.named
  have hreq : Zone.ClientRequest.mk connId [] (str "auth.login") payload requestId [] =
    loginRequest connId payload requestId := rfl
  simp only [handleLogin, h.parsed, hreq]
  have hans := h.answered
  cases hzone : zone.handleClientRequest s (loginRequest connId payload requestId) with
  | mk s' answer =>
    rw [hzone] at hans
    obtain rfl : answer = .ok r := hans
    simp [h.ok, hpay, h.user, h.token, bindUser_connected, h.connected]

/-- A login that any of the checks stops changes nothing at the gate and is told of the failure. -/
theorem handleLogin_refused
    (h : ∀ login r u token, ¬ LoginAccepted zone codec g s connId payload requestId login r u token) :
    ∃ s' m, (s' = s ∨ s' = (zone.handleClientRequest s (loginRequest connId payload requestId)).1) ∧
      m.code ≠ errorCodeToInt .ok ∧
      handleLogin zone codec gateId g s connId payload requestId =
        { gate := g, zone := s', sent := [m] } := by
  have hinvalid : errorCodeToInt .invalidParam ≠ errorCodeToInt .ok := by decide
  have hfailed : errorCodeToInt .rpcFailed ≠ errorCodeToInt .ok := by decide
  have hinternal : errorCodeToInt .internalError ≠ errorCodeToInt .ok := by decide
  simp only [handleLogin]
  cases hparse : codec.parseLogin payload with
  | none => exact ⟨s, _, Or.inl rfl, hinvalid, rfl⟩
  | some login =>
    have hreq : Zone.ClientRequest.mk connId [] (str "auth.login") payload requestId [] =
      loginRequest connId payload requestId := rfl
    simp only [hreq]
    cases hans : zone.handleClientRequest s (loginRequest connId payload requestId) with
    | mk s' answer =>
      cases answer with
      | error status => exact ⟨s', _, Or.inr rfl, hfailed, rfl⟩
      | ok r =>
        simp only
        split
        · exact ⟨s', _, Or.inr rfl, ‹_›, rfl⟩
        · rename_i hcode
          split
          · rename_i success u token expireAt error hpay
            split
            · exact ⟨s', _, Or.inr rfl, hinternal, rfl⟩
            · rename_i hne
              simp only [bindUser_connected]
              cases hconn : (g.getConnection connId).isSome with
              | false =>
                exact ⟨s', _, Or.inr rfl, hinternal, by simp [bindUser_absent_eq hconn]; rfl⟩
              | true =>
                -- every check was passed
                exact absurd {
                  parsed := hparse
                  answered := congrArg Prod.snd hans
                  ok := not_not.mp hcode
                  named := ⟨success, expireAt, error, hpay⟩
                  user := fun hu => hne (Or.inl hu)
                  token := fun ht => hne (Or.inr ht)
                  connected := hconn } (h login r u token)
          · exact ⟨s', _, Or.inr rfl, hinternal, rfl⟩

/-- A login that is accepted binds its connection and is announced; any other one is answered with
an error and changes nothing at the gate. -/
theorem handleLogin_outcome :
    (∃ login r u token, LoginAccepted zone codec g s connId payload requestId login r u token ∧
      handleLogin zone codec gateId g s connId payload requestId =
        { gate := (g.bindUser connId u token login.deviceId login.deviceType).1
          zone := zone.userOnline
            (zone.handleClientRequest s (loginRequest connId payload requestId)).1 u gateId
            login.deviceType login.deviceId
          sent := [zoneMessage (str "auth.login") r] }) ∨
    ((∀ login r u token, ¬ LoginAccepted zone codec g s connId payload requestId login r u token) ∧
      ∃ s' m,
        (s' = s ∨ s' = (zone.handleClientRequest s (loginRequest connId payload requestId)).1) ∧
        m.code ≠ errorCodeToInt .ok ∧
        handleLogin zone codec gateId g s connId payload requestId =
          { gate := g, zone := s', sent := [m] }) := by
  by_cases h : ∃ login r u token, LoginAccepted zone codec g s connId payload requestId login r u token
  · obtain ⟨login, r, u, token, h⟩ := h
    exact Or.inl ⟨login, r, u, token, h, handleLogin_accepted h⟩
  · simp only [not_exists] at h
    exact Or.inr ⟨h, handleLogin_refused h⟩

/-- What the services behind the gate see of a message that is passed on and is not a check of a
token. -/
theorem forwardToZone_zone (hcmd : cmd ≠ str "auth.validate_token") :
    (forwardToZone zone codec gateId g s connId cmd payload requestId).zone =
      (zone.handleClientRequest s (g.requestOf connId cmd payload requestId)).1 := by
  unfold forwardToZone
  cases zone.handleClientRequest s (g.requestOf connId cmd payload requestId) with
  | mk s' r =>
    cases r with
    | error status => rfl
    | ok r => simp [hcmd]

theorem handleClientMessage_logout :
    (handleClientMessage zone codec gateId g s connId (str "auth.logout") payload requestId
        now).zone =
      (zone.handleClientRequest s (g.requestOf connId (str "auth.logout") payload requestId)).1 := by
  change (forwardToZone zone codec gateId g s connId (str "auth.logout") payload requestId).zone = _
  exact forwardToZone_zone (by decide)

/-- The four families of business commands are passed on. -/
theorem handleClientMessage_business
    (hcmd : str "chat." <+: cmd ∨ str "friend." <+: cmd ∨ str "group." <+: cmd ∨
      str "file." <+: cmd) :
    handleClientMessage zone codec gateId g s connId cmd payload requestId now =
      forwardToZone zone codec gateId g s connId cmd payload requestId := by
  have hne : ∀ word : Bytes, ¬ str "chat." <+: word → ¬ str "friend." <+: word →
      ¬ str "group." <+: word → ¬ str "file." <+: word → cmd ≠ word := by
    rintro word h1 h2 h3 h4 rfl
    rcases hcmd with h | h | h | h
    · exact h1 h
    · exact h2 h
    · exact h3 h
    · exact h4 h
  have hlogin := hne (str "auth.login") (by decide) (by decide) (by decide) (by decide)
  have hregister := hne (str "auth.register") (by decide) (by decide) (by decide) (by decide)
  have hbeat := hne (str "heartbeat") (by decide) (by decide) (by decide) (by decide)
  have hlogout := hne (str "auth.logout") (by decide) (by decide) (by decide) (by decide)
  have hvalidate := hne (str "auth.validate_token") (by decide) (by decide) (by decide) (by decide)
  simp only [handleClientMessage, hlogin, hregister, hbeat, hlogout, hvalidate, or_self, if_false,
    if_pos hcmd]

end
end GateService
end SwiftChat.Gate
