import SwiftChat.Gate.Routing

/-! A client's message in two turns of the gate: what it asks of the zone, and what the gate makes of
the answer. -/
namespace SwiftChat.Gate
open Base

/-- A message is answered at once, or the zone is asked. -/
inductive Begun where
  | answered (gate : GateService) (sent : ServerMessage)
  | asks (request : Zone.ClientRequest)

/-- A user that the zone is to be told of. -/
structure Arrival where
  userId : Bytes
  deviceType : Bytes
  deviceId : Bytes
deriving DecidableEq

structure Finished where
  gate : GateService
  sent : ServerMessage
  arrival : Option Arrival := none

/-- The zone after it was told. -/
def Finished.announce {S : Type} (f : Finished) (zone : ZoneClient S) (gateId : Bytes) (s : S) : S :=
  match f.arrival with
  | none => s
  | some a => zone.userOnline s a.userId gateId a.deviceType a.deviceId

/-- The commands that are passed on to the zone. -/
def Forwarded (cmd : Bytes) : Prop :=
  cmd = str "auth.register" ∨ cmd = str "auth.logout" ∨ cmd = str "auth.validate_token" ∨
    str "chat." <+: cmd ∨ str "friend." <+: cmd ∨ str "group." <+: cmd ∨ str "file." <+: cmd

instance (cmd : Bytes) : Decidable (Forwarded cmd) :=
  inferInstanceAs (Decidable (_ ∨ _ ∨ _ ∨ _ ∨ _ ∨ _ ∨ _))

namespace GateService
variable (codec : Zone.AuthCodec)

def beginMessage (g : GateService) (connId cmd payload requestId : Bytes) (now : Int) : Begun :=
  if cmd = str "auth.login" then
    match codec.parseLogin payload with
    | none => .answered g (errorMessage cmd requestId .invalidParam)
    | some _ => .asks (loginRequest connId payload requestId)
  else if cmd = str "heartbeat" then
    .answered (g.updateHeartbeat connId now)
      { cmd := cmd, requestId := requestId, code := errorCodeToInt .ok,
        message := errorCodeToString .ok, payload := .heartbeat now }
  else if Forwarded cmd then .asks (g.requestOf connId cmd payload requestId)
  else .answered g (errorMessage cmd requestId .unsupported)

/-- An answer to a login that says OK. -/
def finishLogin (g : GateService) (req : Zone.ClientRequest) (r : Zone.HandleClientRequestResult) :
    Finished :=
  let login := (codec.parseLogin req.payload).getD {}
  match r.payload with
  | some (.login _ userId token _ _) =>
    if userId = [] ∨ token = [] then
      { gate := g, sent := errorMessage req.cmd req.requestId .internalError }
    else
      let (g, bound) := g.bindUser req.connId userId token login.deviceId login.deviceType
      if ¬ bound then { gate := g, sent := errorMessage req.cmd req.requestId .internalError }
      else
        { gate := g
          sent := zoneMessage req.cmd r
          arrival := some ⟨userId, login.deviceType, login.deviceId⟩ }
  | _ => { gate := g, sent := errorMessage req.cmd req.requestId .internalError }

/-- An answer to the check of a token that says OK. -/
def finishValidate (g : GateService) (req : Zone.ClientRequest)
    (r : Zone.HandleClientRequestResult) : Finished :=
  let token := (codec.parseValidateToken req.payload).getD []
  match r.payload with
  | some (.validateToken userId) =>
    if userId ≠ [] ∧ token ≠ [] then
      let deviceId := ((g.getConnection req.connId).map Connection.deviceId).getD []
      let deviceType := ((g.getConnection req.connId).map Connection.deviceType).getD []
      { gate := (g.bindUser req.connId userId token deviceId deviceType).1
        sent := zoneMessage req.cmd r
        arrival := some ⟨userId, deviceType, deviceId⟩ }
    else { gate := g, sent := zoneMessage req.cmd r }
  | _ => { gate := g, sent := zoneMessage req.cmd r }

def finishMessage (g : GateService) (req : Zone.ClientRequest) :
    Except Bytes Zone.HandleClientRequestResult → Finished
  | .error status => { gate := g, sent := rpcFailure req.cmd req.requestId status }
  | .ok r =>
    if req.cmd = str "auth.login" ∧ r.code = errorCodeToInt .ok then finishLogin codec g req r
    else if req.cmd = str "auth.validate_token" ∧ r.code = errorCodeToInt .ok then
      finishValidate codec g req r
    else { gate := g, sent := zoneMessage req.cmd r }

section
variable {S : Type} {zone : ZoneClient S} {codec} {gateId : Bytes} {g : GateService} {s : S}
  {connId cmd payload requestId : Bytes} {now : Int}

/-- The second turn, by what the zone did and answered. -/
def finishAt (zone : ZoneClient S) (codec : Zone.AuthCodec) (gateId : Bytes) (g : GateService)
    (req : Zone.ClientRequest) (x : S × Except Bytes Zone.HandleClientRequestResult) :
    GateOutcome S :=
  let f := g.finishMessage codec req x.2
  { gate := f.gate, zone := f.announce zone gateId x.1, sent := [f.sent] }

theorem handleLogin_turns {login : Zone.AuthLoginPayload}
    (hparse : codec.parseLogin payload = some login) :
    handleLogin zone codec gateId g s connId payload requestId =
      finishAt zone codec gateId g (loginRequest connId payload requestId)
        (zone.handleClientRequest s (loginRequest connId payload requestId)) := by
  have hreq : Zone.ClientRequest.mk connId [] (str "auth.login") payload requestId [] =
    loginRequest connId payload requestId := rfl
  have hcmd : (loginRequest connId payload requestId).cmd = str "auth.login" := rfl
  have hpayload : (loginRequest connId payload requestId).payload = payload := rfl
  have hconn : (loginRequest connId payload requestId).connId = connId := rfl
  simp only [handleLogin, hparse, hreq]
  generalize zone.handleClientRequest s (loginRequest connId payload requestId) = x
  obtain ⟨s', answer⟩ := x
  cases answer with
  | error status => rfl
  | ok r =>
    by_cases hcode : r.code = errorCodeToInt .ok
    · simp only [finishAt, finishMessage, hcmd, hcode, true_and, if_true, finishLogin, hpayload,
        hparse, Option.getD_some, ne_eq, not_true_eq_false, if_false]
      cases r.payload with
      | none => rfl
      | some p =>
        cases p with
        | login success u token expireAt error =>
          simp only [hconn]
          split
          · rfl
          split
          · rfl
          · rfl
        | _ => rfl
    · simp only [finishAt, finishMessage, hcode, and_false, if_false, ne_eq, not_false_eq_true,
        if_true]
      rfl

theorem forwardToZone_turns (hcmd : cmd ≠ str "auth.login") :
    forwardToZone zone codec gateId g s connId cmd payload requestId =
      finishAt zone codec gateId g (g.requestOf connId cmd payload requestId)
        (zone.handleClientRequest s (g.requestOf connId cmd payload requestId)) := by
  have hrequest : (g.requestOf connId cmd payload requestId).cmd = cmd := rfl
  have hpayload : (g.requestOf connId cmd payload requestId).payload = payload := rfl
  have hconn : (g.requestOf connId cmd payload requestId).connId = connId := rfl
  simp only [forwardToZone]
  generalize zone.handleClientRequest s (g.requestOf connId cmd payload requestId) = x
  obtain ⟨s', answer⟩ := x
  cases answer with
  | error status => rfl
  | ok r =>
    simp only [finishAt, finishMessage, hrequest, hcmd, false_and, if_false]
    by_cases hvalid : cmd = str "auth.validate_token" ∧ r.code = errorCodeToInt .ok
    · simp only [if_pos hvalid, bindValidated, finishValidate, hpayload, hconn]
      cases r.payload with
      | none => rfl
      | some p =>
        cases p with
        | validateToken u =>
          simp only
          split
          · rfl
          · rfl
        | _ => rfl
    · simp only [if_neg hvalid]
      rfl

/-- The two turns, with nothing between them, are what the gate does with a message. -/
theorem handleClientMessage_turns :
    g.handleClientMessage zone codec gateId s connId cmd payload requestId now =
      match g.beginMessage codec connId cmd payload requestId now with
      | .answered g' m => { gate := g', zone := s, sent := [m] }
      | .asks req => finishAt zone codec gateId g req (zone.handleClientRequest s req) := by
  unfold handleClientMessage beginMessage
  by_cases hlogin : cmd = str "auth.login"
  · subst hlogin
    simp only [if_true]
    cases hparse : codec.parseLogin payload with
    | none => simp only [handleLogin, hparse]
    | some login => exact handleLogin_turns hparse
  simp only [if_neg hlogin]
  by_cases hregister : cmd = str "auth.register"
  · have hbeat : cmd ≠ str "heartbeat" := by
      rw [hregister]
      decide
    have hforward : Forwarded cmd := Or.inl hregister
    rw [if_pos hregister, if_neg hbeat, if_pos hforward]
    exact forwardToZone_turns hlogin
  rw [if_neg hregister]
  by_cases hbeat : cmd = str "heartbeat"
  · rw [if_pos hbeat, if_pos hbeat, hbeat]
    rfl
  rw [if_neg hbeat, if_neg hbeat]
  by_cases hforward : Forwarded cmd
  · rw [if_pos hforward]
    by_cases hauth : cmd = str "auth.logout" ∨ cmd = str "auth.validate_token"
    · rw [if_pos hauth]
      exact forwardToZone_turns hlogin
    · have hbusiness : str "chat." <+: cmd ∨ str "friend." <+: cmd ∨ str "group." <+: cmd ∨
          str "file." <+: cmd := by
        rcases hforward with h | h | h | h
        · exact absurd h hregister
        · exact absurd (Or.inl h) hauth
        · exact absurd (Or.inr h) hauth
        · exact h
      rw [if_neg hauth, if_pos hbusiness]
      exact forwardToZone_turns hlogin
  · rw [if_neg hforward, if_neg fun h => hforward (Or.inr (h.elim Or.inl (Or.inr ∘ Or.inl))),
      if_neg fun h => hforward (Or.inr (Or.inr (Or.inr h)))]

end

/-- The request of a message is for its connection, and has its user and token, or neither. -/
theorem beginMessage_asks {codec : Zone.AuthCodec} {g : GateService}
    {connId cmd payload requestId : Bytes} {now : Int} {req : Zone.ClientRequest}
    (h : g.beginMessage codec connId cmd payload requestId now = .asks req) :
    req.connId = connId ∧ req.cmd = cmd ∧ req.requestId = requestId ∧
      ((req.userId = [] ∧ req.token = []) ∨ ∃ conn, g.connections.get connId = some conn ∧
        req.userId = conn.userId ∧ req.token = conn.token) := by
  unfold beginMessage at h
  split at h
  · rename_i hcmd
    split at h
    · cases h
    · cases h
      exact ⟨rfl, hcmd.symm, rfl, Or.inl ⟨rfl, rfl⟩⟩
  split at h
  · cases h
  split at h
  · cases h
    refine ⟨rfl, rfl, rfl, ?_⟩
    unfold requestOf getConnection
    cases hget : g.connections.get connId with
    | none => exact Or.inl ⟨rfl, rfl⟩
    | some conn => exact Or.inr ⟨conn, rfl, rfl, rfl⟩
  · cases h

/-- A message that is answered at once has at most refreshed its connection. -/
theorem beginMessage_answered {codec : Zone.AuthCodec} {g g' : GateService}
    {connId cmd payload requestId : Bytes} {now : Int} {m : ServerMessage}
    (h : g.beginMessage codec connId cmd payload requestId now = .answered g' m) :
    (g' = g ∨ g' = g.updateHeartbeat connId now) ∧ m.cmd = cmd ∧ m.requestId = requestId := by
  unfold beginMessage at h
  split at h
  · split at h
    · cases h
      exact ⟨Or.inl rfl, rfl, rfl⟩
    · cases h
  split at h
  · cases h
    exact ⟨Or.inr rfl, rfl, rfl⟩
  split at h
  · cases h
  · cases h
    exact ⟨Or.inl rfl, rfl, rfl⟩

/-- The answer proves who is at the connection, and this is the token for it. -/
def GivesToken (codec : Zone.AuthCodec) (req : Zone.ClientRequest)
    (r : Zone.HandleClientRequestResult) (u token : Bytes) : Prop :=
  r.code = errorCodeToInt .ok ∧
    ((req.cmd = str "auth.login" ∧
        ∃ success expireAt error, r.payload = some (.login success u token expireAt error)) ∨
      (req.cmd = str "auth.validate_token" ∧ r.payload = some (.validateToken u) ∧
        codec.parseValidateToken req.payload = some token))

theorem GivesToken.names {codec : Zone.AuthCodec} {req : Zone.ClientRequest}
    {r : Zone.HandleClientRequestResult} {u token : Bytes} (h : GivesToken codec req r u token) :
    NamesUser req.cmd r u := by
  obtain ⟨hcode, ⟨hcmd, success, expireAt, error, hpay⟩ | ⟨hcmd, hpay, _⟩⟩ := h
  · exact ⟨hcode, Or.inl ⟨hcmd, success, token, expireAt, error, hpay⟩⟩
  · exact ⟨hcode, Or.inr ⟨hcmd, hpay⟩⟩

/-- An answer changes nothing at the gate, or binds its connection to the user that it names. -/
theorem finishMessage_cases {codec : Zone.AuthCodec} {g : GateService} {req : Zone.ClientRequest}
    {answer : Except Bytes Zone.HandleClientRequestResult} :
    ((g.finishMessage codec req answer).gate = g ∧
      (g.finishMessage codec req answer).arrival = none) ∨
    ∃ r u token deviceId deviceType, answer = .ok r ∧ GivesToken codec req r u token ∧ u ≠ [] ∧
      (g.finishMessage codec req answer).gate =
        (g.bindUser req.connId u token deviceId deviceType).1 ∧
      (g.finishMessage codec req answer).arrival = some ⟨u, deviceType, deviceId⟩ := by
  cases answer with
  | error status => exact Or.inl ⟨rfl, rfl⟩
  | ok r =>
    simp only [finishMessage]
    split
    · rename_i hlogin
      unfold finishLogin
      simp only
      split
      · rename_i success u token expireAt error hpay
        split
        · exact Or.inl ⟨rfl, rfl⟩
        · rename_i hne
          have hu : u ≠ [] := fun hu => hne (Or.inl hu)
          split
          · rename_i hbound
            rw [bindUser_connected, Bool.not_eq_true] at hbound
            exact Or.inl ⟨bindUser_absent_eq hbound, rfl⟩
          · exact Or.inr ⟨r, u, token, _, _, rfl,
              ⟨hlogin.2, Or.inl ⟨hlogin.1, success, expireAt, error, hpay⟩⟩, hu, rfl, rfl⟩
      · exact Or.inl ⟨rfl, rfl⟩
    split
    · rename_i hvalid
      unfold finishValidate
      simp only
      split
      · rename_i u hpay
        split
        · rename_i hne
          obtain ⟨hu, htoken⟩ := hne
          refine Or.inr ⟨r, u, _, _, _, rfl, ⟨hvalid.2, Or.inr ⟨hvalid.1, hpay, ?_⟩⟩, hu, rfl, rfl⟩
          cases hparse : codec.parseValidateToken req.payload with
          | none =>
            rw [hparse] at htoken
            exact absurd rfl htoken
          | some token => rfl
        · exact Or.inl ⟨rfl, rfl⟩
      · exact Or.inl ⟨rfl, rfl⟩
    · exact Or.inl ⟨rfl, rfl⟩

/-- The response has the command of the request, and its id or the one of the answer. -/
theorem finishMessage_sent {codec : Zone.AuthCodec} {g : GateService} {req : Zone.ClientRequest}
    {answer : Except Bytes Zone.HandleClientRequestResult} :
    (g.finishMessage codec req answer).sent.cmd = req.cmd ∧
      ((g.finishMessage codec req answer).sent.requestId = req.requestId ∨
        ∃ r, answer = .ok r ∧ (g.finishMessage codec req answer).sent.requestId = r.requestId) := by
  cases answer with
  | error status => exact ⟨rfl, Or.inl rfl⟩
  | ok r =>
    simp only [finishMessage]
    split
    · unfold finishLogin
      simp only
      split
      · split
        · exact ⟨rfl, Or.inl rfl⟩
        · split
          · exact ⟨rfl, Or.inl rfl⟩
          · exact ⟨rfl, Or.inr ⟨r, rfl, rfl⟩⟩
      · exact ⟨rfl, Or.inl rfl⟩
    split
    · unfold finishValidate
      simp only
      split
      · split
        · exact ⟨rfl, Or.inr ⟨r, rfl, rfl⟩⟩
        · exact ⟨rfl, Or.inr ⟨r, rfl, rfl⟩⟩
      · exact ⟨rfl, Or.inr ⟨r, rfl, rfl⟩⟩
    · exact ⟨rfl, Or.inr ⟨r, rfl, rfl⟩⟩

end GateService
end SwiftChat.Gate
