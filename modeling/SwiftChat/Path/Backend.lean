import SwiftChat.Gate.ClientMessage
import SwiftChat.Zone.Codec
import SwiftChat.Zone.FileSystem
import SwiftChat.Zone.GroupSystem
import SwiftChat.Zone.Presence

/-! The gate, the zone and the services behind them as one system. -/
namespace SwiftChat.Path
open Base

/-- The state behind the gate. `A` is the state of the account service. -/
structure Backend (A : Type) where
  auth : Zone.AuthState A
  groups : Chat.GroupDb := OrderedMap.empty
  files : File.FileState := {}
  presence : Zone.SessionStore := {}

/-- The services as they are set up. The handlers of `chat.*` and `friend.*` are left open. -/
structure Services (A : Type) where
  gateId : Bytes
  jwt : Jwt
  fileJwt : Option Jwt
  fileConfig : File.FileConfig
  authSvr : Zone.AuthSvr A
  authCodec : Zone.AuthCodec
  groupCodec : Zone.GroupCodec
  fileCodec : Zone.FileCodec
  handleChat : Backend A → Zone.ClientRequest → Backend A × Zone.HandleClientRequestResult
  handleFriend : Backend A → Zone.ClientRequest → Backend A × Zone.HandleClientRequestResult

/-- The clock readings and random draws made while a message is handled. -/
structure Env where
  clock : Zone.AuthClock
  groupRandom : RandomString 12
  fileSeed : File.FileIdSeed

/-- The time of the check of a token, in seconds. -/
def Env.verifySeconds (env : Env) : Int := Online.seconds env.clock.verify

section
variable {A : Type} (svc : Services A) (env : Env)

def handlers : Zone.PrefixHandlers (Backend A) where
  auth b r :=
    let (auth, result) := Zone.handleAuth svc.authSvr svc.authCodec svc.jwt env.clock b.auth r
    ({ b with auth := auth }, result)
  chat := svc.handleChat
  friend := svc.handleFriend
  group b r :=
    let (groups, result) := Zone.handleGroup svc.jwt b.groups env.groupRandom env.clock.now
      env.verifySeconds svc.groupCodec r
    ({ b with groups := groups }, result)
  file b r :=
    let (files, result) := Zone.handleFile svc.fileJwt svc.fileConfig svc.fileCodec b.files
      env.fileSeed (Online.seconds env.clock.now) r
    ({ b with files := files }, result)

def zoneClient : Gate.ZoneClient (Backend A) where
  handleClientRequest b r :=
    let (b, result) := Zone.handleClientRequest (handlers svc env) b r
    (b, .ok result)
  userOnline b userId gateId deviceType deviceId :=
    { b with
      presence :=
        (Zone.userOnline b.presence userId gateId deviceType deviceId env.clock.now).1 }

/-- The system: one gate with its connections, and the state behind it. -/
structure State (A : Type) where
  gate : Gate.GateService := {}
  backend : Backend A

def clientMessage (s : State A) (connId cmd payload requestId : Bytes) :
    Gate.GateOutcome (Backend A) :=
  Gate.GateService.handleClientMessage (zoneClient svc env) svc.authCodec svc.gateId s.gate
    s.backend connId cmd payload requestId env.clock.now

/-- What can happen at the gate. -/
inductive Event where
  | connect (connId : Bytes) (now : Int)
  | message (connId cmd payload requestId : Bytes) (env : Env)
  | disconnect (connId : Bytes)

def step (s : State A) : Event → State A
  | .connect connId now => { s with gate := s.gate.addConnection connId now }
  | .message connId cmd payload requestId env =>
    let o := clientMessage svc env s connId cmd payload requestId
    { gate := o.gate, backend := o.zone }
  | .disconnect connId =>
    let (gate, userId) := s.gate.removeConnection connId
    let presence :=
      if userId ≠ [] then (Zone.userOffline s.backend.presence userId svc.gateId).1
      else s.backend.presence
    { gate := gate, backend := { s.backend with presence := presence } }

end

section
variable {A : Type} {svc : Services A} {env : Env} {s : State A}
  {connId cmd payload requestId : Bytes}

/-- A logout reaches the handler of the zone with the user and token of the connection. -/
theorem clientMessage_logout :
    (clientMessage svc env s connId (str "auth.logout") payload requestId).zone.auth =
      (Zone.handleAuth svc.authSvr svc.authCodec svc.jwt env.clock s.backend.auth
        (s.gate.requestOf connId (str "auth.logout") payload requestId)).1 := by
  rw [clientMessage, Gate.GateService.handleClientMessage_logout]
  rfl

/-- A business command reaches the dispatch of the zone, likewise. -/
theorem clientMessage_business
    (hcmd : str "chat." <+: cmd ∨ str "friend." <+: cmd ∨ str "group." <+: cmd ∨
      str "file." <+: cmd) :
    (clientMessage svc env s connId cmd payload requestId).zone =
      (Zone.handleClientRequest (handlers svc env) s.backend
        (s.gate.requestOf connId cmd payload requestId)).1 := by
  have hvalidate : cmd ≠ str "auth.validate_token" := by
    rintro rfl
    rcases hcmd with h | h | h | h <;> exact absurd h (by decide)
  rw [clientMessage, Gate.GateService.handleClientMessage_business hcmd,
    Gate.GateService.forwardToZone_zone hvalidate]
  rfl

theorem clientMessage_file (hcmd : str "file." <+: cmd) :
    (clientMessage svc env s connId cmd payload requestId).zone.files =
      (Zone.handleFile svc.fileJwt svc.fileConfig svc.fileCodec s.backend.files env.fileSeed
        (Online.seconds env.clock.now) (s.gate.requestOf connId cmd payload requestId)).1 := by
  have hfile : Zone.cmdPrefix cmd = str "file" := Zone.cmdPrefix_of_isPrefix (by decide) hcmd
  rw [clientMessage_business (Or.inr (Or.inr (Or.inr hcmd))), Zone.handleClientRequest_file hfile]
  rfl

/-- The answer of the zone to a group request, and the groups after it. -/
theorem handleClientRequest_groups {b : Backend A} {r : Zone.ClientRequest}
    (hcmd : str "group." <+: r.cmd) :
    (Zone.handleClientRequest (handlers svc env) b r).1.groups =
        (Zone.handleGroup svc.jwt b.groups env.groupRandom env.clock.now env.verifySeconds
          svc.groupCodec r).1 ∧
      (Zone.handleClientRequest (handlers svc env) b r).2 =
        (Zone.handleGroup svc.jwt b.groups env.groupRandom env.clock.now env.verifySeconds
          svc.groupCodec r).2 := by
  have hgroup : Zone.cmdPrefix r.cmd = str "group" := Zone.cmdPrefix_of_isPrefix (by decide) hcmd
  rw [Zone.handleClientRequest_group hgroup]
  exact ⟨rfl, rfl⟩

end

/-- An installation with one account, for runs on fixed input. -/
def oneAccount : Services Unit where
  gateId := str "g"
  jwt := Jwt.plain
  fileJwt := some Jwt.plain
  fileConfig := {}
  authSvr :=
    { register := fun a _ => (a, { error := str "user already exists", errorCode := 105 })
      verifyCredentials := fun _ username password =>
        if username = str "vera" ∧ password = str "pw" then .ok (str "v")
        else .error (str "auth failed")
      searchUsers := fun _ _ _ _ => .ok [] }
  authCodec := Zone.wireAuthCodec
  groupCodec := Zone.wireGroupCodec
  fileCodec := Zone.wireFileCodec
  handleChat b r := (b, Zone.notImplemented r.requestId)
  handleFriend b r := (b, Zone.notImplemented r.requestId)

/-- Everything happens within one second. -/
def oneSecond : Env where
  clock := { login := ⟨1000, 1000, 1000, 1000⟩, verify := 1000, now := 1000 }
  groupRandom := RandomString.replicate 12 97 rfl
  fileSeed := { bytes := List.replicate 16 0, length_eq := rfl }

def emptyInstallation : State Unit := { backend := { auth := { accounts := () } } }

end SwiftChat.Path
