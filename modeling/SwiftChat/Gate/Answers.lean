import SwiftChat.Gate.ClientMessage
import SwiftChat.Zone.ZoneService

/-! Every message of a client is answered once, with its own command and id. -/
namespace SwiftChat.Gate
open Base

/-- Exactly one response is sent, and it carries the command and the id of the request. -/
def AnsweredOnce {S : Type} (cmd requestId : Bytes) (out : GateOutcome S) : Prop :=
  ∃ m, out.sent = [m] ∧ m.cmd = cmd ∧ m.requestId = requestId

/-- How a call of the zone ends: with its answer, or with the status of a failed call, whether or
not the zone got the request. -/
inductive Delivery where
  | answered
  | failed (status : Bytes) (handled : Bool)

/-- The zone as the gate calls it. Its answer is copied field by field into the response and from
there into the result; empty fields are the defaults. -/
def zoneRpc {S : Type} (z : Zone.ZoneService S)
    (userOnline : S → (userId gateId deviceType deviceId : Bytes) → S) (delivery : Delivery) :
    ZoneClient S where
  handleClientRequest s r :=
    match delivery with
    | .answered => ((z.handleClientRequest s r).1, .ok (z.handleClientRequest s r).2)
    | .failed status handled =>
      (if handled then (z.handleClientRequest s r).1 else s, .error status)
  userOnline := userOnline

namespace GateService
variable {S : Type} {zone : ZoneClient S} {codec : Zone.AuthCodec} {gateId : Bytes}
  {g : GateService} {s : S} {connId cmd payload requestId : Bytes} {now : Int}

/-- Without a client of the zone only heartbeats are served. -/
def handleWithoutZone (g : GateService) (s : S) (connId cmd requestId : Bytes) (now : Int) :
    GateOutcome S :=
  if cmd = str "auth.login" ∨ cmd = str "auth.register" then
    { gate := g, zone := s, sent := [errorMessage cmd requestId .upstreamUnavailable] }
  else if cmd = str "heartbeat" then handleHeartbeat g s connId requestId now
  else if cmd = str "auth.logout" ∨ cmd = str "auth.validate_token" ∨ str "chat." <+: cmd ∨
      str "friend." <+: cmd ∨ str "group." <+: cmd ∨ str "file." <+: cmd then
    { gate := g, zone := s, sent := [errorMessage cmd requestId .upstreamUnavailable] }
  else { gate := g, zone := s, sent := [errorMessage cmd requestId .unsupported] }

/-- `HandleClientMessage` where the client of the zone may not be set up. -/
def handleClientMessageOf (client : Option (ZoneClient S)) (codec : Zone.AuthCodec)
    (gateId : Bytes) (g : GateService) (s : S) (connId cmd payload requestId : Bytes) (now : Int) :
    GateOutcome S :=
  match client with
  | none => handleWithoutZone g s connId cmd requestId now
  | some zone => handleClientMessage zone codec gateId g s connId cmd payload requestId now

/-- The answers of the zone carry the ids of the requests. -/
def Echoing (zone : ZoneClient S) : Prop :=
  ∀ s r result, (zone.handleClientRequest s r).2 = .ok result → result.requestId = r.requestId

theorem zoneRpc_echoing {z : Zone.ZoneService S}
    {userOnline : S → (userId gateId deviceType deviceId : Bytes) → S} {delivery : Delivery} :
    Echoing (zoneRpc z userOnline delivery) := by
  intro s r result h
  cases delivery with
  | answered =>
    obtain rfl := Except.ok.inj h
    exact Zone.ZoneService.handleClientRequest_echoes
  | failed status handled => cases h

theorem handleLogin_answers (hzone : Echoing zone) :
    AnsweredOnce (str "auth.login") requestId
      (handleLogin zone codec gateId g s connId payload requestId) := by
  simp only [handleLogin]
  cases codec.parseLogin payload with
  | none => exact ⟨_, rfl, rfl, rfl⟩
  | some login =>
    generalize hreq : Zone.ClientRequest.mk connId [] (str "auth.login") payload requestId [] = req
    have hid : req.requestId = requestId := by rw [← hreq]
    cases hans : zone.handleClientRequest s req with
    | mk s' answer =>
      cases answer with
      | error status => exact ⟨_, rfl, rfl, rfl⟩
      | ok r =>
        have hecho : r.requestId = requestId :=
          (hzone s req r (congrArg Prod.snd hans)).trans hid
        simp only
        split
        · exact ⟨_, rfl, rfl, hecho⟩
        split
        · split
          · exact ⟨_, rfl, rfl, rfl⟩
          split
          · exact ⟨_, rfl, rfl, rfl⟩
          · exact ⟨_, rfl, rfl, hecho⟩
        · exact ⟨_, rfl, rfl, rfl⟩

theorem forwardToZone_answers (hzone : Echoing zone) :
    AnsweredOnce cmd requestId
      (forwardToZone zone codec gateId g s connId cmd payload requestId) := by
  simp only [forwardToZone]
  cases hans : zone.handleClientRequest s (g.requestOf connId cmd payload requestId) with
  | mk s' answer =>
    cases answer with
    | error status => exact ⟨_, rfl, rfl, rfl⟩
    | ok r =>
      -- the check of a token may bind the connection, and answers the same
      have hecho : r.requestId = requestId := hzone s _ r (congrArg Prod.snd hans)
      exact ⟨_, rfl, rfl, hecho⟩

theorem handleClientMessage_answers (hzone : Echoing zone) :
    AnsweredOnce cmd requestId
      (handleClientMessage zone codec gateId g s connId cmd payload requestId now) := by
  unfold handleClientMessage
  split
  · rename_i hlogin
    rw [hlogin]
    exact handleLogin_answers hzone
  split
  · exact forwardToZone_answers hzone
  split
  · rename_i hbeat
    exact ⟨_, rfl, hbeat.symm, rfl⟩
  split
  · exact forwardToZone_answers hzone
  split
  · exact forwardToZone_answers hzone
  · exact ⟨_, rfl, rfl, rfl⟩

theorem handleWithoutZone_answers :
    AnsweredOnce cmd requestId (handleWithoutZone g s connId cmd requestId now) := by
  unfold handleWithoutZone
  split
  · exact ⟨_, rfl, rfl, rfl⟩
  split
  · rename_i hbeat
    exact ⟨_, rfl, hbeat.symm, rfl⟩
  split
  · exact ⟨_, rfl, rfl, rfl⟩
  · exact ⟨_, rfl, rfl, rfl⟩

/-- Whatever a client sends, whether or not the zone is there and however the call of it ends, and
whatever the subsystems behind it do. -/
theorem answered_once (client : Option (Zone.ZoneService S))
    (userOnline : S → (userId gateId deviceType deviceId : Bytes) → S) (delivery : Delivery)
    (codec : Zone.AuthCodec) (gateId : Bytes) (g : GateService) (s : S)
    (connId cmd payload requestId : Bytes) (now : Int) :
    AnsweredOnce cmd requestId
      (handleClientMessageOf (client.map fun z => zoneRpc z userOnline delivery) codec gateId g s
        connId cmd payload requestId now) := by
  cases client with
  | none => exact handleWithoutZone_answers
  | some z => exact handleClientMessage_answers zoneRpc_echoing

end GateService
end SwiftChat.Gate
