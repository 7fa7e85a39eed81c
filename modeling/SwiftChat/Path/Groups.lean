import SwiftChat.Chat.ChatRun
import SwiftChat.Path.Backend

/-! Whether a group request does what the group service does for the user of its connection. -/
namespace SwiftChat.Path
open Base Chat Zone

section
variable {A : Type} (svc : Services A) (env : Env)

/-- The system with its groups in a given state. -/
def State.withGroups (s : State A) (groups : GroupDb) : State A :=
  { s with backend := { s.backend with groups := groups } }

variable (s : State A) (connId cmd payload requestId : Bytes)

/-- The answer of the zone to a message the gate passes on. -/
def zoneAnswer : Backend A × HandleClientRequestResult :=
  handleClientRequest (handlers svc env) s.backend (s.gate.requestOf connId cmd payload requestId)

/-- The connection is authenticated as `u` with a token that is valid now. -/
def ValidFor (u : Bytes) : Prop :=
  ∃ c, s.gate.getConnection connId = some c ∧ c.authenticated = true ∧ c.userId = u ∧
    svc.jwt.verify c.token env.verifySeconds = some u

/-- No valid token comes with the connection. -/
def WithoutToken : Prop :=
  ∀ c, s.gate.getConnection connId = some c → svc.jwt.verify c.token env.verifySeconds = none

/-- The request has the effect and the success of the group operation by the user of the
connection, and without a valid token it changes no group. -/
structure GroupRequestRight : Prop where
  acts : ∀ u command, ValidFor svc env s connId u →
    groupCommand svc.groupCodec (s.gate.requestOf connId cmd payload requestId) = some command →
    ((zoneAnswer svc env s connId cmd payload requestId).1.groups,
      decide ((zoneAnswer svc env s connId cmd payload requestId).2.code = 0)) =
      command.actAs u s.backend.groups env.groupRandom env.clock.now
  guarded : WithoutToken svc env s connId →
    (clientMessage svc env s connId cmd payload requestId).zone.groups = s.backend.groups

/-- The group service itself refuses what the user of the connection asks for. -/
def GroupRequestRefused : Prop :=
  ∀ u command, ValidFor svc env s connId u →
    groupCommand svc.groupCodec (s.gate.requestOf connId cmd payload requestId) = some command →
    command.Refused u s.backend.groups env.groupRandom

/-- A group request changes nothing and fails, whoever sends it. -/
theorem zoneAnswer_group (hcmd : str "group." <+: cmd) :
    (zoneAnswer svc env s connId cmd payload requestId).1.groups = s.backend.groups ∧
      (zoneAnswer svc env s connId cmd payload requestId).2.code ≠ 0 := by
  obtain ⟨hgroups, hanswer⟩ := @handleClientRequest_groups A svc env s.backend
    (s.gate.requestOf connId cmd payload requestId) hcmd
  rw [zoneAnswer, hgroups, hanswer]
  exact handleGroup_refuses ..

variable {svc env s connId cmd payload requestId}

/-- So it is right exactly where the operation would change nothing and fail as well. -/
theorem groupRequestRight_iff (held : MembersHeld s.backend.groups) (hcmd : str "group." <+: cmd) :
    GroupRequestRight svc env s connId cmd payload requestId ↔
      GroupRequestRefused svc env s connId cmd payload requestId := by
  obtain ⟨hsame, hfail⟩ := zoneAnswer_group svc env s connId cmd payload requestId hcmd
  have hiff : ∀ u, ∀ command : GroupCommand, ValidFor svc env s connId u →
      (((zoneAnswer svc env s connId cmd payload requestId).1.groups,
        decide ((zoneAnswer svc env s connId cmd payload requestId).2.code = 0)) =
        command.actAs u s.backend.groups env.groupRandom env.clock.now ↔
      command.Refused u s.backend.groups env.groupRandom) := by
    rintro u command ⟨c, _, _, _, hverify⟩
    have hu : u ≠ [] := Jwt.verify_ne_nil hverify
    rw [hsame, decide_eq_false hfail, eq_comm]
    exact actAs_refused_iff hu held command
  constructor
  · intro h u command hvalid hcommand
    exact (hiff u command hvalid).mp (h.acts u command hvalid hcommand)
  · intro h
    refine ⟨?_, ?_⟩
    · intro u command hvalid hcommand
      exact (hiff u command hvalid).mpr (h u command hvalid hcommand)
    · intro _
      rw [clientMessage_business (Or.inr (Or.inr (Or.inl hcmd)))]
      exact hsame

variable (svc env s connId cmd payload requestId)

/-- In every reachable state of the groups: a group request does what the group service does for
the user of its connection exactly when the group service refuses it. -/
theorem group_request_right_iff (ops : List ChatOp) :
    (str "group." <+: cmd →
      GroupRequestRight svc env (s.withGroups (chatAfter ops).groups) connId cmd payload
        requestId) ↔
    (str "group." <+: cmd →
      GroupRequestRefused svc env (s.withGroups (chatAfter ops).groups) connId cmd payload
        requestId) := by
  have held : MembersHeld (chatAfter ops).groups :=
    membersHeld_empty.calls groupsOk_empty (chatAfter_groups ops)
  exact imp_congr_right fun hcmd => groupRequestRight_iff held hcmd

end

/-- The owner of the account is logged in. -/
def ownerOnline : State Unit :=
  run (step oneAccount) emptyInstallation
    [.connect (str "c1") 1000,
     .message (str "c1") (str "auth.login")
       (stringField 1 (str "vera") ++ stringField 2 (str "pw")) (str "r1") oneSecond]

/-- The payload of a request for a group of three. -/
def groupOfThree : Bytes :=
  stringField 1 (str "v") ++ stringField 3 (str "a") ++ stringField 3 (str "b")

/-- The group is asked for with a valid token, and not created. -/
theorem group_not_created :
    ¬ (str "group." <+: str "group.create" →
      GroupRequestRight oneAccount oneSecond (ownerOnline.withGroups (chatAfter []).groups)
        (str "c1") (str "group.create") groupOfThree (str "r2")) := by
  intro h
  have hvalid : ValidFor oneAccount oneSecond (ownerOnline.withGroups (chatAfter []).groups)
      (str "c1") (str "v") := by
    refine ⟨{ connId := str "c1"
              userId := str "v"
              token := Jwt.plain.create (str "v") 1 168
              connectedAt := 1000
              lastHeartbeat := 1000
              authenticated := true }, ?_, rfl, rfl, ?_⟩
    · decide +kernel
    · decide +kernel
  have hcommand : groupCommand oneAccount.groupCodec
      ((ownerOnline.withGroups (chatAfter []).groups).gate.requestOf (str "c1")
        (str "group.create") groupOfThree (str "r2")) =
      some (.create [] [str "a", str "b"]) := by
    decide +kernel
  have hsuccess := congrArg Prod.snd ((h (by decide)).acts _ _ hvalid hcommand)
  exact absurd hsuccess (by decide +kernel)

end SwiftChat.Path
