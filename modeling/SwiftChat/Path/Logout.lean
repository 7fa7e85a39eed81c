import SwiftChat.Base.Run
import SwiftChat.Path.Backend

/-! Whose login session a logout ends. -/
namespace SwiftChat.Path
open Base

section
variable {A : Type} (svc : Services A) (env : Env) (s : State A) (connId payload requestId : Bytes)

/-- The request carries the token, in its payload or as the token of its connection. -/
def CarriesToken (token : Bytes) : Prop :=
  (svc.authCodec.parseLogout payload).map Zone.AuthLogoutPayload.token = some token ∨
    (s.gate.requestOf connId (str "auth.logout") payload requestId).token = token

instance (token : Bytes) : Decidable (CarriesToken svc s connId payload requestId token) :=
  inferInstanceAs (Decidable (_ ∨ _))

/-- A logout ends a session only for its user, or for who has its token. -/
def LogoutAuthorized : Prop :=
  ∀ v session, Online.getSession s.backend.auth.sessions v = some session →
    Online.getSession (clientMessage svc env s connId (str "auth.logout") payload
      requestId).zone.auth.sessions v = none →
    CarriesToken svc s connId payload requestId session.token ∨ s.gate.AuthenticatedAs connId v

/-- The payload names a user without a session, the user of the connection, or a user whose token
the request carries. -/
def NamesOwnSession : Prop :=
  ∀ req session, svc.authCodec.parseLogout payload = some req →
    Online.getSession s.backend.auth.sessions req.userId = some session →
    CarriesToken svc s connId payload requestId session.token ∨
      s.gate.AuthenticatedAs connId req.userId

/-- A logout ends only sessions it may end exactly when its payload names such a session or
none. -/
theorem logout_authorized_iff :
    LogoutAuthorized svc env s connId payload requestId ↔
      NamesOwnSession svc s connId payload requestId := by
  have hafter : ∀ req, svc.authCodec.parseLogout payload = some req → ∀ v,
      Online.getSession (clientMessage svc env s connId (str "auth.logout") payload
        requestId).zone.auth.sessions v =
        if v = req.userId then none else Online.getSession s.backend.auth.sessions v := by
    intro req hreq v
    rw [clientMessage_logout]
    exact Zone.handleAuth_logout _ _ _ _ rfl hreq v
  constructor
  · intro h req session hreq hsession
    refine h req.userId session hsession ?_
    rw [hafter req hreq, if_pos rfl]
  · intro h v session hbefore hgone
    cases hreq : svc.authCodec.parseLogout payload with
    | none =>
      rw [clientMessage_logout, Zone.handleAuth_logout_invalid _ _ _ _ rfl hreq, hbefore] at hgone
      cases hgone
    | some req =>
      rw [hafter req hreq] at hgone
      split at hgone
      · rename_i hv
        subst hv
        exact h req session hreq hbefore
      · rw [hbefore] at hgone
        cases hgone

end

section
variable {A : Type} (svc : Services A)

def LogoutsAuthorized (s : State A) : Event → Prop
  | .message connId cmd payload requestId env =>
    cmd = str "auth.logout" → LogoutAuthorized svc env s connId payload requestId
  | _ => True

def LogoutsNameOwn (s : State A) : Event → Prop
  | .message connId cmd payload requestId _ =>
    cmd = str "auth.logout" → NamesOwnSession svc s connId payload requestId
  | _ => True

/-- Along every run, from every state: all logouts end only sessions they may end, exactly when
each names such a session or none. -/
theorem logouts_authorized_iff (s : State A) (events : List Event) :
    AllSteps (step svc) (LogoutsAuthorized svc) s events ↔
      AllSteps (step svc) (LogoutsNameOwn svc) s events := by
  apply allSteps_congr
  intro s event
  cases event with
  | connect connId now => exact Iff.rfl
  | disconnect connId => exact Iff.rfl
  | message connId cmd payload requestId env =>
    exact imp_congr_right fun _ => logout_authorized_iff svc env s connId payload requestId

end

/-- The owner of the account logs in on one connection; a stranger opens another. -/
def ownerAndStranger : List Event :=
  [.connect (str "c1") 1000,
   .message (str "c1") (str "auth.login")
     (Zone.stringField 1 (str "vera") ++ Zone.stringField 2 (str "pw")) (str "r1") oneSecond,
   .connect (str "c2") 1000]

def strangerLogout : Event :=
  .message (str "c2") (str "auth.logout") (Zone.stringField 1 (str "v")) (str "r2") oneSecond

/-- The stranger, without a login or a token, ends the owner's session. -/
theorem stranger_ends_session :
    ¬ AllSteps (step oneAccount) (LogoutsAuthorized oneAccount) emptyInstallation
      (ownerAndStranger ++ [strangerLogout]) := by
  intro h
  obtain ⟨_, _, _, hlogout, _⟩ := h
  have hbefore : Online.getSession
      (run (step oneAccount) emptyInstallation ownerAndStranger).backend.auth.sessions (str "v") =
      some (Online.newSession Jwt.plain (str "v") (str "default") oneSecond.clock.login) := by
    decide +kernel
  have hgone : Online.getSession
      (run (step oneAccount) emptyInstallation
        (ownerAndStranger ++ [strangerLogout])).backend.auth.sessions (str "v") = none := by
    decide +kernel
  rcases hlogout rfl _ _ hbefore hgone with hcarries | hself
  · exact absurd hcarries (by decide +kernel)
  · exact absurd hself (by decide +kernel)

end SwiftChat.Path
