import SwiftChat.Zone.ZoneService

/-! The `auth.*` commands: the zone's calls down to the account and the session service. -/
namespace SwiftChat.Zone
open Base

/-- The account service as its client shows it. -/
structure AuthSvr (A : Type) where
  register : A → AuthRegisterPayload → A × AuthRegisterResult
  verifyCredentials : A → (username password : Bytes) → Except Bytes Bytes
  searchUsers : A → (keyword : Bytes) → (limit : Int) → (token : Bytes) →
    Except Bytes (List FriendSearchUserPayload)

/-- The state behind the `auth.*` commands: the accounts and the login sessions. -/
structure AuthState (A : Type) where
  accounts : A
  sessions : Online.SessionDb := OrderedMap.empty

/-- The clock readings of a request, for a login and for the check of a token. -/
structure AuthClock where
  login : Online.LoginClock
  verify : Int
  now : Int

namespace OnlineRpcClient

/-- The message of a refused login is never empty at the client. -/
def login (jwt : Jwt) (db : Online.SessionDb) (userId deviceId : Bytes) (clock : Online.LoginClock) :
    Online.SessionDb × Online.LoginResult :=
  let (db, r) := Online.login jwt db userId deviceId clock
  if r.success then (db, { success := true, token := r.token, expireAt := r.expireAt })
  else (db, { error := if r.error = [] then str "login failed" else r.error })

def logout (db : Online.SessionDb) (userId token : Bytes) :
    Online.SessionDb × Online.LogoutResult :=
  let (db, r) := Online.logout db userId token
  (db, { success := r.success, error := if r.success then [] else r.error })

def validateToken (jwt : Jwt) (db : Online.SessionDb) (token : Bytes) (verify now : Int) :
    Online.SessionDb × Online.TokenResult :=
  let (db, r) := Online.validateToken jwt db token verify now
  if r.valid then (db, { valid := true, userId := r.userId }) else (db, {})

end OnlineRpcClient

section
variable {A : Type} (svr : AuthSvr A) (codec : AuthCodec) (jwt : Jwt) (clock : AuthClock)

namespace AuthSystem

def login (s : AuthState A) (req : AuthLoginPayload) : AuthState A × AuthLoginResult :=
  match svr.verifyCredentials s.accounts req.username req.password with
  | .error error => (s, { error := error })
  | .ok userId =>
    let (db, r) := OnlineRpcClient.login jwt s.sessions userId req.deviceId clock.login
    let s := { s with sessions := db }
    if ¬ r.success then (s, { error := r.error })
    else (s, { success := true, userId := userId, token := r.token, expireAt := r.expireAt })

def logout (s : AuthState A) (userId token : Bytes) : AuthState A × Online.LogoutResult :=
  let (db, r) := OnlineRpcClient.logout s.sessions userId token
  ({ s with sessions := db }, r)

/-- The empty id for a token that is not valid. -/
def validateToken (s : AuthState A) (token : Bytes) : AuthState A × Bytes :=
  let (db, r) := OnlineRpcClient.validateToken jwt s.sessions token clock.verify clock.now
  ({ s with sessions := db }, if r.valid then r.userId else [])

end AuthSystem

def authCalls : AuthCalls (AuthState A) where
  register s req :=
    let (accounts, reg) := svr.register s.accounts req
    ({ s with accounts := accounts }, reg)
  login s req := AuthSystem.login svr jwt clock s req
  logout s userId token := AuthSystem.logout s userId token
  validateToken s token := AuthSystem.validateToken jwt clock s token
  searchUsers s keyword limit token := (s, svr.searchUsers s.accounts keyword limit token)

def handleAuth (s : AuthState A) (r : ClientRequest) : AuthState A × HandleClientRequestResult :=
  (authCalls svr jwt clock).handle codec s r

/-- A logout ends the session its payload names, whoever sends it. -/
theorem handleAuth_logout {s : AuthState A} {r : ClientRequest} {req : AuthLogoutPayload}
    (hcmd : r.cmd = str "auth.logout") (hreq : codec.parseLogout r.payload = some req) (v : Bytes) :
    Online.getSession (handleAuth svr codec jwt clock s r).1.sessions v =
      if v = req.userId then none else Online.getSession s.sessions v := by
  have hregister : str "auth.logout" ≠ str "auth.register" := by decide
  have hlogin : str "auth.logout" ≠ str "auth.login" := by decide
  simp only [handleAuth, AuthCalls.handle, authCalls, hcmd, hregister, hlogin, if_false, if_true,
    parsed, hreq, AuthSystem.logout, OnlineRpcClient.logout]
  exact Online.getSession_logout

theorem handleAuth_logout_invalid {s : AuthState A} {r : ClientRequest}
    (hcmd : r.cmd = str "auth.logout") (hreq : codec.parseLogout r.payload = none) :
    (handleAuth svr codec jwt clock s r).1 = s := by
  have hregister : str "auth.logout" ≠ str "auth.register" := by decide
  have hlogin : str "auth.logout" ≠ str "auth.login" := by decide
  simp only [handleAuth, AuthCalls.handle, hcmd, hregister, hlogin, if_false, if_true, parsed, hreq]

end
end SwiftChat.Zone
