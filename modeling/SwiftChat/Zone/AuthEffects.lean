import SwiftChat.Auth.AuthHandler
import SwiftChat.Zone.AuthSystem
import SwiftChat.Zone.Effects

/-! The account service behind the zone, and what the requests for `auth.*` do to accounts and
sessions. -/
namespace SwiftChat.Zone
open Base Auth

def AuthRegisterPayload.registration (req : AuthRegisterPayload) : Registration where
  username := req.username
  password := req.password
  nickname := req.nickname
  email := req.email
  avatarUrl := req.avatarUrl

def searchUserPayload (p : AuthProfile) : FriendSearchUserPayload where
  userId := p.userId
  username := p.username
  nickname := p.nickname
  avatarUrl := p.avatarUrl
  signature := p.signature
  gender := p.gender

section
variable (sha256 : Bytes → Bytes) (jwt : Jwt)

/-! Only the search passes the token of the connection on. -/
namespace AuthRpcClient

def register (db : UserDb) (req : AuthRegisterPayload) (random : RandomString 12) (nowMs : Int) :
    UserDb × AuthRegisterResult :=
  let (db, resp) := AuthHandler.register sha256 db req.registration random nowMs
  (db, match resp.result (str "register failed") with
    | .error error => { error := error, errorCode := resp.code }
    | .ok userId => { success := true, userId := userId })

def verifyCredentials (db : UserDb) (username password : Bytes) : Except Bytes Bytes :=
  ((AuthHandler.verifyCredentials sha256 db username password).result (str "auth failed")).map
    VerifyCredentialsReply.userId

/-- Nothing is asked for without a keyword. -/
def searchUsers (db : UserDb) (now : Int) (keyword : Bytes) (limit : Int) (token : Bytes) :
    Except Bytes (List FriendSearchUserPayload) :=
  if keyword = [] then .ok []
  else
    ((AuthHandler.searchUsers jwt (createContext token) db now keyword
      (if limit > 0 then limit else 20)).result (str "search users failed")).map
        (List.map searchUserPayload)

end AuthRpcClient

/-- The account service, with what one registration draws. -/
def authSvr (random : RandomString 12) (nowMs : Int) : AuthSvr UserDb where
  register db req := AuthRpcClient.register sha256 db req random nowMs
  verifyCredentials db username password :=
    AuthRpcClient.verifyCredentials sha256 db username password
  searchUsers db keyword limit token :=
    AuthRpcClient.searchUsers jwt db (Online.seconds nowMs) keyword limit token

end

section
variable {sha256 : Bytes → Bytes} {db : UserDb} {random : RandomString 12} {nowMs : Int}
  {req : AuthRegisterPayload} {username password u : Bytes}

/-- The user that is registered, when the call succeeds. -/
def registeredUser (sha256 : Bytes → Bytes) (req : AuthRegisterPayload) (random : RandomString 12)
    (nowMs : Int) : UserData :=
  AuthService.newUser sha256 req.registration random nowMs

/-- A registration leaves the accounts as they are, or adds the record of the new user and the
entry of its name. -/
theorem register_cases (sha256 : Bytes → Bytes) (db : UserDb) (req : AuthRegisterPayload)
    (random : RandomString 12) (nowMs : Int) :
    ((AuthRpcClient.register sha256 db req random nowMs).2.success = false ∧
      (AuthRpcClient.register sha256 db req random nowMs).1 = db) ∨
    ((AuthRpcClient.register sha256 db req random nowMs).2 =
        { success := true, userId := AuthService.generateUserId random } ∧
      validateUsername req.username = true ∧
      (AuthRpcClient.register sha256 db req random nowMs).1 =
        (db.put (keyUser (AuthService.generateUserId random))
          (serializeUser (registeredUser sha256 req random nowMs))).put
            (keyUsername req.username) (.text (AuthService.generateUserId random))) := by
  simp only [AuthRpcClient.register, AuthHandler.register, AuthService.register]
  by_cases hname : validateUsername req.registration.username = true
  swap
  · rw [if_pos hname]
    exact Or.inl ⟨rfl, rfl⟩
  rw [if_neg (not_not_intro hname)]
  by_cases hpassword : validatePassword req.registration.password = true
  swap
  · rw [if_pos hpassword]
    exact Or.inl ⟨rfl, rfl⟩
  rw [if_neg (not_not_intro hpassword)]
  cases hfree : UserStore.usernameExists db req.registration.username with
  | true => exact Or.inl ⟨rfl, rfl⟩
  | false =>
    have hcreate : UserStore.create db (AuthService.newUser sha256 req.registration random nowMs) =
        ((db.put (keyUser (AuthService.generateUserId random))
          (serializeUser (registeredUser sha256 req random nowMs))).put
            (keyUsername req.username) (.text (AuthService.generateUserId random)), true) := by
      have hfree' : UserStore.usernameExists db
          (AuthService.newUser sha256 req.registration random nowMs).username = false := hfree
      rw [UserStore.create, hfree']
      rfl
    rw [hcreate]
    exact Or.inr ⟨rfl, hname, rfl⟩

theorem verifyCredentials_success
    (h : (AuthService.verifyCredentials sha256 db username password).success = true) :
    ∃ user, UserStore.getByUsername db username = some user ∧
      (AuthService.verifyCredentials sha256 db username password).userId = user.userId ∧
      user.passwordHash = AuthService.hashPassword sha256 password := by
  unfold AuthService.verifyCredentials at h ⊢
  cases huser : UserStore.getByUsername db username with
  | none => simp [huser] at h
  | some user =>
    by_cases hp : AuthService.verifyPassword sha256 password user.passwordHash = true
    · refine ⟨user, rfl, ?_, (of_decide_eq_true hp).symm⟩
      simp [hp]
    · simp [huser, hp] at h

/-- A password is accepted for the user that the name leads to, by the hash in its record. -/
theorem verifyCredentials_ok
    (h : AuthRpcClient.verifyCredentials sha256 db username password = .ok u) :
    ∃ user, UserStore.getByUsername db username = some user ∧ user.userId = u ∧
      user.passwordHash = AuthService.hashPassword sha256 password := by
  simp only [AuthRpcClient.verifyCredentials, AuthHandler.verifyCredentials] at h
  by_cases hs : (AuthService.verifyCredentials sha256 db username password).success = true
  · obtain ⟨user, huser, hid, hhash⟩ := verifyCredentials_success hs
    rw [if_pos hs, hid] at h
    exact ⟨user, huser, Except.ok.inj h, hhash⟩
  · rw [if_neg hs] at h
    have hcode : errorCodeToInt
        (AuthService.verifyCredentials sha256 db username password).errorCode ≠ 0 := by
      rw [ne_eq, errorCodeToInt_eq_zero]
      intro hok
      unfold AuthService.verifyCredentials at hs hok
      cases huser : UserStore.getByUsername db username with
      | none => simp [huser] at hok
      | some user =>
        by_cases hp : AuthService.verifyPassword sha256 password user.passwordHash = true
        · simp [huser, hp] at hs
        · simp [huser, hp] at hok
    simp only [RpcResponse.result, RpcResponse.fail, hcode, ne_eq, not_false_eq_true, if_true,
      Except.map] at h
    cases h

end

/-- The requests for `auth.*` work on accounts and sessions alone. -/
theorem handleAuth_lifted {S A : Type} {svr : AuthSvr A} {jwt : Jwt} {clock : AuthClock}
    {z : ZoneService S} {m : SystemManager S} {part : Part S (AuthState A)}
    (hm : m.auth = some ((authCalls svr jwt clock).lift part)) (s : S) (r : ClientRequest) :
    z.handleAuth m s r =
      part.lift (fun a => handleAuth svr z.codecs.auth jwt clock a r) s := by
  rw [ZoneService.handleAuth, hm]
  exact AuthCalls.lift_handle (authCalls svr jwt clock) z.codecs.auth

end SwiftChat.Zone
