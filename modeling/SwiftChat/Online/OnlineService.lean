import SwiftChat.Base.OrderedMap
import SwiftChat.Jwt

/-! Login sessions and their tokens. -/
namespace SwiftChat.Online
open Base

structure SessionData where
  userId : Bytes := []
  deviceId : Bytes := []
  token : Bytes := []
  loginTime : Int := 0
  expireAt : Int := 0
deriving DecidableEq

abbrev SessionDb := OrderedMap Bytes SessionData

def keySession (userId : Bytes) : Bytes := str "session:" ++ userId

def getSession (db : SessionDb) (userId : Bytes) : Option SessionData := db.get (keySession userId)

def setSession (db : SessionDb) (session : SessionData) : SessionDb :=
  db.put (keySession session.userId) session

def removeSession (db : SessionDb) (userId : Bytes) : SessionDb := db.delete (keySession userId)

def tokenExpireDays : Int := 7
def msPerDay : Int := 24 * 3600 * 1000

/-- The whole seconds of a clock reading in milliseconds. -/
def seconds (ms : Int) : Int := ms / 1000

def normalizeDeviceId (deviceId : Bytes) : Bytes :=
  if deviceId = [] then str "default" else deviceId

structure LoginResult where
  success : Bool := false
  token : Bytes := []
  expireAt : Int := 0
  error : Bytes := []
deriving DecidableEq

structure LogoutResult where
  success : Bool := true
  error : Bytes := []
deriving DecidableEq

structure TokenResult where
  valid : Bool := false
  userId : Bytes := []
deriving DecidableEq

/-- The clock readings of a login, in the order they are made: the service, the verification of an
existing token, and the two readings of `GenerateToken`. -/
structure LoginClock where
  now : Int
  verify : Int
  generate : Int
  create : Int

/-- `GenerateToken` with its two clock readings: its own, and that of `JwtCreate`. -/
def generateToken (jwt : Jwt) (userId : Bytes) (now create : Int) : Bytes × Int :=
  (jwt.create userId (seconds create) (tokenExpireDays * 24), now + tokenExpireDays * msPerDay)

/-- The record of a new session. -/
def newSession (jwt : Jwt) (userId device : Bytes) (clock : LoginClock) : SessionData :=
  let (token, expireAt) := generateToken jwt userId clock.generate clock.create
  { userId := userId
    deviceId := device
    token := token
    loginTime := clock.now
    expireAt := expireAt }

/-- The part of `Login` that starts a new session. -/
def startSession (jwt : Jwt) (db : SessionDb) (userId device : Bytes) (clock : LoginClock) :
    SessionDb × LoginResult :=
  let session := newSession jwt userId device clock
  (setSession db session,
    { success := true, token := session.token, expireAt := session.expireAt })

def login (jwt : Jwt) (db : SessionDb) (userId deviceId : Bytes) (clock : LoginClock) :
    SessionDb × LoginResult :=
  if userId = [] then (db, { error := str "user_id required" })
  else
    let device := normalizeDeviceId deviceId
    match getSession db userId with
    | none => startSession jwt db userId device clock
    | some existing =>
      if existing.deviceId ≠ device then
        (db, { error := str "User already logged in on another device" })
      else if (jwt.verify existing.token (seconds clock.verify)).isSome ∧
          existing.expireAt > clock.now then
        (db, { success := true, token := existing.token, expireAt := existing.expireAt })
      else startSession jwt db userId device clock

/-- The token is not looked at. -/
def logout (db : SessionDb) (userId _token : Bytes) : SessionDb × LogoutResult :=
  match getSession db userId with
  | none => (db, { success := true })
  | some _ => (removeSession db userId, { success := true })

/-- `verify` and `now` are the clock readings of `JwtVerify` and of the service. -/
def validateToken (jwt : Jwt) (db : SessionDb) (token : Bytes) (verify now : Int) :
    SessionDb × TokenResult :=
  if token = [] then (db, {})
  else match jwt.verify token (seconds verify) with
    | none => (db, {})
    | some userId =>
      match getSession db userId with
      | none => (db, {})
      | some session =>
        if session.token ≠ token ∨ session.expireAt ≤ now then (removeSession db userId, {})
        else (db, { valid := true, userId := userId })

variable {jwt : Jwt} {db : SessionDb} {u w token device : Bytes} {s : SessionData} {c : LoginClock}
  {verify now : Int}

@[simp] theorem newSession_userId (jwt : Jwt) (u device : Bytes) (c : LoginClock) :
    (newSession jwt u device c).userId = u := rfl

/-- A login fails and changes nothing, gives out the token of the stored session again, or starts a
new session. -/
theorem login_cases (jwt : Jwt) (db : SessionDb) (u device : Bytes) (c : LoginClock) :
    ((login jwt db u device c).2.success = false ∧ (login jwt db u device c).1 = db) ∨
    (∃ s, getSession db u = some s ∧
      login jwt db u device c =
        (db, { success := true, token := s.token, expireAt := s.expireAt })) ∨
    (u ≠ [] ∧ login jwt db u device c = startSession jwt db u (normalizeDeviceId device) c) := by
  unfold login
  split
  · exact Or.inl ⟨rfl, rfl⟩
  · rename_i hu
    cases hs : getSession db u with
    | none => exact Or.inr (Or.inr ⟨hu, rfl⟩)
    | some existing =>
      dsimp only
      split
      · exact Or.inl ⟨rfl, rfl⟩
      · split
        · exact Or.inr (Or.inl ⟨existing, rfl, rfl⟩)
        · exact Or.inr (Or.inr ⟨hu, rfl⟩)

theorem keySession_inj (h : keySession u = keySession w) : u = w := List.append_cancel_left h

theorem getSession_setSession :
    getSession (setSession db s) u = if u = s.userId then some s else getSession db u := by
  unfold getSession setSession
  rw [OrderedMap.get_put]
  by_cases h : u = s.userId
  · simp [h]
  · rw [if_neg h, if_neg (fun he => h (keySession_inj he))]

theorem getSession_removeSession :
    getSession (removeSession db w) u = if u = w then none else getSession db u := by
  unfold getSession removeSession
  rw [OrderedMap.get_delete]
  by_cases h : u = w
  · simp [h]
  · rw [if_neg h, if_neg (fun he => h (keySession_inj he))]

theorem getSession_logout :
    getSession (logout db w token).1 u = if u = w then none else getSession db u := by
  unfold logout
  cases hs : getSession db w with
  | none =>
    by_cases h : u = w
    · rw [if_pos h, h]
      exact hs
    · rw [if_neg h]
  | some session => exact getSession_removeSession

/-- A login leaves the sessions of other users alone. -/
theorem getSession_login_other (hw : w ≠ u) :
    getSession (login jwt db u device c).1 w = getSession db w := by
  rcases login_cases jwt db u device c with ⟨_, hdb⟩ | ⟨_, _, hlogin⟩ | ⟨_, hlogin⟩
  · rw [hdb]
  · rw [hlogin]
  · rw [hlogin]
    exact getSession_setSession.trans (if_neg hw)

/-- What is stored of a user after a login was stored before, or is a new session. -/
theorem getSession_login (h : getSession (login jwt db u device c).1 u = some s) :
    getSession db u = some s ∨ (u ≠ [] ∧ s = newSession jwt u (normalizeDeviceId device) c) := by
  rcases login_cases jwt db u device c with ⟨_, hdb⟩ | ⟨_, _, hlogin⟩ | ⟨hu, hlogin⟩
  · exact Or.inl (hdb ▸ h)
  · rw [hlogin] at h
    exact Or.inl h
  · rw [hlogin] at h
    have hnew := getSession_setSession.symm.trans h
    rw [newSession_userId, if_pos rfl] at hnew
    exact Or.inr ⟨hu, (Option.some.inj hnew).symm⟩

/-- A check leaves no session that was not there. -/
theorem getSession_validateToken
    (h : getSession (validateToken jwt db token verify now).1 w = some s) :
    getSession db w = some s := by
  unfold validateToken at h
  split at h
  · exact h
  split at h
  · exact h
  split at h
  · exact h
  split at h
  · rw [getSession_removeSession] at h
    split at h
    · cases h
    · exact h
  · exact h

end SwiftChat.Online
