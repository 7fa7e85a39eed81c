import SwiftChat.Online.Validity

/-! Whether a session that has expired keeps its user out. -/
namespace SwiftChat.Online
open Base
variable {jwt : Jwt} {t : OnlineRun} {u device : Bytes} {s : SessionData} {c : LoginClock}
  {op : OnlineOp}

/-- The session is over for the clock of a login: it has expired, or its token no longer verifies. -/
def Expired (jwt : Jwt) (s : SessionData) (c : LoginClock) : Prop :=
  s.expireAt ≤ c.now ∨ jwt.verify s.token (seconds c.verify) = none

instance (jwt : Jwt) (s : SessionData) (c : LoginClock) : Decidable (Expired jwt s c) :=
  inferInstanceAs (Decidable (_ ∨ _))

/-- The login succeeds, and checks accept its token until it expires. -/
def LetsIn (jwt : Jwt) (db : SessionDb) (userId deviceId : Bytes) (c : LoginClock) : Prop :=
  let (db', result) := login jwt db userId deviceId c
  result.success = true ∧ ∀ verify now, c.create ≤ verify → verify ≤ now → now < result.expireAt →
    (validateToken jwt db' result.token verify now).2 = { valid := true, userId := userId }

/-- A login of a user whose stored session is over lets the user in. -/
def NotLockedOut (jwt : Jwt) (t : OnlineRun) : OnlineOp → Prop
  | .login userId deviceId c =>
    ∀ s, getSession t.db userId = some s → Expired jwt s c → LetsIn jwt t.db userId deviceId c
  | _ => True

/-- A login that finds a session that is over comes from the device of that session. -/
def SameDevice (jwt : Jwt) (t : OnlineRun) : OnlineOp → Prop
  | .login userId deviceId c =>
    ∀ s, getSession t.db userId = some s → Expired jwt s c → s.deviceId = normalizeDeviceId deviceId
  | _ => True

/-- The new token of a login that finds a session that is over has an end that is an `int`, unless
the new session is over when the login returns. -/
def InTime (jwt : Jwt) (t : OnlineRun) : OnlineOp → Prop
  | .login userId _ c =>
    ∀ s, getSession t.db userId = some s → Expired jwt s c →
      c.create < c.generate + tokenExpireDays * msPerDay → tokenEnd c.create < 2 ^ 31
  | _ => True

/-- A new session lets its user in, if it is not over at once, when the end of its token is an
`int`. -/
theorem startSession_letsIn_iff {db : SessionDb} (hu : u ≠ []) (hc : c.generate ≤ c.create)
    (hlogin : login jwt db u device c = startSession jwt db u (normalizeDeviceId device) c) :
    LetsIn jwt db u device c ↔
      (c.create < c.generate + tokenExpireDays * msPerDay → tokenEnd c.create < 2 ^ 31) := by
  unfold LetsIn
  rw [hlogin]
  let t : OnlineRun := { db := (startSession jwt db u (normalizeDeviceId device) c).1, clock := 0 }
  have hs : getSession t.db u = some (newSession jwt u (normalizeDeviceId device) c) := by
    change getSession (setSession db _) u = _
    rw [getSession_setSession, newSession_userId, if_pos rfl]
  constructor
  · rintro ⟨_, hvalid⟩ hnow
    by_contra hend
    -- the end is read as a number that has passed
    obtain ⟨hverify, _⟩ := (validateToken_valid_iff (t := t)).mp
      (hvalid c.create c.create le_rfl le_rfl hnow)
    have hread := ((Jwt.verify_create_iff hu).mp hverify).2
    have hpast := wrap_le_of_ge (not_lt.mp hend)
    simp only [tokenEnd, tokenExpireDays] at hpast hend
    simp only [tokenExpireDays] at hread
    omega
  · intro hend
    refine ⟨rfl, ?_⟩
    intro verify now hcreate hverify hexp
    have hnow : c.create < c.generate + tokenExpireDays * msPerDay :=
      lt_of_le_of_lt (hcreate.trans hverify) hexp
    refine (validateToken_valid_iff (t := t)).mpr ⟨?_, _, hs, rfl, hexp⟩
    exact verify_of_unexpired hu hc (le_wrap_of_lt (hend hnow)) hverify hexp

/-- A session that is over is replaced from its own device and from no other. -/
theorem login_expired (device : Bytes) (hu : u ≠ []) (hs : getSession t.db u = some s)
    (hover : Expired jwt s c) :
    login jwt t.db u device c =
      if s.deviceId = normalizeDeviceId device then
        startSession jwt t.db u (normalizeDeviceId device) c
      else (t.db, { error := str "User already logged in on another device" }) := by
  have hno : ¬ ((jwt.verify s.token (seconds c.verify)).isSome ∧ s.expireAt > c.now) := by
    rintro ⟨hv, hexp⟩
    rcases hover with hover | hover
    · omega
    · rw [hover] at hv
      cases hv
  simp only [login, hu, if_false, hs, hno]
  by_cases hd : s.deviceId = normalizeDeviceId device
  · rw [if_neg (not_not_intro hd), if_pos hd]
  · rw [if_pos hd, if_neg hd]

theorem notLockedOut_iff (h : SessionsKnown jwt t) (hc : ClockForward t op) :
    NotLockedOut jwt t op ↔ SameDevice jwt t op ∧ InTime jwt t op := by
  cases op with
  | logout => exact iff_of_true trivial ⟨trivial, trivial⟩
  | validate => exact iff_of_true trivial ⟨trivial, trivial⟩
  | login u device c =>
    have hlogin : ∀ s, getSession t.db u = some s → Expired jwt s c →
        (LetsIn jwt t.db u device c ↔ s.deviceId = normalizeDeviceId device ∧
          (c.create < c.generate + tokenExpireDays * msPerDay → tokenEnd c.create < 2 ^ 31)) := by
      intro s hs hover
      have hu : u ≠ [] := (h.sound u s hs).2.1
      have hlogin := login_expired device hu hs hover
      by_cases hd : s.deviceId = normalizeDeviceId device
      · rw [if_pos hd] at hlogin
        rw [startSession_letsIn_iff hu hc.2.2.2 hlogin, and_iff_right hd]
      · rw [if_neg hd] at hlogin
        refine iff_of_false ?_ (fun hboth => hd hboth.1)
        intro hin
        unfold LetsIn at hin
        rw [hlogin] at hin
        cases hin.1
    constructor
    · intro hin
      exact ⟨fun s hs hover => ((hlogin s hs hover).mp (hin s hs hover)).1,
        fun s hs hover => ((hlogin s hs hover).mp (hin s hs hover)).2⟩
    · rintro ⟨hdevice, htime⟩ s hs hover
      exact (hlogin s hs hover).mpr ⟨hdevice s hs hover, htime s hs hover⟩

/-- In every run, a session that is over keeps nobody out exactly when every login that finds one
comes from its device, and makes a token whose end is an `int`. -/
theorem notLockedOut_runs_iff (jwt : Jwt) (start : Int) (ops : List OnlineOp)
    (hops : AllSteps (onlineStep jwt) ClockForward { clock := start } ops) :
    AllSteps (onlineStep jwt) (NotLockedOut jwt) { clock := start } ops ↔
      AllSteps (onlineStep jwt) (fun t op => SameDevice jwt t op ∧ InTime jwt t op)
        { clock := start } ops := by
  have hstep : ∀ t op, SessionsKnown jwt t → ClockForward t op → SessionsKnown jwt (onlineStep jwt t op) :=
    fun _ _ h hc => onlineStep_known h hc
  constructor
  · intro hin
    exact (hops.and hin).imp (fun t op h hc => hstep t op h hc.1)
      (fun t op h hc => (notLockedOut_iff h hc.1).mp hc.2) (sessionsKnown_start jwt start)
  · intro hsame
    exact (hops.and hsame).imp (fun t op h hc => hstep t op h hc.1)
      (fun t op h hc => (notLockedOut_iff h hc.1).mpr hc.2) (sessionsKnown_start jwt start)

/-- A user logs in from a phone, and eight days later from a device. -/
def returnsFrom (device : Bytes) : List OnlineOp :=
  [.login (str "u") (str "phone") ⟨1000, 1000, 1000, 1000⟩,
    .login (str "u") device ⟨691201000, 691201000, 691201000, 691201000⟩]

theorem clockForward_returns (device : Bytes) :
    AllSteps (onlineStep Jwt.plain) ClockForward { clock := 0 } (returnsFrom device) := by
  refine ⟨?_, ?_, trivial⟩
  · simp [ClockForward]
  · simp [ClockForward, onlineStep]

/-- The same phone is let in. -/
theorem phone_let_in :
    AllSteps (onlineStep Jwt.plain) (NotLockedOut Jwt.plain) { clock := 0 } (returnsFrom (str "phone")) := by
  apply (notLockedOut_runs_iff Jwt.plain 0 _ (clockForward_returns _)).mpr
  refine ⟨⟨?_, ?_⟩, ⟨?_, ?_⟩, trivial⟩
  · intro s hs
    cases hs
  · intro s hs
    cases hs
  · intro s hs _
    obtain rfl := Option.some.inj hs
    rfl
  · intro s _ _ _
    decide

/-- A new device is kept out by the session that expired a day before. -/
theorem tablet_locked_out :
    AllSteps (onlineStep Jwt.plain) ClockForward { clock := 0 } (returnsFrom (str "tablet")) ∧
    ¬ AllSteps (onlineStep Jwt.plain) (NotLockedOut Jwt.plain) { clock := 0 }
      (returnsFrom (str "tablet")) := by
  refine ⟨clockForward_returns _, ?_⟩
  rintro ⟨_, hin, _⟩
  exact absurd (hin _ rfl (Or.inl (by decide))).1 (by decide +kernel)

end SwiftChat.Online
