import SwiftChat.Base.Run
import SwiftChat.Online.OnlineService

/-! When a token is valid, in terms of the logins, logouts and checks that came before. -/
namespace SwiftChat.Online
open Base

/-- What a token's validity depends on: successful logins, logouts, and the presentation of a
token that still verifies as one of a user. -/
inductive LoginEvent where
  | login (userId token : Bytes) (expireAt : Int)
  | logout (userId : Bytes)
  | presented (userId token : Bytes)
deriving DecidableEq

/-- The token and expiry of the last login of `u` that is in force; the newest event is first.
It ends with a logout, and when another token of `u` is presented. -/
def currentLogin (u : Bytes) : List LoginEvent → Option (Bytes × Int)
  | [] => none
  | .login w token expireAt :: past =>
    if w = u then some (token, expireAt) else currentLogin u past
  | .logout w :: past => if w = u then none else currentLogin u past
  | .presented w token :: past =>
    if w = u ∧ (currentLogin u past).any (fun c => c.1 ≠ token) then none else currentLogin u past

inductive OnlineOp where
  | login (userId deviceId : Bytes) (clock : LoginClock)
  | logout (userId token : Bytes)
  | validate (token : Bytes) (verify now : Int)

/-- The sessions, the history that led to them, and the last clock reading. -/
structure OnlineRun where
  db : SessionDb := OrderedMap.empty
  log : List LoginEvent := []
  clock : Int

def onlineStep (jwt : Jwt) (t : OnlineRun) : OnlineOp → OnlineRun
  | .login userId deviceId clock =>
    let r := login jwt t.db userId deviceId clock
    { db := r.1
      log := if r.2.success then .login userId r.2.token r.2.expireAt :: t.log else t.log
      clock := clock.create }
  | .logout userId token =>
    { t with db := (logout t.db userId token).1, log := .logout userId :: t.log }
  | .validate token verify now =>
    { db := (validateToken jwt t.db token verify now).1
      log := match jwt.verify token (seconds verify) with
        | none => t.log
        | some userId => .presented userId token :: t.log
      clock := now }

/-- The clock does not go back, within an operation or between two. -/
def ClockForward (t : OnlineRun) : OnlineOp → Prop
  | .login _ _ c =>
    t.clock ≤ c.now ∧ c.now ≤ c.verify ∧ c.verify ≤ c.generate ∧ c.generate ≤ c.create
  | .logout _ _ => True
  | .validate _ verify now => t.clock ≤ verify ∧ verify ≤ now

/-- The end of a token that is made at this time, in seconds. -/
def tokenEnd (created : Int) : Int := seconds created + tokenExpireDays * 24 * 3600

/-- The token that a login makes is accepted exactly until its end. -/
def VerifiedToEnd (jwt : Jwt) : OnlineOp → Prop
  | .login userId _ c => userId ≠ [] → ∀ now,
    jwt.verify (jwt.create userId (seconds c.create) (tokenExpireDays * 24)) now = some userId ↔
      now ≤ tokenEnd c.create
  | _ => True

/-- A check answers valid for the token of the login in force until it expires, and touches no
session but that of the user a verifying token names. -/
def TokensRight (jwt : Jwt) (t : OnlineRun) : Prop :=
  ∀ token verify now, t.clock ≤ verify → verify ≤ now →
    (∀ u, (validateToken jwt t.db token verify now).2 = { valid := true, userId := u } ↔
      ∃ expireAt, currentLogin u t.log = some (token, expireAt) ∧ expireAt > now) ∧
    ∀ u, jwt.verify token (seconds verify) ≠ some u →
      getSession (validateToken jwt t.db token verify now).1 u = getSession t.db u

/-- How the stored sessions follow from the history. A login in force may have lost its session
only by expiring. -/
structure SessionsKnown (jwt : Jwt) (t : OnlineRun) : Prop where
  sound : ∀ u s, getSession t.db u = some s →
    currentLogin u t.log = some (s.token, s.expireAt) ∧ u ≠ [] ∧
      ∃ generated created, generated ≤ created ∧ created ≤ t.clock ∧
        (s.token, s.expireAt) = generateToken jwt u generated created
  complete : ∀ u token expireAt, currentLogin u t.log = some (token, expireAt) →
    (∃ s, getSession t.db u = some s ∧ s.token = token ∧ s.expireAt = expireAt) ∨
      expireAt ≤ t.clock

variable {jwt : Jwt} {t : OnlineRun} {u w token device : Bytes} {verify now : Int} {s : SessionData}
  {c : LoginClock} {op : OnlineOp}

/-- An end that an `int` holds is read as it was written. -/
theorem verifiedToEnd_of_fits {deviceId : Bytes} (hend : Fits 32 (tokenEnd c.create)) :
    VerifiedToEnd jwt (.login u deviceId c) := by
  intro hu now
  have hread : wrap 32 (tokenEnd c.create) = tokenEnd c.create := wrap_of_fits hend
  rw [← hread]
  exact (Jwt.verify_create_iff hu).trans (and_iff_right rfl)

/-- A token outlives its session: it still verifies while the session has not expired. -/
theorem verify_of_unexpired {generated created : Int} (hu : u ≠ []) (hle : generated ≤ created)
    (hend : tokenEnd created ≤ wrap 32 (tokenEnd created)) (hv : verify ≤ now)
    (hexp : (generateToken jwt u generated created).2 > now) :
    jwt.verify (generateToken jwt u generated created).1 (seconds verify) = some u := by
  refine (Jwt.verify_create_iff hu).mpr ⟨rfl, le_trans ?_ hend⟩
  simp only [generateToken, tokenExpireDays, msPerDay] at hexp
  simp only [tokenEnd, seconds, tokenExpireDays]
  omega

/-- The token of every stored session is accepted while the session has not expired. -/
def TokensAccepted (jwt : Jwt) (db : SessionDb) : Prop :=
  ∀ u s, getSession db u = some s → ∀ verify now, verify ≤ now → s.expireAt > now →
    jwt.verify s.token (seconds verify) = some u

/-- What is stored after an operation was stored before, or is the new session of a login. -/
theorem getSession_onlineStep (h : getSession (onlineStep jwt t op).db u = some s) :
    getSession t.db u = some s ∨ ∃ deviceId c, op = .login u deviceId c ∧ u ≠ [] ∧
      s = newSession jwt u (normalizeDeviceId deviceId) c := by
  cases op with
  | login w deviceId c =>
    by_cases hw : u = w
    · subst hw
      rcases getSession_login h with hold | ⟨hu, hnew⟩
      · exact Or.inl hold
      · exact Or.inr ⟨deviceId, c, rfl, hu, hnew⟩
    · exact Or.inl ((getSession_login_other hw).symm.trans h)
  | logout w token =>
    have hget := getSession_logout.symm.trans h
    split at hget
    · cases hget
    · exact Or.inl hget
  | validate token verify now => exact Or.inl (getSession_validateToken h)

theorem onlineStep_accepted (h : TokensAccepted jwt t.db) (hc : ClockForward t op)
    (hjwt : VerifiedToEnd jwt op) : TokensAccepted jwt (onlineStep jwt t op).db := by
  intro u s hs verify now hv hexp
  rcases getSession_onlineStep hs with hold | ⟨deviceId, c, rfl, hu, rfl⟩
  · exact h u s hold verify now hv hexp
  · -- the token is accepted at its very end, so the end is read as it was written
    have hend := (Jwt.verify_create_iff hu).mp ((hjwt hu _).mpr (Int.le_refl _))
    exact verify_of_unexpired hu hc.2.2.2 hend.2 hv hexp

theorem validateToken_valid_iff :
    (validateToken jwt t.db token verify now).2 = { valid := true, userId := u } ↔
      jwt.verify token (seconds verify) = some u ∧
        ∃ s, getSession t.db u = some s ∧ s.token = token ∧ s.expireAt > now := by
  unfold validateToken
  by_cases ht : token = []
  · simp [ht, Jwt.verify_nil]
  · rw [if_neg ht]
    cases hv : jwt.verify token (seconds verify) with
    | none => simp
    | some w =>
      cases hs : getSession t.db w with
      | none =>
        simp only [hs]
        constructor
        · intro h
          cases h
        · rintro ⟨hw, s, hs', _⟩
          rw [← Option.some.inj hw, hs] at hs'
          cases hs'
      | some s =>
        simp only [hs]
        by_cases hbad : s.token ≠ token ∨ s.expireAt ≤ now
        · rw [if_pos hbad]
          constructor
          · intro h
            cases h
          · rintro ⟨hw, s', hs', htok, hexp⟩
            rw [← Option.some.inj hw] at hs'
            obtain rfl := Option.some.inj (hs.symm.trans hs')
            rcases hbad with hbad | hbad
            · exact absurd htok hbad
            · exact absurd hexp (not_lt.mpr hbad)
        · rw [if_neg hbad]
          push Not at hbad
          constructor
          · intro h
            obtain rfl := (TokenResult.mk.inj h).2
            exact ⟨rfl, s, hs, hbad.1, hbad.2⟩
          · rintro ⟨hw, _⟩
            rw [Option.some.inj hw]

/-- A check leaves every session in place that is not of the user the token names. -/
theorem getSession_validateToken_other (h : jwt.verify token (seconds verify) ≠ some u) :
    getSession (validateToken jwt t.db token verify now).1 u = getSession t.db u := by
  unfold validateToken
  split
  · rfl
  · cases hv : jwt.verify token (seconds verify) with
    | none => rfl
    | some w =>
      have hne : u ≠ w := by
        rintro rfl
        exact h hv
      cases hs : getSession t.db w with
      | none => simp only [hs]
      | some s =>
        simp only [hs]
        split
        · rw [getSession_removeSession, if_neg hne]
        · rfl

theorem tokensRight_of_known (h : SessionsKnown jwt t) (haccepted : TokensAccepted jwt t.db) :
    TokensRight jwt t := by
  intro token verify now hclock hv
  refine ⟨?_, fun u hu => getSession_validateToken_other hu⟩
  intro u
  rw [validateToken_valid_iff]
  constructor
  · rintro ⟨_, s, hs, rfl, hexp⟩
    exact ⟨s.expireAt, (h.sound u s hs).1, hexp⟩
  · rintro ⟨expireAt, hcur, hexp⟩
    rcases h.complete u token expireAt hcur with ⟨s, hs, rfl, rfl⟩ | hpast
    · exact ⟨haccepted u s hs verify now hv hexp, s, hs, rfl, hexp⟩
    · omega

/-! Each operation keeps the link between sessions and history. -/

/-- A session that stays is known as before, when its login stays in force. -/
theorem SessionsKnown.sound_later (h : SessionsKnown jwt t) (hs : getSession t.db u = some s)
    {log : List LoginEvent} {clock : Int} (hlog : currentLogin u log = currentLogin u t.log)
    (hclock : t.clock ≤ clock) :
    currentLogin u log = some (s.token, s.expireAt) ∧ u ≠ [] ∧
      ∃ generated created, generated ≤ created ∧ created ≤ clock ∧
        (s.token, s.expireAt) = generateToken jwt u generated created := by
  obtain ⟨hcur, hu, generated, created, hle, hpast, htoken⟩ := h.sound u s hs
  exact ⟨hlog.trans hcur, hu, generated, created, hle, hpast.trans hclock, htoken⟩

/-- The start of a session replaces whatever was there. -/
theorem startSession_known (h : SessionsKnown jwt t) (hu : u ≠ []) (hc : c.generate ≤ c.create)
    (hclock : t.clock ≤ c.create) :
    SessionsKnown jwt
      { db := setSession t.db (newSession jwt u device c)
        log := .login u (newSession jwt u device c).token (newSession jwt u device c).expireAt :: t.log
        clock := c.create } where
  sound := by
    intro w s hs
    rw [getSession_setSession, newSession_userId] at hs
    by_cases hw : w = u
    · rw [if_pos hw] at hs
      obtain rfl := Option.some.inj hs
      rw [hw]
      exact ⟨by simp [currentLogin], hu, c.generate, c.create, hc, le_rfl, rfl⟩
    · rw [if_neg hw] at hs
      exact h.sound_later hs (by simp [currentLogin, Ne.symm hw]) hclock
  complete := by
    intro w token expireAt hcur
    rw [getSession_setSession, newSession_userId]
    by_cases hw : w = u
    · refine Or.inl ⟨newSession jwt u device c, if_pos hw, ?_⟩
      simp only [currentLogin, hw, if_true, Option.some.injEq, Prod.mk.injEq] at hcur
      exact ⟨hcur.1, hcur.2⟩
    · simp only [currentLogin, Ne.symm hw, if_false] at hcur
      rcases h.complete w token expireAt hcur with ⟨s, hs, hrest⟩ | hpast
      · exact Or.inl ⟨s, (if_neg hw).trans hs, hrest⟩
      · exact Or.inr (hpast.trans hclock)

/-- Time may pass, and a login may confirm what is in force. -/
theorem SessionsKnown.of_same (h : SessionsKnown jwt t) {log : List LoginEvent} {clock : Int}
    (hlog : ∀ u, currentLogin u log = currentLogin u t.log) (hclock : t.clock ≤ clock) :
    SessionsKnown jwt { db := t.db, log := log, clock := clock } where
  sound := by
    intro u s hs
    exact h.sound_later hs (hlog u) hclock
  complete := by
    intro u token expireAt hcur
    rw [hlog] at hcur
    rcases h.complete u token expireAt hcur with hs | hpast
    · exact Or.inl hs
    · exact Or.inr (hpast.trans hclock)

theorem login_known {deviceId : Bytes} (h : SessionsKnown jwt t)
    (hc : ClockForward t (.login u deviceId c)) :
    SessionsKnown jwt (onlineStep jwt t (.login u deviceId c)) := by
  obtain ⟨h1, h2, h3, h4⟩ := hc
  have hclock : t.clock ≤ c.create := by omega
  simp only [onlineStep, login]
  by_cases hu : u = []
  · simp only [hu, if_true]
    exact h.of_same (fun _ => rfl) hclock
  · simp only [hu, if_false]
    cases hs : getSession t.db u with
    | none => exact startSession_known h hu h4 hclock
    | some existing =>
      simp only
      by_cases hdev : existing.deviceId = normalizeDeviceId deviceId
      · simp only [hdev, ne_eq, not_true_eq_false, if_false]
        by_cases hreuse : (jwt.verify existing.token (seconds c.verify)).isSome ∧
            existing.expireAt > c.now
        · simp only [hreuse, and_self, if_true]
          refine h.of_same ?_ hclock
          intro w
          by_cases hw : u = w
          · simp [currentLogin, hw, ← hw ▸ (h.sound u existing hs).1]
          · simp [currentLogin, hw]
        · simp only [hreuse, if_false]
          exact startSession_known h hu h4 hclock
      · simp only [hdev, ne_eq, not_false_eq_true, if_true]
        exact h.of_same (fun _ => rfl) hclock

theorem logout_known (h : SessionsKnown jwt t) :
    SessionsKnown jwt (onlineStep jwt t (.logout u token)) where
  sound := by
    intro w s hs
    have hs' : getSession (logout t.db u token).1 w = some s := hs
    rw [getSession_logout] at hs'
    by_cases hw : w = u
    · rw [if_pos hw] at hs'
      cases hs'
    · rw [if_neg hw] at hs'
      exact h.sound_later hs' (by simp [onlineStep, currentLogin, Ne.symm hw]) le_rfl
  complete := by
    intro w tok expireAt hcur
    by_cases hw : w = u
    · simp [onlineStep, currentLogin, hw] at hcur
    · simp only [onlineStep, currentLogin, Ne.symm hw, if_false] at hcur
      rcases h.complete w tok expireAt hcur with ⟨s, hs, hrest⟩ | hpast
      · refine Or.inl ⟨s, ?_, hrest⟩
        simp only [onlineStep]
        rw [getSession_logout, if_neg hw, hs]
      · exact Or.inr hpast

/-- Presenting a token of `u` ends the login in force unless it is that login's token. -/
theorem currentLogin_presented :
    currentLogin w (.presented u token :: t.log) =
      if u = w ∧ (currentLogin w t.log).any (fun c => c.1 ≠ token) then none
      else currentLogin w t.log := rfl

/-- A token of a user without a session ends nothing. -/
theorem SessionsKnown.presented_absent (h : SessionsKnown jwt t) (hs : getSession t.db u = none)
    (hclock : t.clock ≤ now) :
    SessionsKnown jwt { db := t.db, log := .presented u token :: t.log, clock := now } where
  sound := by
    intro w s hw
    have hne : u ≠ w := by
      rintro rfl
      rw [hs] at hw
      cases hw
    refine h.sound_later hw ?_ hclock
    rw [currentLogin_presented, if_neg (fun hbad => hne hbad.1)]
  complete := by
    intro w tok expireAt hcur
    rw [currentLogin_presented] at hcur
    split at hcur
    · cases hcur
    · rcases h.complete w tok expireAt hcur with hok | hpast
      · exact Or.inl hok
      · exact Or.inr (hpast.trans hclock)

/-- A session is removed when its login is over: another token was presented, or it expired. -/
theorem SessionsKnown.presented_removed (h : SessionsKnown jwt t) (hs : getSession t.db u = some s)
    (hclock : t.clock ≤ now) (hbad : s.token ≠ token ∨ s.expireAt ≤ now) :
    SessionsKnown jwt
      { db := removeSession t.db u, log := .presented u token :: t.log, clock := now } where
  sound := by
    intro w s' hw
    rw [getSession_removeSession] at hw
    by_cases hne : w = u
    · rw [if_pos hne] at hw
      cases hw
    · rw [if_neg hne] at hw
      refine h.sound_later hw ?_ hclock
      rw [currentLogin_presented, if_neg (fun hbad => hne hbad.1.symm)]
  complete := by
    intro w tok expireAt hcur
    rw [currentLogin_presented] at hcur
    by_cases hne : w = u
    · rw [hne] at hcur
      split at hcur
      · cases hcur
      · rename_i hsame
        rw [(h.sound u s hs).1] at hcur hsame
        obtain ⟨rfl, rfl⟩ := Prod.mk.inj (Option.some.inj hcur)
        rcases hbad with hbad | hbad
        · exact absurd ⟨rfl, by simpa using hbad⟩ hsame
        · exact Or.inr hbad
    · rw [if_neg (fun hbad => hne hbad.1.symm)] at hcur
      rcases h.complete w tok expireAt hcur with ⟨s', hw, hrest⟩ | hpast
      · exact Or.inl ⟨s', by rw [getSession_removeSession, if_neg hne, hw], hrest⟩
      · exact Or.inr (hpast.trans hclock)

/-- The token of the login in force ends nothing either. -/
theorem SessionsKnown.presented_same (h : SessionsKnown jwt t) (hs : getSession t.db u = some s)
    (hclock : t.clock ≤ now) (htok : s.token = token) :
    SessionsKnown jwt { db := t.db, log := .presented u token :: t.log, clock := now } := by
  refine h.of_same ?_ hclock
  intro w
  rw [currentLogin_presented, if_neg]
  rintro ⟨rfl, hother⟩
  rw [(h.sound u s hs).1] at hother
  exact absurd htok (by simpa using hother)

theorem validate_known (h : SessionsKnown jwt t) (hc : ClockForward t (.validate token verify now)) :
    SessionsKnown jwt (onlineStep jwt t (.validate token verify now)) := by
  have hclock : t.clock ≤ now := hc.1.trans hc.2
  simp only [onlineStep, validateToken]
  by_cases ht : token = []
  · simp only [ht, if_true, Jwt.verify_nil]
    exact h.of_same (fun _ => rfl) hclock
  · simp only [ht, if_false]
    cases hv : jwt.verify token (seconds verify) with
    | none => exact h.of_same (fun _ => rfl) hclock
    | some u =>
      simp only
      cases hs : getSession t.db u with
      | none => exact h.presented_absent hs hclock
      | some session =>
        simp only
        by_cases hbad : session.token ≠ token ∨ session.expireAt ≤ now
        · rw [if_pos hbad]
          exact h.presented_removed hs hclock hbad
        · rw [if_neg hbad]
          push Not at hbad
          exact h.presented_same hs hclock hbad.1

theorem sessionsKnown_start (jwt : Jwt) (start : Int) : SessionsKnown jwt { clock := start } where
  sound u s h := by cases h
  complete u token expireAt h := by cases h

theorem onlineStep_known (h : SessionsKnown jwt t) (hc : ClockForward t op) :
    SessionsKnown jwt (onlineStep jwt t op) := by
  cases op with
  | login u deviceId c => exact login_known h hc
  | logout u token => exact logout_known h
  | validate token verify now => exact validate_known h hc

/-- In every run with a clock that does not go back, whose tokens are accepted exactly until their
end, and in every state of it: a check answers valid with `u` exactly for the token of the login of
`u` that is in force and has not expired, and leaves the sessions of all users in place that the
token does not verify for. -/
theorem tokens_right (jwt : Jwt) (start : Int) (ops : List OnlineOp)
    (hops : AllSteps (onlineStep jwt) ClockForward { clock := start } ops)
    (hjwt : ∀ op ∈ ops, VerifiedToEnd jwt op) :
    Always (onlineStep jwt) (TokensRight jwt) { clock := start } ops := by
  have hsteps := hops.and (allSteps_of_mem (Q := VerifiedToEnd jwt) hjwt)
  have hboth : Always (onlineStep jwt) (fun t => SessionsKnown jwt t ∧ TokensAccepted jwt t.db)
      { clock := start } ops := by
    refine always_of_allSteps ?_ ⟨sessionsKnown_start jwt start, ?_⟩ hsteps
    · rintro t op ⟨hknown, haccepted⟩ ⟨hc, hop⟩
      exact ⟨onlineStep_known hknown hc, onlineStep_accepted haccepted hc hop⟩
    · intro u s hs
      cases hs
  intro pre hpre
  exact tokensRight_of_known (hboth pre hpre).1 (hboth pre hpre).2

/-- A user logs in, logs out and logs in again one second later. -/
def loginTwice : List OnlineOp :=
  [.login (str "u") [] ⟨1000, 1000, 1000, 1000⟩, .logout (str "u") [],
    .login (str "u") [] ⟨2000, 2000, 2000, 2000⟩]

def firstToken : Bytes := Jwt.plain.create (str "u") 1 168

def secondToken : Bytes := Jwt.plain.create (str "u") 2 168

theorem clockForward_loginTwice :
    AllSteps (onlineStep Jwt.plain) ClockForward { clock := 0 } loginTwice := by
  refine ⟨?_, trivial, ?_, trivial⟩
  · simp [ClockForward]
  · simp [ClockForward, onlineStep]

theorem verifiedToEnd_loginTwice : ∀ op ∈ loginTwice, VerifiedToEnd Jwt.plain op := by
  intro op hop
  simp only [loginTwice, List.mem_cons, List.not_mem_nil, or_false] at hop
  rcases hop with rfl | rfl | rfl
  · exact verifiedToEnd_of_fits (by decide)
  · trivial
  · exact verifiedToEnd_of_fits (by decide)

theorem tokens_right_second :
    (validateToken Jwt.plain (run (onlineStep Jwt.plain) { clock := 0 } loginTwice).db secondToken 3000
      3000).2 = { valid := true, userId := str "u" } := by
  have h := tokens_right Jwt.plain 0 loginTwice clockForward_loginTwice verifiedToEnd_loginTwice
    loginTwice (List.prefix_refl _)
  refine ((h secondToken 3000 3000 ?_ le_rfl).1 (str "u")).mpr ⟨604802000, ?_, ?_⟩
  · decide
  · decide +kernel
  · decide

/-- Presenting the token of the first login ends the session of the second. -/
theorem old_token_ends_session :
    AllSteps (onlineStep Jwt.plain) ClockForward { clock := 0 } loginTwice ∧
      (∀ op ∈ loginTwice, VerifiedToEnd Jwt.plain op) ∧
      (let db := (run (onlineStep Jwt.plain) { clock := 0 } loginTwice).db
       let after := (validateToken Jwt.plain db firstToken 3000 3000).1
       firstToken ≠ secondToken ∧ (getSession db (str "u")).map (·.token) = some secondToken ∧
         getSession after (str "u") = none ∧
         (validateToken Jwt.plain after secondToken 3000 3000).2.valid = false) := by
  refine ⟨clockForward_loginTwice, verifiedToEnd_loginTwice, ?_⟩
  decide +kernel

end SwiftChat.Online
