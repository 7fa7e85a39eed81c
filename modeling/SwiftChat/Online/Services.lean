import SwiftChat.Grpc
import SwiftChat.Online.Validity
import SwiftChat.Token.HelperJwt

/-! What the business services accept, beside what the session service finds valid. -/
namespace SwiftChat.Online
open Base
variable {jwt : Jwt} {t : OnlineRun} {u token : Bytes} {metadata : Metadata} {expireAt : Int}

/-- The services look at the signature and the expiry of a token alone, as `JwtVerify` reads it.
Nothing is valid that they refuse, and what is valid is besides the token of the login in force; but
while the ends of tokens are values of an `int`, a token that a login gave out is accepted until it
expires, whatever became of the login. -/
structure StatelessAccess (jwt : Jwt) (t : OnlineRun) : Prop where
  accepts_iff : ∀ metadata verify u,
    (u ≠ [] ∧ getAuthenticatedUserId jwt metadata (seconds verify) = u ↔
      ∃ exp, jwt.read (getTokenFromContext metadata) = some (u, exp) ∧ seconds verify ≤ exp)
  valid_iff : ∀ metadata verify now u, t.clock ≤ verify → verify ≤ now →
    ((validateToken jwt t.db (getTokenFromContext metadata) verify now).2 =
        { valid := true, userId := u } ↔
      (u ≠ [] ∧ getAuthenticatedUserId jwt metadata (seconds verify) = u) ∧
        ∃ expireAt, currentLogin u t.log = some (getTokenFromContext metadata, expireAt) ∧
          expireAt > now)
  outlives : tokenEnd t.clock < 2 ^ 31 →
    ∀ u token expireAt, LoginEvent.login u token expireAt ∈ t.log →
      ∀ metadata verify, getTokenFromContext metadata = token → verify < expireAt →
        getAuthenticatedUserId jwt metadata (seconds verify) = u

theorem getAuthenticatedUserId_eq_iff {now : Int} :
    u ≠ [] ∧ getAuthenticatedUserId jwt metadata now = u ↔
      jwt.verify (getTokenFromContext metadata) now = some u := by
  unfold getAuthenticatedUserId
  by_cases htoken : getTokenFromContext metadata = []
  · simp only [htoken, if_true, Jwt.verify_nil]
    constructor
    · rintro ⟨hne, rfl⟩
      exact absurd rfl hne
    · intro h
      cases h
  · simp only [htoken, if_false]
    cases hv : jwt.verify (getTokenFromContext metadata) now with
    | none =>
      constructor
      · rintro ⟨hne, rfl⟩
        exact absurd rfl hne
      · intro h
        cases h
    | some w =>
      have hw := Jwt.verify_ne_nil hv
      constructor
      · rintro ⟨_, rfl⟩
        rfl
      · intro h
        obtain rfl := Option.some.inj h
        exact ⟨hw, rfl⟩

/-- What a login gives out was made for its user, no earlier than its expiry was set and no later
than now. -/
def Issued (jwt : Jwt) (t : OnlineRun) : Prop :=
  ∀ u token expireAt, LoginEvent.login u token expireAt ∈ t.log →
    u ≠ [] ∧ ∃ generated created, generated ≤ created ∧ created ≤ t.clock ∧
      (token, expireAt) = generateToken jwt u generated created

theorem Issued.later {log : List LoginEvent} {clock : Int} (db : SessionDb) (h : Issued jwt t)
    (hclock : t.clock ≤ clock)
    (hlog : ∀ u token expireAt, LoginEvent.login u token expireAt ∈ log →
      LoginEvent.login u token expireAt ∈ t.log) :
    Issued jwt { db := db, log := log, clock := clock } := by
  intro u token expireAt hmem
  obtain ⟨hu, generated, created, hle, hpast, htoken⟩ := h u token expireAt (hlog _ _ _ hmem)
  exact ⟨hu, generated, created, hle, hpast.trans hclock, htoken⟩

theorem login_issued {c : LoginClock} {deviceId : Bytes} (h : SessionsKnown jwt t)
    (hc : ClockForward t (.login u deviceId c))
    (hsuccess : (login jwt t.db u deviceId c).2.success = true) :
    u ≠ [] ∧ ∃ generated created, generated ≤ created ∧ created ≤ c.create ∧
      ((login jwt t.db u deviceId c).2.token, (login jwt t.db u deviceId c).2.expireAt) =
        generateToken jwt u generated created := by
  obtain ⟨h1, h2, h3, h4⟩ := hc
  rcases login_cases jwt t.db u deviceId c with ⟨hfail, _⟩ | ⟨s, hs, hlogin⟩ | ⟨hu, hlogin⟩
  · rw [hfail] at hsuccess
    cases hsuccess
  · obtain ⟨_, hu, generated, created, hle, hpast, htoken⟩ := h.sound u s hs
    rw [hlogin]
    exact ⟨hu, generated, created, hle, by omega, htoken⟩
  · rw [hlogin]
    exact ⟨hu, c.generate, c.create, h4, le_rfl, rfl⟩

theorem onlineStep_issued {op : OnlineOp} (hknown : SessionsKnown jwt t) (hissued : Issued jwt t)
    (hc : ClockForward t op) : Issued jwt (onlineStep jwt t op) := by
  cases op with
  | login u deviceId c =>
    have hclock : t.clock ≤ c.create := by
      obtain ⟨h1, h2, h3, h4⟩ := hc
      omega
    have hold := hissued.later (login jwt t.db u deviceId c).1 hclock (fun _ _ _ h => h)
    simp only [onlineStep]
    split
    · rename_i hsuccess
      intro w tok exp hmem
      rcases List.mem_cons.mp hmem with he | hmem
      · obtain ⟨rfl, rfl, rfl⟩ := LoginEvent.login.inj he
        exact login_issued hknown hc hsuccess
      · exact hold w tok exp hmem
    · exact hold
  | logout u token =>
    refine hissued.later _ le_rfl ?_
    intro w tok exp hmem
    rcases List.mem_cons.mp hmem with he | hmem
    · cases he
    · exact hmem
  | validate token verify now =>
    refine hissued.later _ (hc.1.trans hc.2) ?_
    intro w tok exp hmem
    split at hmem
    · exact hmem
    · rcases List.mem_cons.mp hmem with he | hmem
      · cases he
      · exact hmem

theorem statelessAccess (hknown : SessionsKnown jwt t) (hissued : Issued jwt t) :
    StatelessAccess jwt t := by
  refine ⟨?_, ?_, ?_⟩
  · intro metadata verify u
    exact getAuthenticatedUserId_eq_iff.trans Jwt.verify_iff
  · intro metadata verify now u hclock hv
    rw [validateToken_valid_iff, getAuthenticatedUserId_eq_iff]
    refine and_congr_right fun _ => ?_
    constructor
    · rintro ⟨s, hs, htoken, hexp⟩
      exact ⟨s.expireAt, htoken ▸ (hknown.sound u s hs).1, hexp⟩
    · rintro ⟨expireAt, hcur, hexp⟩
      rcases hknown.complete u _ expireAt hcur with ⟨s, hs, htoken, rfl⟩ | hpast
      · exact ⟨s, hs, htoken, hexp⟩
      · omega
  · intro hend u token expireAt hmem metadata verify htoken hexp
    obtain ⟨hu, generated, created, hle, hpast, hgen⟩ := hissued u token expireAt hmem
    obtain ⟨rfl, rfl⟩ := Prod.mk.inj hgen
    have hbound : tokenEnd created < 2 ^ 31 := by
      simp only [tokenEnd, seconds] at hend ⊢
      omega
    have hverify : jwt.verify (generateToken jwt u generated created).1 (seconds verify) = some u :=
      verify_of_unexpired hu hle (le_wrap_of_lt hbound) le_rfl hexp
    have hcarried : getTokenFromContext metadata = (generateToken jwt u generated created).1 := htoken
    rw [← hcarried] at hverify
    exact (getAuthenticatedUserId_eq_iff.mpr hverify).2

/-- In every state of every run with a clock that does not go back, the services accept by
signature and expiry alone, and the session service accepts less. -/
theorem services_stateless (jwt : Jwt) (start : Int) (ops : List OnlineOp)
    (hops : AllSteps (onlineStep jwt) ClockForward { clock := start } ops) :
    Always (onlineStep jwt) (StatelessAccess jwt) { clock := start } ops := by
  have hboth : Always (onlineStep jwt) (fun t => SessionsKnown jwt t ∧ Issued jwt t)
      { clock := start } ops := by
    refine always_of_allSteps ?_ ⟨sessionsKnown_start jwt start, ?_⟩ hops
    · intro t op h hc
      exact ⟨onlineStep_known h.1 hc, onlineStep_issued h.1 h.2 hc⟩
    · intro u token expireAt hmem
      cases hmem
  intro pre hpre
  exact statelessAccess (hboth pre hpre).1 (hboth pre hpre).2

/-- The digest of the first two parts of the token with the secret of `helper`. -/
def tokenDigest : Bytes :=
  [171, 89, 247, 177, 187, 165, 7, 173, 44, 64, 103, 47, 78, 231, 110, 195,
   85, 197, 224, 79, 147, 104, 187, 28, 133, 147, 161, 54, 48, 149, 15, 25]

def helper : Jwt :=
  Token.helperJwt (Token.textLibraries tokenDigest) (str "secret")
    (Token.textLibraries_writes tokenDigest)

/-- A user logs in and out. -/
def loginOnce : List OnlineOp :=
  [.login (str "u") [] ⟨1000, 1000, 1000, 1000⟩, .logout (str "u") []]

theorem clockForward_loginOnce : AllSteps (onlineStep helper) ClockForward { clock := 0 } loginOnce := by
  refine ⟨?_, trivial, trivial⟩
  simp [ClockForward]

theorem services_accept_first :
    getAuthenticatedUserId helper (createContext (helper.create (str "u") 1 168)) 3 = str "u" ∧
      Token.verifyToken (Token.textLibraries tokenDigest) (str "secret")
        (helper.create (str "u") 1 168) 3 = some (str "u") := by
  have h := services_stateless helper 0 loginOnce clockForward_loginOnce loginOnce
    (List.prefix_refl _)
  have haccepted : getAuthenticatedUserId helper
      (createContext (helper.create (str "u") 1 168)) 3 = str "u" := by
    refine h.outlives (by decide) (str "u") (helper.create (str "u") 1 168) 604801000 ?_
      (createContext (helper.create (str "u") 1 168)) 3000 ?_ (by decide)
    · decide +kernel
    · decide +kernel
  have hcarried : getTokenFromContext (createContext (helper.create (str "u") 1 168)) =
      helper.create (str "u") 1 168 := by decide +kernel
  have hverified := getAuthenticatedUserId_eq_iff.mp ⟨by decide, haccepted⟩
  rw [hcarried] at hverified
  rw [← Token.helperJwt_verify (Token.textLibraries_writes tokenDigest)]
  exact ⟨haccepted, hverified⟩

/-- A token that was ended by a logout, and whose user has logged in anew since, is still accepted
by the services when the session service refuses it. -/
theorem services_accept_ended :
    AllSteps (onlineStep Jwt.plain) ClockForward { clock := 0 } loginTwice ∧
      getTokenFromContext (createContext firstToken) = firstToken ∧
      getAuthenticatedUserId Jwt.plain (createContext firstToken) 3 = str "u" ∧
      (validateToken Jwt.plain (run (onlineStep Jwt.plain) { clock := 0 } loginTwice).db firstToken
        3000 3000).2.valid = false := by
  refine ⟨clockForward_loginTwice, ?_⟩
  decide +kernel

end SwiftChat.Online
