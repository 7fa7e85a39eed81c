import SwiftChat.Chat.Mailbox
import SwiftChat.Friend.Consent
import SwiftChat.Online.Services
import SwiftChat.Zone.Installation

/-! What the requests that the zone has served prove of its users: registrations, logins, checks of
tokens, and in whose name the other services act. -/
namespace SwiftChat.Path
open Base Zone

/-- A request that was served for the gate at an address. -/
structure Served where
  addr : Bytes
  draws : Draws
  request : ClientRequest
  answer : HandleClientRequestResult

section
variable (cfg : Setup)

/-- A user was registered under a name, with a password. -/
def Enrolls (e : Served) (name password u : Bytes) : Prop :=
  e.request.cmd = str "auth.register" ∧
    (∃ req, cfg.codecs.auth.parseRegister e.request.payload = some req ∧ req.username = name ∧
      req.password = password) ∧
    ∃ error, e.answer.payload = some (.register true u error)

/-- A name and a password were accepted as those of a user, who was given a token. -/
def LogsIn (e : Served) (name password u token : Bytes) : Prop :=
  e.request.cmd = str "auth.login" ∧
    (∃ req, cfg.codecs.auth.parseLogin e.request.payload = some req ∧ req.username = name ∧
      req.password = password) ∧
    e.answer.code = errorCodeToInt .ok ∧
    ∃ success expireAt error, e.answer.payload = some (.login success u token expireAt error)

/-- A token was found valid for a user. -/
def Validates (e : Served) (u token : Bytes) : Prop :=
  e.request.cmd = str "auth.validate_token" ∧
    cfg.codecs.auth.parseValidateToken e.request.payload = some token ∧
    e.answer.payload = some (.validateToken u) ∧ u ≠ []

/-- A login gave the token to the user. -/
def Issued (past : List Served) (u token : Bytes) : Prop :=
  ∃ e ∈ past, ∃ name password, LogsIn cfg e name password u token

/-- The request had the chat or the friend service do something in the name of the user. -/
def Acts (e : Served) (u : Bytes) : Prop :=
  u ∈ (cfg.chatOps e.draws e.request).map Chat.ChatOp.actor ∨
    u ∈ (cfg.friendOps e.draws e.request).map Friend.FriendOp.actor

/-- Nothing is granted without a cause among the earlier requests: a login needs the registration of
its name, and the password of a registration of its user; a token is valid, and acts, for the user
whom a login gave it to. -/
structure Authentic (past : List Served) (e : Served) : Prop where
  enrolled : ∀ name password u, Enrolls cfg e name password u →
    u = Auth.AuthService.generateUserId e.draws.userRandom
  login : ∀ name password u token, LogsIn cfg e name password u token →
    (∃ iat hours, token = cfg.jwt.create u iat hours) ∧
    (∃ e₁ ∈ past, ∃ password₁, Enrolls cfg e₁ name password₁ u) ∧
    ∃ e₁ ∈ past, ∃ name₁ password₁, Enrolls cfg e₁ name₁ password₁ u ∧
      Auth.AuthService.hashPassword cfg.sha256 password₁ =
        Auth.AuthService.hashPassword cfg.sha256 password
  validated : ∀ u token, Validates cfg e u token → Issued cfg past u token
  acting : ∀ u, Acts cfg e u → e.request.userId = u ∧ Issued cfg past u e.request.token

/-- The accounts and the sessions rest on the requests served so far. -/
structure AccountsKnown (past : List Served) (a : AuthState Auth.UserDb) : Prop where
  entry : ∀ name u, a.accounts.get (Auth.keyUsername name) = some (.text u) →
    ∃ e ∈ past, ∃ password, Enrolls cfg e name password u
  record : ∀ u v user, a.accounts.get (Auth.keyUser u) = some v →
    Auth.deserializeUser v = some user → user.userId = u ∧
      ∃ e ∈ past, ∃ name password, Enrolls cfg e name password u ∧
        user.passwordHash = Auth.AuthService.hashPassword cfg.sha256 password
  session : ∀ u s, Online.getSession a.sessions u = some s →
    (∃ iat hours, s.token = cfg.jwt.create u iat hours) ∧ Issued cfg past u s.token

end

section
variable {cfg : Setup} {past : List Served} {e : Served} {a : AuthState Auth.UserDb}
  {name password u token : Bytes}

theorem Issued.mono {later : List Served} (h : Issued cfg past u token) (hsub : past ⊆ later) :
    Issued cfg later u token := by
  obtain ⟨e, he, hlogin⟩ := h
  exact ⟨e, hsub he, hlogin⟩

theorem AccountsKnown.mono {later : List Served} (h : AccountsKnown cfg past a)
    (hsub : past ⊆ later) : AccountsKnown cfg later a := by
  constructor
  · intro name u hget
    obtain ⟨e, he, hrest⟩ := h.entry name u hget
    exact ⟨e, hsub he, hrest⟩
  · intro u v user hget huser
    obtain ⟨hid, e, he, hrest⟩ := h.record u v user hget huser
    exact ⟨hid, e, hsub he, hrest⟩
  · intro u s hs
    exact ⟨(h.session u s hs).1, (h.session u s hs).2.mono hsub⟩

theorem accountsKnown_start :
    AccountsKnown cfg past { accounts := OrderedMap.empty, sessions := OrderedMap.empty } := by
  constructor
  · intro name u h
    cases h
  · intro u v user h
    cases h
  · intro u s h
    cases h

/-! A login succeeds by the records of the accounts, and a check by the stored sessions. -/

/-- The session a login leaves for its user has the token it answers with. -/
theorem login_session {jwt : Jwt} {db : Online.SessionDb} {device : Bytes} {c : Online.LoginClock}
    (h : (Online.login jwt db u device c).2.success = true) :
    ∃ s, Online.getSession (Online.login jwt db u device c).1 u = some s ∧
      s.token = (Online.login jwt db u device c).2.token ∧
      (Online.getSession db u = some s ∨ ∃ iat hours, s.token = jwt.create u iat hours) := by
  rcases Online.login_cases jwt db u device c with ⟨hfail, _⟩ | ⟨s, hs, hlogin⟩ | ⟨_, hlogin⟩
  · exact absurd (hfail.symm.trans h) Bool.false_ne_true
  · rw [hlogin]
    exact ⟨s, hs, rfl, Or.inl hs⟩
  · rw [hlogin]
    refine ⟨Online.newSession jwt u (Online.normalizeDeviceId device) c, ?_, rfl,
      Or.inr ⟨_, _, rfl⟩⟩
    exact Online.getSession_setSession.trans (if_pos rfl)

theorem login_refused {jwt : Jwt} {db : Online.SessionDb} {device : Bytes} {c : Online.LoginClock}
    (h : (Online.login jwt db u device c).2.success ≠ true) :
    (Online.login jwt db u device c).1 = db := by
  rcases Online.login_cases jwt db u device c with ⟨_, hdb⟩ | ⟨s, _, hlogin⟩ | ⟨_, hlogin⟩
  · exact hdb
  · rw [hlogin]
  · rw [hlogin] at h
    exact absurd rfl h

/-- The user of a login was registered under its name, and with a password of the same hash. -/
theorem AccountsKnown.credentials (h : AccountsKnown cfg past a)
    (hok : AuthRpcClient.verifyCredentials cfg.sha256 a.accounts name password = .ok u) :
    (∃ e₁ ∈ past, ∃ password₁, Enrolls cfg e₁ name password₁ u) ∧
    ∃ e₁ ∈ past, ∃ name₁ password₁, Enrolls cfg e₁ name₁ password₁ u ∧
      Auth.AuthService.hashPassword cfg.sha256 password₁ =
        Auth.AuthService.hashPassword cfg.sha256 password := by
  obtain ⟨user, huser, hid, hhash⟩ := verifyCredentials_ok hok
  unfold Auth.UserStore.getByUsername at huser
  split at huser
  · cases huser
  split at huser
  swap
  · cases huser
  rename_i w hentry
  unfold Auth.UserStore.getById at huser
  split at huser
  · cases huser
  obtain ⟨v, hget, hdecode⟩ := Option.bind_eq_some_iff.mp huser
  obtain ⟨hsame, e₂, he₂, name₂, password₂, henrolls, hpassword⟩ := h.record w v user hget hdecode
  obtain rfl : w = u := hsame.symm.trans hid
  obtain ⟨e₁, he₁, hnamed⟩ := h.entry name w hentry
  exact ⟨⟨e₁, he₁, hnamed⟩, e₂, he₂, name₂, password₂, henrolls, hpassword.symm.trans hhash⟩

/-! What each of the four requests for `auth.*` grants. -/

theorem known_register (h : AccountsKnown cfg past a)
    (hans : e.answer = (cfg.handleAuth e.draws a e.request).2)
    (hcmd : e.request.cmd = str "auth.register") :
    AccountsKnown cfg (past ++ [e]) (cfg.handleAuth e.draws a e.request).1 ∧
      ∀ name password u, Enrolls cfg e name password u →
        u = Auth.AuthService.generateUserId e.draws.userRandom := by
  simp only [Setup.handleAuth, handleAuth, AuthCalls.handle, authCalls, parsed, hcmd,
    if_true] at hans ⊢
  cases hparse : cfg.codecs.auth.parseRegister e.request.payload with
  | none =>
    simp only [hparse] at hans ⊢
    refine ⟨h.mono (List.subset_append_left _ _), ?_⟩
    rintro name password u ⟨_, ⟨req, hreq, _⟩, _⟩
    rw [hparse] at hreq
    cases hreq
  | some req =>
    simp only [hparse] at hans ⊢
    have hcases := register_cases cfg.sha256 a.accounts req e.draws.userRandom e.draws.nowMs
    rcases hcases with ⟨hfail, hsame⟩ | ⟨hok, _, hput⟩
    · refine ⟨?_, ?_⟩
      · have hdb : ((cfg.authSvr e.draws).register a.accounts
          req).1 = a.accounts := hsame
        rw [hdb]
        exact h.mono (List.subset_append_left _ _)
      · rintro name password u ⟨_, _, error, hpay⟩
        rw [hans] at hpay
        have hreg := (ResponsePayload.register.inj (Option.some.inj hpay)).1
        exact absurd (hreg.symm.trans hfail) (by decide)
    · have hrecord : Enrolls cfg e req.username req.password
          (Auth.AuthService.generateUserId e.draws.userRandom) := by
        refine ⟨hcmd, ⟨req, hparse, rfl, rfl⟩, [], ?_⟩
        rw [hans]
        simp only [Setup.authSvr, authSvr, hok]
      refine ⟨?_, ?_⟩
      · have hdb : ((cfg.authSvr e.draws).register a.accounts
          req).1 = _ := hput
        have hmem : e ∈ past ++ [e] := List.mem_append_right _ (List.mem_singleton.mpr rfl)
        have hold := h.mono (List.subset_append_left past [e])
        rw [hdb]
        constructor
        · intro name u hget
          rcases OrderedMap.get_put_some hget with ⟨hkey, hval⟩ | ⟨_, hget⟩
          · obtain rfl := Auth.UserValue.text.inj hval
            rw [Auth.keyUsername_inj.mp hkey]
            exact ⟨e, hmem, req.password, hrecord⟩
          · rw [OrderedMap.get_put_ne (Ne.symm Auth.keyUser_ne_keyUsername)] at hget
            exact hold.entry name u hget
        · intro u v user hget huser
          rw [OrderedMap.get_put_ne Auth.keyUser_ne_keyUsername] at hget
          rcases OrderedMap.get_put_some hget with ⟨hkey, rfl⟩ | ⟨_, hget⟩
          · rw [Auth.deserialize_serializeUser] at huser
            obtain rfl := Option.some.inj huser
            rw [Auth.keyUser_inj.mp hkey]
            exact ⟨rfl, e, hmem, req.username, req.password, hrecord, rfl⟩
          · exact hold.record u v user hget huser
        · exact hold.session
      · rintro name password u ⟨_, _, error, hpay⟩
        rw [hans] at hpay
        have hreg := (ResponsePayload.register.inj (Option.some.inj hpay)).2.1
        simp only [Setup.authSvr, authSvr, hok] at hreg
        exact hreg.symm

theorem known_login (h : AccountsKnown cfg past a)
    (hans : e.answer = (cfg.handleAuth e.draws a e.request).2)
    (hcmd : e.request.cmd = str "auth.login") :
    AccountsKnown cfg (past ++ [e]) (cfg.handleAuth e.draws a e.request).1 ∧
      ∀ name password u token, LogsIn cfg e name password u token →
        (∃ iat hours, token = cfg.jwt.create u iat hours) ∧
        ∃ db, AuthRpcClient.verifyCredentials cfg.sha256 db name password = .ok u ∧
          db = a.accounts := by
  have hregister : str "auth.login" ≠ str "auth.register" := by decide
  have hfailed : errorCodeToInt .authFailed ≠ errorCodeToInt .ok := by decide
  have hold := h.mono (List.subset_append_left past [e])
  have hmem : e ∈ past ++ [e] := List.mem_append_right _ (List.mem_singleton.mpr rfl)
  simp only [Setup.handleAuth, handleAuth, AuthCalls.handle, authCalls, parsed, hcmd, hregister,
    if_true, if_false] at hans ⊢
  cases hparse : cfg.codecs.auth.parseLogin e.request.payload with
  | none =>
    simp only [hparse] at hans ⊢
    refine ⟨hold, ?_⟩
    rintro name password u token ⟨_, ⟨req, hreq, _⟩, _⟩
    rw [hparse] at hreq
    cases hreq
  | some req =>
    simp only [hparse, AuthSystem.login] at hans ⊢
    cases hverify : (cfg.authSvr e.draws).verifyCredentials
        a.accounts req.username req.password with
    | error error =>
      simp only [hverify] at hans ⊢
      refine ⟨hold, ?_⟩
      rintro name password u token ⟨_, _, hcode, _⟩
      rw [hans] at hcode
      exact absurd hcode hfailed
    | ok userId =>
      simp only [hverify, OnlineRpcClient.login] at hans ⊢
      by_cases hs : (Online.login cfg.jwt a.sessions userId req.deviceId e.draws.auth.login).2.success
          = true
      · obtain ⟨s, hget, htoken, hmade⟩ := login_session hs
        simp only [hs, if_true, not_true_eq_false, if_false] at hans ⊢
        have hlogin : LogsIn cfg e req.username req.password userId s.token := by
          refine ⟨hcmd, ⟨req, hparse, rfl, rfl⟩, ?_, ?_⟩
          · rw [hans]
            rfl
          · rw [hans, htoken]
            exact ⟨_, _, _, rfl⟩
        have hcreated : ∃ iat hours, s.token = cfg.jwt.create userId iat hours :=
          hmade.elim (fun hs => (h.session userId s hs).1) id
        refine ⟨⟨hold.entry, hold.record, ?_⟩, ?_⟩
        · intro w s' hs'
          by_cases hw : w = userId
          · rw [hw, hget] at hs'
            obtain rfl := Option.some.inj hs'
            rw [hw]
            exact ⟨hcreated, e, hmem, req.username, req.password, hlogin⟩
          · exact hold.session w s' ((Online.getSession_login_other hw).symm.trans hs')
        · rintro name password u token ⟨_, ⟨req', hreq', rfl, rfl⟩, _, _, _, _, hpay⟩
          obtain rfl := Option.some.inj (hparse.symm.trans hreq')
          rw [hans] at hpay
          obtain ⟨_, rfl, rfl, _⟩ := ResponsePayload.login.inj (Option.some.inj hpay)
          exact ⟨htoken ▸ hcreated, a.accounts, hverify, rfl⟩
      · simp only [hs] at hans ⊢
        rw [login_refused hs]
        refine ⟨hold, ?_⟩
        rintro name password u token ⟨_, _, hcode, _⟩
        rw [hans] at hcode
        exact absurd hcode hfailed

theorem known_logout (h : AccountsKnown cfg past a)
    (hcmd : e.request.cmd = str "auth.logout") :
    AccountsKnown cfg (past ++ [e]) (cfg.handleAuth e.draws a e.request).1 := by
  have hregister : str "auth.logout" ≠ str "auth.register" := by decide
  have hlogin : str "auth.logout" ≠ str "auth.login" := by decide
  have hold := h.mono (List.subset_append_left past [e])
  simp only [Setup.handleAuth, handleAuth, AuthCalls.handle, authCalls, parsed, hcmd, hregister,
    hlogin, if_true, if_false]
  cases cfg.codecs.auth.parseLogout e.request.payload with
  | none => exact hold
  | some req =>
    refine ⟨hold.entry, hold.record, ?_⟩
    intro u s hs
    have hget : Online.getSession (Online.logout a.sessions req.userId req.token).1 u = some s := hs
    rw [Online.getSession_logout] at hget
    split at hget
    · cases hget
    · exact hold.session u s hget

theorem known_validate (h : AccountsKnown cfg past a)
    (hans : e.answer = (cfg.handleAuth e.draws a e.request).2)
    (hcmd : e.request.cmd = str "auth.validate_token") :
    AccountsKnown cfg (past ++ [e]) (cfg.handleAuth e.draws a e.request).1 ∧
      ∀ u token, Validates cfg e u token → Issued cfg past u token := by
  have hregister : str "auth.validate_token" ≠ str "auth.register" := by decide
  have hlogin : str "auth.validate_token" ≠ str "auth.login" := by decide
  have hlogout : str "auth.validate_token" ≠ str "auth.logout" := by decide
  have hold := h.mono (List.subset_append_left past [e])
  simp only [Setup.handleAuth, handleAuth, AuthCalls.handle, authCalls, parsed, hcmd, hregister,
    hlogin, hlogout, if_true, if_false]
    at hans ⊢
  cases hparse : cfg.codecs.auth.parseValidateToken e.request.payload with
  | none =>
    refine ⟨hold, ?_⟩
    rintro u token ⟨_, hreq, _⟩
    rw [hparse] at hreq
    cases hreq
  | some token =>
    simp only [hparse, AuthSystem.validateToken, OnlineRpcClient.validateToken] at hans ⊢
    refine ⟨⟨hold.entry, hold.record, ?_⟩, ?_⟩
    · intro u s hs
      have hget : Online.getSession (Online.validateToken cfg.jwt a.sessions token
          e.draws.auth.verify e.draws.auth.now).1 u = some s := by
        revert hs
        simp only
        split
        · exact id
        · exact id
      exact hold.session u s (Online.getSession_validateToken hget)
    · rintro u token' ⟨_, hreq, hpay, hu⟩
      obtain rfl := Option.some.inj (hparse.symm.trans hreq)
      rw [hans] at hpay
      have hname := ResponsePayload.validateToken.inj (Option.some.inj hpay)
      by_cases hv : (Online.validateToken cfg.jwt a.sessions token e.draws.auth.verify
          e.draws.auth.now).2.valid = true
      · simp only [hv, if_true] at hname
        let t : Online.OnlineRun := { db := a.sessions, clock := 0 }
        have hvalid : (Online.validateToken cfg.jwt t.db token e.draws.auth.verify
            e.draws.auth.now).2 = { valid := true, userId := u } := by
          obtain rfl := hname
          exact congrArg₂ Online.TokenResult.mk hv rfl
        obtain ⟨_, s, hs, rfl, _⟩ := Online.validateToken_valid_iff.mp hvalid
        exact (h.session u s hs).2
      · simp only [hv] at hname
        exact absurd hname.symm hu

/-! Tokens on their way through the metadata of a call. -/

theorem isSpace_of_lt {b : UInt8} (h : 32 < b) : isSpace b = false := by
  cases hs : isSpace b with
  | false => rfl
  | true =>
    simp only [isSpace, isBlank, Bool.or_eq_true, decide_eq_true_eq] at hs
    rcases hs with ((rfl | rfl) | rfl) | rfl
    all_goals exact absurd h (by decide)

theorem trim_bearer (hne : token ≠ []) (h : ∀ b ∈ token, 32 < b) :
    trim (str "Bearer " ++ token) = str "Bearer " ++ token := by
  have hfront : (str "Bearer " ++ token).dropWhile isSpace = str "Bearer " ++ token := rfl
  obtain hnil | ⟨init, last, rfl⟩ := List.eq_nil_or_concat token
  · exact absurd hnil hne
  have hlast : isSpace last = false := isSpace_of_lt (h last (by simp))
  rw [List.concat_eq_append] at hfront ⊢
  rw [trim, hfront, ← List.append_assoc, List.reverse_concat, List.dropWhile_cons, hlast]
  simp

/-- A service sees the token that the zone passes on. -/
theorem getTokenFromContext_createContext (hne : token ≠ []) (h : ∀ b ∈ token, 32 < b) :
    getTokenFromContext (createContext token) = token := by
  have hdrop : (str "Bearer " ++ token).drop (str "Bearer ").length = token := List.drop_left' rfl
  have hclean : ∀ b ∈ token, isBlank b = false := by
    intro b hb
    have hspace := isSpace_of_lt (h b hb)
    unfold isSpace at hspace
    simp only [Bool.or_eq_false_iff] at hspace
    exact hspace.1.1
  obtain ⟨b, rest, rfl⟩ := List.exists_cons_of_ne_nil hne
  have hfirst := hclean b List.mem_cons_self
  simp only [getTokenFromContext, createContext, if_neg hne, trim_bearer hne h,
    List.prefix_append, if_true, hdrop]
  rw [List.dropWhile_cons, hfirst]
  simp

/-- The token is one that a login gave to the user, or there are neither. -/
def TokenOf (cfg : Setup) (past : List Served) (u token : Bytes) : Prop :=
  (u = [] ∧ token = []) ∨ Issued cfg past u token

/-- The services take a token that a login gave out for one of that login's user. -/
theorem Issued.accepted (hpast : EachAfter (Authentic cfg) past) (h : Issued cfg past u token)
    {w : Bytes} {now : Int} (hw : getAuthenticatedUserId cfg.jwt (createContext token) now = w)
    (hne : w ≠ []) : u = w := by
  obtain ⟨e₁, he₁, name, password, hlogin⟩ := h
  obtain ⟨before, hbefore, hauth⟩ := hpast.of_mem he₁
  obtain ⟨⟨iat, hours, rfl⟩, ⟨e₂, he₂, _, henrolls⟩, _⟩ := hauth.login _ _ _ _ hlogin
  obtain ⟨_, _, hauth₂⟩ := hpast.of_mem (hbefore.subset (List.mem_append_left _ he₂))
  have hu : u ≠ [] := by
    rw [hauth₂.enrolled _ _ _ henrolls]
    exact List.append_ne_nil_of_left_ne_nil (by decide) _
  have hverify := Online.getAuthenticatedUserId_eq_iff.mp ⟨hne, hw⟩
  rw [getTokenFromContext_createContext (cfg.jwt.create_ne_nil hu)
    (cfg.jwt.create_printable u iat hours)] at hverify
  exact ((Jwt.verify_create_iff hu).mp hverify).1

/-! Whom the operations of a request are done for. -/

theorem mem_asked {α O : Type} {parse : Bytes → Option α} {r : ClientRequest} {f : α → List O}
    {op : O} (h : op ∈ asked parse r f) : ∃ req, op ∈ f req := by
  unfold asked at h
  split at h
  · cases h
  · exact ⟨_, h⟩

theorem mem_askedInSession {O : Type} {r : ClientRequest} {ops : List O} {op : O}
    (h : op ∈ askedInSession r ops) : op ∈ ops := by
  unfold askedInSession at h
  split at h
  · cases h
  · exact h

theorem of_mem_ite {O : Type} {c P : Prop} [Decidable c] {xs ys : List O} {op : O}
    (hx : op ∈ xs → P) (hy : op ∈ ys → P) : op ∈ (if c then xs else ys) → P := by
  split
  · exact hx
  · exact hy

theorem chatOps_actor {draws : Draws} {r : ClientRequest} {op : Chat.ChatOp}
    (h : op ∈ cfg.chatOps draws r) :
    getAuthenticatedUserId cfg.jwt (createContext r.token) draws.chat.verify = op.actor ∧
      op.actor ≠ [] := by
  have hone : ∀ (target : Bytes) (f : Bytes → Chat.ChatOp), (∀ uid, (f uid).actor = uid) →
      op ∈ chatOpOf cfg.jwt draws.chat r target f →
      getAuthenticatedUserId cfg.jwt (createContext r.token) draws.chat.verify = op.actor ∧
        op.actor ≠ [] := by
    intro target f hf hmem
    unfold chatOpOf at hmem
    simp only at hmem
    split at hmem
    · cases hmem
    rename_i hne
    split at hmem
    · cases hmem
    obtain rfl := List.mem_singleton.mp hmem
    rw [hf]
    exact ⟨rfl, hne⟩
  unfold Setup.chatOps chatOps at h
  revert h
  repeat' apply of_mem_ite
  all_goals intro h
  any_goals cases h
  all_goals obtain ⟨req, h⟩ := mem_asked h
  any_goals exact hone _ _ (fun _ => rfl) h
  all_goals exact hone _ _ (fun _ => rfl) (mem_askedInSession h)

theorem friendOps_actor {draws : Draws} {r : ClientRequest} {op : Friend.FriendOp}
    (h : op ∈ cfg.friendOps draws r) :
    getAuthenticatedUserId cfg.jwt (createContext r.token) draws.friend.verify = op.actor ∧
      op.actor ≠ [] := by
  have hone : ∀ f : Bytes → Friend.FriendOp, (∀ uid, (f uid).actor = uid) →
      op ∈ friendOpOf cfg.jwt draws.friend r f →
      getAuthenticatedUserId cfg.jwt (createContext r.token) draws.friend.verify = op.actor ∧
        op.actor ≠ [] := by
    intro f hf hmem
    unfold friendOpOf at hmem
    simp only at hmem
    split at hmem
    · cases hmem
    rename_i hne
    obtain rfl := List.mem_singleton.mp hmem
    rw [hf]
    exact ⟨rfl, hne⟩
  unfold Setup.friendOps friendOps at h
  revert h
  repeat' apply of_mem_ite
  all_goals intro h
  any_goals cases h
  all_goals obtain ⟨req, h⟩ := mem_asked h
  any_goals exact hone _ (fun _ => rfl) h
  all_goals exact hone _ (fun _ => rfl) (mem_askedInSession h)

theorem acts_user {u : Bytes} (h : Acts cfg e u) :
    u ≠ [] ∧ ∃ now, getAuthenticatedUserId cfg.jwt (createContext e.request.token) now = u := by
  rcases h with h | h
  · obtain ⟨op, hop, rfl⟩ := List.mem_map.mp h
    exact ⟨(chatOps_actor hop).2, _, (chatOps_actor hop).1⟩
  · obtain ⟨op, hop, rfl⟩ := List.mem_map.mp h
    exact ⟨(friendOps_actor hop).2, _, (friendOps_actor hop).1⟩

theorem acting_issued (hpast : EachAfter (Authentic cfg) past)
    (htoken : TokenOf cfg past e.request.userId e.request.token) (h : Acts cfg e u) :
    e.request.userId = u ∧ Issued cfg past u e.request.token := by
  obtain ⟨hu, now, hnow⟩ := acts_user h
  rcases htoken with ⟨_, hnil⟩ | hw
  · rw [hnil, getAuthenticatedUserId_createContext] at hnow
    exact absurd hnow.symm hu
  · have huser := hw.accepted hpast hnow hu
    exact ⟨huser, huser ▸ hw⟩

/-- One more request is served: what it grants has its cause, and so has all that is stored then. -/
theorem serve_authentic {d : Deployment}
    (hpast : EachAfter (Authentic cfg) past) (h : AccountsKnown cfg past d.auth)
    (htoken : TokenOf cfg past e.request.userId e.request.token)
    (hans : e.answer = (cfg.serve e.draws d e.request).2) :
    AccountsKnown cfg (past ++ [e]) (cfg.serve e.draws d e.request).1.auth ∧
      Authentic cfg past e := by
  have hacting := fun u (hu : Acts cfg e u) => acting_issued hpast htoken hu
  have hregister : cmdPrefix (str "auth.register") = str "auth" := by decide
  have hlogin : cmdPrefix (str "auth.login") = str "auth" := by decide
  have hvalidate : cmdPrefix (str "auth.validate_token") = str "auth" := by decide
  rcases serve_auth cfg e.draws d e.request with ⟨hcmd, hauth, hanswer⟩ | ⟨hcmd, hauth⟩
  · rw [hanswer] at hans
    rw [hauth]
    by_cases h1 : e.request.cmd = str "auth.register"
    · obtain ⟨hknown, henrolled⟩ := known_register h hans h1
      refine ⟨hknown, henrolled, ?_, ?_, hacting⟩
      · rintro name password u token ⟨h2, _⟩
        exact absurd (h1.symm.trans h2) (by decide)
      · rintro u token ⟨h2, _⟩
        exact absurd (h1.symm.trans h2) (by decide)
    by_cases h2 : e.request.cmd = str "auth.login"
    · obtain ⟨hknown, hlogged⟩ := known_login h hans h2
      refine ⟨hknown, ?_, ?_, ?_, hacting⟩
      · rintro name password u ⟨h1', _⟩
        exact absurd h1' h1
      · intro name password u token hlogs
        obtain ⟨hmade, db, hverified, rfl⟩ := hlogged name password u token hlogs
        exact ⟨hmade, h.credentials hverified⟩
      · rintro u token ⟨h3, _⟩
        exact absurd (h2.symm.trans h3) (by decide)
    have hnever : ∀ name password u token, ¬ LogsIn cfg e name password u token :=
      fun _ _ _ _ hlogs => h2 hlogs.1
    by_cases h3 : e.request.cmd = str "auth.logout"
    · refine ⟨known_logout h h3, ?_, fun _ _ _ _ hlogs => absurd hlogs (hnever _ _ _ _), ?_,
        hacting⟩
      · rintro name password u ⟨h1', _⟩
        exact absurd h1' h1
      · rintro u token ⟨h4, _⟩
        exact absurd (h3.symm.trans h4) (by decide)
    by_cases h4 : e.request.cmd = str "auth.validate_token"
    · obtain ⟨hknown, hvalid⟩ := known_validate h hans h4
      refine ⟨hknown, ?_, fun _ _ _ _ hlogs => absurd hlogs (hnever _ _ _ _), hvalid, hacting⟩
      rintro name password u ⟨h1', _⟩
      exact absurd h1' h1
    · -- no other command has this prefix
      have hsame : (cfg.handleAuth e.draws d.auth e.request).1 = d.auth := by
        simp only [Setup.handleAuth, handleAuth, AuthCalls.handle, h1, h2, h3, h4, if_false]
      rw [hsame]
      refine ⟨h.mono (List.subset_append_left _ _), ?_,
        fun _ _ _ _ hlogs => absurd hlogs (hnever _ _ _ _), ?_, hacting⟩
      · rintro name password u ⟨h1', _⟩
        exact absurd h1' h1
      · rintro u token ⟨h4', _⟩
        exact absurd h4' h4
  · rw [hauth]
    refine ⟨h.mono (List.subset_append_left _ _), ?_, ?_, ?_, hacting⟩
    · rintro name password u ⟨h1, _⟩
      exact absurd (h1 ▸ hregister) hcmd
    · rintro name password u token ⟨h2, _⟩
      exact absurd (h2 ▸ hlogin) hcmd
    · rintro u token ⟨h4, _⟩
      exact absurd (h4 ▸ hvalidate) hcmd

/-- A login that is answered with OK had a payload that parses. -/
theorem login_parsed {d : Deployment} (hans : e.answer = (cfg.serve e.draws d e.request).2)
    (hcmd : e.request.cmd = str "auth.login") (hcode : e.answer.code = errorCodeToInt .ok) :
    ∃ req, cfg.codecs.auth.parseLogin e.request.payload = some req := by
  have hregister : str "auth.login" ≠ str "auth.register" := by decide
  rcases serve_auth cfg e.draws d e.request with ⟨_, _, hanswer⟩ | ⟨hpre, _⟩
  · rw [hanswer] at hans
    simp only [Setup.handleAuth, handleAuth, AuthCalls.handle, authCalls, parsed, hcmd, hregister,
      if_true, if_false] at hans
    cases hparse : cfg.codecs.auth.parseLogin e.request.payload with
    | none =>
      simp only [hparse] at hans
      rw [hans] at hcode
      have hinvalid : errorCodeToInt .invalidParam ≠ errorCodeToInt .ok := by decide
      exact absurd hcode hinvalid
    | some req => exact ⟨req, rfl⟩
  · exact absurd (hcmd ▸ (by decide : cmdPrefix (str "auth.login") = str "auth")) hpre

/-- A token is given to a user who was registered, under a generated id. -/
theorem Issued.plain (h : Issued cfg past u token) (hpast : EachAfter (Authentic cfg) past) :
    Friend.Plain u := by
  obtain ⟨e, he, name, password, hlogin⟩ := h
  obtain ⟨before, hbefore, hauth⟩ := hpast.of_mem he
  obtain ⟨_, ⟨e₁, he₁, _, henrolls⟩, _⟩ := hauth.login _ _ _ _ hlogin
  obtain ⟨_, _, hauth₁⟩ := hpast.of_mem (hbefore.subset (List.mem_append_left _ he₁))
  rw [hauth₁.enrolled _ _ _ henrolls]
  exact Friend.plain_generate (by decide) (by decide) _

theorem acts_plain {history : List Served} (h : EachAfter (Authentic cfg) history)
    (he : e ∈ history) (hacts : Acts cfg e u) : Friend.Plain u := by
  obtain ⟨before, hbefore, hauth⟩ := h.of_mem he
  refine (hauth.acting _ hacts).2.plain ?_
  exact fun past a hpast => h past a (hpast.trans ((List.prefix_append _ _).trans hbefore))

end
end SwiftChat.Path
