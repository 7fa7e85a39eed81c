import SwiftChat.Zone.AuthEffects
import SwiftChat.Zone.ChatEffects
import SwiftChat.Zone.FileSystem
import SwiftChat.Zone.FriendSystem
import SwiftChat.Zone.GroupSystem
import SwiftChat.Zone.SessionStore

/-! The zone with all its services set up, and what one request does to each of them. -/
namespace SwiftChat.Zone
open Base

/-- A push that is on its way to the gate at an address. -/
structure Push where
  gateAddr : Bytes
  userId : Bytes
  cmd : Bytes
  payload : PushPayload
deriving DecidableEq

/-- What the services behind the zone store, its sessions, and the pushes under way. -/
structure Deployment where
  auth : AuthState Auth.UserDb := { accounts := OrderedMap.empty }
  chat : Chat.ChatState := {}
  friends : Friend.FriendDb := OrderedMap.empty
  files : File.FileState := {}
  presence : SessionStore := {}
  pushes : List Push := []

namespace Deployment

def authPart : Part Deployment (AuthState Auth.UserDb) where
  get d := d.auth
  set d x := { d with auth := x }
  get_set _ _ := rfl
  set_get _ := rfl

def chatPart : Part Deployment Chat.ChatState where
  get d := d.chat
  set d x := { d with chat := x }
  get_set _ _ := rfl
  set_get _ := rfl

/-- The group service works on the databases of the chat service. -/
def groupPart : Part Deployment Chat.GroupDb where
  get d := d.chat.groups
  set d x := { d with chat := { d.chat with groups := x } }
  get_set _ _ := rfl
  set_get _ := rfl

def friendPart : Part Deployment Friend.FriendDb where
  get d := d.friends
  set d x := { d with friends := x }
  get_set _ _ := rfl
  set_get _ := rfl

def filePart : Part Deployment File.FileState where
  get d := d.files
  set d x := { d with files := x }
  get_set _ _ := rfl
  set_get _ := rfl

/-- A user without a session is not pushed to; the gate is the one the session names. -/
def routeToUser (d : Deployment) (userId cmd : Bytes) (payload : PushPayload) : Deployment :=
  match d.presence.getSession userId with
  | none => d
  | some session =>
    { d with pushes := d.pushes ++ [⟨session.gateAddr, userId, cmd, payload⟩] }

end Deployment

/-- What the servers are set up with. -/
structure Setup where
  jwt : Jwt
  fileJwt : Option Jwt
  fileConfig : File.FileConfig
  sha256 : Bytes → Bytes
  codecs : ZoneCodecs

/-- The clock readings and random draws while a request is served. -/
structure Draws where
  auth : AuthClock
  chat : SendClock
  friend : FriendDraws
  userRandom : RandomString 12
  msgRandom : RandomString 16
  groupRandom : RandomString 12
  fileSeed : File.FileIdSeed
  nowMs : Int

/-- The same time in seconds. -/
def Draws.now (draws : Draws) : Int := Online.seconds draws.nowMs

namespace Setup
variable (cfg : Setup) (draws : Draws)

def authSvr : AuthSvr Auth.UserDb :=
  Zone.authSvr cfg.sha256 cfg.jwt draws.userRandom draws.nowMs

def manager : SystemManager Deployment where
  auth := some ((authCalls (cfg.authSvr draws) cfg.jwt draws.auth).lift Deployment.authPart)
  chat := some ((chatCalls cfg.jwt draws.msgRandom draws.chat).lift Deployment.chatPart)
  friends := some ((friendCalls cfg.jwt draws.friend).lift Deployment.friendPart)
  group := some
    ((groupCalls cfg.jwt draws.groupRandom draws.nowMs draws.now).lift Deployment.groupPart)
  file := some ((fileCalls cfg.fileJwt cfg.fileConfig draws.fileSeed draws.now).lift
    Deployment.filePart)

def zone : ZoneService Deployment where
  manager := some (cfg.manager draws)
  codecs := cfg.codecs
  routeToUser := Deployment.routeToUser

/-- One request, served as a whole. -/
def serve (d : Deployment) (r : ClientRequest) : Deployment × HandleClientRequestResult :=
  (cfg.zone draws).handleClientRequest d r

/-- What a request asks of each service. -/
def chatOps (r : ClientRequest) : List Chat.ChatOp :=
  Zone.chatOps cfg.jwt cfg.codecs.chat draws.msgRandom draws.chat r

def friendOps (r : ClientRequest) : List Friend.FriendOp :=
  Zone.friendOps cfg.jwt cfg.codecs.friends draws.friend r

end Setup

section
variable {cfg : Setup} {draws : Draws} {d : Deployment} {r : ClientRequest}

/-- The calls to the group service leave the token out, and so do nothing. -/
theorem handleGroup_unchanged :
    ((cfg.zone draws).handleGroup (cfg.manager draws) d r).1 = d := by
  have hlifted : (cfg.zone draws).handleGroup (cfg.manager draws) d r =
      Deployment.groupPart.lift
        (Zone.handleGroup cfg.jwt · draws.groupRandom draws.nowMs draws.now cfg.codecs.group r)
        d :=
    GroupCalls.lift_handle ..
  rw [hlifted, Part.lift_fst, (handleGroup_refuses ..).1, Part.set_get]

theorem handleFile_files :
    ∃ files, ((cfg.zone draws).handleFile (cfg.manager draws) d r).1 =
      { d with files := files } := by
  have hlifted : (cfg.zone draws).handleFile (cfg.manager draws) d r =
      Deployment.filePart.lift
        (Zone.handleFile cfg.fileJwt cfg.fileConfig cfg.codecs.file · draws.fileSeed draws.now r)
        d :=
    FileCalls.lift_handle ..
  exact ⟨_, congrArg Prod.fst hlifted⟩

theorem getGroupMembers_unchanged : ∀ group, (cfg.manager draws).group = some group →
    ∀ s groupId page pageSize, (group.getGroupMembers s groupId page pageSize).1 = s := by
  intro group h s groupId page pageSize
  obtain rfl := Option.some.inj h
  rfl

theorem searchUsers_unchanged : ∀ auth, (cfg.manager draws).auth = some auth →
    ∀ s keyword limit token, (auth.searchUsers s keyword limit token).1 = s := by
  intro auth h s keyword limit token
  obtain rfl := Option.some.inj h
  rfl

/-- What the account and session services make of a request. -/
def Setup.handleAuth (cfg : Setup) (draws : Draws) (a : AuthState Auth.UserDb) (r : ClientRequest) :
    AuthState Auth.UserDb × HandleClientRequestResult :=
  Zone.handleAuth (cfg.authSvr draws) cfg.codecs.auth cfg.jwt
    draws.auth a r

/-- A request reaches the services its command names, and no other. -/
theorem serve_cases (cfg : Setup) (draws : Draws) (d : Deployment) (r : ClientRequest) :
    (cmdPrefix r.cmd = str "auth" ∧
      cfg.serve draws d r = Deployment.authPart.lift (cfg.handleAuth draws · r) d) ∨
    (cmdPrefix r.cmd = str "chat" ∧
      Does (cfg.zone draws) Deployment.chatPart Chat.chatStep d (cfg.chatOps draws r)
        (cfg.serve draws d r)) ∨
    (cmdPrefix r.cmd = str "friend" ∧
      Does (cfg.zone draws) Deployment.friendPart Friend.friendStep d (cfg.friendOps draws r)
        (cfg.serve draws d r)) ∨
    ((cmdPrefix r.cmd ≠ str "auth" ∧ cmdPrefix r.cmd ≠ str "chat" ∧
        cmdPrefix r.cmd ≠ str "friend") ∧
      ∃ files, (cfg.serve draws d r).1 = { d with files := files }) := by
  have hserve : cfg.serve draws d r =
    Zone.handleClientRequest ((cfg.zone draws).prefixHandlers (cfg.manager draws)) d r := rfl
  rw [hserve, Zone.handleClientRequest]
  by_cases hauth : cmdPrefix r.cmd = str "auth"
  · rw [if_pos hauth]
    have hlifted : (cfg.zone draws).handleAuth (cfg.manager draws) d r =
        Deployment.authPart.lift (cfg.handleAuth draws · r) d :=
      handleAuth_lifted rfl d r
    exact Or.inl ⟨hauth, hlifted⟩
  rw [if_neg hauth]
  by_cases hchat : cmdPrefix r.cmd = str "chat"
  · rw [if_pos hchat]
    exact Or.inr (Or.inl ⟨hchat, handleChat_does rfl getGroupMembers_unchanged⟩)
  rw [if_neg hchat]
  by_cases hfriend : cmdPrefix r.cmd = str "friend"
  · rw [if_pos hfriend]
    exact Or.inr (Or.inr (Or.inl ⟨hfriend, handleFriend_does rfl searchUsers_unchanged⟩))
  rw [if_neg hfriend]
  refine Or.inr (Or.inr (Or.inr ⟨⟨hauth, hchat, hfriend⟩, ?_⟩))
  split
  · exact ⟨d.files, handleGroup_unchanged⟩
  split
  · exact handleFile_files
  · exact ⟨d.files, rfl⟩

/-- A push is only put on its way. -/
theorem routeToUser_keeps {X : Type} {look : Deployment → X}
    (h : ∀ d pushes, look { d with pushes := pushes } = look d) (d : Deployment)
    (u cmd : Bytes) (payload : PushPayload) : look (d.routeToUser u cmd payload) = look d := by
  unfold Deployment.routeToUser
  cases d.presence.getSession u with
  | none => rfl
  | some session => exact h ..

theorem chatOps_other (h : cmdPrefix r.cmd ≠ str "chat") : cfg.chatOps draws r = [] := by
  have hne : ∀ cmd : Bytes, cmdPrefix cmd = str "chat" → r.cmd ≠ cmd := by
    rintro _ hcmd rfl
    exact h hcmd
  unfold Setup.chatOps Zone.chatOps
  rw [if_neg (hne _ (by decide)), if_neg (hne _ (by decide)), if_neg (hne _ (by decide)),
    if_neg (hne _ (by decide)), if_neg (hne _ (by decide)), if_neg (hne _ (by decide)),
    if_neg (hne _ (by decide))]

theorem friendOps_other (h : cmdPrefix r.cmd ≠ str "friend") : cfg.friendOps draws r = [] := by
  have hne : ∀ cmd : Bytes, cmdPrefix cmd = str "friend" → r.cmd ≠ cmd := by
    rintro _ hcmd rfl
    exact h hcmd
  unfold Setup.friendOps Zone.friendOps
  rw [if_neg (hne _ (by decide)), if_neg (hne _ (by decide)), if_neg (hne _ (by decide)),
    if_neg (hne _ (by decide)), if_neg (hne _ (by decide)), if_neg (hne _ (by decide)),
    if_neg (not_or.mpr ⟨hne _ (by decide), hne _ (by decide)⟩), if_neg (hne _ (by decide)),
    if_neg (hne _ (by decide)), if_neg (hne _ (by decide)), if_neg (hne _ (by decide)),
    if_neg (hne _ (by decide)), if_neg (hne _ (by decide)), if_neg (hne _ (by decide))]

theorem serve_chat :
    (cfg.serve draws d r).1.chat = run Chat.chatStep d.chat (cfg.chatOps draws r) := by
  rcases serve_cases cfg draws d r with ⟨hcmd, h⟩ | ⟨_, h⟩ | ⟨hcmd, h⟩ | ⟨hcmd, files, h⟩
  · rw [h, chatOps_other (by rw [hcmd]; decide)]
    rfl
  · exact h.get (routeToUser_keeps fun _ _ => rfl)
  · rw [chatOps_other (by rw [hcmd]; decide)]
    exact h.kept (fun _ _ => rfl) (routeToUser_keeps fun _ _ => rfl)
  · rw [h, chatOps_other hcmd.2.1]
    rfl

theorem serve_friends :
    (cfg.serve draws d r).1.friends = run Friend.friendStep d.friends (cfg.friendOps draws r) := by
  rcases serve_cases cfg draws d r with ⟨hcmd, h⟩ | ⟨hcmd, h⟩ | ⟨_, h⟩ | ⟨hcmd, files, h⟩
  · rw [h, friendOps_other (by rw [hcmd]; decide)]
    rfl
  · rw [friendOps_other (by rw [hcmd]; decide)]
    exact h.kept (fun _ _ => rfl) (routeToUser_keeps fun _ _ => rfl)
  · exact h.get (routeToUser_keeps fun _ _ => rfl)
  · rw [h, friendOps_other hcmd.2.2]
    rfl

/-- Accounts and sessions are as the requests for `auth.*` leave them. -/
theorem serve_auth (cfg : Setup) (draws : Draws) (d : Deployment) (r : ClientRequest) :
    (cmdPrefix r.cmd = str "auth" ∧
      (cfg.serve draws d r).1.auth = (cfg.handleAuth draws d.auth r).1 ∧
      (cfg.serve draws d r).2 = (cfg.handleAuth draws d.auth r).2) ∨
    (cmdPrefix r.cmd ≠ str "auth" ∧ (cfg.serve draws d r).1.auth = d.auth) := by
  rcases serve_cases cfg draws d r with ⟨hcmd, h⟩ | ⟨hcmd, h⟩ | ⟨hcmd, h⟩ | ⟨hcmd, files, h⟩
  · rw [h]
    exact Or.inl ⟨hcmd, rfl, rfl⟩
  · refine Or.inr ⟨by rw [hcmd]; decide, ?_⟩
    exact h.kept (fun _ _ => rfl) (routeToUser_keeps fun _ _ => rfl)
  · refine Or.inr ⟨by rw [hcmd]; decide, ?_⟩
    exact h.kept (fun _ _ => rfl) (routeToUser_keeps fun _ _ => rfl)
  · rw [h]
    exact Or.inr ⟨hcmd.1, rfl⟩

end
end SwiftChat.Zone
