import SwiftChat.Friend.FriendHandler
import SwiftChat.Friend.FriendRun
import SwiftChat.Zone.Effects

/-! The calls of the zone to the friend service, and the operations they come down to. -/
namespace SwiftChat.Zone
open Base Friend

/-- The draws of a friend request and of a group, and the clock: `verify` is in seconds. -/
structure FriendDraws where
  request : RandomString 12
  group : RandomString 8
  verify : Int
  now : Int

def friendInfoPayload (f : FriendInfo) : FriendInfoPayload where
  friendId := f.friendId
  remark := f.remark
  groupId := f.groupId
  nickname := (f.profile.map Auth.AuthProfile.nickname).getD []
  avatarUrl := (f.profile.map Auth.AuthProfile.avatarUrl).getD []
  addedAt := f.addedAt

def friendRequestInfoPayload (r : FriendRequestInfo) : FriendRequestInfoPayload where
  requestId := r.requestId
  fromUserId := r.fromUserId
  toUserId := r.toUserId
  remark := r.remark
  status := r.status
  createdAt := r.createdAt
  fromNickname := (r.fromProfile.map Auth.AuthProfile.nickname).getD []
  fromAvatarUrl := (r.fromProfile.map Auth.AuthProfile.avatarUrl).getD []

def friendGroupPayload (g : FriendGroup) : FriendGroupPayload where
  groupId := g.groupId
  groupName := g.groupName
  friendCount := g.friendCount
  sortOrder := g.sortOrder

section
variable (jwt : Jwt) (db : FriendDb) (draws : FriendDraws) (token : Bytes)

namespace FriendRpcClient

/-- Each call passes the token of the connection on. -/
def call {α β : Type} [Inhabited α] (fallback : Bytes) (f : α → β)
    (rpc : Metadata → FriendDb × RpcResponse α) : FriendDb × Except Bytes β :=
  let (db, r) := rpc (createContext token)
  (db, (r.result fallback).map f)

/-- The user a request names is not read by the service. -/
def addFriend (friendId remark : Bytes) : FriendDb × Except Bytes Unit :=
  call token (str "add friend failed") id fun context =>
    FriendHandler.addFriend jwt context db draws.verify friendId remark draws.request draws.now

def handleFriendRequest (requestId : Bytes) (accept : Bool) (groupId : Bytes) :
    FriendDb × Except Bytes Unit :=
  call token (str "handle request failed") id fun context =>
    FriendHandler.handleFriendRequest jwt context db draws.verify requestId accept groupId draws.now

def removeFriend (friendId : Bytes) : FriendDb × Except Bytes Unit :=
  call token (str "remove friend failed") id fun context =>
    FriendHandler.removeFriend jwt context db draws.verify friendId

def getFriends (groupId : Bytes) : FriendDb × Except Bytes (List FriendInfoPayload) :=
  call token (str "get friends failed") (List.map friendInfoPayload) fun context =>
    FriendHandler.getFriends jwt context db draws.verify groupId

/-- A negative kind is not set, and reads as 0. -/
def getFriendRequests (kind : Int) : FriendDb × Except Bytes (List FriendRequestInfoPayload) :=
  call token (str "get friend requests failed") (List.map friendRequestInfoPayload) fun context =>
    FriendHandler.getFriendRequests jwt context db draws.verify (if kind ≥ 0 then kind else 0)

def blockUser (targetId : Bytes) : FriendDb × Except Bytes Unit :=
  call token (str "block failed") id fun context =>
    FriendHandler.blockUser jwt context db draws.verify targetId

def unblockUser (targetId : Bytes) : FriendDb × Except Bytes Unit :=
  call token (str "unblock failed") id fun context =>
    FriendHandler.unblockUser jwt context db draws.verify targetId

def getBlockList : FriendDb × Except Bytes (List Bytes) :=
  call token (str "get block list failed") id fun context =>
    FriendHandler.getBlockList jwt context db draws.verify

def createFriendGroup (groupName : Bytes) : FriendDb × Except Bytes Unit :=
  call token (str "create friend group failed") id fun context =>
    FriendHandler.createFriendGroup jwt context db draws.verify groupName draws.group

def getFriendGroups : FriendDb × Except Bytes (List FriendGroupPayload) :=
  call token (str "get friend groups failed") (List.map friendGroupPayload) fun context =>
    FriendHandler.getFriendGroups jwt context db draws.verify

def moveFriendToGroup (friendId groupId : Bytes) : FriendDb × Except Bytes Unit :=
  call token (str "move friend to group failed") id fun context =>
    FriendHandler.moveFriend jwt context db draws.verify friendId groupId

def deleteFriendGroup (groupId : Bytes) : FriendDb × Except Bytes Unit :=
  call token (str "delete friend group failed") id fun context =>
    FriendHandler.deleteFriendGroup jwt context db draws.verify groupId

def setRemark (friendId remark : Bytes) : FriendDb × Except Bytes Unit :=
  call token (str "set remark failed") id fun context =>
    FriendHandler.setRemark jwt context db draws.verify friendId remark

end FriendRpcClient

/-! Two look-ups of the subsystem that no handler uses; they leave the token out. -/
namespace FriendSystem

def isFriend (friendId : Bytes) : Bool :=
  if friendId = [] then false
  else match (FriendRpcClient.getFriends jwt db draws [] []).2 with
    | .error _ => false
    | .ok friends => friends.any fun f => f.friendId = friendId

def isBlocked (targetId : Bytes) : Bool :=
  if targetId = [] then false
  else match (FriendRpcClient.getBlockList jwt db draws []).2 with
    | .error _ => false
    | .ok ids => ids.any fun id => id = targetId

end FriendSystem
end

/-- The user of a request is the one of its token; no group is passed on with a request or its
acceptance. -/
def friendCalls (jwt : Jwt) (draws : FriendDraws) : FriendCalls FriendDb where
  addFriend db req token :=
    succeeded (FriendRpcClient.addFriend jwt db draws token req.friendId req.remark)
  handleFriendRequest db req token :=
    succeeded (FriendRpcClient.handleFriendRequest jwt db draws token req.requestId req.accept [])
  removeFriend db req token :=
    succeeded (FriendRpcClient.removeFriend jwt db draws token req.friendId)
  blockUser db req token := succeeded (FriendRpcClient.blockUser jwt db draws token req.targetId)
  unblockUser db req token := succeeded (FriendRpcClient.unblockUser jwt db draws token req.targetId)
  getFriends db _ groupId token := FriendRpcClient.getFriends jwt db draws token groupId
  getFriendRequests db _ kind token := FriendRpcClient.getFriendRequests jwt db draws token kind
  getBlockList db _ token := FriendRpcClient.getBlockList jwt db draws token
  createFriendGroup db _ groupName token :=
    FriendRpcClient.createFriendGroup jwt db draws token groupName
  getFriendGroups db _ token := FriendRpcClient.getFriendGroups jwt db draws token
  moveFriendToGroup db _ req token :=
    FriendRpcClient.moveFriendToGroup jwt db draws token req.friendId req.groupId
  deleteFriendGroup db _ groupId token :=
    FriendRpcClient.deleteFriendGroup jwt db draws token groupId
  setRemark db _ req token :=
    FriendRpcClient.setRemark jwt db draws token req.friendId req.remark

section
variable (jwt : Jwt) (codec : FriendCodec) (draws : FriendDraws) (r : ClientRequest)

/-- An operation by the user of the request's token. -/
def friendOpOf (op : Bytes → FriendOp) : List FriendOp :=
  let uid := getAuthenticatedUserId jwt (createContext r.token) draws.verify
  if uid = [] then [] else [op uid]

/-- The operation a request asks for; the requests that only read ask for none. -/
def friendOps : List FriendOp :=
  if r.cmd = str "friend.add" then
    asked codec.parseAdd r fun req => friendOpOf jwt draws r fun uid =>
      .addFriend uid req.friendId req.remark draws.request draws.now
  else if r.cmd = str "friend.handle_request" then
    asked codec.parseHandleRequest r fun req => friendOpOf jwt draws r fun uid =>
      .handleRequest uid req.requestId req.accept [] draws.now
  else if r.cmd = str "friend.remove" then
    asked codec.parseRemove r fun req => friendOpOf jwt draws r fun uid =>
      .removeFriend uid req.friendId
  else if r.cmd = str "friend.block" then
    asked codec.parseBlock r fun req => friendOpOf jwt draws r fun uid => .block uid req.targetId
  else if r.cmd = str "friend.unblock" then
    asked codec.parseBlock r fun req => friendOpOf jwt draws r fun uid => .unblock uid req.targetId
  else if r.cmd = str "friend.get_friends" then []
  else if r.cmd = str "friend.get_requests" ∨ r.cmd = str "friend.get_friend_requests" then []
  else if r.cmd = str "friend.search" then []
  else if r.cmd = str "friend.get_block_list" then []
  else if r.cmd = str "friend.create_group" then
    asked codec.parseCreateGroup r fun groupName => askedInSession r <|
      friendOpOf jwt draws r fun uid => .createFriendGroup uid groupName draws.group
  else if r.cmd = str "friend.get_groups" then
    asked codec.parseGetGroups r fun _ => askedInSession r <|
      friendOpOf jwt draws r fun uid => .getFriendGroups uid
  else if r.cmd = str "friend.move_to_group" then
    asked codec.parseMoveToGroup r fun req => askedInSession r <|
      friendOpOf jwt draws r fun uid => .moveFriend uid req.friendId req.groupId
  else if r.cmd = str "friend.delete_group" then
    asked codec.parseDeleteGroup r fun groupId => askedInSession r <|
      friendOpOf jwt draws r fun uid => .deleteFriendGroup uid groupId
  else if r.cmd = str "friend.set_remark" then
    asked codec.parseSetRemark r fun req => askedInSession r <|
      friendOpOf jwt draws r fun uid => .setRemark uid req.friendId req.remark
  else []

end

section
variable {S : Type} {z : ZoneService S} {m : SystemManager S} {part : Part S FriendDb} {s : S}
  {jwt : Jwt} {draws : FriendDraws} {r : ClientRequest} {op : Bytes → FriendOp}

/-- What a call does to the database, by the operation its user asks for. -/
theorem requireAuth_run {α : Type} [Inhabited α] {db : FriendDb}
    {act : Bytes → FriendDb × RpcResponse α} (h : ∀ uid, (act uid).1 = friendStep db (op uid)) :
    (FriendHandler.requireAuth jwt (createContext r.token) db draws.verify act).1 =
      run friendStep db (friendOpOf jwt draws r op) := by
  unfold FriendHandler.requireAuth friendOpOf
  simp only
  split
  · rfl
  · exact h _

theorem requireAuth_unchanged {α : Type} [Inhabited α] {db : FriendDb} {metadata : Metadata}
    {now : Int} {act : Bytes → FriendDb × RpcResponse α} (h : ∀ uid, (act uid).1 = db) :
    (FriendHandler.requireAuth jwt metadata db now act).1 = db := by
  unfold FriendHandler.requireAuth
  simp only
  split
  · rfl
  · exact h _

theorem listCall_unchanged {α : Type} {db : FriendDb} {metadata : Metadata} {now : Int}
    {act : Bytes → FriendDb × List α} (h : ∀ uid, (act uid).1 = db) :
    (FriendHandler.listCall jwt metadata db now act).1 = db :=
  requireAuth_unchanged fun uid => h uid

/-- A request for `friend.*` does the operation it asks for, and nothing else. -/
theorem handleFriend_does (hm : m.friends = some ((friendCalls jwt draws).lift part))
    (hsearch : ∀ auth, m.auth = some auth →
      ∀ s keyword limit token, (auth.searchUsers s keyword limit token).1 = s) :
    Does z part friendStep s (friendOps jwt z.codecs.friends draws r) (z.handleFriend m s r) := by
  simp only [ZoneService.handleFriend, hm, friendOps, FriendCalls.lift, friendCalls, succeeded,
    FriendRpcClient.call, FriendRpcClient.addFriend, FriendRpcClient.handleFriendRequest,
    FriendRpcClient.removeFriend, FriendRpcClient.blockUser, FriendRpcClient.unblockUser,
    FriendRpcClient.createFriendGroup, FriendRpcClient.getFriendGroups,
    FriendRpcClient.moveFriendToGroup, FriendRpcClient.deleteFriendGroup,
    FriendRpcClient.setRemark, FriendRpcClient.getFriends, FriendRpcClient.getFriendRequests,
    FriendRpcClient.getBlockList]
  -- five requests that are answered by a code
  iterate 5
    apply Does.ite
    · exact does_parsed fun req => .codeAnswer (does_call (requireAuth_run fun _ => rfl))
  -- two that read
  iterate 2
    apply Does.ite
    · exact does_parsed_nothing fun _ => does_ofSession_nothing <|
        .readAnswer (does_call (listCall_unchanged fun _ => rfl))
  apply Does.ite
  · refine does_parsed_nothing fun req => does_ofSession_nothing ?_
    cases hauth : m.auth with
    | none => exact does_nothing
    | some auth =>
      exact .readAnswer (does_unchanged (hsearch auth hauth _ _ _ _))
  apply Does.ite
  · exact does_parsed_nothing fun _ => does_ofSession_nothing <|
      .readAnswer (does_call (listCall_unchanged fun _ => rfl))
  apply Does.ite
  · exact does_parsed fun _ => does_ofSession <|
      .changeAnswer (does_call (requireAuth_run fun _ => rfl))
  apply Does.ite
  · exact does_parsed fun _ => does_ofSession <|
      .readAnswer (does_call (requireAuth_run fun _ => rfl))
  iterate 3
    apply Does.ite
    · exact does_parsed fun _ => does_ofSession <|
        .changeAnswer (does_call (requireAuth_run fun _ => rfl))
  exact does_nothing

end
end SwiftChat.Zone
