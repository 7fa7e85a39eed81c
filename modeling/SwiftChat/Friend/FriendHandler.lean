import SwiftChat.Auth.AuthService
import SwiftChat.Friend.FriendService
import SwiftChat.Grpc

/-! The remote calls of the friend service. -/
namespace SwiftChat.Friend
open Base

structure FriendInfo where
  friendId : Bytes := []
  remark : Bytes := []
  groupId : Bytes := []
  status : Int := 0
  profile : Option Auth.AuthProfile := none
  addedAt : Int := 0
deriving DecidableEq

structure FriendRequestInfo where
  requestId : Bytes := []
  fromUserId : Bytes := []
  toUserId : Bytes := []
  remark : Bytes := []
  status : Int := 0
  createdAt : Int := 0
  fromProfile : Option Auth.AuthProfile := none
deriving DecidableEq

structure FriendGroup where
  groupId : Bytes := []
  groupName : Bytes := []
  friendCount : Int := 0
  sortOrder : Int := 0
deriving DecidableEq

/-- The profile is left to others to fill in, and so is the status. -/
def friendInfo (f : FriendData) : FriendInfo where
  friendId := f.friendId
  remark := f.remark
  groupId := f.groupId
  addedAt := f.addedAt

def friendRequestInfo (r : FriendRequestData) : FriendRequestInfo where
  requestId := r.requestId
  fromUserId := r.fromUserId
  toUserId := r.toUserId
  remark := r.remark
  status := r.status
  createdAt := r.createdAt

/-- A group with the number of friends that are in it. -/
def friendGroup (db : FriendDb) (uid : Bytes) (g : FriendGroupData) : FriendGroup where
  groupId := g.groupId
  groupName := g.groupName
  friendCount := (FriendService.getFriends db uid g.groupId).length
  sortOrder := g.sortOrder

/-- `SetFail` with its default text, which stands in for that of the code. -/
def operationFailed (code : ErrorCode) : RpcResponse Unit :=
  .fail (errorCodeToInt code) (str "operation failed")

/-- `SetFail` with `FRIEND_NOT_FOUND`. -/
def friendNotFound : RpcResponse Unit := .fail 201 (str "friend not found")

namespace FriendHandler
section
variable (jwt : Jwt) (metadata : Metadata) (db : FriendDb) (now : Int)

/-- Every call acts for the user of its token, and is refused without one. `now` is in seconds. -/
def requireAuth {α : Type} [Inhabited α] (act : Bytes → FriendDb × RpcResponse α) :
    FriendDb × RpcResponse α :=
  let uid := getAuthenticatedUserId jwt metadata now
  if uid = [] then (db, .tokenMissing) else act uid

/-- A call that either works or fails in one way. -/
def commonCall (failure : RpcResponse Unit) (act : Bytes → FriendDb × Bool) :
    FriendDb × RpcResponse Unit :=
  requireAuth jwt metadata db now fun uid =>
    let (db, ok) := act uid
    (db, if ok then .ok [] () else failure)

/-- A call that reads. -/
def listCall {α : Type} (act : Bytes → FriendDb × List α) : FriendDb × RpcResponse (List α) :=
  requireAuth jwt metadata db now fun uid =>
    let (db, list) := act uid
    (db, .ok [] list)

def addFriend (friendId remark : Bytes) (r : RandomString 12) (nowMs : Int) :
    FriendDb × RpcResponse Unit :=
  commonCall jwt metadata db now (operationFailed .unknown) fun uid =>
    FriendService.addFriend db uid friendId remark r nowMs

def handleFriendRequest (requestId : Bytes) (accept : Bool) (groupId : Bytes) (nowMs : Int) :
    FriendDb × RpcResponse Unit :=
  commonCall jwt metadata db now (operationFailed .unknown) fun uid =>
    FriendService.handleRequest db uid requestId accept groupId nowMs

def removeFriend (friendId : Bytes) : FriendDb × RpcResponse Unit :=
  commonCall jwt metadata db now friendNotFound fun uid =>
    FriendService.removeFriend db uid friendId

def getFriends (groupId : Bytes) : FriendDb × RpcResponse (List FriendInfo) :=
  listCall jwt metadata db now fun uid =>
    (db, (FriendService.getFriends db uid groupId).map friendInfo)

def blockUser (targetId : Bytes) : FriendDb × RpcResponse Unit :=
  commonCall jwt metadata db now (operationFailed .unknown) fun uid =>
    FriendService.block db uid targetId

def unblockUser (targetId : Bytes) : FriendDb × RpcResponse Unit :=
  commonCall jwt metadata db now (operationFailed .unknown) fun uid =>
    FriendService.unblock db uid targetId

def getBlockList : FriendDb × RpcResponse (List Bytes) :=
  listCall jwt metadata db now fun uid => (db, FriendService.getBlockList db uid)

/-- The id of the new group is left behind. -/
def createFriendGroup (groupName : Bytes) (r : RandomString 8) : FriendDb × RpcResponse Unit :=
  commonCall jwt metadata db now (operationFailed .unknown) fun uid =>
    let (db, groupId) := FriendService.createFriendGroup db uid groupName r
    (db, groupId.isSome)

def getFriendGroups : FriendDb × RpcResponse (List FriendGroup) :=
  listCall jwt metadata db now fun uid =>
    let (db, groups) := FriendService.getFriendGroups db uid
    (db, groups.map (friendGroup db uid))

def deleteFriendGroup (groupId : Bytes) : FriendDb × RpcResponse Unit :=
  requireAuth jwt metadata db now fun uid =>
    let (db, code) := FriendService.deleteFriendGroup db uid groupId
    (db, if code = .ok then .ok [] () else operationFailed code)

def moveFriend (friendId toGroupId : Bytes) : FriendDb × RpcResponse Unit :=
  commonCall jwt metadata db now friendNotFound fun uid =>
    FriendService.moveFriend db uid friendId toGroupId

def setRemark (friendId remark : Bytes) : FriendDb × RpcResponse Unit :=
  commonCall jwt metadata db now friendNotFound fun uid =>
    FriendService.setRemark db uid friendId remark

def getFriendRequests (kind : Int) : FriendDb × RpcResponse (List FriendRequestInfo) :=
  listCall jwt metadata db now fun uid =>
    (db, (FriendService.getFriendRequests db uid kind).map friendRequestInfo)

end
end FriendHandler
end SwiftChat.Friend
