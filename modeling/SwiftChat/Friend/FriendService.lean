import SwiftChat.Common
import SwiftChat.Friend.FriendStore

/-! Friend requests, friendships, groups and blocks as the users' operations see them. -/
namespace SwiftChat.Friend
open Base

namespace FriendService

def addFriend (db : FriendDb) (userId friendId remark : Bytes) (requestRandom : RandomString 12)
    (now : Int) : FriendDb × Bool :=
  if userId = [] ∨ friendId = [] then (db, false)
  else if userId = friendId then (db, false)
  else if FriendStore.isFriend db userId friendId then (db, false)
  else if FriendStore.isBlocked db friendId userId then (db, false)
  else if (FriendStore.getReceivedRequests db friendId).any
      (fun r => r.fromUserId = userId ∧ r.status = 0) then (db, false)
  else FriendStore.createRequest db {
    requestId := generateShortId (str "req_") requestRandom
    fromUserId := userId
    toUserId := friendId
    remark := remark
    status := 0
    createdAt := now }

/-- Creates the default group unless the user has it. -/
def ensureDefaultGroup (db : FriendDb) (userId : Bytes) : FriendDb :=
  if userId = [] then db
  else if (FriendStore.getGroups db userId).any (fun g => g.groupId = defaultFriendGroupId) then db
  else (FriendStore.createGroup db {
    groupId := defaultFriendGroupId
    userId := userId
    groupName := defaultFriendGroupName
    sortOrder := 0 }).1

/-- The friendship that accepting a request makes, from the side of its receiver. -/
def acceptedFriend (userId fromUserId groupId : Bytes) (now : Int) : FriendData where
  userId := userId
  friendId := fromUserId
  groupId := if groupId = [] then defaultFriendGroupId else groupId
  addedAt := now

def handleRequest (db : FriendDb) (userId requestId : Bytes) (accept : Bool) (groupId : Bytes)
    (now : Int) : FriendDb × Bool :=
  if userId = [] ∨ requestId = [] then (db, false)
  else match FriendStore.getRequest db requestId with
    | none => (db, false)
    | some req =>
      if req.toUserId ≠ userId then (db, false)
      else if req.status ≠ 0 then (db, false)
      else if accept then
        let db := ensureDefaultGroup db userId
        let (db, added) := FriendStore.addFriend db
          (acceptedFriend userId req.fromUserId groupId now)
        if ¬ added then (db, false) else FriendStore.updateRequestStatus db requestId 1
      else FriendStore.updateRequestStatus db requestId 2

def removeFriend (db : FriendDb) (userId friendId : Bytes) : FriendDb × Bool :=
  if userId = [] ∨ friendId = [] then (db, false)
  else if ¬ FriendStore.isFriend db userId friendId then (db, false)
  else FriendStore.removeFriend db userId friendId

def getFriends (db : FriendDb) (userId groupId : Bytes) : List FriendData :=
  if userId = [] then [] else FriendStore.getFriends db userId groupId

def block (db : FriendDb) (userId targetId : Bytes) : FriendDb × Bool :=
  if userId = [] ∨ targetId = [] then (db, false)
  else if userId = targetId then (db, false)
  else FriendStore.block db userId targetId

def unblock (db : FriendDb) (userId targetId : Bytes) : FriendDb × Bool :=
  if userId = [] ∨ targetId = [] then (db, false) else FriendStore.unblock db userId targetId

def getBlockList (db : FriendDb) (userId : Bytes) : List Bytes :=
  if userId = [] then [] else FriendStore.getBlockList db userId

/-- The id of the new group comes with success. -/
def createFriendGroup (db : FriendDb) (userId groupName : Bytes) (groupRandom : RandomString 8) :
    FriendDb × Option Bytes :=
  if userId = [] ∨ groupName = [] then (db, none)
  else
    let groupId := generateShortId (str "g_") groupRandom
    let (db, created) := FriendStore.createGroup db {
      groupId := groupId
      userId := userId
      groupName := groupName
      sortOrder := 0 }
    (db, if created then some groupId else none)

def getFriendGroups (db : FriendDb) (userId : Bytes) : FriendDb × List FriendGroupData :=
  if userId = [] then (db, [])
  else
    let db := ensureDefaultGroup db userId
    (db, FriendStore.getGroups db userId)

def deleteFriendGroup (db : FriendDb) (userId groupId : Bytes) : FriendDb × ErrorCode :=
  if userId = [] then (db, .invalidParam)
  else if groupId = [] ∨ groupId = defaultFriendGroupId then (db, .friendGroupDefault)
  else if ¬ (FriendStore.getGroups db userId).any (fun g => g.groupId = groupId) then
    (db, .friendGroupNotFound)
  else
    let (db, deleted) := FriendStore.deleteGroup db userId groupId
    (db, if deleted then .ok else .internalError)

def moveFriend (db : FriendDb) (userId friendId toGroupId : Bytes) : FriendDb × Bool :=
  if userId = [] ∨ friendId = [] then (db, false)
  else if ¬ FriendStore.isFriend db userId friendId then (db, false)
  else FriendStore.moveFriend db userId friendId toGroupId

def setRemark (db : FriendDb) (userId friendId remark : Bytes) : FriendDb × Bool :=
  if userId = [] ∨ friendId = [] then (db, false)
  else if ¬ FriendStore.isFriend db userId friendId then (db, false)
  else FriendStore.updateRemark db userId friendId remark

/-- `kind` 0 asks for all requests, 1 for those received, 2 for those sent. -/
def getFriendRequests (db : FriendDb) (userId : Bytes) (kind : Int) : List FriendRequestData :=
  if userId = [] then []
  else if kind = 1 then FriendStore.getReceivedRequests db userId
  else if kind = 2 then FriendStore.getSentRequests db userId
  else FriendStore.getReceivedRequests db userId ++ FriendStore.getSentRequests db userId

end FriendService
end SwiftChat.Friend
