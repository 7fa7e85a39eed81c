import SwiftChat.Chat.GroupStore
import SwiftChat.Common

/-! Group operations with the rights of the acting user. -/
namespace SwiftChat.Chat
open Base

def roleOwner : Int := 0
def roleMember : Int := 1
def roleAdmin : Int := 2
def minGroupMembers : Nat := 3

namespace GroupService

structure CreateGroupResult where
  errorCode : ErrorCode := .ok
  groupId : Bytes := []
deriving DecidableEq

/-- The creator and the non-empty invited ids, without repetition, in byte order. -/
def uniqueMembers (creatorId : Bytes) (memberIds : List Bytes) : List Bytes :=
  let unique := (memberIds.filter (· ≠ [])).foldl (fun s id => s.put id ())
    ((OrderedMap.empty : OrderedMap Bytes Unit).put creatorId ())
  unique.entries.map Prod.fst

/-- Adds ids as plain members; an id that cannot be added is passed over. -/
def addMembers (db : GroupDb) (groupId : Bytes) (ids : List Bytes) (now : Int) : GroupDb :=
  ids.foldl (fun db uid =>
    (GroupStore.addMember db groupId { userId := uid, role := roleMember, joinedAt := now }).1) db

/-- The record `CreateGroup` stores; it already counts every member. -/
def newGroup (groupId creatorId groupName avatarUrl : Bytes) (unique : List Bytes) (now : Int) :
    GroupData := {
  groupId := groupId
  groupName := if groupName = [] then str "群聊" else groupName
  avatarUrl := avatarUrl
  ownerId := creatorId
  memberCount := unique.length
  createdAt := now
  updatedAt := now }

def createGroup (db : GroupDb) (creatorId groupName avatarUrl : Bytes) (memberIds : List Bytes)
    (groupRandom : RandomString 12) (now : Int) : GroupDb × CreateGroupResult :=
  if creatorId = [] then (db, { errorCode := .invalidParam })
  else
    let unique := uniqueMembers creatorId memberIds
    if unique.length < minGroupMembers then (db, { errorCode := .groupMembersTooFew })
    else
      let groupId := generateShortId (str "g_") groupRandom
      let (db, created) := GroupStore.createGroup db
        (newGroup groupId creatorId groupName avatarUrl unique now)
      if ¬ created then (db, { errorCode := .internalError })
      else
        let (db, added) := GroupStore.addMember db groupId
          { userId := creatorId, role := roleOwner, joinedAt := now }
        if ¬ added then ((GroupStore.deleteGroup db groupId).1, { errorCode := .internalError })
        else
          (addMembers db groupId (unique.filter (· ≠ creatorId)) now,
            { errorCode := .ok, groupId := groupId })

/-- The code of a store call that either worked or did not. -/
def storeCode (r : GroupDb × Bool) : GroupDb × ErrorCode :=
  (r.1, if r.2 then .ok else .internalError)

def dismissGroup (db : GroupDb) (groupId operatorId : Bytes) : GroupDb × ErrorCode :=
  if groupId = [] ∨ operatorId = [] then (db, .invalidParam)
  else match GroupStore.getGroup db groupId with
    | none => (db, .groupNotFound)
    | some g =>
      if g.ownerId ≠ operatorId then (db, .notGroupOwner)
      else storeCode (GroupStore.deleteGroup db groupId)

def getGroupInfo (db : GroupDb) (groupId : Bytes) : Option GroupData :=
  if groupId = [] then none else GroupStore.getGroup db groupId

def updateGroup (db : GroupDb) (groupId operatorId groupName avatarUrl announcement : Bytes)
    (now : Int) : GroupDb × ErrorCode :=
  if groupId = [] ∨ operatorId = [] then (db, .invalidParam)
  else match GroupStore.getGroup db groupId with
    | none => (db, .groupNotFound)
    | some g =>
      if g.ownerId ≠ operatorId ∧
          (GroupStore.getMember db groupId operatorId).all (fun m => m.role ≠ roleAdmin) then
        (db, .permissionDenied)
      else
        let name := if groupName ≠ [] then groupName else g.groupName
        let avatar := if avatarUrl ≠ [] then avatarUrl else g.avatarUrl
        storeCode (GroupStore.updateGroup db groupId name avatar announcement now)

/-- The loop of `InviteMembers`: empty ids and members are passed over. -/
def inviteLoop (db : GroupDb) (groupId : Bytes) (memberIds : List Bytes) (now : Int) : GroupDb :=
  memberIds.foldl (fun db uid =>
    if uid = [] then db
    else if GroupStore.isMember db groupId uid then db
    else (GroupStore.addMember db groupId
      { userId := uid, role := roleMember, joinedAt := now }).1) db

def inviteMembers (db : GroupDb) (groupId inviterId : Bytes) (memberIds : List Bytes)
    (now : Int) : GroupDb × ErrorCode :=
  if groupId = [] ∨ inviterId = [] then (db, .invalidParam)
  else match GroupStore.getGroup db groupId with
    | none => (db, .groupNotFound)
    | some _ =>
      if ¬ GroupStore.isMember db groupId inviterId then (db, .notGroupMember)
      else (inviteLoop db groupId memberIds now, .ok)

def removeMember (db : GroupDb) (groupId operatorId memberId : Bytes) : GroupDb × ErrorCode :=
  if groupId = [] ∨ operatorId = [] ∨ memberId = [] then (db, .invalidParam)
  else match GroupStore.getGroup db groupId with
    | none => (db, .groupNotFound)
    | some _ =>
      if ¬ GroupStore.isMember db groupId memberId then (db, .notGroupMember)
      else match GroupStore.getMember db groupId operatorId with
        | none => (db, .notGroupMember)
        | some op =>
          match GroupStore.getMember db groupId memberId with
          | none => (db, .notGroupMember)
          | some target =>
            if target.role = roleOwner then (db, .kickNotAllowed)
            else if op.role ≠ roleOwner ∧ op.role ≠ roleAdmin then (db, .permissionDenied)
            else if op.role = roleAdmin ∧ target.role = roleAdmin then (db, .kickNotAllowed)
            else storeCode (GroupStore.removeMember db groupId memberId)

def leaveGroup (db : GroupDb) (groupId userId : Bytes) : GroupDb × ErrorCode :=
  if groupId = [] ∨ userId = [] then (db, .invalidParam)
  else match GroupStore.getGroup db groupId with
    | none => (db, .groupNotFound)
    | some g =>
      if g.ownerId = userId then (db, .ownerCannotLeave)
      else if ¬ GroupStore.isMember db groupId userId then (db, .notGroupMember)
      else storeCode (GroupStore.removeMember db groupId userId)

def getGroupMembers (db : GroupDb) (groupId : Bytes) (page pageSize : Int) :
    List GroupMemberData × Int :=
  if groupId = [] then ([], 0) else GroupStore.getMembers db groupId page pageSize

def transferOwner (db : GroupDb) (groupId oldOwnerId newOwnerId : Bytes) : GroupDb × ErrorCode :=
  if groupId = [] ∨ oldOwnerId = [] ∨ newOwnerId = [] then (db, .invalidParam)
  else match GroupStore.getGroup db groupId with
    | none => (db, .groupNotFound)
    | some g =>
      if g.ownerId ≠ oldOwnerId then (db, .notGroupOwner)
      else if ¬ GroupStore.isMember db groupId newOwnerId then (db, .notGroupMember)
      else
        let (db, demoted) := GroupStore.updateMemberRole db groupId oldOwnerId roleMember
        if ¬ demoted then (db, .internalError)
        else
          let (db, promoted) := GroupStore.updateMemberRole db groupId newOwnerId roleOwner
          if ¬ promoted then (db, .internalError)
          else storeCode (GroupStore.updateGroupOwner db groupId newOwnerId)

def setMemberRole (db : GroupDb) (groupId operatorId memberId : Bytes) (role : Int) :
    GroupDb × ErrorCode :=
  if groupId = [] ∨ operatorId = [] ∨ memberId = [] then (db, .invalidParam)
  else match GroupStore.getGroup db groupId with
    | none => (db, .groupNotFound)
    | some g =>
      if g.ownerId ≠ operatorId then (db, .notGroupOwner)
      else match GroupStore.getMember db groupId memberId with
        | none => (db, .notGroupMember)
        | some target =>
          if target.role = roleOwner then (db, .permissionDenied)
          else storeCode (GroupStore.updateMemberRole db groupId memberId role)

def getUserGroups (db : GroupDb) (userId : Bytes) : List GroupData :=
  if userId = [] then []
  else (GroupStore.getUserGroupIds db userId).filterMap (GroupStore.getGroup db)

end GroupService
end SwiftChat.Chat
