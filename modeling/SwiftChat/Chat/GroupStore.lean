import SwiftChat.Base.OrderedMap
import SwiftChat.Chat.Keys

/-! The group store over its ordered database. -/
namespace SwiftChat.Chat
open Base

structure GroupData where
  groupId : Bytes := []
  groupName : Bytes := []
  avatarUrl : Bytes := []
  ownerId : Bytes := []
  memberCount : Int := 0
  announcement : Bytes := []
  createdAt : Int := 0
  updatedAt : Int := 0
  status : Int := 0
deriving DecidableEq

structure GroupMemberData where
  userId : Bytes := []
  role : Int := 1
  nickname : Bytes := []
  joinedAt : Int := 0
deriving DecidableEq

/-- A value of the group database: a group, a membership, or the empty string of the index. -/
inductive GroupValue where
  | group (g : GroupData)
  | member (m : GroupMemberData)
  | empty
deriving DecidableEq

abbrev GroupDb := OrderedMap Bytes GroupValue

def kGroup : Bytes := str "group:"
def kGroupMember : Bytes := str "group_member:"
def kUserGroups : Bytes := str "user_groups:"

def keyGroup (groupId : Bytes) : Bytes := kGroup ++ groupId
def keyGroupMember (groupId userId : Bytes) : Bytes := kGroupMember ++ groupId ++ str ":" ++ userId
def keyUserGroup (userId groupId : Bytes) : Bytes := kUserGroups ++ userId ++ str ":" ++ groupId
def prefixGroupMember (groupId : Bytes) : Bytes := kGroupMember ++ groupId ++ str ":"
def prefixUserGroups (userId : Bytes) : Bytes := kUserGroups ++ userId ++ str ":"

namespace GroupStore

def createGroup (db : GroupDb) (data : GroupData) : GroupDb × Bool :=
  if data.groupId = [] ∨ data.ownerId = [] then (db, false)
  else if (db.get (keyGroup data.groupId)).isSome then (db, false)
  else (db.put (keyGroup data.groupId) (.group data), true)

def getGroup (db : GroupDb) (groupId : Bytes) : Option GroupData :=
  if groupId = [] then none
  else match db.get (keyGroup groupId) with
    | some (.group g) => some g
    | _ => none

def updateGroup (db : GroupDb) (groupId groupName avatarUrl announcement : Bytes)
    (updatedAt : Int) : GroupDb × Bool :=
  match getGroup db groupId with
  | none => (db, false)
  | some g =>
    let g := { g with
      groupName := if groupName = [] then g.groupName else groupName
      avatarUrl := if avatarUrl = [] then g.avatarUrl else avatarUrl
      announcement := announcement
      updatedAt := if updatedAt ≠ 0 then updatedAt else g.updatedAt }
    (db.put (keyGroup groupId) (.group g), true)

def updateGroupOwner (db : GroupDb) (groupId newOwnerId : Bytes) : GroupDb × Bool :=
  if newOwnerId = [] then (db, false)
  else match getGroup db groupId with
    | none => (db, false)
    | some g => (db.put (keyGroup groupId) (.group { g with ownerId := newOwnerId }), true)

/-- The user ids of all membership keys of a group. -/
def memberIds (db : GroupDb) (groupId : Bytes) : List Bytes :=
  let pfx := prefixGroupMember groupId
  ((db.scan pfx).filter (fun e => pfx.length < e.1.length)).map (fun e => e.1.drop pfx.length)

/-- The deletions of a batch that drops a list of members. -/
def dropMembers (groupId : Bytes) (userIds : List Bytes) :
    List (OrderedMap.BatchOp Bytes GroupValue) :=
  userIds.flatMap fun uid =>
    [.delete (keyGroupMember groupId uid), .delete (keyUserGroup uid groupId)]

def deleteGroup (db : GroupDb) (groupId : Bytes) : GroupDb × Bool :=
  if groupId = [] then (db, false)
  else (db.write (.delete (keyGroup groupId) :: dropMembers groupId (memberIds db groupId)), true)

def dissolveGroup (db : GroupDb) (groupId : Bytes) : GroupDb × Bool :=
  match getGroup db groupId with
  | none => (db, false)
  | some g =>
    if g.status = 1 then (db, true)
    else
      (db.write (.put (keyGroup groupId) (.group { g with status := 1, memberCount := 0 }) ::
        dropMembers groupId (memberIds db groupId)), true)

def addMember (db : GroupDb) (groupId : Bytes) (member : GroupMemberData) : GroupDb × Bool :=
  if groupId = [] ∨ member.userId = [] then (db, false)
  else if (db.get (keyGroupMember groupId member.userId)).isSome then (db, false)
  else match getGroup db groupId with
    | none => (db, false)
    | some g =>
      (db.write [.put (keyGroupMember groupId member.userId) (.member member),
        .put (keyUserGroup member.userId groupId) .empty,
        .put (keyGroup groupId)
          (.group { g with memberCount := g.memberCount + 1, updatedAt := 0 })], true)

def removeMember (db : GroupDb) (groupId userId : Bytes) : GroupDb × Bool :=
  if groupId = [] ∨ userId = [] then (db, false)
  else if (db.get (keyGroupMember groupId userId)).isNone then (db, false)
  else match getGroup db groupId with
    | none => (db, false)
    | some g =>
      (db.write [.delete (keyGroupMember groupId userId), .delete (keyUserGroup userId groupId),
        .put (keyGroup groupId)
          (.group { g with memberCount := max 0 (g.memberCount - 1) })], true)

def getMember (db : GroupDb) (groupId userId : Bytes) : Option GroupMemberData :=
  if groupId = [] ∨ userId = [] then none
  else match db.get (keyGroupMember groupId userId) with
    | some (.member m) => some m
    | _ => none

/-- All membership records of a group, in key order. -/
def allMembers (db : GroupDb) (groupId : Bytes) : List GroupMemberData :=
  (db.scan (prefixGroupMember groupId)).filterMap fun e =>
    match e.2 with
    | .member m => some m
    | _ => none

def getMembers (db : GroupDb) (groupId : Bytes) (page pageSize : Int) :
    List GroupMemberData × Int :=
  if groupId = [] then ([], 0)
  else
    let all := allMembers db groupId
    let page := if page ≤ 0 then 1 else page
    let pageSize := if pageSize ≤ 0 then 50 else pageSize
    let offset := (page - 1) * pageSize
    if offset ≥ all.length then ([], all.length)
    else
      let last := min (offset + pageSize) all.length
      ((all.drop offset.toNat).take (last - offset).toNat, all.length)

def updateMemberRole (db : GroupDb) (groupId userId : Bytes) (role : Int) : GroupDb × Bool :=
  match getMember db groupId userId with
  | none => (db, false)
  | some m => (db.put (keyGroupMember groupId userId) (.member { m with role := role }), true)

def isMember (db : GroupDb) (groupId userId : Bytes) : Bool :=
  if groupId = [] ∨ userId = [] then false
  else (db.get (keyGroupMember groupId userId)).isSome

def getUserGroupIds (db : GroupDb) (userId : Bytes) : List Bytes :=
  if userId = [] then []
  else
    let pfx := prefixUserGroups userId
    ((db.scan pfx).filter (fun e => pfx.length < e.1.length)).map (fun e => e.1.drop pfx.length)

end GroupStore
end SwiftChat.Chat
