import SwiftChat.Base.Interleave
import SwiftChat.Friend.FriendService

/-! Handling a request as a program of single actions on the database. -/
namespace SwiftChat.Friend
open Base
variable {db : FriendDb}

/-- An atomic action of the friend store: a read of one key, an iteration over one snapshot, or a
write. -/
inductive FriendAct where
  | getRequest (requestId : Bytes)
  | getGroups (userId : Bytes)
  | groupExists (userId groupId : Bytes)
  | putGroup (group : FriendGroupData)
  | isFriend (userId friendId : Bytes)
  | putFriends (data : FriendData)
  | putRequest (requestId : Bytes) (req : FriendRequestData)

abbrev FriendReply : FriendAct → Type
  | .getRequest _ => Option FriendRequestData
  | .getGroups _ => List FriendGroupData
  | .groupExists _ _ => Bool
  | .putGroup _ => Unit
  | .isFriend _ _ => Bool
  | .putFriends _ => Unit
  | .putRequest _ _ => Unit

/-- Both sides of a friendship go into one batch. -/
def friendExec : (o : FriendAct) → FriendDb → FriendDb × FriendReply o
  | .getRequest requestId, db => (db, FriendStore.getRequest db requestId)
  | .getGroups userId, db => (db, FriendStore.getGroups db userId)
  | .groupExists userId groupId, db => (db, (db.get (keyFriendGroup userId groupId)).isSome)
  | .putGroup group, db =>
    (db.put (keyFriendGroup group.userId group.groupId) (serializeGroup group), ())
  | .isFriend userId friendId, db => (db, FriendStore.isFriend db userId friendId)
  | .putFriends data, db =>
    (db.write [.put (keyFriend data.userId data.friendId) (serializeFriend data),
      .put (keyFriend (FriendStore.reverse data).userId (FriendStore.reverse data).friendId)
        (serializeFriend (FriendStore.reverse data))], ())
  | .putRequest requestId req, db => (db.put (keyFriendReq requestId) (serializeRequest req), ())

abbrev FriendProg := Prog FriendAct FriendReply Bool

namespace FriendProg

def putGroupUnless (group : FriendGroupData) (next : Bool → FriendProg) (found : Bool) : FriendProg :=
  if found then next false else .act (.putGroup group) fun _ => next true

def createGroup (group : FriendGroupData) (next : Bool → FriendProg) : FriendProg :=
  if group.userId = [] ∨ group.groupId = [] then next false
  else .act (.groupExists group.userId group.groupId) (putGroupUnless group next)

def createDefaultGroup (userId : Bytes) (next : FriendProg) (groups : List FriendGroupData) :
    FriendProg :=
  if groups.any (fun g => g.groupId = defaultFriendGroupId) then next
  else createGroup {
    groupId := defaultFriendGroupId
    userId := userId
    groupName := defaultFriendGroupName
    sortOrder := 0 } fun _ => next

def ensureDefaultGroup (userId : Bytes) (next : FriendProg) : FriendProg :=
  if userId = [] then next else .act (.getGroups userId) (createDefaultGroup userId next)

def putFriendsUnless (data : FriendData) (next : Bool → FriendProg) (known : Bool) : FriendProg :=
  if known then next false else .act (.putFriends data) fun _ => next true

def addFriend (data : FriendData) (next : Bool → FriendProg) : FriendProg :=
  if data.userId = [] ∨ data.friendId = [] then next false
  else .act (.isFriend data.userId data.friendId) (putFriendsUnless data next)

def putStatus (requestId : Bytes) (status : Int) : Option FriendRequestData → FriendProg
  | none => .ret false
  | some req => .act (.putRequest requestId { req with status := status }) fun _ => .ret true

/-- `UpdateRequestStatus` reads the request again. -/
def updateRequestStatus (requestId : Bytes) (status : Int) : FriendProg :=
  .act (.getRequest requestId) (putStatus requestId status)

def afterAdd (requestId : Bytes) (added : Bool) : FriendProg :=
  if ¬ added then .ret false else updateRequestStatus requestId 1

def afterRead (userId requestId : Bytes) (accept : Bool) (groupId : Bytes) (now : Int) :
    Option FriendRequestData → FriendProg
  | none => .ret false
  | some req =>
    if req.toUserId ≠ userId then .ret false
    else if req.status ≠ 0 then .ret false
    else if accept then
      ensureDefaultGroup userId
        (addFriend (FriendService.acceptedFriend userId req.fromUserId groupId now)
          (afterAdd requestId))
    else updateRequestStatus requestId 2

def handleRequest (userId requestId : Bytes) (accept : Bool) (groupId : Bytes) (now : Int) :
    FriendProg :=
  if userId = [] ∨ requestId = [] then .ret false
  else .act (.getRequest requestId) (afterRead userId requestId accept groupId now)

/-! On its own the program does what the call does. -/

theorem run_createGroup (group : FriendGroupData) (next : Bool → FriendProg) :
    (createGroup group next).run friendExec db =
      (next (FriendStore.createGroup db group).2).run friendExec
        (FriendStore.createGroup db group).1 := by
  unfold createGroup FriendStore.createGroup
  split
  · rfl
  · rw [Prog.run_act]
    simp only [friendExec]
    cases (db.get (keyFriendGroup group.userId group.groupId)).isSome with
    | true => rfl
    | false => rfl

theorem run_ensureDefaultGroup (userId : Bytes) (next : FriendProg) :
    (ensureDefaultGroup userId next).run friendExec db =
      next.run friendExec (FriendService.ensureDefaultGroup db userId) := by
  unfold ensureDefaultGroup FriendService.ensureDefaultGroup
  split
  · rfl
  · rw [Prog.run_act]
    change (createDefaultGroup userId next (FriendStore.getGroups db userId)).run friendExec db = _
    unfold createDefaultGroup
    split
    · rfl
    · exact run_createGroup _ _

theorem run_addFriend (data : FriendData) (next : Bool → FriendProg) :
    (addFriend data next).run friendExec db =
      (next (FriendStore.addFriend db data).2).run friendExec (FriendStore.addFriend db data).1 := by
  unfold addFriend FriendStore.addFriend
  split
  · rfl
  · rw [Prog.run_act]
    simp only [friendExec]
    cases FriendStore.isFriend db data.userId data.friendId with
    | true => rfl
    | false => rfl

theorem run_updateRequestStatus (requestId : Bytes) (status : Int) :
    (updateRequestStatus requestId status).run friendExec db =
      FriendStore.updateRequestStatus db requestId status := by
  unfold updateRequestStatus FriendStore.updateRequestStatus
  rw [Prog.run_act]
  simp only [friendExec]
  cases FriendStore.getRequest db requestId with
  | none => rfl
  | some req => rfl

theorem run_handleRequest (userId requestId : Bytes) (accept : Bool) (groupId : Bytes) (now : Int) :
    (handleRequest userId requestId accept groupId now).run friendExec db =
      FriendService.handleRequest db userId requestId accept groupId now := by
  unfold handleRequest FriendService.handleRequest
  split
  · rfl
  · simp only [Prog.run_act, friendExec]
    cases FriendStore.getRequest db requestId with
    | none => rfl
    | some req =>
      simp only [afterRead]
      split
      · rfl
      · split
        · rfl
        · cases accept with
          | true =>
            simp only [if_true, run_ensureDefaultGroup, run_addFriend, afterAdd]
            split
            · rfl
            · exact run_updateRequestStatus requestId 1
          | false => exact run_updateRequestStatus requestId 2

end FriendProg

/-- A call that answers a request, beside others on the same one. -/
structure HandleCall where
  userId : Bytes
  accept : Bool
  groupId : Bytes := []
  now : Int := 0

def HandleCall.prog (call : HandleCall) (requestId : Bytes) : FriendProg :=
  FriendProg.handleRequest call.userId requestId call.accept call.groupId call.now

end SwiftChat.Friend
