import SwiftChat.Base.Codec
import SwiftChat.Base.Json
import SwiftChat.Base.OrderedMap

/-! The friend store: friendships, requests, groups and blocks in one ordered database. -/
namespace SwiftChat.Friend
open Base

structure FriendData where
  userId : Bytes := []
  friendId : Bytes := []
  remark : Bytes := []
  groupId : Bytes := []
  addedAt : Int := 0
deriving DecidableEq

/-- `status` is 0 while the request is pending, 1 when accepted, 2 when rejected. -/
structure FriendRequestData where
  requestId : Bytes := []
  fromUserId : Bytes := []
  toUserId : Bytes := []
  remark : Bytes := []
  status : Int := 0
  createdAt : Int := 0
deriving DecidableEq

structure FriendGroupData where
  groupId : Bytes := []
  userId : Bytes := []
  groupName : Bytes := []
  sortOrder : Int := 0
deriving DecidableEq

def defaultFriendGroupId : Bytes := str "default"
def defaultFriendGroupName : Bytes := str "我的好友"

/-- A value of the database: a JSON record, or a text that is none. -/
inductive FriendValue where
  | json (j : JsonObject)
  | text (s : Bytes)
deriving DecidableEq

abbrev FriendDb := OrderedMap Bytes FriendValue

def serializeFriend (d : FriendData) : FriendValue := .json [
  ("user_id", .string d.userId),
  ("friend_id", .string d.friendId),
  ("remark", .string d.remark),
  ("group_id", .string d.groupId),
  ("added_at", .number d.addedAt)]

/-- The default of `added_at` is an `int`, so the time is read as one. -/
def deserializeFriend : FriendValue → Option FriendData
  | .text _ => none
  | .json j => do
    let userId ← j.stringValue "user_id" []
    let friendId ← j.stringValue "friend_id" []
    let remark ← j.stringValue "remark" []
    let groupId ← j.stringValue "group_id" []
    let addedAt ← j.intValue 32 "added_at" 0
    return {
      userId := userId
      friendId := friendId
      remark := remark
      groupId := groupId
      addedAt := addedAt }

def serializeRequest (r : FriendRequestData) : FriendValue := .json [
  ("request_id", .string r.requestId),
  ("from_user_id", .string r.fromUserId),
  ("to_user_id", .string r.toUserId),
  ("remark", .string r.remark),
  ("status", .number r.status),
  ("created_at", .number r.createdAt)]

def deserializeRequest : FriendValue → Option FriendRequestData
  | .text _ => none
  | .json j => do
    let requestId ← j.stringValue "request_id" []
    let fromUserId ← j.stringValue "from_user_id" []
    let toUserId ← j.stringValue "to_user_id" []
    let remark ← j.stringValue "remark" []
    let status ← j.intValue 32 "status" 0
    let createdAt ← j.intValue 32 "created_at" 0
    return {
      requestId := requestId
      fromUserId := fromUserId
      toUserId := toUserId
      remark := remark
      status := status
      createdAt := createdAt }

def serializeGroup (g : FriendGroupData) : FriendValue := .json [
  ("group_id", .string g.groupId),
  ("user_id", .string g.userId),
  ("group_name", .string g.groupName),
  ("sort_order", .number g.sortOrder)]

def deserializeGroup : FriendValue → Option FriendGroupData
  | .text _ => none
  | .json j => do
    let groupId ← j.stringValue "group_id" []
    let userId ← j.stringValue "user_id" []
    let groupName ← j.stringValue "group_name" []
    let sortOrder ← j.intValue 32 "sort_order" 0
    return {
      groupId := groupId
      userId := userId
      groupName := groupName
      sortOrder := sortOrder }

/-! What a record is read back as: the numbers come back as 32-bit ones. -/

def FriendData.stored (d : FriendData) : FriendData := { d with addedAt := wrap 32 d.addedAt }

def FriendRequestData.stored (r : FriendRequestData) : FriendRequestData :=
  { r with status := wrap 32 r.status, createdAt := wrap 32 r.createdAt }

def FriendGroupData.stored (g : FriendGroupData) : FriendGroupData :=
  { g with sortOrder := wrap 32 g.sortOrder }

theorem deserialize_serializeFriend (d : FriendData) :
    deserializeFriend (serializeFriend d) = some d.stored := by
  simp [deserializeFriend, serializeFriend, JsonObject.stringValue, JsonObject.intValue,
    JsonObject.field, FriendData.stored]

theorem deserialize_serializeRequest (r : FriendRequestData) :
    deserializeRequest (serializeRequest r) = some r.stored := by
  simp [deserializeRequest, serializeRequest, JsonObject.stringValue, JsonObject.intValue,
    JsonObject.field, FriendRequestData.stored]

def friendCodec : Codec FriendData FriendValue where
  encode := serializeFriend
  decode := deserializeFriend
  kept := FriendData.stored
  decode_encode := deserialize_serializeFriend

def requestCodec : Codec FriendRequestData FriendValue where
  encode := serializeRequest
  decode := deserializeRequest
  kept := FriendRequestData.stored
  decode_encode := deserialize_serializeRequest

theorem deserialize_serializeGroup (g : FriendGroupData) :
    deserializeGroup (serializeGroup g) = some g.stored := by
  simp [deserializeGroup, serializeGroup, JsonObject.stringValue, JsonObject.intValue,
    JsonObject.field, FriendGroupData.stored]

theorem FriendData.stored_stored {d : FriendData} : d.stored.stored = d.stored := by
  simp [stored]

theorem FriendRequestData.stored_stored {r : FriendRequestData} : r.stored.stored = r.stored := by
  simp [stored]

def kFriend : Bytes := str "friend:"
def kFriendReq : Bytes := str "friend_req:"
def kFriendReqTo : Bytes := str "friend_req_to:"
def kFriendReqFrom : Bytes := str "friend_req_from:"
def kFriendGroup : Bytes := str "friend_group:"
def kBlock : Bytes := str "block:"

def keyFriend (userId friendId : Bytes) : Bytes := kFriend ++ userId ++ str ":" ++ friendId
def keyFriendReq (requestId : Bytes) : Bytes := kFriendReq ++ requestId
def keyFriendReqTo (toUserId requestId : Bytes) : Bytes :=
  kFriendReqTo ++ toUserId ++ str ":" ++ requestId
def keyFriendReqFrom (fromUserId requestId : Bytes) : Bytes :=
  kFriendReqFrom ++ fromUserId ++ str ":" ++ requestId
def keyFriendGroup (userId groupId : Bytes) : Bytes := kFriendGroup ++ userId ++ str ":" ++ groupId
def keyBlock (userId targetId : Bytes) : Bytes := kBlock ++ userId ++ str ":" ++ targetId

def prefixFriend (userId : Bytes) : Bytes := kFriend ++ userId ++ str ":"
def prefixFriendReqTo (toUserId : Bytes) : Bytes := kFriendReqTo ++ toUserId ++ str ":"
def prefixFriendReqFrom (fromUserId : Bytes) : Bytes := kFriendReqFrom ++ fromUserId ++ str ":"
def prefixFriendGroup (userId : Bytes) : Bytes := kFriendGroup ++ userId ++ str ":"
def prefixBlock (userId : Bytes) : Bytes := kBlock ++ userId ++ str ":"

namespace FriendStore

def isFriend (db : FriendDb) (userId friendId : Bytes) : Bool :=
  if userId = [] ∨ friendId = [] then false else (db.get (keyFriend userId friendId)).isSome

/-- The other side of a new friendship. -/
def reverse (data : FriendData) : FriendData where
  userId := data.friendId
  friendId := data.userId
  groupId := defaultFriendGroupId
  addedAt := data.addedAt

def addFriend (db : FriendDb) (data : FriendData) : FriendDb × Bool :=
  if data.userId = [] ∨ data.friendId = [] then (db, false)
  else if isFriend db data.userId data.friendId then (db, false)
  else (db.write [.put (keyFriend data.userId data.friendId) (serializeFriend data),
    .put (keyFriend (reverse data).userId (reverse data).friendId)
      (serializeFriend (reverse data))], true)

def removeFriend (db : FriendDb) (userId friendId : Bytes) : FriendDb × Bool :=
  if userId = [] ∨ friendId = [] then (db, false)
  else (db.write [.delete (keyFriend userId friendId), .delete (keyFriend friendId userId)], true)

/-- A friend with an empty group id is not returned; an empty `groupId` asks for all groups. -/
def getFriends (db : FriendDb) (userId groupId : Bytes) : List FriendData :=
  if userId = [] then []
  else (db.scan (prefixFriend userId)).filterMap fun e =>
    match deserializeFriend e.2 with
    | none => none
    | some d =>
      if d.groupId = [] then none
      else if groupId = [] ∨ d.groupId = groupId then some d else none

/-- The record, rewritten; a value that does not parse is an exception and stays. -/
def updateFriend (db : FriendDb) (userId friendId : Bytes) (f : FriendData → FriendData) :
    FriendDb × Bool :=
  if userId = [] ∨ friendId = [] then (db, false)
  else match (db.get (keyFriend userId friendId)).bind deserializeFriend with
    | none => (db, false)
    | some d => (db.put (keyFriend userId friendId) (serializeFriend (f d)), true)

def updateRemark (db : FriendDb) (userId friendId remark : Bytes) : FriendDb × Bool :=
  updateFriend db userId friendId fun d => { d with remark := remark }

def moveFriend (db : FriendDb) (userId friendId toGroupId : Bytes) : FriendDb × Bool :=
  updateFriend db userId friendId fun d => { d with groupId := toGroupId }

def createRequest (db : FriendDb) (req : FriendRequestData) : FriendDb × Bool :=
  if req.requestId = [] ∨ req.fromUserId = [] ∨ req.toUserId = [] then (db, false)
  else if (db.get (keyFriendReq req.requestId)).isSome then (db, false)
  else (db.write [.put (keyFriendReq req.requestId) (serializeRequest req),
    .put (keyFriendReqTo req.toUserId req.requestId) (.text []),
    .put (keyFriendReqFrom req.fromUserId req.requestId) (.text [])], true)

def getRequest (db : FriendDb) (requestId : Bytes) : Option FriendRequestData :=
  if requestId = [] then none else (db.get (keyFriendReq requestId)).bind deserializeRequest

def updateRequestStatus (db : FriendDb) (requestId : Bytes) (status : Int) : FriendDb × Bool :=
  match getRequest db requestId with
  | none => (db, false)
  | some req => (db.put (keyFriendReq requestId) (serializeRequest { req with status := status }), true)

/-- The requests whose ids an index lists under a prefix. -/
def indexedRequests (db : FriendDb) (pfx : Bytes) : List FriendRequestData :=
  (((db.scan pfx).filter (fun e => pfx.length < e.1.length)).map
    (fun e => e.1.drop pfx.length)).filterMap (getRequest db)

def getReceivedRequests (db : FriendDb) (userId : Bytes) : List FriendRequestData :=
  if userId = [] then [] else indexedRequests db (prefixFriendReqTo userId)

def getSentRequests (db : FriendDb) (userId : Bytes) : List FriendRequestData :=
  if userId = [] then [] else indexedRequests db (prefixFriendReqFrom userId)

def createGroup (db : FriendDb) (group : FriendGroupData) : FriendDb × Bool :=
  if group.userId = [] ∨ group.groupId = [] then (db, false)
  else if (db.get (keyFriendGroup group.userId group.groupId)).isSome then (db, false)
  else (db.put (keyFriendGroup group.userId group.groupId) (serializeGroup group), true)

def getGroups (db : FriendDb) (userId : Bytes) : List FriendGroupData :=
  if userId = [] then []
  else (db.scan (prefixFriendGroup userId)).filterMap fun e => deserializeGroup e.2

/-- The friends of the group move to the default group. -/
def deleteGroup (db : FriendDb) (userId groupId : Bytes) : FriendDb × Bool :=
  if userId = [] ∨ groupId = [] then (db, false)
  else (db.write (.delete (keyFriendGroup userId groupId) ::
    (getFriends db userId groupId).map fun f =>
      .put (keyFriend userId f.friendId)
        (serializeFriend { f with groupId := defaultFriendGroupId })), true)

def block (db : FriendDb) (userId targetId : Bytes) : FriendDb × Bool :=
  if userId = [] ∨ targetId = [] then (db, false)
  else (db.put (keyBlock userId targetId) (.text (str "1")), true)

def unblock (db : FriendDb) (userId targetId : Bytes) : FriendDb × Bool :=
  if userId = [] ∨ targetId = [] then (db, false)
  else (db.delete (keyBlock userId targetId), true)

def isBlocked (db : FriendDb) (userId targetId : Bytes) : Bool :=
  if userId = [] ∨ targetId = [] then false else (db.get (keyBlock userId targetId)).isSome

def getBlockList (db : FriendDb) (userId : Bytes) : List Bytes :=
  if userId = [] then []
  else
    let pfx := prefixBlock userId
    ((db.scan pfx).filter (fun e => pfx.length < e.1.length)).map (fun e => e.1.drop pfx.length)

end FriendStore
end SwiftChat.Friend
