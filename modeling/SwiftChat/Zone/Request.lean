import SwiftChat.Common

/-! Client requests at the zone: their form, their answers, and the dispatch by command. -/
namespace SwiftChat.Zone
open Base

/-- A client request as the gate passes it on. The user and the token are those of the
connection. -/
structure ClientRequest where
  connId : Bytes := []
  userId : Bytes := []
  cmd : Bytes := []
  payload : Bytes := []
  requestId : Bytes := []
  token : Bytes := []
deriving DecidableEq

structure GroupInfoPayload where
  groupId : Bytes := []
  groupName : Bytes := []
  avatarUrl : Bytes := []
  ownerId : Bytes := []
  memberCount : Int := 0
  announcement : Bytes := []
  createdAt : Int := 0
deriving DecidableEq

structure GroupMemberPayload where
  userId : Bytes := []
  role : Int := 0
  nickname : Bytes := []
  joinedAt : Int := 0
deriving DecidableEq

structure FileInfoPayload where
  success : Bool := false
  fileId : Bytes := []
  fileName : Bytes := []
  fileSize : Int := 0
  contentType : Bytes := []
  uploaderId : Bytes := []
  uploadedAt : Int := 0
  md5 : Bytes := []
  error : Bytes := []
deriving DecidableEq

structure FileUrlPayload where
  success : Bool := false
  fileUrl : Bytes := []
  fileName : Bytes := []
  fileSize : Int := 0
  contentType : Bytes := []
  expireAt : Int := 0
deriving DecidableEq

structure ChatMessagePushPayload where
  msgId : Bytes := []
  fromUserId : Bytes := []
  toId : Bytes := []
  chatType : Int := 0
  content : Bytes := []
  mediaUrl : Bytes := []
  mediaType : Bytes := []
  timestamp : Int := 0
  mentions : List Bytes := []
  replyToMsgId : Bytes := []
deriving DecidableEq

structure ChatConversationPayload where
  chatId : Bytes := []
  chatType : Int := 0
  peerId : Bytes := []
  peerName : Bytes := []
  peerAvatar : Bytes := []
  unreadCount : Int := 0
  updatedAt : Int := 0
  lastMsgId : Bytes := []
  lastContent : Bytes := []
  lastTimestamp : Int := 0
deriving DecidableEq

structure FriendInfoPayload where
  friendId : Bytes := []
  remark : Bytes := []
  groupId : Bytes := []
  nickname : Bytes := []
  avatarUrl : Bytes := []
  addedAt : Int := 0
deriving DecidableEq

structure FriendRequestInfoPayload where
  requestId : Bytes := []
  fromUserId : Bytes := []
  toUserId : Bytes := []
  remark : Bytes := []
  status : Int := 0
  createdAt : Int := 0
  fromNickname : Bytes := []
  fromAvatarUrl : Bytes := []
deriving DecidableEq

structure FriendSearchUserPayload where
  userId : Bytes := []
  username : Bytes := []
  nickname : Bytes := []
  avatarUrl : Bytes := []
  signature : Bytes := []
  gender : Int := 0
deriving DecidableEq

structure FriendGroupPayload where
  groupId : Bytes := []
  groupName : Bytes := []
  friendCount : Int := 0
  sortOrder : Int := 0
deriving DecidableEq

/-- The response message that is serialized into an answer. -/
inductive ResponsePayload where
  | register (success : Bool) (userId error : Bytes)
  | login (success : Bool) (userId token : Bytes) (expireAt : Int) (error : Bytes)
  | validateToken (userId : Bytes)
  | chatSendMessage (success : Bool) (msgId : Bytes) (timestamp : Int) (error : Bytes)
  | chatPullOffline (messages : List ChatMessagePushPayload) (nextCursor : Bytes) (hasMore : Bool)
  | chatGetHistory (messages : List ChatMessagePushPayload) (hasMore : Bool)
  | chatSyncConversations (conversations : List ChatConversationPayload)
  | friendGetFriends (friends : List FriendInfoPayload)
  | friendGetRequests (requests : List FriendRequestInfoPayload)
  | friendSearch (users : List FriendSearchUserPayload)
  | friendGetBlockList (success : Bool) (blockedIds : List Bytes)
  | friendCreateGroup (success : Bool) (error : Bytes)
  | friendGetGroups (success : Bool) (groups : List FriendGroupPayload)
  | friendMoveToGroup (success : Bool) (error : Bytes)
  | friendDeleteGroup (success : Bool) (error : Bytes)
  | friendSetRemark (success : Bool) (error : Bytes)
  | groupCreate (success : Bool) (groupId error : Bytes)
  | groupInfo (group : GroupInfoPayload)
  | groupMembers (members : List GroupMemberPayload) (total : Int)
  | userGroups (groups : List GroupInfoPayload)
  | uploadToken (success : Bool) (uploadToken uploadUrl : Bytes) (expireAt : Int)
  | initUpload (success : Bool) (uploadId : Bytes) (expireAt : Int) (error : Bytes)
  | fileInfo (info : FileInfoPayload)
  | fileUrl (url : FileUrlPayload)
deriving DecidableEq

structure HandleClientRequestResult where
  code : Int := 0
  message : Bytes := []
  payload : Option ResponsePayload := none
  requestId : Bytes := []
deriving DecidableEq

/-- `SetResultError` on a fresh result. -/
def resultError (ec : ErrorCode) (requestId : Bytes) : HandleClientRequestResult :=
  { code := errorCodeToInt ec, message := errorCodeToString ec, requestId := requestId }

def notImplemented (requestId : Bytes) : HandleClientRequestResult :=
  resultError .unsupported requestId

/-- The command up to its first dot. -/
def cmdPrefix (cmd : Bytes) : Bytes := cmd.takeWhile (· ≠ 46)

/-- The handlers the dispatch chooses from, over the state of the services behind them. -/
structure PrefixHandlers (S : Type) where
  auth : S → ClientRequest → S × HandleClientRequestResult
  chat : S → ClientRequest → S × HandleClientRequestResult
  friend : S → ClientRequest → S × HandleClientRequestResult
  group : S → ClientRequest → S × HandleClientRequestResult
  file : S → ClientRequest → S × HandleClientRequestResult

def handleClientRequest {S : Type} (handlers : PrefixHandlers S) (s : S) (r : ClientRequest) :
    S × HandleClientRequestResult :=
  let pfx := cmdPrefix r.cmd
  if pfx = str "auth" then handlers.auth s r
  else if pfx = str "chat" then handlers.chat s r
  else if pfx = str "friend" then handlers.friend s r
  else if pfx = str "group" then handlers.group s r
  else if pfx = str "file" then handlers.file s r
  else (s, notImplemented r.requestId)

section
variable {S : Type} {handlers : PrefixHandlers S} {s : S} {r : ClientRequest}

theorem handleClientRequest_group (h : cmdPrefix r.cmd = str "group") :
    handleClientRequest handlers s r = handlers.group s r := by
  simp only [handleClientRequest, h]
  rfl

theorem handleClientRequest_file (h : cmdPrefix r.cmd = str "file") :
    handleClientRequest handlers s r = handlers.file s r := by
  simp only [handleClientRequest, h]
  rfl

/-- A command that starts with a word and a dot is dispatched by that word. -/
theorem cmdPrefix_of_isPrefix {word cmd : Bytes} (hdot : 46 ∉ word) (h : word ++ [46] <+: cmd) :
    cmdPrefix cmd = word := by
  obtain ⟨rest, rfl⟩ := h
  unfold cmdPrefix
  rw [List.append_assoc, List.takeWhile_append_of_pos]
  · simp
  · intro b hb
    simp only [ne_eq, decide_eq_true_eq]
    rintro rfl
    exact hdot hb

end
end SwiftChat.Zone
