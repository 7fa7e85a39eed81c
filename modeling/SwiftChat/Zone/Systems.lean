import SwiftChat.File.FileService
import SwiftChat.Online.OnlineService
import SwiftChat.Zone.Request

/-! The subsystems of the zone as the handlers of client requests see them: the calls they make and
the results these can have, whatever the services behind them do. -/
namespace SwiftChat.Zone
open Base

/-! The request messages, with their parsers. -/

structure AuthRegisterPayload where
  username : Bytes := []
  password : Bytes := []
  nickname : Bytes := []
  email : Bytes := []
  avatarUrl : Bytes := []

structure AuthLoginPayload where
  username : Bytes := []
  password : Bytes := []
  deviceId : Bytes := []
  deviceType : Bytes := []

structure AuthLogoutPayload where
  userId : Bytes := []
  token : Bytes := []

structure AuthCodec where
  parseRegister : Bytes → Option AuthRegisterPayload
  parseLogin : Bytes → Option AuthLoginPayload
  parseLogout : Bytes → Option AuthLogoutPayload
  parseValidateToken : Bytes → Option Bytes

structure ChatSendMessagePayload where
  fromUserId : Bytes := []
  toId : Bytes := []
  chatType : Int := 0
  content : Bytes := []
  mediaUrl : Bytes := []
  mediaType : Bytes := []
  clientMsgId : Bytes := []
  fileSize : Int := 0
  mentions : List Bytes := []
  replyToMsgId : Bytes := []
deriving DecidableEq

structure ChatMarkReadPayload where
  chatId : Bytes := []
  chatType : Int := 0
  lastMsgId : Bytes := []

structure ChatPullOfflinePayload where
  limit : Int := 0
  cursor : Bytes := []

structure ChatRecallMessagePayload where
  msgId : Bytes := []
  userId : Bytes := []

structure ChatGetHistoryPayload where
  chatId : Bytes := []
  chatType : Int := 0
  beforeMsgId : Bytes := []
  limit : Int := 0

structure ChatDeleteConversationPayload where
  chatId : Bytes := []
  chatType : Int := 0

structure ChatCodec where
  parseSendMessage : Bytes → Option ChatSendMessagePayload
  parseMarkRead : Bytes → Option ChatMarkReadPayload
  parsePullOffline : Bytes → Option ChatPullOfflinePayload
  parseRecallMessage : Bytes → Option ChatRecallMessagePayload
  parseGetHistory : Bytes → Option ChatGetHistoryPayload
  parseSyncConversations : Bytes → Option Int
  parseDeleteConversation : Bytes → Option ChatDeleteConversationPayload

structure FriendAddPayload where
  userId : Bytes := []
  friendId : Bytes := []
  remark : Bytes := []

structure FriendHandleRequestPayload where
  userId : Bytes := []
  requestId : Bytes := []
  accept : Bool := false

structure FriendRemovePayload where
  userId : Bytes := []
  friendId : Bytes := []

structure FriendBlockPayload where
  userId : Bytes := []
  targetId : Bytes := []

structure FriendSearchPayload where
  keyword : Bytes := []
  limit : Int := 0

structure FriendMoveToGroupPayload where
  friendId : Bytes := []
  groupId : Bytes := []

structure FriendSetRemarkPayload where
  friendId : Bytes := []
  remark : Bytes := []

/-- Where the user a payload names is not read, only the rest of it is parsed. -/
structure FriendCodec where
  parseAdd : Bytes → Option FriendAddPayload
  parseHandleRequest : Bytes → Option FriendHandleRequestPayload
  parseRemove : Bytes → Option FriendRemovePayload
  parseBlock : Bytes → Option FriendBlockPayload
  parseGetFriends : Bytes → Option Bytes
  parseGetRequests : Bytes → Option Int
  parseSearch : Bytes → Option FriendSearchPayload
  parseGetBlockList : Bytes → Option Unit
  parseCreateGroup : Bytes → Option Bytes
  parseGetGroups : Bytes → Option Unit
  parseMoveToGroup : Bytes → Option FriendMoveToGroupPayload
  parseDeleteGroup : Bytes → Option Bytes
  parseSetRemark : Bytes → Option FriendSetRemarkPayload

structure GroupCreatePayload where
  creatorId : Bytes := []
  groupName : Bytes := []
  memberIds : List Bytes := []

structure GroupDismissPayload where
  groupId : Bytes := []
  operatorId : Bytes := []

structure GroupInviteMembersPayload where
  groupId : Bytes := []
  inviterId : Bytes := []
  memberIds : List Bytes := []

structure GroupRemoveMemberPayload where
  groupId : Bytes := []
  operatorId : Bytes := []
  memberId : Bytes := []

structure GroupLeavePayload where
  groupId : Bytes := []
  userId : Bytes := []

structure GroupGetMembersPayload where
  groupId : Bytes := []
  page : Int := 0
  pageSize : Int := 0

structure GroupCodec where
  parseCreate : Bytes → Option GroupCreatePayload
  parseDismiss : Bytes → Option GroupDismissPayload
  parseInviteMembers : Bytes → Option GroupInviteMembersPayload
  parseRemoveMember : Bytes → Option GroupRemoveMemberPayload
  parseLeave : Bytes → Option GroupLeavePayload
  parseGetInfo : Bytes → Option Bytes
  parseGetMembers : Bytes → Option GroupGetMembersPayload
  parseGetUserGroups : Bytes → Option Unit

structure FileGetUploadTokenPayload where
  userId : Bytes := []
  fileName : Bytes := []
  fileSize : Int := 0

structure FileGetFileUrlPayload where
  fileId : Bytes := []
  userId : Bytes := []

structure FileDeletePayload where
  fileId : Bytes := []
  userId : Bytes := []

structure FileCodec where
  parseGetUploadToken : Bytes → Option FileGetUploadTokenPayload
  parseInitUpload : Bytes → Option File.UploadRequest
  parseGetFileInfo : Bytes → Option Bytes
  parseGetFileUrl : Bytes → Option FileGetFileUrlPayload
  parseDelete : Bytes → Option FileDeletePayload

/-! What the calls give. -/

structure AuthRegisterResult where
  success : Bool := false
  userId : Bytes := []
  error : Bytes := []
  errorCode : Int := 0

structure AuthLoginResult where
  success : Bool := false
  userId : Bytes := []
  token : Bytes := []
  expireAt : Int := 0
  error : Bytes := []

structure SendMessageResult where
  success : Bool := false
  msgId : Bytes := []
  timestamp : Int := 0
  error : Bytes := []
deriving DecidableEq

/-- A message as the client of the chat service hands it on. -/
structure ChatMessageResult where
  msgId : Bytes := []
  fromUserId : Bytes := []
  toId : Bytes := []
  chatType : Int := 0
  content : Bytes := []
  mediaUrl : Bytes := []
  mediaType : Bytes := []
  timestamp : Int := 0
  status : Int := 0
deriving DecidableEq

/-- A message of the offline queue has no status. -/
structure OfflineMessage where
  msgId : Bytes := []
  fromUserId : Bytes := []
  toId : Bytes := []
  chatType : Int := 0
  content : Bytes := []
  mediaUrl : Bytes := []
  mediaType : Bytes := []
  timestamp : Int := 0
deriving DecidableEq

structure OfflineResult where
  messages : List OfflineMessage := []
  nextCursor : Bytes := []
  hasMore : Bool := false

structure GetHistoryResult where
  messages : List ChatMessageResult := []
  hasMore : Bool := false

structure ConversationResult where
  chatId : Bytes := []
  chatType : Int := 0
  peerId : Bytes := []
  peerName : Bytes := []
  peerAvatar : Bytes := []
  unreadCount : Int := 0
  updatedAt : Int := 0
  lastMsgId : Bytes := []
  lastContent : Bytes := []
  lastTimestamp : Int := 0

/-- A call that worked; what went wrong otherwise is not looked at. -/
def succeeded {S α : Type} (x : S × Except Bytes α) : S × Bool := (x.1, x.2.isOk)

/-! A call that fails may leave its error text empty. -/

structure AuthCalls (S : Type) where
  register : S → AuthRegisterPayload → S × AuthRegisterResult
  login : S → AuthLoginPayload → S × AuthLoginResult
  logout : S → (userId token : Bytes) → S × Online.LogoutResult
  validateToken : S → (token : Bytes) → S × Bytes
  searchUsers : S → (keyword : Bytes) → (limit : Int) → (token : Bytes) →
    S × Except Bytes (List FriendSearchUserPayload)

structure ChatCalls (S : Type) where
  sendMessage : S → ChatSendMessagePayload → (token : Bytes) → S × SendMessageResult
  markRead : S → (userId : Bytes) → ChatMarkReadPayload → (token : Bytes) → S × Except Bytes Unit
  pullOffline : S → (userId : Bytes) → (limit : Int) → (cursor token : Bytes) →
    S × Except Bytes OfflineResult
  recallMessage : S → ChatRecallMessagePayload → (token : Bytes) → S × Except Bytes Unit
  getHistory : S → (userId : Bytes) → ChatGetHistoryPayload → (token : Bytes) →
    S × Except Bytes GetHistoryResult
  syncConversations : S → (userId : Bytes) → (lastSyncTime : Int) → (token : Bytes) →
    S × Except Bytes (List ConversationResult)
  deleteConversation : S → (userId : Bytes) → ChatDeleteConversationPayload → (token : Bytes) →
    S × Except Bytes Unit

structure FriendCalls (S : Type) where
  addFriend : S → FriendAddPayload → (token : Bytes) → S × Bool
  handleFriendRequest : S → FriendHandleRequestPayload → (token : Bytes) → S × Bool
  removeFriend : S → FriendRemovePayload → (token : Bytes) → S × Bool
  blockUser : S → FriendBlockPayload → (token : Bytes) → S × Bool
  unblockUser : S → FriendBlockPayload → (token : Bytes) → S × Bool
  getFriends : S → (userId groupId token : Bytes) → S × Except Bytes (List FriendInfoPayload)
  getFriendRequests : S → (userId : Bytes) → (kind : Int) → (token : Bytes) →
    S × Except Bytes (List FriendRequestInfoPayload)
  getBlockList : S → (userId token : Bytes) → S × Except Bytes (List Bytes)
  createFriendGroup : S → (userId groupName token : Bytes) → S × Except Bytes Unit
  getFriendGroups : S → (userId token : Bytes) → S × Except Bytes (List FriendGroupPayload)
  moveFriendToGroup : S → (userId : Bytes) → FriendMoveToGroupPayload → (token : Bytes) →
    S × Except Bytes Unit
  deleteFriendGroup : S → (userId groupId token : Bytes) → S × Except Bytes Unit
  setRemark : S → (userId : Bytes) → FriendSetRemarkPayload → (token : Bytes) →
    S × Except Bytes Unit

/-- A group that could not be created has the empty id. -/
structure GroupCalls (S : Type) where
  createGroup : S → GroupCreatePayload → S × Bytes
  dismissGroup : S → GroupDismissPayload → S × Bool
  inviteMembers : S → GroupInviteMembersPayload → S × Bool
  removeMember : S → GroupRemoveMemberPayload → S × Bool
  leaveGroup : S → GroupLeavePayload → S × Bool
  getGroupInfo : S → (groupId : Bytes) → S × Except Bytes GroupInfoPayload
  getGroupMembers : S → (groupId : Bytes) → (page pageSize : Int) →
    S × Except Bytes (List GroupMemberPayload × Int)
  getUserGroups : S → (userId : Bytes) → S × Except Bytes (List GroupInfoPayload)

/-- Without an upload token, or a URL, the call has failed. -/
structure FileCalls (S : Type) where
  getUploadToken : S → FileGetUploadTokenPayload → S × File.UploadTokenResult
  initUpload : S → File.UploadRequest → S × Except Bytes (Bytes × Int)
  getFileInfo : S → (fileId : Bytes) → S × Except Bytes File.FileMetaData
  getFileUrl : S → FileGetFileUrlPayload → S × File.FileUrlResult
  deleteFile : S → FileDeletePayload → S × Bool

/-- The subsystems that are set up. -/
structure SystemManager (S : Type) where
  auth : Option (AuthCalls S)
  chat : Option (ChatCalls S)
  friends : Option (FriendCalls S)
  group : Option (GroupCalls S)
  file : Option (FileCalls S)

structure ZoneCodecs where
  auth : AuthCodec
  chat : ChatCodec
  friends : FriendCodec
  group : GroupCodec
  file : FileCodec

/-- What is pushed to a user. -/
inductive PushPayload where
  | chatMessage (payload : ChatMessagePushPayload)
  | readReceipt (chatId userId lastReadMsgId : Bytes)
deriving DecidableEq

end SwiftChat.Zone
