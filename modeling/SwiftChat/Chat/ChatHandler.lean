import SwiftChat.Chat.ChatService
import SwiftChat.Grpc

/-! The remote calls of the chat service. -/
namespace SwiftChat.Chat
open Base

/-- The sender, the client's id and the file size of a request are not read. -/
structure SendMessageRequest where
  fromUserId : Bytes := []
  toId : Bytes := []
  chatType : Int := 0
  content : Bytes := []
  mediaUrl : Bytes := []
  mediaType : Bytes := []
  mentions : List Bytes := []
  replyToMsgId : Bytes := []
  clientMsgId : Bytes := []
  fileSize : Int := 0

structure SendMessageReply where
  msgId : Bytes := []
  timestamp : Int := 0
deriving Inhabited

def mapSendErrorToCode (error : Bytes) : ErrorCode :=
  if error = [] then .ok
  else if error = str "invalid params" then .invalidParam
  else if error = str "not a group member" then .notGroupMember
  else if error = str "save failed" ∨ error = str "conv_registry not set" then .msgSendFailed
  else .internalError

def mapRecallErrorToCode (error : Bytes) : ErrorCode :=
  if error = [] then .ok
  else if error = str "invalid params" then .invalidParam
  else if error = str "message not found" then .msgNotFound
  else if error = str "not allowed to recall" then .recallNotAllowed
  else if error = str "recall timeout" then .recallTimeout
  else .internalError

theorem mapSendErrorToCode_ne_ok {error : Bytes} (h : error ≠ []) :
    mapSendErrorToCode error ≠ .ok := by
  unfold mapSendErrorToCode
  rw [if_neg h]
  repeat' split
  all_goals decide

/-- Every number but that of a group stands for a private chat. -/
def SendMessageRequest.kind (req : SendMessageRequest) : ChatType :=
  if req.chatType = 2 then .group else .priv

def SendMessageRequest.draft (req : SendMessageRequest) : ChatService.Draft where
  content := req.content
  mediaUrl := req.mediaUrl
  mediaType := req.mediaType
  mentions := req.mentions
  replyToMsgId := req.replyToMsgId

/-- The same reading of the number in the other requests. -/
def chatKind (chatType : Int) : ChatType := if chatType = 2 then .group else .priv

structure ChatMessage where
  msgId : Bytes := []
  fromUserId : Bytes := []
  toId : Bytes := []
  chatType : Int := 0
  content : Bytes := []
  mediaUrl : Bytes := []
  mediaType : Bytes := []
  mentions : List Bytes := []
  replyToMsgId : Bytes := []
  timestamp : Int := 0
  status : Int := 0
  recallAt : Int := 0
deriving DecidableEq

def fillChatMessage (m : MessageData) : ChatMessage where
  msgId := m.msgId
  fromUserId := m.fromUserId
  toId := m.toId
  chatType := m.chatType
  content := m.content
  mediaUrl := m.mediaUrl
  mediaType := m.mediaType
  mentions := m.mentions
  replyToMsgId := m.replyToMsgId
  timestamp := m.timestamp
  status := m.status
  recallAt := m.recallAt

structure Conversation where
  chatId : Bytes := []
  chatType : Int := 0
  peerId : Bytes := []
  peerName : Bytes := []
  peerAvatar : Bytes := []
  lastMessage : Option ChatMessage := none
  unreadCount : Int := 0
  updatedAt : Int := 0
  isPinned : Bool := false
  isMuted : Bool := false
deriving DecidableEq

def fillConversation (c : ConversationData) (lastMsg : Option MessageData) : Conversation where
  chatId := c.conversationId
  chatType := c.chatType
  peerId := c.peerId
  lastMessage := lastMsg.map fillChatMessage
  unreadCount := c.unreadCount
  updatedAt := c.updatedAt
  isPinned := c.isPinned
  isMuted := c.isMuted

structure PullOfflineReply where
  messages : List ChatMessage := []
  nextCursor : Bytes := []
  hasMore : Bool := false
deriving Inhabited

structure GetHistoryRequest where
  chatId : Bytes := []
  chatType : Int := 0
  beforeMsgId : Bytes := []
  limit : Int := 0

structure GetHistoryReply where
  messages : List ChatMessage := []
  hasMore : Bool := false
deriving Inhabited

/-- The answer to a result of the service. -/
def sendResponse (result : ChatService.SendResult) : RpcResponse SendMessageReply :=
  if result.success then
    .ok (errorCodeToString .ok) { msgId := result.msgId, timestamp := result.timestamp }
  else
    let code := mapSendErrorToCode result.error
    .fail (errorCodeToInt code)
      (if result.error = [] then errorCodeToString code else result.error)

namespace ChatHandler

/-- The sender is the user of the token. `now` is in seconds, `nowMs` in milliseconds. -/
def sendMessage (jwt : Jwt) (metadata : Metadata) (s : ChatState) (req : SendMessageRequest)
    (r : RandomString 16) (now nowMs : Int) : ChatState × RpcResponse SendMessageReply :=
  let uid := getAuthenticatedUserId jwt metadata now
  if uid = [] then (s, .tokenMissing)
  else if req.toId = [] then (s, .error .invalidParam)
  else
    let (s, result) := ChatService.sendMessage s uid req.toId req.kind req.draft r nowMs
    (s, sendResponse result)

section
variable (jwt : Jwt) (metadata : Metadata) (s : ChatState) (now : Int)

def recallMessage (msgId : Bytes) (nowMs : Int) : ChatState × RpcResponse Unit :=
  let uid := getAuthenticatedUserId jwt metadata now
  if uid = [] then (s, .error .tokenInvalid)
  else if msgId = [] then (s, .error .invalidParam)
  else
    let (s, result) := ChatService.recallMessage s msgId uid nowMs
    if result.success then (s, .ok (errorCodeToString .ok) ())
    else
      let code := mapRecallErrorToCode result.error
      (s, .fail (errorCodeToInt code)
        (if result.error = [] then errorCodeToString code else result.error))

def pullOffline (cursor : Bytes) (limit : Int) : RpcResponse PullOfflineReply :=
  let uid := getAuthenticatedUserId jwt metadata now
  if uid = [] then .tokenMissing
  else
    let limit := if limit > 0 then min limit 200 else 100
    let result := ChatService.pullOffline s uid cursor limit
    .ok (errorCodeToString .ok)
      { messages := result.messages.map fillChatMessage
        nextCursor := result.nextCursor
        hasMore := result.hasMore }

def markRead (chatId : Bytes) (chatType : Int) (lastMsgId : Bytes) :
    ChatState × RpcResponse Unit :=
  let uid := getAuthenticatedUserId jwt metadata now
  if uid = [] then (s, .error .tokenInvalid)
  else if chatId = [] then (s, .error .invalidParam)
  else
    let (s, ok) := ChatService.markRead s uid chatId (chatKind chatType) lastMsgId
    (s, if ok then .ok (errorCodeToString .ok) () else .error .conversationNotFound)

/-- Whether more follows is guessed from the page being full. -/
def getHistory (req : GetHistoryRequest) : ChatState × RpcResponse GetHistoryReply :=
  let uid := getAuthenticatedUserId jwt metadata now
  if uid = [] then (s, .tokenMissing)
  else if req.chatId = [] then (s, .error .invalidParam)
  else
    let limit := if req.limit > 0 then min req.limit 100 else 50
    let (s, messages) :=
      ChatService.getHistory s uid req.chatId (chatKind req.chatType) req.beforeMsgId limit
    (s, .ok (errorCodeToString .ok)
      { messages := messages.map fillChatMessage, hasMore := (messages.length : Int) = limit })

/-- The time of the last synchronisation is not read. -/
def syncConversations : RpcResponse (List Conversation) :=
  let uid := getAuthenticatedUserId jwt metadata now
  if uid = [] then .tokenMissing
  else
    .ok (errorCodeToString .ok) <| (ChatService.syncConversations s uid).map fun c =>
      fillConversation c
        (if c.lastMsgId = [] then none else ChatService.getMessageById s c.lastMsgId)

def deleteConversation (chatId : Bytes) (chatType : Int) : ChatState × RpcResponse Unit :=
  let uid := getAuthenticatedUserId jwt metadata now
  if uid = [] then (s, .error .tokenInvalid)
  else if chatId = [] then (s, .error .invalidParam)
  else
    let (s, result) := ChatService.deleteConversation s uid chatId (chatKind chatType)
    (s, if result.success then .ok (errorCodeToString .ok) () else .error result.error)

end
end ChatHandler
end SwiftChat.Chat
