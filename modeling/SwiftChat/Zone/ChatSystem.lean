import SwiftChat.Chat.ChatHandler
import SwiftChat.Zone.Effects
import SwiftChat.Zone.GroupSystem
import SwiftChat.Zone.SessionStore

/-! The calls of the zone to the chat service, and the command `chat.send_message`: its handler and
the push to the receivers that are online. -/
namespace SwiftChat.Zone
open Base Chat

def fromProto (m : ChatMessage) : ChatMessageResult where
  msgId := m.msgId
  fromUserId := m.fromUserId
  toId := m.toId
  chatType := m.chatType
  content := m.content
  mediaUrl := m.mediaUrl
  mediaType := m.mediaType
  timestamp := m.timestamp
  status := m.status

def offlineMessage (m : ChatMessageResult) : OfflineMessage where
  msgId := m.msgId
  fromUserId := m.fromUserId
  toId := m.toId
  chatType := m.chatType
  content := m.content
  mediaUrl := m.mediaUrl
  mediaType := m.mediaType
  timestamp := m.timestamp

def conversationResult (c : Conversation) : ConversationResult where
  chatId := c.chatId
  chatType := c.chatType
  peerId := c.peerId
  peerName := c.peerName
  peerAvatar := c.peerAvatar
  unreadCount := c.unreadCount
  updatedAt := c.updatedAt
  lastMsgId := (c.lastMessage.map ChatMessage.msgId).getD []
  lastContent := (c.lastMessage.map ChatMessage.content).getD []
  lastTimestamp := (c.lastMessage.map ChatMessage.timestamp).getD 0

/-- The clock readings of a request, in the order they are made. The two checks of a token are in
seconds. -/
structure SendClock where
  verify : Int
  now : Int
  members : Int

/-- The request of the chat service that is made from a payload. -/
def ChatSendMessagePayload.request (req : ChatSendMessagePayload) : SendMessageRequest where
  fromUserId := req.fromUserId
  toId := req.toId
  chatType := req.chatType
  content := req.content
  mediaUrl := req.mediaUrl
  mediaType := req.mediaType
  mentions := req.mentions
  replyToMsgId := req.replyToMsgId
  clientMsgId := req.clientMsgId
  fileSize := if req.fileSize > 0 then req.fileSize else 0

/-- What the client of the zone makes of the answer. -/
def sendResult (resp : RpcResponse SendMessageReply) : SendMessageResult :=
  match resp.result (str "send failed") with
  | .error error => { error := error }
  | .ok reply => { success := true, msgId := reply.msgId, timestamp := reply.timestamp }

section
variable (jwt : Jwt) (s : ChatState) (random : RandomString 16) (clock : SendClock)

/-- The token of the connection comes with the call. -/
def ChatRpcClient.sendMessage (req : ChatSendMessagePayload) (token : Bytes) :
    ChatState × SendMessageResult :=
  let (s, resp) := ChatHandler.sendMessage jwt (createContext token) s req.request random
    clock.verify clock.now
  (s, sendResult resp)

/-! The other calls; the id of the acting user is not read by the chat service. -/
namespace ChatSystem

def recallMessage (msgId token : Bytes) : ChatState × Except Bytes Unit :=
  let (s, resp) := ChatHandler.recallMessage jwt (createContext token) s clock.verify msgId clock.now
  (s, resp.result (str "recall failed"))

def pullOffline (limit : Int) (cursor token : Bytes) : ChatState × Except Bytes OfflineResult :=
  let resp := ChatHandler.pullOffline jwt (createContext token) s clock.verify cursor limit
  (s, (resp.result (str "pull failed")).map fun reply =>
    { messages := reply.messages.map fun m => offlineMessage (fromProto m)
      nextCursor := reply.nextCursor
      hasMore := reply.hasMore })

def markRead (chatId : Bytes) (chatType : Int) (lastMsgId token : Bytes) :
    ChatState × Except Bytes Unit :=
  let (s, resp) := ChatHandler.markRead jwt (createContext token) s clock.verify chatId chatType
    lastMsgId
  (s, resp.result (str "mark read failed"))

def getHistory (req : GetHistoryRequest) (token : Bytes) :
    ChatState × Except Bytes GetHistoryResult :=
  let (s, resp) := ChatHandler.getHistory jwt (createContext token) s clock.verify req
  (s, (resp.result (str "get history failed")).map fun reply =>
    { messages := reply.messages.map fromProto, hasMore := reply.hasMore })

def syncConversations (token : Bytes) : ChatState × Except Bytes (List ConversationResult) :=
  let resp := ChatHandler.syncConversations jwt (createContext token) s clock.verify
  (s, (resp.result (str "sync conversations failed")).map fun l => l.map conversationResult)

def deleteConversation (chatId : Bytes) (chatType : Int) (token : Bytes) :
    ChatState × Except Bytes Unit :=
  let (s, resp) := ChatHandler.deleteConversation jwt (createContext token) s clock.verify chatId
    chatType
  (s, resp.result (str "delete conversation failed"))

end ChatSystem

end

/-- The user of a request is the one of its token. -/
def chatCalls (jwt : Jwt) (random : RandomString 16) (clock : SendClock) :
    ChatCalls ChatState where
  sendMessage s req token := ChatRpcClient.sendMessage jwt s random clock req token
  markRead s _ req token :=
    ChatSystem.markRead jwt s clock req.chatId req.chatType req.lastMsgId token
  pullOffline s _ limit cursor token := ChatSystem.pullOffline jwt s clock limit cursor token
  recallMessage s req token := ChatSystem.recallMessage jwt s clock req.msgId token
  getHistory s _ req token :=
    ChatSystem.getHistory jwt s clock
      { chatId := req.chatId
        chatType := req.chatType
        beforeMsgId := req.beforeMsgId
        limit := req.limit } token
  syncConversations s _ _ token := ChatSystem.syncConversations jwt s clock token
  deleteConversation s _ req token :=
    ChatSystem.deleteConversation jwt s clock req.chatId req.chatType token

/-- A call of `RouteToUser`. Without a session of the user nothing leaves the zone; with one, the
message is pushed to the gate the session names. -/
structure Route where
  userId : Bytes
  cmd : Bytes
  payload : PushPayload
  session : Option UserSession
deriving DecidableEq

def routeToUser (store : SessionStore) (userId cmd : Bytes) (payload : PushPayload) : Route where
  userId := userId
  cmd := cmd
  payload := payload
  session := store.getSession userId

/-- The chat databases, and what was routed so far. -/
structure SendState where
  chat : ChatState
  routes : List Route := []

namespace SendState

def chatPart : Part SendState ChatState where
  get t := t.chat
  set t chat := { t with chat := chat }
  get_set _ _ := rfl
  set_get _ := rfl

def groupPart : Part SendState GroupDb where
  get t := t.chat.groups
  set t groups := { t with chat := { t.chat with groups := groups } }
  get_set _ _ := rfl
  set_get _ := rfl

/-- The members of a group are asked for at a later reading of the clock. -/
def getGroupMembers (jwt : Jwt) (clock : SendClock) (t : SendState) (groupId : Bytes)
    (page pageSize : Int) : SendState × Except Bytes (List GroupMemberPayload × Int) :=
  groupPart.lift (GroupSystem.getGroupMembers jwt clock.members · groupId page pageSize) t

def route (store : SessionStore) (t : SendState) (userId cmd : Bytes) (payload : PushPayload) :
    SendState :=
  { t with routes := t.routes ++ [routeToUser store userId cmd payload] }

end SendState

/-- What a request leads to: the chat databases after it, the answer and the pushes. -/
structure SendOutcome where
  chat : ChatState
  result : HandleClientRequestResult
  routes : List Route := []

def handleSendMessage (jwt : Jwt) (s : ChatState) (random : RandomString 16) (clock : SendClock)
    (parse : Bytes → Option ChatSendMessagePayload) (store : SessionStore) (r : ClientRequest) :
    SendOutcome :=
  let (t, result) := ((chatCalls jwt random clock).lift SendState.chatPart).handleSendMessage parse
    (pushToChat (some (SendState.getGroupMembers jwt clock)) (SendState.route store)) { chat := s } r
  { chat := t.chat, result := result, routes := t.routes }

end SwiftChat.Zone
