import SwiftChat.Chat.ConversationStore
import SwiftChat.Chat.GroupService
import SwiftChat.Chat.MessageStore

/-! Sending, recalling, reading and listing messages over the four stores. -/
namespace SwiftChat.Chat
open Base

/-- The databases behind the chat service. -/
structure ChatState where
  msgs : MsgDb := OrderedMap.empty
  convs : ConvDb := OrderedMap.empty
  metas : ConvMetaDb := OrderedMap.empty
  groups : GroupDb := OrderedMap.empty

def recallTimeoutSeconds : Int := 120

namespace ChatService

structure SendResult where
  success : Bool := false
  msgId : Bytes := []
  conversationId : Bytes := []
  timestamp : Int := 0
  error : Bytes := []
deriving DecidableEq

structure RecallResult where
  success : Bool := false
  error : Bytes := []
deriving DecidableEq

def generateMsgId (r : RandomString 16) : Bytes := generateShortId (str "m_") r

def resolveConversationId (s : ChatState) (userId chatId : Bytes) (chatType : ChatType) :
    ChatState × Bytes :=
  if chatId = [] then (s, [])
  else match chatType with
    | .priv =>
      let (metas, id) := getOrCreatePrivateConversation s.metas userId chatId
      ({ s with metas := metas }, id)
    | .group => (s, chatId)

/-- The text and attachments of a message to send. -/
structure Draft where
  content : Bytes := []
  mediaUrl : Bytes := []
  mediaType : Bytes := []
  mentions : List Bytes := []
  replyToMsgId : Bytes := []

/-- The members of a group that a message is distributed to. -/
def otherMembers (groups : GroupDb) (groupId fromUserId : Bytes) : List Bytes :=
  ((GroupStore.getMembers groups groupId 0 1000).1.map GroupMemberData.userId).filter
    (· ≠ fromUserId)

/-- Who gets a message besides the sender. -/
def receivers (groups : GroupDb) (fromUserId toId : Bytes) : ChatType → List Bytes
  | .priv => [toId]
  | .group => otherMembers groups toId fromUserId

/-- The conversation entry one receiver gets for a new message. -/
def notifyConv (convs : ConvDb) (conv : ConversationData) (receiver : Bytes) : ConvDb :=
  let convs := (upsert convs receiver conv).1
  (updateUnread convs receiver conv.conversationId 1).1

/-- The conversation entry the sender gets. -/
def senderConv (msg : MessageData) : ConversationData := {
  conversationId := msg.conversationId
  chatType := msg.chatType
  peerId := msg.toId
  lastMsgId := msg.msgId
  updatedAt := msg.timestamp }

/-- The conversation entry a receiver gets: the peer is the sender in a private chat and the
group otherwise. -/
def receiverConv (msg : MessageData) : ChatType → ConversationData
  | .priv => { senderConv msg with peerId := msg.fromUserId }
  | .group => senderConv msg

/-- What follows a successful `Save`: the conversation entries and the offline queues. -/
def distribute (s : ChatState) (msg : MessageData) (chatType : ChatType) : ChatState :=
  let targets := receivers s.groups msg.fromUserId msg.toId chatType
  let convs := (upsert s.convs msg.fromUserId (senderConv msg)).1
  { s with
    convs := targets.foldl (fun convs u => notifyConv convs (receiverConv msg chatType) u) convs
    msgs := targets.foldl (fun msgs u => (addToOffline msgs u msg.msgId).1) s.msgs }

/-- The message `SendMessage` builds. -/
def newMessage (fromUserId toId conversationId : Bytes) (chatType : ChatType) (draft : Draft)
    (r : RandomString 16) (now : Int) : MessageData := {
  msgId := generateMsgId r
  fromUserId := fromUserId
  toId := toId
  conversationId := conversationId
  chatType := chatType.toInt
  content := draft.content
  mediaUrl := draft.mediaUrl
  mediaType := if draft.mediaType = [] then str "text" else draft.mediaType
  mentions := draft.mentions
  replyToMsgId := draft.replyToMsgId
  timestamp := now }

/-- The part of `SendMessage` after the conversation id is known. -/
def sendTo (s : ChatState) (fromUserId toId conversationId : Bytes) (chatType : ChatType)
    (draft : Draft) (r : RandomString 16) (now : Int) : ChatState × SendResult :=
  let msg := newMessage fromUserId toId conversationId chatType draft r now
  let (msgs, saved) := save s.msgs msg
  if ¬ saved then (s, { error := str "save failed" })
  else
    (distribute { s with msgs := msgs } msg chatType,
      { success := true, msgId := msg.msgId, conversationId := conversationId, timestamp := now })

def sendMessage (s : ChatState) (fromUserId toId : Bytes) (chatType : ChatType) (draft : Draft)
    (r : RandomString 16) (now : Int) : ChatState × SendResult :=
  if fromUserId = [] ∨ toId = [] then (s, { error := str "invalid params" })
  else match chatType with
    | .priv =>
      let (metas, conversationId) := getOrCreatePrivateConversation s.metas fromUserId toId
      sendTo { s with metas := metas } fromUserId toId conversationId .priv draft r now
    | .group =>
      if ¬ GroupStore.isMember s.groups toId fromUserId then
        (s, { error := str "not a group member" })
      else sendTo s fromUserId toId toId .group draft r now

def recallMessage (s : ChatState) (msgId userId : Bytes) (now : Int) :
    ChatState × RecallResult :=
  if msgId = [] ∨ userId = [] then (s, { error := str "invalid params" })
  else match getById s.msgs msgId with
    | none => (s, { error := str "message not found" })
    | some msg =>
      if msg.fromUserId ≠ userId then (s, { error := str "not allowed to recall" })
      else if now - msg.timestamp > recallTimeoutSeconds * 1000 then
        (s, { error := str "recall timeout" })
      else
        let (msgs, marked) := markRecalled s.msgs msgId now
        if ¬ marked then (s, { error := str "mark recalled failed" })
        else ({ s with msgs := msgs }, { success := true })

def pullOffline (s : ChatState) (userId cursor : Bytes) (limit : Int) : PullResult :=
  Chat.pullOffline s.msgs userId cursor (if limit ≤ 0 then 100 else limit)

def getHistory (s : ChatState) (userId chatId : Bytes) (chatType : ChatType)
    (beforeMsgId : Bytes) (limit : Int) : ChatState × List MessageData :=
  if chatId = [] ∨ limit ≤ 0 then (s, [])
  else
    let (s, conversationId) := resolveConversationId s userId chatId chatType
    if conversationId = [] then (s, [])
    else if chatType = .group ∧
        (GroupStore.getGroup s.groups conversationId).any (fun g => g.status = 1) then (s, [])
    else (s, Chat.getHistory s.msgs conversationId beforeMsgId limit)

def markRead (s : ChatState) (userId chatId : Bytes) (chatType : ChatType) (lastMsgId : Bytes) :
    ChatState × Bool :=
  if userId = [] ∨ chatId = [] then (s, false)
  else
    let (s, conversationId) := resolveConversationId s userId chatId chatType
    if conversationId = [] then (s, false)
    else
      let (convs, ok) := clearUnread s.convs userId conversationId
      let msgs := if lastMsgId ≠ [] then (clearOffline s.msgs userId lastMsgId).1 else s.msgs
      ({ s with convs := convs, msgs := msgs }, ok)

def syncConversations (s : ChatState) (userId : Bytes) : List ConversationData :=
  if userId = [] then []
  else (getList s.convs userId).filter fun c =>
    ¬ (c.chatType = ChatType.group.toInt ∧
      (GroupStore.getGroup s.groups c.conversationId).any (fun g => g.status = 1))

def getMessageById (s : ChatState) (msgId : Bytes) : Option MessageData := getById s.msgs msgId

structure DeleteConversationResult where
  success : Bool := false
  error : ErrorCode := .ok
deriving DecidableEq

def deleteConversation (s : ChatState) (userId chatId : Bytes) (chatType : ChatType) :
    ChatState × DeleteConversationResult :=
  if userId = [] ∨ chatId = [] then (s, { error := .invalidParam })
  else match chatType with
    | .priv => (s, { error := .conversationPrivateCannotDelete })
    | .group =>
      match GroupStore.getGroup s.groups chatId with
      | none => (s, { error := .groupNotFound })
      | some g =>
        if g.ownerId ≠ userId then (s, { error := .notGroupOwner })
        else if g.status = 1 then (s, { success := true })
        else
          let members := (GroupStore.getMembers s.groups chatId 0 10000).1
          let (groups, dissolved) := GroupStore.dissolveGroup s.groups chatId
          if ¬ dissolved then (s, { error := .internalError })
          else
            ({ s with
              groups := groups
              convs := members.foldl (fun convs m => (deleteConv convs m.userId chatId).1) s.convs },
              { success := true })

end ChatService
end SwiftChat.Chat
