import SwiftChat.Base.Decimal
import SwiftChat.Base.OrderedMap
import SwiftChat.Base.Run
import SwiftChat.Base.Sorting

/-! The messages that the main window holds, and the four ways by which they come. -/
namespace SwiftChat.Client
open Base

structure Message where
  msgId : Bytes := []
  fromUserId : Bytes := []
  toId : Bytes := []
  chatType : Int := 1
  content : Bytes := []
  mediaUrl : Bytes := []
  mediaType : Bytes := []
  timestamp : Int := 0
  isSelf : Bool := false
  sending : Bool := false
  sendFailed : Bool := false
deriving DecidableEq

/-- A message with the fields that only the storage and the message view look at. -/
structure FullMessage extends Message where
  mentions : List Bytes := []
  replyToMsgId : Bytes := []
  status : Int := 0
deriving DecidableEq

structure Conversation where
  chatId : Bytes := []
  chatType : Int := 1
  peerName : Bytes := []
  lastMessage : Message := {}
  unreadCount : Int := 0
  updatedAt : Int := 0
deriving DecidableEq

/-- A message as the server sends it. -/
structure ChatMessage where
  msgId : Bytes
  fromUserId : Bytes := []
  toId : Bytes := []
  chatType : Int := 1
  content : Bytes := []
  mediaUrl : Bytes := []
  mediaType : Bytes := []
  timestamp : Int := 0

/-- The message ids of a list that are not empty. -/
def idsOf (messages : List Message) : List Bytes := (messages.map Message.msgId).filter (fun i => i ≠ [])

/-- No two messages have one id. -/
def DistinctIds (messages : List Message) : Prop := (idsOf messages).Nodup

/-- The comparison by which a history is sorted. -/
def Older (a b : Message) : Prop := a.timestamp < b.timestamp

/-- Sorting by insertion. -/
def historySorter : Sorter Older :=
  insertionSorter (fun m : Message => m.timestamp) (fun _ _ => Iff.rfl)

theorem idsOf_append {a b : List Message} : idsOf (a ++ b) = idsOf a ++ idsOf b := by
  rw [idsOf, List.map_append, List.filter_append]
  rfl

theorem idsOf_perm {a b : List Message} (h : a.Perm b) : (idsOf a).Perm (idsOf b) :=
  (h.map Message.msgId).filter _

/-- What the local file holds of a conversation. -/
structure StoredMessages where
  messages : List Message
  distinct : DistinctIds messages

/-- A call of `sendRequest` for a text message, with what its callback captures. -/
structure PendingSend where
  key : Bytes
  localMsgId : Bytes
deriving DecidableEq

/-- A message that raised an unread count: that of the conversation, or that of the contact list. -/
structure Raise where
  key : Bytes
  msgId : Bytes
  inContacts : Bool := false
deriving DecidableEq

/-- The part of the window that holds messages. `raised` lists what raised an unread count. -/
structure MainWindow where
  currentUserId : Bytes
  currentChatId : Bytes := []
  currentChatType : Int := 1
  messageMap : OrderedMap Bytes (List Message) := OrderedMap.empty
  conversationMap : OrderedMap Bytes Conversation := OrderedMap.empty
  contacts : List Conversation := []
  sends : List PendingSend := []
  raised : List Raise := []

def convKey (chatId : Bytes) (chatType : Int) : Bytes := formatInt chatType ++ str "#" ++ chatId

/-- The other side of the conversation of a message. -/
def peerOf (msg : Message) : Bytes :=
  if msg.chatType = 1 then (if msg.isSelf then msg.toId else msg.fromUserId) else msg.toId

/-- `ContactWidget::upsertConversation`. -/
def upsertConversation (conv : Conversation) (contacts : List Conversation) : List Conversation :=
  if contacts.any (fun c => c.chatId = conv.chatId ∧ c.chatType = conv.chatType) then
    contacts.modify (contacts.findIdx (fun c => c.chatId = conv.chatId ∧ c.chatType = conv.chatType))
      (fun _ => conv)
  else conv :: contacts

/-- `ContactWidget::increaseUnreadForChat`: the first contact with this id, if there is one. -/
def increaseUnreadForChat (chatId : Bytes) (contacts : List Conversation) :
    List Conversation × Bool :=
  (contacts.modify (contacts.findIdx (fun c => c.chatId = chatId))
    (fun c => { c with unreadCount := c.unreadCount + 1 }), contacts.any (fun c => c.chatId = chatId))

/-- `ContactWidget::setCurrentChat`. -/
def setCurrentChat (chatId : Bytes) (contacts : List Conversation) : List Conversation :=
  contacts.map (fun c => if c.chatId = chatId then { c with unreadCount := 0 } else c)

/-- The first message with this id is changed. -/
def updateFirst (msgId : Bytes) (f : Message → Message) : List Message → List Message
  | [] => []
  | m :: rest => if m.msgId = msgId then f m :: rest else m :: updateFirst msgId f rest

/-- The local messages that the page of a history answer does not have. -/
def keptOf (page messages : List Message) : List Message :=
  messages.filter (fun m => m.msgId ≠ [] ∧ m.msgId ∉ idsOf page)

/-- What `onPushNewMessage` reads: the payload of the push, or else of the older form, whose chat id
is that of the conversation. -/
inductive PushPayload where
  | push (m : ChatMessage)
  | legacy (m : ChatMessage)
  | unreadable

/-- The parts of `ChatSendMessageResponsePayload` that the callback looks at. -/
structure SendResponse where
  success : Bool
  msgId : Bytes := []
  timestamp : Int := 0

/-- What the callback of a send gets; the response is `none` where it does not parse. -/
structure SendAnswer where
  code : Int
  resp : Option SendResponse

namespace MainWindow

def messagesOf (w : MainWindow) (key : Bytes) : List Message := (w.messageMap.get key).getD []

def setMessages (w : MainWindow) (key : Bytes) (messages : List Message) : MainWindow :=
  { w with messageMap := w.messageMap.put key messages }

def messageOf (w : MainWindow) (m : ChatMessage) : Message :=
  { msgId := m.msgId, fromUserId := m.fromUserId, toId := m.toId, chatType := m.chatType,
    content := m.content, mediaUrl := m.mediaUrl, mediaType := m.mediaType, timestamp := m.timestamp,
    isSelf := m.fromUserId = w.currentUserId }

/-- The chat of the message is the open one. -/
def IsCurrent (w : MainWindow) (peerId : Bytes) (chatType : Int) : Prop :=
  peerId = w.currentChatId ∧ chatType = w.currentChatType

instance (w : MainWindow) (peerId : Bytes) (chatType : Int) : Decidable (w.IsCurrent peerId chatType) :=
  inferInstanceAs (Decidable (_ ∧ _))

/-- The conversation of a message, before the message is entered in it. -/
def conversationOf (w : MainWindow) (key peerId : Bytes) (chatType : Int) : Conversation :=
  let conv := (w.conversationMap.get key).getD {}
  { conv with
    chatId := peerId
    chatType := chatType
    peerName := if conv.peerName = [] then peerId else conv.peerName }

/-- The conversation is stored and shown. A message that another wrote raises its unread count,
unless the chat is open. -/
def enter (w : MainWindow) (key peerId : Bytes) (msg : Message) (conv : Conversation) : MainWindow :=
  let raises : Bool := ¬ w.IsCurrent peerId msg.chatType ∧ msg.isSelf = false
  let conv := if raises then { conv with unreadCount := conv.unreadCount + 1 } else conv
  { w with
    conversationMap := w.conversationMap.put key conv
    contacts := upsertConversation conv w.contacts
    raised := if raises then w.raised ++ [{ key := key, msgId := msg.msgId }] else w.raised }

def onPushNewMessage (w : MainWindow) : PushPayload → MainWindow
  | .unreadable => w
  | .legacy m =>
    let msg := w.messageOf m
    let key := convKey msg.toId msg.chatType
    let w := w.setMessages key (w.messagesOf key ++ [msg])
    if w.IsCurrent msg.toId msg.chatType ∨ msg.isSelf then w
    else
      let (contacts, found) := increaseUnreadForChat msg.toId w.contacts
      { w with
        contacts := contacts
        raised := if found then w.raised ++ [{ key := key, msgId := msg.msgId, inContacts := true }]
          else w.raised }
  | .push m =>
    let msg := w.messageOf m
    let key := convKey (peerOf msg) msg.chatType
    let w := w.setMessages key (w.messagesOf key ++ [msg])
    let conv := w.conversationOf key (peerOf msg) msg.chatType
    w.enter key (peerOf msg) msg { conv with lastMessage := msg, updatedAt := msg.timestamp }

/-- A message whose id the list has is left out. -/
def mergeOfflineMessage (w : MainWindow) (msg : Message) : MainWindow :=
  let key := convKey (peerOf msg) msg.chatType
  if msg.msgId ≠ [] ∧ (w.messagesOf key).any (fun existed => existed.msgId = msg.msgId) then w
  else
    let w := w.setMessages key (w.messagesOf key ++ [msg])
    let conv := w.conversationOf key (peerOf msg) msg.chatType
    w.enter key (peerOf msg) msg
      (if conv.updatedAt ≤ msg.timestamp then { conv with lastMessage := msg, updatedAt := msg.timestamp }
      else conv)

/-- The callback of `pullOfflineMessages`; a page that does not parse is `none`. -/
def offlineAnswered (w : MainWindow) (code : Int) (page : Option (List ChatMessage)) : MainWindow :=
  match page with
  | some page =>
    if code = 0 then page.foldl (fun w m => w.mergeOfflineMessage (w.messageOf m)) w else w
  | none => w

/-- The callback of `loadHistory`: what the server does not have is kept. `std` is the sort of the
standard library. -/
def historyAnswered (std : Sorter Older) (w : MainWindow) (chatId : Bytes) (chatType code : Int)
    (page : List ChatMessage) : MainWindow :=
  if code ≠ 0 then w
  else
    let messages := page.map w.messageOf
    let key := convKey chatId chatType
    w.setMessages key (std.sort (messages ++ keptOf messages (w.messagesOf key)))

def localMsgId (clock : Int) : Bytes := str "local_" ++ formatInt clock

/-- The entry of a message that is being sent. -/
def localMessage (w : MainWindow) (content : Bytes) (clock clock' : Int) : Message :=
  { msgId := localMsgId clock, fromUserId := w.currentUserId, toId := w.currentChatId,
    chatType := w.currentChatType, content := content, mediaType := str "text", timestamp := clock',
    isSelf := true, sending := true }

/-- The clock is read twice. `ready` says that the gateway is connected and the session valid. -/
def sendChatMessage (w : MainWindow) (content : Bytes) (clock clock' : Int) (ready serializes : Bool) :
    MainWindow :=
  if w.currentChatId = [] ∨ content = [] ∨ ¬ ready then w
  else
    let key := convKey w.currentChatId w.currentChatType
    let w := w.setMessages key (w.messagesOf key ++ [w.localMessage content clock clock'])
    if serializes then { w with sends := w.sends ++ [⟨key, localMsgId clock⟩] } else w

/-- The message as the server has accepted it. -/
def accepted (resp : SendResponse) (m : Message) : Message :=
  { m with
    sending := false
    sendFailed := false
    msgId := if resp.msgId = [] then m.msgId else resp.msgId
    timestamp := if 0 < resp.timestamp then resp.timestamp else m.timestamp }

def refused (m : Message) : Message := { m with sending := false, sendFailed := true }

/-- The callback of a send. -/
def sendCallback (w : MainWindow) (send : PendingSend) (answer : SendAnswer) : MainWindow :=
  let messages := w.messagesOf send.key
  match messages.find? (fun m => m.msgId = send.localMsgId) with
  | none => w
  | some message =>
    let refusedWindow := w.setMessages send.key (updateFirst send.localMsgId refused messages)
    match answer.resp with
    | none => refusedWindow
    | some resp =>
      if answer.code ≠ 0 ∨ resp.success = false then refusedWindow
      else
        let msg := accepted resp message
        let w := w.setMessages send.key (updateFirst send.localMsgId (accepted resp) messages)
        match w.conversationMap.get send.key with
        | none => w
        | some conv =>
          let conv := { conv with lastMessage := msg, updatedAt := msg.timestamp }
          { w with
            conversationMap := w.conversationMap.put send.key conv
            contacts := upsertConversation conv w.contacts }

/-- The `n`-th of the sends that wait is answered. -/
def sendAnswered (w : MainWindow) (n : Nat) (answer : SendAnswer) : MainWindow :=
  match w.sends[n]? with
  | none => w
  | some send => ({ w with sends := w.sends.eraseIdx n }).sendCallback send answer

/-- The messages of the local file are shown when the window has none. -/
def onConversationSelected (w : MainWindow) (chatId : Bytes) (chatType : Int) (stored : StoredMessages) :
    MainWindow :=
  let w := { w with
    currentChatId := chatId
    currentChatType := chatType
    contacts := setCurrentChat chatId w.contacts }
  let key := convKey chatId chatType
  if w.messagesOf key ≠ [] ∨ stored.messages = [] then w
  else w.setMessages key
    (stored.messages.map (fun m => { m with isSelf := m.fromUserId = w.currentUserId }))

end MainWindow

/-- What can happen to the window. -/
inductive WindowEvent where
  | pushed (payload : PushPayload)
  | offlineAnswered (code : Int) (page : Option (List ChatMessage))
  | historyAnswered (chatId : Bytes) (chatType code : Int) (page : List ChatMessage)
  | send (content : Bytes) (clock clock' : Int) (ready serializes : Bool)
  | sendAnswered (n : Nat) (answer : SendAnswer)
  | selected (chatId : Bytes) (chatType : Int) (stored : StoredMessages)

def windowStep (std : Sorter Older) (w : MainWindow) : WindowEvent → MainWindow
  | .pushed payload => w.onPushNewMessage payload
  | .offlineAnswered code page => w.offlineAnswered code page
  | .historyAnswered chatId chatType code page => w.historyAnswered std chatId chatType code page
  | .send content clock clock' ready serializes => w.sendChatMessage content clock clock' ready serializes
  | .sendAnswered n answer => w.sendAnswered n answer
  | .selected chatId chatType stored => w.onConversationSelected chatId chatType stored

end SwiftChat.Client
