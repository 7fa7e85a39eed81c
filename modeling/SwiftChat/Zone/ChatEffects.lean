import SwiftChat.Chat.ChatRun
import SwiftChat.Zone.ChatSystem

/-! The operations of the chat service that the requests of clients come down to. -/
namespace SwiftChat.Zone
open Base Chat

section
variable (jwt : Jwt) (codec : ChatCodec) (random : RandomString 16) (clock : SendClock)
  (r : ClientRequest)

/-- An operation by the user of the request's token, on a target that is named. -/
def chatOpOf (target : Bytes) (op : Bytes → ChatOp) : List ChatOp :=
  let uid := getAuthenticatedUserId jwt (createContext r.token) clock.verify
  if uid = [] then [] else if target = [] then [] else [op uid]

/-- The operation a request asks for; the requests that only read ask for none. -/
def chatOps : List ChatOp :=
  if r.cmd = str "chat.send_message" then
    asked codec.parseSendMessage r fun req => chatOpOf jwt clock r req.toId fun uid =>
      .send uid req.toId req.request.kind req.request.draft random clock.now
  else if r.cmd = str "chat.mark_read" then
    asked codec.parseMarkRead r fun req => chatOpOf jwt clock r req.chatId fun uid =>
      .markRead uid req.chatId (chatKind req.chatType) req.lastMsgId
  else if r.cmd = str "chat.pull_offline" then []
  else if r.cmd = str "chat.recall_message" then
    asked codec.parseRecallMessage r fun req => chatOpOf jwt clock r req.msgId fun uid =>
      .recallMessage req.msgId uid clock.now
  else if r.cmd = str "chat.get_history" then
    -- a look at a private chat registers it
    asked codec.parseGetHistory r fun req => askedInSession r <|
      chatOpOf jwt clock r req.chatId fun uid =>
        .getHistory uid req.chatId (chatKind req.chatType) req.beforeMsgId
          (min (historyLimit req.limit) 100)
  else if r.cmd = str "chat.sync_conversations" then []
  else if r.cmd = str "chat.delete_conversation" then
    asked codec.parseDeleteConversation r fun req => askedInSession r <|
      chatOpOf jwt clock r req.chatId fun uid =>
        .deleteConversation uid req.chatId (chatKind req.chatType)
  else []

end

theorem historyLimit_pos (limit : Int) : historyLimit limit > 0 := by
  unfold historyLimit
  split
  · rename_i h
    exact h.1
  · decide

section
variable {S : Type} {z : ZoneService S} {m : SystemManager S} {part : Part S ChatState} {s : S}
  {jwt : Jwt} {random : RandomString 16} {clock : SendClock} {r : ClientRequest} {db : ChatState}

/-- What a call of the service that checks the token, then its target, does to the databases. -/
theorem chatOpOf_run {α : Type} {target : Bytes} {op : Bytes → ChatOp} {a b : RpcResponse α}
    {y : ChatState × RpcResponse α}
    (h : y.1 = chatStep db (op (getAuthenticatedUserId jwt (createContext r.token) clock.verify))) :
    (if getAuthenticatedUserId jwt (createContext r.token) clock.verify = [] then (db, a)
      else if target = [] then (db, b) else y).1 =
      run chatStep db (chatOpOf jwt clock r target op) := by
  unfold chatOpOf
  simp only
  split
  · rfl
  split
  · rfl
  · exact h

theorem sendMessage_run (req : ChatSendMessagePayload) :
    ((chatCalls jwt random clock).sendMessage db req r.token).1 =
      run chatStep db (chatOpOf jwt clock r req.toId fun uid =>
        .send uid req.toId req.request.kind req.request.draft random clock.now) := by
  simp only [chatCalls, ChatRpcClient.sendMessage, ChatHandler.sendMessage]
  exact chatOpOf_run rfl

theorem markRead_run (userId : Bytes) (req : ChatMarkReadPayload) :
    ((chatCalls jwt random clock).markRead db userId req r.token).1 =
      run chatStep db (chatOpOf jwt clock r req.chatId fun uid =>
        .markRead uid req.chatId (chatKind req.chatType) req.lastMsgId) := by
  simp only [chatCalls, ChatSystem.markRead, ChatHandler.markRead]
  exact chatOpOf_run rfl

theorem recallMessage_run (req : ChatRecallMessagePayload) :
    ((chatCalls jwt random clock).recallMessage db req r.token).1 =
      run chatStep db (chatOpOf jwt clock r req.msgId fun uid =>
        .recallMessage req.msgId uid clock.now) := by
  simp only [chatCalls, ChatSystem.recallMessage, ChatHandler.recallMessage]
  refine chatOpOf_run ?_
  split <;> rfl

theorem getHistory_run (userId : Bytes) (req : ChatGetHistoryPayload) :
    ((chatCalls jwt random clock).getHistory db userId
        { req with limit := historyLimit req.limit } r.token).1 =
      run chatStep db (chatOpOf jwt clock r req.chatId fun uid =>
        .getHistory uid req.chatId (chatKind req.chatType) req.beforeMsgId
          (min (historyLimit req.limit) 100)) := by
  simp only [chatCalls, ChatSystem.getHistory, ChatHandler.getHistory, historyLimit_pos, if_true]
  exact chatOpOf_run rfl

theorem deleteConversation_run (userId : Bytes) (req : ChatDeleteConversationPayload) :
    ((chatCalls jwt random clock).deleteConversation db userId req r.token).1 =
      run chatStep db (chatOpOf jwt clock r req.chatId fun uid =>
        .deleteConversation uid req.chatId (chatKind req.chatType)) := by
  simp only [chatCalls, ChatSystem.deleteConversation, ChatHandler.deleteConversation]
  exact chatOpOf_run rfl

/-- A request for `chat.*` does the operation it asks for, and pushes after it. -/
theorem handleChat_does (hm : m.chat = some ((chatCalls jwt random clock).lift part))
    (hgroup : ∀ group, m.group = some group →
      ∀ s groupId page pageSize, (group.getGroupMembers s groupId page pageSize).1 = s) :
    Does z part chatStep s (chatOps jwt z.codecs.chat random clock r) (z.handleChat m s r) := by
  simp only [ZoneService.handleChat, hm, chatOps, ChatCalls.handleSendMessage, ChatCalls.lift]
  apply Does.ite
  · refine does_parsed fun req => ?_
    have hsend : Does z part chatStep s _
        (part.lift ((chatCalls jwt random clock).sendMessage · req r.token) s) :=
      does_call (sendMessage_run req)
    split
    · exact hsend
    · refine hsend.routed ?_
      exact pushToChat_routed hgroup
  apply Does.ite
  · refine does_parsed fun req => ?_
    have hmark : Does z part chatStep s _
        (part.lift ((chatCalls jwt random clock).markRead · r.userId req r.token) s) :=
      does_call (markRead_run r.userId req)
    have htext := @Does.textAnswer _ _ _ z part chatStep s _ .invalidParam r.requestId
      (str "mark read failed") _ hmark
    split
    · exact htext
    · refine htext.routed ?_
      exact pushToChat_routed hgroup
  apply Does.ite
  · exact does_parsed_nothing fun _ => does_ofSession_nothing (.readAnswer (does_call rfl))
  apply Does.ite
  · exact does_parsed fun req => .textAnswer (does_call (recallMessage_run req))
  apply Does.ite
  · exact does_parsed fun req => does_ofSession (.readAnswer (does_call (getHistory_run _ req)))
  apply Does.ite
  · exact does_parsed_nothing fun _ => does_ofSession_nothing (.readAnswer (does_call rfl))
  apply Does.ite
  · exact does_parsed fun req => does_ofSession
      (.textAnswer (does_call (deleteConversation_run _ req)))
  exact does_nothing

end
end SwiftChat.Zone
