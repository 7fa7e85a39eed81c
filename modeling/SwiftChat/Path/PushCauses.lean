import SwiftChat.Path.FabricSound
import SwiftChat.Path.Push

/-! Where pushes come from: each carries a message that a user has sent, or the news that a user has
read one. -/
namespace SwiftChat.Path
open Base Zone

/-- What a push comes from, when the request was served with the chat databases in this state. -/
inductive PushCause (cfg : Setup) (chat : Chat.ChatState) (draws : Draws) (r : ClientRequest)
    (p : Push) : Prop
  | message (req : ChatSendMessagePayload) (a : Bytes)
      (hops : cfg.chatOps draws r =
        [.send a req.toId .priv req.request.draft draws.msgRandom draws.chat.now])
      (hok : (Chat.ChatService.sendMessage chat a req.toId .priv req.request.draft draws.msgRandom
        draws.chat.now).2.success = true)
      (huser : p.userId = req.toId) (hcmd : p.cmd = str "chat.message")
      (hpayload : p.payload = .chatMessage (pushPayload req (taken draws.msgRandom draws.chat)))
  | receipt (req : ChatMarkReadPayload) (a : Bytes)
      (hops : cfg.chatOps draws r = [.markRead a req.chatId .priv req.lastMsgId])
      (huser : p.userId = req.chatId) (hcmd : p.cmd = str "chat.read_receipt")
      (hpayload : p.payload = .readReceipt req.chatId r.userId req.lastMsgId)

/-- The same zone, but nobody is in session. -/
def quiet (z : ZoneService Deployment) : ZoneService Deployment :=
  { z with routeToUser := fun s _ _ _ => s }

section
variable {cfg : Setup} {draws : Draws} {d : Deployment} {r : ClientRequest}

theorem handleFriend_pushes :
    ((cfg.zone draws).handleFriend (cfg.manager draws) d r).1.pushes = d.pushes := by
  have h : Does (quiet (cfg.zone draws)) Deployment.friendPart Friend.friendStep d
      (cfg.friendOps draws r) ((cfg.zone draws).handleFriend (cfg.manager draws) d r) :=
    handleFriend_does (z := quiet (cfg.zone draws)) rfl searchUsers_unchanged
  exact h.kept (fun _ _ => rfl) (fun _ _ _ _ => rfl)

theorem handleChat_pushes_other (hsend : r.cmd ≠ str "chat.send_message")
    (hread : r.cmd ≠ str "chat.mark_read") :
    ((cfg.zone draws).handleChat (cfg.manager draws) d r).1.pushes = d.pushes := by
  have hquiet : (cfg.zone draws).handleChat (cfg.manager draws) d r =
      (quiet (cfg.zone draws)).handleChat (cfg.manager draws) d r := by
    unfold ZoneService.handleChat
    simp only [if_neg hsend, if_neg hread]
    rfl
  have h : Does (quiet (cfg.zone draws)) Deployment.chatPart Chat.chatStep d
      (cfg.chatOps draws r) ((quiet (cfg.zone draws)).handleChat (cfg.manager draws) d r) :=
    handleChat_does rfl getGroupMembers_unchanged
  rw [hquiet]
  exact h.kept (fun _ _ => rfl) (fun _ _ _ _ => rfl)

/-- The zone asks for the members of a group without a token, and is told of none. -/
theorem members_refused (groupId : Bytes) : ∃ error,
    ((groupCalls cfg.jwt draws.groupRandom draws.nowMs draws.now).lift
      Deployment.groupPart).getGroupMembers d groupId 0 10000 = (d, .error error) := by
  obtain ⟨error, hrefused⟩ := getGroupMembers_refused cfg.jwt draws.now d.chat.groups groupId 0
    10000
  refine ⟨error, ?_⟩
  change Deployment.groupPart.lift (GroupSystem.getGroupMembers cfg.jwt draws.now · groupId 0 10000)
    d = (d, .error error)
  exact Deployment.groupPart.lift_fixed hrefused

theorem pushToChat_pushes {chatId self cmd : Bytes} {chatType : Int} {payload : PushPayload} :
    ((cfg.zone draws).pushToChat (cfg.manager draws) d chatId chatType self cmd payload).pushes =
        d.pushes ∨
      (chatType = 1 ∧ ∃ gateAddr,
        ((cfg.zone draws).pushToChat (cfg.manager draws) d chatId chatType self cmd payload).pushes =
          d.pushes ++ [⟨gateAddr, chatId, cmd, payload⟩]) := by
  unfold ZoneService.pushToChat pushToChat
  split
  · rename_i hpriv
    have hroute : (cfg.zone draws).routeToUser d chatId cmd payload =
      d.routeToUser chatId cmd payload := rfl
    rw [hroute, Deployment.routeToUser]
    cases d.presence.getSession chatId with
    | none => exact Or.inl rfl
    | some session => exact Or.inr ⟨hpriv, session.gateAddr, rfl⟩
  split
  · exact Or.inl rfl
  · obtain ⟨error, hrefused⟩ := @members_refused cfg draws d chatId
    simp only [Setup.manager, Option.map_some, hrefused]
    exact Or.inl trivial

theorem sendMessage_pushes (hsend : r.cmd = str "chat.send_message") :
    ((cfg.zone draws).handleChat (cfg.manager draws) d r).1.pushes = d.pushes ∨
      ∃ p, ((cfg.zone draws).handleChat (cfg.manager draws) d r).1.pushes = d.pushes ++ [p] ∧
        PushCause cfg d.chat draws r p := by
  simp only [ZoneService.handleChat, ChatCalls.handleSendMessage, Setup.manager, hsend, if_true,
    parsed, ChatCalls.lift, chatCalls, Part.lift, Deployment.chatPart]
  cases hparse : (cfg.zone draws).codecs.chat.parseSendMessage r.payload with
  | none => exact Or.inl rfl
  | some req =>
    simp only
    by_cases hok : (ChatRpcClient.sendMessage cfg.jwt d.chat draws.msgRandom draws.chat req
        r.token).2.success = true
    swap
    · rw [if_pos (Or.inl hok)]
      exact Or.inl rfl
    obtain ⟨hto, hserved, hcall⟩ := rpc_accepted hok
    have huid : getAuthenticatedUserId cfg.jwt (createContext r.token) draws.chat.verify ≠ [] := by
      intro hnone
      simp only [ChatRpcClient.sendMessage, Chat.ChatHandler.sendMessage, hnone, if_true] at hok
      cases hok
    have hid : (taken draws.msgRandom draws.chat).msgId ≠ [] := Chat.generateMsgId_ne_nil _
    have hnot : ¬ (¬ (taken draws.msgRandom draws.chat).success = true ∨
        (taken draws.msgRandom draws.chat).msgId = []) := by
      rintro (h | h)
      · exact h rfl
      · exact hid h
    rw [hcall, if_neg hnot]
    have hpush := @pushToChat_pushes cfg draws
      { d with chat := (served cfg.jwt d.chat draws.msgRandom draws.chat req r.token).1 }
      req.toId req.fromUserId (str "chat.message") req.chatType
      (.chatMessage (pushPayload req (taken draws.msgRandom draws.chat)))
    rcases hpush with hsame | ⟨hpriv, gateAddr, hadd⟩
    · exact Or.inl hsame
    refine Or.inr ⟨_, hadd, ?_⟩
    have hkind : req.request.kind = .priv := if_neg (by change ¬ req.chatType = 2; omega)
    unfold served at hserved
    rw [hkind] at hserved
    refine .message req _ ?_ hserved rfl rfl rfl
    have hreq : cfg.codecs.chat.parseSendMessage r.payload = some req := hparse
    simp only [Setup.chatOps, chatOps, hsend, if_true, asked, hreq, chatOpOf, if_neg huid, if_neg hto,
      hkind]

theorem markRead_pushes (hread : r.cmd = str "chat.mark_read") :
    ((cfg.zone draws).handleChat (cfg.manager draws) d r).1.pushes = d.pushes ∨
      ∃ p, ((cfg.zone draws).handleChat (cfg.manager draws) d r).1.pushes = d.pushes ++ [p] ∧
        PushCause cfg d.chat draws r p := by
  have hsend : str "chat.mark_read" ≠ str "chat.send_message" := by decide
  simp only [ZoneService.handleChat, Setup.manager, hread, hsend, if_true, if_false, parsed,
    ChatCalls.lift, chatCalls, Part.lift, Deployment.chatPart]
  cases hparse : (cfg.zone draws).codecs.chat.parseMarkRead r.payload with
  | none => exact Or.inl rfl
  | some req =>
    have hkept : ∀ x : Deployment × Except Bytes Unit,
        (textAnswer r.requestId .invalidParam (str "mark read failed") x).1 = x.1 := by
      intro x
      unfold textAnswer
      cases x.2 <;> rfl
    simp only [hkept]
    split
    · exact Or.inl rfl
    rename_i hok
    have hpush := @pushToChat_pushes cfg draws
      { d with chat := (ChatSystem.markRead cfg.jwt d.chat draws.chat req.chatId req.chatType
          req.lastMsgId r.token).1 }
      req.chatId r.userId (str "chat.read_receipt") req.chatType
      (.readReceipt req.chatId r.userId req.lastMsgId)
    rcases hpush with hsame | ⟨hpriv, gateAddr, hadd⟩
    · exact Or.inl hsame
    -- the call went through, so it had a user and a chat
    have hwent : (ChatSystem.markRead cfg.jwt d.chat draws.chat req.chatId req.chatType req.lastMsgId
        r.token).2.isOk = true := by
      cases h : (ChatSystem.markRead cfg.jwt d.chat draws.chat req.chatId req.chatType
          req.lastMsgId r.token).2.isOk with
      | true => rfl
      | false => exact absurd (Or.inl h) hok
    have huid : getAuthenticatedUserId cfg.jwt (createContext r.token) draws.chat.verify ≠ [] := by
      intro hnone
      simp only [ChatSystem.markRead, Chat.ChatHandler.markRead, hnone, if_true] at hwent
      cases hwent
    have hchat : req.chatId ≠ [] := by
      intro hnone
      simp only [ChatSystem.markRead, Chat.ChatHandler.markRead, if_neg huid, hnone, if_true] at hwent
      cases hwent
    refine Or.inr ⟨_, hadd, .receipt req
      (getAuthenticatedUserId cfg.jwt (createContext r.token) draws.chat.verify) ?_ rfl rfl rfl⟩
    have hreq : cfg.codecs.chat.parseMarkRead r.payload = some req := hparse
    have hkind : Chat.chatKind req.chatType = .priv := if_neg (by omega)
    simp only [Setup.chatOps, chatOps, hread, hsend, if_true, if_false, asked, hreq, chatOpOf,
      if_neg huid, if_neg hchat, hkind]

/-- The requests for `chat.*` that push are those that send a message or mark one as read. -/
theorem handleChat_pushes :
    ((cfg.zone draws).handleChat (cfg.manager draws) d r).1.pushes = d.pushes ∨
      ∃ p, ((cfg.zone draws).handleChat (cfg.manager draws) d r).1.pushes = d.pushes ++ [p] ∧
        PushCause cfg d.chat draws r p := by
  by_cases hsend : r.cmd = str "chat.send_message"
  · exact sendMessage_pushes hsend
  by_cases hread : r.cmd = str "chat.mark_read"
  · exact markRead_pushes hread
  · exact Or.inl (handleChat_pushes_other hsend hread)

/-- A request that is served pushes nothing, or what it has cause for. -/
theorem serve_pushes (cfg : Setup) (draws : Draws) (d : Deployment) (r : ClientRequest) :
    (cfg.serve draws d r).1.pushes = d.pushes ∨
      ∃ p, (cfg.serve draws d r).1.pushes = d.pushes ++ [p] ∧ PushCause cfg d.chat draws r p := by
  have hserve : cfg.serve draws d r =
    Zone.handleClientRequest ((cfg.zone draws).prefixHandlers (cfg.manager draws)) d r := rfl
  rw [hserve, Zone.handleClientRequest]
  split
  · have hlifted : (cfg.zone draws).handleAuth (cfg.manager draws) d r =
        Deployment.authPart.lift (cfg.handleAuth draws · r) d :=
      handleAuth_lifted rfl d r
    refine Or.inl ?_
    change ((cfg.zone draws).handleAuth (cfg.manager draws) d r).1.pushes = d.pushes
    rw [hlifted]
    rfl
  split
  · exact handleChat_pushes
  split
  · exact Or.inl handleFriend_pushes
  split
  · refine Or.inl ?_
    change ((cfg.zone draws).handleGroup (cfg.manager draws) d r).1.pushes = d.pushes
    rw [handleGroup_unchanged]
  split
  · refine Or.inl ?_
    change ((cfg.zone draws).handleFile (cfg.manager draws) d r).1.pushes = d.pushes
    obtain ⟨files, hfiles⟩ := @handleFile_files cfg draws d r
    rw [hfiles]
  · exact Or.inl rfl

end
end SwiftChat.Path
