import SwiftChat.Chat.GroupChange
import SwiftChat.Chat.Receivers
import SwiftChat.Zone.ChatSystem
import SwiftChat.Zone.Codec

/-! Whether the push of a sent message agrees with what the chat service stored. -/
namespace SwiftChat.Path
open Base Chat Zone

/-- The data a pushed message shares with a stored one. -/
structure SameMessage (p : ChatMessagePushPayload) (m : MessageData) : Prop where
  id : p.msgId = m.msgId
  sender : p.fromUserId = m.fromUserId
  target : p.toId = m.toId
  chatType : p.chatType = m.chatType
  mediaType : p.mediaType = m.mediaType
  content : p.content = m.content

/-- The push agrees with the store: what is pushed is the message stored under the id of the
answer, and it is routed to the users whose queue holds that message. -/
def PushRight (o : SendOutcome) : Prop :=
  ∃ id timestamp error m, o.result.payload = some (.chatSendMessage true id timestamp error) ∧
    getById o.chat.msgs id = some m ∧
    (∀ x ∈ o.routes, ∃ p, x.payload = .chatMessage p ∧ SameMessage p m) ∧
    ∀ u, (∃ x ∈ o.routes, x.userId = u) ↔ Queued o.chat.msgs u m

/-- The payload names the sender and the kind of media of a private message, or the sender is the
only member of the group. -/
def PushFits (groups : GroupDb) (uid : Bytes) (req : ChatSendMessagePayload) : Prop :=
  (req.chatType = 1 ∧ req.fromUserId = uid ∧ req.mediaType ≠ []) ∨
    (req.chatType = 2 ∧ ∀ x ∈ GroupStore.allMembers groups req.toId, x.userId = uid)

section
variable {jwt : Jwt} {s : ChatState} {random : RandomString 16} {clock : SendClock}
  {req : ChatSendMessagePayload} {token : Bytes} {parse : Bytes → Option ChatSendMessagePayload}
  {store : SessionStore} {r : ClientRequest}

/-- What the zone learns of a message that the chat service took. -/
def taken (random : RandomString 16) (clock : SendClock) : SendMessageResult :=
  { success := true, msgId := ChatService.generateMsgId random, timestamp := clock.now }

/-- The client of the zone reports what the service does. -/
theorem sendResult_cases {x : ChatService.SendResult} (h : x.Reports random clock.now) :
    (x.success = true ∧ sendResult (sendResponse x) = taken random clock) ∨
      (sendResult (sendResponse x)).success = false := by
  rcases h with ⟨hok, hid, htime⟩ | ⟨hfail, herror⟩
  · refine Or.inl ⟨hok, ?_⟩
    simp [sendResult, sendResponse, hok, RpcResponse.ok, RpcResponse.result, errorCodeToInt, hid,
      htime, taken]
  · refine Or.inr ?_
    have hcode : errorCodeToInt (mapSendErrorToCode x.error) ≠ 0 := by
      intro hzero
      exact mapSendErrorToCode_ne_ok herror (errorCodeToInt_eq_zero.mp hzero)
    simp [sendResult, sendResponse, hfail, RpcResponse.fail, RpcResponse.result, hcode]

/-- The sending of a message by the user of a token, as the chat service does it. -/
def served (jwt : Jwt) (s : ChatState) (random : RandomString 16) (clock : SendClock)
    (req : ChatSendMessagePayload) (token : Bytes) : ChatState × ChatService.SendResult :=
  ChatService.sendMessage s (getAuthenticatedUserId jwt (createContext token) clock.verify)
    req.toId req.request.kind req.request.draft random clock.now

theorem rpc_accepted
    (hok : (ChatRpcClient.sendMessage jwt s random clock req token).2.success = true) :
    req.toId ≠ [] ∧ (served jwt s random clock req token).2.success = true ∧
    ChatRpcClient.sendMessage jwt s random clock req token =
      ((served jwt s random clock req token).1, taken random clock) := by
  unfold ChatRpcClient.sendMessage ChatHandler.sendMessage at hok ⊢
  by_cases huid : getAuthenticatedUserId jwt (createContext token) clock.verify = []
  · simp only [huid, if_true] at hok
    cases hok
  · by_cases hto : req.request.toId = []
    · simp only [huid, hto, if_true, if_false] at hok
      cases hok
    · simp only [huid, hto, if_false] at hok ⊢
      rcases sendResult_cases (x := (served jwt s random clock req token).2) sendMessage_reports
        with ⟨hserved, hresult⟩ | hfail
      · exact ⟨hto, hserved, Prod.ext rfl hresult⟩
      · exact absurd (hok.symm.trans hfail) (by decide)

/-- The other side of a private chat gets the push, and in a group nobody. -/
theorem pushToChat_eq {t : SendState} {cmd : Bytes} {payload : PushPayload} :
    pushToChat (some (SendState.getGroupMembers jwt clock)) (SendState.route store) t req.toId
        req.chatType req.fromUserId cmd payload =
    { t with
      routes := t.routes ++ (if req.chatType = 1 then [req.toId] else []).map fun u =>
        routeToUser store u cmd payload } := by
  obtain ⟨error, hrefused⟩ := getGroupMembers_refused jwt clock.members t.chat.groups req.toId 0
    10000
  have hasked : t.getGroupMembers jwt clock req.toId 0 10000 = (t, .error error) :=
    SendState.groupPart.lift_fixed hrefused
  unfold pushToChat
  have hone : ChatType.priv.toInt = 1 := rfl
  by_cases hpriv : req.chatType = 1
  · rw [hone, if_pos hpriv, if_pos hpriv]
    rfl
  · rw [hone, if_neg hpriv, if_neg hpriv, List.map_nil, List.append_nil]
    simp only [hasked, ite_self]

/-- What comes of a request that is answered with success. -/
theorem handle_accepted (hreq : parse r.payload = some req)
    (hok : (handleSendMessage jwt s random clock parse store r).result.code = 0) :
    req.toId ≠ [] ∧ (served jwt s random clock req r.token).2.success = true ∧
    handleSendMessage jwt s random clock parse store r =
      { chat := (served jwt s random clock req r.token).1
        result := sendAnswer (taken random clock) r.requestId
        routes := (if req.chatType = 1 then [req.toId] else []).map fun u =>
          routeToUser store u (str "chat.message")
            (.chatMessage (pushPayload req (taken random clock))) } := by
  have hcall : ((chatCalls jwt random clock).lift SendState.chatPart).sendMessage { chat := s } req
      r.token = ({ chat := (ChatRpcClient.sendMessage jwt s random clock req r.token).1 },
        (ChatRpcClient.sendMessage jwt s random clock req r.token).2) := rfl
  simp only [handleSendMessage, ChatCalls.handleSendMessage, parsed, hreq, hcall] at hok ⊢
  have hsuccess : (ChatRpcClient.sendMessage jwt s random clock req r.token).2.success = true := by
    cases hs : (ChatRpcClient.sendMessage jwt s random clock req r.token).2.success with
    | true => rfl
    | false =>
      simp [hs, sendAnswer, errorCodeToInt] at hok
  obtain ⟨hto, hserved, htaken⟩ := rpc_accepted hsuccess
  refine ⟨hto, hserved, ?_⟩
  have hid : (taken random clock).msgId ≠ [] := generateMsgId_ne_nil random
  have hgo : ¬ (¬ (taken random clock).success = true ∨ (taken random clock).msgId = []) := by
    rintro (h | h)
    · exact h rfl
    · exact hid h
  simp only [htaken, if_neg hgo, pushToChat_eq, List.nil_append]

/-- The pushed message is the stored one exactly when the payload has the sender, the kind of chat
and the kind of media that the chat service stores. -/
theorem sameMessage_iff {uid conversationId : Bytes} :
    SameMessage (pushPayload req (taken random clock))
      (ChatService.newMessage uid req.toId conversationId req.request.kind req.request.draft random
        clock.now) ↔
    req.fromUserId = uid ∧ req.chatType = req.request.kind.toInt ∧ req.mediaType ≠ [] := by
  constructor
  · rintro ⟨_, hsender, _, hchat, hmedia, _⟩
    refine ⟨hsender, hchat, ?_⟩
    intro hnone
    have htext : req.mediaType = if req.mediaType = [] then str "text" else req.mediaType := hmedia
    rw [if_pos hnone, hnone] at htext
    exact absurd htext (by decide)
  · rintro ⟨hsender, hchat, hmedia⟩
    exact ⟨rfl, hsender, rfl, hchat, (if_neg hmedia).symm, rfl⟩

/-- A push after a message was taken is right when it carries that message, unless it goes to
nobody, and goes to its receivers. -/
theorem pushRight_iff {T : Int → Prop} {uid requestId cmd : Bytes} {targets : List Bytes}
    (h : ChatOk T s) (huid : uid = getAuthenticatedUserId jwt (createContext token) clock.verify)
    (hserved : (served jwt s random clock req token).2.success = true) :
    PushRight ⟨(served jwt s random clock req token).1, sendAnswer (taken random clock) requestId,
      targets.map fun u => routeToUser store u cmd
        (.chatMessage (pushPayload req (taken random clock)))⟩ ↔
    (targets ≠ [] →
      req.fromUserId = uid ∧ req.chatType = req.request.kind.toInt ∧ req.mediaType ≠ []) ∧
    ∀ u, u ∈ targets ↔ u ∈ ChatService.receivers s.groups uid req.toId req.request.kind ∧ u ≠ [] := by
  subst huid
  have hstored := (send_stored hserved).2
  have hqueued := send_queued h hserved
  have hrouted : ∀ u, (∃ x ∈ targets.map fun u => routeToUser store u cmd
      (.chatMessage (pushPayload req (taken random clock))), x.userId = u) ↔ u ∈ targets := by
    intro u
    simp [routeToUser]
  constructor
  · rintro ⟨id, timestamp, error, m, hpayload, hm, hsame, hroutes⟩
    obtain rfl : ChatService.generateMsgId random = id := by
      simp only [sendAnswer, taken, Option.some.injEq, ResponsePayload.chatSendMessage.injEq]
        at hpayload
      exact hpayload.2.1
    obtain rfl := Option.some.inj (hstored.symm.trans hm)
    refine ⟨?_, ?_⟩
    · intro hne
      obtain ⟨u, hu⟩ := List.exists_mem_of_ne_nil targets hne
      obtain ⟨p, hp, hsame⟩ := hsame _ (List.mem_map_of_mem hu)
      obtain rfl := PushPayload.chatMessage.inj hp
      exact sameMessage_iff.mp hsame
    · intro u
      rw [← hrouted u, hroutes u, ← hqueued u]
      rfl
  · rintro ⟨hsame, htargets⟩
    refine ⟨_, _, _, _, rfl, hstored, ?_, ?_⟩
    · intro x hx
      obtain ⟨u, hu, rfl⟩ := List.mem_map.mp hx
      exact ⟨_, rfl, sameMessage_iff.mpr (hsame (List.ne_nil_of_mem hu))⟩
    · intro u
      rw [hrouted u, htargets u, ← hqueued u]
      rfl

end

/-- In every reachable state, for every request that is answered with success: the push agrees with
the store exactly when the message is private and the payload names the user of the token and a
kind of media, or when it is for a group that has no other member. -/
theorem push_right_iff (jwt : Jwt) (ops : List ChatOp) (random : RandomString 16)
    (clock : SendClock) (parse : Bytes → Option ChatSendMessagePayload) (store : SessionStore)
    (r : ClientRequest) (req : ChatSendMessagePayload) (hreq : parse r.payload = some req)
    (hok : (handleSendMessage jwt (chatAfter ops) random clock parse store r).result.code = 0) :
    PushRight (handleSendMessage jwt (chatAfter ops) random clock parse store r) ↔
      PushFits (chatAfter ops).groups
        (getAuthenticatedUserId jwt (createContext r.token) clock.verify) req := by
  obtain ⟨hto, hserved, houtcome⟩ := handle_accepted hreq hok
  have hstate : ChatOk (fun _ => True) (chatAfter ops) := chatAfter_ok fun op _ => by
    cases op <;> trivial
  have hnamed := chatAfter_membersNamed ops
  generalize huid : getAuthenticatedUserId jwt (createContext r.token) clock.verify = uid
  rw [houtcome, pushRight_iff hstate huid.symm hserved]
  by_cases hpriv : req.chatType = 1
  · have hkind : req.request.kind = .priv := if_neg (by change ¬ req.chatType = 2; omega)
    rw [if_pos hpriv, hkind]
    constructor
    · rintro ⟨hsame, _⟩
      obtain ⟨hsender, _, hmedia⟩ := hsame (List.cons_ne_nil _ _)
      exact Or.inl ⟨hpriv, hsender, hmedia⟩
    · rintro (⟨_, hsender, hmedia⟩ | ⟨hgroup, _⟩)
      · refine ⟨fun _ => ⟨hsender, hpriv, hmedia⟩, ?_⟩
        intro u
        simp only [ChatService.receivers, List.mem_singleton]
        exact ⟨fun hu => ⟨hu, hu ▸ hto⟩, And.left⟩
      · omega
  · rw [if_neg hpriv]
    constructor
    · rintro ⟨_, htargets⟩
      by_cases hgroup : req.chatType = 2
      · refine Or.inr ⟨hgroup, (hnamed.nobody_iff hto).mp ?_⟩
        rw [List.eq_nil_iff_forall_not_mem]
        intro u hu
        rw [show req.request.kind = .group from if_pos hgroup] at htargets
        exact List.not_mem_nil ((htargets u).mpr ⟨hu, hnamed.other_ne_nil hto hu⟩)
      · -- a number that stands for nothing is stored as private and pushed to nobody
        rw [show req.request.kind = .priv from if_neg hgroup] at htargets
        exact absurd ((htargets req.toId).mpr ⟨List.mem_singleton.mpr rfl, hto⟩) List.not_mem_nil
    · rintro (⟨hone, _⟩ | ⟨hgroup, honly⟩)
      · exact absurd hone hpriv
      · refine ⟨fun hne => absurd rfl hne, ?_⟩
        intro u
        rw [show req.request.kind = .group from if_pos hgroup]
        simp only [ChatService.receivers, (hnamed.nobody_iff hto).mpr honly, List.not_mem_nil,
          false_and]

/-- A message of `a` with a valid token; `chatType` is the number of the chat type. -/
def fromA (toId : Bytes) (chatType : UInt8) : ClientRequest where
  connId := str "c1"
  userId := str "a"
  cmd := str "chat.send_message"
  payload := stringField 1 (str "a") ++ stringField 2 toId ++ [24, chatType] ++
    stringField 4 (str "hi") ++ stringField 6 (str "text")
  requestId := str "r1"
  token := Jwt.plain.create (str "a") 1 168

/-- The message is sent in a system where `a`, `b` and `c` are in a group. -/
def sentByA (toId : Bytes) (chatType : UInt8) : SendOutcome :=
  handleSendMessage Jwt.plain (chatAfter [makeGroup]) randomA ⟨1, 6, 1⟩ wireSendMessage {}
    (fromA toId chatType)

theorem private_push : (sentByA (str "b") 1).result.code = 0 ∧ PushRight (sentByA (str "b") 1) := by
  have hok : (sentByA (str "b") 1).result.code = 0 := by decide +kernel
  refine ⟨hok, ?_⟩
  unfold sentByA at hok ⊢
  refine (push_right_iff Jwt.plain [makeGroup] randomA ⟨1, 6, 1⟩ wireSendMessage {}
    (fromA (str "b") 1)
    { fromUserId := str "a", toId := str "b", chatType := 1, content := str "hi",
      mediaType := str "text" } (by decide +kernel) hok).mpr (Or.inl ⟨rfl, ?_, ?_⟩)
  · decide +kernel
  · decide +kernel

/-- The message to the group is queued for `b` and `c` and routed to nobody. -/
theorem group_push_missing :
    ¬ ((sentByA sampleGroupId 2).result.code = 0 → PushRight (sentByA sampleGroupId 2)) := by
  intro h
  obtain ⟨id, timestamp, error, m, hpayload, hm, _, hroutes⟩ := h (by decide +kernel)
  have hid : id = ChatService.generateMsgId randomA := by
    have hanswer : (sentByA sampleGroupId 2).result.payload =
        some (.chatSendMessage true (ChatService.generateMsgId randomA) 6 []) := by decide +kernel
    rw [hanswer] at hpayload
    exact (ResponsePayload.chatSendMessage.inj (Option.some.inj hpayload)).2.1.symm
  have hstored : getById (sentByA sampleGroupId 2).chat.msgs (ChatService.generateMsgId randomA) =
      some (ChatService.newMessage (str "a") sampleGroupId sampleGroupId .group
        { content := str "hi", mediaType := str "text" } randomA 6) := by decide +kernel
  rw [hid, hstored] at hm
  obtain rfl := Option.some.inj hm
  have hnobody : (sentByA sampleGroupId 2).routes = [] := by decide +kernel
  obtain ⟨x, hx, _⟩ := (hroutes (str "b")).mpr (by decide +kernel)
  rw [hnobody] at hx
  cases hx

end SwiftChat.Path
