import SwiftChat.Chat.Alike
import SwiftChat.Chat.ChatRun
import SwiftChat.Zone.ChatSystem
import SwiftChat.Zone.Codec

/-! What a client that reads messages can tell of their recall. -/
namespace SwiftChat.Zone
open Base Chat

/-- The two requests that read messages. -/
def IsRead (r : ClientRequest) : Prop :=
  r.cmd = str "chat.pull_offline" ∨ r.cmd = str "chat.get_history"

/-- A reply of the chat service to one of them. -/
structure ReadReply where
  code : Int
  message : Bytes
  messages : List ChatMessage
  nextCursor : Bytes := []
  hasMore : Bool

section
variable (z : ZoneService ChatState) (m : SystemManager ChatState) (jwt : Jwt)
  (random : RandomString 16) (clock : SendClock) (s : ChatState) (r : ClientRequest)

/-- The zone's answer over the chat service. -/
def readResponse : HandleClientRequestResult :=
  (z.handleChat { m with chat := some (chatCalls jwt random clock) } s r).2

/-- The reply the zone's answer is made from; a request the zone refuses has none. -/
def chatReply : Option ReadReply :=
  if r.userId = [] then none
  else if r.cmd = str "chat.pull_offline" then
    (z.codecs.chat.parsePullOffline r.payload).map fun req =>
      let resp := ChatHandler.pullOffline jwt (createContext r.token) s clock.verify req.cursor
        (offlineLimit req.limit)
      { code := resp.code
        message := resp.message
        messages := resp.body.messages
        nextCursor := resp.body.nextCursor
        hasMore := resp.body.hasMore }
  else if r.cmd = str "chat.get_history" then
    (z.codecs.chat.parseGetHistory r.payload).map fun req =>
      let resp := (ChatHandler.getHistory jwt (createContext r.token) s clock.verify
        { chatId := req.chatId
          chatType := req.chatType
          beforeMsgId := req.beforeMsgId
          limit := historyLimit req.limit }).2
      { code := resp.code
        message := resp.message
        messages := resp.body.messages
        hasMore := resp.body.hasMore }
  else none

/-- The messages in that reply. -/
def returned : List ChatMessage := ((chatReply z jwt clock s r).map ReadReply.messages).getD []

/-- Recalled messages of others whose content differs. -/
def OtherContent (u : Bytes) (m m' : MessageData) : Prop :=
  m' = m ∨ (m.status = 1 ∧ m.fromUserId ≠ u ∧ ∃ content, m' = { m with content := content })

/-- A message as it was before its recall. -/
def takeBack (m : MessageData) : MessageData :=
  if m.status = 1 then { m with status := 0, recallAt := 0 } else m

def TakenBack (m m' : MessageData) : Prop := m' = m ∨ (m.status = 1 ∧ m' = takeBack m)

/-- Nobody learns the content of a message another user has recalled, and nobody takes a recalled
message for one that is not: where a recall more or less changes the reply of the chat service, it
changes the zone's answer. -/
structure RecallShown : Prop where
  hidden : ∀ s', AlikeStates
      (OtherContent (getAuthenticatedUserId jwt (createContext r.token) clock.verify)) s s' →
    readResponse z m jwt random clock s' r = readResponse z m jwt random clock s r
  told : ∀ s', AlikeStates TakenBack s s' → returned z jwt clock s' r ≠ returned z jwt clock s r →
    readResponse z m jwt random clock s' r ≠ readResponse z m jwt random clock s r

end

/-- What the zone passes on of a message. -/
def shown (m : ChatMessage) : ChatMessagePushPayload := historyPayload (fromProto m)

/-- Replies to one request over related messages. -/
inductive ReplyRel (R : MessageData → MessageData → Prop) :
    Option ReadReply → Option ReadReply → Prop
  | refused : ReplyRel R none none
  | answered (code : Int) (message nextCursor : Bytes) (hasMore : Bool)
      {l l' : List MessageData} (h : List.Forall₂ R l l') :
    ReplyRel R
      (some ⟨code, message, l.map fillChatMessage, nextCursor, hasMore⟩)
      (some ⟨code, message, l'.map fillChatMessage, nextCursor, hasMore⟩)

section
variable {z : ZoneService ChatState} {m : SystemManager ChatState} {jwt : Jwt}
  {random : RandomString 16} {clock : SendClock} {s s' : ChatState} {r : ClientRequest}
  {R : MessageData → MessageData → Prop}

theorem chatReply_alike (hR : KeepsPlace R) (h : AlikeStates R s s') :
    ReplyRel R (chatReply z jwt clock s r) (chatReply z jwt clock s' r) := by
  unfold chatReply
  split
  · exact .refused
  split
  · cases z.codecs.chat.parsePullOffline r.payload with
    | none => exact .refused
    | some req =>
      simp only [Option.map_some, ChatHandler.pullOffline]
      split
      · exact .answered _ _ [] false .nil
      · have hpage := h.pullOffline
          (getAuthenticatedUserId jwt (createContext r.token) clock.verify) req.cursor
          (if offlineLimit req.limit > 0 then min (offlineLimit req.limit) 200 else 100)
        simp only [RpcResponse.ok, hpage.nextCursor, hpage.hasMore]
        exact .answered _ _ _ _ hpage.messages
  split
  · cases z.codecs.chat.parseGetHistory r.payload with
    | none => exact .refused
    | some req =>
      simp only [Option.map_some, ChatHandler.getHistory]
      split
      · exact .answered _ _ [] false .nil
      split
      · exact .answered _ _ [] false .nil
      · have hlist := h.getHistory hR
          (getAuthenticatedUserId jwt (createContext r.token) clock.verify) req.chatId
          (chatKind req.chatType) req.beforeMsgId
          (if historyLimit req.limit > 0 then min (historyLimit req.limit) 100 else 50)
        simp only [RpcResponse.ok, ← hlist.length_eq]
        exact .answered _ _ [] _ hlist
  · exact .refused

/-- All the zone looks at in a reply. -/
def ReadReply.seen (reply : ReadReply) : Int × Bytes × List ChatMessagePushPayload × Bytes × Bool :=
  (reply.code, reply.message, reply.messages.map shown, reply.nextCursor, reply.hasMore)

/-- The client's error text is not empty, so the zone's own text is never used. -/
theorem readAnswer_result {S α β : Type} {s : S} {requestId fallback unused : Bytes}
    {payload : β → ResponsePayload} {f : α → β} {resp : RpcResponse α} (hf : fallback ≠ []) :
    (readAnswer requestId unused payload (s, (resp.result fallback).map f)).2 =
      if resp.code ≠ 0 then
        { code := errorCodeToInt .internalError
          message := if resp.message = [] then fallback else resp.message
          requestId := requestId }
      else
        { code := errorCodeToInt .ok, payload := some (payload (f resp.body)),
          requestId := requestId } := by
  by_cases hcode : resp.code = 0
  · simp [RpcResponse.result, hcode, readAnswer, Except.map]
  · have hne : (if resp.message = [] then fallback else resp.message) ≠ [] := by
      split
      · exact hf
      · assumption
    simp [RpcResponse.result, hcode, readAnswer, Except.map, hne]

theorem readResponse_offline (hcmd : r.cmd = str "chat.pull_offline")
    (h : (chatReply z jwt clock s' r).map ReadReply.seen =
      (chatReply z jwt clock s r).map ReadReply.seen) :
    readResponse z m jwt random clock s' r = readResponse z m jwt random clock s r := by
  have hsend : str "chat.pull_offline" ≠ str "chat.send_message" := by decide
  have hmark : str "chat.pull_offline" ≠ str "chat.mark_read" := by decide
  simp only [readResponse, ZoneService.handleChat, hcmd, if_neg hsend, if_neg hmark, if_true,
    parsed]
  cases hreq : z.codecs.chat.parsePullOffline r.payload with
  | none => rfl
  | some req =>
    simp only [ofSession]
    split
    · rfl
    · rename_i hu
      simp only [chatReply, if_neg hu, if_pos hcmd, hreq, Option.map_some, Option.some.injEq,
        ReadReply.seen, Prod.mk.injEq] at h
      obtain ⟨hcode, hmessage, hlist, hcursor, hmore⟩ := h
      have hshown : ∀ l : List ChatMessage,
          (l.map fun m => offlineMessage (fromProto m)).map offlinePayload = l.map shown := by
        intro l
        rw [List.map_map]
        rfl
      have hpull : ∀ t, (chatCalls jwt random clock).pullOffline t r.userId (offlineLimit req.limit)
          req.cursor r.token = ChatSystem.pullOffline jwt t clock (offlineLimit req.limit) req.cursor
          r.token := fun _ => rfl
      simp only [hpull, ChatSystem.pullOffline]
      rw [readAnswer_result (by decide), readAnswer_result (by decide)]
      simp only [hcode, hmessage, hshown, hlist, hcursor, hmore]

theorem readResponse_history (hcmd : r.cmd = str "chat.get_history")
    (h : (chatReply z jwt clock s' r).map ReadReply.seen =
      (chatReply z jwt clock s r).map ReadReply.seen) :
    readResponse z m jwt random clock s' r = readResponse z m jwt random clock s r := by
  have hsend : str "chat.get_history" ≠ str "chat.send_message" := by decide
  have hmark : str "chat.get_history" ≠ str "chat.mark_read" := by decide
  have hpull : str "chat.get_history" ≠ str "chat.pull_offline" := by decide
  have hrecall : str "chat.get_history" ≠ str "chat.recall_message" := by decide
  simp only [readResponse, ZoneService.handleChat, hcmd, if_neg hsend, if_neg hmark, if_neg hpull,
    if_neg hrecall, if_true, parsed]
  cases hreq : z.codecs.chat.parseGetHistory r.payload with
  | none => rfl
  | some req =>
    simp only [ofSession]
    split
    · rfl
    · rename_i hu
      have hcmd' : ¬ r.cmd = str "chat.pull_offline" := by rw [hcmd]; exact hpull
      simp only [chatReply, if_neg hu, if_neg hcmd', if_pos hcmd, hreq, Option.map_some,
        Option.some.injEq, ReadReply.seen, Prod.mk.injEq] at h
      obtain ⟨hcode, hmessage, hlist, _, hmore⟩ := h
      have hshown : ∀ l : List ChatMessage, (l.map fromProto).map historyPayload = l.map shown := by
        intro l
        rw [List.map_map]
        rfl
      simp only [chatCalls, ChatSystem.getHistory]
      rw [readAnswer_result (by decide), readAnswer_result (by decide)]
      simp only [hcode, hmessage, hshown, hlist, hmore]

/-- The zone's answer is made from the reply, and from what is shown of its messages only. -/
theorem readResponse_congr (hr : IsRead r)
    (h : (chatReply z jwt clock s' r).map ReadReply.seen =
      (chatReply z jwt clock s r).map ReadReply.seen) :
    readResponse z m jwt random clock s' r = readResponse z m jwt random clock s r := by
  rcases hr with hcmd | hcmd
  · exact readResponse_offline hcmd h
  · exact readResponse_history hcmd h

theorem ReplyRel.seen_eq {a b : Option ReadReply} (h : ReplyRel R a b)
    (hR : ∀ m m', R m m' → shown (fillChatMessage m') = shown (fillChatMessage m)) :
    b.map ReadReply.seen = a.map ReadReply.seen := by
  cases h with
  | refused => rfl
  | answered code message nextCursor hasMore hl =>
    rename_i l l'
    have hmap : (l'.map fillChatMessage).map shown = (l.map fillChatMessage).map shown := by
      induction hl with
      | nil => rfl
      | cons hm _ ih => simp only [List.map_cons, hR _ _ hm, ih]
    simp only [Option.map_some, ReadReply.seen, hmap]

/-- Where only recalled messages differ, a reply without one is the same. -/
theorem ReplyRel.eq_of_live {a b : Option ReadReply} (h : ReplyRel R a b)
    (hR : ∀ m m', R m m' → m' = m ∨ m.status = 1)
    (hlive : ∀ x ∈ (a.map ReadReply.messages).getD [], x.status ≠ 1) : b = a := by
  cases h with
  | refused => rfl
  | answered code message nextCursor hasMore hl =>
    rename_i l l'
    have hsame : l' = l := by
      induction hl with
      | nil => rfl
      | @cons m m' l l' hm _ ih =>
        have htail := ih (fun x hx => hlive x (List.mem_cons_of_mem _ hx))
        rcases hR m m' hm with rfl | hrecalled
        · rw [htail]
        · exact absurd hrecalled (hlive (fillChatMessage m) List.mem_cons_self)
    rw [hsame]

theorem otherContent_keepsPlace (u : Bytes) : KeepsPlace (OtherContent u) := by
  rintro m m' (rfl | ⟨_, _, content, rfl⟩)
  · exact ⟨rfl, rfl, rfl⟩
  · exact ⟨rfl, rfl, rfl⟩

theorem takeBack_place (m : MessageData) : (takeBack m).conversationId = m.conversationId ∧
    (takeBack m).toId = m.toId ∧ (takeBack m).timestamp = m.timestamp := by
  unfold takeBack
  split <;> exact ⟨rfl, rfl, rfl⟩

theorem takenBack_keepsPlace : KeepsPlace TakenBack := by
  rintro m m' (rfl | ⟨_, rfl⟩)
  · exact ⟨rfl, rfl, rfl⟩
  · exact takeBack_place m

/-- A reply that tells of no recall shows what it should. -/
theorem recallShown_of_live (hr : IsRead r)
    (hlive : ∀ x ∈ returned z jwt clock s r, x.status ≠ 1) :
    RecallShown z m jwt random clock s r := by
  constructor
  · intro s' h
    have hreply : ReplyRel _ (chatReply z jwt clock s r) (chatReply z jwt clock s' r) :=
      chatReply_alike (otherContent_keepsPlace _) h
    refine readResponse_congr hr (congrArg _ (hreply.eq_of_live ?_ hlive))
    rintro m m' (rfl | ⟨hrecalled, _⟩)
    · exact Or.inl rfl
    · exact Or.inr hrecalled
  · intro s' h hne
    have hreply : ReplyRel _ (chatReply z jwt clock s r) (chatReply z jwt clock s' r) :=
      chatReply_alike takenBack_keepsPlace h
    have hsame := hreply.eq_of_live (fun _ _ hm => hm.imp_right And.left) hlive
    exact absurd (congrArg (fun o => (Option.map ReadReply.messages o).getD []) hsame) hne

/-- The state as it was without any recall. -/
def withoutRecalls (s : ChatState) : ChatState :=
  { s with
    msgs := s.msgs.mapValues fun v =>
      match v with
      | .message m => .message (takeBack m)
      | .empty => .empty }

theorem withoutRecalls_alike (s : ChatState) :
    AlikeStates (fun m m' => m' = takeBack m) s (withoutRecalls s) := by
  refine ⟨?_, rfl, rfl, rfl⟩
  intro k
  simp only [withoutRecalls, OrderedMap.get_mapValues]
  cases s.msgs.get k with
  | none => exact .none
  | some v =>
    cases v with
    | message m => exact .some (.message rfl)
    | empty => exact .some .empty

theorem ReplyRel.forall_right {a b : Option ReadReply} (h : ReplyRel R a b)
    {P : ChatMessage → Prop} (hR : ∀ m m', R m m' → P (fillChatMessage m')) :
    ∀ x ∈ (b.map ReadReply.messages).getD [], P x := by
  cases h with
  | refused =>
    intro x hx
    cases hx
  | answered code message nextCursor hasMore hl =>
    induction hl with
    | nil =>
      intro x hx
      cases hx
    | cons hm _ ih =>
      intro x hx
      rcases List.mem_cons.mp hx with rfl | hx
      · exact hR _ _ hm
      · exact ih x hx

/-- Taking the recalls back changes the reply where there is one, and never the zone's answer. -/
theorem not_recallShown_of_recalled (hr : IsRead r) {x : ChatMessage}
    (hx : x ∈ returned z jwt clock s r) (hrecalled : x.status = 1) :
    ¬ RecallShown z m jwt random clock s r := by
  intro h
  have hplace : KeepsPlace (fun m m' => m' = takeBack m) := by
    rintro m _ rfl
    exact takeBack_place m
  have halike := withoutRecalls_alike s
  have hreply : ReplyRel _ (chatReply z jwt clock s r)
      (chatReply z jwt clock (withoutRecalls s) r) := chatReply_alike hplace halike
  have htaken : AlikeStates TakenBack s (withoutRecalls s) := by
    refine ⟨halike.msgs.mono ?_, rfl, rfl, rfl⟩
    rintro m _ rfl
    by_cases hm : m.status = 1
    · exact Or.inr ⟨hm, rfl⟩
    · exact Or.inl (if_neg hm)
  refine h.told (withoutRecalls s) htaken ?_ (readResponse_congr hr (hreply.seen_eq ?_))
  · intro hsame
    have hstatus : ∀ m, (fillChatMessage (takeBack m)).status ≠ 1 := by
      intro m
      unfold takeBack fillChatMessage
      split
      · exact (by decide : (0 : Int) ≠ 1)
      · assumption
    have hlive : ∀ x ∈ returned z jwt clock (withoutRecalls s) r, x.status ≠ 1 :=
      hreply.forall_right (by
        rintro m _ rfl
        exact hstatus m)
    rw [hsame] at hlive
    exact hlive x hx hrecalled
  · rintro m _ rfl
    unfold takeBack
    split <;> rfl

/-- A read tells of the recalls exactly when it returns no recalled message. -/
theorem recall_shown_iff (z : ZoneService ChatState) (m : SystemManager ChatState) (jwt : Jwt)
    (random : RandomString 16) (clock : SendClock) (s : ChatState) {r : ClientRequest}
    (hr : IsRead r) :
    RecallShown z m jwt random clock s r ↔ ∀ x ∈ returned z jwt clock s r, x.status ≠ 1 := by
  constructor
  · intro h x hx hrecalled
    exact not_recallShown_of_recalled hr hx hrecalled h
  · exact recallShown_of_live hr

end

/-- The zone over the chat service alone. -/
def chatZone : ZoneService ChatState where
  manager := none
  codecs := wireCodecs
  routeToUser s _ _ _ := s

def noSystems : SystemManager ChatState where
  auth := none
  chat := none
  friends := none
  group := none
  file := none

def secretRandom : RandomString 16 := RandomString.replicate 16 74 rfl

/-- Ann writes to Bob. -/
def annWrites : List ChatOp :=
  [.send (str "ann") (str "bob") .priv { content := str "secret" } secretRandom 1000]

/-- Then she recalls the message. -/
def annRecalls : List ChatOp :=
  annWrites ++ [.recallMessage (ChatService.generateMsgId secretRandom) (str "ann") 2000]

def readClock : SendClock := { verify := 3, now := 3000, members := 3 }

/-- Bob reads the history of the chat. -/
def bobReads : ClientRequest where
  userId := str "bob"
  cmd := str "chat.get_history"
  payload := stringField 1 (str "ann")
  token := Jwt.plain.create (str "bob") 1 1

theorem recall_shown_live :
    RecallShown chatZone noSystems Jwt.plain secretRandom readClock (chatAfter annWrites) bobReads ∧
      (returned chatZone Jwt.plain readClock (chatAfter annWrites) bobReads).length = 1 :=
  ⟨(recall_shown_iff _ _ _ _ _ _ (Or.inr rfl)).mpr (by decide +kernel), by decide +kernel⟩

/-- Bob is shown what Ann has recalled, like any other message. -/
theorem recall_not_shown :
    ¬ RecallShown chatZone noSystems Jwt.plain secretRandom readClock (chatAfter annRecalls)
      bobReads := by
  have hone : (returned chatZone Jwt.plain readClock (chatAfter annRecalls) bobReads).map
      ChatMessage.status = [1] := by decide +kernel
  have hmem : (1 : Int) ∈ (returned chatZone Jwt.plain readClock (chatAfter annRecalls) bobReads).map
      ChatMessage.status := by
    rw [hone]
    exact List.mem_singleton_self 1
  obtain ⟨x, hx, hrecalled⟩ := List.mem_map.mp hmem
  exact not_recallShown_of_recalled (Or.inr rfl) hx hrecalled

end SwiftChat.Zone
