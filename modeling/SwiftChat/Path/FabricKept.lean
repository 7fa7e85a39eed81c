import SwiftChat.Path.FabricReplies
import SwiftChat.Path.Push

/-! Messages across the whole system: what a client was told is sent is kept. -/
namespace SwiftChat.Path
open Base Gate Zone

/-- The message that a request to send has stored in the name of `a`. -/
def sentMessage (a : Bytes) (req : ChatSendMessagePayload) (draws : Draws) : Chat.MessageData :=
  Chat.ChatService.newMessage a req.toId (Chat.conversationOf a req.toId .priv) .priv
    req.request.draft draws.msgRandom draws.chat.now

/-- The request put a message into the store, under an id that was not in use. -/
structure Stores (cfg : Setup) (past : List Served) (e : Served) (m : Chat.MessageData) : Prop where
  fresh : Chat.getById (chatAt cfg past).msgs m.msgId = none
  stored : Chat.getById (chatAt cfg (past ++ [e])).msgs m.msgId = some m

/-- The request had the chat service send this message for `a`, with success. -/
structure Sends (cfg : Setup) (past : List Served) (e : Served) (a : Bytes)
    (req : ChatSendMessagePayload) : Prop where
  operation : cfg.chatOps e.draws e.request =
    [.send a req.toId .priv req.request.draft e.draws.msgRandom e.draws.chat.now]
  success : (Chat.ChatService.sendMessage (chatAt cfg past) a req.toId .priv req.request.draft
    e.draws.msgRandom e.draws.chat.now).2.success = true

/-- Later the user `u`, with a token it was given, had a chat marked as read. -/
def ReadLater (cfg : Setup) (past later : List Served) (u : Bytes) : Prop :=
  ∃ mid e rest, later = mid ++ e :: rest ∧ Issued cfg (past ++ mid) u e.request.token ∧
    ∃ op ∈ cfg.chatOps e.draws e.request, op.Reads u

/-- The zone gave this answer with the chat databases as the earlier requests had left them. -/
def AnsweredAt (cfg : Setup) (past : List Served) (e : Served) : Prop :=
  ∃ d : Deployment, d.chat = chatAt cfg past ∧ e.answer = (cfg.serve e.draws d e.request).2

section
variable {cfg : Setup} {gateIds : Bytes → Bytes} {t : Fabric} {history past later : List Served}
  {draws : Draws} {d : Deployment} {r : ClientRequest} {e : Served}

/-- A step serves one request, or none. -/
theorem fabricStep_history (ev : FabricEvent) :
    (fabricStep cfg gateIds t ev).history = t.history ∨
      ∃ addr r draws, (fabricStep cfg gateIds t ev).history =
        t.history ++ [⟨addr, draws, r, (cfg.serve draws t.zone r).2⟩] := by
  have hdeliver : ∀ (t : Fabric) (r : Response), (t.deliver r).history = t.history := by
    intro t r
    unfold Fabric.deliver
    split
    · rfl
    · rfl
  cases ev with
  | connect addr connId now =>
    simp only [fabricStep, Fabric.connect]
    split
    · exact Or.inl rfl
    · exact Or.inl rfl
  | receive addr connId cmd payload requestId now =>
    simp only [fabricStep, Fabric.receive]
    split
    · split
      · exact Or.inl (hdeliver _ _)
      · exact Or.inl rfl
    · exact Or.inl rfl
  | serve i draws =>
    simp only [fabricStep, Fabric.serve]
    split
    · exact Or.inr ⟨_, _, _, rfl⟩
    · exact Or.inl rfl
  | lose i status =>
    simp only [fabricStep, Fabric.lose]
    split
    · exact Or.inl rfl
    · exact Or.inl rfl
  | serveLate i draws =>
    simp only [fabricStep, Fabric.serveLate]
    split
    · exact Or.inl rfl
    · exact Or.inr ⟨_, _, _, rfl⟩
  | finish i =>
    simp only [fabricStep, Fabric.finish]
    split
    · split
      · exact Or.inl (hdeliver _ _)
      · exact Or.inl rfl
    · exact Or.inl rfl
  | announce i arrives now =>
    simp only [fabricStep, Fabric.announce]
    split
    · exact Or.inl rfl
    · exact Or.inl (hdeliver _ _)
  | disconnect addr connId => exact Or.inl rfl
  | report i arrives =>
    simp only [fabricStep, Fabric.report]
    split
    · exact Or.inl rfl
    · exact Or.inl rfl
  | registerGate node => exact Or.inl rfl
  | route i arrives =>
    simp only [fabricStep, Fabric.route]
    split
    · exact Or.inl rfl
    · exact Or.inl rfl
  | write i =>
    simp only [fabricStep, Fabric.write]
    split
    · exact Or.inl rfl
    · exact Or.inl rfl

theorem fabricAfter_answeredAt (gateIds : Bytes → Bytes) (evs : List FabricEvent) :
    EachAfter (AnsweredAt cfg) (fabricAfter cfg gateIds evs).history := by
  have hboth : FabricKnown cfg (fabricAfter cfg gateIds evs) ∧
      EachAfter (AnsweredAt cfg) (fabricAfter cfg gateIds evs).history := by
    refine run_invariant (I := fun t => FabricKnown cfg t ∧ EachAfter (AnsweredAt cfg) t.history)
      (Q := fun _ => True) ?_ ⟨fabricKnown_start, eachAfter_nil⟩ fun _ _ => trivial
    intro t ev h _
    refine ⟨h.1.step ev, ?_⟩
    rcases @fabricStep_history cfg gateIds t ev with hsame | ⟨addr, r, draws, hadd⟩
    · rw [hsame]
      exact h.2
    · rw [hadd]
      exact eachAfter_concat.mpr ⟨h.2, t.zone, h.1.chat, rfl⟩
  exact hboth.2

/-! There are no groups: the zone has none created. -/

theorem chatOps_no_group {op : Chat.ChatOp} (h : op ∈ cfg.chatOps draws r) (o : Chat.GroupOp) :
    op ≠ .group o := by
  have hone : ∀ (target : Bytes) (f : Bytes → Chat.ChatOp), (∀ uid, f uid ≠ .group o) →
      op ∈ chatOpOf cfg.jwt draws.chat r target f → op ≠ .group o := by
    intro target f hf hmem
    unfold chatOpOf at hmem
    simp only at hmem
    split at hmem
    · cases hmem
    split at hmem
    · cases hmem
    obtain rfl := List.mem_singleton.mp hmem
    exact hf _
  unfold Setup.chatOps chatOps at h
  revert h
  repeat' apply of_mem_ite
  all_goals intro h
  any_goals cases h
  all_goals obtain ⟨req, h⟩ := mem_asked h
  any_goals exact hone _ _ (fun _ hc => by cases hc) h
  all_goals exact hone _ _ (fun _ hc => by cases hc) (mem_askedInSession h)

theorem chatAt_groups (cfg : Setup) (history : List Served) :
    (chatAt cfg history).groups = OrderedMap.empty := by
  refine @run_invariant _ _ Chat.chatStep {} _ (fun s => s.groups = OrderedMap.empty)
    (fun op => ∀ o, op ≠ .group o) ?_ rfl ?_
  · intro s op hs hop
    rcases Chat.chatStep_groups s op with hsame | ⟨o, rfl⟩ | ⟨a, c, data, _, hdata, _⟩
    · rw [hsame, hs]
    · exact absurd rfl (hop o)
    · rw [hs] at hdata
      simp [Chat.GroupStore.getGroup] at hdata
  · intro op hop o
    obtain ⟨e, _, hop⟩ := List.mem_flatMap.mp hop
    exact chatOps_no_group hop o

/-! A request to send that is answered with success. -/

theorem send_answered (hsend : r.cmd = str "chat.send_message")
    (hok : (cfg.serve draws d r).2.code = errorCodeToInt .ok) :
    ∃ req a, cfg.codecs.chat.parseSendMessage r.payload = some req ∧
      cfg.chatOps draws r = [.send a req.toId req.request.kind req.request.draft draws.msgRandom
        draws.chat.now] ∧
      (Chat.ChatService.sendMessage d.chat a req.toId req.request.kind req.request.draft
        draws.msgRandom draws.chat.now).2.success = true ∧
      (cfg.serve draws d r).2.payload = some (.chatSendMessage true
        (Chat.ChatService.generateMsgId draws.msgRandom) draws.chat.now []) := by
  have hserve : cfg.serve draws d r = (cfg.zone draws).handleChat (cfg.manager draws) d r := by
    have hchat : cmdPrefix r.cmd = str "chat" := by
      rw [hsend]
      decide
    have hauth : cmdPrefix r.cmd ≠ str "auth" := by
      rw [hsend]
      decide
    change Zone.handleClientRequest ((cfg.zone draws).prefixHandlers (cfg.manager draws)) d r = _
    rw [Zone.handleClientRequest, if_neg hauth, if_pos hchat]
    rfl
  rw [hserve] at hok ⊢
  simp only [ZoneService.handleChat, ChatCalls.handleSendMessage, Setup.manager, hsend, if_true,
    parsed, ChatCalls.lift, chatCalls, Part.lift, Deployment.chatPart] at hok ⊢
  cases hparse : (cfg.zone draws).codecs.chat.parseSendMessage r.payload with
  | none =>
    rw [hparse] at hok
    have hcode : errorCodeToInt .invalidParam = errorCodeToInt .ok := hok
    exact absurd hcode (by decide)
  | some req =>
    simp only [hparse] at hok ⊢
    have hanswer : ∀ x : Deployment, ∀ result : SendMessageResult, ∀ pushed : Deployment,
        (if ¬ result.success = true ∨ result.msgId = [] then (x, sendAnswer result r.requestId)
          else (pushed, sendAnswer result r.requestId)).2 = sendAnswer result r.requestId := by
      intro x result pushed
      split
      · rfl
      · rfl
    rw [hanswer] at hok ⊢
    have hcall : (ChatRpcClient.sendMessage cfg.jwt d.chat draws.msgRandom draws.chat req
        r.token).2.success = true := by
      cases h : (ChatRpcClient.sendMessage cfg.jwt d.chat draws.msgRandom draws.chat req
          r.token).2.success with
      | true => rfl
      | false =>
        simp only [sendAnswer, h] at hok
        exact absurd hok (by decide)
    obtain ⟨hto, hserved, hresult⟩ := rpc_accepted hcall
    have huid : getAuthenticatedUserId cfg.jwt (createContext r.token) draws.chat.verify ≠ [] := by
      intro hnone
      simp only [ChatRpcClient.sendMessage, Chat.ChatHandler.sendMessage, hnone, if_true] at hcall
      cases hcall
    have hreq : cfg.codecs.chat.parseSendMessage r.payload = some req := hparse
    refine ⟨req, _, hreq, ?_, hserved, ?_⟩
    · simp only [Setup.chatOps, chatOps, hsend, if_true, asked, hreq, chatOpOf, if_neg huid,
        if_neg hto]
    · rw [hresult]
      rfl

/-- Only private messages are sent, as there are no groups. -/
theorem send_private {a b : Bytes} {ct : ChatType} {draft : Chat.ChatService.Draft}
    {random : RandomString 16} {now : Int}
    (hok : (Chat.ChatService.sendMessage (chatAt cfg past) a b ct draft random now).2.success =
      true) : ct = .priv := by
  cases ct with
  | priv => rfl
  | group =>
    obtain ⟨_, ⟨hfail, _⟩ | ⟨_, _, _, hmember, _⟩⟩ := Chat.sendMessage_cases (chatAt cfg past) a b
      .group draft random now
    · rw [hfail] at hok
      cases hok
    · have hnobody := hmember rfl
      rw [chatAt_groups] at hnobody
      simp [Chat.GroupStore.isMember] at hnobody

section
variable {a : Bytes} {req : ChatSendMessagePayload}

theorem Sends.after (h : Sends cfg past e a req) :
    chatAt cfg (past ++ [e]) = (Chat.ChatService.sendMessage (chatAt cfg past) a req.toId .priv
      req.request.draft e.draws.msgRandom e.draws.chat.now).1 := by
  refine history_concat.trans ?_
  rw [h.operation]
  rfl

theorem Sends.stores (h : Sends cfg past e a req) :
    Stores cfg past e (sentMessage a req e.draws) := by
  obtain ⟨hfresh, hstored⟩ := Chat.send_stored h.success
  exact ⟨hfresh, h.after ▸ hstored⟩

theorem Sends.waiting (h : Sends cfg past e a req) :
    Chat.Waiting (chatAt cfg (past ++ [e])) req.toId (sentMessage a req e.draws) := by
  have hto : req.toId ≠ [] := by
    obtain ⟨_, ⟨hfail, _⟩ | ⟨_, _, hto, _⟩⟩ := Chat.sendMessage_cases (chatAt cfg past) a
      req.toId .priv req.request.draft e.draws.msgRandom e.draws.chat.now
    · exact absurd (hfail.symm.trans h.success) Bool.false_ne_true
    · exact hto
  have hstate : Chat.ChatOk (fun _ => True) (chatAt cfg past) := by
    refine Chat.chatAfter_ok fun op _ => ?_
    cases op <;> trivial
  rw [h.after]
  exact Chat.Queued.waiting
    ((Chat.send_queued hstate h.success req.toId).mpr ⟨List.mem_singleton.mpr rfl, hto⟩)

theorem Sends.acts (h : Sends cfg past e a req) : Acts cfg e a := by
  refine Or.inl ?_
  rw [h.operation]
  exact List.mem_singleton.mpr rfl

end

theorem chatAt_append (cfg : Setup) (past later : List Served) :
    chatAt cfg (past ++ later) =
      run Chat.chatStep (chatAt cfg past) (later.flatMap fun e => cfg.chatOps e.draws e.request) := by
  rw [chatAt, chatAt, History, History, ← run_append, ← List.flatMap_append]

/-- No other request stores a message under the same id. -/
theorem Stores.unique {past' later' : List Served} {e' : Served} {m m' : Chat.MessageData}
    (h : Stores cfg past e m) (h' : Stores cfg past' e' m') (hid : m'.msgId = m.msgId)
    (hsplit : past ++ e :: later = past' ++ e' :: later') :
    past = past' ∧ e = e' ∧ later = later' := by
  refine entry_unique
    (P := fun history => (Chat.getById (chatAt cfg history).msgs m.msgId).isSome = true)
    ?_ hsplit ?_ ?_ ?_ ?_
  · intro history x hknown
    obtain ⟨old, hold⟩ := Option.isSome_iff_exists.mp hknown
    obtain ⟨new, hnew, _⟩ :=
      Chat.run_keeps_message ([x].flatMap fun e => cfg.chatOps e.draws e.request) hold
    exact Option.isSome_iff_exists.mpr ⟨new, chatAt_append cfg history [x] ▸ hnew⟩
  · simp [h.fresh]
  · simp [h.stored]
  · simp [← hid, h'.fresh]
  · simp [← hid, h'.stored]

/-- A message that is stored stays, with at most a recall mark. -/
theorem Stores.kept {m : Chat.MessageData} (h : Stores cfg past e m)
    (hsplit : history = past ++ e :: later) :
    ∃ m', Chat.getById (chatAt cfg history).msgs m.msgId = some m' ∧ Chat.Later m m' := by
  rw [hsplit, List.append_cons, chatAt_append]
  exact Chat.run_keeps_message _ h.stored

/-- A message waits for its receiver until that one reads. -/
theorem waiting_kept {m : Chat.MessageData} {u : Bytes} (hauth : EachAfter (Authentic cfg) history)
    (hsplit : history = past ++ later) (hplain : Chat.colon ∉ u)
    (hwait : Chat.Waiting (chatAt cfg past) u m) :
    Chat.Waiting (chatAt cfg history) u m ∨ ReadLater cfg past later u := by
  have hactors : ∀ op ∈ later.flatMap (fun e => cfg.chatOps e.draws e.request),
      Chat.colon ∉ op.actor := by
    intro op hop
    obtain ⟨e', he', hop⟩ := List.mem_flatMap.mp hop
    have hmem : e' ∈ history := by
      rw [hsplit]
      exact List.mem_append_right _ he'
    exact (acts_plain hauth hmem (Or.inl (List.mem_map.mpr ⟨op, hop, rfl⟩))).free
  rw [hsplit, chatAt_append]
  rcases hwait.run hplain hactors with hwait | ⟨op, hop, hread⟩
  · exact Or.inl hwait
  · obtain ⟨e', he', hop'⟩ := List.mem_flatMap.mp hop
    obtain ⟨mid, rest, hlater⟩ := List.append_of_mem he'
    refine Or.inr ⟨mid, e', rest, hlater, ?_, op, hop', hread⟩
    have hcause := hauth (past ++ mid) e' ⟨rest, by rw [hsplit, hlater]; simp⟩
    obtain ⟨c, ct, id, rfl⟩ := hread
    exact (hcause.acting _ (Or.inl (List.mem_map.mpr ⟨.markRead u c ct id, hop', rfl⟩))).2

end

/-- When a client was told that its message is sent, exactly one request stored a message under the
id that the client was told, and it was a request of the client, in the name of the user whose token
its connection had. The message is kept, with at most a recall mark, and it waits for the user it is
for until that user has a chat marked as read. -/
theorem fabric_kept (cfg : Setup) (gateIds : Bytes → Bytes) (evs : List FabricEvent) :
    ∀ r ∈ (fabricAfter cfg gateIds evs).responses, r.message.cmd = str "chat.send_message" →
      r.message.code = errorCodeToInt .ok →
      ∃ past e later a req, (fabricAfter cfg gateIds evs).history = past ++ e :: later ∧
        (e.addr = r.addr ∧ e.request.connId = r.connId ∧
          e.request.requestId = r.message.requestId) ∧
        cfg.codecs.chat.parseSendMessage e.request.payload = some req ∧
        Issued cfg past a e.request.token ∧
        r.message.payload = .zone (.chatSendMessage true (sentMessage a req e.draws).msgId
          (sentMessage a req e.draws).timestamp []) ∧
        Sends cfg past e a req ∧ Stores cfg past e (sentMessage a req e.draws) ∧
        (∀ past' e' later' m, (fabricAfter cfg gateIds evs).history = past' ++ e' :: later' →
          Stores cfg past' e' m → m.msgId = (sentMessage a req e.draws).msgId →
            past = past' ∧ e = e' ∧ later = later') ∧
        (∃ m, Chat.getById (fabricAfter cfg gateIds evs).zone.chat.msgs
            (sentMessage a req e.draws).msgId = some m ∧
          Chat.Later (sentMessage a req e.draws) m) ∧
        (Chat.colon ∉ req.toId →
          Chat.Waiting (fabricAfter cfg gateIds evs).zone.chat req.toId
              (sentMessage a req e.draws) ∨
            ReadLater cfg (past ++ [e]) later req.toId) := by
  intro r hr hcmd hcode
  have hknown := fabricAfter_known cfg gateIds evs
  rcases (fabricAfter_repliesKnown gateIds evs).responses r hr with hown | hpassed
  · rcases hown with ⟨_, hne⟩ | ⟨hbeat, _⟩
    · exact absurd hcode hne
    · rw [hcmd] at hbeat
      exact absurd hbeat (by decide)
  obtain ⟨e, he, haddr, hconn, hid, hmsg⟩ := hpassed
  obtain ⟨past, later, hsplit⟩ := List.append_of_mem he
  have hpre : past ++ [e] <+: (fabricAfter cfg gateIds evs).history := ⟨later, by rw [hsplit]; simp⟩
  obtain ⟨d, hchat, hans⟩ := fabricAfter_answeredAt gateIds evs past e hpre
  rw [hmsg] at hcmd hcode
  have hok : (cfg.serve e.draws d e.request).2.code = errorCodeToInt .ok := hans ▸ hcode
  obtain ⟨req, a, hparse, hops, hsent, hpay⟩ := send_answered hcmd hok
  rw [hchat] at hsent
  have hkind := send_private hsent
  rw [hkind] at hops hsent
  have hsends : Sends cfg past e a req := ⟨hops, hsent⟩
  have hissued := ((hknown.authentic past e hpre).acting a hsends.acts).2
  refine ⟨past, e, later, a, req, hsplit, ⟨haddr, hconn, hid⟩, hparse, hissued, ?_, hsends,
    hsends.stores, ?_, ?_, ?_⟩
  · rw [hmsg]
    simp only [zoneMessage, hans, hpay]
    rfl
  · intro past' e' later' m hother hstores hsame
    exact hsends.stores.unique hstores hsame (hsplit.symm.trans hother)
  · rw [hknown.chat]
    exact hsends.stores.kept hsplit
  · intro hplain
    rw [hknown.chat]
    exact waiting_kept hknown.authentic (hsplit.trans (List.append_cons _ _ _)) hplain hsends.waiting

theorem fabric_kept_vera :
    ∃ r ∈ (fabricAfter plainSetup plainGateIds veraWritesKim).responses,
      ∃ a req draws m, Chat.getById (fabricAfter plainSetup plainGateIds veraWritesKim).zone.chat.msgs
          (sentMessage a req draws).msgId = some m ∧ Chat.Later (sentMessage a req draws) m ∧
        r.message.payload = .zone (.chatSendMessage true (sentMessage a req draws).msgId
          (sentMessage a req draws).timestamp []) := by
  have htold : ∃ r ∈ (fabricAfter plainSetup plainGateIds veraWritesKim).responses,
      r.message.cmd = str "chat.send_message" ∧ r.message.code = errorCodeToInt .ok := by
    decide +kernel
  obtain ⟨r, hr, hcmd, hcode⟩ := htold
  obtain ⟨_, e, _, a, req, _, _, _, _, hpay, _, _, _, ⟨m, hm, hlater⟩, _⟩ :=
    fabric_kept plainSetup plainGateIds veraWritesKim r hr hcmd hcode
  exact ⟨r, hr, a, req, e.draws, m, hm, hlater, hpay⟩

end SwiftChat.Path
