import SwiftChat.Chat.MarkRead
import SwiftChat.Chat.MessageCodec
import SwiftChat.Chat.Receivers

/-! A message from its sending on: what is filed about it and what can still change. -/
namespace SwiftChat.Chat
open Base
variable {s : ChatState} {op : ChatOp} {id u k : Bytes} {m : MessageData} {now : Int}
  {v : MsgValue} {T : Int → Prop} {ops pre : List ChatOp}

/-- A recall writes the mark only for the sender and only in time. -/
theorem recallMessage_cases (s : ChatState) (id u : Bytes) (now : Int) :
    (ChatService.recallMessage s id u now).1 = s ∨
    ∃ m, getById s.msgs id = some m ∧ m.fromUserId = u ∧
      now - m.timestamp ≤ recallTimeoutSeconds * 1000 ∧
      (ChatService.recallMessage s id u now).1 =
        { s with msgs := s.msgs.put (keyMsg id) (.message (m.recalled now)) } := by
  unfold ChatService.recallMessage
  split
  · exact Or.inl rfl
  · cases hg : getById s.msgs id with
    | none => exact Or.inl rfl
    | some m =>
      simp only
      split
      · exact Or.inl rfl
      · rename_i hfrom
        split
        · exact Or.inl rfl
        · rename_i hlate
          refine Or.inr ⟨m, rfl, not_not.mp hfrom, not_lt.mp hlate, ?_⟩
          simp [markRecalled, hg, MessageData.recalled]

/-- What a step can do to one stored message. -/
def Kept (s : ChatState) (op : ChatOp) (id : Bytes) (m : MessageData) : Prop :=
  getById (chatStep s op).msgs id = some m ∨
    ∃ now, op = .recallMessage id m.fromUserId now ∧
      now - m.timestamp ≤ recallTimeoutSeconds * 1000 ∧
      getById (chatStep s op).msgs id = some (m.recalled now)

/-- A message that was not stored before the step was sent by it. -/
def Sent (op : ChatOp) (id : Bytes) (m : MessageData) : Prop :=
  ∃ a b ct draft r now, op = .send a b ct draft r now ∧ id = ChatService.generateMsgId r ∧
    m = ChatService.newMessage a b (conversationOf a b ct) ct draft r now

/-- What one step does to the stored messages: they stay as they are, except that a recall by the
sender marks one, and only a send adds one. -/
def OnlyMarks (s : ChatState) (op : ChatOp) : Prop :=
  (∀ id m, getById s.msgs id = some m → Kept s op id m) ∧
    ∀ id m, getById s.msgs id = none → getById (chatStep s op).msgs id = some m → Sent op id m

theorem onlyMarks_of_same (h : ∀ id, getById (chatStep s op).msgs id = getById s.msgs id) :
    OnlyMarks s op := by
  constructor
  · intro id m hm
    exact Or.inl (by rw [h, hm])
  · intro id m hnone hm
    rw [h, hnone] at hm
    cases hm

theorem send_onlyMarks (s : ChatState) (a b : Bytes) (ct : ChatType) (draft : ChatService.Draft)
    (r : RandomString 16) (now : Int) : OnlyMarks s (.send a b ct draft r now) := by
  constructor
  · intro id m hm
    refine Or.inl ?_
    by_cases hid : id = ChatService.generateMsgId r
    · -- the id is taken, so nothing is saved
      obtain ⟨metas, ⟨_, hs⟩ | ⟨_, _, _, _, hnew, _⟩⟩ := sendMessage_cases s a b ct draft r now
      · rw [chatStep, hs]
        exact hm
      · have hget := (get_of_getById hm).2
        rw [hid, hnew] at hget
        cases hget
    · rw [chatStep, send_getById_other hid]
      exact hm
  · intro id m hnone hm
    by_cases hid : id = ChatService.generateMsgId r
    · refine ⟨a, b, ct, draft, r, now, rfl, hid, ?_⟩
      obtain ⟨metas, ⟨_, hs⟩ | ⟨_, ha, _, _, hnew, hs⟩⟩ := sendMessage_cases s a b ct draft r now
      · rw [chatStep, hs] at hm
        exact absurd (hnone.symm.trans hm) (by simp)
      · have hstored := distribute_stored
          (m := ChatService.newMessage a b (conversationOf a b ct) ct draft r now) metas ct
          (generateMsgId_ne_nil r) ha hnew
        rw [chatStep, hs, hid] at hm
        exact Option.some.inj (hm.symm.trans hstored)
    · rw [chatStep, send_getById_other hid, hnone] at hm
      cases hm

theorem recall_onlyMarks (s : ChatState) (id u : Bytes) (now : Int) :
    OnlyMarks s (.recallMessage id u now) := by
  rcases recallMessage_cases s id u now with hs | ⟨m, hg, rfl, hlate, hs⟩
  · exact onlyMarks_of_same (fun id' => by rw [chatStep, hs])
  · have hget : ∀ id', getById (chatStep s (.recallMessage id m.fromUserId now)).msgs id' =
        if id' = id ∧ id ≠ [] then some (m.recalled now) else getById s.msgs id' := by
      intro id'
      rw [chatStep, hs]
      exact getById_put_message
    constructor
    · intro id' m' hm'
      by_cases hid : id' = id
      · subst hid
        obtain rfl : m = m' := Option.some.inj (hg.symm.trans hm')
        exact Or.inr ⟨now, rfl, hlate, by rw [hget, if_pos ⟨rfl, (get_of_getById hg).1⟩]⟩
      · exact Or.inl (by rw [hget, if_neg (fun h => hid h.1), hm'])
    · intro id' m' hnone hm'
      have hid : ¬ (id' = id ∧ id ≠ []) := by
        rintro ⟨rfl, _⟩
        rw [hg] at hnone
        cases hnone
      rw [hget, if_neg hid, hnone] at hm'
      cases hm'

theorem chatStep_onlyMarks (s : ChatState) (op : ChatOp) : OnlyMarks s op := by
  cases op with
  | send a b ct draft r now => exact send_onlyMarks s a b ct draft r now
  | recallMessage id u now => exact recall_onlyMarks s id u now
  | getHistory u c ct id limit =>
    apply onlyMarks_of_same
    obtain ⟨metas, hs⟩ := getHistory_state s u c ct id limit
    rw [chatStep, hs]
    exact fun _ => rfl
  | markRead u c ct id =>
    apply onlyMarks_of_same
    intro id'
    rw [chatStep]
    by_cases hne : u = [] ∨ c = []
    · rw [ChatService.markRead, if_pos hne]
    · push Not at hne
      obtain ⟨metas, hs⟩ := markRead_state s ct id hne.1 hne.2
      rw [hs]
      simp only
      split
      · exact clearOffline_getById
      · rfl
  | deleteConversation u c ct =>
    apply onlyMarks_of_same
    simp only [chatStep, ChatService.deleteConversation]
    repeat' split
    all_goals exact fun _ => rfl
  | group op => exact onlyMarks_of_same (fun _ => rfl)

/-- The clock readings a step stores are machine integers. -/
def ChatOp.ClockFits : ChatOp → Prop
  | .send _ _ _ _ _ now => Fits 64 now
  | .recallMessage _ _ now => Fits 64 now
  | _ => True

/-- The recall mark of a message: none, or one that was set in time. -/
def MarkedInTime (m : MessageData) : Prop :=
  m.status = 0 ∨ m.status = 1 ∧ m.recallAt - m.timestamp ≤ recallTimeoutSeconds * 1000

theorem fits_32_one : Fits 32 1 := by decide

theorem fits_chatType (ct : ChatType) : Fits 32 ct.toInt := by
  cases ct <;> decide

theorem newMessage_inTypes (a b : Bytes) (ct : ChatType) (draft : ChatService.Draft)
    (r : RandomString 16) (hnow : Fits 64 now) :
    (ChatService.newMessage a b (conversationOf a b ct) ct draft r now).InTypes where
  chatType := fits_chatType ct
  timestamp := hnow
  status := by
    change Fits 32 0
    decide
  recallAt := by
    change Fits 64 0
    decide

theorem MessageData.InTypes.recalled (h : m.InTypes) (hnow : Fits 64 now) : (m.recalled now).InTypes :=
  ⟨h.chatType, h.timestamp, fits_32_one, hnow⟩

/-- What holds of every stored message besides where it is filed. -/
def MarksOk (s : ChatState) : Prop :=
  ∀ id m, getById s.msgs id = some m → MarkedInTime m ∧ m.InTypes

theorem marksOk_step (h : MarksOk s) (hclock : op.ClockFits) : MarksOk (chatStep s op) := by
  obtain ⟨hkept, hsent⟩ := chatStep_onlyMarks s op
  intro id m' hm'
  cases hm : getById s.msgs id with
  | none =>
    obtain ⟨a, b, ct, draft, r, now, rfl, _, rfl⟩ := hsent id m' hm hm'
    exact ⟨Or.inl rfl, newMessage_inTypes a b ct draft r hclock⟩
  | some m =>
    obtain ⟨hmark, htypes⟩ := h id m hm
    rcases hkept id m hm with hsame | ⟨now, rfl, hlate, hnew⟩
    · obtain rfl : m = m' := Option.some.inj (hsame.symm.trans hm')
      exact ⟨hmark, htypes⟩
    · obtain rfl : m.recalled now = m' := Option.some.inj (hnew.symm.trans hm')
      exact ⟨Or.inr ⟨rfl, hlate⟩, htypes.recalled hclock⟩

/-- The four key families agree: a message is found under its id, reads back as it was written, has
one timeline key, that of its conversation and timestamp, and a mark set in time if any; index keys
lead to stored messages. -/
structure MessagesSound (s : ChatState) : Prop where
  filed : ∀ id m, getById s.msgs id = some m →
    m.msgId = id ∧ deserializeMessage (serializeMessage m) = some m
  timeline : ∀ id m, getById s.msgs id = some m → ∀ k, kChat <+: k → str ":" ++ id <:+ k →
    ((s.msgs.get k).isSome ↔ k = keyChat m.conversationId m.timestamp id)
  listed : ∀ k, (s.msgs.get k).isSome → kChat <+: k →
    ∃ m, getById s.msgs m.msgId = some m ∧ k = keyChat m.conversationId m.timestamp m.msgId
  queued : ∀ k, (s.msgs.get k).isSome → kOffline <+: k →
    ∃ u m, getById s.msgs m.msgId = some m ∧ k = keyOffline u m.timestamp m.msgId
  marked : ∀ id m, getById s.msgs id = some m → MarkedInTime m

theorem ChatOk.listed (h : ChatOk T s) (hv : (s.msgs.get k).isSome) (hk : kChat <+: k) :
    ∃ m, getById s.msgs m.msgId = some m ∧ k = keyChat m.conversationId m.timestamp m.msgId := by
  obtain ⟨v, hv⟩ := Option.isSome_iff_exists.mp hv
  obtain ⟨_, m, hm, hkey⟩ := h.msgs.chat hv hk
  rw [(h.msgs.message hm).2.timelineId] at hkey
  exact ⟨m, hm, hkey⟩

/-- Ids have one length, so a timeline key that ends in an id is the key of that message. -/
theorem ChatOk.timeline (h : ChatOk T s) (hm : getById s.msgs id = some m) (hk : kChat <+: k)
    (hid : str ":" ++ id <:+ k) :
    (s.msgs.get k).isSome ↔ k = keyChat m.conversationId m.timestamp id := by
  obtain ⟨rfl, hok⟩ := h.msgs.message hm
  constructor
  · intro hv
    obtain ⟨m', hm', rfl⟩ := h.listed hv hk
    obtain ⟨x, hx⟩ := hid
    have hsame : m.msgId = m'.msgId := by
      rw [← List.append_assoc] at hx
      exact List.append_inj_right' hx
        (hok.id_length.trans (h.msgs.message hm').2.id_length.symm)
    rw [← hsame, hm] at hm'
    rw [hsame, Option.some.inj hm']
  · rintro rfl
    have hindexed := h.msgs.indexed hm
    rw [hok.timelineId] at hindexed
    simp [hindexed]

theorem messagesSound (h : ChatOk T s) (hmarks : MarksOk s) : MessagesSound s where
  filed id m hm := ⟨(h.msgs.message hm).1, deserialize_serializeMessage (hmarks id m hm).2⟩
  timeline id m hm k hk hid := h.timeline hm hk hid
  listed k hv hk := h.listed hv hk
  queued k hv hk := by
    obtain ⟨v, hv⟩ := Option.isSome_iff_exists.mp hv
    obtain ⟨_, u, m, _, _, hm, hkey⟩ := h.msgs.offline hv hk
    exact ⟨u, m, hm, hkey⟩
  marked id m hm := (hmarks id m hm).1

/-- A later version of a message: all but the recall mark is as it was sent, and a mark stays. -/
structure Later (m m' : MessageData) : Prop where
  same : { m' with status := m.status, recallAt := m.recallAt } = m
  mark : m.status = 1 → m'.status = 1

theorem Later.refl (m : MessageData) : Later m m := ⟨rfl, fun h => h⟩

theorem Later.trans {m₁ m₂ m₃ : MessageData} (h : Later m₁ m₂) (h' : Later m₂ m₃) : Later m₁ m₃ where
  same := by
    rw [← h.same, ← h'.same]
  mark h₁ := h'.mark (h.mark h₁)

/-- From any state on, a stored message only ever gets its recall mark. -/
theorem run_keeps_message (xs : List ChatOp) (hm : getById s.msgs id = some m) :
    ∃ m', getById (run chatStep s xs).msgs id = some m' ∧ Later m m' := by
  induction xs generalizing s m with
  | nil => exact ⟨m, hm, Later.refl m⟩
  | cons op xs ih =>
    rcases (chatStep_onlyMarks s op).1 id m hm with hsame | ⟨now, _, _, hnew⟩
    · exact ih hsame
    · obtain ⟨m', hm', hl⟩ := ih hnew
      have hmark : Later m (m.recalled now) := ⟨rfl, fun _ => rfl⟩
      exact ⟨m', hm', hmark.trans hl⟩

/-- Along every run: the key families agree in every state, every step leaves the stored messages
as they are except for a recall by the sender in time, and what was sent is still stored at the
end, with at most its recall mark set. -/
theorem messages_sound (ops : List ChatOp) (hclock : ∀ op ∈ ops, op.ClockFits) :
    Always chatStep MessagesSound {} ops ∧ AllSteps chatStep OnlyMarks {} ops ∧
      ∀ pre, pre <+: ops → ∀ id m, getById (chatAfter pre).msgs id = some m →
        ∃ m', getById (chatAfter ops).msgs id = some m' ∧ Later m m' := by
  refine ⟨?_, allSteps_of_forall chatStep_onlyMarks, ?_⟩
  · have hinv : Always chatStep (fun s => ChatOk (fun _ => True) s ∧ MarksOk s) {} ops := by
      refine always_of_allSteps ?_ ⟨⟨wellFormed_empty, groupsOk_empty⟩, ?_⟩ (allSteps_of_mem hclock)
      · rintro s op ⟨hok, hmarks⟩ hop
        exact ⟨chatStep_ok hok (by cases op <;> trivial), marksOk_step hmarks hop⟩
      · intro id m hm
        simp [getById] at hm
    intro pre hpre
    exact messagesSound (hinv pre hpre).1 (hinv pre hpre).2
  · rintro pre ⟨post, rfl⟩ id m hm
    have hsplit : chatAfter (pre ++ post) = run chatStep (chatAfter pre) post := by
      simp [chatAfter, run, List.foldl_append]
    rw [hsplit]
    exact run_keeps_message post hm

/-- A message sent, read and recalled by its sender in time. -/
def recalledRun : List ChatOp :=
  [.send (str "a") (str "b") .priv {} randomA 5, .markRead (str "b") (str "a") .priv [],
    .recallMessage (ChatService.generateMsgId randomA) (str "a") 7]

theorem messages_sound_recalled :
    (getById (chatAfter recalledRun).msgs (ChatService.generateMsgId randomA)).map
        (fun m => (m.status, m.recallAt)) = some (1, 7) ∧
      MessagesSound (chatAfter recalledRun) := by
  refine ⟨by decide, (messages_sound recalledRun ?_).1.last⟩
  intro op hop
  rcases List.mem_cons.mp hop with rfl | hop
  · exact (by decide : Fits 64 5)
  · rcases List.mem_cons.mp hop with rfl | hop
    · trivial
    · rw [List.mem_singleton.mp hop]
      exact (by decide : Fits 64 7)

end SwiftChat.Chat
