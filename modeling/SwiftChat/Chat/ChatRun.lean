import SwiftChat.Chat.ChatService
import SwiftChat.Chat.GroupInvariant
import SwiftChat.Chat.StoreInvariant
import Mathlib.Logic.Relation

/-! Runs of the chat service, and what holds of the stores along them. -/
namespace SwiftChat.Chat
open Base
variable {U : Bytes → Prop} {M : MessageData → Prop} {T : Int → Prop} {s : ChatState}
  {a b c : Bytes} {ct : ChatType} {draft : ChatService.Draft} {r : RandomString 16} {now : Int}
  {m : MessageData}

inductive ChatOp where
  | send (fromUserId toId : Bytes) (chatType : ChatType) (draft : ChatService.Draft)
      (r : RandomString 16) (now : Int)
  | recallMessage (msgId userId : Bytes) (now : Int)
  | getHistory (userId chatId : Bytes) (chatType : ChatType) (beforeMsgId : Bytes) (limit : Int)
  | markRead (userId chatId : Bytes) (chatType : ChatType) (lastMsgId : Bytes)
  | deleteConversation (userId chatId : Bytes) (chatType : ChatType)
  | group (op : GroupOp)

def chatStep (s : ChatState) : ChatOp → ChatState
  | .send fromUserId toId chatType draft r now =>
    (ChatService.sendMessage s fromUserId toId chatType draft r now).1
  | .recallMessage msgId userId now => (ChatService.recallMessage s msgId userId now).1
  | .getHistory userId chatId chatType beforeMsgId limit =>
    (ChatService.getHistory s userId chatId chatType beforeMsgId limit).1
  | .markRead userId chatId chatType lastMsgId =>
    (ChatService.markRead s userId chatId chatType lastMsgId).1
  | .deleteConversation userId chatId chatType =>
    (ChatService.deleteConversation s userId chatId chatType).1
  | .group op => { s with groups := groupStep s.groups op }

def chatAfter (ops : List ChatOp) : ChatState := run chatStep {} ops

/-- The clock readings that end up in messages. -/
def ChatOp.ClockIn (T : Int → Prop) : ChatOp → Prop
  | .send _ _ _ _ _ now => T now
  | _ => True

/-- The conversation a message is filed under. -/
def conversationOf (fromUserId toId : Bytes) : ChatType → Bytes
  | .priv => privateId fromUserId toId
  | .group => toId

theorem conversationOf_ne_nil (hb : b ≠ []) : conversationOf a b ct ≠ [] := by
  cases ct with
  | priv => exact privateId_ne_nil a b
  | group => exact hb

theorem registry_id (hb : b ≠ []) (ha : a ≠ []) (db : ConvMetaDb) :
    (getOrCreatePrivateConversation db a b).2 = privateId a b := by
  simp [getOrCreatePrivateConversation, ha, hb]

/-- The id a user's request for a chat is resolved to. -/
theorem resolve_id (ha : a ≠ []) (hc : c ≠ []) :
    (ChatService.resolveConversationId s a c ct).2 = conversationOf a c ct := by
  cases ct with
  | priv => simp [ChatService.resolveConversationId, hc, registry_id hc ha, conversationOf]
  | group => simp [ChatService.resolveConversationId, hc, conversationOf]

/-- Resolving a chat touches only the registry. -/
theorem resolve_state (s : ChatState) (a c : Bytes) (ct : ChatType) :
    ∃ metas, (ChatService.resolveConversationId s a c ct).1 = { s with metas := metas } := by
  unfold ChatService.resolveConversationId
  split
  · exact ⟨s.metas, rfl⟩
  · cases ct with
    | priv => exact ⟨_, rfl⟩
    | group => exact ⟨s.metas, rfl⟩

theorem length_generateMsgId (r : RandomString 16) :
    (ChatService.generateMsgId r).length = 18 := by
  rw [ChatService.generateMsgId, generateShortId, List.length_append, r.length_eq]
  decide

theorem generateMsgId_ne_nil (r : RandomString 16) : ChatService.generateMsgId r ≠ [] := by
  intro h
  have := length_generateMsgId r
  simp [h] at this

theorem sendTo_cases (ha : a ≠ []) :
    ((ChatService.sendTo s a b c ct draft r now).2.success = false ∧
      (ChatService.sendTo s a b c ct draft r now).1 = s) ∨
    ((ChatService.sendTo s a b c ct draft r now).2.success = true ∧
      s.msgs.get (keyMsg (ChatService.generateMsgId r)) = none ∧
      (ChatService.sendTo s a b c ct draft r now).1 =
        ChatService.distribute
          { s with msgs := (save s.msgs (ChatService.newMessage a b c ct draft r now)).1 }
          (ChatService.newMessage a b c ct draft r now) ct) := by
  have hid := generateMsgId_ne_nil r
  cases hg : s.msgs.get (keyMsg (ChatService.generateMsgId r)) with
  | none =>
    refine Or.inr ?_
    simp [ChatService.sendTo, save, ChatService.newMessage, hid, ha, hg]
  | some v =>
    refine Or.inl ?_
    simp [ChatService.sendTo, save, ChatService.newMessage, hid, ha, hg]

/-- A send that fails changes at most the registry; one that succeeds stores a new message with a
fresh id and distributes it. -/
theorem sendMessage_cases (s : ChatState) (a b : Bytes) (ct : ChatType)
    (draft : ChatService.Draft) (r : RandomString 16) (now : Int) :
    ∃ metas,
    ((ChatService.sendMessage s a b ct draft r now).2.success = false ∧
      (ChatService.sendMessage s a b ct draft r now).1 = { s with metas := metas }) ∨
    ((ChatService.sendMessage s a b ct draft r now).2.success = true ∧ a ≠ [] ∧ b ≠ [] ∧
      (ct = .group → GroupStore.isMember s.groups b a = true) ∧
      s.msgs.get (keyMsg (ChatService.generateMsgId r)) = none ∧
      (ChatService.sendMessage s a b ct draft r now).1 =
        ChatService.distribute
          { s with
            metas := metas
            msgs := (save s.msgs (ChatService.newMessage a b (conversationOf a b ct) ct draft r
              now)).1 }
          (ChatService.newMessage a b (conversationOf a b ct) ct draft r now) ct) := by
  unfold ChatService.sendMessage
  by_cases hne : a = [] ∨ b = []
  · rw [if_pos hne]
    exact ⟨s.metas, Or.inl ⟨rfl, rfl⟩⟩
  · rw [if_neg hne]
    push Not at hne
    cases ct with
    | priv =>
      simp only [registry_id hne.2 hne.1]
      refine ⟨(getOrCreatePrivateConversation s.metas a b).1, ?_⟩
      rcases sendTo_cases (s := { s with metas := (getOrCreatePrivateConversation s.metas a b).1 })
        (b := b) (c := privateId a b) (r := r) hne.1 with ⟨hf, hs⟩ | ⟨hok, hnew, hs⟩
      · exact Or.inl ⟨hf, hs⟩
      · exact Or.inr ⟨hok, hne.1, hne.2, by simp, hnew, hs⟩
    | group =>
      refine ⟨s.metas, ?_⟩
      by_cases hm : GroupStore.isMember s.groups b a = true
      · rw [if_neg (not_not_intro hm)]
        rcases sendTo_cases (s := s) (b := b) (c := b) (r := r) hne.1 with ⟨hf, hs⟩ | ⟨hok, hnew, hs⟩
        · exact Or.inl ⟨hf, hs⟩
        · exact Or.inr ⟨hok, hne.1, hne.2, fun _ => hm, hnew, hs⟩
      · rw [if_pos hm]
        exact Or.inl ⟨rfl, rfl⟩

/-- Any number of writes of the message store. -/
def Writes (U : Bytes → Prop) (M : MessageData → Prop) : MsgDb → MsgDb → Prop :=
  Relation.ReflTransGen (Write U M)

theorem Writes.wellFormed {db db' : MsgDb} (hM : ∀ m t, M m → M (m.recalled t))
    (hw : Writes U M db db') (h : WellFormed U M db) : WellFormed U M db' := by
  induction hw with
  | refl => exact h
  | tail _ hstep ih => exact hstep.wellFormed hM ih

theorem foldl_addToOffline_writes {us : List Bytes} {id : Bytes} {db : MsgDb}
    (hu : ∀ u ∈ us, U u) :
    Writes U M db (us.foldl (fun db u => (addToOffline db u id).1) db) := by
  induction us generalizing db with
  | nil => exact Relation.ReflTransGen.refl
  | cons u us ih =>
    exact (Relation.ReflTransGen.single (addToOffline_write (hu u List.mem_cons_self))).trans
      (ih (fun w hw => hu w (List.mem_cons_of_mem _ hw)))

/-- What `SendMessage` guarantees of every message it stores. -/
structure MessageOk (T : Int → Prop) (m : MessageData) : Prop where
  id_length : m.msgId.length = 18
  kind : (m.chatType = 1 ∧ m.conversationId = privateId m.fromUserId m.toId) ∨
    (m.chatType = 2 ∧ m.conversationId = m.toId ∧ str "g_" <+: m.toId)
  clock : T m.timestamp

theorem MessageOk.recalled (t : Int) (h : MessageOk T m) : MessageOk T (m.recalled t) :=
  ⟨h.id_length, h.kind, h.clock⟩

theorem MessageOk.conversationId_ne_nil (h : MessageOk T m) : m.conversationId ≠ [] := by
  intro he
  rcases h.kind with ⟨_, hc⟩ | ⟨_, hc, hp⟩
  · exact privateId_ne_nil _ _ (hc.symm.trans he)
  · rw [← hc, he, List.prefix_nil] at hp
    exact absurd hp (by decide)

theorem MessageOk.timelineId (h : MessageOk T m) : timelineId m = m.conversationId :=
  if_neg h.conversationId_ne_nil

theorem newMessage_ok (hT : T now) (hg : GroupsOk s.groups)
    (hm : ct = .group → GroupStore.isMember s.groups b a = true) :
    MessageOk T (ChatService.newMessage a b (conversationOf a b ct) ct draft r now) where
  id_length := length_generateMsgId r
  kind := by
    cases ct with
    | priv => exact Or.inl ⟨rfl, rfl⟩
    | group => exact Or.inr ⟨rfl, rfl, hg.of_isMember (hm rfl)⟩
  clock := hT

/-- What holds of the stores in every reachable state. -/
structure ChatOk (T : Int → Prop) (s : ChatState) : Prop where
  msgs : WellFormed (fun _ => True) (MessageOk T) s.msgs
  groups : GroupsOk s.groups

theorem distribute_groups (msg : MessageData) :
    (ChatService.distribute s msg ct).groups = s.groups := rfl

theorem distribute_msgs (msg : MessageData) :
    (ChatService.distribute s msg ct).msgs =
      (ChatService.receivers s.groups msg.fromUserId msg.toId ct).foldl
        (fun msgs u => (addToOffline msgs u msg.msgId).1) s.msgs := rfl

theorem send_writes (hnew : (ct = .group → GroupStore.isMember s.groups b a = true) →
      M (ChatService.newMessage a b (conversationOf a b ct) ct draft r now)) :
    Writes (fun _ => True) M s.msgs (ChatService.sendMessage s a b ct draft r now).1.msgs := by
  obtain ⟨metas, ⟨_, hs⟩ | ⟨_, _, _, hm, _, hs⟩⟩ :=
    sendMessage_cases s a b ct draft r now
  · rw [hs]
    exact Relation.ReflTransGen.refl
  · rw [hs, distribute_msgs]
    exact (Relation.ReflTransGen.single (save_write (hnew hm))).trans
      (foldl_addToOffline_writes (fun _ _ => trivial))

theorem recall_writes {id : Bytes} :
    Writes U M s.msgs (ChatService.recallMessage s id a now).1.msgs := by
  simp only [ChatService.recallMessage]
  repeat' split
  all_goals first
    | exact Relation.ReflTransGen.refl
    | exact Relation.ReflTransGen.single markRecalled_write

theorem getHistory_state (s : ChatState) (a c : Bytes) (ct : ChatType) (id : Bytes) (limit : Int) :
    ∃ metas, (ChatService.getHistory s a c ct id limit).1 = { s with metas := metas } := by
  unfold ChatService.getHistory
  obtain ⟨metas, hres⟩ := resolve_state s a c ct
  split
  · exact ⟨s.metas, rfl⟩
  · refine ⟨metas, ?_⟩
    rw [← hres]
    simp only
    repeat' split
    all_goals rfl

/-- What `MarkRead` does to the four stores. -/
theorem markRead_state (s : ChatState) (ct : ChatType) (id : Bytes) (hne : a ≠ []) (hc : c ≠ []) :
    ∃ metas, (ChatService.markRead s a c ct id).1 =
      { s with
        metas := metas
        convs := (clearUnread s.convs a (conversationOf a c ct)).1
        msgs := if id ≠ [] then (clearOffline s.msgs a id).1 else s.msgs } := by
  obtain ⟨metas, hres⟩ := resolve_state s a c ct
  refine ⟨metas, ?_⟩
  have hconv : conversationOf a c ct ≠ [] := conversationOf_ne_nil hc
  simp [ChatService.markRead, hne, hc, resolve_id hne hc, hconv, hres]

theorem markRead_writes {id : Bytes} :
    Writes U M s.msgs (ChatService.markRead s a c ct id).1.msgs := by
  by_cases hne : a = [] ∨ c = []
  · rw [ChatService.markRead, if_pos hne]
    exact Relation.ReflTransGen.refl
  · push Not at hne
    obtain ⟨metas, hs⟩ := markRead_state s ct id hne.1 hne.2
    rw [hs]
    simp only
    split
    · exact Relation.ReflTransGen.single clearOffline_write
    · exact Relation.ReflTransGen.refl

theorem markRead_groups {id : Bytes} :
    (ChatService.markRead s a c ct id).1.groups = s.groups := by
  by_cases hne : a = [] ∨ c = []
  · rw [ChatService.markRead, if_pos hne]
  · push Not at hne
    obtain ⟨metas, hs⟩ := markRead_state s ct id hne.1 hne.2
    rw [hs]

/-- Only the group operations and the dissolution of a live group by its owner touch the groups. -/
theorem chatStep_groups (s : ChatState) (op : ChatOp) :
    (chatStep s op).groups = s.groups ∨ (∃ o, op = .group o) ∨
    (∃ a c data, op = .deleteConversation a c .group ∧
      GroupStore.getGroup s.groups c = some data ∧ data.ownerId = a ∧ data.status ≠ 1 ∧
      (chatStep s op).groups = (GroupStore.dissolveGroup s.groups c).1) := by
  cases op with
  | send a b ct draft r now =>
    obtain ⟨metas, ⟨_, hs⟩ | ⟨_, _, _, _, _, hs⟩⟩ := sendMessage_cases s a b ct draft r now
    · rw [chatStep, hs]
      exact Or.inl rfl
    · rw [chatStep, hs, distribute_groups]
      exact Or.inl rfl
  | recallMessage id a now =>
    refine Or.inl ?_
    simp only [chatStep, ChatService.recallMessage]
    repeat' split
    all_goals rfl
  | getHistory a c ct id limit =>
    obtain ⟨metas, hs⟩ := getHistory_state s a c ct id limit
    rw [chatStep, hs]
    exact Or.inl rfl
  | markRead a c ct id =>
    rw [chatStep, markRead_groups]
    exact Or.inl rfl
  | deleteConversation a c ct =>
    simp only [chatStep, ChatService.deleteConversation]
    split
    · exact Or.inl rfl
    · cases ct with
      | priv => exact Or.inl rfl
      | group =>
        simp only
        split
        · exact Or.inl rfl
        · rename_i data hg
          split
          · exact Or.inl rfl
          · rename_i howner
            split
            · exact Or.inl rfl
            · rename_i hlive
              refine Or.inr (Or.inr ⟨a, c, data, rfl, hg, not_not.mp howner, hlive, ?_⟩)
              split
              · rename_i hfail
                simp [GroupStore.dissolveGroup, hg, hlive] at hfail
              · rfl
  | group op => exact Or.inr (Or.inl ⟨op, rfl⟩)

/-- The groups change by calls of the group store only. -/
theorem chatStep_calls (s : ChatState) (op : ChatOp) :
    StoreCalls s.groups (chatStep s op).groups := by
  rcases chatStep_groups s op with h | ⟨o, rfl⟩ | ⟨a, c, data, _, _, _, _, h⟩
  · rw [h]
  · exact groupStep_calls s.groups o
  · rw [h]
    exact StoreCall.dissolveGroup.calls

/-- The messages change by writes of the message store only. -/
theorem chatStep_writes (s : ChatState) (op : ChatOp)
    (hnew : ∀ a b ct draft r now, op = .send a b ct draft r now →
      (ct = .group → GroupStore.isMember s.groups b a = true) →
      M (ChatService.newMessage a b (conversationOf a b ct) ct draft r now)) :
    Writes (fun _ => True) M s.msgs (chatStep s op).msgs := by
  cases op with
  | send a b ct draft r now => exact send_writes (hnew a b ct draft r now rfl)
  | recallMessage id a now => exact recall_writes
  | getHistory a c ct id limit =>
    obtain ⟨metas, hs⟩ := getHistory_state s a c ct id limit
    rw [chatStep, hs]
    exact Relation.ReflTransGen.refl
  | markRead a c ct id => exact markRead_writes
  | deleteConversation a c ct =>
    simp only [chatStep, ChatService.deleteConversation]
    repeat' split
    all_goals exact Relation.ReflTransGen.refl
  | group op => exact Relation.ReflTransGen.refl

theorem chatStep_ok {op : ChatOp} (h : ChatOk T s) (hT : op.ClockIn T) : ChatOk T (chatStep s op) := by
  refine ⟨?_, h.groups.calls (chatStep_calls s op)⟩
  have hw : Writes (fun _ => True) (MessageOk T) s.msgs (chatStep s op).msgs := by
    refine chatStep_writes s op ?_
    rintro a b ct draft r now rfl hm
    exact newMessage_ok hT h.groups hm
  exact hw.wellFormed (fun m t hm => hm.recalled t) h.msgs

theorem chatAfter_ok {ops : List ChatOp} (h : ∀ op ∈ ops, op.ClockIn T) :
    ChatOk T (chatAfter ops) :=
  run_invariant (fun _ _ hs hop => chatStep_ok hs hop) ⟨wellFormed_empty, groupsOk_empty⟩ h

theorem chatAfter_groups (ops : List ChatOp) :
    StoreCalls OrderedMap.empty (chatAfter ops).groups := by
  refine @run_invariant _ _ chatStep {} ops (fun s => StoreCalls OrderedMap.empty s.groups)
    (fun _ => True) ?_ Relation.ReflTransGen.refl (fun _ _ => trivial)
  intro s op hs _
  exact hs.trans (chatStep_calls s op)

/-! Random parts of message ids, for runs on fixed input. -/

def randomA : RandomString 16 := RandomString.replicate 16 65 rfl
def randomB : RandomString 16 := RandomString.replicate 16 66 rfl
def randomC : RandomString 16 := RandomString.replicate 16 67 rfl

end SwiftChat.Chat
