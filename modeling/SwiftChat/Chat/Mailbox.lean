import SwiftChat.Chat.MessageLife
import SwiftChat.Chat.OfflineLoop
import SwiftChat.Chat.Privilege

/-! What waits in a user's offline queue stays there until that user marks a chat as read. -/
namespace SwiftChat.Chat
open Base

/-- The user who issues an operation of the chat service. -/
def ChatOp.actor : ChatOp → Bytes
  | .send fromUserId .. => fromUserId
  | .recallMessage _ userId _ => userId
  | .getHistory userId .. => userId
  | .markRead userId .. => userId
  | .deleteConversation userId .. => userId
  | .group op => op.actor

/-- The message waits for `u`, in the version that is stored now. -/
def Waiting (s : ChatState) (u : Bytes) (m : MessageData) : Prop :=
  ∃ m', Later m m' ∧ Queued s.msgs u m'

/-- The user marks a chat as read up to some message. -/
def ChatOp.Reads (op : ChatOp) (u : Bytes) : Prop :=
  ∃ chatId chatType lastMsgId, op = .markRead u chatId chatType lastMsgId

variable {s : ChatState} {op : ChatOp} {u w : Bytes} {m m' : MessageData} {ops : List ChatOp}

theorem Later.msgId (h : Later m m') : m'.msgId = m.msgId := by
  rw [← h.same]

theorem Later.timestamp (h : Later m m') : m'.timestamp = m.timestamp := by
  rw [← h.same]

theorem Queued.waiting (h : Queued s.msgs u m) : Waiting s u m := ⟨m, Later.refl m, h⟩

/-- The stored message may have got its mark; its entry is still there. -/
theorem waiting_of_entry (hm : Queued s.msgs u m)
    (hentry : (chatStep s op).msgs.get (keyOffline u m.timestamp m.msgId) = some .empty) :
    Waiting (chatStep s op) u m := by
  obtain ⟨m', hm', hlater⟩ := run_keeps_message (s := s) [op] hm.1
  refine ⟨m', hlater, ?_, ?_⟩
  · rw [hlater.msgId]
    exact hm'
  · rw [hlater.msgId, hlater.timestamp]
    exact hentry

theorem send_entry {a b : Bytes} {ct : ChatType} {draft : ChatService.Draft} {r : RandomString 16}
    {now : Int} (hm : Queued s.msgs u m) :
    (ChatService.sendMessage s a b ct draft r now).1.msgs.get (keyOffline u m.timestamp m.msgId) =
      some .empty := by
  have hfold : ∀ (us : List Bytes) (id : Bytes) (db : MsgDb), Queued db u m →
      Queued (us.foldl (fun db w => (addToOffline db w id).1) db) u m := by
    intro us id
    induction us with
    | nil => exact fun _ h => h
    | cons w us ih => exact fun db h => ih _ (queued_addToOffline h)
  obtain ⟨metas, ⟨_, hs⟩ | ⟨_, _, _, _, _, hs⟩⟩ := sendMessage_cases s a b ct draft r now
  · rw [hs]
    exact hm.2
  · rw [hs, distribute_msgs]
    exact (hfold _ _ _ (queued_save hm)).2

/-- No step takes an entry out of the queue of `u`, unless `u` reads. -/
theorem Queued.step (hm : Queued s.msgs u m) (hu : colon ∉ u) (hop : colon ∉ op.actor) :
    Waiting (chatStep s op) u m ∨ op.Reads u := by
  cases op with
  | send a b ct draft r now => exact Or.inl (waiting_of_entry hm (send_entry hm))
  | recallMessage id a now =>
    refine Or.inl (waiting_of_entry hm ?_)
    rcases recallMessage_cases s id a now with hs | ⟨_, _, _, _, hs⟩
    · rw [chatStep, hs]
      exact hm.2
    · rw [chatStep, hs]
      exact (OrderedMap.get_put_ne keyMsg_ne_keyOffline.symm).trans hm.2
  | getHistory a c ct id limit =>
    obtain ⟨metas, hs⟩ := getHistory_state s a c ct id limit
    refine Or.inl (waiting_of_entry hm ?_)
    rw [chatStep, hs]
    exact hm.2
  | markRead a c ct id =>
    by_cases ha : a = u
    · subst ha
      exact Or.inr ⟨c, ct, id, rfl⟩
    refine Or.inl (waiting_of_entry hm ?_)
    rw [chatStep]
    by_cases hne : a = [] ∨ c = []
    · rw [ChatService.markRead, if_pos hne]
      exact hm.2
    · push Not at hne
      obtain ⟨metas, hs⟩ := markRead_state s ct id hne.1 hne.2
      rw [hs]
      simp only
      split
      · exact ((queued_clearOther hu hop ha).mpr hm).2
      · exact hm.2
  | deleteConversation a c ct =>
    have hsame : (chatStep s (.deleteConversation a c ct)).msgs = s.msgs := by
      simp only [chatStep, ChatService.deleteConversation]
      repeat' split
      all_goals rfl
    refine Or.inl (waiting_of_entry hm ?_)
    rw [hsame]
    exact hm.2
  | group op => exact Or.inl (waiting_of_entry hm hm.2)

/-- A message that waits keeps waiting until its user reads. -/
theorem Waiting.run (hm : Waiting s u m) (hu : colon ∉ u) (hops : ∀ op ∈ ops, colon ∉ op.actor) :
    Waiting (run chatStep s ops) u m ∨ ∃ op ∈ ops, op.Reads u := by
  induction ops generalizing s with
  | nil => exact Or.inl hm
  | cons op ops ih =>
    obtain ⟨m', hlater, hq⟩ := hm
    rcases hq.step hu (hops op List.mem_cons_self) with ⟨m'', hlater', hq'⟩ | hread
    · rcases ih ⟨m'', hlater.trans hlater', hq'⟩ fun o ho => hops o (List.mem_cons_of_mem _ ho) with
        hwait | ⟨o, ho, hread⟩
      · exact Or.inl hwait
      · exact Or.inr ⟨o, List.mem_cons_of_mem _ ho, hread⟩
    · exact Or.inr ⟨op, List.mem_cons_self, hread⟩

end SwiftChat.Chat
