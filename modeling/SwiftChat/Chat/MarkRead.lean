import SwiftChat.Chat.ChatRun
import SwiftChat.Chat.ClearOffline

/-! What marking a chat as read takes out of the reader's offline queue. -/
namespace SwiftChat.Chat
open Base
variable {db : MsgDb} {u c id : Bytes} {ct : ChatType} {m w : MessageData} {s : ChatState}

/-- The queue of the reader after `MarkRead`: with a known last message only the newer ones are
left, otherwise nothing changes. -/
theorem queued_markRead (h : ChatOk InRange s) (hu : u ≠ []) (hc : c ≠ []) :
    Queued (ChatService.markRead s u c ct id).1.msgs u m ↔
      Queued s.msgs u m ∧ ∀ w, getById s.msgs id = some w → w.timestamp < m.timestamp := by
  obtain ⟨metas, hs⟩ := markRead_state s ct id hu hc
  have ht : ∀ id m, getById s.msgs id = some m → InRange m.timestamp :=
    fun id m hg => (h.msgs.message hg).2.clock
  rw [hs]
  cases hw : getById s.msgs id with
  | none =>
    by_cases hne : id = []
    · simp [hne]
    · simp [hne, queued_clearOffline ht hu, upTo_unknown hw hne]
  | some w =>
    simp [(get_of_getById hw).1, queued_clearOffline ht hu, upTo_known hw]

/-- Marking a chat as read, in any reachable state, adds nothing to the reader's queue and keeps
every queued message that is newer than the last read one, of whatever conversation; it keeps the
whole queue when an id is empty or the last read message is unknown. When it reports success,
nothing up to the last read message is left. -/
theorem markRead_queue (ops : List ChatOp) (hops : ∀ op ∈ ops, op.ClockIn InRange)
    (u chatId : Bytes) (chatType : ChatType) (lastMsgId : Bytes) :
    (∀ m, Queued (ChatService.markRead (chatAfter ops) u chatId chatType lastMsgId).1.msgs u m →
      Queued (chatAfter ops).msgs u m) ∧
    (∀ m, Queued (chatAfter ops).msgs u m →
      (u = [] ∨ chatId = [] ∨
        ∀ w, getById (chatAfter ops).msgs lastMsgId = some w → w.timestamp < m.timestamp) →
      Queued (ChatService.markRead (chatAfter ops) u chatId chatType lastMsgId).1.msgs u m) ∧
    ((ChatService.markRead (chatAfter ops) u chatId chatType lastMsgId).2 = true →
      ∀ w, getById (chatAfter ops).msgs lastMsgId = some w →
      ∀ m, Queued (ChatService.markRead (chatAfter ops) u chatId chatType lastMsgId).1.msgs u m →
        w.timestamp < m.timestamp) := by
  have h := chatAfter_ok hops
  by_cases hne : u = [] ∨ chatId = []
  · have hs : ChatService.markRead (chatAfter ops) u chatId chatType lastMsgId =
        (chatAfter ops, false) := if_pos hne
    rw [hs]
    exact ⟨fun _ hq => hq, fun _ hq _ => hq, by simp⟩
  · push Not at hne
    refine ⟨?_, ?_, ?_⟩
    · intro m hq
      exact ((queued_markRead h hne.1 hne.2).mp hq).1
    · intro m hq hkeep
      rcases hkeep with he | he | hnew
      · exact absurd he hne.1
      · exact absurd he hne.2
      · exact (queued_markRead h hne.1 hne.2).mpr ⟨hq, hnew⟩
    · intro _ w hw m hq
      exact ((queued_markRead h hne.1 hne.2).mp hq).2 w hw

/-- Two senders write to `b`, first `c`, then `a`. -/
def twoSenders : List ChatOp :=
  [.send (str "c") (str "b") .priv {} randomC 5,
    .send (str "a") (str "b") .priv {} randomA 6]

def fromC : MessageData :=
  ChatService.newMessage (str "c") (str "b") (str "p_b_c") .priv {} randomC 5

def fromA : MessageData :=
  ChatService.newMessage (str "a") (str "b") (str "p_a_b") .priv {} randomA 6

/-- Reading the chat with `a` takes the message of `c` out of the queue. -/
theorem markRead_clears_other_chat :
    Queued (chatAfter twoSenders).msgs (str "b") fromC ∧
    fromC.conversationId ≠ conversationOf (str "b") (str "a") .priv ∧
    ¬ Queued (ChatService.markRead (chatAfter twoSenders) (str "b") (str "a") .priv
      fromA.msgId).1.msgs (str "b") fromC := by
  decide

theorem markRead_queue_two_senders :
    Queued (ChatService.markRead (chatAfter twoSenders) (str "b") (str "c") .priv
      fromC.msgId).1.msgs (str "b") fromA := by
  have hops : ∀ op ∈ twoSenders, op.ClockIn InRange := by
    intro op hop
    rcases List.mem_cons.mp hop with rfl | hop
    · exact (⟨by decide, by decide⟩ : InRange 5)
    · rw [List.mem_singleton.mp hop]
      exact (⟨by decide, by decide⟩ : InRange 6)
  refine (markRead_queue twoSenders hops (str "b") (str "c") .priv fromC.msgId).2.1 fromA
    (by decide) (Or.inr (Or.inr ?_))
  intro w hw
  have hc : getById (chatAfter twoSenders).msgs fromC.msgId = some fromC := by decide
  rw [← Option.some.inj (hc.symm.trans hw)]
  decide

end SwiftChat.Chat
