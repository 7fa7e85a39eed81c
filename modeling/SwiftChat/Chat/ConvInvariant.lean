import SwiftChat.Chat.Receivers
import SwiftChat.Chat.Unread

/-! Every entry of a conversation list goes back to a stored message. -/
namespace SwiftChat.Chat
open Base
variable {U : Bytes → Prop} {M : MessageData → Prop} {db db' : MsgDb} {convs : ConvDb}
  {s : ChatState} {id u c k : Bytes} {m : MessageData} {v : ConversationData} {f : Int → Int}

/-- What holds of every message that is saved holds of every message. -/
theorem Writes.forall_message (hM : ∀ m t, M m → M (m.recalled t)) (hw : Writes U M db db')
    (h : ∀ id m, getById db id = some m → M m) : ∀ id m, getById db' id = some m → M m := by
  induction hw with
  | refl => exact h
  | tail _ hstep ih =>
    intro id m hm
    rcases hstep.origin hm with hold | ⟨m₀, t, hold, rfl⟩ | ⟨_, hnew, _⟩
    · exact ih id m hold
    · exact hM m₀ t (ih id m₀ hold)
    · exact hnew

/-- A stored message stays in its conversation. -/
theorem Writes.keeps (hw : Writes U M db db') (h : getById db id = some m) :
    ∃ m', getById db' id = some m' ∧ m'.conversationId = m.conversationId := by
  induction hw with
  | refl => exact ⟨m, h, rfl⟩
  | tail _ hstep ih =>
    obtain ⟨m₁, h₁, hc⟩ := ih
    rcases hstep.keeps h₁ with h₂ | ⟨t, h₂⟩
    · exact ⟨m₁, h₂, hc⟩
    · exact ⟨m₁.recalled t, h₂, hc⟩

/-- Every entry is filed under a user and its conversation, and a message of that conversation is
stored. -/
structure ConvsOk (s : ChatState) : Prop where
  filed : ∀ k v, s.convs.get k = some v → ∃ u, u ≠ [] ∧ k = keyConv u v.conversationId
  backed : ∀ k v, s.convs.get k = some v →
    ∃ id m, getById s.msgs id = some m ∧ m.conversationId = v.conversationId

theorem convsOk_empty : ConvsOk {} where
  filed k v h := by cases h
  backed k v h := by cases h

/-- An entry of the new list is an old one up to its counter, or belongs to a message stored
now. -/
def ConvsFrom (s s' : ChatState) : Prop :=
  ∀ k v, s'.convs.get k = some v →
    (∃ v₀, s.convs.get k = some v₀ ∧ v₀.conversationId = v.conversationId) ∨
    (∃ u id m, u ≠ [] ∧ k = keyConv u v.conversationId ∧ getById s'.msgs id = some m ∧
      m.conversationId = v.conversationId)

theorem ConvsFrom.of_shrink {s' : ChatState} (h : ∀ k v, s'.convs.get k = some v →
    ∃ v₀, s.convs.get k = some v₀ ∧ v₀.conversationId = v.conversationId) : ConvsFrom s s' :=
  fun k v hv => Or.inl (h k v hv)

theorem modifyUnread_get (h : (modifyUnread convs u c f).1.get k = some v) :
    ∃ v₀, convs.get k = some v₀ ∧ v₀.conversationId = v.conversationId := by
  unfold modifyUnread at h
  split at h
  · exact ⟨v, h, rfl⟩
  · cases hg : convs.get (keyConv u c) with
    | none =>
      rw [hg] at h
      exact ⟨v, h, rfl⟩
    | some v₀ =>
      simp only [hg] at h
      rcases OrderedMap.get_put_some h with ⟨rfl, rfl⟩ | ⟨_, hold⟩
      · exact ⟨v₀, hg, rfl⟩
      · exact ⟨v, hold, rfl⟩

theorem foldl_deleteConv_get {members : List GroupMemberData} :
    (members.foldl (fun convs m => (deleteConv convs m.userId c).1) convs).get k =
      if ∃ m ∈ members, m.userId ≠ [] ∧ c ≠ [] ∧ k = keyConv m.userId c then none
      else convs.get k := by
  induction members generalizing convs with
  | nil => simp
  | cons m members ih =>
    rw [List.foldl_cons, ih]
    by_cases hrest : ∃ m ∈ members, m.userId ≠ [] ∧ c ≠ [] ∧ k = keyConv m.userId c
    · obtain ⟨m', hm', hk⟩ := hrest
      rw [if_pos ⟨m', hm', hk⟩, if_pos ⟨m', List.mem_cons_of_mem _ hm', hk⟩]
    · rw [if_neg hrest]
      unfold deleteConv
      by_cases hm : m.userId ≠ [] ∧ c ≠ [] ∧ k = keyConv m.userId c
      · rw [if_neg (by push Not; exact ⟨hm.1, hm.2.1⟩), if_pos ⟨m, List.mem_cons_self, hm⟩, hm.2.2]
        exact OrderedMap.get_delete_self
      · have hnone : ¬ ∃ m' ∈ m :: members, m'.userId ≠ [] ∧ c ≠ [] ∧ k = keyConv m'.userId c := by
          rintro ⟨m', hm', hk⟩
          rcases List.mem_cons.mp hm' with rfl | hm'
          · exact hm hk
          · exact hrest ⟨m', hm', hk⟩
        rw [if_neg hnone]
        split
        · rfl
        · rename_i hne
          push Not at hne
          rw [OrderedMap.get_delete_ne (fun he => hm ⟨hne.1, hne.2, he⟩)]

theorem send_convs (s : ChatState) (a b : Bytes) (ct : ChatType) (draft : ChatService.Draft)
    (r : RandomString 16) (now : Int) :
    ConvsFrom s (ChatService.sendMessage s a b ct draft r now).1 := by
  have hkeep : ∀ k v, s.convs.get k = some v →
      ∃ v₀, s.convs.get k = some v₀ ∧ v₀.conversationId = v.conversationId :=
    fun k v hv => ⟨v, hv, rfl⟩
  obtain ⟨metas, ⟨_, hs⟩ | ⟨_, ha, hb, _, hfree, hs⟩⟩ := sendMessage_cases s a b ct draft r now
  · rw [hs]
    exact ConvsFrom.of_shrink hkeep
  · rw [hs]
    intro k v hv
    have hc : conversationOf a b ct ≠ [] := conversationOf_ne_nil hb
    have hstored := distribute_stored
      (m := ChatService.newMessage a b (conversationOf a b ct) ct draft r now) metas ct
      (generateMsgId_ne_nil r) ha hfree
    generalize hmsg : ChatService.newMessage a b (conversationOf a b ct) ct draft r now = msg
      at hv hstored ⊢
    have hfrom : msg.fromUserId ≠ [] := by
      rw [← hmsg]
      exact ha
    rw [distribute_convs _ msg ct hfrom (by rw [← hmsg]; exact hc)] at hv
    split at hv
    · rename_i hw
      obtain ⟨w, _, hwne, hk⟩ := hw
      have hvid : v.conversationId = msg.conversationId := by
        rw [← Option.some.inj hv]
        cases ct <;> rfl
      exact Or.inr ⟨w, _, msg, hwne, by rw [hvid]; exact hk, hstored, hvid.symm⟩
    · split at hv
      · rename_i hk
        have hvid : v.conversationId = msg.conversationId := by
          rw [← Option.some.inj hv]
          rfl
        exact Or.inr ⟨msg.fromUserId, _, msg, hfrom, by rw [hvid]; exact hk, hstored, hvid.symm⟩
      · exact Or.inl (hkeep k v hv)

theorem chatStep_convs (s : ChatState) (op : ChatOp) : ConvsFrom s (chatStep s op) := by
  cases op with
  | send a b ct draft r now => exact send_convs s a b ct draft r now
  | recallMessage id a now =>
    apply ConvsFrom.of_shrink
    simp only [chatStep, ChatService.recallMessage]
    repeat' split
    all_goals exact fun k v hv => ⟨v, hv, rfl⟩
  | getHistory a c ct id limit =>
    obtain ⟨metas, hs⟩ := getHistory_state s a c ct id limit
    rw [chatStep, hs]
    exact ConvsFrom.of_shrink fun k v hv => ⟨v, hv, rfl⟩
  | markRead a c ct id =>
    apply ConvsFrom.of_shrink
    rw [chatStep]
    by_cases hne : a = [] ∨ c = []
    · rw [ChatService.markRead, if_pos hne]
      exact fun k v hv => ⟨v, hv, rfl⟩
    · push Not at hne
      obtain ⟨metas, hs⟩ := markRead_state s ct id hne.1 hne.2
      rw [hs]
      exact fun k v hv => modifyUnread_get hv
  | deleteConversation a c ct =>
    apply ConvsFrom.of_shrink
    simp only [chatStep, ChatService.deleteConversation]
    repeat' split
    all_goals try exact fun k v hv => ⟨v, hv, rfl⟩
    intro k v hv
    rw [foldl_deleteConv_get] at hv
    split at hv
    · cases hv
    · exact ⟨v, hv, rfl⟩
  | group op => exact ConvsFrom.of_shrink fun k v hv => ⟨v, hv, rfl⟩

theorem ConvsOk.chatStep (h : ConvsOk s) (op : ChatOp) : ConvsOk (chatStep s op) where
  filed k v hv := by
    rcases chatStep_convs s op k v hv with ⟨v₀, h₀, hc⟩ | ⟨u, _, _, hu, hk, _, _⟩
    · rw [← hc]
      exact h.filed k v₀ h₀
    · exact ⟨u, hu, hk⟩
  backed k v hv := by
    rcases chatStep_convs s op k v hv with ⟨v₀, h₀, hc⟩ | ⟨_, id, m, _, _, hm, hc⟩
    · obtain ⟨id, m, hm, hmc⟩ := h.backed k v₀ h₀
      have hw : Writes (fun _ => True) (fun _ => True) s.msgs (Chat.chatStep s op).msgs :=
        chatStep_writes s op (fun _ _ _ _ _ _ _ _ => trivial)
      obtain ⟨m', hm', hmc'⟩ := hw.keeps hm
      exact ⟨id, m', hm', by rw [hmc', hmc, hc]⟩
    · exact ⟨id, m, hm, hc⟩

end SwiftChat.Chat
