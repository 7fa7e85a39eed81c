import SwiftChat.Chat.ChatRun

/-! Unread counters against the history of sends and reads. -/
namespace SwiftChat.Chat
open Base

/-- What counts for the unread numbers: an accepted message and a successful read mark. -/
inductive ReadEvent where
  | sent (sender conversation : Bytes)
  | read (reader conversation : Bytes)
deriving DecidableEq

/-- The messages of `c` from others since the last read mark of `u`; the newest event is first. -/
def unreadSince (u c : Bytes) : List ReadEvent → Int
  | [] => 0
  | .read w d :: log => if w = u ∧ d = c then 0 else unreadSince u c log
  | .sent w d :: log => if w ≠ u ∧ d = c then unreadSince u c log + 1 else unreadSince u c log

/-- The chat service together with the history that led to it. -/
structure Tracked where
  chat : ChatState
  log : List ReadEvent := []

inductive ReadOp where
  | send (fromUserId toId : Bytes) (chatType : ChatType) (draft : ChatService.Draft)
      (r : RandomString 16) (now : Int)
  | markRead (userId chatId : Bytes) (chatType : ChatType) (lastMsgId : Bytes)

def trackStep (t : Tracked) : ReadOp → Tracked
  | .send fromUserId toId chatType draft r now =>
    let res := ChatService.sendMessage t.chat fromUserId toId chatType draft r now
    { chat := res.1
      log := if res.2.success then
          .sent fromUserId (conversationOf fromUserId toId chatType) :: t.log
        else t.log }
  | .markRead userId chatId chatType lastMsgId =>
    let res := ChatService.markRead t.chat userId chatId chatType lastMsgId
    { chat := res.1
      log := if res.2 then .read userId (conversationOf userId chatId chatType) :: t.log
        else t.log }

/-- No message and no conversation yet; the groups are given. -/
def trackStart (groups : GroupDb) : Tracked := { chat := { groups := groups } }

/-- Every entry of every conversation list shows the number of unread messages. -/
def UnreadLaw (t : Tracked) : Prop :=
  ∀ u, ∀ conv ∈ ChatService.syncConversations t.chat u,
    conv.unreadCount = unreadSince u conv.conversationId t.log

variable {convs : ConvDb} {conv v : ConversationData} {u w a b c d k : Bytes} {rs : List Bytes}
  {t : Tracked} {log : List ReadEvent} {ct : ChatType} {draft : ChatService.Draft}
  {r : RandomString 16} {now : Int}

/-! Writes of the conversation store. -/

theorem upsert_get (hc : conv.conversationId ≠ []) :
    (upsert convs u conv).1.get k =
      if u ≠ [] ∧ k = keyConv u conv.conversationId then some conv else convs.get k := by
  unfold upsert
  by_cases hu : u = []
  · simp [hu]
  · simp [hu, hc, OrderedMap.get_put]

theorem notifyConv_get (hc : conv.conversationId ≠ []) :
    (ChatService.notifyConv convs conv u).get k =
      if u ≠ [] ∧ k = keyConv u conv.conversationId then
        some { conv with unreadCount := max 0 (conv.unreadCount + 1) }
      else convs.get k := by
  by_cases hu : u = []
  · simp [ChatService.notifyConv, upsert, updateUnread, modifyUnread, hu]
  · by_cases hk : k = keyConv u conv.conversationId
    · simp [ChatService.notifyConv, upsert, updateUnread, modifyUnread, hu, hc, hk]
    · simp [ChatService.notifyConv, upsert, updateUnread, modifyUnread, hu, hc, hk,
        OrderedMap.get_put_ne]

/-- Notifying a list of receivers writes the entry of each of them and nothing else. -/
theorem foldl_notifyConv_get (hc : conv.conversationId ≠ []) :
    (rs.foldl (fun convs u => ChatService.notifyConv convs conv u) convs).get k =
      if ∃ u ∈ rs, u ≠ [] ∧ k = keyConv u conv.conversationId then
        some { conv with unreadCount := max 0 (conv.unreadCount + 1) }
      else convs.get k := by
  induction rs generalizing convs with
  | nil => simp
  | cons u rs ih =>
    rw [List.foldl_cons, ih, notifyConv_get hc]
    by_cases hrest : ∃ w ∈ rs, w ≠ [] ∧ k = keyConv w conv.conversationId
    · obtain ⟨w, hw, hk⟩ := hrest
      rw [if_pos ⟨w, hw, hk⟩, if_pos ⟨w, List.mem_cons_of_mem _ hw, hk⟩]
    · rw [if_neg hrest]
      by_cases hu : u ≠ [] ∧ k = keyConv u conv.conversationId
      · rw [if_pos hu, if_pos ⟨u, List.mem_cons_self, hu⟩]
      · rw [if_neg hu, if_neg]
        rintro ⟨w, hw, hk⟩
        rcases List.mem_cons.mp hw with rfl | hw
        · exact hu hk
        · exact hrest ⟨w, hw, hk⟩

/-- Every record belongs to one user and one conversation, and its counter is right. -/
def CountsRight (convs : ConvDb) (log : List ReadEvent) : Prop :=
  ∀ k v, convs.get k = some v → ∃ u c, u ≠ [] ∧ colon ∉ u ∧ colon ∉ c ∧ k = keyConv u c ∧
    v.conversationId = c ∧ v.unreadCount = unreadSince u c log

/-- A key of the store under the prefix of `u` is a key of `u`. -/
theorem owner_of_prefixConv (hw : colon ∉ w) (hd : colon ∉ d)
    (h : prefixConv u <+: keyConv w d) : u = w := by
  have hcut : prefixConv u = kConv ++ (u ++ [colon]) := by
    simp [prefixConv, str_colon, List.append_assoc]
  rw [hcut, keyConv_eq, List.prefix_append_right_inj] at h
  by_cases hu : colon ∈ u
  · have hle := h.sublist.count_le colon
    have hpos := List.count_pos_iff.mpr hu
    simp [List.count_eq_zero_of_not_mem hw, List.count_eq_zero_of_not_mem hd] at hle
    omega
  · exact (sep_prefix_iff hu hw).mp h

theorem unreadLaw_of_counts (h : CountsRight t.chat.convs t.log) : UnreadLaw t := by
  intro u conv hconv
  unfold ChatService.syncConversations at hconv
  split at hconv
  · cases hconv
  · rename_i hne
    have hlist := (List.mem_filter.mp hconv).1
    rw [getList, if_neg hne] at hlist
    obtain ⟨e, he, rfl⟩ := List.mem_map.mp hlist
    obtain ⟨hget, hp⟩ := OrderedMap.mem_scan.mp (show (e.1, e.2) ∈ _ from he)
    obtain ⟨w, c, _, hw, hc, hk, hid, hcount⟩ := h e.1 e.2 hget
    rw [hk] at hp
    rw [owner_of_prefixConv hw hc hp, hid]
    exact hcount

/-- The entries a message leaves behind: one unread for each receiver, none for the sender. -/
theorem distribute_convs (s : ChatState) (msg : MessageData) (ct : ChatType)
    (hfrom : msg.fromUserId ≠ []) (hc : msg.conversationId ≠ []) (k : Bytes) :
    (ChatService.distribute s msg ct).convs.get k =
      if ∃ w ∈ ChatService.receivers s.groups msg.fromUserId msg.toId ct,
          w ≠ [] ∧ k = keyConv w msg.conversationId then
        some { ChatService.receiverConv msg ct with unreadCount := 1 }
      else if k = keyConv msg.fromUserId msg.conversationId then some (ChatService.senderConv msg)
      else s.convs.get k := by
  have hid : (ChatService.receiverConv msg ct).conversationId = msg.conversationId := by
    cases ct <;> rfl
  have hcount : (ChatService.receiverConv msg ct).unreadCount = 0 := by
    cases ct <;> rfl
  simp only [ChatService.distribute]
  rw [foldl_notifyConv_get (by rw [hid]; exact hc), upsert_get hc, hid, hcount]
  simp only [ne_eq, hfrom, not_false_eq_true, true_and, ChatService.senderConv]
  rfl

/-- `SendMessage` accepts these inputs: ids present, the sender a member, the new id unused. -/
def Accepted (t : Tracked) (a b : Bytes) (ct : ChatType) (r : RandomString 16) : Prop :=
  a ≠ [] ∧ b ≠ [] ∧ (ct = .group → GroupStore.isMember t.chat.groups b a = true) ∧
    t.chat.msgs.get (keyMsg (ChatService.generateMsgId r)) = none

/-- The sends and read marks that keep the counters right. Ids are free of the separator of keys.
An accepted message is not sent to its own sender, finds nothing unread in the conversation for
the sender and all receivers, and reaches everyone who lists the conversation. -/
def UnreadSafe (t : Tracked) : ReadOp → Prop
  | .send a b ct _ r _ => Accepted t a b ct r →
    let c := conversationOf a b ct
    let to_ := ChatService.receivers t.chat.groups a b ct
    colon ∉ a ∧ colon ∉ b ∧ (∀ w ∈ to_, colon ∉ w) ∧ a ∉ to_ ∧
      (∀ w, w = a ∨ w ∈ to_ → unreadSince w c t.log = 0) ∧
      ∀ w, (t.chat.convs.get (keyConv w c)).isSome → w = a ∨ w ∈ to_
  | .markRead u _ _ _ => colon ∉ u

theorem colon_not_mem_conversationOf (ha : colon ∉ a) (hb : colon ∉ b) :
    colon ∉ conversationOf a b ct := by
  have hp : colon ∉ str "p_" := by decide
  have hs : colon ∉ str "_" := by decide
  cases ct with
  | priv =>
    simp only [conversationOf, privateId]
    split <;> simp [ha, hb, hp, hs]
  | group => exact hb

theorem send_counts (h : CountsRight t.chat.convs t.log)
    (hsafe : UnreadSafe t (.send a b ct draft r now)) :
    CountsRight (trackStep t (.send a b ct draft r now)).chat.convs
      (trackStep t (.send a b ct draft r now)).log := by
  obtain ⟨metas, ⟨hf, hs⟩ | ⟨hok, ha, hb, hm, hnew, hs⟩⟩ := sendMessage_cases t.chat a b ct draft r now
  · simp only [trackStep, hf, hs]
    exact h
  · obtain ⟨hca, hcb, hcw, hself, hzero, hall⟩ := hsafe ⟨ha, hb, hm, hnew⟩
    have hlog : (trackStep t (.send a b ct draft r now)).log =
        .sent a (conversationOf a b ct) :: t.log := by
      simp only [trackStep, hok, if_true]
    have hchat : (trackStep t (.send a b ct draft r now)).chat = _ := hs
    rw [hlog, hchat]
    intro k v hk
    rw [distribute_convs _ _ _ ha (conversationOf_ne_nil hb)] at hk
    split at hk
    · rename_i hrec
      obtain ⟨w, hw, hne, rfl⟩ := hrec
      obtain rfl := Option.some.inj hk
      refine ⟨w, _, hne, hcw w hw, colon_not_mem_conversationOf hca hcb, rfl, ?_, ?_⟩
      · cases ct <;> rfl
      · have hother : a ≠ w := fun he => hself (he ▸ hw)
        simp [unreadSince, hother, hzero w (Or.inr hw)]
    · rename_i hrec
      split at hk
      · rename_i hsender
        obtain rfl := Option.some.inj hk
        refine ⟨a, _, ha, hca, colon_not_mem_conversationOf hca hcb, hsender, rfl, ?_⟩
        simp [unreadSince, ChatService.newMessage, hzero a (Or.inl rfl), ChatService.senderConv]
      · rename_i hsender
        obtain ⟨w, d, hne, hw, hd, rfl, hid, hcount⟩ := h k v hk
        refine ⟨w, d, hne, hw, hd, rfl, hid, ?_⟩
        have hother : d ≠ conversationOf a b ct := by
          rintro rfl
          rcases hall w (by rw [hk]; rfl) with rfl | hmem
          · exact hsender rfl
          · exact hrec ⟨w, hmem, hne, rfl⟩
        simp [unreadSince, hcount, hother.symm]

theorem markRead_counts {chat id : Bytes} (h : CountsRight t.chat.convs t.log)
    (hu : colon ∉ u) :
    CountsRight (trackStep t (.markRead u chat ct id)).chat.convs
      (trackStep t (.markRead u chat ct id)).log := by
  by_cases hne : u = [] ∨ chat = []
  · have hs : ChatService.markRead t.chat u chat ct id = (t.chat, false) := if_pos hne
    simp only [trackStep, hs]
    exact h
  · push Not at hne
    have hconv : conversationOf u chat ct ≠ [] := conversationOf_ne_nil hne.2
    obtain ⟨metas, hs⟩ := markRead_state t.chat ct id hne.1 hne.2
    have hres : (ChatService.markRead t.chat u chat ct id).2 =
        (clearUnread t.chat.convs u (conversationOf u chat ct)).2 := by
      obtain ⟨metas', hst⟩ := resolve_state t.chat u chat ct
      simp [ChatService.markRead, hne.1, hne.2, resolve_id hne.1 hne.2, hconv, hst]
    simp only [trackStep, hs, hres]
    cases hold : t.chat.convs.get (keyConv u (conversationOf u chat ct)) with
    | none =>
      have hclear : clearUnread t.chat.convs u (conversationOf u chat ct) = (t.chat.convs, false) := by
        simp [clearUnread, modifyUnread, hne.1, hconv, hold]
      rw [hclear]
      exact h
    | some old =>
      have hclear : clearUnread t.chat.convs u (conversationOf u chat ct) =
          (t.chat.convs.put (keyConv u (conversationOf u chat ct)) { old with unreadCount := 0 },
            true) := by
        simp [clearUnread, modifyUnread, hne.1, hconv, hold]
      rw [hclear]
      intro k v hk
      rcases OrderedMap.get_put_some hk with ⟨hkey, rfl⟩ | ⟨hkey, hk⟩
      · obtain ⟨w, d, hw, hcw, hcd, hwd, hid, _⟩ := h _ _ hold
        obtain ⟨rfl, rfl⟩ := keyConv_inj hu hcw hwd
        exact ⟨u, _, hw, hu, hcd, hkey, hid, by simp [unreadSince]⟩
      · obtain ⟨w, d, hw, hcw, hcd, rfl, hid, hcount⟩ := h k v hk
        refine ⟨w, d, hw, hcw, hcd, rfl, hid, ?_⟩
        have hother : ¬ (u = w ∧ conversationOf u chat ct = d) := by
          rintro ⟨rfl, rfl⟩
          exact hkey rfl
        simp [unreadSince, hcount, hother]

/-- In every run from empty stores in which each accepted message and read mark is safe, every
conversation list shows the right numbers in every state. -/
theorem unread_counts_history (groups : GroupDb) (ops : List ReadOp)
    (hops : AllSteps trackStep UnreadSafe (trackStart groups) ops) :
    Always trackStep UnreadLaw (trackStart groups) ops := by
  have hinv : Always trackStep (fun t => CountsRight t.chat.convs t.log) (trackStart groups) ops := by
    refine always_of_allSteps ?_ ?_ hops
    · intro t op h hsafe
      cases op with
      | send a b ct draft r now => exact send_counts h hsafe
      | markRead u chat ct id => exact markRead_counts h hsafe
    · intro k v hk
      simp [trackStart] at hk
  intro pre hpre
  exact unreadLaw_of_counts (hinv pre hpre)

/-- `a` writes to `b` twice. -/
def twoMessages : List ReadOp :=
  [.send (str "a") (str "b") .priv {} randomA 5,
    .send (str "a") (str "b") .priv {} randomB 6]

/-- The second message starts the counter again: `b` sees one unread message instead of two. -/
theorem unread_restarts :
    ¬ Always trackStep UnreadLaw (trackStart OrderedMap.empty) twoMessages := by
  intro h
  obtain ⟨conv, hconv, hone, htwo⟩ : ∃ conv ∈ ChatService.syncConversations
      (run trackStep (trackStart OrderedMap.empty) twoMessages).chat (str "b"),
      conv.unreadCount = 1 ∧ unreadSince (str "b") conv.conversationId
        (run trackStep (trackStart OrderedMap.empty) twoMessages).log = 2 := by decide
  have hlaw := h.last (str "b") conv hconv
  rw [hone, htwo] at hlaw
  cases hlaw

/-- `a` writes to `b`, `b` reads, and `a` writes again. -/
def readBetween : List ReadOp :=
  [.send (str "a") (str "b") .priv {} randomA 5,
    .markRead (str "b") (str "a") .priv [],
    .send (str "a") (str "b") .priv {} randomB 6]

theorem unread_counts_read_between :
    Always trackStep UnreadLaw (trackStart OrderedMap.empty) readBetween := by
  refine unread_counts_history _ _ ⟨?_, (by decide : colon ∉ str "b"), ?_, trivial⟩
  · intro _
    refine ⟨by decide, by decide, by decide, by decide, ?_, by simp [trackStart]⟩
    intro w _
    rfl
  · intro _
    refine ⟨by decide, by decide, by decide, by decide, ?_, ?_⟩
    · rintro w (rfl | hw)
      · decide
      · rw [List.mem_singleton.mp hw]
        decide
    · intro w hw
      obtain ⟨v, hv⟩ := Option.isSome_iff_exists.mp hw
      have hkeys : ∀ e ∈ (run trackStep (trackStart OrderedMap.empty)
          (readBetween.take 2)).chat.convs.entries,
          e.1 = keyConv (str "a") (str "p_a_b") ∨ e.1 = keyConv (str "b") (str "p_a_b") := by decide
      have hcancel : ∀ x : Bytes, keyConv w (str "p_a_b") = keyConv x (str "p_a_b") → w = x :=
        fun x he => List.append_cancel_left
          (List.append_cancel_right (List.append_cancel_right he))
      rcases hkeys _ (OrderedMap.mem_entries.mpr hv) with he | he
      · exact Or.inl (hcancel _ he)
      · exact Or.inr (List.mem_singleton.mpr (hcancel _ he))

end SwiftChat.Chat
