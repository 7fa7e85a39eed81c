import SwiftChat.Chat.ConvInvariant
import SwiftChat.Chat.History

/-! What a send by a third party changes of the data two other users see. -/
namespace SwiftChat.Chat
open Base
variable {db db' : MsgDb} {s s' : ChatState} {a b c t u k id before : Bytes} {ct : ChatType}
  {draft : ChatService.Draft} {r : RandomString 16} {now limit cutoff : Int} {us : List Bytes}
  {T : Int → Prop}

/-- A history depends on the timeline entries and on the messages they lead to. -/
theorem historyFrom_congr (hl : 0 < limit)
    (hscan : ∀ k, prefixChat u <+: k → db'.get k = db.get k)
    (hfound : ∀ e ∈ db.scan (prefixChat u),
      getById db' (parseChatKey e.1 (prefixChat u)).2 =
        getById db (parseChatKey e.1 (prefixChat u)).2) :
    historyFrom db' u cutoff limit = historyFrom db u cutoff limit := by
  obtain ⟨n, rfl⟩ : ∃ n : Nat, limit = (n + 1 : Nat) := ⟨limit.toNat - 1, by omega⟩
  rw [historyFrom_eq, historyFrom_eq, OrderedMap.scan_congr hscan]
  apply List.filterMap_congr
  intro id hid
  obtain ⟨e, he, hentry⟩ := List.mem_filterMap.mp (List.mem_of_mem_take hid)
  rw [← historyEntry_id hentry]
  exact hfound e he

/-- When a send by `c` to `t` stays out of the data of `a` and `b`: a group that does not exist
refuses it, its timeline entry does not fall under the prefix of their conversation, its target is
not that conversation's id, and no conversation entry it writes falls under the prefix of `a`
except that of `a` and `c`, which holds no other conversation. -/
structure Apart (a b : Bytes) (s : ChatState) (c t : Bytes) (ct : ChatType) (r : RandomString 16)
    (now : Int) : Prop where
  refused : ct = .group → GroupStore.isMember s.groups t c = false
  timeline : ¬ prefixChat (privateId a b) <+:
    keyChat (privateId c t) now (ChatService.generateMsgId r)
  cursor : t ≠ privateId a b
  sender : ¬ prefixConv a <+: keyConv c (privateId c t)
  target : t ≠ a → ¬ prefixConv a <+: keyConv t (privateId c t)
  entry : ∀ v ∈ s.convs.get (keyConv a (privateId a c)), v.conversationId = privateId a c

/-- What `a` and `b` see of one step of a run: nothing of what a third party sends to no group,
except the entry of its conversation with `a`. -/
def Unseen (a b : Bytes) (s : ChatState) : ChatOp → Prop
  | .send c t ct draft r now =>
    c ≠ a → c ≠ b → GroupStore.getGroup s.groups t = none →
      (∀ before limit,
        (ChatService.getHistory (ChatService.sendMessage s c t ct draft r now).1 a b .priv before
          limit).2 = (ChatService.getHistory s a b .priv before limit).2) ∧
      (t ≠ a → getList (ChatService.sendMessage s c t ct draft r now).1.convs a =
        getList s.convs a) ∧
      (t = a → (getList (ChatService.sendMessage s c t ct draft r now).1.convs a).filter
          (fun e => e.conversationId ≠ privateId a c) =
        (getList s.convs a).filter (fun e => e.conversationId ≠ privateId a c))
  | _ => True

/-- The condition on one step of a run. -/
def StaysApart (a b : Bytes) (s : ChatState) : ChatOp → Prop
  | .send c t ct _ r now =>
    c ≠ a → c ≠ b → GroupStore.getGroup s.groups t = none → Apart a b s c t ct r now
  | _ => True

/-- A refused send changes at most the registry. -/
theorem sendMessage_refused (hm : GroupStore.isMember s.groups t c = false) :
    (ChatService.sendMessage s c t .group draft r now).1 = s := by
  unfold ChatService.sendMessage
  split
  · rfl
  · simp [hm]

/-- Entries under the prefix lead to other messages than the new one. -/
theorem send_lookup_same
    (hok : ChatOk T (ChatService.sendMessage s c t .priv draft r now).1)
    (hk : ¬ prefixChat u <+: keyChat (privateId c t) now (ChatService.generateMsgId r))
    {e : Bytes × MsgValue}
    (he : e ∈ (ChatService.sendMessage s c t .priv draft r now).1.msgs.scan (prefixChat u)) :
    getById (ChatService.sendMessage s c t .priv draft r now).1.msgs
        (parseChatKey e.1 (prefixChat u)).2 =
      getById s.msgs (parseChatKey e.1 (prefixChat u)).2 := by
  by_cases hid : (parseChatKey e.1 (prefixChat u)).2 = ChatService.generateMsgId r
  · obtain ⟨metas, ⟨_, hs⟩ | ⟨hsucc, _, ht, _, _, hs⟩⟩ := sendMessage_cases s c t .priv draft r now
    · rw [hs]
    · -- such an entry would be the one of the new message
      have hstored := (send_stored hsucc).2
      have hown := entry_of_lookup hok.msgs he hid hstored
      have htl : timelineId (ChatService.newMessage c t (privateId c t) .priv draft r now) =
          privateId c t := if_neg (privateId_ne_nil c t)
      have hu : privateId c t = u := htl.symm.trans hown
      rw [hu] at hk
      exact absurd (indexPrefix_isPrefix _ _ _ _) hk
  · exact send_getById_other hid

theorem send_timeline_same
    (hk : ¬ prefixChat u <+: keyChat (privateId c t) now (ChatService.generateMsgId r))
    (hp : prefixChat u <+: k) :
    s.msgs.get k = (ChatService.sendMessage s c t .priv draft r now).1.msgs.get k := by
  have hhead := head_of_kChat ((kChat_isPrefix u).trans hp)
  refine (send_get_other ?_ ?_ ?_).symm
  · intro h
    rw [head_of_kOffline h] at hhead
    cases hhead
  · intro h
    rw [h, head_keyMsg] at hhead
    cases hhead
  · intro h
    rw [h] at hp
    exact hk hp

/-- A page of a conversation the new message does not touch. -/
theorem send_historyFrom
    (hok : ChatOk T (ChatService.sendMessage s c t .priv draft r now).1)
    (hk : ¬ prefixChat u <+: keyChat (privateId c t) now (ChatService.generateMsgId r))
    (hl : 0 < limit) :
    historyFrom (ChatService.sendMessage s c t .priv draft r now).1.msgs u cutoff limit =
      historyFrom s.msgs u cutoff limit := by
  refine (historyFrom_congr hl (fun k hp => send_timeline_same hk hp) ?_).symm
  intro e he
  exact (send_lookup_same hok hk he).symm

theorem send_getHistory
    (hok : ChatOk T (ChatService.sendMessage s c t .priv draft r now).1)
    (hk : ¬ prefixChat u <+: keyChat (privateId c t) now (ChatService.generateMsgId r))
    (ht : t ≠ u) :
    getHistory (ChatService.sendMessage s c t .priv draft r now).1.msgs u before limit =
      getHistory s.msgs u before limit := by
  unfold getHistory
  split
  · rfl
  · rename_i hgo
    push Not at hgo
    simp only [send_historyFrom hok hk hgo.2]
    split
    · rfl
    · by_cases hid : before = ChatService.generateMsgId r
      · obtain ⟨metas, ⟨_, hs⟩ | ⟨hsucc, _, _, _, hnew, _⟩⟩ :=
          sendMessage_cases s c t .priv draft r now
        · rw [hs]
        · -- the new message is of another conversation, so it is no place to start from
          have hold : getById s.msgs before = none := by
            simp [getById, hid, hnew]
          have hconv : privateId c t ≠ u := by
            rintro rfl
            exact hk (indexPrefix_isPrefix _ _ _ _)
          rw [hold, hid, (send_stored hsucc).2]
          simp [ChatService.newMessage, conversationOf, hconv, ht]
      · rw [send_getById_other hid]

/-- What a private send does to one key of the conversation lists. -/
theorem send_convs_other (hc : k ≠ keyConv c (privateId c t)) (ht : k ≠ keyConv t (privateId c t)) :
    (ChatService.sendMessage s c t .priv draft r now).1.convs.get k = s.convs.get k := by
  obtain ⟨metas, ⟨_, hs⟩ | ⟨_, hcne, _, _, _, hs⟩⟩ := sendMessage_cases s c t .priv draft r now
  · rw [hs]
  · rw [hs, distribute_convs _ _ _ hcne (privateId_ne_nil c t), if_neg, if_neg]
    · exact hc
    · rintro ⟨w, hw, _, hk⟩
      rw [List.mem_singleton.mp hw] at hk
      exact ht hk

/-- No entry of `a` changes when neither side's entry falls under its prefix. -/
theorem send_getList (hsender : ¬ prefixConv a <+: keyConv c (privateId c t))
    (htarget : ¬ prefixConv a <+: keyConv t (privateId c t)) :
    getList (ChatService.sendMessage s c t .priv draft r now).1.convs a = getList s.convs a := by
  unfold getList
  split
  · rfl
  · congr 1
    apply OrderedMap.scan_congr
    intro k hp
    apply send_convs_other
    · rintro rfl
      exact hsender hp
    · rintro rfl
      exact htarget hp

/-- An entry after a private send is an old one or one of that conversation. -/
theorem send_convs_value {v : ConversationData}
    (hv : v ∈ (ChatService.sendMessage s c t .priv draft r now).1.convs.get k) :
    v ∈ s.convs.get k ∨ v.conversationId = privateId c t := by
  obtain ⟨metas, ⟨_, hs⟩ | ⟨_, hcne, _, _, _, hs⟩⟩ := sendMessage_cases s c t .priv draft r now
  · rw [hs] at hv
    exact Or.inl hv
  · rw [hs, distribute_convs _ _ _ hcne (privateId_ne_nil c t)] at hv
    split at hv
    · obtain rfl := Option.some.inj hv
      exact Or.inr rfl
    · split at hv
      · obtain rfl := Option.some.inj hv
        exact Or.inr rfl
      · exact Or.inl hv

/-- A send to `a` itself changes at most the entry of `a` and the sender. -/
theorem send_getList_own (hsender : ¬ prefixConv a <+: keyConv c (privateId c a))
    (hentry : ∀ v ∈ s.convs.get (keyConv a (privateId a c)), v.conversationId = privateId a c) :
    (getList (ChatService.sendMessage s c a .priv draft r now).1.convs a).filter
        (fun e => e.conversationId ≠ privateId a c) =
      (getList s.convs a).filter (fun e => e.conversationId ≠ privateId a c) := by
  unfold getList
  split
  · rfl
  · apply OrderedMap.scan_filter_congr (keyConv a (privateId a c))
    · intro k hp hk
      apply send_convs_other
      · rintro rfl
        exact hsender hp
      · rw [privateId_comm c a]
        exact hk
    · intro v hv
      rcases send_convs_value hv with hv | hv
      · simp [hentry v hv]
      · simp [hv, privateId_comm c a]
    · intro v hv
      simp [hentry v hv]

theorem getHistory_empty (h : a = [] ∨ b = []) :
    (ChatService.getHistory s a b .priv before limit).2 = [] := by
  unfold ChatService.getHistory
  split
  · rfl
  · rename_i hgo
    push Not at hgo
    rcases h with h | h
    · simp [ChatService.resolveConversationId, hgo.1, getOrCreatePrivateConversation, h]
    · exact absurd h hgo.1

theorem send_history (hok : ChatOk T (ChatService.sendMessage s c t .priv draft r now).1)
    (h : Apart a b s c t .priv r now) (before : Bytes) (limit : Int) :
    (ChatService.getHistory (ChatService.sendMessage s c t .priv draft r now).1 a b .priv before
      limit).2 = (ChatService.getHistory s a b .priv before limit).2 := by
  by_cases hne : a = [] ∨ b = []
  · rw [getHistory_empty hne, getHistory_empty hne]
  · push Not at hne
    rcases lt_or_ge 0 limit with hl | hl
    · rw [getHistory_private hne.1 hne.2 hl, getHistory_private hne.1 hne.2 hl]
      exact send_getHistory hok h.timeline h.cursor
    · rw [getHistory_none (Or.inr hl), getHistory_none (Or.inr hl)]

/-- One step in a reachable state. -/
theorem unseen_of_staysApart {op : ChatOp} (hok : ChatOk (fun _ => True) s)
    (h : StaysApart a b s op) : Unseen a b s op := by
  cases op with
  | send c t ct draft r now =>
    intro hca hcb hgroup
    have hap := h hca hcb hgroup
    cases ct with
    | priv =>
      have hclock : (ChatOp.send c t .priv draft r now).ClockIn (fun _ => True) := trivial
      have hok' : ChatOk (fun _ => True) (ChatService.sendMessage s c t .priv draft r now).1 :=
        chatStep_ok hok hclock
      refine ⟨send_history hok' hap, ?_, ?_⟩
      · intro hta
        exact send_getList hap.sender (hap.target hta)
      · rintro rfl
        exact send_getList_own hap.sender hap.entry
    | group =>
      rw [sendMessage_refused (hap.refused rfl)]
      exact ⟨fun _ _ => rfl, fun _ => rfl, fun _ => rfl⟩
  | recallMessage id u now => trivial
  | getHistory u d ct id limit => trivial
  | markRead u d ct id => trivial
  | deleteConversation u d ct => trivial
  | group op => trivial

/-- In every run in which the sends of third parties stay apart from the data of `a` and `b`, these
sends change nothing `a` and `b` see of each other, and of the list of `a` only the entry of the
conversation with the sender, when `a` is the target. -/
theorem third_party_unseen (a b : Bytes) (ops : List ChatOp)
    (h : AllSteps chatStep (StaysApart a b) {} ops) : AllSteps chatStep (Unseen a b) {} ops := by
  refine AllSteps.imp (I := ChatOk (fun _ => True)) ?_ ?_ ⟨wellFormed_empty, groupsOk_empty⟩ h
  · intro s op hs _
    exact chatStep_ok hs (by cases op <;> trivial)
  · intro s op hs hop
    exact unseen_of_staysApart hs hop

/-! Ids of one length without the separator, as the services generate them, stay apart. -/

theorem privateId_ne_of_length (ha : a.length = c.length) (hb : b.length = c.length) (hca : c ≠ a)
    (hcb : c ≠ b) : privateId a b ≠ privateId c t := by
  have key : ∀ {x y : Bytes}, x.length = c.length → y.length = c.length → c ≠ x → c ≠ y →
      str "p_" ++ x ++ str "_" ++ y ≠ privateId c t := by
    intro x y hx hy hcx hcy he
    unfold privateId at he
    split at he
    · exact hcy (List.append_inj_right' he hy).symm
    · simp only [List.append_assoc] at he
      exact hcx (List.append_inj_left (List.append_cancel_left he) hx).symm
  unfold privateId
  split
  · exact key hb ha hcb hca
  · exact key ha hb hca hcb

theorem colon_notMem_privateId (ha : colon ∉ a) (hb : colon ∉ b) : colon ∉ privateId a b := by
  have hp : colon ∉ str "p_" := by decide
  have hu : colon ∉ str "_" := by decide
  unfold privateId
  split <;> simp [ha, hb, hp, hu]

theorem prefixConv_isPrefix_iff {d : Bytes} (ha : colon ∉ a) (hc : colon ∉ c) :
    prefixConv a <+: keyConv c d ↔ a = c := by
  rw [prefixConv, str_colon, keyConv_eq, List.append_assoc, List.prefix_append_right_inj]
  exact sep_prefix_iff ha hc

/-- A key with two plain fields was built from them, whatever the fields it was built from. -/
theorem keyConv_plain {d e : Bytes} (ha : colon ∉ a) (hd : colon ∉ d) (h : keyConv a d = keyConv u e) :
    d = e := by
  rw [keyConv_eq, keyConv_eq] at h
  have htail := List.append_cancel_left h
  have hcount := congrArg (List.count colon) htail
  simp only [List.count_append, List.count_cons_self, List.count_eq_zero.mpr ha,
    List.count_eq_zero.mpr hd] at hcount
  have hu : colon ∉ u := List.count_eq_zero.mp (by omega)
  exact (append_sep_inj ha hu htail).2

theorem apart_of_plain (hok : ConvsOk s) (ha : colon ∉ a) (hb : colon ∉ b) (hc : colon ∉ c)
    (ht : colon ∉ t) (hac : a.length = c.length) (hbc : b.length = c.length) (hca : c ≠ a)
    (hcb : c ≠ b) (htarget : t ≠ privateId a b) : Apart a b s c t .priv r now where
  refused h := by cases h
  timeline := by
    intro hp
    exact privateId_ne_of_length hac hbc hca hcb
      (owner_eq_of_isPrefix (colon_notMem_privateId ha hb) (colon_notMem_privateId hc ht) hp)
  cursor := htarget
  sender := by
    rw [prefixConv_isPrefix_iff ha hc]
    exact hca.symm
  target := by
    intro hta
    rw [prefixConv_isPrefix_iff ha ht]
    exact hta.symm
  entry := by
    intro v hv
    obtain ⟨u, _, hk⟩ := hok.filed _ v hv
    exact (keyConv_plain ha (colon_notMem_privateId ha hc) hk).symm

/-- A message from `a` to `b`, then one from `c` to `a`. -/
def plainSends : List ChatOp :=
  [.send (str "a") (str "b") .priv {} randomA 5, .send (str "c") (str "a") .priv {} randomC 6]

theorem plain_sends_unseen : AllSteps chatStep (Unseen (str "a") (str "b")) {} plainSends := by
  apply third_party_unseen
  refine ⟨fun h => absurd rfl h, ?_, trivial⟩
  intro hca hcb _
  exact apart_of_plain (convsOk_empty.chatStep _) (by decide) (by decide) (by decide) (by decide)
    rfl rfl hca hcb (by decide)

/-- A message from `a` to `b`, then one from `c` to a target that continues their conversation. -/
def forgedSends : List ChatOp :=
  [.send (str "a") (str "b") .priv {} randomA 5,
    .send (str "c") (str "a_b:0000000000000:x") .priv {} randomC 6]

/-- The entry of `c` comes first in the timeline of `a` and `b` and leads to no message: the newest
page of size one turns empty. -/
theorem forged_target_seen : ¬ AllSteps chatStep (Unseen (str "a") (str "b")) {} forgedSends := by
  rintro ⟨_, hsend, _⟩
  have hsame := (hsend (by decide) (by decide) (by decide)).1 [] 1
  exact absurd hsame (by decide)

end SwiftChat.Chat
