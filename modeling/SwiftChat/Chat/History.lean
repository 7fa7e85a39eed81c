import SwiftChat.Chat.ChatRun

/-! Which messages a history request can show to which user. -/
namespace SwiftChat.Chat
open Base
variable {db : MsgDb} {pfx c u : Bytes} {cutoff limit : Int} {it : List (Bytes × MsgValue)}
  {keys : List Bytes} {id : Bytes} {m : MessageData} {s : ChatState} {ct : ChatType}
  {T : Int → Prop} {e : Bytes × MsgValue} {n : Nat}

/-- The message id the loop of `GetHistory` takes from a key, if it takes one. -/
def historyEntry (pfx : Bytes) (cutoff : Int) (key : Bytes) : Option Bytes :=
  if (parseChatKey key pfx).1.length ≠ 13 then none
  else match stoll (parseChatKey key pfx).1 with
    | none => none
    | some r => if cutoff ≥ 0 ∧ r ≤ cutoff then none else some (parseChatKey key pfx).2

theorem historyLoop_cons (hp : pfx.isPrefixOf e.1 = true) :
    historyLoop pfx cutoff limit (e :: it) keys =
      match historyEntry pfx cutoff e.1 with
      | none => historyLoop pfx cutoff limit it keys
      | some id =>
        if ((keys ++ [id]).length : Int) ≥ limit then keys ++ [id]
        else historyLoop pfx cutoff limit it (keys ++ [id]) := by
  simp only [historyLoop, hp, not_true_eq_false, if_false, historyEntry]
  by_cases hlen : (parseChatKey e.1 pfx).1.length = 13
  · simp only [hlen, ne_eq, not_true_eq_false, if_false]
    cases stoll (parseChatKey e.1 pfx).1 with
    | none => rfl
    | some r => by_cases hr : cutoff ≥ 0 ∧ r ≤ cutoff <;> simp [hr]
  · simp [hlen]

/-- The loop collects the first ids it can take from the entries under the prefix. -/
theorem historyLoop_eq (hn : limit = ((keys.length + (n + 1) : Nat) : Int)) :
    historyLoop pfx cutoff limit it keys =
      keys ++ ((it.takeWhile (fun e => pfx.isPrefixOf e.1)).filterMap
        (fun e => historyEntry pfx cutoff e.1)).take (n + 1) := by
  induction it generalizing keys n with
  | nil => simp [historyLoop]
  | cons e it ih =>
    by_cases hp : pfx.isPrefixOf e.1 = true
    · rw [historyLoop_cons hp]
      simp only [List.takeWhile_cons, hp, if_true]
      cases hid : historyEntry pfx cutoff e.1 with
      | none =>
        simp only [List.filterMap_cons, hid]
        exact ih hn
      | some id =>
        simp only [List.filterMap_cons, hid, List.take_succ_cons]
        cases n with
        | zero =>
          rw [if_pos (by simp [hn])]
          rfl
        | succ n =>
          have hmore : ¬ ((keys ++ [id]).length : Int) ≥ limit := by
            rw [hn, List.length_append, List.length_singleton]
            omega
          rw [if_neg hmore, ih (n := n) (by rw [hn, List.length_append, List.length_singleton]; omega)]
          simp
    · simp [historyLoop, hp]

theorem historyFrom_eq (c : Bytes) (cutoff : Int) (n : Nat) :
    historyFrom db c cutoff (n + 1 : Nat) =
      (((db.scan (prefixChat c)).filterMap (fun e => historyEntry (prefixChat c) cutoff e.1)).take
        (n + 1)).filterMap (getById db) := by
  rw [historyFrom, historyLoop_eq (n := n) (by simp)]
  rfl

theorem length_indexKey (index o : Bytes) (t : Int) (id : Bytes) :
    (indexKey index o t id).length = index.length + o.length + 15 + id.length := by
  simp only [indexKey_eq, indexPrefix, str_colon, List.length_append, List.length_cons,
    List.length_nil, length_revTs]
  omega

/-- Ids have one length, so an entry that leads to a message belongs to the timeline it is read
from, even where one conversation id continues another. -/
theorem entry_of_lookup (h : WellFormed (fun _ => True) (MessageOk T) db)
    (he : e ∈ db.scan (prefixChat c)) (hid : (parseChatKey e.1 (prefixChat c)).2 = id)
    (hg : getById db id = some m) : timelineId m = c := by
  obtain ⟨hget, hp⟩ := OrderedMap.mem_scan.mp (show (e.1, e.2) ∈ _ from he)
  obtain ⟨_, m', hg', hk⟩ := h.chat hget ((kChat_isPrefix c).trans hp)
  obtain ⟨rfl, hm⟩ := h.message hg
  have hm' := (h.message hg').2
  -- the two readings of the key have the same length, hence the same owner
  have hlen := length_indexKey kChat (timelineId m') m'.timestamp m'.msgId
  have hread : m.msgId = e.1.drop ((prefixChat c).length + 14) := by
    rw [← hid, parseChatKey, parseIndexKey]
    split
    · rename_i hshort
      have hnil : m.msgId = [] := by
        rw [← hid, parseChatKey, parseIndexKey]
        simp [hshort]
      exact absurd hnil (get_of_getById hg).1
    · rfl
  have hlen' := congrArg List.length hread
  rw [List.length_drop, hm.id_length, hk] at hlen'
  have hpfx : (prefixChat c).length = kChat.length + c.length + 1 := by
    simp [prefixChat, indexPrefix, str_colon, Nat.add_assoc]
  have hsame : c.length = (timelineId m').length := by
    have hkl : (keyChat (timelineId m') m'.timestamp m'.msgId).length = _ := hlen
    rw [hkl, hm'.id_length] at hlen'
    omega
  have howner : c = timelineId m' := by
    rw [hk] at hp
    exact owner_eq_of_length hsame hp
  have hown : parseChatKey e.1 (prefixChat c) = (revTs m'.timestamp, m'.msgId) := by
    rw [hk, howner]
    exact parse_indexKey _ _ _ (get_of_getById hg').1
  have hmm : m'.msgId = m.msgId := by rw [← hid, hown]
  rw [← hmm, hg'] at hg
  rw [howner, Option.some.inj hg]

theorem historyEntry_id (h : historyEntry pfx cutoff e.1 = some id) :
    (parseChatKey e.1 pfx).2 = id := by
  unfold historyEntry at h
  split at h
  · cases h
  · split at h
    · cases h
    · split at h
      · cases h
      · exact Option.some.inj h

theorem mem_historyFrom (h : WellFormed (fun _ => True) (MessageOk T) db) (hl : 0 < limit)
    (hm : m ∈ historyFrom db c cutoff limit) :
    getById db m.msgId = some m ∧ m.conversationId = c := by
  obtain ⟨n, rfl⟩ : ∃ n : Nat, limit = (n + 1 : Nat) := ⟨limit.toNat - 1, by omega⟩
  rw [historyFrom_eq] at hm
  obtain ⟨id, hid, hg⟩ := List.mem_filterMap.mp hm
  obtain ⟨e, he, hentry⟩ := List.mem_filterMap.mp (List.mem_of_mem_take hid)
  obtain ⟨rfl, hok⟩ := h.message hg
  exact ⟨hg, hok.timelineId ▸ entry_of_lookup h he (historyEntry_id hentry) hg⟩

/-- Only messages of the requested conversation are returned. -/
theorem mem_getHistory {before : Bytes} (h : WellFormed (fun _ => True) (MessageOk T) db)
    (hm : m ∈ getHistory db c before limit) :
    getById db m.msgId = some m ∧ m.conversationId = c := by
  unfold getHistory at hm
  split at hm
  · cases hm
  · rename_i hgo
    push Not at hgo
    split at hm
    · exact mem_historyFrom h hgo.2 hm
    · split at hm
      · cases hm
      · split at hm
        · cases hm
        · exact mem_historyFrom h hgo.2 hm

/-- Every message of a conversation is returned by some request for it. -/
theorem getHistory_complete (h : WellFormed (fun _ => True) (MessageOk T) db)
    (hg : getById db m.msgId = some m) :
    m ∈ getHistory db m.conversationId []
      (((db.scan (prefixChat m.conversationId)).length + 1 : Nat) : Int) := by
  have hok := (h.message hg).2
  have hpos : ¬ (m.conversationId = [] ∨
      (((db.scan (prefixChat m.conversationId)).length + 1 : Nat) : Int) ≤ 0) := by
    rintro (he | he)
    · exact hok.conversationId_ne_nil he
    · omega
  rw [getHistory, if_neg hpos, if_pos rfl, historyFrom_eq]
  refine List.mem_filterMap.mpr ⟨m.msgId, ?_, hg⟩
  rw [List.take_of_length_le ((List.length_filterMap_le _ _).trans (Nat.le_succ _))]
  have hkey := h.indexed hg
  rw [hok.timelineId] at hkey
  refine List.mem_filterMap.mpr ⟨_, OrderedMap.mem_scan.mpr ⟨hkey, indexPrefix_isPrefix _ _ _ _⟩, ?_⟩
  have hparse : parseChatKey (keyChat m.conversationId m.timestamp m.msgId)
      (prefixChat m.conversationId) = (revTs m.timestamp, m.msgId) :=
    parse_indexKey _ _ _ (get_of_getById hg).1
  simp [historyEntry, hparse, stoll_revTs]

/-- A user takes part in a message: one end of a private chat, or a member of the group now. -/
def TakesPart (groups : GroupDb) (u : Bytes) (m : MessageData) : Prop :=
  (m.chatType = 1 ∧ (m.fromUserId = u ∨ m.toId = u)) ∨
    (m.chatType = 2 ∧ GroupStore.isMember groups m.toId u = true)

def Dissolved (groups : GroupDb) (g : Bytes) : Prop :=
  (GroupStore.getGroup groups g).any (fun g => g.status = 1) = true

/-- When a request shows `u` nothing of others. A private chat is safe while no other pair of
users shares its id. A group chat is safe for members, once the group is dissolved, and where the
id names no group timeline and all it holds is private to `u`. -/
def HistoryAllowed (s : ChatState) (u chatId : Bytes) : ChatType → Prop
  | .priv => chatId = [] ∨ ∀ m, getById s.msgs m.msgId = some m → m.chatType = 1 →
      privateId m.fromUserId m.toId = privateId u chatId → m.fromUserId = u ∨ m.toId = u
  | .group => chatId = [] ∨ GroupStore.isMember s.groups chatId u = true ∨
      Dissolved s.groups chatId ∨
      ∀ m, getById s.msgs m.msgId = some m → m.conversationId = chatId →
        m.chatType = 1 ∧ (m.fromUserId = u ∨ m.toId = u)

theorem getHistory_private (hu : u ≠ []) (hc : c ≠ []) {before : Bytes} (hl : 0 < limit) :
    (ChatService.getHistory s u c .priv before limit).2 =
      getHistory s.msgs (privateId u c) before limit := by
  obtain ⟨metas, hres⟩ := resolve_state s u c .priv
  have hid : (ChatService.resolveConversationId s u c .priv).2 = privateId u c := resolve_id hu hc
  simp [ChatService.getHistory, hc, not_le_of_gt hl, hid, privateId_ne_nil, hres]

theorem resolve_group (hc : c ≠ []) : ChatService.resolveConversationId s u c .group = (s, c) := by
  simp [ChatService.resolveConversationId, hc]

theorem getHistory_group (hc : c ≠ []) (hd : ¬ Dissolved s.groups c) {before : Bytes}
    (hl : 0 < limit) :
    (ChatService.getHistory s u c .group before limit).2 = getHistory s.msgs c before limit := by
  simp only [ChatService.getHistory, resolve_group hc]
  rw [if_neg (by push Not; exact ⟨hc, hl⟩), if_neg hc, if_neg (fun hd' => hd hd'.2)]

theorem getHistory_dissolved (hd : Dissolved s.groups c) {before : Bytes} :
    (ChatService.getHistory s u c .group before limit).2 = [] := by
  by_cases hgo : c = [] ∨ limit ≤ 0
  · simp [ChatService.getHistory, hgo]
  · push Not at hgo
    simp only [ChatService.getHistory, resolve_group hgo.1]
    rw [if_neg (by push Not; exact hgo), if_neg hgo.1, if_pos ⟨trivial, hd⟩]

theorem getHistory_none {before : Bytes} (h : c = [] ∨ limit ≤ 0) :
    (ChatService.getHistory s u c ct before limit).2 = [] := by
  simp [ChatService.getHistory, h]

theorem priv_visible_iff (h : ChatOk T s) (hu : u ≠ []) :
    (∀ before limit, ∀ m ∈ (ChatService.getHistory s u c .priv before limit).2,
      TakesPart s.groups u m) ↔ HistoryAllowed s u c .priv := by
  constructor
  · intro hall
    by_cases hc : c = []
    · exact Or.inl hc
    · refine Or.inr ?_
      intro m hg ht hsame
      have hok := (h.msgs.message hg).2
      have hconv : m.conversationId = privateId u c := by
        rcases hok.kind with ⟨_, hk⟩ | ⟨h2, _⟩
        · exact hk.trans hsame
        · rw [h2] at ht
          cases ht
      have hin := getHistory_complete h.msgs hg
      rw [hconv, ← getHistory_private (s := s) hu hc (by omega)] at hin
      rcases hall _ _ m hin with ⟨_, hend⟩ | ⟨h2, _⟩
      · exact hend
      · rw [h2] at ht
        cases ht
  · intro hallow before limit m hm
    by_cases hnone : c = [] ∨ limit ≤ 0
    · rw [getHistory_none hnone] at hm
      cases hm
    · push Not at hnone
      rw [getHistory_private hu hnone.1 hnone.2] at hm
      obtain ⟨hg, hconv⟩ := mem_getHistory h.msgs hm
      rcases (h.msgs.message hg).2.kind with ⟨h1, hk⟩ | ⟨_, hk, hpre⟩
      · rcases hallow with hc | hallow
        · exact absurd hc hnone.1
        · exact Or.inl ⟨h1, hallow m hg h1 (hk.symm.trans hconv)⟩
      · -- a group id never looks like a private one
        rw [← hk, hconv] at hpre
        exact absurd hpre (not_group_privateId _ _)

theorem group_visible_iff (h : ChatOk T s) :
    (∀ before limit, ∀ m ∈ (ChatService.getHistory s u c .group before limit).2,
      TakesPart s.groups u m) ↔ HistoryAllowed s u c .group := by
  constructor
  · intro hall
    by_cases hc : c = []
    · exact Or.inl hc
    · by_cases hmem : GroupStore.isMember s.groups c u = true
      · exact Or.inr (Or.inl hmem)
      · by_cases hdis : Dissolved s.groups c
        · exact Or.inr (Or.inr (Or.inl hdis))
        · refine Or.inr (Or.inr (Or.inr ?_))
          intro m hg hconv
          have hin := getHistory_complete h.msgs hg
          rw [hconv] at hin
          rw [← getHistory_group (u := u) hc hdis (by omega)] at hin
          rcases hall _ _ m hin with hpart | ⟨h2, hpart⟩
          · exact hpart
          · rcases (h.msgs.message hg).2.kind with ⟨h1, _⟩ | ⟨_, hk, _⟩
            · rw [h1] at h2
              cases h2
            · rw [← hk, hconv] at hpart
              exact absurd hpart hmem
  · intro hallow before limit m hm
    by_cases hnone : c = [] ∨ limit ≤ 0
    · rw [getHistory_none hnone] at hm
      cases hm
    · push Not at hnone
      by_cases hdis : Dissolved s.groups c
      · rw [getHistory_dissolved hdis] at hm
        cases hm
      · rw [getHistory_group hnone.1 hdis hnone.2] at hm
        obtain ⟨hg, hconv⟩ := mem_getHistory h.msgs hm
        rcases hallow with hc | hmem | hd | hpriv
        · exact absurd hc hnone.1
        · rcases (h.msgs.message hg).2.kind with ⟨_, hk⟩ | ⟨h2, hk, _⟩
          · -- members are only found under ids that look like a group's
            have hlooks := h.groups.of_isMember hmem
            rw [← hconv, hk] at hlooks
            exact absurd hlooks (not_group_privateId _ _)
          · exact Or.inr ⟨h2, by rw [← hk, hconv]; exact hmem⟩
        · exact absurd hd hdis
        · exact Or.inl (hpriv m hg hconv)

/-- In every reachable state, all that history requests of `u` for one chat return is of
conversations `u` takes part in exactly when the chat is allowed. -/
theorem getHistory_visible_iff (ops : List ChatOp) (u : Bytes) (hu : u ≠ []) (chatId : Bytes)
    (chatType : ChatType) :
    (∀ before limit, ∀ m ∈ (ChatService.getHistory (chatAfter ops) u chatId chatType before
      limit).2, TakesPart (chatAfter ops).groups u m) ↔
      HistoryAllowed (chatAfter ops) u chatId chatType := by
  have h : ChatOk (fun _ => True) (chatAfter ops) := chatAfter_ok (fun op _ => by cases op <;> trivial)
  cases chatType with
  | priv => exact priv_visible_iff h hu
  | group => exact group_visible_iff h

/-- One private message from `a` to `b`. -/
def sampleChat : List ChatOp := [.send (str "a") (str "b") .priv {} randomA 5]

def sampleMessage : MessageData :=
  ChatService.newMessage (str "a") (str "b") (str "p_a_b") .priv {} randomA 5

/-- A third user asks for the private chat as if its id were a group and gets the message. -/
theorem getHistory_leaks_private :
    ∃ m ∈ (ChatService.getHistory (chatAfter sampleChat) (str "e") (str "p_a_b") .group [] 10).2,
      ¬ TakesPart (chatAfter sampleChat).groups (str "e") m := by
  refine ⟨sampleMessage, by decide, ?_⟩
  rintro (⟨_, h | h⟩ | ⟨h, _⟩)
  · exact absurd h (by decide)
  · exact absurd h (by decide)
  · exact absurd h (by decide)

/-- Its receiver asks for it and takes part in it. -/
theorem getHistory_visible_private :
    sampleMessage ∈ (ChatService.getHistory (chatAfter sampleChat) (str "b") (str "a") .priv []
      10).2 ∧ TakesPart (chatAfter sampleChat).groups (str "b") sampleMessage := by
  have hin : sampleMessage ∈ (ChatService.getHistory (chatAfter sampleChat) (str "b") (str "a")
      .priv [] 10).2 := by decide
  refine ⟨hin, (getHistory_visible_iff sampleChat (str "b") (by decide) (str "a") .priv).mpr
    (Or.inr ?_) [] 10 sampleMessage hin⟩
  intro m hg _ _
  have hval : ∀ e ∈ (chatAfter sampleChat).msgs.entries,
      e.2 = .message sampleMessage ∨ e.2 = .empty := by decide
  rcases hval _ (OrderedMap.mem_entries.mpr (get_of_getById hg).2) with h | h
  · rw [MsgValue.message.inj h]
    exact Or.inr rfl
  · cases h

end SwiftChat.Chat
