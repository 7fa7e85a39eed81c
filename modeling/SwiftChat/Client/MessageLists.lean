import SwiftChat.Client.MainWindow

/-! When the lists of the main window hold a message once. -/
namespace SwiftChat.Client
open Base
variable {w : MainWindow} {key id : Bytes} {msg : Message} {messages : List Message} {s : PendingSend}
  {sends : List PendingSend} {raised : List Raise} {r : Raise} {ids ids' : Bytes → List Bytes}
  {std : Sorter Older}

/-- The ids in the list of a conversation. -/
def idsAt (w : MainWindow) (key : Bytes) : List Bytes := idsOf (w.messagesOf key)

/-- No message has raised an unread count twice. -/
def RaisedOnce (raised : List Raise) : Prop :=
  ((raised.filter (fun r => r.msgId ≠ [])).map (fun r => (r.key, r.msgId))).Nodup

/-- No list has two entries with one id, and every message has raised an unread count at most once. -/
def NoDuplicates (w : MainWindow) : Prop := (∀ key, (idsAt w key).Nodup) ∧ RaisedOnce w.raised

/-- The id that the entry of a send has after the answer. -/
def SendAnswer.idFor (answer : SendAnswer) (s : PendingSend) : Bytes :=
  match answer.resp with
  | none => s.localMsgId
  | some resp =>
    if answer.code ≠ 0 ∨ resp.success = false ∨ resp.msgId = [] then s.localMsgId else resp.msgId

/-- The event brings no id that the list of its conversation has already. -/
def BringsNew (w : MainWindow) : WindowEvent → Prop
  | .pushed (.push m) =>
    m.msgId ∉ idsAt w (convKey (peerOf (w.messageOf m)) m.chatType)
  | .pushed (.legacy m) => m.msgId ∉ idsAt w (convKey m.toId m.chatType)
  | .pushed .unreadable => True
  | .offlineAnswered _ _ => True
  | .historyAnswered _ _ code page => code = 0 → DistinctIds (page.map w.messageOf)
  | .send content clock _ ready _ => w.currentChatId ≠ [] → content ≠ [] → ready = true →
    MainWindow.localMsgId clock ∉ idsAt w (convKey w.currentChatId w.currentChatType)
  | .sendAnswered n answer => ∀ s, w.sends[n]? = some s →
    answer.idFor s = s.localMsgId ∨ answer.idFor s ∉ idsAt w s.key
  | .selected _ _ _ => True

/-! Lists and ids. -/

theorem nil_notMem_idsOf : [] ∉ idsOf messages := by
  simp [idsOf]

theorem mem_idsOf (hid : id ≠ []) : id ∈ idsOf messages ↔ ∃ m ∈ messages, m.msgId = id := by
  simp [idsOf, hid]

theorem idsOf_singleton : idsOf [msg] = if msg.msgId = [] then [] else [msg.msgId] := by
  simp [idsOf]
  split <;> simp_all

theorem nodup_append_message :
    DistinctIds (messages ++ [msg]) ↔ DistinctIds messages ∧ msg.msgId ∉ idsOf messages := by
  rw [DistinctIds, idsOf_append, idsOf_singleton]
  by_cases hnil : msg.msgId = []
  · rw [if_pos hnil, hnil, List.append_nil]
    exact (and_iff_left nil_notMem_idsOf).symm
  · rw [if_neg hnil, List.nodup_append_comm, List.singleton_append, List.nodup_cons, and_comm]
    rfl

/-- Changing one message changes at most its id. -/
theorem updateFirst_perm {f : Message → Message} {newId : Bytes} (hin : id ∈ idsOf messages)
    (hf : ∀ m, m.msgId = id → (f m).msgId = newId) (hnew : newId ≠ []) :
    ∃ rest, (idsOf messages).Perm (id :: rest) ∧
      (idsOf (updateFirst id f messages)).Perm (newId :: rest) := by
  have hid : id ≠ [] := fun he => nil_notMem_idsOf (he ▸ hin)
  induction messages with
  | nil => cases hin
  | cons m rest ih =>
    unfold updateFirst
    by_cases hm : m.msgId = id
    · rw [if_pos hm]
      have hold : idsOf (m :: rest) = id :: idsOf rest := by simp [idsOf, hm, hid]
      have hchanged : idsOf (f m :: rest) = newId :: idsOf rest := by simp [idsOf, hf m hm, hnew]
      rw [hold, hchanged]
      exact ⟨idsOf rest, .refl _, .refl _⟩
    · rw [if_neg hm]
      have hcons : ∀ l, idsOf (m :: l) = idsOf [m] ++ idsOf l := fun l => idsOf_append (a := [m])
      rw [hcons] at hin
      have hrest : id ∈ idsOf rest := by
        rcases List.mem_append.mp hin with hin | hin
        · obtain ⟨m', hm', he⟩ := (mem_idsOf hid).mp hin
          rw [List.mem_singleton.mp hm'] at he
          exact absurd he hm
        · exact hin
      obtain ⟨others, hold, hchanged⟩ := ih hrest
      refine ⟨idsOf [m] ++ others, ?_, ?_⟩
      · rw [hcons]
        exact (hold.append_left _).trans List.perm_middle
      · rw [hcons]
        exact (hchanged.append_left _).trans List.perm_middle

/-! What the events keep, in terms of the ids alone. -/

/-- Every id is in its list once; the local id of a send that waits is in its list, and has not
raised an unread count; what has raised one is in its list. -/
structure Shown (ids : Bytes → List Bytes) (sends : List PendingSend) (raised : List Raise) :
    Prop where
  distinct : ∀ key, (ids key).Nodup
  waiting : ∀ s ∈ sends, s.localMsgId ∈ ids s.key
  sendsOnce : sends.Nodup
  shown : ∀ r ∈ raised, r.msgId ≠ [] → r.msgId ∈ ids r.key
  apart : ∀ s ∈ sends, ∀ r ∈ raised, r.key = s.key → r.msgId ≠ s.localMsgId
  once : RaisedOnce raised

/-- New ids come. -/
theorem Shown.grow (h : Shown ids sends raised) (hdistinct : ∀ key, (ids' key).Nodup)
    (hsub : ∀ key, ids key ⊆ ids' key) : Shown ids' sends raised where
  distinct := hdistinct
  waiting s hs := hsub _ (h.waiting s hs)
  sendsOnce := h.sendsOnce
  shown r hr hne := hsub _ (h.shown r hr hne)
  apart := h.apart
  once := h.once

/-- A message that is new in its list raises an unread count. -/
theorem Shown.raise (h : Shown ids sends raised) (hdistinct : ∀ key, (ids' key).Nodup)
    (hsub : ∀ key, ids key ⊆ ids' key) (hnew : r.msgId ∉ ids r.key)
    (hin : r.msgId ≠ [] → r.msgId ∈ ids' r.key) : Shown ids' sends (raised ++ [r]) where
  distinct := hdistinct
  waiting s hs := hsub _ (h.waiting s hs)
  sendsOnce := h.sendsOnce
  shown r' hr' hne := by
    rcases List.mem_append.mp hr' with hr' | hr'
    · exact hsub _ (h.shown r' hr' hne)
    · obtain rfl := List.mem_singleton.mp hr'
      exact hin hne
  apart s hs r' hr' hkey := by
    rcases List.mem_append.mp hr' with hr' | hr'
    · exact h.apart s hs r' hr' hkey
    · obtain rfl := List.mem_singleton.mp hr'
      intro he
      exact hnew (he ▸ hkey ▸ h.waiting s hs)
  once := by
    unfold RaisedOnce
    rw [List.filter_append, List.map_append]
    by_cases hnil : r.msgId = []
    · rw [List.filter_cons_of_neg (by simpa using hnil), List.filter_nil, List.map_nil, List.append_nil]
      exact h.once
    · rw [List.filter_cons_of_pos (by simpa using hnil), List.filter_nil, List.nodup_append_comm]
      refine List.nodup_cons.mpr ⟨?_, h.once⟩
      intro hold
      obtain ⟨r', hr', he⟩ := List.mem_map.mp hold
      obtain ⟨hr', hne⟩ := List.mem_filter.mp hr'
      obtain ⟨hkey, hid⟩ := Prod.mk.inj he
      exact hnew (hid ▸ hkey ▸ h.shown r' hr' (by simpa using hne))

/-- A send waits under a local id that is new in its list. -/
theorem Shown.send (h : Shown ids sends raised) (hdistinct : ∀ key, (ids' key).Nodup)
    (hsub : ∀ key, ids key ⊆ ids' key) (hnew : s.localMsgId ∉ ids s.key)
    (hin : s.localMsgId ∈ ids' s.key) (hne : s.localMsgId ≠ []) :
    Shown ids' (sends ++ [s]) raised where
  distinct := hdistinct
  waiting s' hs' := by
    rcases List.mem_append.mp hs' with hs' | hs'
    · exact hsub _ (h.waiting s' hs')
    · obtain rfl := List.mem_singleton.mp hs'
      exact hin
  sendsOnce := by
    rw [List.nodup_append_comm]
    exact List.nodup_cons.mpr ⟨fun hs => hnew (h.waiting s hs), h.sendsOnce⟩
  shown r hr hne := hsub _ (h.shown r hr hne)
  apart s' hs' r hr hkey := by
    rcases List.mem_append.mp hs' with hs' | hs'
    · exact h.apart s' hs' r hr hkey
    · obtain rfl := List.mem_singleton.mp hs'
      intro he
      exact hnew (he ▸ hkey ▸ h.shown r hr (he ▸ hne))
  once := h.once

/-- The entry of a send that is answered may lose its local id. -/
theorem Shown.answer (h : Shown ids sends raised) {n : Nat} (hs : sends[n]? = some s)
    (hdistinct : ∀ key, (ids' key).Nodup)
    (hsub : ∀ key, ∀ i ∈ ids key, key = s.key → i ≠ s.localMsgId → i ∈ ids' key)
    (hother : ∀ key, key ≠ s.key → ids' key = ids key) : Shown ids' (sends.eraseIdx n) raised := by
  have hmem : s ∈ sends := List.mem_of_getElem? hs
  have hstay : ∀ key, ∀ i ∈ ids key, (key = s.key → i ≠ s.localMsgId) → i ∈ ids' key := by
    intro key i hi hne
    by_cases hkey : key = s.key
    · exact hsub key i hi hkey (hne hkey)
    · rw [hother key hkey]
      exact hi
  have hothers : ∀ s' ∈ sends.eraseIdx n, s' ∈ sends ∧ s' ≠ s := by
    intro s' hs'
    obtain ⟨hn, rfl⟩ := List.getElem?_eq_some_iff.mp hs
    rw [← h.sendsOnce.erase_getElem n hn, h.sendsOnce.mem_erase_iff] at hs'
    exact ⟨hs'.2, hs'.1⟩
  refine ⟨hdistinct, ?_, h.sendsOnce.sublist (List.eraseIdx_sublist _ _), ?_, ?_, h.once⟩
  · intro s' hs'
    obtain ⟨hs', hne⟩ := hothers s' hs'
    refine hstay _ _ (h.waiting s' hs') ?_
    intro hkey hid
    apply hne
    cases s'
    cases s
    cases hkey
    cases hid
    rfl
  · intro r hr hne
    exact hstay _ _ (h.shown r hr hne) (fun hkey => h.apart s hmem r hr hkey)
  · intro s' hs' r hr
    exact h.apart s' (hothers s' hs').1 r hr

/-! What the events do. -/

/-- The window keeps the invariant. -/
def Window (w : MainWindow) : Prop := Shown (idsAt w) w.sends w.raised

theorem idsAt_setMessages {k : Bytes} :
    idsAt (w.setMessages key messages) k = if k = key then idsOf messages else idsAt w k := by
  unfold idsAt MainWindow.messagesOf MainWindow.setMessages
  split
  · rename_i hk
    rw [hk, OrderedMap.get_put_self]
    rfl
  · rename_i hk
    rw [OrderedMap.get_put_ne hk]

/-- A list that gets all it had, and nothing twice. -/
theorem setMessages_grows (messages : List Message) (h : Window w) (hdistinct : DistinctIds messages)
    (hsub : idsAt w key ⊆ idsOf messages) :
    (∀ k, (idsAt (w.setMessages key messages) k).Nodup) ∧
      ∀ k, idsAt w k ⊆ idsAt (w.setMessages key messages) k := by
  constructor
  · intro k
    rw [idsAt_setMessages]
    split
    · exact hdistinct
    · exact h.distinct k
  · intro k
    rw [idsAt_setMessages]
    split
    · rename_i hk
      rw [hk]
      exact hsub
    · exact List.Subset.refl _

theorem idsAt_append : idsOf (w.messagesOf key ++ [msg]) = idsAt w key ++ idsOf [msg] := idsOf_append

/-- A message that is new in its list is entered. -/
theorem arrives (msg : Message) (h : Window w) (hnew : msg.msgId ∉ idsAt w key) :
    (∀ k, (idsAt (w.setMessages key (w.messagesOf key ++ [msg])) k).Nodup) ∧
      (∀ k, idsAt w k ⊆ idsAt (w.setMessages key (w.messagesOf key ++ [msg])) k) ∧
      (msg.msgId ≠ [] → msg.msgId ∈ idsAt (w.setMessages key (w.messagesOf key ++ [msg])) key) := by
  have hdistinct : DistinctIds (w.messagesOf key ++ [msg]) :=
    nodup_append_message.mpr ⟨h.distinct key, hnew⟩
  obtain ⟨hd, hsub⟩ := setMessages_grows _ h hdistinct
    (by rw [idsAt_append]; exact List.subset_append_left _ _)
  refine ⟨hd, hsub, ?_⟩
  intro hne
  rw [idsAt_setMessages, if_pos rfl]
  exact (mem_idsOf hne).mpr ⟨msg, by simp, rfl⟩

/-- Only a message whose id is new in the list can be appended without a repetition. -/
theorem new_of_distinct (msg : Message)
    (hd : (idsAt (w.setMessages key (w.messagesOf key ++ [msg])) key).Nodup) :
    msg.msgId ∉ idsAt w key := by
  rw [idsAt_setMessages, if_pos rfl] at hd
  exact (nodup_append_message.mp hd).2

theorem idsAt_enter {peerId : Bytes} {conv : Conversation} :
    idsAt (w.enter key peerId msg conv) = idsAt w := rfl

theorem enter_window {peerId : Bytes} {conv : Conversation} (h : Window w)
    (hnew : msg.msgId ∉ idsAt w key) :
    Window ((w.setMessages key (w.messagesOf key ++ [msg])).enter key peerId msg conv) := by
  obtain ⟨hd, hsub, hin⟩ := arrives msg h hnew
  unfold Window
  rw [idsAt_enter]
  simp only [MainWindow.enter]
  split
  · exact Shown.raise (r := { key := key, msgId := msg.msgId }) h hd hsub hnew hin
  · exact Shown.grow h hd hsub

theorem push_window {m : ChatMessage} (h : Window w) (hnew : BringsNew w (.pushed (.push m))) :
    Window (w.onPushNewMessage (.push m)) := enter_window h hnew

theorem legacy_window {m : ChatMessage} (h : Window w) (hnew : BringsNew w (.pushed (.legacy m))) :
    Window (w.onPushNewMessage (.legacy m)) := by
  obtain ⟨hd, hsub, hin⟩ := arrives (w.messageOf m) h hnew
  simp only [MainWindow.onPushNewMessage]
  split
  · exact Shown.grow h hd hsub
  · unfold Window
    simp only
    split
    · exact Shown.raise (r := { key := _, msgId := m.msgId, inContacts := true }) h hd hsub hnew hin
    · exact Shown.grow h hd hsub

/-- An offline message that the list has is left out. -/
theorem merge_window (h : Window w) : Window (w.mergeOfflineMessage msg) := by
  simp only [MainWindow.mergeOfflineMessage]
  split
  · exact h
  · rename_i hno
    refine enter_window h ?_
    intro hin
    apply hno
    have hne : msg.msgId ≠ [] := fun he => nil_notMem_idsOf (he ▸ hin)
    refine ⟨hne, ?_⟩
    obtain ⟨m, hm, he⟩ := (mem_idsOf hne).mp hin
    exact List.any_eq_true.mpr ⟨m, hm, by simpa using he⟩

theorem offline_window {code : Int} {page : Option (List ChatMessage)} (h : Window w) :
    Window (w.offlineAnswered code page) := by
  unfold MainWindow.offlineAnswered
  cases page with
  | none => exact h
  | some page =>
    simp only
    split
    · induction page generalizing w with
      | nil => exact h
      | cons m page ih => exact ih (merge_window h)
    · exact h

theorem mem_idsOf_kept {page : List Message} :
    id ∈ idsOf (keptOf page messages) ↔ id ∈ idsOf messages ∧ id ∉ idsOf page := by
  by_cases hid : id = []
  · rw [hid]
    exact iff_of_false nil_notMem_idsOf (fun h => nil_notMem_idsOf h.1)
  · rw [mem_idsOf hid, mem_idsOf hid]
    constructor
    · rintro ⟨m, hm, rfl⟩
      obtain ⟨hm, hnew⟩ := List.mem_filter.mp hm
      exact ⟨⟨m, hm, rfl⟩, (by simpa using hnew : m.msgId ≠ [] ∧ m.msgId ∉ idsOf page).2⟩
    · rintro ⟨⟨m, hm, rfl⟩, hnew⟩
      exact ⟨m, List.mem_filter.mpr ⟨hm, by simpa using ⟨hid, hnew⟩⟩, rfl⟩

/-- The new list has the ids of the page, and of the old list those that the page does not have. -/
theorem history_ids (std : Sorter Older) (page messages : List Message) :
    (idsOf (std.sort (page ++ keptOf page messages))).Perm
      (idsOf page ++ idsOf (keptOf page messages)) := by
  rw [← idsOf_append]
  exact idsOf_perm (std.perm _)

theorem history_distinct {page : List Message} (h : DistinctIds messages) :
    DistinctIds (std.sort (page ++ keptOf page messages)) ↔ DistinctIds page := by
  rw [DistinctIds, (history_ids std page messages).nodup_iff, List.nodup_append']
  have hkept : DistinctIds (keptOf page messages) :=
    List.Nodup.sublist ((List.filter_sublist.map _).filter _) h
  constructor
  · exact fun hd => hd.1
  · intro hpage
    exact ⟨hpage, hkept, fun i hi hin => (mem_idsOf_kept.mp hin).2 hi⟩

theorem history_subset {page : List Message} :
    idsOf messages ⊆ idsOf (std.sort (page ++ keptOf page messages)) := by
  intro i hi
  rw [(history_ids std page messages).mem_iff, List.mem_append]
  by_cases hpage : i ∈ idsOf page
  · exact Or.inl hpage
  · exact Or.inr (mem_idsOf_kept.mpr ⟨hi, hpage⟩)

theorem history_window {chatId : Bytes} {chatType code : Int} {page : List ChatMessage} (h : Window w)
    (hnew : BringsNew w (.historyAnswered chatId chatType code page)) :
    Window (w.historyAnswered std chatId chatType code page) := by
  unfold MainWindow.historyAnswered
  split
  · exact h
  · rename_i hcode
    push Not at hcode
    obtain ⟨hd, hsub⟩ := setMessages_grows _ h
      ((history_distinct (h.distinct (convKey chatId chatType))).mpr (hnew hcode)) history_subset
    exact Shown.grow h hd hsub

theorem localMsgId_ne_nil {clock : Int} : MainWindow.localMsgId clock ≠ [] := by
  intro he
  exact absurd (List.append_eq_nil_iff.mp he).1 (by decide)

theorem send_window {content : Bytes} {clock clock' : Int} {ready serializes : Bool} (h : Window w)
    (hnew : BringsNew w (.send content clock clock' ready serializes)) :
    Window (w.sendChatMessage content clock clock' ready serializes) := by
  unfold MainWindow.sendChatMessage
  split
  · exact h
  · rename_i hgo
    push Not at hgo
    obtain ⟨hchat, hcontent, hready⟩ := hgo
    have hnew := hnew hchat hcontent hready
    obtain ⟨hd, hsub, hin⟩ := arrives (w.localMessage content clock clock') h hnew
    simp only
    split
    · exact Shown.send (s := ⟨_, MainWindow.localMsgId clock⟩) h hd hsub hnew (hin localMsgId_ne_nil)
        localMsgId_ne_nil
    · exact Shown.grow h hd hsub

/-- The callback of a send changes its entry, and nothing else that counts here. -/
theorem sendCallback_spec (answer : SendAnswer) (hin : s.localMsgId ∈ idsAt w s.key) :
    ∃ f, (∀ m, m.msgId = s.localMsgId → (f m).msgId = answer.idFor s) ∧
      idsAt (w.sendCallback s answer) =
        idsAt (w.setMessages s.key (updateFirst s.localMsgId f (w.messagesOf s.key))) ∧
      (w.sendCallback s answer).sends = w.sends ∧ (w.sendCallback s answer).raised = w.raised := by
  have hne : s.localMsgId ≠ [] := fun he => nil_notMem_idsOf (he ▸ hin)
  obtain ⟨m, hm, hid⟩ := (mem_idsOf hne).mp hin
  obtain ⟨message, hfind⟩ : ∃ message, (w.messagesOf s.key).find? (fun m => m.msgId = s.localMsgId) =
      some message := by
    rw [← Option.isSome_iff_exists, List.find?_isSome]
    exact ⟨m, hm, by simpa using hid⟩
  unfold MainWindow.sendCallback SendAnswer.idFor
  simp only [hfind]
  cases answer.resp with
  | none => exact ⟨MainWindow.refused, fun _ he => he, rfl, rfl, rfl⟩
  | some resp =>
    simp only
    by_cases hno : answer.code ≠ 0 ∨ resp.success = false
    · rw [if_pos hno, if_pos (by tauto)]
      exact ⟨MainWindow.refused, fun _ he => he, rfl, rfl, rfl⟩
    · rw [if_neg hno]
      refine ⟨MainWindow.accepted resp, ?_, ?_⟩
      · intro m he
        by_cases hnil : resp.msgId = []
        · rw [if_pos (Or.inr (Or.inr hnil)), ← he]
          exact if_pos hnil
        · rw [if_neg (by tauto)]
          exact if_neg hnil
      · split <;> exact ⟨rfl, rfl, rfl⟩

/-- The ids of a list whose send is answered. -/
theorem answered_ids {f : Message → Message} {newId : Bytes} (h : DistinctIds messages)
    (hin : s.localMsgId ∈ idsOf messages) (hf : ∀ m, m.msgId = s.localMsgId → (f m).msgId = newId)
    (hnew : newId ≠ []) :
    (DistinctIds (updateFirst s.localMsgId f messages) ↔
      newId = s.localMsgId ∨ newId ∉ idsOf messages) ∧
    ∀ i ∈ idsOf messages, i ≠ s.localMsgId → i ∈ idsOf (updateFirst s.localMsgId f messages) := by
  obtain ⟨rest, hold, hchanged⟩ := updateFirst_perm hin hf hnew
  have hrest := List.nodup_cons.mp (hold.nodup_iff.mp h)
  constructor
  · rw [DistinctIds, hchanged.nodup_iff, List.nodup_cons, hold.mem_iff, List.mem_cons, not_or]
    constructor
    · intro hd
      by_cases he : newId = s.localMsgId
      · exact Or.inl he
      · exact Or.inr ⟨he, hd.1⟩
    · rintro (rfl | hd)
      · exact hrest
      · exact ⟨hd.2, hrest.2⟩
  · intro i hi hne
    rw [hchanged.mem_iff]
    exact List.mem_cons_of_mem _ (((hold.mem_iff.mp hi) |> List.mem_cons.mp).resolve_left hne)

theorem idFor_ne_nil {answer : SendAnswer} (h : s.localMsgId ≠ []) : answer.idFor s ≠ [] := by
  unfold SendAnswer.idFor
  split
  · exact h
  · split
    · exact h
    · tauto

/-- What an answer does to the ids. -/
theorem sendAnswered_spec {n : Nat} (h : Window w) (hs : w.sends[n]? = some s) (answer : SendAnswer) :
    (∀ k, k ≠ s.key → idsAt (w.sendAnswered n answer) k = idsAt w k) ∧
    ((idsAt (w.sendAnswered n answer) s.key).Nodup ↔
      answer.idFor s = s.localMsgId ∨ answer.idFor s ∉ idsAt w s.key) ∧
    (∀ i ∈ idsAt w s.key, i ≠ s.localMsgId → i ∈ idsAt (w.sendAnswered n answer) s.key) ∧
    (w.sendAnswered n answer).sends = w.sends.eraseIdx n ∧
    (w.sendAnswered n answer).raised = w.raised := by
  have hin := h.waiting s (List.mem_of_getElem? hs)
  have hne : s.localMsgId ≠ [] := fun he => nil_notMem_idsOf (he ▸ hin)
  have hanswered : w.sendAnswered n answer =
      ({ w with sends := w.sends.eraseIdx n } : MainWindow).sendCallback s answer := by
    simp only [MainWindow.sendAnswered, hs]
  obtain ⟨f, hf, hids, hsends, hraised⟩ :=
    sendCallback_spec (w := { w with sends := w.sends.eraseIdx n }) answer hin
  rw [hanswered, hids]
  obtain ⟨hdistinct, hsub⟩ := answered_ids (h.distinct s.key) hin hf (idFor_ne_nil hne)
  refine ⟨?_, ?_, ?_, hsends, hraised⟩
  · intro k hk
    rw [idsAt_setMessages, if_neg hk]
    rfl
  · rw [idsAt_setMessages, if_pos rfl]
    exact hdistinct
  · rw [idsAt_setMessages, if_pos rfl]
    exact hsub

theorem answered_window {n : Nat} {answer : SendAnswer} (h : Window w)
    (hnew : BringsNew w (.sendAnswered n answer)) : Window (w.sendAnswered n answer) := by
  cases hs : w.sends[n]? with
  | none =>
    simp only [MainWindow.sendAnswered, hs]
    exact h
  | some s =>
    obtain ⟨hother, hdistinct, hsub, hsends, hraised⟩ := sendAnswered_spec h hs answer
    unfold Window
    rw [hsends, hraised]
    refine Shown.answer h hs ?_ ?_ hother
    · intro key
      by_cases hkey : key = s.key
      · rw [hkey]
        exact hdistinct.mpr (hnew s hs)
      · rw [hother key hkey]
        exact h.distinct key
    · rintro key i hi rfl hne
      exact hsub i hi hne

/-- The messages of the local file come into an empty list. -/
theorem selected_window {chatId : Bytes} {chatType : Int} {stored : StoredMessages} (h : Window w) :
    Window (w.onConversationSelected chatId chatType stored) := by
  unfold MainWindow.onConversationSelected
  simp only
  split
  · exact h
  · rename_i hempty
    push Not at hempty
    have hids : ∀ messages, idsOf (messages.map
        (fun m => { m with isSelf := m.fromUserId = w.currentUserId } : Message → Message)) =
        idsOf messages := by
      intro messages
      rw [idsOf, List.map_map]
      rfl
    have hnil : idsAt w (convKey chatId chatType) = [] := by
      have hlist : w.messagesOf (convKey chatId chatType) = [] := hempty.1
      rw [idsAt, hlist]
      rfl
    obtain ⟨hd, hsub⟩ := setMessages_grows (stored.messages.map
        (fun m => { m with isSelf := m.fromUserId = w.currentUserId })) h
      (by rw [DistinctIds, hids]; exact stored.distinct) (by rw [hnil]; exact List.nil_subset _)
    exact Shown.grow h hd hsub

theorem event_window (h : Window w) (e : WindowEvent) (hnew : BringsNew w e) :
    Window (windowStep std w e) := by
  cases e with
  | pushed payload =>
    cases payload with
    | push m => exact push_window h hnew
    | legacy m => exact legacy_window h hnew
    | unreadable => exact h
  | offlineAnswered code page => exact offline_window h
  | historyAnswered chatId chatType code page => exact history_window h hnew
  | send content clock clock' ready serializes => exact send_window h hnew
  | sendAnswered n answer => exact answered_window h hnew
  | selected chatId chatType stored => exact selected_window h

/-- An event that brings something twice leaves it twice. -/
theorem bringsNew_of_distinct (h : Window w) (e : WindowEvent)
    (hd : ∀ key, (idsAt (windowStep std w e) key).Nodup) : BringsNew w e := by
  cases e with
  | pushed payload =>
    cases payload with
    | push m => exact new_of_distinct (w.messageOf m) (hd _)
    | legacy m =>
      refine new_of_distinct (w.messageOf m) ?_
      have hd := hd (convKey m.toId m.chatType)
      simp only [windowStep, MainWindow.onPushNewMessage] at hd
      split at hd <;> exact hd
    | unreadable => trivial
  | offlineAnswered code page => trivial
  | historyAnswered chatId chatType code page =>
    intro hcode
    have hd := hd (convKey chatId chatType)
    simp only [windowStep, MainWindow.historyAnswered, hcode, ne_eq, not_true_eq_false, if_false] at hd
    rw [idsAt_setMessages, if_pos rfl] at hd
    exact (history_distinct (h.distinct _)).mp hd
  | send content clock clock' ready serializes =>
    intro hchat hcontent hready
    have hd := hd (convKey w.currentChatId w.currentChatType)
    have hgo : ¬ (w.currentChatId = [] ∨ content = [] ∨ ¬ ready = true) := by tauto
    simp only [windowStep, MainWindow.sendChatMessage, if_neg hgo] at hd
    refine new_of_distinct (w.localMessage content clock clock') ?_
    split at hd <;> exact hd
  | sendAnswered n answer =>
    intro s hs
    exact (sendAnswered_spec h hs answer).2.1.mp (hd s.key)
  | selected chatId chatType stored => trivial

/-! `raised` is what the unread counts count. -/

def unreadOf (w : MainWindow) (key : Bytes) : Int := ((w.conversationMap.get key).getD {}).unreadCount

/-- The unread count of a conversation without what has raised it. -/
def unreadBefore (w : MainWindow) (key : Bytes) : Int :=
  unreadOf w key - w.raised.countP (fun r => r.key = key ∧ r.inContacts = false)

theorem unreadBefore_enter {k peerId : Bytes} {conv : Conversation}
    (hconv : conv.unreadCount = unreadOf w key) :
    unreadBefore (w.enter key peerId msg conv) k = unreadBefore w k := by
  unfold unreadBefore unreadOf at *
  simp only [MainWindow.enter]
  by_cases hk : k = key
  · subst hk
    rw [OrderedMap.get_put_self]
    split
    · simp only [Option.getD_some, hconv, List.countP_append, List.countP_singleton, decide_true,
        and_self, if_true]
      omega
    · simp only [Option.getD_some, hconv]
  · rw [OrderedMap.get_put_ne hk]
    split
    · simp only [List.countP_append, List.countP_singleton, Ne.symm hk, false_and, decide_false,
        Bool.false_eq_true, if_false, Nat.add_zero]
    · rfl

theorem unreadBefore_merge {k : Bytes} :
    unreadBefore (w.mergeOfflineMessage msg) k = unreadBefore w k := by
  simp only [MainWindow.mergeOfflineMessage]
  split
  · rfl
  · rw [unreadBefore_enter]
    · rfl
    · split <;> rfl

theorem unreadBefore_callback {k : Bytes} {answer : SendAnswer} :
    unreadBefore (w.sendCallback s answer) k = unreadBefore w k := by
  simp only [MainWindow.sendCallback]
  split
  · rfl
  · split
    · rfl
    · split
      · rfl
      · split
        · rfl
        · rename_i conv hconv
          have hconv : w.conversationMap.get s.key = some conv := hconv
          unfold unreadBefore unreadOf
          by_cases hk : k = s.key
          · subst hk
            simp only [OrderedMap.get_put_self, hconv, Option.getD_some]
            rfl
          · simp only [OrderedMap.get_put_ne hk]
            rfl

/-- Every event raises the unread counts by what it notes. -/
theorem unreadBefore_step {k : Bytes} (e : WindowEvent) :
    unreadBefore (windowStep std w e) k = unreadBefore w k := by
  cases e with
  | pushed payload =>
    cases payload with
    | push m =>
      simp only [windowStep, MainWindow.onPushNewMessage]
      rw [unreadBefore_enter]
      · rfl
      · rfl
    | legacy m =>
      simp only [windowStep, MainWindow.onPushNewMessage]
      split
      · rfl
      · unfold unreadBefore
        simp only
        split
        · rw [List.countP_append, List.countP_singleton]
          simp [unreadOf, MainWindow.setMessages]
        · rfl
    | unreadable => rfl
  | offlineAnswered code page =>
    simp only [windowStep, MainWindow.offlineAnswered]
    cases page with
    | none => rfl
    | some page =>
      simp only
      split
      · induction page generalizing w with
        | nil => rfl
        | cons m page ih => exact ih.trans unreadBefore_merge
      · rfl
  | historyAnswered chatId chatType code page =>
    simp only [windowStep, MainWindow.historyAnswered]
    split <;> rfl
  | send content clock clock' ready serializes =>
    simp only [windowStep, MainWindow.sendChatMessage]
    split
    · rfl
    · split <;> rfl
  | sendAnswered n answer =>
    simp only [windowStep, MainWindow.sendAnswered]
    split
    · rfl
    · exact unreadBefore_callback
  | selected chatId chatType stored =>
    simp only [windowStep, MainWindow.onConversationSelected]
    split <;> rfl

theorem unreadBefore_run {k : Bytes} (events : List WindowEvent) :
    unreadBefore (run (windowStep std) w events) k = unreadBefore w k := by
  induction events generalizing w with
  | nil => rfl
  | cons e events ih => exact ih.trans (unreadBefore_step e)

/-- A window without messages. The conversations come from the server. -/
def openWindow (user : Bytes) (conversations : OrderedMap Bytes Conversation)
    (contacts : List Conversation) : MainWindow :=
  { currentUserId := user, conversationMap := conversations, contacts := contacts }

theorem openWindow_window (user : Bytes) (conversations : OrderedMap Bytes Conversation)
    (contacts : List Conversation) : Window (openWindow user conversations contacts) where
  distinct _ := List.nodup_nil
  waiting _ hs := by cases hs
  sendsOnce := List.nodup_nil
  shown _ hr := by cases hr
  apart _ hs := by cases hs
  once := List.nodup_nil

/-- Along every run, no list has two entries with one id and no message raises an unread count twice,
exactly when no event brings an id that the list has already. -/
theorem noDuplicates_iff (std : Sorter Older) (user : Bytes)
    (conversations : OrderedMap Bytes Conversation) (contacts : List Conversation)
    (events : List WindowEvent) :
    Always (windowStep std) NoDuplicates (openWindow user conversations contacts) events ↔
      AllSteps (windowStep std) BringsNew (openWindow user conversations contacts) events := by
  have hstart := openWindow_window user conversations contacts
  refine always_iff_allSteps_of_kept (I := Window)
    (fun w e h _ hnew => event_window h e hnew) ?_ hstart ⟨hstart.distinct, hstart.once⟩
    (allSteps_of_forall (C := fun _ _ => True) fun _ _ => trivial)
  intro w e h _ _
  constructor
  · exact fun hd => bringsNew_of_distinct h e hd.1
  · intro hnew
    exact ⟨(event_window h e hnew).distinct, (event_window h e hnew).once⟩

/-- A message that the history answer had already is pushed; one that an offline page had already is
pushed while its chat is not open. -/
theorem message_twice :
    (¬ ∀ std events, Always (windowStep std) (fun w => ∀ key, (idsAt w key).Nodup)
      (openWindow (str "alice") OrderedMap.empty []) events) ∧
    ¬ ∀ std events, Always (windowStep std) (fun w => RaisedOnce w.raised)
      (openWindow (str "alice") OrderedMap.empty []) events := by
  let m : ChatMessage :=
    { msgId := str "m1", fromUserId := str "bob", toId := str "alice", timestamp := 1 }
  constructor
  · intro hall
    have hlast := (hall historySorter [.selected (str "bob") 1 ⟨[], List.nodup_nil⟩,
      .historyAnswered (str "bob") 1 0 [m], .pushed (.push m)]).last (convKey (str "bob") 1)
    revert hlast
    decide +kernel
  · intro hall
    have hlast := (hall historySorter [.offlineAnswered 0 (some [m]), .pushed (.push m)]).last
    revert hlast
    unfold RaisedOnce
    decide +kernel

end SwiftChat.Client
