import SwiftChat.Client.MessageLists

/-! The message up to which the main window marks the open chat as read. -/
namespace SwiftChat.Client
open Base
variable {w : MainWindow} {key : Bytes} {m msg : Message} {messages page : List Message}
  {time : Int} {e : ReadEvent} {std : Sorter Older}

/-- What `sendMarkRead` sends. -/
structure MarkRead where
  chatId : Bytes
  chatType : Int
  lastMsgId : Bytes
deriving DecidableEq

namespace MainWindow

def openKey (w : MainWindow) : Bytes := convKey w.currentChatId w.currentChatType

def sendMarkRead (w : MainWindow) : Option MarkRead :=
  if w.currentChatId = [] then none
  else (w.messagesOf w.openKey).getLast?.map fun m =>
    { chatId := w.currentChatId, chatType := w.currentChatType, lastMsgId := m.msgId }

end MainWindow

/-- The list that a message belongs to. -/
def keyOf (msg : Message) : Bytes := convKey (peerOf msg) msg.chatType

/-- `mergeOfflineMessage` returns that it has entered the message. -/
def isFresh (messages : List Message) (msg : Message) : Bool :=
  ¬ (msg.msgId ≠ [] ∧ messages.any (fun existed => existed.msgId = msg.msgId))

/-- The flag `currentConversationTouched` after a page. -/
def touches (w : MainWindow) (currentKey : Bytes) : List Message → Bool
  | [] => false
  | m :: page =>
    (isFresh (w.messagesOf (keyOf m)) m && keyOf m = currentKey) ||
      touches (w.mergeOfflineMessage m) currentKey page

/-- An event of the window, or the list of messages is scrolled to its end. -/
inductive ReadEvent where
  | window (e : WindowEvent)
  | reachedBottom

def readStep (std : Sorter Older) (w : MainWindow) : ReadEvent → MainWindow
  | .window e => windowStep std w e
  | .reachedBottom => w

/-- The event calls `sendMarkRead`, when all else is done. -/
def marks (w : MainWindow) : ReadEvent → Bool
  | .window (.pushed (.push m)) => w.IsCurrent (peerOf (w.messageOf m)) m.chatType
  | .window (.pushed (.legacy m)) => w.IsCurrent m.toId m.chatType
  | .window (.pushed .unreadable) => false
  | .window (.offlineAnswered code (some page)) =>
    code = 0 ∧ touches w w.openKey (page.map w.messageOf)
  | .window (.offlineAnswered _ none) => false
  | .window (.historyAnswered chatId chatType code _) => code = 0 ∧ w.IsCurrent chatId chatType
  | .window (.send ..) => false
  | .window (.sendAnswered ..) => false
  | .window (.selected chatId chatType stored) =>
    w.messagesOf (convKey chatId chatType) ≠ [] ∨ stored.messages ≠ []
  | .reachedBottom => true

/-- What an event sends to mark the open chat. -/
def markedRead (std : Sorter Older) (w : MainWindow) (e : ReadEvent) : Option MarkRead :=
  if marks w e then (readStep std w e).sendMarkRead else none

/-- A message that is not waiting to be sent, and has not failed. -/
def Message.FromServer (m : Message) : Prop := m.sending = false ∧ m.sendFailed = false

instance (m : Message) : Decidable m.FromServer := inferInstanceAs (Decidable (_ ∧ _))

/-- No message of the server is later. -/
def NotBefore (messages : List Message) (time : Int) : Prop :=
  ∀ k ∈ messages, k.FromServer → k.timestamp ≤ time

def IsNewest (messages : List Message) (m : Message) : Prop :=
  m ∈ messages ∧ m.FromServer ∧ NotBefore messages m.timestamp

/-- What is sent names a newest message of the open chat. -/
def MarksNewest (std : Sorter Older) (w : MainWindow) (e : ReadEvent) : Prop :=
  ∀ r ∈ markedRead std w e, ∃ m, m.msgId = r.lastMsgId ∧
    IsNewest ((readStep std w e).messagesOf (readStep std w e).openKey) m

/-- The list ends with a newest message. -/
def EndsNewest (messages : List Message) : Prop := ∀ m ∈ messages.getLast?, IsNewest messages m

theorem marksNewest_of_ends
    (h : marks w e = true → (readStep std w e).currentChatId ≠ [] →
      EndsNewest ((readStep std w e).messagesOf (readStep std w e).openKey)) :
    MarksNewest std w e := by
  intro r hr
  unfold markedRead at hr
  split at hr
  · rename_i hmarks
    unfold MainWindow.sendMarkRead at hr
    split at hr
    · cases hr
    · rename_i hopen
      obtain ⟨m, hm, rfl⟩ := Option.map_eq_some_iff.mp hr
      exact ⟨m, rfl, h hmarks hopen m hm⟩
  · cases hr

/-! The lists after an event. -/

theorem messagesOf_setMessages {k : Bytes} :
    (w.setMessages key messages).messagesOf k = if k = key then messages else w.messagesOf k := by
  unfold MainWindow.messagesOf MainWindow.setMessages
  split
  · rename_i hk
    rw [hk, OrderedMap.get_put_self, Option.getD_some]
  · rename_i hk
    rw [OrderedMap.get_put_ne hk]

/-- The messages that an offline page adds to a list. -/
def fresh (messages : List Message) : List Message → List Message
  | [] => []
  | m :: page =>
    if isFresh messages m then m :: fresh (messages ++ [m]) page else fresh messages page

theorem isFresh_iff : isFresh messages msg = true ↔
    ¬ (msg.msgId ≠ [] ∧ messages.any (fun existed => existed.msgId = msg.msgId) = true) := by
  rw [isFresh, decide_eq_true_iff]

theorem merge_known (h : isFresh (w.messagesOf (keyOf msg)) msg = false) :
    w.mergeOfflineMessage msg = w := by
  have hold := mt isFresh_iff.mpr (by rw [h]; decide)
  exact if_pos (not_not.mp hold)

theorem merge_new (h : isFresh (w.messagesOf (keyOf msg)) msg = true) :
    (w.mergeOfflineMessage msg).messagesOf key =
      if key = keyOf msg then w.messagesOf (keyOf msg) ++ [msg] else w.messagesOf key := by
  have hnew := isFresh_iff.mp h
  rw [← messagesOf_setMessages, MainWindow.mergeOfflineMessage]
  dsimp only
  rw [← keyOf, if_neg hnew]
  rfl

theorem merge_messages (msg : Message) (key : Bytes) :
    (w.mergeOfflineMessage msg).messagesOf key =
      if keyOf msg = key ∧ isFresh (w.messagesOf key) msg = true then w.messagesOf key ++ [msg]
      else w.messagesOf key := by
  cases hfresh : isFresh (w.messagesOf (keyOf msg)) msg with
  | false =>
    rw [merge_known hfresh, if_neg]
    rintro ⟨rfl, hyes⟩
    rw [hfresh] at hyes
    cases hyes
  | true =>
    rw [merge_new hfresh]
    by_cases hkey : keyOf msg = key
    · subst hkey
      rw [if_pos rfl, if_pos ⟨rfl, hfresh⟩]
    · rw [if_neg (Ne.symm hkey), if_neg (fun h => hkey h.1)]

theorem merge_open (msg : Message) :
    (w.mergeOfflineMessage msg).currentChatId = w.currentChatId ∧
      (w.mergeOfflineMessage msg).currentChatType = w.currentChatType ∧
      (w.mergeOfflineMessage msg).currentUserId = w.currentUserId := by
  unfold MainWindow.mergeOfflineMessage
  dsimp only
  split
  · exact ⟨rfl, rfl, rfl⟩
  · exact ⟨rfl, rfl, rfl⟩

/-- A page adds to each list what is new there. -/
theorem foldl_merge_messages (page : List Message) (key : Bytes) :
    (page.foldl MainWindow.mergeOfflineMessage w).messagesOf key =
      w.messagesOf key ++ fresh (w.messagesOf key) (page.filter (fun m => keyOf m = key)) := by
  induction page generalizing w with
  | nil => exact (List.append_nil _).symm
  | cons m page ih =>
    rw [List.foldl_cons, ih, merge_messages]
    by_cases hkey : keyOf m = key
    · rw [List.filter_cons_of_pos (by simpa using hkey), fresh]
      by_cases hnew : isFresh (w.messagesOf key) m = true
      · rw [if_pos ⟨hkey, hnew⟩, if_pos hnew, List.append_assoc]
        rfl
      · rw [if_neg (fun h => hnew h.2), if_neg hnew]
    · rw [List.filter_cons_of_neg (by simpa using hkey), if_neg (fun h => hkey h.1)]

theorem foldl_merge_open (page : List Message) :
    (page.foldl MainWindow.mergeOfflineMessage w).currentChatId = w.currentChatId ∧
      (page.foldl MainWindow.mergeOfflineMessage w).currentChatType = w.currentChatType := by
  induction page generalizing w with
  | nil => exact ⟨rfl, rfl⟩
  | cons m page ih =>
    obtain ⟨hid, htype, _⟩ := merge_open (w := w) m
    exact ⟨ih.1.trans hid, ih.2.trans htype⟩

theorem offline_fold (page : List ChatMessage) :
    page.foldl (fun w m => w.mergeOfflineMessage (w.messageOf m)) w =
      (page.map w.messageOf).foldl MainWindow.mergeOfflineMessage w := by
  have hall : ∀ v : MainWindow, v.currentUserId = w.currentUserId →
      page.foldl (fun w m => w.mergeOfflineMessage (w.messageOf m)) v =
        (page.map w.messageOf).foldl MainWindow.mergeOfflineMessage v := by
    induction page with
    | nil => exact fun _ _ => rfl
    | cons m page ih =>
      intro v hv
      have hsame : v.messageOf m = w.messageOf m := by
        unfold MainWindow.messageOf
        rw [hv]
      rw [List.foldl_cons, List.map_cons, List.foldl_cons, hsame]
      exact ih _ ((merge_open _).2.2.trans hv)
  exact hall w rfl

theorem fresh_sublist (messages page : List Message) : (fresh messages page).Sublist page := by
  induction page generalizing messages with
  | nil => exact List.Sublist.slnil
  | cons m page ih =>
    rw [fresh]
    split
    · exact (ih _).cons_cons m
    · exact (ih _).cons m

/-- A page that touches the open chat adds to its list. -/
theorem fresh_ne_nil (h : touches w key page = true) :
    fresh (w.messagesOf key) (page.filter (fun m => keyOf m = key)) ≠ [] := by
  induction page generalizing w with
  | nil => cases h
  | cons m page ih =>
    by_cases hkey : keyOf m = key
    · subst hkey
      rw [List.filter_cons_of_pos (by simp), fresh]
      by_cases hnew : isFresh (w.messagesOf (keyOf m)) m = true
      · rw [if_pos hnew]
        exact List.cons_ne_nil _ _
      · rw [if_neg hnew]
        rw [Bool.not_eq_true] at hnew
        rw [touches, hnew, merge_known hnew] at h
        exact ih (by simpa using h)
    · rw [List.filter_cons_of_neg (by simpa using hkey)]
      rw [touches] at h
      have hrest := ih (w := w.mergeOfflineMessage m) (by simpa [hkey] using h)
      rwa [merge_messages, if_neg (fun h => hkey h.1)] at hrest

theorem messageOf_fromServer (w : MainWindow) (m : ChatMessage) : (w.messageOf m).FromServer :=
  ⟨rfl, rfl⟩

/-! When the list that an event leaves ends with a newest message. -/

theorem getLast?_split (h : m ∈ messages.getLast?) : ∃ first, messages = first ++ [m] := by
  obtain ⟨hne, rfl⟩ := List.mem_getLast?_eq_getLast h
  exact ⟨messages.dropLast, (List.dropLast_append_getLast hne).symm⟩

theorem endsNewest_append (hserver : msg.FromServer) (h : NotBefore messages msg.timestamp) :
    EndsNewest (messages ++ [msg]) := by
  intro m hm
  rw [List.getLast?_concat] at hm
  obtain rfl := Option.some.inj hm
  refine ⟨by simp, hserver, ?_⟩
  intro k hk hfrom
  rcases List.mem_append.mp hk with hk | hk
  · exact h k hk hfrom
  · rw [List.mem_singleton.mp hk]

theorem sort_inTime (std : Sorter Older) (messages : List Message) :
    (std.sort messages).Pairwise (fun a b => a.timestamp ≤ b.timestamp) :=
  (std.sorted messages).imp not_lt.mp

/-- The messages of the server are in order of time. -/
def InOrder (messages : List Message) : Prop :=
  (messages.filter (fun m => m.FromServer)).Pairwise (fun a b => a.timestamp ≤ b.timestamp)

theorem inOrder_of_sorted (h : messages.Pairwise (fun a b => a.timestamp ≤ b.timestamp)) :
    InOrder messages := h.sublist List.filter_sublist

theorem InOrder.append (h : InOrder messages) (hpage : InOrder page)
    (hlater : ∀ m ∈ page, NotBefore messages m.timestamp) : InOrder (messages ++ page) := by
  rw [InOrder, List.filter_append, List.pairwise_append]
  refine ⟨h, hpage, ?_⟩
  intro k hk m hm
  obtain ⟨hk, hserver⟩ := List.mem_filter.mp hk
  exact hlater m (List.mem_filter.mp hm).1 k hk (of_decide_eq_true hserver)

theorem InOrder.append_local (h : InOrder messages) (hlocal : ¬ msg.FromServer) :
    InOrder (messages ++ [msg]) := by
  rw [InOrder, List.filter_append, List.filter_cons_of_neg (by simpa using hlocal), List.filter_nil,
    List.append_nil]
  exact h

/-- The last message of a list in order is a newest, when it is one of the server. -/
theorem InOrder.endsNewest (h : InOrder messages) (hlast : ∀ m ∈ messages.getLast?, m.FromServer) :
    EndsNewest messages := by
  intro m hm
  have hserver := hlast m hm
  obtain ⟨first, rfl⟩ := getLast?_split hm
  rw [InOrder, List.filter_append, List.pairwise_append] at h
  refine endsNewest_append hserver ?_ m hm
  intro k hk hfrom
  exact h.2.2 k (List.mem_filter.mpr ⟨hk, decide_eq_true hfrom⟩) m (by simp [hserver])

theorem endsNewest_sort
    (h : ∀ k ∈ messages, ¬ k.FromServer →
      ∃ m ∈ messages, m.FromServer ∧ k.timestamp < m.timestamp) :
    EndsNewest (std.sort messages) := by
  have hsorted := sort_inTime std messages
  refine (inOrder_of_sorted hsorted).endsNewest ?_
  intro m hm
  by_contra hlocal
  have hmem : ∀ k, k ∈ std.sort messages ↔ k ∈ messages := fun k => std.mem_sort
  obtain ⟨s, hs, _, hlater⟩ := h m ((hmem m).mp (List.mem_of_getLast? hm)) hlocal
  obtain ⟨first, hfirst⟩ := getLast?_split hm
  rw [← hmem, hfirst] at hs
  rw [hfirst, List.pairwise_append] at hsorted
  rcases List.mem_append.mp hs with hs | hs
  · have hle := hsorted.2.2 s hs m List.mem_cons_self
    omega
  · rw [List.mem_singleton.mp hs] at hlater
    omega

/-- What a change that leaves times and states alone does not touch. -/
theorem endsNewest_map {f : Message → Message}
    (hf : ∀ m, (f m).timestamp = m.timestamp ∧ ((f m).FromServer ↔ m.FromServer))
    (h : EndsNewest messages) : EndsNewest (messages.map f) := by
  intro m hm
  rw [List.getLast?_map] at hm
  obtain ⟨k, hk, rfl⟩ := Option.map_eq_some_iff.mp hm
  obtain ⟨hmem, hserver, hlater⟩ := h k hk
  refine ⟨List.mem_map_of_mem hmem, (hf k).2.mpr hserver, ?_⟩
  intro x hx hfrom
  obtain ⟨y, hy, rfl⟩ := List.mem_map.mp hx
  rw [(hf k).1, (hf y).1]
  exact hlater y hy ((hf y).2.mp hfrom)

/-- The messages that a page adds to the list of the open chat. -/
def pageFor (w : MainWindow) (page : List ChatMessage) : List Message :=
  fresh (w.messagesOf w.openKey) ((page.map w.messageOf).filter (fun m => keyOf m = w.openKey))

/-- What a history answer puts together. -/
def historyOf (w : MainWindow) (chatId : Bytes) (chatType : Int) (page : List ChatMessage) :
    List Message :=
  page.map w.messageOf ++ keptOf (page.map w.messageOf) (w.messagesOf (convKey chatId chatType))

/-- The list that a selected chat shows. -/
def shownFor (w : MainWindow) (chatId : Bytes) (chatType : Int) (stored : StoredMessages) :
    List Message :=
  if w.messagesOf (convKey chatId chatType) ≠ [] then w.messagesOf (convKey chatId chatType)
  else stored.messages

/-- When the open chat is marked, the message that comes last is one of the server, and none of
those is later. -/
def InTime (w : MainWindow) : ReadEvent → Prop
  | .window (.pushed (.push m)) => w.currentChatId ≠ [] →
    w.IsCurrent (peerOf (w.messageOf m)) m.chatType → NotBefore (w.messagesOf w.openKey) m.timestamp
  | .window (.pushed (.legacy m)) => w.currentChatId ≠ [] →
    w.IsCurrent m.toId m.chatType → NotBefore (w.messagesOf w.openKey) m.timestamp
  | .window (.offlineAnswered code (some page)) => w.currentChatId ≠ [] → code = 0 →
    ∀ a ∈ (pageFor w page).getLast?,
      NotBefore (w.messagesOf w.openKey ++ pageFor w page) a.timestamp
  | .window (.historyAnswered chatId chatType code page) => w.currentChatId ≠ [] → code = 0 →
    w.IsCurrent chatId chatType →
      ∀ k ∈ historyOf w chatId chatType page, ¬ k.FromServer →
        ∃ m ∈ historyOf w chatId chatType page, m.FromServer ∧ k.timestamp < m.timestamp
  | .window (.selected chatId chatType stored) => chatId ≠ [] →
    EndsNewest (shownFor w chatId chatType stored)
  | .reachedBottom => w.currentChatId ≠ [] → EndsNewest (w.messagesOf w.openKey)
  | _ => True

theorem openKey_of_isCurrent {peerId : Bytes} {chatType : Int} (h : w.IsCurrent peerId chatType) :
    convKey peerId chatType = w.openKey := by
  rw [h.1, h.2, MainWindow.openKey]

theorem legacy_messages (m : ChatMessage) (key : Bytes) :
    (w.onPushNewMessage (.legacy m)).messagesOf key =
      (w.setMessages (convKey m.toId m.chatType)
        (w.messagesOf (convKey m.toId m.chatType) ++ [w.messageOf m])).messagesOf key := by
  simp only [MainWindow.onPushNewMessage]
  split
  · rfl
  · rfl

/-- The messages of the local file, as the window holds them. -/
def ownFlags (w : MainWindow) (messages : List Message) : List Message :=
  messages.map (fun m => { m with isSelf := m.fromUserId = w.currentUserId })

theorem selected_messages (chatId : Bytes) (chatType : Int) (stored : StoredMessages)
    (key : Bytes) :
    (w.onConversationSelected chatId chatType stored).messagesOf key =
      if key = convKey chatId chatType ∧ w.messagesOf key = [] then ownFlags w stored.messages
      else w.messagesOf key := by
  simp only [MainWindow.onConversationSelected]
  split
  · rename_i hkeep
    have hkeep : w.messagesOf (convKey chatId chatType) ≠ [] ∨ stored.messages = [] := hkeep
    change w.messagesOf key = _
    split
    · rename_i hempty
      obtain ⟨rfl, hnil⟩ := hempty
      rw [hnil, hkeep.resolve_left (not_not_intro hnil)]
      rfl
    · rfl
  · rename_i hload
    push Not at hload
    have hnil : w.messagesOf (convKey chatId chatType) = [] := hload.1
    rw [messagesOf_setMessages]
    by_cases hkey : key = convKey chatId chatType
    · rw [if_pos hkey, if_pos ⟨hkey, hkey ▸ hnil⟩]
      rfl
    · rw [if_neg hkey, if_neg (fun h => hkey h.1)]
      rfl

theorem push_inTime {payload : PushPayload} (h : InTime w (.window (.pushed payload)))
    (hmarks : marks w (.window (.pushed payload)) = true) (hopen : w.currentChatId ≠ []) :
    EndsNewest ((w.onPushNewMessage payload).messagesOf w.openKey) := by
  cases payload with
  | unreadable => cases hmarks
  | push m =>
    have hcurrent : w.IsCurrent (peerOf (w.messageOf m)) m.chatType := of_decide_eq_true hmarks
    have hlist : (w.onPushNewMessage (.push m)).messagesOf w.openKey =
        (w.setMessages w.openKey
          (w.messagesOf w.openKey ++ [w.messageOf m])).messagesOf w.openKey := by
      rw [← openKey_of_isCurrent hcurrent]
      rfl
    rw [hlist, messagesOf_setMessages, if_pos rfl]
    exact endsNewest_append (messageOf_fromServer w m) (h hopen hcurrent)
  | legacy m =>
    have hcurrent : w.IsCurrent m.toId m.chatType := of_decide_eq_true hmarks
    rw [legacy_messages, openKey_of_isCurrent hcurrent, messagesOf_setMessages, if_pos rfl]
    exact endsNewest_append (messageOf_fromServer w m) (h hopen hcurrent)

theorem offline_inTime {page : List ChatMessage}
    (h : ∀ a ∈ (pageFor w page).getLast?,
      NotBefore (w.messagesOf w.openKey ++ pageFor w page) a.timestamp)
    (htouched : touches w w.openKey (page.map w.messageOf) = true) :
    EndsNewest (w.messagesOf w.openKey ++ pageFor w page) := by
  have hne : pageFor w page ≠ [] := fresh_ne_nil htouched
  intro m hm
  rw [List.getLast?_append_of_ne_nil _ hne] at hm
  have hmem := List.mem_of_getLast? hm
  obtain ⟨x, _, rfl⟩ := List.mem_map.mp (List.mem_filter.mp ((fresh_sublist _ _).subset hmem)).1
  exact ⟨List.mem_append_right _ hmem, messageOf_fromServer w x, h _ hm⟩

theorem offline_messages {page : List ChatMessage} (key : Bytes) :
    (w.offlineAnswered 0 (some page)).messagesOf key = w.messagesOf key ++
        fresh (w.messagesOf key) ((page.map w.messageOf).filter (fun m => keyOf m = key)) := by
  have hfold := offline_fold (w := w) page
  rw [← foldl_merge_messages, ← hfold]
  rfl

theorem offline_openKey {code : Int} {page : Option (List ChatMessage)} :
    (w.offlineAnswered code page).openKey = w.openKey ∧
      (w.offlineAnswered code page).currentChatId = w.currentChatId := by
  unfold MainWindow.offlineAnswered
  cases page with
  | none => exact ⟨rfl, rfl⟩
  | some page =>
    dsimp only
    split
    · rw [offline_fold]
      obtain ⟨hid, htype⟩ := foldl_merge_open (w := w) (page.map w.messageOf)
      unfold MainWindow.openKey
      rw [hid, htype]
      exact ⟨rfl, rfl⟩
    · exact ⟨rfl, rfl⟩

theorem push_openKey {payload : PushPayload} :
    (w.onPushNewMessage payload).openKey = w.openKey ∧
      (w.onPushNewMessage payload).currentChatId = w.currentChatId := by
  cases payload with
  | push m => exact ⟨rfl, rfl⟩
  | unreadable => exact ⟨rfl, rfl⟩
  | legacy m =>
    simp only [MainWindow.onPushNewMessage]
    split
    · exact ⟨rfl, rfl⟩
    · exact ⟨rfl, rfl⟩

theorem selected_openKey {chatId : Bytes} {chatType : Int} {stored : StoredMessages} :
    (w.onConversationSelected chatId chatType stored).openKey = convKey chatId chatType ∧
      (w.onConversationSelected chatId chatType stored).currentChatId = chatId := by
  simp only [MainWindow.onConversationSelected]
  split
  · exact ⟨rfl, rfl⟩
  · exact ⟨rfl, rfl⟩

theorem selected_inTime {chatId : Bytes} {chatType : Int} {stored : StoredMessages}
    (h : EndsNewest (shownFor w chatId chatType stored)) :
    EndsNewest ((w.onConversationSelected chatId chatType stored).messagesOf
      (convKey chatId chatType)) := by
  unfold shownFor at h
  rw [selected_messages]
  by_cases hlist : w.messagesOf (convKey chatId chatType) = []
  · rw [if_neg (not_not_intro hlist)] at h
    rw [if_pos ⟨rfl, hlist⟩]
    exact endsNewest_map (fun m => ⟨rfl, Iff.rfl⟩) h
  · rw [if_pos hlist] at h
    rw [if_neg (fun hboth => hlist hboth.2)]
    exact h

/-- An event in time marks a newest message. -/
theorem marksNewest_of_inTime (h : InTime w e) : MarksNewest std w e := by
  apply marksNewest_of_ends
  intro hmarks hopen
  cases e with
  | reachedBottom => exact h hopen
  | window e =>
    cases e with
    | pushed payload =>
      change EndsNewest ((w.onPushNewMessage payload).messagesOf
        (w.onPushNewMessage payload).openKey)
      rw [push_openKey.1]
      have hid : (w.onPushNewMessage payload).currentChatId = w.currentChatId := push_openKey.2
      exact push_inTime h hmarks (hid ▸ hopen)
    | offlineAnswered code page =>
      cases page with
      | none => cases hmarks
      | some page =>
        obtain ⟨hcode, htouched⟩ := of_decide_eq_true hmarks
        subst hcode
        change EndsNewest ((w.offlineAnswered 0 (some page)).messagesOf
          (w.offlineAnswered 0 (some page)).openKey)
        rw [offline_openKey.1, offline_messages]
        have hid : (w.offlineAnswered 0 (some page)).currentChatId = w.currentChatId :=
          offline_openKey.2
        exact offline_inTime (h (hid ▸ hopen) rfl) htouched
    | historyAnswered chatId chatType code page =>
      obtain ⟨hcode, hcurrent⟩ := of_decide_eq_true hmarks
      have hgo : ¬ code ≠ 0 := not_not.mpr hcode
      have hstep : readStep std w (.window (.historyAnswered chatId chatType code page)) =
          w.setMessages (convKey chatId chatType) (std.sort (historyOf w chatId chatType page)) :=
        if_neg hgo
      rw [hstep] at hopen ⊢
      have hkey : (w.setMessages (convKey chatId chatType)
          (std.sort (historyOf w chatId chatType page))).openKey = convKey chatId chatType :=
        (openKey_of_isCurrent hcurrent).symm
      rw [hkey, messagesOf_setMessages, if_pos rfl]
      exact endsNewest_sort (h hopen hcode hcurrent)
    | send content clock clock' ready serializes => cases hmarks
    | sendAnswered n answer => cases hmarks
    | selected chatId chatType stored =>
      change EndsNewest ((w.onConversationSelected chatId chatType stored).messagesOf
        (w.onConversationSelected chatId chatType stored).openKey)
      rw [selected_openKey.1]
      have hid : (w.onConversationSelected chatId chatType stored).currentChatId = chatId :=
        selected_openKey.2
      exact selected_inTime (h (hid ▸ hopen))

/-! Where the messages of a chat come in order of time, its list stays in order. -/

/-- Messages come no earlier than what their list has, an answer to a send has a time that fits the
place of its entry, and a chat is marked when its list does not end with a message that waits or has
failed. -/
def ComesInOrder (w : MainWindow) : ReadEvent → Prop
  | .window (.pushed (.push m)) => NotBefore (w.messagesOf (keyOf (w.messageOf m))) m.timestamp
  | .window (.pushed (.legacy m)) =>
    NotBefore (w.messagesOf (convKey m.toId m.chatType)) m.timestamp
  | .window (.offlineAnswered code (some page)) => code = 0 →
    page.Pairwise (fun a b => a.timestamp ≤ b.timestamp) ∧
      ∀ m ∈ page, NotBefore (w.messagesOf (keyOf (w.messageOf m))) m.timestamp
  | .window (.historyAnswered chatId chatType code page) => code = 0 → w.IsCurrent chatId chatType →
    ∀ k ∈ historyOf w chatId chatType page, ¬ k.FromServer →
      ∃ m ∈ historyOf w chatId chatType page, m.FromServer ∧ k.timestamp < m.timestamp
  | .window (.sendAnswered n answer) => ∀ s resp, w.sends[n]? = some s → answer.resp = some resp →
    answer.code = 0 → resp.success = true →
      InOrder (updateFirst s.localMsgId (MainWindow.accepted resp) (w.messagesOf s.key))
  | .window (.selected chatId chatType stored) =>
    stored.messages.Pairwise (fun a b => a.timestamp ≤ b.timestamp) ∧
      ∀ m ∈ (shownFor w chatId chatType stored).getLast?, m.FromServer
  | .reachedBottom => ∀ m ∈ (w.messagesOf w.openKey).getLast?, m.FromServer
  | _ => True

/-- Every list is in order. -/
def ListsInOrder (w : MainWindow) : Prop := ∀ key, InOrder (w.messagesOf key)

theorem ListsInOrder.setMessages (h : ListsInOrder w) (hlist : InOrder messages) :
    ListsInOrder (w.setMessages key messages) := by
  intro k
  rw [messagesOf_setMessages]
  split
  · exact hlist
  · exact h k

theorem ListsInOrder.arrive (h : ListsInOrder w) (msg : Message)
    (hlater : NotBefore (w.messagesOf key) msg.timestamp) :
    ListsInOrder (w.setMessages key (w.messagesOf key ++ [msg])) := by
  apply h.setMessages
  apply (h key).append (inOrder_of_sorted (List.pairwise_singleton _ _))
  intro m hm
  rw [List.mem_singleton.mp hm]
  exact hlater

theorem inOrder_refused (h : InOrder messages) {id : Bytes} :
    InOrder (updateFirst id MainWindow.refused messages) := by
  have hsub : ((updateFirst id MainWindow.refused messages).filter (fun m => m.FromServer)).Sublist
      (messages.filter (fun m => m.FromServer)) := by
    clear h
    induction messages with
    | nil => exact List.Sublist.slnil
    | cons m rest ih =>
      rw [updateFirst]
      split
      · rw [List.filter_cons_of_neg (by simp [MainWindow.refused, Message.FromServer])]
        exact (List.sublist_cons_self m rest).filter _
      · by_cases hserver : m.FromServer
        · rw [List.filter_cons_of_pos (by simpa using hserver),
            List.filter_cons_of_pos (by simpa using hserver)]
          exact ih.cons_cons m
        · rw [List.filter_cons_of_neg (by simpa using hserver),
            List.filter_cons_of_neg (by simpa using hserver)]
          exact ih
  exact h.sublist hsub

/-- What an answer does to the lists. -/
theorem callback_messages (s : PendingSend) (answer : SendAnswer) :
    (∀ key, (w.sendCallback s answer).messagesOf key = w.messagesOf key) ∨
    (∀ key, (w.sendCallback s answer).messagesOf key = (w.setMessages s.key
      (updateFirst s.localMsgId MainWindow.refused (w.messagesOf s.key))).messagesOf key) ∨
    ∃ resp, answer.resp = some resp ∧ answer.code = 0 ∧ resp.success = true ∧
      ∀ key, (w.sendCallback s answer).messagesOf key = (w.setMessages s.key (updateFirst
        s.localMsgId (MainWindow.accepted resp) (w.messagesOf s.key))).messagesOf key := by
  simp only [MainWindow.sendCallback]
  split
  · exact Or.inl fun _ => rfl
  · split
    · exact Or.inr (Or.inl fun _ => rfl)
    · rename_i resp hresp
      split
      · exact Or.inr (Or.inl fun _ => rfl)
      · rename_i hgood
        push Not at hgood
        refine Or.inr (Or.inr ⟨resp, hresp, hgood.1, by simpa using hgood.2, ?_⟩)
        split
        · exact fun _ => rfl
        · exact fun _ => rfl

theorem ListsInOrder.offline (h : ListsInOrder w) {page : List ChatMessage}
    (hsorted : page.Pairwise (fun a b => a.timestamp ≤ b.timestamp))
    (hlater : ∀ m ∈ page, NotBefore (w.messagesOf (keyOf (w.messageOf m))) m.timestamp) :
    ListsInOrder (w.offlineAnswered 0 (some page)) := by
  intro key
  rw [offline_messages]
  have hpage : (page.map w.messageOf).Pairwise (fun a b => a.timestamp ≤ b.timestamp) :=
    List.pairwise_map.mpr hsorted
  apply (h key).append
  · exact inOrder_of_sorted (hpage.sublist ((fresh_sublist _ _).trans List.filter_sublist))
  · intro m hm
    obtain ⟨hm, hkey⟩ := List.mem_filter.mp ((fresh_sublist _ _).subset hm)
    obtain ⟨x, hx, rfl⟩ := List.mem_map.mp hm
    exact of_decide_eq_true hkey ▸ hlater x hx

theorem ListsInOrder.sent (h : ListsInOrder w) (content : Bytes) (clock clock' : Int)
    (ready serializes : Bool) :
    ListsInOrder (w.sendChatMessage content clock clock' ready serializes) := by
  have hsent : ListsInOrder (w.setMessages w.openKey
      (w.messagesOf w.openKey ++ [w.localMessage content clock clock'])) := by
    apply h.setMessages
    exact (h _).append_local (by simp [Message.FromServer, MainWindow.localMessage])
  unfold MainWindow.sendChatMessage
  split
  · exact h
  · split
    · exact hsent
    · exact hsent

theorem ListsInOrder.answered (h : ListsInOrder w) {n : Nat} {answer : SendAnswer}
    (hanswer : ComesInOrder w (.window (.sendAnswered n answer))) :
    ListsInOrder (w.sendAnswered n answer) := by
  unfold MainWindow.sendAnswered
  split
  · exact h
  · rename_i s hs
    rcases callback_messages (w := { w with sends := w.sends.eraseIdx n }) s answer with
      hsame | hrefused | ⟨resp, hresp, hcode, hsuccess, haccepted⟩
    · intro key
      rw [hsame]
      exact h key
    · intro key
      rw [hrefused]
      exact h.setMessages (inOrder_refused (h s.key)) key
    · intro key
      rw [haccepted]
      exact h.setMessages (hanswer s resp hs hresp hcode hsuccess) key

theorem ListsInOrder.step (h : ListsInOrder w) (hevent : ComesInOrder w e) :
    ListsInOrder (readStep std w e) := by
  cases e with
  | reachedBottom => exact h
  | window e =>
    cases e with
    | pushed payload =>
      cases payload with
      | push m => exact h.arrive (w.messageOf m) hevent
      | legacy m =>
        intro key
        change InOrder ((w.onPushNewMessage (.legacy m)).messagesOf key)
        rw [legacy_messages]
        exact h.arrive (w.messageOf m) hevent key
      | unreadable => exact h
    | offlineAnswered code page =>
      cases page with
      | none => exact h
      | some page =>
        by_cases hcode : code = 0
        · subst hcode
          exact h.offline (hevent rfl).1 (hevent rfl).2
        · have hsame : readStep std w (.window (.offlineAnswered code (some page))) = w :=
            if_neg hcode
          rw [hsame]
          exact h
    | historyAnswered chatId chatType code page =>
      simp only [readStep, windowStep, MainWindow.historyAnswered]
      split
      · exact h
      · exact h.setMessages (inOrder_of_sorted (sort_inTime _ _))
    | send content clock clock' ready serializes => exact h.sent content clock clock' ready serializes
    | sendAnswered n answer => exact h.answered hevent
    | selected chatId chatType stored =>
      intro key
      change InOrder ((w.onConversationSelected chatId chatType stored).messagesOf key)
      rw [selected_messages]
      split
      · exact inOrder_of_sorted (List.pairwise_map.mpr hevent.1)
      · exact h key

/-- The last message of a page in order is a newest of the open list. -/
theorem ListsInOrder.page_last (h : ListsInOrder w) {page : List ChatMessage}
    (hsorted : page.Pairwise (fun a b => a.timestamp ≤ b.timestamp))
    (hlater : ∀ m ∈ page, NotBefore (w.messagesOf (keyOf (w.messageOf m))) m.timestamp) :
    ∀ a ∈ (pageFor w page).getLast?,
      NotBefore (w.messagesOf w.openKey ++ pageFor w page) a.timestamp := by
  intro a ha
  have hafter := h.offline hsorted hlater w.openKey
  rw [offline_messages, ← pageFor] at hafter
  have hne : pageFor w page ≠ [] := List.ne_nil_of_mem (List.mem_of_getLast? ha)
  have hlast : ∀ m ∈ (w.messagesOf w.openKey ++ pageFor w page).getLast?, m.FromServer := by
    intro m hm
    rw [List.getLast?_append_of_ne_nil _ hne] at hm
    obtain ⟨x, _, rfl⟩ := List.mem_map.mp (List.mem_filter.mp
      ((fresh_sublist _ _).subset (List.mem_of_getLast? hm))).1
    exact messageOf_fromServer w x
  have hnewest := hafter.endsNewest hlast a (by rwa [List.getLast?_append_of_ne_nil _ hne])
  exact hnewest.2.2

theorem inTime_of_inOrder (h : ListsInOrder w) (hevent : ComesInOrder w e) : InTime w e := by
  cases e with
  | reachedBottom => exact fun _ => (h _).endsNewest hevent
  | window e =>
    cases e with
    | pushed payload =>
      cases payload with
      | push m =>
        intro _ hcurrent
        rw [← openKey_of_isCurrent hcurrent]
        exact hevent
      | legacy m =>
        intro _ hcurrent
        rw [← openKey_of_isCurrent hcurrent]
        exact hevent
      | unreadable => trivial
    | offlineAnswered code page =>
      cases page with
      | none => trivial
      | some page =>
        intro _ hcode
        exact h.page_last (hevent hcode).1 (hevent hcode).2
    | historyAnswered chatId chatType code page => exact fun _ => hevent
    | send content clock clock' ready serializes => trivial
    | sendAnswered n answer => trivial
    | selected chatId chatType stored =>
      intro _
      refine InOrder.endsNewest ?_ hevent.2
      unfold shownFor
      split
      · exact h _
      · exact inOrder_of_sorted hevent.1

/-- Along a run, what is sent names a newest message of the open chat when each list that is marked
ends with one. That is so when messages come in order of time, and no chat is marked whose list ends
with a message that waits or has failed. -/
theorem marksNewest_of_run (std : Sorter Older) (user : Bytes)
    (conversations : OrderedMap Bytes Conversation) (contacts : List Conversation)
    (events : List ReadEvent) :
    (AllSteps (readStep std) InTime (openWindow user conversations contacts) events →
      AllSteps (readStep std) (MarksNewest std) (openWindow user conversations contacts) events) ∧
    (AllSteps (readStep std) ComesInOrder (openWindow user conversations contacts) events →
      AllSteps (readStep std) (MarksNewest std)
        (openWindow user conversations contacts) events) := by
  constructor
  · intro h
    exact h.imp (I := fun _ => True) (fun _ _ _ _ => trivial)
      (fun _ _ _ hevent => marksNewest_of_inTime hevent) trivial
  · intro h
    refine h.imp (I := ListsInOrder) (fun _ _ hlists hevent => hlists.step hevent)
      (fun _ _ hlists hevent => marksNewest_of_inTime (inTime_of_inOrder hlists hevent)) ?_
    intro key
    exact List.Pairwise.nil

/-- A message of `bob` to `alice`. -/
def fromBob (msgId : Bytes) (time : Int) : ChatMessage :=
  { msgId := msgId, fromUserId := str "bob", toId := str "alice", timestamp := time }

/-- `alice` opens the chat with `bob`, and gets what came while she was away. -/
def returns (page : List ChatMessage) : List ReadEvent :=
  [.window (.selected (str "bob") 1 ⟨[], List.nodup_nil⟩), .window (.offlineAnswered 0 (some page))]

/-- An offline page that begins with the oldest message. -/
theorem marksNewest_oldest_first :
    AllSteps (readStep historySorter) (MarksNewest historySorter)
      (openWindow (str "alice") OrderedMap.empty [])
      (returns [fromBob (str "m_1") 1, fromBob (str "m_2") 2]) := by
  apply (marksNewest_of_run historySorter (str "alice") OrderedMap.empty []
    (returns [fromBob (str "m_1") 1, fromBob (str "m_2") 2])).2
  refine ⟨⟨List.Pairwise.nil, ?_⟩, fun _ => ⟨by simp [fromBob], ?_⟩, trivial⟩
  · intro m hm
    cases hm
  · intro m _ k hk
    cases hk

/-- The server's pages begin with the newest message: the oldest of the page is marked. -/
theorem marks_oldest : ¬ ∀ std events,
    AllSteps (readStep std) (MarksNewest std) (openWindow (str "alice") OrderedMap.empty [])
      events := by
  intro h
  let w := windowStep historySorter (openWindow (str "alice") OrderedMap.empty [])
    (.selected (str "bob") 1 ⟨[], List.nodup_nil⟩)
  let e : ReadEvent :=
    .window (.offlineAnswered 0 (some [fromBob (str "m_2") 2, fromBob (str "m_1") 1]))
  have hpage : MarksNewest historySorter w e :=
    (h historySorter (returns [fromBob (str "m_2") 2, fromBob (str "m_1") 1])).2.1
  have hmarked : markedRead historySorter w e = some ⟨str "bob", 1, str "m_1"⟩ := by decide +kernel
  have hlist : (readStep historySorter w e).messagesOf (readStep historySorter w e).openKey =
      [w.messageOf (fromBob (str "m_2") 2), w.messageOf (fromBob (str "m_1") 1)] := by
    decide +kernel
  obtain ⟨m, hid, hmem, _, hlater⟩ := hpage _ hmarked
  rw [hlist] at hmem hlater
  rcases List.mem_cons.mp hmem with rfl | hmem
  · exact absurd hid (by decide)
  · obtain rfl := List.mem_singleton.mp hmem
    exact absurd (hlater _ List.mem_cons_self ⟨rfl, rfl⟩) (by decide)

end SwiftChat.Client
