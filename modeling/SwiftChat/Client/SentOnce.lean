import SwiftChat.Client.ChatStorage
import SwiftChat.Client.MarkRead

/-! What the local file holds of a text that was sent, once its acknowledgement has been handled. -/
namespace SwiftChat.Client
open Base

/-- The two arguments by which the window and the local file name a conversation. -/
@[ext]
structure ConversationId where
  chatId : Bytes
  chatType : Int
deriving DecidableEq

def ConversationId.key (chat : ConversationId) : Bytes := convKey chat.chatId chat.chatType

/-- A text that is being sent. -/
structure SentText where
  chat : ConversationId
  localMsgId : Bytes
deriving DecidableEq

/-- A text whose acknowledgement was handled; `msgId` is the id that the server gave it. -/
structure Acknowledged extends SentText where
  msgId : Bytes
deriving DecidableEq

def SentText.pending (s : SentText) : PendingSend :=
  { key := s.chat.key, localMsgId := s.localMsgId }

def chatOf (msg : Message) : ConversationId := { chatId := peerOf msg, chatType := msg.chatType }

def full (m : Message) : FullMessage := { toMessage := m }

/-- The window and the local file of its user. `waiting` has the callbacks of sends that are not
called yet, and `acked` the texts that the server has accepted. -/
structure LocalClient where
  window : MainWindow
  file : ChatStorage.MessageFile := OrderedMap.empty
  waiting : List SentText := []
  acked : List Acknowledged := []

/-- What can happen to the client. -/
inductive LocalEvent where
  | pushed (payload : PushPayload)
  | offlineAnswered (code : Int) (page : Option (List ChatMessage))
  | historyAnswered (chat : ConversationId) (code : Int) (page : List ChatMessage)
  | send (content : Bytes) (clock clock' : Int) (ready serializes : Bool)
  | sendAnswered (n : Nat) (answer : SendAnswer)
  | selected (chat : ConversationId)

namespace LocalClient

def storedIds (c : LocalClient) (chat : ConversationId) : List Bytes :=
  ChatStorage.idsOf (ChatStorage.stored c.file chat.chatId chat.chatType).messages

def openChat (c : LocalClient) : ConversationId :=
  { chatId := c.window.currentChatId, chatType := c.window.currentChatType }

/-- The answer accepts the text, and the callback finds its entry. -/
def Acknowledges (c : LocalClient) (s : SentText) (answer : SendAnswer) : Prop :=
  (∃ m ∈ c.window.messagesOf s.chat.key, m.msgId = s.localMsgId) ∧ answer.code = 0 ∧
    ∃ resp ∈ answer.resp, resp.success = true

instance (c : LocalClient) (s : SentText) (answer : SendAnswer) :
    Decidable (c.Acknowledges s answer) :=
  inferInstanceAs (Decidable (_ ∧ _ ∧ _))

section Steps
/- `std` and `shownStd` are the sorts of the standard library, for what is stored and for what is
shown, and `trimmed` is `QString::trimmed`. -/
variable (std : Sorter ChatStorage.Earlier) (shownStd : Sorter Older) (trimmed : Bytes → Bytes)

/-- Twice the limit is no overflow. -/
def mergeAndSave (c : LocalClient) (chat : ConversationId) (messages : List Message) :
    LocalClient :=
  let saved := ChatStorage.mergeAndSaveMessages std std c.file chat.chatId chat.chatType
    (messages.map full) 500
  { c with file := saved.getD c.file }

def saveMessagesToLocal (c : LocalClient) (chat : ConversationId) : LocalClient :=
  if trimmed c.window.currentUserId = [] ∨ chat.chatId = [] then c
  else match c.window.messageMap.get chat.key with
    | none => c
    | some messages => c.mergeAndSave std chat messages

def onPushNewMessage (c : LocalClient) (payload : PushPayload) : LocalClient :=
  let pushed := { c with window := c.window.onPushNewMessage payload }
  match payload with
  | .push m => pushed.saveMessagesToLocal std trimmed (chatOf (c.window.messageOf m))
  | .legacy m => pushed.saveMessagesToLocal std trimmed { chatId := m.toId, chatType := m.chatType }
  | .unreadable => pushed

/-- Only a message that is entered is saved. -/
def mergeOfflineMessage (c : LocalClient) (msg : Message) : LocalClient :=
  let merged := { c with window := c.window.mergeOfflineMessage msg }
  if isFresh (c.window.messagesOf (keyOf msg)) msg then
    merged.saveMessagesToLocal std trimmed (chatOf msg)
  else merged

def offlineAnswered (c : LocalClient) (code : Int) (page : Option (List ChatMessage)) :
    LocalClient :=
  match page with
  | some page =>
    if code = 0 then
      page.foldl (fun c m => c.mergeOfflineMessage std trimmed (c.window.messageOf m)) c
    else c
  | none => c

def historyAnswered (c : LocalClient) (chat : ConversationId) (code : Int)
    (page : List ChatMessage) : LocalClient :=
  if code ≠ 0 then c
  else
    let window := c.window.historyAnswered shownStd chat.chatId chat.chatType code page
    { c with window := window }.mergeAndSave std chat (window.messagesOf chat.key)

/-- Nothing is saved. -/
def sendChatMessage (c : LocalClient) (content : Bytes) (clock clock' : Int)
    (ready serializes : Bool) : LocalClient :=
  let sent := { c with
    window := c.window.sendChatMessage content clock clock' ready serializes }
  if c.window.currentChatId = [] ∨ content = [] ∨ ¬ ready ∨ ¬ serializes then sent
  else { sent with waiting := c.waiting ++ [⟨c.openChat, MainWindow.localMsgId clock⟩] }

/-- The callback of a send, until it saves. -/
def called (c : LocalClient) (n : Nat) (s : SentText) (answer : SendAnswer) : LocalClient :=
  let window := { c.window with sends := c.window.sends.eraseIdx n }
  let acked := if c.Acknowledges s answer then [⟨s, answer.idFor s.pending⟩] else []
  { c with
    window := window.sendCallback s.pending answer
    waiting := c.waiting.eraseIdx n
    acked := c.acked ++ acked }

def sendAnswered (c : LocalClient) (n : Nat) (answer : SendAnswer) : LocalClient :=
  match c.waiting[n]? with
  | none => c
  | some s =>
    if c.Acknowledges s answer then (c.called n s answer).saveMessagesToLocal std trimmed s.chat
    else c.called n s answer

/-- What `onConversationSelected` loads. -/
def storedMessages (c : LocalClient) (chat : ConversationId) : StoredMessages where
  messages := (ChatStorage.loadMessages std c.file chat.chatId chat.chatType 500).map
    (fun m => m.toMessage)
  distinct := by
    have hload := ChatStorage.loaded_loadMessages std c.file chat.chatId chat.chatType 500
    unfold DistinctIds idsOf
    rw [List.map_map]
    exact hload.distinct.filter _

def onConversationSelected (c : LocalClient) (chat : ConversationId) : LocalClient :=
  let stored := c.storedMessages std chat
  { c with window := c.window.onConversationSelected chat.chatId chat.chatType stored }

def step (c : LocalClient) : LocalEvent → LocalClient
  | .pushed payload => c.onPushNewMessage std trimmed payload
  | .offlineAnswered code page => c.offlineAnswered std trimmed code page
  | .historyAnswered chat code page => c.historyAnswered std shownStd chat code page
  | .send content clock clock' ready serializes =>
    c.sendChatMessage content clock clock' ready serializes
  | .sendAnswered n answer => c.sendAnswered std trimmed n answer
  | .selected chat => c.onConversationSelected std chat

end Steps

/-- The entries of a text in the file, under either of its ids. -/
def entriesOf (c : LocalClient) (a : Acknowledged) : List FullMessage :=
  (ChatStorage.stored c.file a.chat.chatId a.chat.chatType).messages.filter
    (fun m => m.msgId = a.localMsgId ∨ m.msgId = a.msgId)

/-- Every text that the server has accepted is in the file at most once. -/
def SentOnce (c : LocalClient) : Prop := ∀ a ∈ c.acked, (c.entriesOf a).length ≤ 1

/-- The id is the temporary one of a text of the conversation. -/
def Temporary (c : LocalClient) (chat : ConversationId) (id : Bytes) : Prop :=
  (∃ s ∈ c.waiting, s.chat = chat ∧ s.localMsgId = id) ∨
    ∃ a ∈ c.acked, a.chat = chat ∧ a.localMsgId = id

instance (c : LocalClient) (chat : ConversationId) (id : Bytes) : Decidable (c.Temporary chat id) :=
  inferInstanceAs (Decidable (_ ∨ _))

/-- The server gives no temporary ids, and a new temporary id is new. -/
def IdsNew (c : LocalClient) : LocalEvent → Prop
  | .pushed (.push m) => ¬ c.Temporary (chatOf (c.window.messageOf m)) m.msgId
  | .pushed (.legacy m) => ¬ c.Temporary { chatId := m.toId, chatType := m.chatType } m.msgId
  | .pushed .unreadable => True
  | .offlineAnswered _ page =>
    ∀ messages ∈ page, ∀ m ∈ messages, ¬ c.Temporary (chatOf (c.window.messageOf m)) m.msgId
  | .historyAnswered chat _ page => ∀ m ∈ page, ¬ c.Temporary chat m.msgId
  | .send content clock _ ready _ => c.window.currentChatId ≠ [] → content ≠ [] → ready = true →
    MainWindow.localMsgId clock ∉ idsAt c.window c.openChat.key ∧
      ¬ c.Temporary c.openChat (MainWindow.localMsgId clock)
  | .sendAnswered n answer => ∀ s ∈ c.waiting[n]?, answer.idFor s.pending = s.localMsgId ∨
    ¬ c.Temporary s.chat (answer.idFor s.pending)
  | .selected _ => True

/-- A text that is acknowledged is not in the file under its temporary id. -/
def Unsaved (c : LocalClient) : LocalEvent → Prop
  | .sendAnswered n answer => ∀ s ∈ c.waiting[n]?, c.Acknowledges s answer →
    answer.idFor s.pending = s.localMsgId ∨ s.localMsgId ∉ c.storedIds s.chat
  | _ => True

/-- The event may save the conversation. -/
def Saves (c : LocalClient) : LocalEvent → ConversationId → Prop
  | .pushed (.push m), chat => chatOf (c.window.messageOf m) = chat
  | .pushed (.legacy m), chat => { chatId := m.toId, chatType := m.chatType } = chat
  | .pushed .unreadable, _ => False
  | .offlineAnswered _ page, chat =>
    ∃ messages ∈ page, ∃ m ∈ messages, chatOf (c.window.messageOf m) = chat
  | .historyAnswered chat' code _, chat => code = 0 ∧ chat' = chat
  | .send .., _ => False
  | .sendAnswered n answer, chat => ∃ s ∈ c.waiting[n]?, c.Acknowledges s answer ∧ s.chat = chat
  | .selected _, _ => False

/-- No conversation is saved while a text of it waits for its answer; the temporary id of a new text
is not in the file. -/
def NoneWaiting (c : LocalClient) (e : LocalEvent) : Prop :=
  match e with
  | .send content clock _ ready _ => c.window.currentChatId ≠ [] → content ≠ [] → ready = true →
    MainWindow.localMsgId clock ∉ c.storedIds c.openChat
  | .sendAnswered n _ => ∀ s ∈ c.waiting.eraseIdx n, ¬ c.Saves e s.chat
  | _ => ∀ s ∈ c.waiting, ¬ c.Saves e s.chat

/-! What an event does to one id of one conversation. -/

variable {std : Sorter ChatStorage.Earlier} {shownStd : Sorter Older} {trimmed : Bytes → Bytes}
  {c c' d : LocalClient}
  {chat chat' : ConversationId} {i : Bytes} {saved saved' : Prop} {s : SentText} {w : MainWindow}
  {a : Acknowledged} {e : LocalEvent} {answer : SendAnswer} {messages : List Message} {m : Message}

theorem key_inj (h : chat.key = chat'.key) : chat = chat' := by
  have hsep : ∀ z, (35 : UInt8) ∉ formatInt z :=
    fun _ => not_mem_formatInt (by decide) (by decide)
  have hkey : ∀ c : ConversationId, c.key = formatInt c.chatType ++ 35 :: c.chatId := by
    intro c
    rw [ConversationId.key, convKey, List.append_assoc]
    rfl
  rw [hkey, hkey] at h
  obtain ⟨hnumber, hid⟩ := append_sep_inj (hsep chat.chatType) (hsep chat'.chatType) h
  exact ConversationId.ext hid (formatInt_inj hnumber)

theorem mem_idsOf_full (hi : i ≠ []) (h : i ∈ ChatStorage.idsOf (messages.map full)) :
    i ∈ idsOf messages := by
  obtain ⟨x, hx, rfl⟩ := List.mem_map.mp h
  obtain ⟨m, hm, rfl⟩ := List.mem_map.mp hx
  exact (mem_idsOf hi).mpr ⟨m, hm, rfl⟩

theorem mergeAndSave_file : (c.mergeAndSave std chat messages).file =
    ChatStorage.mergeLoaded std std c.file chat.chatId chat.chatType (messages.map full) (500 * 2)
      500 := by
  simp only [mergeAndSave, ChatStorage.mergeAndSaveMessages_of_fits (z := 500) (by decide),
    Option.getD_some]

/-- A save brings no other ids than those that are saved. -/
theorem mem_mergeAndSave (hi : i ≠ [])
    (h : i ∈ (c.mergeAndSave std chat' messages).storedIds chat) :
    i ∈ c.storedIds chat ∨ chat' = chat ∧ i ∈ idsOf messages := by
  rw [storedIds, mergeAndSave_file] at h
  by_cases hchat : chat' = chat
  · subst hchat
    rcases ChatStorage.mem_idsOf_merge h with h | h
    · exact Or.inl h
    · exact Or.inr ⟨rfl, mem_idsOf_full hi h⟩
  · have hother : ¬ (chat.chatId = chat'.chatId ∧ chat.chatType = chat'.chatType) := by
      rintro ⟨hid, htype⟩
      exact hchat (ConversationId.ext hid.symm htype.symm)
    rw [ChatStorage.stored_merge_other _ _ _ _ _ _ hother] at h
    exact Or.inl h

theorem mem_saveMessagesToLocal (hi : i ≠ [])
    (h : i ∈ (c.saveMessagesToLocal std trimmed chat').storedIds chat) :
    i ∈ c.storedIds chat ∨ chat' = chat ∧ i ∈ idsAt c.window chat.key := by
  unfold saveMessagesToLocal at h
  split at h
  · exact Or.inl h
  · split at h
    · exact Or.inl h
    · rename_i messages hlist
      rcases mem_mergeAndSave hi h with hold | ⟨rfl, hnew⟩
      · exact Or.inl hold
      · refine Or.inr ⟨rfl, ?_⟩
        rw [idsAt, MainWindow.messagesOf, hlist]
        exact hnew

variable (std trimmed c) in
theorem save_same (chat : ConversationId) :
    (c.saveMessagesToLocal std trimmed chat).window = c.window ∧
      (c.saveMessagesToLocal std trimmed chat).waiting = c.waiting ∧
      (c.saveMessagesToLocal std trimmed chat).acked = c.acked := by
  unfold saveMessagesToLocal
  split
  · exact ⟨rfl, rfl, rfl⟩
  · split
    · exact ⟨rfl, rfl, rfl⟩
    · exact ⟨rfl, rfl, rfl⟩

/-- The id is shown no more often than before, and it is in the file only if it was there or the
conversation was saved while it was shown. -/
structure Keeps (c c' : LocalClient) (chat : ConversationId) (i : Bytes) (saved : Prop) : Prop where
  shown : (idsAt c'.window chat.key).count i ≤ (idsAt c.window chat.key).count i
  stored : i ∈ c'.storedIds chat → i ∈ c.storedIds chat ∨ saved ∧ i ∈ idsAt c.window chat.key

theorem Keeps.refl : Keeps c c chat i saved := ⟨Nat.le_refl _, Or.inl⟩

theorem Keeps.mem (h : Keeps c c' chat i saved) (hi : i ∈ idsAt c'.window chat.key) :
    i ∈ idsAt c.window chat.key := by
  have hpos := List.count_pos_iff.mpr hi
  exact List.count_pos_iff.mp (Nat.lt_of_lt_of_le hpos h.shown)

theorem Keeps.trans (h : Keeps c c' chat i saved) (h' : Keeps c' d chat i saved') :
    Keeps c d chat i (saved ∨ saved') := by
  constructor
  · exact Nat.le_trans h'.shown h.shown
  · intro hd
    rcases h'.stored hd with hstored | ⟨hsaved, hshown⟩
    · rcases h.stored hstored with hstored | ⟨hsaved, hshown⟩
      · exact Or.inl hstored
      · exact Or.inr ⟨Or.inl hsaved, hshown⟩
    · exact Or.inr ⟨Or.inr hsaved, h.mem hshown⟩

theorem Keeps.imp (h : Keeps c c' chat i saved) (himp : saved → saved') :
    Keeps c c' chat i saved' :=
  ⟨h.shown, fun hi => (h.stored hi).imp_right (fun h => ⟨himp h.1, h.2⟩)⟩

/-- The window changes. -/
theorem keeps_window (hfile : c'.file = c.file)
    (hshown : (idsAt c'.window chat.key).count i ≤ (idsAt c.window chat.key).count i) :
    Keeps c c' chat i saved := by
  refine ⟨hshown, ?_⟩
  rw [storedIds, hfile]
  exact Or.inl

/-- The window has changed, and a conversation is saved. -/
theorem Keeps.save (h : Keeps c c' chat i False) (hi : i ≠ []) :
    Keeps c (c'.saveMessagesToLocal std trimmed chat') chat i (chat' = chat) := by
  constructor
  · rw [(save_same std trimmed _ _).1]
    exact h.shown
  · intro hsaved
    rcases mem_saveMessagesToLocal hi hsaved with hstored | ⟨hchat, hshown⟩
    · rcases h.stored hstored with hstored | ⟨hno, _⟩
      · exact Or.inl hstored
      · exact absurd hno id
    · exact Or.inr ⟨hchat, h.mem hshown⟩

/-! The events. -/

theorem count_append (h : m.msgId ≠ i) :
    (idsOf (messages ++ [m])).count i = (idsOf messages).count i := by
  rw [idsOf_append, List.count_append, idsOf_singleton]
  split
  · rfl
  · have hzero : [m.msgId].count i = 0 := List.count_eq_zero_of_not_mem (by simpa using Ne.symm h)
    rw [hzero, Nat.add_zero]

theorem count_arrive {key : Bytes} (h : key = chat.key → m.msgId ≠ i) :
    (idsAt (w.setMessages key (w.messagesOf key ++ [m])) chat.key).count i ≤
      (idsAt w chat.key).count i := by
  rw [idsAt_setMessages]
  split
  · rename_i hkey
    rw [count_append (h hkey.symm), hkey]
    exact Nat.le_refl _
  · exact Nat.le_refl _

theorem push_keeps {p : PushPayload} (hids : c.IdsNew (.pushed p)) (ht : c.Temporary chat i)
    (hi : i ≠ []) :
    Keeps c (c.onPushNewMessage std trimmed p) chat i (c.Saves (.pushed p) chat) := by
  cases p with
  | push m =>
    have hnew : ∀ h : (chatOf (c.window.messageOf m)).key = chat.key, m.msgId ≠ i := by
      rintro h rfl
      exact hids (key_inj h ▸ ht)
    refine Keeps.save (keeps_window rfl ?_) hi
    exact count_arrive (m := c.window.messageOf m) hnew
  | legacy m =>
    have hnew : ∀ h : convKey m.toId m.chatType = chat.key, m.msgId ≠ i := by
      rintro h rfl
      have hchat : ⟨m.toId, m.chatType⟩ = chat := key_inj h
      exact hids (hchat ▸ ht)
    refine Keeps.save (keeps_window rfl ?_) hi
    change (idsOf ((c.window.onPushNewMessage (.legacy m)).messagesOf chat.key)).count i ≤ _
    rw [legacy_messages]
    exact count_arrive (m := c.window.messageOf m) hnew
  | unreadable => exact Keeps.refl

theorem merge_keeps (h : chatOf m = chat → m.msgId ≠ i) (hi : i ≠ []) :
    Keeps c (c.mergeOfflineMessage std trimmed m) chat i (chatOf m = chat) := by
  have hwindow : Keeps c { c with window := c.window.mergeOfflineMessage m } chat i False := by
    refine keeps_window rfl ?_
    change (idsOf ((c.window.mergeOfflineMessage m).messagesOf chat.key)).count i ≤ _
    rw [merge_messages]
    split
    · rename_i hnew
      rw [count_append (h (key_inj hnew.1))]
      exact Nat.le_refl _
    · exact Nat.le_refl _
  unfold mergeOfflineMessage
  dsimp only
  split
  · exact hwindow.save hi
  · exact hwindow.imp False.elim

variable (std trimmed c) in
theorem merge_same (msg : Message) :
    (c.mergeOfflineMessage std trimmed msg).window.messageOf = c.window.messageOf ∧
      (c.mergeOfflineMessage std trimmed msg).waiting = c.waiting ∧
      (c.mergeOfflineMessage std trimmed msg).acked = c.acked := by
  have huser : (c.window.mergeOfflineMessage msg).messageOf = c.window.messageOf := by
    funext m
    unfold MainWindow.messageOf
    rw [(merge_open msg).2.2]
  unfold mergeOfflineMessage
  dsimp only
  split
  · obtain ⟨hwindow, hwaiting, hacked⟩ := save_same std trimmed
      { c with window := c.window.mergeOfflineMessage msg } (chatOf msg)
    rw [hwindow, hwaiting, hacked]
    exact ⟨huser, rfl, rfl⟩
  · exact ⟨huser, rfl, rfl⟩

theorem offline_keeps {code : Int} {page : Option (List ChatMessage)}
    (hids : c.IdsNew (.offlineAnswered code page)) (ht : c.Temporary chat i) (hi : i ≠ []) :
    Keeps c (c.offlineAnswered std trimmed code page) chat i
      (c.Saves (.offlineAnswered code page) chat) := by
  have hall : ∀ page : List ChatMessage,
      (∀ m ∈ page, chatOf (c.window.messageOf m) = chat → m.msgId ≠ i) →
      Keeps c (page.foldl (fun c m => c.mergeOfflineMessage std trimmed (c.window.messageOf m)) c)
        chat i (∃ m ∈ page, chatOf (c.window.messageOf m) = chat) := by
    clear hids ht
    intro page
    induction page generalizing c with
    | nil => exact fun _ => Keeps.refl
    | cons m page ih =>
      intro hnew
      have hfirst : Keeps c (c.mergeOfflineMessage std trimmed (c.window.messageOf m)) chat i
          (chatOf (c.window.messageOf m) = chat) :=
        merge_keeps (hnew m List.mem_cons_self) hi
      have hrest := ih (c := c.mergeOfflineMessage std trimmed (c.window.messageOf m))
      rw [(merge_same std trimmed c _).1] at hrest
      refine (hfirst.trans (hrest fun m hm => hnew m (List.mem_cons_of_mem _ hm))).imp ?_
      rintro (h | ⟨m', hm', h⟩)
      · exact ⟨m, List.mem_cons_self, h⟩
      · exact ⟨m', List.mem_cons_of_mem _ hm', h⟩
  cases page with
  | none => exact Keeps.refl
  | some page =>
    simp only [offlineAnswered]
    split
    · refine (hall page ?_).imp (fun h => ⟨page, rfl, h⟩)
      rintro m hm rfl rfl
      exact hids page rfl m hm ht
    · exact Keeps.refl

theorem history_keeps {code : Int} {page : List ChatMessage}
    (hids : c.IdsNew (.historyAnswered chat' code page)) (ht : c.Temporary chat i) (hi : i ≠ []) :
    Keeps c (c.historyAnswered std shownStd chat' code page) chat i
      (c.Saves (.historyAnswered chat' code page) chat) := by
  unfold historyAnswered
  split
  · exact Keeps.refl
  · rename_i hcode
    have hshown : (idsAt (c.window.historyAnswered shownStd chat'.chatId chat'.chatType code
        page) chat.key).count i ≤ (idsAt c.window chat.key).count i := by
      unfold MainWindow.historyAnswered
      rw [if_neg hcode, idsAt_setMessages]
      split
      · rename_i hkey
        have hnew : i ∉ idsOf (page.map c.window.messageOf) := by
          intro hin
          obtain ⟨x, hx, rfl⟩ := (mem_idsOf hi).mp hin
          obtain ⟨m, hm, rfl⟩ := List.mem_map.mp hx
          have hchat : chat = chat' := key_inj hkey
          exact hids m hm (hchat ▸ ht)
        rw [(history_ids _ _ _).count_eq, List.count_append, List.count_eq_zero_of_not_mem hnew,
          Nat.zero_add, hkey]
        exact ((List.filter_sublist.map _).filter _).count_le _
      · exact Nat.le_refl _
    refine ⟨hshown, ?_⟩
    intro hstored
    rcases mem_mergeAndSave hi hstored with hold | ⟨rfl, hin⟩
    · exact Or.inl hold
    · have hpos := List.count_pos_iff.mpr hin
      refine Or.inr ⟨⟨not_not.mp hcode, rfl⟩, ?_⟩
      exact List.count_pos_iff.mp (Nat.lt_of_lt_of_le hpos hshown)

theorem send_keeps {content : Bytes} {clock clock' : Int} {ready serializes : Bool}
    (hids : c.IdsNew (.send content clock clock' ready serializes)) (ht : c.Temporary chat i) :
    Keeps c (c.sendChatMessage content clock clock' ready serializes) chat i
      (c.Saves (.send content clock clock' ready serializes) chat) := by
  have hwindow : (idsAt (c.window.sendChatMessage content clock clock' ready serializes)
      chat.key).count i ≤ (idsAt c.window chat.key).count i := by
    unfold MainWindow.sendChatMessage
    split
    · exact Nat.le_refl _
    · rename_i hgo
      push Not at hgo
      have hnew := (hids hgo.1 hgo.2.1 hgo.2.2).2
      have hcount : (idsAt (c.window.setMessages c.openChat.key
          (c.window.messagesOf c.openChat.key ++ [c.window.localMessage content clock clock']))
          chat.key).count i ≤ (idsAt c.window chat.key).count i := by
        apply count_arrive
        rintro hkey rfl
        exact hnew (key_inj hkey ▸ ht)
      dsimp only
      split
      · exact hcount
      · exact hcount
  unfold sendChatMessage
  dsimp only
  split
  · exact keeps_window rfl hwindow
  · exact keeps_window rfl hwindow

theorem callback_absent {s : PendingSend} (hne : s.localMsgId ≠ [])
    (h : s.localMsgId ∉ idsAt w s.key) : w.sendCallback s answer = w := by
  have hnone : (w.messagesOf s.key).find? (fun m => m.msgId = s.localMsgId) = none := by
    rw [List.find?_eq_none]
    intro m hm hid
    exact h ((mem_idsOf hne).mpr ⟨m, hm, of_decide_eq_true hid⟩)
  unfold MainWindow.sendCallback
  dsimp only
  rw [hnone]

/-- The entry of a text that is answered gets its new id. -/
theorem callback_perm {s : PendingSend} (h : s.localMsgId ∈ idsAt w s.key) (answer : SendAnswer) :
    (∃ rest, (idsAt w s.key).Perm (s.localMsgId :: rest) ∧
      (idsAt (w.sendCallback s answer) s.key).Perm (answer.idFor s :: rest)) ∧
    ∀ key, key ≠ s.key → idsAt (w.sendCallback s answer) key = idsAt w key := by
  have hne : s.localMsgId ≠ [] := fun he => nil_notMem_idsOf (he ▸ h)
  obtain ⟨f, hf, hids, _, _⟩ := sendCallback_spec answer h
  rw [hids]
  constructor
  · rw [idsAt_setMessages, if_pos rfl]
    exact updateFirst_perm h hf (idFor_ne_nil hne)
  · intro key hkey
    rw [idsAt_setMessages, if_neg hkey]

theorem callback_count {s : PendingSend} {key : Bytes} (hne : s.localMsgId ≠ [])
    (h : answer.idFor s = s.localMsgId ∨ (key = s.key → answer.idFor s ≠ i)) :
    (idsAt (w.sendCallback s answer) key).count i ≤ (idsAt w key).count i := by
  by_cases hin : s.localMsgId ∈ idsAt w s.key
  · obtain ⟨⟨rest, hold, hnew⟩, hother⟩ := callback_perm hin answer
    by_cases hkey : key = s.key
    · subst hkey
      rw [hold.count_eq, hnew.count_eq]
      rcases h with h | h
      · rw [h]
      · rw [List.count_cons_of_ne (h rfl)]
        exact List.count_le_count_cons
    · rw [hother key hkey]
  · rw [callback_absent hne hin]

theorem called_keeps {n : Nat} (hs : c.waiting[n]? = some s)
    (hids : c.IdsNew (.sendAnswered n answer)) (ht : c.Temporary chat i)
    (hne : s.localMsgId ≠ []) : Keeps c (c.called n s answer) chat i False := by
  refine keeps_window rfl ?_
  change (idsAt ((_ : MainWindow).sendCallback s.pending answer) chat.key).count i ≤
    (idsAt { c.window with sends := c.window.sends.eraseIdx n } chat.key).count i
  apply callback_count hne
  rcases hids s hs with h | h
  · exact Or.inl h
  · right
    rintro hkey rfl
    exact h (key_inj hkey ▸ ht)

theorem answered_keeps {n : Nat} (hids : c.IdsNew (.sendAnswered n answer))
    (ht : c.Temporary chat i) (hi : i ≠ []) (hnamed : ∀ s ∈ c.waiting, s.localMsgId ≠ []) :
    Keeps c (c.sendAnswered std trimmed n answer) chat i
      (c.Saves (.sendAnswered n answer) chat) := by
  unfold sendAnswered
  split
  · exact Keeps.refl
  · rename_i s hs
    have hcalled := called_keeps hs hids ht (hnamed s (List.mem_of_getElem? hs))
    split
    · rename_i hack
      exact (hcalled.save hi).imp (fun h => ⟨s, hs, hack, h⟩)
    · exact hcalled.imp False.elim

/-- The temporary id of a text that is accepted is gone, unless the file had it. -/
theorem answered_gone {n : Nat} (hs : c.waiting[n]? = some s) (hne : s.localMsgId ≠ [])
    (hack : c.Acknowledges s answer) (hid : answer.idFor s.pending ≠ s.localMsgId)
    (honce : (idsAt c.window s.chat.key).count s.localMsgId ≤ 1)
    (hunsaved : s.localMsgId ∉ c.storedIds s.chat) :
    s.localMsgId ∉ idsAt (c.sendAnswered std trimmed n answer).window s.chat.key ∧
      s.localMsgId ∉ (c.sendAnswered std trimmed n answer).storedIds s.chat := by
  have hin : s.localMsgId ∈ idsAt c.window s.chat.key := (mem_idsOf hne).mpr hack.1
  have hshown : s.localMsgId ∉ idsAt (c.called n s answer).window s.chat.key := by
    obtain ⟨⟨rest, hold, hnew⟩, _⟩ := callback_perm (s := s.pending)
      (w := { c.window with sends := c.window.sends.eraseIdx n }) hin answer
    have hrest : s.localMsgId ∉ rest := by
      have hcount := hold.count_eq s.localMsgId
      change (idsAt c.window s.chat.key).count s.localMsgId = _ at hcount
      rw [SentText.pending, List.count_cons_self] at hcount
      exact List.count_eq_zero.mp (by omega)
    intro hmem
    rcases List.mem_cons.mp (hnew.mem_iff.mp hmem) with h | h
    · exact hid h.symm
    · exact hrest h
  have hanswered : c.sendAnswered std trimmed n answer =
      (c.called n s answer).saveMessagesToLocal std trimmed s.chat := by
    unfold sendAnswered
    rw [hs]
    exact if_pos hack
  rw [hanswered, (save_same std trimmed _ _).1]
  refine ⟨hshown, ?_⟩
  intro hstored
  rcases mem_saveMessagesToLocal hne hstored with hold | ⟨_, hmem⟩
  · exact hunsaved hold
  · exact hshown hmem

/-! The invariant. -/

/-- A text that waits is shown at most once under its temporary id. One that was accepted is
neither shown nor stored under it, unless the server has given it no other. -/
structure Tracked (c : LocalClient) : Prop where
  named : ∀ chat, ¬ c.Temporary chat []
  once : ∀ s ∈ c.waiting, (idsAt c.window s.chat.key).count s.localMsgId ≤ 1
  gone : ∀ a ∈ c.acked, a.msgId ≠ a.localMsgId →
    a.localMsgId ∉ idsAt c.window a.chat.key ∧ a.localMsgId ∉ c.storedIds a.chat

theorem Temporary.waiting (h : s ∈ c.waiting) : c.Temporary s.chat s.localMsgId :=
  Or.inl ⟨s, h, rfl, rfl⟩

theorem Temporary.acked (h : a ∈ c.acked) : c.Temporary a.chat a.localMsgId :=
  Or.inr ⟨a, h, rfl, rfl⟩

theorem Tracked.ne_nil (h : Tracked c) (ht : c.Temporary chat i) : i ≠ [] := by
  rintro rfl
  exact h.named chat ht

/-- An accepted text has one entry in the file, if it has any. -/
theorem Tracked.sentOnce (h : Tracked c) : c.SentOnce := by
  intro a ha
  have hids : (ChatStorage.idsOf (c.entriesOf a)).Nodup :=
    (ChatStorage.stored c.file a.chat.chatId a.chat.chatType).distinct.sublist
      (List.filter_sublist.map _)
  have hsame : ChatStorage.idsOf (c.entriesOf a) ⊆ [a.msgId] := by
    intro i hi
    obtain ⟨m, hm, rfl⟩ := List.mem_map.mp hi
    obtain ⟨hm, hid⟩ := List.mem_filter.mp hm
    rcases of_decide_eq_true hid with hid | hid
    · by_cases hother : a.msgId = a.localMsgId
      · rw [hid, hother]
        exact List.mem_cons_self
      · have hin : m.msgId ∈ c.storedIds a.chat := ChatStorage.mem_idsOf hm
        exact absurd (hid ▸ hin) (h.gone a ha hother).2
    · rw [hid]
      exact List.mem_cons_self
  have hle := (List.subperm_of_subset hids hsame).length_le
  rwa [ChatStorage.length_idsOf] at hle

/-- What an event must do to keep the invariant. -/
theorem Tracked.keep {saves : ConversationId → Prop} (h : Tracked c)
    (hk : ∀ chat i, c.Temporary chat i → Keeps c c' chat i (saves chat))
    (hwaiting : ∀ s ∈ c'.waiting, s ∈ c.waiting ∨ s.localMsgId ≠ [] ∧
      (idsAt c'.window s.chat.key).count s.localMsgId ≤ 1)
    (hacked : ∀ a ∈ c'.acked, a ∈ c.acked ∨ a.localMsgId ≠ [] ∧ (a.msgId ≠ a.localMsgId →
      a.localMsgId ∉ idsAt c'.window a.chat.key ∧ a.localMsgId ∉ c'.storedIds a.chat)) :
    Tracked c' := by
  constructor
  · rintro chat (⟨s, hs, rfl, hnil⟩ | ⟨a, ha, rfl, hnil⟩)
    · rcases hwaiting s hs with hs | ⟨hne, _⟩
      · exact h.ne_nil (Temporary.waiting hs) hnil
      · exact hne hnil
    · rcases hacked a ha with ha | ⟨hne, _⟩
      · exact h.ne_nil (Temporary.acked ha) hnil
      · exact hne hnil
  · intro s hs
    rcases hwaiting s hs with hs | ⟨_, honce⟩
    · exact Nat.le_trans (hk _ _ (Temporary.waiting hs)).shown (h.once s hs)
    · exact honce
  · intro a ha hother
    rcases hacked a ha with ha | ⟨_, hgone⟩
    · obtain ⟨hshown, hstored⟩ := h.gone a ha hother
      have hkeeps := hk _ _ (Temporary.acked ha)
      refine ⟨fun hin => hshown (hkeeps.mem hin), ?_⟩
      intro hin
      rcases hkeeps.stored hin with hin | ⟨_, hin⟩
      · exact hstored hin
      · exact hshown hin
    · exact hgone hother

/-! What the events leave of the texts that were sent. -/

section Same
variable (std trimmed c)

theorem push_same (p : PushPayload) :
    (c.onPushNewMessage std trimmed p).waiting = c.waiting ∧
      (c.onPushNewMessage std trimmed p).acked = c.acked := by
  cases p with
  | push m =>
    exact (save_same std trimmed { c with window := c.window.onPushNewMessage (.push m) } _).2
  | legacy m =>
    exact (save_same std trimmed { c with window := c.window.onPushNewMessage (.legacy m) } _).2
  | unreadable => exact ⟨rfl, rfl⟩

theorem offline_same (code : Int) (page : Option (List ChatMessage)) :
    (c.offlineAnswered std trimmed code page).waiting = c.waiting ∧
      (c.offlineAnswered std trimmed code page).acked = c.acked := by
  cases page with
  | none => exact ⟨rfl, rfl⟩
  | some page =>
    simp only [offlineAnswered]
    split
    · induction page generalizing c with
      | nil => exact ⟨rfl, rfl⟩
      | cons m page ih =>
        obtain ⟨_, hwaiting, hacked⟩ := merge_same std trimmed c (c.window.messageOf m)
        rw [← hwaiting, ← hacked]
        exact ih _
    · exact ⟨rfl, rfl⟩

theorem history_same (chat : ConversationId) (code : Int) (page : List ChatMessage) :
    (c.historyAnswered std shownStd chat code page).waiting = c.waiting ∧
      (c.historyAnswered std shownStd chat code page).acked = c.acked := by
  unfold historyAnswered
  split
  · exact ⟨rfl, rfl⟩
  · exact ⟨rfl, rfl⟩

theorem send_acked (content : Bytes) (clock clock' : Int)
    (ready serializes : Bool) :
    (c.sendChatMessage content clock clock' ready serializes).acked = c.acked ∧
      (c.sendChatMessage content clock clock' ready serializes).file = c.file := by
  unfold sendChatMessage
  dsimp only
  split
  · exact ⟨rfl, rfl⟩
  · exact ⟨rfl, rfl⟩

theorem answered_same (n : Nat) (answer : SendAnswer) :
    (c.sendAnswered std trimmed n answer).waiting = c.waiting.eraseIdx n ∧
      ∀ a ∈ (c.sendAnswered std trimmed n answer).acked, a ∈ c.acked ∨
        ∃ s ∈ c.waiting[n]?, c.Acknowledges s answer ∧ a = ⟨s, answer.idFor s.pending⟩ := by
  unfold sendAnswered
  split
  · rename_i hnone
    rw [List.eraseIdx_of_length_le (List.getElem?_eq_none_iff.mp hnone)]
    exact ⟨rfl, fun a ha => Or.inl ha⟩
  · rename_i s hs
    have hcalled : ∀ a ∈ (c.called n s answer).acked, a ∈ c.acked ∨
        ∃ s ∈ c.waiting[n]?, c.Acknowledges s answer ∧ a = ⟨s, answer.idFor s.pending⟩ := by
      intro a ha
      rcases List.mem_append.mp ha with ha | ha
      · exact Or.inl ha
      · split at ha
        · rename_i hack
          exact Or.inr ⟨s, hs, hack, List.mem_singleton.mp ha⟩
        · cases ha
    split
    · rw [(save_same std trimmed _ _).2.1, (save_same std trimmed _ _).2.2]
      exact ⟨rfl, hcalled⟩
    · exact ⟨rfl, hcalled⟩

end Same

/-- A new text waits under a new temporary id. -/
theorem send_waiting {content : Bytes} {clock clock' : Int} {ready serializes : Bool}
    (hids : c.IdsNew (.send content clock clock' ready serializes))
    (hs : s ∈ (c.sendChatMessage content clock clock' ready serializes).waiting) :
    s ∈ c.waiting ∨ s = ⟨c.openChat, MainWindow.localMsgId clock⟩ ∧
      (c.window.currentChatId ≠ [] ∧ content ≠ [] ∧ ready = true) ∧
      (idsAt (c.sendChatMessage content clock clock' ready serializes).window s.chat.key).count
        s.localMsgId ≤ 1 := by
  simp only [sendChatMessage] at hs ⊢
  split at hs
  · exact Or.inl hs
  · rename_i hgo
    push Not at hgo
    obtain ⟨hopen, hcontent, hready, hserializes⟩ := hgo
    rcases List.mem_append.mp hs with hs | hs
    · exact Or.inl hs
    · obtain rfl := List.mem_singleton.mp hs
      refine Or.inr ⟨rfl, ⟨hopen, hcontent, hready⟩, ?_⟩
      have hnew := (hids hopen hcontent hready).1
      have hsent : (idsAt (c.window.sendChatMessage content clock clock' ready serializes)
          c.openChat.key).count (MainWindow.localMsgId clock) ≤ 1 := by
        unfold MainWindow.sendChatMessage
        rw [if_neg (by tauto)]
        dsimp only
        rw [if_pos hserializes]
        change (idsAt (c.window.setMessages c.openChat.key (c.window.messagesOf c.openChat.key ++
          [c.window.localMessage content clock clock'])) c.openChat.key).count _ ≤ 1
        rw [idsAt_setMessages, if_pos rfl, idsAt_append, List.count_append,
          List.count_eq_zero_of_not_mem hnew, idsOf_singleton]
        split
        · exact Nat.zero_le _
        · rw [Nat.zero_add]
          exact List.count_le_length
      split
      · exact hsent
      · exact hsent

/-! Each event keeps the invariant. -/

theorem Tracked.arrive {saves : ConversationId → Prop} (h : Tracked c)
    (hsame : c'.waiting = c.waiting ∧ c'.acked = c.acked)
    (hk : ∀ chat i, c.Temporary chat i → Keeps c c' chat i (saves chat)) : Tracked c' := by
  apply h.keep hk
  · intro s hs
    exact Or.inl (hsame.1 ▸ hs)
  · intro a ha
    exact Or.inl (hsame.2 ▸ ha)

theorem Tracked.send (h : Tracked c) {content : Bytes} {clock clock' : Int}
    {ready serializes : Bool} (hids : c.IdsNew (.send content clock clock' ready serializes)) :
    Tracked (c.sendChatMessage content clock clock' ready serializes) := by
  apply h.keep (fun chat i ht => send_keeps hids ht)
  · intro s hs
    rcases send_waiting hids hs with hs | ⟨rfl, _, honce⟩
    · exact Or.inl hs
    · exact Or.inr ⟨localMsgId_ne_nil, honce⟩
  · intro a ha
    exact Or.inl ((send_acked c content clock clock' ready serializes).1 ▸ ha)

theorem Tracked.answered (h : Tracked c) {n : Nat} (hids : c.IdsNew (.sendAnswered n answer))
    (hunsaved : c.Unsaved (.sendAnswered n answer)) :
    Tracked (c.sendAnswered std trimmed n answer) := by
  have hnamed : ∀ s ∈ c.waiting, s.localMsgId ≠ [] :=
    fun s hs => h.ne_nil (Temporary.waiting hs)
  obtain ⟨hwaiting, hacked⟩ := answered_same std trimmed c n answer
  apply h.keep (fun chat i ht => answered_keeps hids ht (h.ne_nil ht) hnamed)
  · intro s hs
    rw [hwaiting] at hs
    exact Or.inl ((List.eraseIdx_sublist _ _).subset hs)
  · intro a ha
    rcases hacked a ha with ha | ⟨s, hs, hack, rfl⟩
    · exact Or.inl ha
    · have hmem : s ∈ c.waiting := List.mem_of_getElem? hs
      refine Or.inr ⟨hnamed s hmem, ?_⟩
      intro hother
      exact answered_gone hs (hnamed s hmem) hack hother (h.once s hmem)
        ((hunsaved s hs hack).resolve_left hother)

theorem selected_shown (h : i ∈ idsAt (c.onConversationSelected std chat').window chat.key) :
    i ∈ idsAt c.window chat.key ∨ i ∈ c.storedIds chat := by
  unfold idsAt onConversationSelected at h
  dsimp only at h
  rw [selected_messages] at h
  split at h
  · rename_i hempty
    have hchat : chat = chat' := key_inj hempty.1
    subst hchat
    have hi : i ≠ [] := fun he => nil_notMem_idsOf (he ▸ h)
    obtain ⟨x, hx, rfl⟩ := (mem_idsOf hi).mp h
    obtain ⟨y, hy, rfl⟩ := List.mem_map.mp hx
    obtain ⟨m, hm, rfl⟩ := List.mem_map.mp hy
    have hload := ChatStorage.loaded_loadMessages std c.file chat.chatId chat.chatType 500
    exact Or.inr (ChatStorage.mem_idsOf (hload.mem m hm))
  · exact Or.inl h

theorem Tracked.select (h : Tracked c) (chat' : ConversationId) :
    Tracked (c.onConversationSelected std chat') := by
  refine ⟨h.named, ?_, ?_⟩
  · intro s hs
    have honce := h.once s hs
    unfold idsAt at honce ⊢
    unfold onConversationSelected
    dsimp only
    rw [selected_messages]
    split
    · have hids : idsOf (ownFlags c.window (c.storedMessages std chat').messages) =
          idsOf (c.storedMessages std chat').messages := by
        rw [idsOf, ownFlags, List.map_map]
        rfl
      rw [hids]
      exact List.nodup_iff_count_le_one.mp (c.storedMessages std chat').distinct _
    · exact honce
  · intro a ha hother
    obtain ⟨hshown, hstored⟩ := h.gone a ha hother
    refine ⟨?_, hstored⟩
    intro hin
    rcases selected_shown hin with hin | hin
    · exact hshown hin
    · exact hstored hin

theorem Tracked.step (h : Tracked c) (hids : c.IdsNew e) (hunsaved : c.Unsaved e) :
    Tracked (c.step std shownStd trimmed e) := by
  cases e with
  | pushed payload =>
    exact h.arrive (push_same std trimmed c payload)
      (fun _ _ ht => push_keeps hids ht (h.ne_nil ht))
  | offlineAnswered code page =>
    exact h.arrive (offline_same std trimmed c code page)
      (fun _ _ ht => offline_keeps hids ht (h.ne_nil ht))
  | historyAnswered chat code page =>
    exact h.arrive (history_same std c chat code page)
      (fun _ _ ht => history_keeps hids ht (h.ne_nil ht))
  | send content clock clock' ready serializes => exact h.send hids
  | sendAnswered n answer => exact h.answered hids hunsaved
  | selected chat => exact h.select chat

/-- No text that waits is in the file under its temporary id. -/
def Unstored (c : LocalClient) : Prop := ∀ s ∈ c.waiting, s.localMsgId ∉ c.storedIds s.chat

theorem Unstored.unsaved (h : Unstored c) : c.Unsaved e := by
  cases e with
  | sendAnswered n answer => exact fun s hs _ => Or.inr (h s (List.mem_of_getElem? hs))
  | pushed payload => trivial
  | offlineAnswered code page => trivial
  | historyAnswered chat code page => trivial
  | send content clock clock' ready serializes => trivial
  | selected chat => trivial

theorem Unstored.keep {saves : ConversationId → Prop} (h : Unstored c)
    (hk : ∀ chat i, c.Temporary chat i → Keeps c c' chat i (saves chat))
    (hwaiting : ∀ s ∈ c'.waiting,
      s ∈ c.waiting ∧ ¬ saves s.chat ∨ s.localMsgId ∉ c'.storedIds s.chat) : Unstored c' := by
  intro s hs
  rcases hwaiting s hs with ⟨hs, hnot⟩ | hnew
  · intro hstored
    rcases (hk _ _ (Temporary.waiting hs)).stored hstored with hold | ⟨hsaves, _⟩
    · exact h s hs hold
    · exact hnot hsaves
  · exact hnew

theorem Unstored.arrive {saves : ConversationId → Prop} (h : Unstored c)
    (hwaiting : c'.waiting = c.waiting)
    (hk : ∀ chat i, c.Temporary chat i → Keeps c c' chat i (saves chat))
    (hnone : ∀ s ∈ c.waiting, ¬ saves s.chat) : Unstored c' := by
  apply h.keep hk
  intro s hs
  rw [hwaiting] at hs
  exact Or.inl ⟨hs, hnone s hs⟩

theorem Unstored.step (h : Unstored c) (ht : Tracked c) (hids : c.IdsNew e)
    (hnone : c.NoneWaiting e) : Unstored (c.step std shownStd trimmed e) := by
  cases e with
  | pushed payload =>
    exact h.arrive (push_same std trimmed c payload).1
      (fun _ _ hid => push_keeps hids hid (ht.ne_nil hid)) hnone
  | offlineAnswered code page =>
    exact h.arrive (offline_same std trimmed c code page).1
      (fun _ _ hid => offline_keeps hids hid (ht.ne_nil hid)) hnone
  | historyAnswered chat code page =>
    exact h.arrive (history_same std c chat code page).1
      (fun _ _ hid => history_keeps hids hid (ht.ne_nil hid)) hnone
  | send content clock clock' ready serializes =>
    apply h.keep (fun _ _ hid => send_keeps hids hid)
    intro s hs
    rcases send_waiting hids hs with hs | ⟨rfl, ⟨hopen, hcontent, hready⟩, _⟩
    · exact Or.inl ⟨hs, id⟩
    · right
      change _ ∉ (c.sendChatMessage content clock clock' ready serializes).storedIds c.openChat
      rw [storedIds, (send_acked c content clock clock' ready serializes).2]
      exact hnone hopen hcontent hready
  | sendAnswered n answer =>
    have hnamed : ∀ s ∈ c.waiting, s.localMsgId ≠ [] :=
      fun s hs => ht.ne_nil (Temporary.waiting hs)
    apply h.keep (fun _ _ hid => answered_keeps hids hid (ht.ne_nil hid) hnamed)
    intro s hs
    rw [(answered_same std trimmed c n answer).1] at hs
    exact Or.inl ⟨(List.eraseIdx_sublist _ _).subset hs, hnone s hs⟩
  | selected chat => exact h

/-- The client of a user who opens the window; the file may have messages of earlier runs. -/
def opened (user : Bytes) (conversations : OrderedMap Bytes Conversation)
    (contacts : List Conversation) (file : ChatStorage.MessageFile) : LocalClient :=
  { window := openWindow user conversations contacts, file := file }

theorem opened_tracked (user : Bytes) (conversations : OrderedMap Bytes Conversation)
    (contacts : List Conversation) (file : ChatStorage.MessageFile) :
    Tracked (opened user conversations contacts file) := by
  refine ⟨?_, fun _ hs => (nomatch hs), fun _ ha => (nomatch ha)⟩
  rintro chat (⟨s, hs, _⟩ | ⟨a, ha, _⟩)
  · cases hs
  · cases ha

/-- Along a run whose ids are new, every accepted text is in the file at most once, if the file does
not have it under its temporary id when it is acknowledged. That is so when no conversation is saved
while a text of it waits for its answer. -/
theorem sentOnce_of_run (std : Sorter ChatStorage.Earlier) (shownStd : Sorter Older)
    (trimmed : Bytes → Bytes) (user : Bytes) (conversations : OrderedMap Bytes Conversation)
    (contacts : List Conversation) (file : ChatStorage.MessageFile) (events : List LocalEvent) :
    (AllSteps (step std shownStd trimmed) (fun c e => c.IdsNew e ∧ c.Unsaved e)
      (opened user conversations contacts file) events →
      Always (step std shownStd trimmed) SentOnce (opened user conversations contacts file) events) ∧
    (AllSteps (step std shownStd trimmed) (fun c e => c.IdsNew e ∧ c.NoneWaiting e)
      (opened user conversations contacts file) events →
      Always (step std shownStd trimmed) SentOnce (opened user conversations contacts file) events) := by
  have hstart := opened_tracked user conversations contacts file
  constructor
  · intro h
    have htracked := always_of_allSteps (I := Tracked)
      (fun _ _ ht he => ht.step he.1 he.2) hstart h
    exact fun pre hpre => (htracked pre hpre).sentOnce
  · intro h
    have hboth := always_of_allSteps (I := fun c => Tracked c ∧ Unstored c)
      (fun _ _ ht he => ⟨ht.1.step he.1 ht.2.unsaved, ht.2.step ht.1 he.1 he.2⟩)
      ⟨hstart, fun _ hs => (nomatch hs)⟩ h
    exact fun pre hpre => (hboth pre hpre).1.sentOnce

def bob : ConversationId := { chatId := str "bob", chatType := 1 }

def acceptance : SendAnswer :=
  { code := 0, resp := some { success := true, msgId := str "m_1", timestamp := 3 } }

def alice : LocalClient := opened (str "alice") OrderedMap.empty [] OrderedMap.empty

/-- `alice` sends a text to `bob`. -/
def textToBob : List LocalEvent := [.selected bob, .send (str "hi") 1 1 true true]

/-- The text is acknowledged before anything else happens. -/
theorem sentOnce_answered : Always (step ChatStorage.timeSorter historySorter id) SentOnce alice
    (textToBob ++ [.sendAnswered 0 acceptance]) := by
  let sent := run (step ChatStorage.timeSorter historySorter id) alice textToBob
  have hwaiting : sent.waiting = [⟨bob, str "local_1"⟩] := by decide +kernel
  have hnew : ∀ s ∈ sent.waiting[0]?, acceptance.idFor s.pending = s.localMsgId ∨
      ¬ sent.Temporary s.chat (acceptance.idFor s.pending) := by
    rw [hwaiting]
    rintro s ⟨⟩
    decide +kernel
  have hnone : ∀ s ∈ sent.waiting.eraseIdx 0,
      ¬ sent.Saves (.sendAnswered 0 acceptance) s.chat := by
    rw [hwaiting]
    exact fun s hs => (nomatch hs)
  refine (sentOnce_of_run ChatStorage.timeSorter historySorter id (str "alice") OrderedMap.empty []
    OrderedMap.empty (textToBob ++ [.sendAnswered 0 acceptance])).2 ?_
  refine ⟨⟨trivial, ?_⟩, ⟨?_, ?_⟩, ⟨hnew, hnone⟩, trivial⟩
  · exact fun s hs => (nomatch hs)
  · intro _ _ _
    decide +kernel
  · intro _ _ _
    decide +kernel

/-- A message of `bob` comes while the text waits: the file has the text under both its ids. -/
theorem sent_twice : ¬ ∀ (std : Sorter ChatStorage.Earlier) (shownStd : Sorter Older)
    (trimmed : Bytes → Bytes) (events : List LocalEvent), Always (step std shownStd trimmed) SentOnce alice events := by
  intro h
  let push : ChatMessage :=
    { msgId := str "m_2", fromUserId := str "bob", toId := str "alice", timestamp := 2 }
  have hlast := (h ChatStorage.timeSorter historySorter id
    (textToBob ++ [.pushed (.push push), .sendAnswered 0 acceptance])).last
  have hacked : ⟨⟨bob, str "local_1"⟩, str "m_1"⟩ ∈ (run (step ChatStorage.timeSorter historySorter id) alice
      (textToBob ++ [.pushed (.push push), .sendAnswered 0 acceptance])).acked := by
    decide +kernel
  have honce := hlast _ hacked
  revert honce
  decide +kernel

end LocalClient
end SwiftChat.Client
